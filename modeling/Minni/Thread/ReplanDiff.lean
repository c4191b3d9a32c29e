import Minni.Thread.Digest

/-!
# The difference that a replan makes

The journal tells a replan by what landed: the slices that are new, those that
are newly superseded, the dependencies that were rewritten, and the open slices
that waited for a superseded one.
-/

namespace Minni
namespace Thread

open Foundation

structure DependsOnChange where
  slice_id : String
  from_ : List String
  to_ : List String

structure DependsOnSuperseded where
  slice_id : String
  depended_on_by : List String

structure LandedTopology where
  add_slices : Option (List SliceInput)
  drop_slice_ids : Option (List String)

structure ReplanPayload extends LandedTopology where
  depends_on_changed : Option (List DependsOnChange)
  depends_on_superseded : Option (List DependsOnSuperseded)

def diffDependsOn (before after : ThreadPlan) : List DependsOnChange :=
  after.slices.filterMap fun afterSlice =>
    match before.slices.find? (·.id = afterSlice.id) with
    | none => none
    | some beforeSlice =>
        if sameStringSet beforeSlice.depends_on afterSlice.depends_on then none
        else
          some
            { slice_id := afterSlice.id
              from_ := beforeSlice.depends_on.getD []
              to_ := afterSlice.depends_on.getD [] }

/-- A slice of the old plan that was not superseded there. -/
def wasLive (before : ThreadPlan) (id : String) : Bool :=
  match before.slices.find? (·.id = id) with
  | none => false
  | some slice => decide (slice.status ≠ PlanSliceStatus.superseded)

def newlySuperseded (before after : ThreadPlan) : List String :=
  ((after.slices.filter fun slice =>
    decide (slice.status = PlanSliceStatus.superseded)).map (·.id)).filter
      (wasLive before)

def diffSupersededDependencies (before after : ThreadPlan) :
    List DependsOnSuperseded :=
  (newlySuperseded before after).filterMap fun id =>
    let dependedOnBy := (after.slices.filter fun slice =>
      !slice.status.isResolved &&
        decide (id ∈ slice.depends_on.getD [])).map (·.id)
    if dependedOnBy.isEmpty then none
    else some { slice_id := id, depended_on_by := dependedOnBy }

def landedSlice (slice : ThreadSlice) : SliceInput :=
  { id := some slice.id
    title := slice.title
    gate := slice.gate
    depends_on := slice.depends_on
    evidence := none }

/-- The journal leaves out what is empty. -/
def nonempty {α : Type} (xs : List α) : Option (List α) :=
  if xs.isEmpty then none else some xs

def landedReplanTopology (before after : ThreadPlan) : LandedTopology :=
  { add_slices := nonempty ((after.slices.filter fun slice =>
      decide (slice.id ∉ before.slices.map (·.id))).map landedSlice)
    drop_slice_ids := nonempty
      (Text.sortStrings (newlySuperseded before after)) }

def replanPayload (before after : ThreadPlan) : ReplanPayload :=
  { landedReplanTopology before after with
    depends_on_changed := nonempty (diffDependsOn before after)
    depends_on_superseded :=
      nonempty (diffSupersededDependencies before after) }

/-!
## The payload as it is written
-/

def changeJson (change : DependsOnChange) : Json :=
  Json.object
    [("slice_id", some (Json.str change.slice_id)),
      ("from", some (Json.strings change.from_)),
      ("to", some (Json.strings change.to_))]

def supersededJson (entry : DependsOnSuperseded) : Json :=
  Json.object
    [("slice_id", some (Json.str entry.slice_id)),
      ("depended_on_by", some (Json.strings entry.depended_on_by))]

def ReplanPayload.json (payload : ReplanPayload) : Option Json :=
  let entries :=
    [("depends_on_changed", payload.depends_on_changed.map fun changes =>
        Json.arr (changes.map changeJson)),
      ("depends_on_superseded", payload.depends_on_superseded.map
        fun dependencies =>
          Json.arr (dependencies.map supersededJson)),
      ("add_slices", payload.add_slices.map fun slices =>
        Json.arr (slices.map proposedSliceJson)),
      ("drop_slice_ids", payload.drop_slice_ids.map Json.strings)]
  if entries.all fun entry => entry.snd.isNone then none
  else some (Json.object entries)

end Thread
end Minni
