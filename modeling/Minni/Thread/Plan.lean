import Minni.Foundation.Json
import Minni.Foundation.Text

/-!
# Plan artifacts

The plan of a thread and the pure operations on it: creation, the update of one
slice, scars, the two forms of a replan, and the forward restore of an earlier
revision.  Lower casing, the hash, the locale order, the text of a time and the
default agent belong to the host.  The type of a claim reference is a parameter, since no
operation here looks into a claim; each one keeps it or clears it.
-/

namespace Minni
namespace Thread

open Foundation

structure Host where
  toLowerCase : String -> String
  sha256Hex : String -> String
  localeLe : String -> String -> Bool
  toISOString : Nat -> String
  defaultAgentId : String

inductive PlanSliceStatus where
  | pending
  | in_progress
  | done
  | blocked
  | superseded
deriving DecidableEq, Repr

inductive PageStatus where
  | draft
  | candidate
  | accepted
  | complete
  | superseded
  | rejected
  | expired
deriving DecidableEq, Repr

structure SliceInput where
  id : Option String
  title : String
  gate : Option String
  depends_on : Option (List String)
  evidence : Option String
deriving DecidableEq

inductive StructuralProposal where
  | expand (reason : String) (slices : List SliceInput)
  | split (reason : String) (slices : List SliceInput)
  | contract (reason : String) (slice_ids : List String)
deriving DecidableEq

inductive ScarKind where
  | failed_command
  | dead_end
  | rejected_hypothesis
deriving DecidableEq, Repr

structure ScarTissueEntry where
  kind : ScarKind
  signal : String
  resolution : Option String
deriving DecidableEq

structure ShelfRef where
  agent : String
  wikilink : String
  pull_hint : String
  approx_tokens : Option JsonNumber
  shelf_hash : String
deriving DecidableEq

structure PlanSlice (Claim : Type) where
  id : String
  title : String
  status : PlanSliceStatus
  gate : Option String := none
  depends_on : Option (List String) := none
  evidence : Option String := none
  superseded_by : Option String := none
  replaced_by : Option (List String) := none
  requirements : Option (List String) := none
  assigned_to : Option String := none
  assignment_profile : Option String := none
  generation : Option Nat := none
  attempt : Option Nat := none
  claim : Option Claim := none
  proposals : Option (List StructuralProposal) := none
deriving DecidableEq

structure PlanArtifact (Claim : Type) where
  plan_id : String
  goal : String
  status : PageStatus
  constraints : List String
  slices : List (PlanSlice Claim)
  open_questions : List String
  scar_tissue : List ScarTissueEntry
  next_action : String
  shelf_ref : Option ShelfRef
  created : String
  updated : String
  rev : Nat
deriving DecidableEq

variable {Claim : Type}

namespace PlanSlice

/-- A generation that was never recorded counts as zero. -/
def requireGeneration (slice : PlanSlice Claim) : Nat :=
  slice.generation.getD 0

def requireAttempt (slice : PlanSlice Claim) : Nat :=
  slice.attempt.getD 0

end PlanSlice

namespace PlanSliceStatus

def isResolved (status : PlanSliceStatus) : Bool :=
  status = PlanSliceStatus.done || status = PlanSliceStatus.superseded

end PlanSliceStatus

/-!
## Identities and dependencies
-/

def ensure (condition : Bool) (message : String) : Except String Unit :=
  if condition then Except.ok () else Except.error message

def allSlicesResolved (slices : List (PlanSlice Claim)) : Bool :=
  !slices.isEmpty && slices.all fun s => s.status.isResolved

def isSlugChar (c : Char) : Bool :=
  ('a' ≤ c && c ≤ 'z') || ('0' ≤ c && c ≤ '9')

/-- Every run of other characters becomes one dash. -/
def dashRuns : Bool -> List Char -> List Char
  | _, [] => []
  | inRun, c :: cs =>
      if isSlugChar c then c :: dashRuns false cs
      else if inRun then dashRuns true cs
      else '-' :: dashRuns true cs

def stripDashes (cs : List Char) : List Char :=
  ((cs.dropWhile (· = '-')).reverse.dropWhile (· = '-')).reverse

/-- The text before the last dash of the first forty characters, when that dash
is not the first character. -/
def shortenSlug (cs : List Char) : List Char :=
  if cs.length ≤ 40 then cs
  else
    let head := cs.take 40
    let beforeLastDash :=
      (head.reverse.dropWhile (· ≠ '-')).drop 1 |>.reverse
    if beforeLastDash.isEmpty then head else beforeLastDash

def slugBase (host : Host) (title : String) : String :=
  let slug := stripDashes (dashRuns false (host.toLowerCase title).toList)
  String.ofList (shortenSlug (if slug.isEmpty then "slice".toList else slug))

def numberedSlug (slug : String) (i : Nat) : String :=
  slug ++ "-" ++ toString i

/-- The search among the numbered slugs; `fuel` many are tried. -/
def firstFreeSlug (slug : String) (taken : List String) : Nat -> Nat -> String
  | 0, i => numberedSlug slug i
  | fuel + 1, i =>
      if numberedSlug slug i ∈ taken then firstFreeSlug slug taken fuel (i + 1)
      else numberedSlug slug i

def slugifySliceId (host : Host) (title : String) (taken : List String) :
    String :=
  let slug := slugBase host title
  if slug ∈ taken then firstFreeSlug slug taken taken.length 2 else slug

/-- The first identifier of the list that has occurred before. -/
def firstDuplicate : List String -> List String -> Option String
  | _, [] => none
  | seen, id :: ids =>
      if id ∈ seen then some id else firstDuplicate (id :: seen) ids

def assertUniqueSliceIds (slices : List (PlanSlice Claim)) (context : String) :
    Except String Unit :=
  match firstDuplicate [] (slices.map (·.id)) with
  | some id => Except.error (context ++ ": duplicate slice id \"" ++ id ++ "\"")
  | none => Except.ok ()

def assertUniqueExplicitSliceIds (slices : List SliceInput)
    (context : String) : Except String Unit :=
  match firstDuplicate [] (slices.filterMap fun s => Text.truthy s.id) with
  | some id =>
      Except.error
        (context ++ ": duplicate explicit slice id \"" ++ id ++ "\"")
  | none => Except.ok ()

def assertNoSelfEdge (context sliceId : String)
    (dependsOn : Option (List String)) : Except String Unit :=
  if sliceId ∈ dependsOn.getD [] then
    Except.error
      (context ++ ": refused self-edge on slice \"" ++ sliceId ++ "\"")
  else
    Except.ok ()

def hasReplacement (slice : PlanSlice Claim) : Bool :=
  !(slice.replaced_by.getD []).isEmpty

/-- A dependency of a slice that is written now: it exists, and it is not
superseded unless this very call dropped it without a replacement. -/
def dependsOnTargetLive (previousSlices nextSlices : List (PlanSlice Claim))
    (depId : String) : Bool :=
  match nextSlices.find? (·.id = depId) with
  | none => false
  | some dep =>
      if dep.status = PlanSliceStatus.superseded then
        match previousSlices.find? (·.id = dep.id) with
        | none => false
        | some prev =>
            decide (prev.status ≠ PlanSliceStatus.superseded) &&
              !hasReplacement dep
      else
        true

def assertWrittenDependsOnTargetsLive (context : String)
    (previousSlices nextSlices : List (PlanSlice Claim))
    (writtenIds : List String) : Except String Unit :=
  let written := nextSlices.filter fun s => s.id ∈ writtenIds
  let targets := written.flatMap fun s => s.depends_on.getD []
  match targets.find? fun depId =>
      !dependsOnTargetLive previousSlices nextSlices depId with
  | some depId =>
      Except.error
        (context ++ ": cannot depend on \"" ++ depId ++
          "\" — missing or superseded")
  | none => Except.ok ()

def unmetDependencies (plan : PlanArtifact Claim) (slice_id : String) :
    List String :=
  let depends_on :=
    ((plan.slices.find? (·.id = slice_id)).bind (·.depends_on)).getD []
  depends_on.filter fun depId =>
    match plan.slices.find? (·.id = depId) with
    | none => true
    | some dep =>
        match dep.status with
        | PlanSliceStatus.done => false
        | PlanSliceStatus.superseded => hasReplacement dep
        | _ => true

def isActiveStatus (status : PlanSliceStatus) : Bool :=
  status = PlanSliceStatus.pending || status = PlanSliceStatus.in_progress ||
    status = PlanSliceStatus.blocked

def computeNextAction (slices : List (PlanSlice Claim)) : String :=
  match slices.find? fun s => isActiveStatus s.status with
  | none =>
      if slices.all fun s => s.status.isResolved then "complete"
      else "review superseded slices"
  | some active =>
      let verify :=
        match Text.truthy active.gate with
        | some gate => " (verify: " ++ gate ++ ")"
        | none => ""
      let depends :=
        match active.depends_on with
        | some (dep :: deps) => " depends:" ++ Text.join "," (dep :: deps)
        | _ => ""
      active.id ++ ": " ++ active.title ++ verify ++ depends

/-!
## Creation
-/

structure ShelfRefInput where
  agent : Option String
  wikilink : Option String
  pull_hint : Option String
  approx_tokens : Option JsonNumber
  shelf_hash : Option String
  shelf_content : Option String

structure CreatePlanInput where
  goal : String
  constraints : Option (List String)
  slices : Option (List SliceInput)
  open_questions : Option (List String)
  scar_tissue : Option (List ScarTissueEntry)
  shelf_ref : Option ShelfRefInput
  next_action : Option String

def takeString (n : Nat) (s : String) : String :=
  String.ofList (s.toList.take n)

def computeShelfHash (host : Host) (content : String) : String :=
  takeString 16 (host.sha256Hex content)

def trimmedOr (value : Option String) (fallback : String) : String :=
  (Text.truthy (some (Text.trim (value.getD fallback)))).getD fallback

def normalizeShelfRef (host : Host) (input : ShelfRefInput) : ShelfRef :=
  let wikilink := trimmedOr input.wikilink "[[unknown]]"
  let shelf_hash :=
    match Text.truthy input.shelf_hash, Text.truthy input.shelf_content with
    | some hash, _ => hash
    | none, some content => computeShelfHash host content
    | none, none => computeShelfHash host wikilink
  { agent := trimmedOr input.agent "unknown"
    wikilink := wikilink
    pull_hint := trimmedOr input.pull_hint "manual"
    approx_tokens := input.approx_tokens
    shelf_hash := shelf_hash }

def initialSlice (id : String) (s : SliceInput) : PlanSlice Claim :=
  { id := id
    title := s.title
    status := PlanSliceStatus.pending
    gate := s.gate
    depends_on := s.depends_on
    evidence := s.evidence }

def sliceIdFor (host : Host) (s : SliceInput) (used : List String) : String :=
  (Text.truthy s.id).getD (slugifySliceId host s.title used)

def initialSlices (host : Host) :
    List String -> List SliceInput -> List (PlanSlice Claim)
  | _, [] => []
  | used, s :: rest =>
      let id := sliceIdFor host s used
      initialSlice id s :: initialSlices host (id :: used) rest

def basePlan (host : Host) (input : CreatePlanInput) (created : String) :
    PlanArtifact Claim :=
  let slices := initialSlices host [] (input.slices.getD [])
  { plan_id := "plan-" ++ takeString 16 (host.sha256Hex (input.goal ++ created))
    goal := Text.trim input.goal
    status := PageStatus.draft
    constraints := (input.constraints.getD []).filter (· ≠ "")
    slices := slices
    open_questions := (input.open_questions.getD []).filter (· ≠ "")
    scar_tissue := input.scar_tissue.getD []
    next_action := input.next_action.getD (computeNextAction slices)
    shelf_ref := input.shelf_ref.map (normalizeShelfRef host)
    created := created
    updated := created
    rev := 0 }

/-- The first revision of a plan, as it is persisted. -/
def createPlan (host : Host) (input : CreatePlanInput)
    (created updated : String) : Except String (PlanArtifact Claim) := do
  ensure (!Text.isBlank input.goal) "plan requires non-empty goal"
  assertUniqueExplicitSliceIds (input.slices.getD []) "createPlan"
  let plan := basePlan host input created
  assertUniqueSliceIds plan.slices "persistPlan"
  return { plan with rev := plan.rev + 1, updated := updated }

/-!
## The update of one slice
-/

def trivialEvidence : List String :=
  ["x", "ok", "done", "good", "looks good", "lgtm", "yes", "fine", "wip", "na",
    "n/a"]

def isTrivialEvidence (host : Host) (ev : String) : Bool :=
  decide (host.toLowerCase (Text.trim ev) ∈ trivialEvidence) ||
    decide (Text.length (Text.trim ev) < 8)

structure UpdateSliceOptions where
  force : Bool
  forceReason : Option String
deriving DecidableEq

/-- The checks that a transition must pass: evidence and met dependencies for
`done`, a reason for `blocked`. -/
def assertTransition (host : Host) (plan : PlanArtifact Claim)
    (slice_id : String) (to_ : PlanSliceStatus) (evidence : Option String)
    (options : Option UpdateSliceOptions) : Except String Unit :=
  match to_ with
  | PlanSliceStatus.done =>
      match Text.truthy evidence with
      | none =>
          Except.error "updateSlice: substantive evidence is required before a slice may become \"done\" (e.g. refer to a file, command output, test ID, etc.)"
      | some text =>
          if isTrivialEvidence host text then
            Except.error "updateSlice: substantive evidence is required before a slice may become \"done\" (e.g. refer to a file, command output, test ID, etc.)"
          else
            let unmet := unmetDependencies plan slice_id
            if unmet.isEmpty then Except.ok ()
            else
              match options with
              | some { force := true, forceReason := reason } =>
                  if Text.isBlank (reason.getD "") then
                    Except.error
                      ("updateSlice: force override of depends_on requires a non-empty force reason explaining why (unmet: " ++
                        Text.join ", " unmet ++ ")")
                  else
                    Except.ok ()
              | _ =>
                  Except.error
                    ("updateSlice: cannot mark \"" ++ slice_id ++
                      "\" done — depends_on unmet: " ++ Text.join ", " unmet ++
                      " (must be \"done\", or \"superseded\" without replacement, first). Pass force + a non-empty force reason to override.")
  | PlanSliceStatus.blocked =>
      if Text.isBlank (evidence.getD "") then
        Except.error "updateSlice: blocked requires a reason in `evidence`"
      else
        Except.ok ()
  | _ => Except.ok ()

def transitionedSlice (slice : PlanSlice Claim) (to_ : PlanSliceStatus)
    (evidence : Option String) : PlanSlice Claim :=
  let text := Text.trim (evidence.getD "")
  { slice with
    status := to_
    evidence := if text = "" then slice.evidence else some text }

def replaceById (slices : List (PlanSlice Claim)) (id : String)
    (f : PlanSlice Claim -> PlanSlice Claim) : List (PlanSlice Claim) :=
  slices.map fun s => if s.id = id then f s else s

/-- A plan whose slices are all resolved is complete; reopening a slice takes it
back to a draft. -/
def nextPlanStatus (status : PageStatus) (slices : List (PlanSlice Claim)) :
    PageStatus :=
  if allSlicesResolved slices then
    if status = PageStatus.draft ∨ status = PageStatus.candidate then
      PageStatus.complete
    else
      status
  else if status = PageStatus.complete then PageStatus.draft
  else status

def updateSlice (host : Host) (plan : PlanArtifact Claim) (slice_id : String)
    (to_ : PlanSliceStatus) (evidence : Option String)
    (options : Option UpdateSliceOptions) (updated : String) :
    Except String (PlanArtifact Claim) := do
  assertUniqueSliceIds plan.slices "updateSlice"
  ensure (plan.slices.find? (·.id = slice_id)).isSome
    ("updateSlice: no slice with id " ++ slice_id)
  assertTransition host plan slice_id to_ evidence options
  let newSlices :=
    replaceById plan.slices slice_id fun s => transitionedSlice s to_ evidence
  return { plan with
    slices := newSlices
    status := nextPlanStatus plan.status newSlices
    next_action := computeNextAction newSlices
    updated := updated }

/-!
## Scars
-/

def mergeScar (entry : ScarTissueEntry) :
    List ScarTissueEntry -> List ScarTissueEntry
  | [] => [entry]
  | s :: rest =>
      if s.kind = entry.kind ∧ s.signal = entry.signal then
        { s with resolution := entry.resolution } :: rest
      else
        s :: mergeScar entry rest

def addScar (plan : PlanArtifact Claim) (entry : ScarTissueEntry)
    (updated : String) : PlanArtifact Claim :=
  { plan with
    scar_tissue := mergeScar entry plan.scar_tissue
    updated := updated }

/-!
## Replans

Both forms supersede what is dropped, append what is new, and advance the
generation of every slice whose meaning changed.
-/

def sameStringSet (left right : Option (List String)) : Bool :=
  Text.sortStrings (left.getD []) = Text.sortStrings (right.getD [])

def invalidateSliceGeneration (slice : PlanSlice Claim) : PlanSlice Claim :=
  { slice with
    generation := some (slice.requireGeneration + 1)
    claim := none }

def sameTitle (host : Host) (a b : String) : Bool :=
  host.toLowerCase (Text.trim a) = host.toLowerCase (Text.trim b)

def supersede (marker : String) (slice : PlanSlice Claim) : PlanSlice Claim :=
  invalidateSliceGeneration { slice with
    status := PlanSliceStatus.superseded
    superseded_by := some marker }

/-- The marker of a replan: the head of the hash of its stable text. -/
def replanMarker (host : Host) (key : Json) : String :=
  "replan-" ++
    takeString 10
      (host.sha256Hex (String.ofList (Json.stableStringify key)))

/-- The slices under edit, the identifiers in use, those that were added and
those whose dependencies this call writes. -/
structure TopologyEdit (Claim : Type) where
  slices : List (PlanSlice Claim)
  usedIds : List String
  addedIds : List String
  writtenDependsOnIds : List String

def TopologyEdit.append (edit : TopologyEdit Claim) (id : String)
    (ns : SliceInput) : TopologyEdit Claim :=
  { slices := edit.slices ++ [initialSlice id ns]
    usedIds := id :: edit.usedIds
    addedIds := edit.addedIds ++ [id]
    writtenDependsOnIds :=
      if ns.depends_on.isSome then id :: edit.writtenDependsOnIds
      else edit.writtenDependsOnIds }

/-- A superseded slice of a call that also adds slices has been replaced by the
added ones. -/
def stampReplacedBy (marker : String) (supersededIds addedIds : List String)
    (slices : List (PlanSlice Claim)) : List (PlanSlice Claim) :=
  if supersededIds.isEmpty || addedIds.isEmpty then slices
  else
    slices.map fun slice =>
      if slice.id ∈ supersededIds ∧
          slice.status = PlanSliceStatus.superseded ∧
          slice.superseded_by = some marker then
        { slice with replaced_by := some addedIds }
      else
        slice

/-- `replan` keeps a slice that a proposed one names by identifier or title. -/
def stillProposed (host : Host) (newSlices : List SliceInput)
    (slice : PlanSlice Claim) : Bool :=
  newSlices.any fun ns =>
    decide (Text.truthy ns.id = some slice.id) ||
      sameTitle host ns.title slice.title

def matchesLive (host : Host) (ns : SliceInput) (slice : PlanSlice Claim) :
    Bool :=
  decide (slice.status ≠ PlanSliceStatus.superseded) &&
    (decide (Text.truthy ns.id = some slice.id) ||
      sameTitle host slice.title ns.title)

def refreshedSlice (ns : SliceInput) (cur : PlanSlice Claim) :
    PlanSlice Claim :=
  let refreshed : PlanSlice Claim := { cur with
    title := if ns.title = "" then cur.title else ns.title
    gate := ns.gate.or cur.gate
    depends_on := ns.depends_on.or cur.depends_on }
  if refreshed.title ≠ cur.title ∨ refreshed.gate ≠ cur.gate ∨
      sameStringSet refreshed.depends_on cur.depends_on = false then
    invalidateSliceGeneration refreshed
  else
    refreshed

def replanEntry (host : Host) (edit : TopologyEdit Claim) (ns : SliceInput) :
    Except String (TopologyEdit Claim) :=
  if edit.slices.any (matchesLive host ns) then
    match Text.truthy ns.id with
    | none => Except.ok edit
    | some id => do
        assertNoSelfEdge "replan" id ns.depends_on
        return { edit with
          slices := replaceById edit.slices id (refreshedSlice ns)
          writtenDependsOnIds :=
            if ns.depends_on.isSome then id :: edit.writtenDependsOnIds
            else edit.writtenDependsOnIds }
  else
    match Text.truthy ns.id with
    | some id =>
        if id ∈ edit.usedIds then
          Except.error
            ("replan: cannot add slice with id \"" ++ id ++
              "\" — a slice with that id already exists in this plan (even if superseded). Choose a different id, or omit id to let one be generated.")
        else do
          assertNoSelfEdge "replan" id ns.depends_on
          return edit.append id ns
    | none => do
        let id := slugifySliceId host ns.title edit.usedIds
        assertNoSelfEdge "replan" id ns.depends_on
        return edit.append id ns

def replanDrops (host : Host) (newSlices : List SliceInput)
    (slice : PlanSlice Claim) : Bool :=
  !stillProposed host newSlices slice && !slice.status.isResolved

def replan (host : Host) (plan : PlanArtifact Claim)
    (newSlices : List SliceInput) (updated : String) :
    Except String (PlanArtifact Claim) := do
  assertUniqueSliceIds plan.slices "replan"
  assertUniqueExplicitSliceIds newSlices "replan"
  let titles := Text.sortStrings (newSlices.map (·.title))
  let marker := replanMarker host (Json.arr (titles.map Json.str))
  let kept := plan.slices.map fun slice =>
    if replanDrops host newSlices slice then supersede marker slice else slice
  let supersededIds :=
    (plan.slices.filter (replanDrops host newSlices)).map (·.id)
  let edit <- newSlices.foldlM (replanEntry host)
    { slices := kept
      usedIds := kept.map (·.id)
      addedIds := []
      writtenDependsOnIds := [] }
  let nextSlices :=
    stampReplacedBy marker supersededIds edit.addedIds edit.slices
  assertWrittenDependsOnTargetsLive "replan" plan.slices nextSlices
    edit.writtenDependsOnIds
  return { plan with
    slices := nextSlices
    next_action := computeNextAction nextSlices
    updated := updated }

structure SetDependsOn where
  slice_id : String
  depends_on : List String
deriving DecidableEq

structure SliceDelta where
  add_slices : Option (List SliceInput)
  drop_slice_ids : Option (List String)
  set_depends_on : Option (List SetDependsOn)
deriving DecidableEq

def deltaEntry (host : Host) (edit : TopologyEdit Claim) (ns : SliceInput) :
    Except String (TopologyEdit Claim) :=
  match Text.truthy ns.id with
  | some id =>
      if id ∈ edit.usedIds then
        Except.error
          ("applySliceDelta: cannot add slice with id \"" ++ id ++
            "\" — a slice with that id already exists in this plan (even if superseded/done, including one just dropped in this same call). Choose a different id, or omit id to let one be generated.")
      else do
        assertNoSelfEdge "applySliceDelta" id ns.depends_on
        return edit.append id ns
  | none => do
      let id := slugifySliceId host ns.title edit.usedIds
      assertNoSelfEdge "applySliceDelta" id ns.depends_on
      return edit.append id ns

def liveById (slices : List (PlanSlice Claim)) (id : String) : Bool :=
  match slices.find? (·.id = id) with
  | none => false
  | some slice => decide (slice.status ≠ PlanSliceStatus.superseded)

def assertRemounts (slices : List (PlanSlice Claim)) :
    List String -> List SetDependsOn -> Except String Unit
  | _, [] => Except.ok ()
  | seen, entry :: rest =>
      if entry.slice_id ∈ seen then
        Except.error
          ("applySliceDelta: duplicate set_depends_on slice_id \"" ++
            entry.slice_id ++ "\"")
      else if !liveById slices entry.slice_id then
        Except.error
          ("applySliceDelta: cannot remount depends_on on \"" ++
            entry.slice_id ++ "\" — missing or not live")
      else
        match entry.depends_on.find? fun depId => !liveById slices depId with
        | some depId =>
            Except.error
              ("applySliceDelta: cannot remount onto \"" ++ depId ++
                "\" — missing or superseded")
        | none =>
            if entry.slice_id ∈ entry.depends_on then
              Except.error
                ("applySliceDelta: cannot remount onto \"" ++ entry.slice_id ++
                  "\" — target is the remounted slice")
            else
              assertRemounts slices (entry.slice_id :: seen) rest

def remountedSlice (remounts : List SetDependsOn) (slice : PlanSlice Claim) :
    PlanSlice Claim :=
  match remounts.find? (·.slice_id = slice.id) with
  | none => slice
  | some entry =>
      if sameStringSet slice.depends_on (some entry.depends_on) then slice
      else
        invalidateSliceGeneration { slice with
          depends_on := some entry.depends_on }

def deltaDrops (dropIds : List String) (slice : PlanSlice Claim) : Bool :=
  decide (slice.id ∈ dropIds) && !slice.status.isResolved

def deltaKey (delta : SliceDelta) : Json :=
  let add := Text.sortStrings ((delta.add_slices.getD []).map (·.title))
  let drop := Text.sortStrings (delta.drop_slice_ids.getD [])
  Json.obj
    [("add", Json.arr (add.map Json.str)),
      ("drop", Json.arr (drop.map Json.str))]

def applySliceDelta (host : Host) (plan : PlanArtifact Claim)
    (delta : SliceDelta) (updated : String) :
    Except String (PlanArtifact Claim) := do
  assertUniqueSliceIds plan.slices "applySliceDelta"
  assertUniqueExplicitSliceIds (delta.add_slices.getD []) "applySliceDelta"
  let marker := replanMarker host (deltaKey delta)
  let dropIds := delta.drop_slice_ids.getD []
  let kept := plan.slices.map fun slice =>
    if deltaDrops dropIds slice then supersede marker slice else slice
  let edit <- (delta.add_slices.getD []).foldlM (deltaEntry host)
    { slices := kept
      usedIds := kept.map (·.id)
      addedIds := []
      writtenDependsOnIds := [] }
  let stamped := stampReplacedBy marker dropIds edit.addedIds edit.slices
  assertWrittenDependsOnTargetsLive "applySliceDelta" plan.slices stamped
    edit.writtenDependsOnIds
  let remounts := delta.set_depends_on.getD []
  assertRemounts stamped [] remounts
  let nextSlices := stamped.map (remountedSlice remounts)
  return { plan with
    slices := nextSlices
    next_action := computeNextAction nextSlices
    updated := updated }

/-!
## Restore
-/

/-- Above the revision of the current plan and above every generation that
either plan records. -/
def generationFloor (current snapshot : PlanArtifact Claim) : Nat :=
  ((current.slices ++ snapshot.slices).filterMap (·.generation)).foldl
    (fun floor generation => max floor (generation + 1)) (current.rev + 1)

def restorePlan (current snapshot : PlanArtifact Claim) :
    Except String (PlanArtifact Claim) := do
  assertUniqueSliceIds current.slices "restorePlan current"
  assertUniqueSliceIds snapshot.slices "restorePlan snapshot"
  let floor := generationFloor current snapshot
  return { current with
    goal := snapshot.goal
    constraints := snapshot.constraints
    slices := snapshot.slices.map fun slice =>
      { slice with generation := some floor, claim := none }
    open_questions := snapshot.open_questions
    scar_tissue := snapshot.scar_tissue
    shelf_ref := snapshot.shelf_ref
    next_action := snapshot.next_action }

end Thread
end Minni
