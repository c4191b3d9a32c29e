import Minni.Foundation.JsonCanonical
import Minni.Thread.Journal

/-!
# The digest of a plan and what agents see of it

The third version of the digest hashes a projection of every field of the plan,
with the slices in the order of their identifiers.  The compact view and the
pointer are what the hooks inject.
-/

namespace Minni
namespace Thread

open Foundation

/-!
## The payload of the digest
-/

namespace PlanSliceStatus

def text : PlanSliceStatus -> String
  | pending => "pending"
  | in_progress => "in_progress"
  | done => "done"
  | blocked => "blocked"
  | superseded => "superseded"

theorem text_injective {s t : PlanSliceStatus} (h : s.text = t.text) :
    s = t := by
  cases s <;> cases t <;> first | rfl | exact absurd h (by decide)

end PlanSliceStatus

namespace ScarKind

def text : ScarKind -> String
  | failed_command => "failed_command"
  | dead_end => "dead_end"
  | rejected_hypothesis => "rejected_hypothesis"

theorem text_injective {s t : ScarKind} (h : s.text = t.text) : s = t := by
  cases s <;> cases t <;> first | rfl | exact absurd h (by decide)

end ScarKind

def sortedStrings (xs : List String) : Json :=
  Json.strings (Text.sortStrings xs)

def proposedSliceJson (s : SliceInput) : Json :=
  Json.object
    [("id", s.id.map Json.str),
      ("title", some (Json.str s.title)),
      ("gate", s.gate.map Json.str),
      ("depends_on", s.depends_on.map Json.strings),
      ("evidence", s.evidence.map Json.str)]

def proposalFields (kind reason name : String) (value : Json) : Json :=
  Json.object
    [("kind", some (Json.str kind)),
      ("reason", some (Json.str reason)),
      (name, some value)]

def proposalJson : StructuralProposal -> Json
  | StructuralProposal.expand reason slices =>
      proposalFields "expand" reason "slices"
        (Json.arr (slices.map proposedSliceJson))
  | StructuralProposal.split reason slices =>
      proposalFields "split" reason "slices"
        (Json.arr (slices.map proposedSliceJson))
  | StructuralProposal.contract reason slice_ids =>
      proposalFields "contract" reason "slice_ids" (Json.strings slice_ids)

def claimRecord (host : Host) (planId : String) (claim : ThreadClaimRef) :
    Json :=
  Json.object
    [("claim_id", some (Json.str (claimIdText host planId claim.claim_id))),
      ("worker_agent_id", some (Json.str claim.worker_agent_id)),
      ("claimed_at", some (Json.str (host.toISOString claim.claimed_at))),
      ("expires_at", some (Json.str (host.toISOString claim.expires_at)))]

def sliceRecordFields (host : Host) (planId : String) (s : ThreadSlice) :
    List (String × Option Json) :=
  [("id", some (Json.str s.id)),
    ("title", some (Json.str s.title)),
    ("status", some (Json.str s.status.text)),
    ("gate", s.gate.map Json.str),
    ("depends_on", s.depends_on.map sortedStrings),
    ("evidence", s.evidence.map Json.str),
    ("superseded_by", s.superseded_by.map Json.str),
    ("replaced_by", s.replaced_by.map sortedStrings),
    ("requirements", s.requirements.map sortedStrings),
    ("assigned_to", s.assigned_to.map Json.str),
    ("assignment_profile", s.assignment_profile.map Json.str),
    ("generation", some (Json.int s.requireGeneration)),
    ("attempt", some (Json.int s.requireAttempt)),
    ("claim", s.claim.map (claimRecord host planId)),
    ("proposals",
      s.proposals.map fun proposals => Json.arr (proposals.map proposalJson))]

def sliceRecord (host : Host) (planId : String) (s : ThreadSlice) : Json :=
  Json.object (sliceRecordFields host planId s)

def scarRecordFields (s : ScarTissueEntry) : List (String × Option Json) :=
  [("kind", some (Json.str s.kind.text)),
    ("signal", some (Json.str s.signal)),
    ("resolution", s.resolution.map Json.str)]

def scarRecord (s : ScarTissueEntry) : Json :=
  Json.object (scarRecordFields s)

def shelfRecordFields (shelf : ShelfRef) : List (String × Option Json) :=
  [("agent", some (Json.str shelf.agent)),
    ("wikilink", some (Json.str shelf.wikilink)),
    ("pull_hint", some (Json.str shelf.pull_hint)),
    ("approx_tokens", shelf.approx_tokens.map Json.num),
    ("shelf_hash", some (Json.str shelf.shelf_hash))]

def shelfRecord (shelf : ShelfRef) : Json :=
  Json.object (shelfRecordFields shelf)

def slicesById (host : Host) (slices : List ThreadSlice) : List ThreadSlice :=
  slices.insertionSort fun a b => host.localeLe a.id b.id

def digestFields (host : Host) (plan : ThreadPlan) :
    List (String × Option Json) :=
  [("v", some (Json.int 3)),
    ("goal", some (Json.str plan.goal)),
    ("next_action", some (Json.str plan.next_action)),
    ("constraints", some (Json.strings plan.constraints)),
    ("open_questions", some (Json.strings plan.open_questions)),
    ("scar_tissue", some (Json.arr (plan.scar_tissue.map scarRecord))),
    ("shelf_ref", plan.shelf_ref.map shelfRecord),
    ("slices", some (Json.arr
      ((slicesById host plan.slices).map (sliceRecord host plan.plan_id))))]

def digestPayload (host : Host) (plan : ThreadPlan) : Json :=
  Json.object (digestFields host plan)

/-- The text that is hashed. -/
def digestText (host : Host) (plan : ThreadPlan) : List Char :=
  Json.stableStringify (digestPayload host plan)

def computePlanDigestHexV3 (host : Host) (plan : ThreadPlan) : String :=
  takeString 16 (host.sha256Hex (String.ofList (digestText host plan)))

/-!
## What is injected
-/

structure PendingSlice where
  id : String
  title : String
  status : PlanSliceStatus
deriving DecidableEq

structure PlanProgress where
  done : Nat
  total : Nat
  remaining : Nat
  complete : Bool
deriving DecidableEq

structure CompactPlanView where
  headline : String
  progress : PlanProgress
  goal : String
  next_action : String
  pending : List PendingSlice
  open_questions : List String
  scar_tissue : Nat
  scars : List String
  shelf : Option String
  rev : Nat
deriving DecidableEq

def sliceHead (s : ThreadSlice) : PendingSlice where
  id := s.id
  title := s.title
  status := s.status

def isPendingStatus (status : PlanSliceStatus) : Bool :=
  status = PlanSliceStatus.pending || status = PlanSliceStatus.in_progress

def planProgress (slices : List ThreadSlice) : PlanProgress :=
  let total := slices.length
  let done := (slices.filter fun s => s.status.isResolved).length
  { done := done
    total := total
    remaining := total - done
    complete := decide (total > 0) && decide (total - done = 0) }

def planHeadline (progress : PlanProgress) (next : String) : String :=
  if progress.complete then
    "PLAN COMPLETE — all " ++ toString progress.total ++
      " slice(s) resolved. No further action; this plan is finished."
  else
    "Progress: " ++ toString progress.done ++ "/" ++ toString progress.total ++
      " slices done, " ++ toString progress.remaining ++ " remaining. " ++
      "NEXT: " ++ next ++ ". " ++ "The plan is NOT complete until all " ++
      toString progress.total ++
      " slices are done — do not stop after one slice."

/-- The slice that the headline names. -/
def activeSliceId (slices : List ThreadSlice) : Option String :=
  (slices.find? fun s => isActiveStatus s.status).map (·.id)

def scarText (s : ScarTissueEntry) : String :=
  s.kind.text ++ ": " ++ s.signal

def lastThree {α : Type} (xs : List α) : List α :=
  xs.drop (xs.length - 3)

def shelfText (shelf : ShelfRef) : String :=
  shelf.agent ++ " " ++ shelf.wikilink ++ " (" ++ shelf.pull_hint ++ ")"

def compactPlanView (plan : ThreadPlan) : CompactPlanView :=
  let progress := planProgress plan.slices
  { headline :=
      planHeadline progress
        ((activeSliceId plan.slices).getD plan.next_action)
    progress := progress
    goal := plan.goal
    next_action := plan.next_action
    pending :=
      (plan.slices.filter fun s => isPendingStatus s.status).map sliceHead
    open_questions := plan.open_questions
    scar_tissue := plan.scar_tissue.length
    scars := (lastThree plan.scar_tissue).map scarText
    shelf := plan.shelf_ref.map shelfText
    rev := plan.rev }

structure CompactPlanPointer where
  plan_id : String
  rev : Nat
  headline : String
  next_action : String
  progress : PlanProgress
  open_questions_count : Nat
  scar_tissue : Nat
  pull : String
deriving DecidableEq

def compactPlanPointer (plan_id : String) (rev : Nat)
    (view : CompactPlanView) : CompactPlanPointer where
  plan_id := plan_id
  rev := rev
  headline := view.headline
  next_action := view.next_action
  progress := view.progress
  open_questions_count := view.open_questions.length
  scar_tissue := view.scar_tissue
  pull := "Full plan (goal, open_questions, slices) omitted to save context. Call minni_thread_status for detail on demand."

end Thread
end Minni
