import Minni.Thread.ReplanDiff
import Minni.Thread.WorkerUpdate

/-!
# Orchestrator calls and the runs of a thread

The status update, the scar, the two replans and the restore, each under the
plan lock, and the acceptance of a write onto the queue.  A run of the thread
is a sequence of calls, each with the outcomes of its operations; a call whose
outcomes end early has crashed.
-/

namespace Minni
namespace Thread

open Foundation

/-- An orchestrator transition revokes the claim of the slice, in the next
generation. -/
def revokedSlice (previous slice : ThreadSlice) : ThreadSlice :=
  if previous.claim.isSome then
    { slice with
      generation := some (previous.requireGeneration + 1)
      claim := none }
  else
    slice

def applyOrchestratorSliceUpdate (host : Host) (plan : ThreadPlan)
    (previous : ThreadSlice) (status : PlanSliceStatus)
    (evidence : Option String) (options : Option UpdateSliceOptions)
    (wall : String) : Except String ThreadPlan := do
  let next <- updateSlice host plan previous.id status evidence options wall
  return { next with
    slices := replaceById next.slices previous.id (revokedSlice previous) }

/-- Persists the plan and deletes the envelopes of revoked claims, also when
only the history has failed. -/
def persistPlanThenRevokeClaimSecrets (plan : ThreadPlan) (cause : Cause)
    (clock : Clock) (revoked : List ClaimId) : Act ThreadPlan := do
  let persisted <- Program.tryCatch (persistPlan plan cause clock) fun e =>
    match e with
    | ThreadError.planHistoryAppend _ => do
        deleteClaimSecretsBestEffort revoked
        Act.throw e
    | _ => Act.throw e
  deleteClaimSecretsBestEffort revoked
  pure persisted

def appendLegacyLine : Act Unit :=
  Program.perform VaultOp.appendLegacyLine

def orchestratorEvents (host : Host) (operationKey kind : String)
    (sliceId : Option String) (payload : Option Json) (now : Nat)
    (before next : ThreadPlan) (planBefore : Option ThreadPlan)
    (supplemental : List EventSpec) : MutationEvents :=
  { actor := host.defaultAgentId
    operationKey := operationKey
    kind := kind
    sliceId := sliceId
    payload := payload
    readyBefore := readyIds host before now
    readyAfter := readyIds host next now
    plan := next
    planBefore := planBefore
    now := now
    supplementalEvents := supplemental }

/-!
## The status update
-/

def statusName : PlanSliceStatus -> String
  | PlanSliceStatus.pending => "pending"
  | PlanSliceStatus.in_progress => "in_progress"
  | PlanSliceStatus.done => "done"
  | PlanSliceStatus.blocked => "blocked"
  | PlanSliceStatus.superseded => "superseded"

structure ThreadUpdateInput where
  slice_id : String
  status : PlanSliceStatus
  evidence : Option String
  force : Bool
  force_reason : Option String

def pruneRevoked (previous : ThreadSlice) : Act Unit :=
  if previous.claim.isSome then
    pruneSliceReceiptsOnGenerationAdvance previous.id
      previous.requireGeneration
  else
    pure ()

def statusChangedEvents (host : Host) (input : ThreadUpdateInput)
    (previous : ThreadSlice) (now : Nat) (plan next : ThreadPlan) :
    MutationEvents :=
  orchestratorEvents host
    (deriveSystemEventKey "status_changed"
      [next.plan_id, input.slice_id, revText next.rev])
    "status_changed" (some input.slice_id)
    (some (Json.obj
      [("from", Json.str (statusName previous.status)),
        ("to", Json.str (statusName input.status))]))
    now plan next (some plan)
    (if previous.claim.isSome then
      [claimRevokedEvent next.plan_id input.slice_id next.rev]
    else [])

/-- A passed gate has a line of its own. -/
def appendStatusLines (input : ThreadUpdateInput) (previous : ThreadSlice) :
    Act Unit := do
  appendLegacyLine
  if input.status = PlanSliceStatus.done ∧
      Text.isBlank (previous.gate.getD "") = false then
    appendLegacyLine
  else
    pure ()

def threadUpdate (host : Host) (input : ThreadUpdateInput) (clock : Clock) :
    Act ThreadPlan := do
  let plan <- Act.readNote
  let ordered <- prepareThreadMutation host host.defaultAgentId plan clock.now
  let previous <- findSlice plan input.slice_id
  let updated <- Act.ofExcept
    (applyOrchestratorSliceUpdate host plan previous input.status
      input.evidence
      (some { force := input.force, forceReason := input.force_reason })
      clock.wall)
  let next <- Program.tryCatch
    (persistPlanThenRevokeClaimSecrets updated
      (Cause.orchestrator input.slice_id) clock
      (previous.claim.map (·.claim_id)).toList)
    fun e =>
      match e with
      | ThreadError.planHistoryAppend _ => do
          pruneRevoked previous
          Act.throw e
      | _ => Act.throw e
  pruneRevoked previous
  appendStatusLines input previous
  let _ <- recordThreadMutationEvents host
    (statusChangedEvents host input previous clock.now plan next) ordered
  pure next

/-!
## Scars
-/

def scarKindName : ScarKind -> String
  | ScarKind.failed_command => "failed_command"
  | ScarKind.dead_end => "dead_end"
  | ScarKind.rejected_hypothesis => "rejected_hypothesis"

def threadScar (host : Host) (entry : ScarTissueEntry) (clock : Clock) :
    Act ThreadPlan := do
  let plan <- Act.readNote
  let ordered <- prepareThreadMutation host host.defaultAgentId plan clock.now
  let next <- persistPlan (addScar plan entry clock.wall) Cause.scar clock
  appendLegacyLine
  let _ <- recordThreadMutationEvents host
    (orchestratorEvents host
      (deriveSystemEventKey "scar_added" [next.plan_id, revText next.rev])
      "scar_added" none
      (some (Json.obj [("kind", Json.str (scarKindName entry.kind))]))
      clock.now plan next none [])
    ordered
  pure next

/-!
## Replans
-/

inductive ReplanInput where
  | newSlices (newSlices : List SliceInput)
  | delta (delta : SliceDelta)

def ReplanInput.cause : ReplanInput -> Cause
  | ReplanInput.newSlices _ => Cause.replan
  | ReplanInput.delta _ => Cause.delta

def applyReplan (host : Host) (plan : ThreadPlan) (wall : String) :
    ReplanInput -> Except String ThreadPlan
  | ReplanInput.newSlices newSlices => replan host plan newSlices wall
  | ReplanInput.delta delta => applySliceDelta host plan delta wall

def revokedSupplemental (revoked : List ClaimId) (plan next : ThreadPlan) :
    List EventSpec :=
  (plan.slices.filter fun slice =>
    slice.claim.any fun claim => claim.claim_id ∈ revoked).map fun slice =>
      claimRevokedEvent next.plan_id slice.id next.rev

/-- Runs under the exclusive reservation of its own call. -/
def threadReplan (host : Host) (input : ReplanInput) (clock : Clock) :
    Act ThreadPlan := do
  let plan <- Act.readNote
  let ordered <- prepareThreadMutation host host.defaultAgentId plan clock.now
  let updated <- Act.ofExcept (applyReplan host plan clock.wall input)
  let revoked := revokedClaimIds plan updated
  let next <- persistPlanThenRevokeClaimSecrets updated input.cause clock
    revoked
  pruneSliceReceiptsAfterPlanMutation plan updated
  appendLegacyLine
  let _ <- recordThreadMutationEvents host
    (orchestratorEvents host
      (deriveSystemEventKey "replan" [next.plan_id, revText next.rev])
      "replan" none (replanPayload plan updated).json clock.now plan next none
      (revokedSupplemental revoked plan next))
    ordered
  pure next

/-!
## Restore
-/

/-- What is left of a plan whose note does not pass strict reading. -/
def planScalars (plan : ThreadPlan) : ThreadPlan :=
  { plan with
    goal := ""
    constraints := []
    open_questions := []
    scar_tissue := []
    next_action := ""
    shelf_ref := none }

def readNoteForRestore : Act ThreadPlan :=
  Program.tryCatch Act.readNote fun _ => do
    let plan <- Act.readNote
    pure (planScalars plan)

def threadRestore (host : Host) (rev : Nat) (clock : Clock) :
    Act ThreadPlan := do
  let current <- readNoteForRestore
  let ordered <- prepareThreadMutation host host.defaultAgentId current clock.now
  let history <- Program.perform VaultOp.readHistory
  let snapshot <- Program.ofOption (history.find? fun p => p.rev = rev)
    (ThreadError.message ("revision " ++ revText rev ++ " not found"))
  let restored <- Act.ofExcept (restorePlan current snapshot)
  let next <- persistPlanThenRevokeClaimSecrets restored Cause.restore clock
    (claimIds current ++ claimIds snapshot)
  pruneSliceReceiptsAfterPlanMutation current restored
  appendLegacyLine
  let _ <- recordThreadMutationEvents host
    (orchestratorEvents host
      (deriveSystemEventKey "restored" [next.plan_id, revText next.rev])
      "restored" none (some (Json.obj [("from_rev", Json.int rev)])) clock.now
      current next none
      ((current.slices.filter fun s => s.claim.isSome).map fun s =>
        claimRevokedEvent next.plan_id s.id next.rev))
    ordered
  pure next

/-!
## Acceptance onto the queue
-/

def stampAcceptedStart (host : Host) (input : UpdateClaimedSliceInput)
    (now : Nat) : Act Unit := do
  let plan <- Act.readNote
  let slice <- findSlice plan input.sliceId
  if isNonTerminal slice then do
    let claim <- Program.ofOption slice.claim
      (ThreadError.message "claim scope mismatch")
    Program.require (claim.worker_agent_id = input.workerAgentId)
      (ThreadError.message "claim scope mismatch")
    let ready := readyIds host plan now
    writeWorkerUpdateReceipt
      { id :=
          startAcceptedReceiptId host plan.plan_id input.workerAgentId slice
            claim.claim_id
        claim_id := claim.claim_id
        kind := START_ACCEPTED_RECEIPT_KIND
        token_digest := { token := input.token }
        status := WorkerUpdateReceiptStatus.pending
        response :=
          { slice := slice
            ready_before := ready
            ready_after := ready
            rev := plan.rev } }
  else
    pure ()

def stampIfStart (host : Host) (input : UpdateClaimedSliceInput) (now : Nat) :
    Act Unit :=
  if isStart input.action then stampAcceptedStart host input now else pure ()

/-- The ticket goes onto the queue unless its key is already there. -/
def enqueueAcceptedWorkerWrite (host : Host) (input : UpdateClaimedSliceInput)
    (ticketId : String) (applyNow : Option Nat) (clock : Clock) :
    Act Unit := do
  let plan <- Act.readNote
  let slice <- findSlice plan input.sliceId
  stampIfStart host input clock.now
  let queued <- Program.perform VaultOp.readQueue
  if queued.any fun t => t.idempotencyKey = input.idempotencyKey then pure ()
  else
    Program.perform (VaultOp.writeTicket
      { ticketId := ticketId
        enqueuedAt := clock.now
        sliceId := input.sliceId
        workerAgentId := input.workerAgentId
        tokenDigest := { token := input.token }
        idempotencyKey := input.idempotencyKey
        action := input.action
        applyNow := applyNow
        generation := some slice.requireGeneration })

/-!
## Runs
-/

inductive Call where
  | synchronize (actor : String)
  | assign (input : AssignSliceInput)
  | claim (input : ClaimSliceInput)
  | update (input : UpdateClaimedSliceInput)
  | drain
  | accept (input : UpdateClaimedSliceInput) (ticketId : String)
      (applyNow : Option Nat)
  | orchestrate (input : ThreadUpdateInput)
  | scar (entry : ScarTissueEntry)
  | replan (input : ReplanInput)
  | restore (rev : Nat)

inductive CallResult where
  | done
  | mutated (result : ThreadMutationResult)
  | claimed (envelope : ClaimSecretEnvelope)
deriving DecidableEq

def Call.program (host : Host) (clock : Clock) : Call -> Act CallResult
  | Call.synchronize actor => do
      let _ <- synchronizeExpiredClaims host actor clock
      pure CallResult.done
  | Call.assign input => do
      let result <- assignSlice host input clock
      pure (CallResult.mutated result)
  | Call.claim input => do
      let envelope <- claimSlice host input clock
      pure (CallResult.claimed envelope)
  | Call.update input => do
      let result <- applyClaimedSlice host input clock
      pure (CallResult.mutated result)
  | Call.drain => do
      let _ <- drainOneQueuedWorkerWrite host clock
      pure CallResult.done
  | Call.accept input ticketId applyNow => do
      enqueueAcceptedWorkerWrite host input ticketId applyNow clock
      pure CallResult.done
  | Call.orchestrate input => do
      let _ <- threadUpdate host input clock
      pure CallResult.done
  | Call.scar entry => do
      let _ <- threadScar host entry clock
      pure CallResult.done
  | Call.replan input => do
      let _ <- threadReplan host input clock
      pure CallResult.done
  | Call.restore rev => do
      let _ <- threadRestore host rev clock
      pure CallResult.done

/-- One item of a run: a call with its clock and the outcomes of its
operations, or another process that reserves an exclusive replan or gives the
reservation back. -/
inductive Event where
  | call (call : Call) (clock : Clock) (outcomes : List Outcome)
  | reserve (live : Bool)

def Event.run (host : Host) (v : Vault) :
    Event -> Option (Except ThreadError CallResult) × Vault
  | Event.call c clock outcomes =>
      (c.program host clock).run vaultInterface outcomes v
  | Event.reserve live => (none, { v with reserved := live })

/-- The note that a thread starts from is the first revision of a new plan. -/
def newVault (note : ThreadPlan) : Vault :=
  { note := note
    history := [note]
    journal := []
    secrets := fun _ => none
    receipts := []
    queue := []
    reserved := false
    nextToken := 0
    landed := [] }

def runEvents (host : Host) (v : Vault) (events : List Event) : Vault :=
  events.foldl (fun v event => (event.run host v).2) v

/-- Every operation of the run meets the condition in the vault it is performed
in. -/
def RunMeets (host : Host) (A : VaultOp -> Vault -> Prop) :
    Vault -> List Event -> Prop
  | _, [] => True
  | v, event :: events =>
      (match event with
        | Event.call c clock outcomes =>
            (c.program host clock).Meets vaultInterface A outcomes v
        | Event.reserve _ => True) ∧
        RunMeets host A (event.run host v).2 events

end Thread
end Minni
