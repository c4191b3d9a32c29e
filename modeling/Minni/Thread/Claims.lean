import Minni.Thread.Journal

/-!
# Claim envelopes, receipts and the plan note

The private envelope of a claim is created once under the identity of plan,
slice, generation and key.  A receipt of a worker update is written pending
before the note and committed after it.  The note itself is written before the
history, so a failure of the history says that the note has landed.
-/

namespace Minni
namespace Thread

open Foundation

/-!
## Slices of a plan
-/

def findSlice (plan : ThreadPlan) (sliceId : String) : Act ThreadSlice :=
  match plan.slices.filter fun s => s.id = sliceId with
  | [] => Act.fail ("thread worker: no slice with id " ++ sliceId)
  | [slice] => pure slice
  | _ =>
      Act.fail ("thread worker: duplicate slice id \"" ++ sliceId ++ "\"")

/-- Every use follows a `findSlice` that found exactly one slice. -/
def replaceSlice (plan : ThreadPlan) (sliceId : String)
    (replacement : ThreadSlice) : ThreadPlan :=
  { plan with
    slices := replaceById plan.slices sliceId fun _ => replacement }

/-!
## Envelopes
-/

def metadataMismatch : ThreadError :=
  ThreadError.message "claim metadata mismatch"

def unlinkEnvelope (id : ClaimId) : Act Unit :=
  Program.perform (VaultOp.unlinkSecret id)

def createClaimSecret (id : ClaimId) (workerAgentId : String)
    (expiresAt rev : Nat) : Act ClaimSecretEnvelope := do
  let existing <- Program.perform (VaultOp.readSecret id)
  match existing with
  | some envelope => do
      Program.require (envelope.worker_agent_id = workerAgentId)
        metadataMismatch
      pure envelope
  | none => do
      Program.perform (VaultOp.createSecret id workerAgentId expiresAt rev)
      Program.tryCatch
        (do
          let stored <- Program.perform (VaultOp.readSecret id)
          Program.ofOption stored metadataMismatch)
        fun e => do
          Act.bestEffort (unlinkEnvelope id)
          Act.throw e

def verifyClaimToken (sliceId workerAgentId : String) (generation token : Nat)
    (claimId : ClaimId) (now : Nat) : Act ClaimSecretEnvelope := do
  let stored <- Program.perform (VaultOp.readSecret claimId)
  let envelope <- Program.ofOption stored (ThreadError.message "claim not found")
  Program.require
    (envelope.claim_id = claimId ∧ claimId.slice_id = sliceId ∧
      claimId.generation = generation ∧
      envelope.worker_agent_id = workerAgentId)
    metadataMismatch
  Program.require (envelope.token = token)
    (ThreadError.message "claim token mismatch")
  Program.require (now < envelope.expires_at)
    (ThreadError.message "claim expired")
  pure envelope

def deleteClaimSecret (id : ClaimId) : Act Unit := do
  let existing <- Program.perform (VaultOp.readSecret id)
  if existing.isSome then unlinkEnvelope id else pure ()

def deleteClaimSecretsBestEffort (ids : List ClaimId) : Act Unit :=
  Program.forEach ids.dedup fun id => Act.bestEffort (deleteClaimSecret id)

def claimIds (plan : ThreadPlan) : List ClaimId :=
  (plan.slices.filterMap fun slice => slice.claim.map (·.claim_id)).dedup

def revokedClaimIds (before after : ThreadPlan) : List ClaimId :=
  (claimIds before).filter fun id => id ∉ claimIds after

/-!
## Receipts
-/

def readWorkerUpdateReceipt (id : ReceiptId) (claimId : Option ClaimId) :
    Act (Option WorkerUpdateReceiptEnvelope) := do
  let stored <- Program.perform (VaultOp.readReceipt id)
  match stored with
  | none => pure none
  | some receipt => do
      Program.require
        (decide (claimId = none) || decide (claimId = some receipt.claim_id))
        metadataMismatch
      pure (some receipt)

def writeWorkerUpdateReceipt (receipt : WorkerUpdateReceiptEnvelope) :
    Act Unit :=
  Program.perform (VaultOp.writeReceipt receipt)

def commitWorkerUpdateReceipt (receipt : WorkerUpdateReceiptEnvelope) :
    Act Unit :=
  writeWorkerUpdateReceipt
    { receipt with status := WorkerUpdateReceiptStatus.committed }

def pruneSliceReceiptsOnGenerationAdvance (sliceId : String)
    (previousGeneration : Nat) : Act Unit :=
  Act.bestEffort do
    let ids <- Program.perform
      (VaultOp.listReceipts sliceId previousGeneration)
    Program.forEach ids fun id => Program.perform (VaultOp.unlinkReceipt id)

def pruneCollectedGenerationsBestEffort (sliceId : String)
    (generations : List Nat) : Act Unit :=
  Program.forEach generations.dedup fun generation =>
    pruneSliceReceiptsOnGenerationAdvance sliceId generation

/-- The slices whose generation a mutation advanced, with the generation they
had. -/
def advancedGenerations (before after : ThreadPlan) : List (String × Nat) :=
  before.slices.filterMap fun slice =>
    match after.slices.find? fun candidate => candidate.id = slice.id with
    | none => none
    | some afterSlice =>
        if slice.requireGeneration < afterSlice.requireGeneration then
          some (slice.id, slice.requireGeneration)
        else none

def pruneSliceReceiptsAfterPlanMutation (before after : ThreadPlan) :
    Act Unit :=
  Program.forEach (advancedGenerations before after) fun entry =>
    pruneSliceReceiptsOnGenerationAdvance entry.1 entry.2

/-!
## The note
-/

/-- What one call knows besides its arguments: the time it samples, and the
text of the wall clock that a write puts on the note. -/
structure Clock where
  now : Nat
  wall : String

def persistedPlan (plan : ThreadPlan) (clock : Clock) : ThreadPlan :=
  { plan with rev := plan.rev + 1, updated := clock.wall }

def persistPlan (plan : ThreadPlan) (cause : Cause) (clock : Clock) :
    Act ThreadPlan := do
  Act.ofExcept (assertUniqueSliceIds plan.slices "persistPlan")
  let persisted := persistedPlan plan clock
  Program.perform (VaultOp.writeNote persisted cause clock.now)
  Program.tryCatch (Program.perform (VaultOp.appendHistory persisted))
    fun _ => Act.throw (ThreadError.planHistoryAppend persisted.rev)
  pure persisted

/-- A failed persist counts as committed when the history failed, or when the
note that is read back is the one the call wanted to write. -/
def judgeCommitted (error : ThreadError) (isIntended : ThreadPlan -> Bool) :
    Act Bool :=
  match error with
  | ThreadError.planHistoryAppend _ => pure true
  | _ =>
      Program.tryCatch
        (do
          let canonical <- Act.readNote
          pure (isIntended canonical))
        fun _ => pure false

/-- Persists the plan.  On a failure the call cleans up according to whether
the note had landed, and the failure is thrown all the same. -/
def persistOrCleanUp (plan : ThreadPlan) (cause : Cause) (clock : Clock)
    (isIntended : ThreadPlan -> Bool) (cleanUp : Bool -> Act Unit) :
    Act ThreadPlan :=
  Program.tryCatch (persistPlan plan cause clock) fun e => do
    let committed <- judgeCommitted e isIntended
    cleanUp committed
    Act.throw e

end Thread
end Minni
