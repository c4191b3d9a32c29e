import Minni.Thread.Orchestrator

/-!
# What one step of a thread can do

Every operation that a call performs is allowed by one relation on the vault it
is performed in.  A note is written only as the result of the call's own
operation on the note that is there, with the checks that the call has made on
the way; a receipt is committed only after its revision has landed or on the
judgement of a retry; a receipt is pruned only when its generation is no longer
at work.  The properties of runs are proved from this relation.
-/

namespace Minni
namespace Thread

open Foundation

/-- The plan has exactly this slice under its identifier. -/
def HasSlice (plan : ThreadPlan) (slice : ThreadSlice) : Prop :=
  plan.slices.filter (fun s => s.id = slice.id) = [slice]

/-- The plan as a persist writes it. -/
def PersistedAs (base plan : ThreadPlan) : Prop :=
  plan = { base with rev := base.rev + 1, updated := plan.updated }

/-- The envelope proves that the worker may act on the slice at the time. -/
structure AuthorizedBy (v : Vault) (input : UpdateClaimedSliceInput) (now : Nat)
    (slice : ThreadSlice) (claim : ThreadClaimRef)
    (envelope : ClaimSecretEnvelope) : Prop where
  present : HasSlice v.note slice
  named : slice.id = input.sliceId
  claimed : slice.claim = some claim
  worker : claim.worker_agent_id = input.workerAgentId
  stored : v.envelope claim.claim_id = some envelope
  ofSlice : claim.claim_id.slice_id = slice.id
  ofGeneration : claim.claim_id.generation = slice.requireGeneration
  ofWorker : envelope.worker_agent_id = input.workerAgentId
  token : envelope.token = input.token
  live : now < envelope.expires_at
  expiry : envelope.expires_at = claim.expires_at
  nonTerminal : isNonTerminal slice = true

/-- The state in which the start gate lets a completion pass. -/
def GateOpen (v : Vault) (slice : ThreadSlice) : Prop :=
  slice.status = PlanSliceStatus.in_progress ∨
    (slice.status ≠ PlanSliceStatus.pending ∧
      hasJournaledStartForCurrentGeneration v.journal slice.id = true)

def receiptAt (v : Vault) (id : ReceiptId) :
    Option WorkerUpdateReceiptEnvelope :=
  v.receipts.find? fun r => r.id = id

/-- A note that a worker's action writes, with the pending receipt that was put
down for it. -/
def WorkerStep (host : Host) (v : Vault) (plan : ThreadPlan) (now : Nat)
    (input : UpdateClaimedSliceInput) (generation : Nat) : Prop :=
  exists slice claim envelope wall applied receipt,
    AuthorizedBy v input now slice claim envelope ∧
      generation = slice.requireGeneration ∧
      applyWorkerAction host v.note input.sliceId wall input.action =
        Except.ok applied ∧
      PersistedAs (nextAfterAction applied input.sliceId) plan ∧
      receiptAt v (receiptIdOf input generation) = some receipt ∧
      receipt.status = WorkerUpdateReceiptStatus.pending ∧
      receipt.rev = v.note.rev + 1 ∧
      receipt.kind = workerEventKind input.action ∧
      (isComplete input.action = true -> GateOpen v slice)

/-- The walk of a claim has ended at a stored envelope that has not expired. -/
structure WalkedTo (v : Vault) (now : Nat)
    (sliceId workerAgentId idempotencyKey : String) (first : Nat)
    (walk : ClaimWalk) : Prop where
  upward : first ≤ walk.generation
  ofClaim : walk.envelope.claim_id =
    { slice_id := sliceId
      generation := walk.generation
      idempotency_key := idempotencyKey }
  ofWorker : walk.envelope.worker_agent_id = workerAgentId
  stored : v.envelope walk.envelope.claim_id = some walk.envelope
  live : now < walk.envelope.expires_at

/-- A note that a claim writes, on a slice that nobody holds. -/
def ClaimStep (v : Vault) (plan : ThreadPlan) (now : Nat)
    (sliceId workerAgentId idempotencyKey : String) : Prop :=
  exists slice walk,
    HasSlice v.note slice ∧ slice.id = sliceId ∧
      isNonTerminal slice = true ∧
      slice.assigned_to = some workerAgentId ∧ slice.claim = none ∧
      WalkedTo v now sliceId workerAgentId idempotencyKey
        slice.requireGeneration walk ∧
      PersistedAs
        (replaceSlice v.note sliceId
          (claimedSlice slice workerAgentId now walk)) plan

def NoteStep (host : Host) (v : Vault) (plan : ThreadPlan) (now : Nat) :
    Cause -> Prop
  | Cause.expire sliceId _ =>
      exists slice, HasSlice v.note slice ∧ slice.id = sliceId ∧
        slice.claim.isSome = true ∧ hasLiveClaim slice now = false ∧
        PersistedAs (replaceSlice v.note sliceId (expiredSlice slice)) plan
  | Cause.assign sliceId workerAgentId _ =>
      exists slice profile, HasSlice v.note slice ∧ slice.id = sliceId ∧
        isNonTerminal slice = true ∧
        PersistedAs
          (replaceSlice v.note sliceId
            (assignedSlice slice workerAgentId profile)) plan
  | Cause.claim sliceId workerAgentId idempotencyKey =>
      ClaimStep v plan now sliceId workerAgentId idempotencyKey
  | Cause.worker input generation => WorkerStep host v plan now input generation
  | Cause.orchestrator sliceId =>
      exists previous status evidence options wall base,
        HasSlice v.note previous ∧ previous.id = sliceId ∧
          applyOrchestratorSliceUpdate host v.note previous status evidence
            options wall = Except.ok base ∧
          PersistedAs base plan
  | Cause.scar =>
      exists entry wall, PersistedAs (addScar v.note entry wall) plan
  | Cause.replan =>
      exists newSlices wall base,
        replan host v.note newSlices wall = Except.ok base ∧
          PersistedAs base plan
  | Cause.delta =>
      exists delta wall base,
        applySliceDelta host v.note delta wall = Except.ok base ∧
          PersistedAs base plan
  | Cause.restore =>
      exists current snapshot base,
        (current = v.note ∨ current = planScalars v.note) ∧
          snapshot ∈ v.history ∧
          restorePlan current snapshot = Except.ok base ∧
          PersistedAs base plan

/-- The update whose revision is the last one that landed. -/
def JustLanded (v : Vault) (id : ReceiptId) (kind : String) : Prop :=
  exists input entry rest, v.landed = entry :: rest ∧
    entry.cause = Cause.worker input id.generation ∧
    receiptIdOf input id.generation = id ∧ workerEventKind input.action = kind

/-- A receipt is written as a stamp of acceptance, pending before the note,
committed after it, or committed by a retry that judges it. -/
inductive ReceiptStep (v : Vault) (receipt : WorkerUpdateReceiptEnvelope) :
    Prop where
  | stamp (h : receipt.kind = START_ACCEPTED_RECEIPT_KIND)
      (hpending : receipt.status = WorkerUpdateReceiptStatus.pending)
      (hrev : receipt.rev = v.note.rev)
      (hresponse : receipt.response.slice.requireGeneration =
        receipt.id.generation)
  | pending (input : UpdateClaimedSliceInput) (slice : ThreadSlice)
      (hid : receipt.id = receiptIdOf input slice.requireGeneration)
      (hkind : receipt.kind = workerEventKind input.action)
      (hstatus : receipt.status = WorkerUpdateReceiptStatus.pending)
      (hrev : receipt.rev = v.note.rev + 1)
      (hslice : HasSlice v.note slice)
      (hname : slice.id = input.sliceId)
      (hclaim : slice.claim.isSome = true)
      (hresponse : receipt.response.slice.requireGeneration =
        receipt.id.generation)
      (hexisting : forall existing, receiptAt v receipt.id = some existing ->
        existing.status = WorkerUpdateReceiptStatus.pending ∧
          existing.kind = workerEventKind input.action ∧
          looksCommitted v.note input.sliceId existing = false)
  | landed (h : JustLanded v receipt.id receipt.kind)
      (hstatus : receipt.status = WorkerUpdateReceiptStatus.committed)
      (hresponse : receipt.response.slice.requireGeneration =
        receipt.id.generation)
  | promoted (input : UpdateClaimedSliceInput)
      (existing : WorkerUpdateReceiptEnvelope)
      (hexisting : receiptAt v receipt.id = some existing)
      (hid : receipt.id = receiptIdOf input existing.id.generation)
      (hkind : existing.kind = workerEventKind input.action)
      (hlooks : looksCommitted v.note input.sliceId existing = true)
      (hcommitted : receipt =
        { existing with status := WorkerUpdateReceiptStatus.committed })

/-- No slice at work has this generation. -/
def RetiredGeneration (plan : ThreadPlan) (sliceId : String)
    (generation : Nat) : Prop :=
  forall slice, HasSlice plan slice -> slice.id = sliceId ->
    slice.requireGeneration = generation -> isNonTerminal slice = false

def Allowed (host : Host) : VaultOp -> Vault -> Prop
  | VaultOp.writeNote plan cause now, v =>
      NoteStep host v plan now cause ∧
        assertUniqueSliceIds plan.slices "persistPlan" = Except.ok ()
  | VaultOp.createSecret id _ _ _, v => v.secrets id = none
  | VaultOp.writeReceipt receipt, v => ReceiptStep v receipt
  | VaultOp.unlinkReceipt id, v =>
      RetiredGeneration v.note id.slice_id id.generation
  | _, _ => True

end Thread
end Minni
