import Minni.Foundation.Program
import Minni.Thread.Events
import Minni.Thread.Plan

/-!
# The vault of one thread

What the calls on one thread keep on disk: the plan note and its history, the
ordered journal, the private claim envelopes, the receipts of worker updates
and the queue of accepted writes.  Each operation is one durable step, which
may fail, or take effect and still report a failure.

A claim identity, a receipt identity and a token digest stand for the hashes
that the code takes of exactly these values.  The vault also records every
revision that was written and what it was written for; no operation reads this
record.
-/

namespace Minni
namespace Thread

open Foundation

structure ClaimId where
  slice_id : String
  generation : Nat
  idempotency_key : String
deriving DecidableEq

structure ThreadClaimRef where
  claim_id : ClaimId
  worker_agent_id : String
  claimed_at : Nat
  expires_at : Nat
deriving DecidableEq

abbrev ThreadSlice := PlanSlice ThreadClaimRef

abbrev ThreadPlan := PlanArtifact ThreadClaimRef

structure TokenDigest where
  token : Nat
deriving DecidableEq

/-- What the private file of a claim holds besides the claim's identity, under
which the file is kept. -/
structure ClaimSecret where
  worker_agent_id : String
  token : Nat
  expires_at : Nat
  rev : Nat
deriving DecidableEq

/-- The envelope as it is read.  The response that a replay returns is made of
the same values. -/
structure ClaimSecretEnvelope extends ClaimSecret where
  claim_id : ClaimId
deriving DecidableEq

inductive WorkerUpdateAction where
  | start
  | progress (evidence : String)
  | block (evidence : String)
  | scar (kind : ScarKind) (signal : String) (resolution : Option String)
  | propose_structure (proposal : StructuralProposal)
  | complete (evidence : String)
deriving DecidableEq

def workerEventKind : WorkerUpdateAction -> String
  | WorkerUpdateAction.start => "slice.started"
  | WorkerUpdateAction.progress _ => "slice.progressed"
  | WorkerUpdateAction.block _ => "slice.blocked"
  | WorkerUpdateAction.complete _ => "slice.completed"
  | WorkerUpdateAction.scar _ _ _ => "scar_added"
  | WorkerUpdateAction.propose_structure _ => "structure.proposed"

structure ReceiptId where
  slice_id : String
  worker_agent_id : String
  generation : Nat
  idempotency_key : String
deriving DecidableEq

inductive WorkerUpdateReceiptStatus where
  | pending
  | committed
deriving DecidableEq

structure WorkerUpdateReceiptResponse where
  slice : ThreadSlice
  ready_before : List String
  ready_after : List String
  rev : Nat
deriving DecidableEq

structure WorkerUpdateReceiptEnvelope where
  id : ReceiptId
  claim_id : ClaimId
  kind : String
  token_digest : TokenDigest
  status : WorkerUpdateReceiptStatus
  response : WorkerUpdateReceiptResponse
deriving DecidableEq

namespace WorkerUpdateReceiptEnvelope

/-- A receipt is only written with the revision of its response. -/
def rev (receipt : WorkerUpdateReceiptEnvelope) : Nat :=
  receipt.response.rev

end WorkerUpdateReceiptEnvelope

structure QueuedWorkerWrite where
  ticketId : String
  enqueuedAt : Nat
  sliceId : String
  workerAgentId : String
  tokenDigest : TokenDigest
  idempotencyKey : String
  action : WorkerUpdateAction
  applyNow : Option Nat
  generation : Option Nat
deriving DecidableEq

/-!
## Worker updates and what a revision is written for
-/

structure UpdateClaimedSliceInput where
  sliceId : String
  workerAgentId : String
  token : Nat
  idempotencyKey : String
  action : WorkerUpdateAction
deriving DecidableEq

inductive Cause where
  | expire (sliceId actor : String)
  | assign (sliceId workerAgentId actorAgentId : String)
  | claim (sliceId workerAgentId idempotencyKey : String)
  | worker (input : UpdateClaimedSliceInput) (generation : Nat)
  | orchestrator (sliceId : String)
  | scar
  | replan
  | delta
  | restore
deriving DecidableEq

/-- A revision that was written: its cause, the time the call acted at, and the
notes before and after. -/
structure Landed where
  cause : Cause
  now : Nat
  before : ThreadPlan
  after : ThreadPlan

structure Vault where
  note : ThreadPlan
  history : List ThreadPlan
  journal : List OrderedThreadEvent
  secrets : ClaimId -> Option ClaimSecret
  receipts : List WorkerUpdateReceiptEnvelope
  queue : List QueuedWorkerWrite
  reserved : Bool
  nextToken : Nat
  landed : List Landed

inductive ThreadError where
  | io
  | message (text : String)
  | busy
  | idempotencyConflict (idempotencyKey : String)
  | planHistoryAppend (rev : Nat)
  | journalAppend (operationKey kind : String)
  | inconsistent (noteRev journalRev : Nat)
  | claimTtl (ttlSeconds maxSeconds : Nat)
deriving DecidableEq

/-!
## Operations
-/

inductive VaultOp where
  | readNote
  | writeNote (plan : ThreadPlan) (cause : Cause) (now : Nat)
  | readHistory
  | appendHistory (plan : ThreadPlan)
  | readJournal
  | appendJournal (events : List OrderedThreadEvent)
  | appendLegacyLine
  | readSecret (id : ClaimId)
  | createSecret (id : ClaimId) (workerAgentId : String) (expiresAt rev : Nat)
  | unlinkSecret (id : ClaimId)
  | readReceipt (id : ReceiptId)
  | writeReceipt (receipt : WorkerUpdateReceiptEnvelope)
  | listReceipts (sliceId : String) (generation : Nat)
  | unlinkReceipt (id : ReceiptId)
  | readQueue
  | writeTicket (item : QueuedWorkerWrite)
  | removeTicket (idempotencyKey : String)
  | reservationIsLive

abbrev VaultReply : VaultOp -> Type
  | VaultOp.readNote => ThreadPlan
  | VaultOp.readHistory => List ThreadPlan
  | VaultOp.readJournal => List OrderedThreadEvent
  | VaultOp.readSecret _ => Option ClaimSecretEnvelope
  | VaultOp.readReceipt _ => Option WorkerUpdateReceiptEnvelope
  | VaultOp.listReceipts _ _ => List ReceiptId
  | VaultOp.readQueue => List QueuedWorkerWrite
  | VaultOp.reservationIsLive => Bool
  | _ => Unit

abbrev Act := Program VaultOp VaultReply ThreadError

namespace Vault

def envelope (v : Vault) (id : ClaimId) : Option ClaimSecretEnvelope :=
  (v.secrets id).map fun secret =>
    { toClaimSecret := secret, claim_id := id }

def answer : (o : VaultOp) -> Vault -> VaultReply o
  | VaultOp.readNote, v => v.note
  | VaultOp.readHistory, v => v.history
  | VaultOp.readJournal, v => v.journal
  | VaultOp.readSecret id, v => v.envelope id
  | VaultOp.readReceipt id, v => v.receipts.find? fun r => r.id = id
  | VaultOp.listReceipts sliceId generation, v =>
      (v.receipts.filter fun r =>
        r.id.slice_id = sliceId ∧ r.id.generation = generation).map (·.id)
  | VaultOp.readQueue, v => v.queue
  | VaultOp.reservationIsLive, v => v.reserved
  | VaultOp.writeNote _ _ _, _ => ()
  | VaultOp.appendHistory _, _ => ()
  | VaultOp.appendJournal _, _ => ()
  | VaultOp.appendLegacyLine, _ => ()
  | VaultOp.createSecret _ _ _ _, _ => ()
  | VaultOp.unlinkSecret _, _ => ()
  | VaultOp.writeReceipt _, _ => ()
  | VaultOp.unlinkReceipt _, _ => ()
  | VaultOp.writeTicket _, _ => ()
  | VaultOp.removeTicket _, _ => ()

def putSecret (v : Vault) (id : ClaimId) (secret : Option ClaimSecret) :
    Vault :=
  { v with secrets := Function.update v.secrets id secret }

def dropReceipt (v : Vault) (id : ReceiptId) : Vault :=
  { v with receipts := v.receipts.filter fun r => r.id ≠ id }

/-- A fresh token is drawn for every new envelope. -/
def effect : VaultOp -> Vault -> Vault
  | VaultOp.writeNote plan cause now, v =>
      { v with
        note := plan
        landed :=
          { cause := cause, now := now, before := v.note, after := plan } ::
            v.landed }
  | VaultOp.appendHistory plan, v => { v with history := v.history ++ [plan] }
  | VaultOp.appendJournal events, v =>
      { v with journal := v.journal ++ events }
  | VaultOp.createSecret id workerAgentId expiresAt rev, v =>
      { v.putSecret id
          (some
            { worker_agent_id := workerAgentId
              token := v.nextToken
              expires_at := expiresAt
              rev := rev }) with
        nextToken := v.nextToken + 1 }
  | VaultOp.unlinkSecret id, v => v.putSecret id none
  | VaultOp.writeReceipt receipt, v =>
      { v.dropReceipt receipt.id with
        receipts := receipt :: (v.dropReceipt receipt.id).receipts }
  | VaultOp.unlinkReceipt id, v => v.dropReceipt id
  | VaultOp.writeTicket item, v => { v with queue := v.queue ++ [item] }
  | VaultOp.removeTicket idempotencyKey, v =>
      { v with
        queue := v.queue.filter fun t => t.idempotencyKey ≠ idempotencyKey }
  | VaultOp.readNote, v => v
  | VaultOp.readHistory, v => v
  | VaultOp.readJournal, v => v
  | VaultOp.appendLegacyLine, v => v
  | VaultOp.readSecret _, v => v
  | VaultOp.readReceipt _, v => v
  | VaultOp.listReceipts _ _, v => v
  | VaultOp.readQueue, v => v
  | VaultOp.reservationIsLive, v => v

end Vault

def vaultInterface : Interface VaultOp VaultReply ThreadError Vault where
  answer := Vault.answer
  effect := Vault.effect
  fault := ThreadError.io

namespace Act

def readNote : Act ThreadPlan :=
  Program.perform VaultOp.readNote

def readJournal : Act (List OrderedThreadEvent) :=
  Program.perform VaultOp.readJournal

def throw {α : Type} (e : ThreadError) : Act α :=
  Program.throw e

def fail {α : Type} (text : String) : Act α :=
  Program.throw (ThreadError.message text)

/-- Runs the action and forgets its failure. -/
def bestEffort (act : Act Unit) : Act Unit :=
  act.tryCatch fun _ => pure ()

/-- A pure operation on plans; its refusal is thrown. -/
def ofExcept {α : Type} (result : Except String α) : Act α :=
  match result with
  | Except.ok a => pure a
  | Except.error text => fail text

end Act

end Thread
end Minni
