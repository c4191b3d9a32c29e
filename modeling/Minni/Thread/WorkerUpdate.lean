import Minni.Thread.Lease

/-!
# Worker updates

The update of a claimed slice under the plan lock, the gate that a completion
must pass, and the drain of one queued write.
-/

namespace Minni
namespace Thread

open Foundation

/-!
## Actions
-/

def requireEvidence (value label : String) : Except String String :=
  if Text.isBlank value then
    Except.error ("worker " ++ label ++ " requires non-empty evidence")
  else
    Except.ok (Text.trim value)

def copyProposalSlice (candidate : SliceInput) : Except String SliceInput := do
  ensure (!Text.isBlank candidate.title)
    "thread worker requires non-empty proposal slice title"
  ensure (!(candidate.depends_on.getD []).any Text.isBlank)
    "worker proposal slice dependencies are invalid"
  return {
    id := Text.truthy (candidate.id.map Text.trim)
    title := Text.trim candidate.title
    gate := candidate.gate
    depends_on := candidate.depends_on.map fun deps => deps.map Text.trim
    evidence := candidate.evidence }

def copyProposal : StructuralProposal -> Except String StructuralProposal
  | StructuralProposal.contract reason slice_ids => do
      let reason <- requireEvidence reason "structural proposal"
      ensure (!slice_ids.any Text.isBlank)
        "worker contraction proposal requires slice_ids"
      return StructuralProposal.contract reason (slice_ids.map Text.trim)
  | StructuralProposal.expand reason slices => do
      let reason <- requireEvidence reason "structural proposal"
      let slices <- slices.mapM copyProposalSlice
      return StructuralProposal.expand reason slices
  | StructuralProposal.split reason slices => do
      let reason <- requireEvidence reason "structural proposal"
      let slices <- slices.mapM copyProposalSlice
      return StructuralProposal.split reason slices

def proposedSlice (slice : ThreadSlice) (proposal : StructuralProposal) :
    ThreadSlice :=
  { slice with proposals := some (slice.proposals.getD [] ++ [proposal]) }

def clearedClaim (slice : ThreadSlice) : ThreadSlice :=
  { slice with claim := none }

/-- The plan after the action, and whether the action completes the slice. -/
def applyWorkerAction (host : Host) (plan : ThreadPlan) (sliceId wall : String)
    (action : WorkerUpdateAction) : Except String (ThreadPlan × Bool) :=
  match action with
  | WorkerUpdateAction.start => do
      let next <- updateSlice host plan sliceId PlanSliceStatus.in_progress none
        none wall
      return (next, false)
  | WorkerUpdateAction.progress evidence => do
      let evidence <- requireEvidence evidence "progress"
      let next <- updateSlice host plan sliceId PlanSliceStatus.in_progress
        (some evidence) none wall
      return (next, false)
  | WorkerUpdateAction.block evidence => do
      let evidence <- requireEvidence evidence "block"
      let next <- updateSlice host plan sliceId PlanSliceStatus.blocked
        (some evidence) none wall
      return (next, false)
  | WorkerUpdateAction.scar kind signal resolution => do
      let signal <- requireEvidence signal "scar"
      let entry : ScarTissueEntry :=
        { kind := kind, signal := signal, resolution := resolution }
      return (addScar plan entry wall, false)
  | WorkerUpdateAction.propose_structure proposal => do
      let proposal <- copyProposal proposal
      return ({ plan with
        slices := replaceById plan.slices sliceId fun slice =>
          proposedSlice slice proposal }, false)
  | WorkerUpdateAction.complete evidence => do
      let evidence <- requireEvidence evidence "completion"
      let next <- updateSlice host plan sliceId PlanSliceStatus.done
        (some evidence) none wall
      return (next, true)

/-- A completion also clears the claim; the generation stays. -/
def nextAfterAction (applied : ThreadPlan × Bool) (sliceId : String) :
    ThreadPlan :=
  if applied.2 then
    { applied.1 with
      slices := replaceById applied.1.slices sliceId clearedClaim }
  else
    applied.1

/-!
## The start gate
-/

def START_ACCEPTED_RECEIPT_KIND : String := "slice.start_accepted"

def startAcceptedReceiptKey (host : Host) (planId sliceId : String)
    (generation : Nat) (claimId : ClaimId) : String :=
  "minni.start_accepted:" ++ planId ++ ":" ++ sliceId ++ ":g" ++
    toString generation ++ ":" ++ claimIdText host planId claimId

def startAcceptedReceiptId (host : Host) (planId workerAgentId : String)
    (slice : ThreadSlice) (claimId : ClaimId) : ReceiptId :=
  { slice_id := slice.id
    worker_agent_id := workerAgentId
    generation := slice.requireGeneration
    idempotency_key :=
      startAcceptedReceiptKey host planId slice.id slice.requireGeneration
        claimId }

def isStart : WorkerUpdateAction -> Bool
  | WorkerUpdateAction.start => true
  | _ => false

def isComplete : WorkerUpdateAction -> Bool
  | WorkerUpdateAction.complete _ => true
  | _ => false

def queuedWriteMatchesLiveGeneration (item : QueuedWorkerWrite)
    (slice : ThreadSlice) : Bool :=
  match item.generation with
  | none => true
  | some generation => generation = slice.requireGeneration

def inQueueOrder (host : Host) (items : List QueuedWorkerWrite) :
    List QueuedWorkerWrite :=
  items.insertionSort fun a b =>
    a.enqueuedAt < b.enqueuedAt ||
      (decide (a.enqueuedAt = b.enqueuedAt) &&
        host.localeLe a.ticketId b.ticketId)

def listQueuedWorkerWrites (host : Host) : Act (List QueuedWorkerWrite) := do
  let items <- Program.perform VaultOp.readQueue
  pure (inQueueOrder host items)

def isStartTicketFor (slice : ThreadSlice) (item : QueuedWorkerWrite) : Bool :=
  decide (item.sliceId = slice.id) && isStart item.action &&
    queuedWriteMatchesLiveGeneration item slice

def isAcceptedStartStamp (slice : ThreadSlice)
    (receipt : WorkerUpdateReceiptEnvelope) : Bool :=
  decide (receipt.kind = START_ACCEPTED_RECEIPT_KIND) &&
    decide (receipt.status = WorkerUpdateReceiptStatus.pending) &&
    decide (receipt.id.generation = slice.requireGeneration) &&
    decide (receipt.response.slice.status ≠ PlanSliceStatus.in_progress) &&
    decide (receipt.response.slice.status ≠ PlanSliceStatus.done)

def hasAcceptedStartStamp (host : Host) (planId workerAgentId : String)
    (slice : ThreadSlice) : Act Bool :=
  match slice.claim with
  | none => pure false
  | some claim => do
      let receipt <- readWorkerUpdateReceipt
        (startAcceptedReceiptId host planId workerAgentId slice claim.claim_id)
        (some claim.claim_id)
      pure (receipt.any (isAcceptedStartStamp slice))

/-- The journal scan: an assignment or an expiry forgets the start. -/
def scanStart (sliceId : String) (started : Bool)
    (event : OrderedThreadEvent) : Bool :=
  if event.slice_id ≠ some sliceId then started
  else if event.kind = "slice.assigned" ∨
      event.kind = "slice.lease_expired" then false
  else if event.kind = "slice.started" ∨ event.kind = "slice.progressed" then
    true
  else started

def hasJournaledStartForCurrentGeneration (events : List OrderedThreadEvent)
    (sliceId : String) : Bool :=
  events.foldl (scanStart sliceId) false

def startMustApply : ThreadError :=
  ThreadError.message "start must apply before complete"

def completeWithoutStart : ThreadError :=
  ThreadError.message "complete cannot persist done without start"

def requireJournaledStartBeforeComplete (host : Host)
    (planId workerAgentId : String) (slice : ThreadSlice)
    (ordered : List OrderedThreadEvent) : Act Unit :=
  if slice.status = PlanSliceStatus.in_progress then pure ()
  else do
    let queuedNow <- listQueuedWorkerWrites host
    let startStamp <- hasAcceptedStartStamp host planId workerAgentId slice
    Program.require (!(queuedNow.any (isStartTicketFor slice) || startStamp))
      startMustApply
    Program.require (slice.status ≠ PlanSliceStatus.pending)
      completeWithoutStart
    Program.require (hasJournaledStartForCurrentGeneration ordered slice.id)
      completeWithoutStart

def passStartGate (host : Host) (planId : String)
    (input : UpdateClaimedSliceInput) (slice : ThreadSlice)
    (ordered : List OrderedThreadEvent) : Act Unit :=
  if isComplete input.action then
    requireJournaledStartBeforeComplete host planId input.workerAgentId slice
      ordered
  else
    pure ()

/-!
## The update under the lock
-/

def committedReceiptAuthoritative (slice : ThreadSlice)
    (receipt : WorkerUpdateReceiptEnvelope) : Bool :=
  decide (receipt.id.generation = slice.requireGeneration) &&
    match slice.claim with
    | some claim => decide (claim.claim_id = receipt.claim_id)
    | none => decide (slice = receipt.response.slice)

def receiptMutationResult (plan : ThreadPlan)
    (receipt : WorkerUpdateReceiptEnvelope) : ThreadMutationResult :=
  { plan := { plan with rev := receipt.response.rev }
    slice := receipt.response.slice
    ready_before := receipt.response.ready_before
    ready_after := receipt.response.ready_after }

def receiptIdOf (input : UpdateClaimedSliceInput) (generation : Nat) :
    ReceiptId :=
  { slice_id := input.sliceId
    worker_agent_id := input.workerAgentId
    generation := generation
    idempotency_key := input.idempotencyKey }

def loadWorkerUpdateReceipt (input : UpdateClaimedSliceInput)
    (generation : Nat) (claimId : Option ClaimId) :
    Act (Option WorkerUpdateReceiptEnvelope) := do
  let stored <- readWorkerUpdateReceipt (receiptIdOf input generation) claimId
  match stored with
  | none => pure none
  | some receipt => do
      Program.require (receipt.kind = workerEventKind input.action)
        (ThreadError.idempotencyConflict input.idempotencyKey)
      Program.require (receipt.token_digest = { token := input.token })
        (ThreadError.message "claim token mismatch")
      pure (some receipt)

def looksCommitted (plan : ThreadPlan) (sliceId : String)
    (receipt : WorkerUpdateReceiptEnvelope) : Bool :=
  decide (receipt.rev ≤ plan.rev) &&
    decide (plan.slices.filter (fun s => s.id = sliceId) =
      [receipt.response.slice])

/-- The claim of the slice when the worker and the token prove it: the token is
that of the envelope under the claim's own identity. -/
def authorizeWorker (input : UpdateClaimedSliceInput) (slice : ThreadSlice)
    (now : Nat) : Act ThreadClaimRef := do
  let claim <- Program.ofOption slice.claim
    (ThreadError.message "claim scope mismatch")
  Program.require (claim.worker_agent_id = input.workerAgentId)
    (ThreadError.message "claim scope mismatch")
  let envelope <- verifyClaimToken input.sliceId input.workerAgentId
    slice.requireGeneration input.token claim.claim_id now
  Program.require (envelope.expires_at = claim.expires_at)
    (ThreadError.message "claim scope mismatch")
  Program.require (isNonTerminal slice)
    (ThreadError.message
      ("slice \"" ++ input.sliceId ++ "\" is not worker-updatable"))
  pure claim

def sliceInputJson (slice : SliceInput) : Json :=
  let text := fun (name : String) (value : Option String) =>
    (value.map fun s => (name, Json.str s)).toList
  Json.obj
    ([("title", Json.str slice.title)] ++ text "id" slice.id ++
      text "gate" slice.gate ++
      (slice.depends_on.map fun deps =>
        ("depends_on", Json.arr (deps.map Json.str))).toList ++
      text "evidence" slice.evidence)

def structureProposedPayload : StructuralProposal -> Json
  | StructuralProposal.contract reason slice_ids =>
      Json.obj
        [("kind", Json.str "contract"), ("reason", Json.str reason),
          ("slice_ids", Json.arr (slice_ids.map Json.str))]
  | StructuralProposal.expand reason slices =>
      Json.obj
        [("kind", Json.str "expand"), ("reason", Json.str reason),
          ("slices", Json.arr (slices.map sliceInputJson))]
  | StructuralProposal.split reason slices =>
      Json.obj
        [("kind", Json.str "split"), ("reason", Json.str reason),
          ("slices", Json.arr (slices.map sliceInputJson))]

def actionPayload : WorkerUpdateAction -> Option Json
  | WorkerUpdateAction.propose_structure proposal =>
      match copyProposal proposal with
      | Except.ok copied => some (structureProposedPayload copied)
      | Except.error _ => none
  | _ => none

def isBlock : WorkerUpdateAction -> Bool
  | WorkerUpdateAction.block _ => true
  | _ => false

def workerEvents (host : Host) (input : UpdateClaimedSliceInput) (now : Nat)
    (before next : ThreadPlan) : MutationEvents :=
  { actor := input.workerAgentId
    operationKey :=
      deriveWorkerEventKey host next.plan_id input.sliceId input.workerAgentId
        input.idempotencyKey
    kind := workerEventKind input.action
    sliceId := some input.sliceId
    payload := actionPayload input.action
    readyBefore := readyIds host before now
    readyAfter := readyIds host next now
    plan := next
    planBefore := some before
    now := now
    supplementalEvents :=
      if isBlock input.action then
        [attentionEvent next.plan_id input.sliceId "block" next.rev]
      else [] }

def deleteCompletedSecret (completed : Bool) (claimId : ClaimId) : Act Unit :=
  if completed then deleteClaimSecretsBestEffort [claimId] else pure ()

def sliceIs (plan : ThreadPlan) (slice : ThreadSlice) : Bool :=
  decide (plan.slices.filter (fun s => s.id = slice.id) = [slice])

/-- The write of an authorized action: a pending receipt, the note, the
committed receipt, and the events. -/
def persistWorkerAction (host : Host) (input : UpdateClaimedSliceInput)
    (clock : Clock) (plan : ThreadPlan) (claim : ThreadClaimRef)
    (generation : Nat) (ordered : List OrderedThreadEvent) :
    Act ThreadMutationResult := do
  let applied <- Act.ofExcept
    (applyWorkerAction host plan input.sliceId clock.wall input.action)
  let next := nextAfterAction applied input.sliceId
  let nextSlice <- findSlice next input.sliceId
  let readyBefore := readyIds host plan clock.now
  let receipt : WorkerUpdateReceiptEnvelope :=
    { id := receiptIdOf input generation
      claim_id := claim.claim_id
      kind := workerEventKind input.action
      token_digest := { token := input.token }
      status := WorkerUpdateReceiptStatus.pending
      response :=
        { slice := nextSlice
          ready_before := readyBefore
          ready_after := readyIds host next clock.now
          rev := plan.rev + 1 } }
  writeWorkerUpdateReceipt receipt
  let persisted <- persistOrCleanUp next (Cause.worker input generation) clock
    (fun canonical =>
      decide (canonical.rev = plan.rev + 1) && sliceIs canonical nextSlice)
    (fun committed =>
      if committed then do
        Act.bestEffort (commitWorkerUpdateReceipt receipt)
        deleteCompletedSecret applied.2 claim.claim_id
      else pure ())
  deleteCompletedSecret applied.2 claim.claim_id
  commitWorkerUpdateReceipt receipt
  let _ <- recordThreadMutationEvents host
    (workerEvents host input clock.now plan persisted) ordered
  pure
    { plan := persisted
      slice := nextSlice
      ready_before := readyBefore
      ready_after := readyIds host persisted clock.now }

/-- The update of a swept plan with no committed receipt. -/
def applyAuthorized (host : Host) (input : UpdateClaimedSliceInput)
    (clock : Clock) (plan : ThreadPlan) (ordered : List OrderedThreadEvent) :
    Act ThreadMutationResult := do
  let slice <- findSlice plan input.sliceId
  let claim <- authorizeWorker input slice clock.now
  passStartGate host plan.plan_id input slice ordered
  persistWorkerAction host input clock plan claim slice.requireGeneration
    ordered

def replayOrApply (host : Host) (input : UpdateClaimedSliceInput)
    (clock : Clock) (plan : ThreadPlan)
    (existing : Option WorkerUpdateReceiptEnvelope)
    (ordered : List OrderedThreadEvent) : Act ThreadMutationResult :=
  match existing with
  | none => applyAuthorized host input clock plan ordered
  | some receipt =>
      if looksCommitted plan input.sliceId receipt then do
        commitWorkerUpdateReceipt receipt
        pure (receiptMutationResult plan receipt)
      else
        applyAuthorized host input clock plan ordered

/-- The call swept its own claim away. -/
def sweptOwnClaim (before after : ThreadSlice) (now : Nat) : Bool :=
  before.claim.isSome && after.claim.isNone && !hasLiveClaim before now

def sweepAndApply (host : Host) (input : UpdateClaimedSliceInput)
    (clock : Clock) (initialPlan : ThreadPlan) (receiptSlice : ThreadSlice)
    (existing : Option WorkerUpdateReceiptEnvelope) :
    Act ThreadMutationResult := do
  let ordered <- prepareThreadMutation host input.workerAgentId initialPlan
    clock.now
  let swept <- synchronizeExpiredClaimsForPlan host input.workerAgentId clock
    initialPlan.slices initialPlan ordered
  let sliceAfterExpiry <- findSlice swept.1 input.sliceId
  Program.require (!sweptOwnClaim receiptSlice sliceAfterExpiry clock.now)
    (ThreadError.message "claim expired")
  replayOrApply host input clock swept.1 existing swept.2

def replayCommitted (host : Host) (input : UpdateClaimedSliceInput)
    (clock : Clock) (initialPlan : ThreadPlan)
    (receipt : WorkerUpdateReceiptEnvelope) : Act ThreadMutationResult := do
  let _ <- prepareThreadMutation host input.workerAgentId initialPlan clock.now
  pure (receiptMutationResult initialPlan receipt)

/-- A committed receipt answers the retry when it is authoritative and refuses
it otherwise. -/
def applyClaimedSlice (host : Host) (input : UpdateClaimedSliceInput)
    (clock : Clock) : Act ThreadMutationResult := do
  let initialPlan <- Act.readNote
  let reserved <- Program.perform VaultOp.reservationIsLive
  Program.require (!reserved) ThreadError.busy
  let receiptSlice <- findSlice initialPlan input.sliceId
  let existing <- loadWorkerUpdateReceipt input
    receiptSlice.requireGeneration
    (receiptSlice.claim.map (·.claim_id))
  match existing with
  | none => sweepAndApply host input clock initialPlan receiptSlice none
  | some receipt =>
      if receipt.status = WorkerUpdateReceiptStatus.committed then
        if committedReceiptAuthoritative receiptSlice receipt then
          replayCommitted host input clock initialPlan receipt
        else
          Act.fail "claim scope mismatch"
      else
        sweepAndApply host input clock initialPlan receiptSlice (some receipt)

/-!
## The drain of one ticket
-/

/-- A start drains before a completion of the same slice. -/
def pickNextQueuedWorkerWrite (items : List QueuedWorkerWrite) :
    Option QueuedWorkerWrite :=
  (items.find? fun item =>
    !(isComplete item.action &&
      items.any fun other =>
        isStart other.action && decide (other.sliceId = item.sliceId))).or
    items.head?

def queuedWriteIsLiveWork (plan : ThreadPlan) (item : QueuedWorkerWrite) :
    Bool :=
  match plan.slices.filter fun s => s.id = item.sliceId with
  | [slice] => isNonTerminal slice && queuedWriteMatchesLiveGeneration item slice
  | _ => false

def removeQueuedWorkerWrite (idempotencyKey : String) : Act Unit :=
  Act.bestEffort (Program.perform (VaultOp.removeTicket idempotencyKey))

def pruneTicketGeneration (item : QueuedWorkerWrite) : Act Unit :=
  match item.generation with
  | none => pure ()
  | some generation =>
      pruneSliceReceiptsOnGenerationAdvance item.sliceId generation

/-- The token comes from the envelope of the slice's current claim. -/
def claimTokenFromExistingStore (plan : ThreadPlan)
    (item : QueuedWorkerWrite) : Act Nat := do
  let slice <- findSlice plan item.sliceId
  let claim <- Program.ofOption slice.claim
    (ThreadError.message "claim not found")
  let stored <- Program.perform (VaultOp.readSecret claim.claim_id)
  let envelope <- Program.ofOption stored
    (ThreadError.message "claim not found")
  Program.require
    (decide (envelope.claim_id.slice_id = item.sliceId) &&
      decide (envelope.worker_agent_id = item.workerAgentId) &&
      (decide (item.generation = none) ||
        decide (item.generation = some envelope.claim_id.generation)))
    (ThreadError.message "claim scope mismatch")
  Program.require (item.tokenDigest = { token := envelope.token })
    (ThreadError.message "claim token mismatch")
  pure envelope.token

def drainLiveTicket (host : Host) (clock : Clock) (lockedPlan : ThreadPlan)
    (item : QueuedWorkerWrite) : Act Bool := do
  let token <- claimTokenFromExistingStore lockedPlan item
  let _ <- applyClaimedSlice host
    { sliceId := item.sliceId
      workerAgentId := item.workerAgentId
      token := token
      idempotencyKey := item.idempotencyKey
      action := item.action }
    { clock with now := item.applyNow.getD clock.now }
  removeQueuedWorkerWrite item.idempotencyKey
  let _ <- listQueuedWorkerWrites host
  pure false

def dropDeadTicket (host : Host) (item : QueuedWorkerWrite) : Act Bool := do
  removeQueuedWorkerWrite item.idempotencyKey
  pruneTicketGeneration item
  let _ <- listQueuedWorkerWrites host
  pure false

/-- True only when the queue had no work. -/
def drainOneQueuedWorkerWrite (host : Host) (clock : Clock) : Act Bool := do
  let items <- listQueuedWorkerWrites host
  match pickNextQueuedWorkerWrite items with
  | none => pure true
  | some item => do
      let reserved <- Program.perform VaultOp.reservationIsLive
      if reserved then pure false
      else do
        let lockedPlan <- Act.readNote
        if queuedWriteIsLiveWork lockedPlan item then
          drainLiveTicket host clock lockedPlan item
        else
          dropDeadTicket host item

end Thread
end Minni
