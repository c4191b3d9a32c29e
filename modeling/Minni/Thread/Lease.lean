import Minni.Thread.Claims

/-!
# Assignment, claims and expiry

The calls that hand a slice to a worker and take it back.  All of them run
under the plan lock on the plan that was read there.
-/

namespace Minni
namespace Thread

open Foundation

def leaseExpiredKey (planId sliceId : String) (rev : Nat) : String :=
  deriveSystemEventKey "slice.lease_expired" [planId, sliceId, revText rev]

def attentionPayload (sliceId attentionKind : String) : Json :=
  Json.obj
    [("slice_id", Json.str sliceId), ("attention_kind", Json.str attentionKind)]

def attentionEvent (planId sliceId attentionKind : String) (rev : Nat) :
    EventSpec :=
  { idempotencyKey :=
      deriveSystemEventKey "thread.attention_required"
        [planId, sliceId, attentionKind, revText rev]
    kind := "thread.attention_required"
    sliceId := some sliceId
    payload := some (attentionPayload sliceId attentionKind) }

/-- The slice in its next generation, without a claim. -/
def expiredSlice (slice : ThreadSlice) : ThreadSlice :=
  { slice with
    generation := some (slice.requireGeneration + 1)
    claim := none }

def leaseExpiredEvents (host : Host) (actor : String) (now : Nat)
    (plan next : ThreadPlan) (sliceId : String) : MutationEvents :=
  { actor := actor
    operationKey := leaseExpiredKey next.plan_id sliceId next.rev
    kind := "slice.lease_expired"
    sliceId := some sliceId
    payload := none
    readyBefore := readyIds host plan now
    readyAfter := readyIds host next now
    plan := next
    planBefore := none
    now := now
    supplementalEvents :=
      [attentionEvent next.plan_id sliceId "lease_expired" next.rev] }

def findIn (plan : ThreadPlan) (sliceId : String) : Option ThreadSlice :=
  plan.slices.find? fun s => s.id = sliceId

def expireStaleClaimForSlice (host : Host) (actor sliceId : String)
    (clock : Clock) (plan : ThreadPlan) (ordered : List OrderedThreadEvent) :
    Act (ThreadPlan × List OrderedThreadEvent) := do
  let slice <- findSlice plan sliceId
  match slice.claim with
  | none => pure (plan, ordered)
  | some claim =>
      if hasLiveClaim slice clock.now then pure (plan, ordered)
      else do
        let nextSlice := expiredSlice slice
        let next <- persistOrCleanUp (replaceSlice plan sliceId nextSlice)
          (Cause.expire sliceId actor) clock
          (fun canonical =>
            decide (canonical.rev = plan.rev + 1) &&
              match findIn canonical sliceId with
              | none => false
              | some durable =>
                  decide (durable.requireGeneration =
                    nextSlice.requireGeneration) &&
                    decide (durable.claim = none))
          (fun committed =>
            if committed then deleteClaimSecretsBestEffort [claim.claim_id]
            else pure ())
        deleteClaimSecretsBestEffort [claim.claim_id]
        pruneSliceReceiptsOnGenerationAdvance sliceId slice.requireGeneration
        let ordered <- recordThreadMutationEvents host
          (leaseExpiredEvents host actor clock.now plan next sliceId) ordered
        pure (next, ordered)

def isStale (now : Nat) (slice : ThreadSlice) : Bool :=
  slice.claim.isSome && !hasLiveClaim slice now

/-- One pass over the slices that the plan had at first. -/
def synchronizeExpiredClaimsForPlan (host : Host) (actor : String)
    (clock : Clock) :
    List ThreadSlice -> ThreadPlan -> List OrderedThreadEvent ->
      Act (ThreadPlan × List OrderedThreadEvent)
  | [], plan, ordered => pure (plan, ordered)
  | slice :: rest, plan, ordered =>
      if isStale clock.now slice then do
        let swept <- expireStaleClaimForSlice host actor slice.id clock plan
          ordered
        synchronizeExpiredClaimsForPlan host actor clock rest swept.1 swept.2
      else
        synchronizeExpiredClaimsForPlan host actor clock rest plan ordered

def synchronizeExpiredClaims (host : Host) (actor : String) (clock : Clock) :
    Act ThreadPlan := do
  let initialPlan <- Act.readNote
  if initialPlan.slices.any (isStale clock.now) then do
    let ordered <- prepareThreadMutation host actor initialPlan clock.now
    let swept <- synchronizeExpiredClaimsForPlan host actor clock
      initialPlan.slices initialPlan ordered
    pure swept.1
  else
    pure initialPlan

/-!
## Assignment
-/

structure AssignSliceInput where
  sliceId : String
  workerAgentId : String
  actorAgentId : String
  assignmentProfile : Option String

structure ThreadMutationResult where
  plan : ThreadPlan
  slice : ThreadSlice
  ready_before : List String
  ready_after : List String
deriving DecidableEq

def assignmentProfile (value : Option String) : Option String :=
  Text.truthy (value.map Text.trim)

def claimRevokedEvent (planId sliceId : String) (rev : Nat) : EventSpec :=
  { idempotencyKey :=
      deriveSystemEventKey "slice.claim_revoked" [planId, sliceId, revText rev]
    kind := "slice.claim_revoked"
    sliceId := some sliceId
    payload := some (Json.obj [("slice_id", Json.str sliceId)]) }

/-- The first assignment keeps the generation; a later one advances it. -/
def assignedSlice (slice : ThreadSlice) (workerAgentId : String)
    (profile : Option String) : ThreadSlice :=
  { slice with
    assigned_to := some workerAgentId
    assignment_profile := profile
    generation :=
      some (slice.requireGeneration +
        if slice.assigned_to.isSome then 1 else 0)
    claim := none }

def assignedKey (planId sliceId workerAgentId : String) (generation : Nat) :
    String :=
  deriveSystemEventKey "slice.assigned"
    [planId, sliceId, workerAgentId, revText generation]

def assignedEvents (host : Host) (input : AssignSliceInput) (now : Nat)
    (plan next : ThreadPlan) (slice nextSlice : ThreadSlice) : MutationEvents :=
  { actor := input.actorAgentId
    operationKey :=
      assignedKey next.plan_id input.sliceId input.workerAgentId
        nextSlice.requireGeneration
    kind := "slice.assigned"
    sliceId := some input.sliceId
    payload := none
    readyBefore := readyIds host plan now
    readyAfter := readyIds host next now
    plan := next
    planBefore := none
    now := now
    supplementalEvents :=
      if slice.claim.isSome then
        [claimRevokedEvent next.plan_id input.sliceId next.rev]
      else [] }

def pruneReassigned (slice : ThreadSlice) : Act Unit :=
  if slice.assigned_to.isSome then
    pruneCollectedGenerationsBestEffort slice.id [slice.requireGeneration]
  else
    pure ()

def deleteClaimOf (slice : ThreadSlice) : Act Unit :=
  match slice.claim with
  | none => pure ()
  | some claim => deleteClaimSecretsBestEffort [claim.claim_id]

def cleanUpReassigned (slice : ThreadSlice) : Act Unit := do
  pruneReassigned slice
  deleteClaimOf slice

def assignSlice (host : Host) (input : AssignSliceInput) (clock : Clock) :
    Act ThreadMutationResult := do
  let plan <- Act.readNote
  let ordered <- prepareThreadMutation host input.actorAgentId plan clock.now
  let slice <- findSlice plan input.sliceId
  Program.require
    (decide (slice.status = PlanSliceStatus.pending) ||
      (isNonTerminal slice && (unmetDependencies plan input.sliceId).isEmpty))
    (ThreadError.message
      ("slice \"" ++ input.sliceId ++ "\" is not assignable"))
  let profile := assignmentProfile input.assignmentProfile
  let nextSlice := assignedSlice slice input.workerAgentId profile
  let next <- persistOrCleanUp (replaceSlice plan input.sliceId nextSlice)
    (Cause.assign input.sliceId input.workerAgentId input.actorAgentId) clock
    (fun canonical =>
      decide (canonical.rev = plan.rev + 1) &&
        match findIn canonical input.sliceId with
        | none => false
        | some durable =>
            decide (durable.requireGeneration =
              nextSlice.requireGeneration) &&
              decide (durable.assigned_to = some input.workerAgentId) &&
              decide (durable.assignment_profile = profile))
    (fun committed =>
      if committed then cleanUpReassigned slice else pure ())
  cleanUpReassigned slice
  let _ <- recordThreadMutationEvents host
    (assignedEvents host input clock.now plan next slice nextSlice) ordered
  pure
    { plan := next
      slice := nextSlice
      ready_before := readyIds host plan clock.now
      ready_after := readyIds host next clock.now }

/-!
## Claims
-/

structure ClaimSliceInput where
  sliceId : String
  workerAgentId : String
  idempotencyKey : String
  ttlSeconds : Option Nat

def DEFAULT_CLAIM_TTL_SECONDS : Nat := 10 * 60

def MAX_THREAD_CLAIM_TTL_SECONDS : Nat := 7 * 24 * 3600

def claimMetadataMatches (slice : ThreadSlice) (workerAgentId : String)
    (existing : Option ClaimSecretEnvelope) : Option ClaimSecretEnvelope :=
  match slice.claim, existing with
  | some claim, some envelope =>
      if envelope.claim_id = claim.claim_id ∧
          claim.claim_id.slice_id = slice.id ∧
          claim.claim_id.generation = slice.requireGeneration ∧
          envelope.worker_agent_id = workerAgentId ∧
          envelope.expires_at = claim.expires_at ∧
          claim.worker_agent_id = workerAgentId then
        some envelope
      else none
  | _, _ => none

def claimedEvents (host : Host) (input : ClaimSliceInput) (now : Nat)
    (before plan : ThreadPlan) : MutationEvents :=
  { actor := input.workerAgentId
    operationKey :=
      deriveClaimEventKey host plan.plan_id input.sliceId input.workerAgentId
        input.idempotencyKey
    kind := "slice.claimed"
    sliceId := some input.sliceId
    payload := none
    readyBefore := readyIds host before now
    readyAfter := readyIds host plan now
    plan := plan
    planBefore := none
    now := now
    supplementalEvents := [] }

/-- A replayed claim completes the events that the first call may have failed
to append. -/
def repairClaimSchedulerEvents (host : Host) (m : MutationEvents)
    (ordered : List OrderedThreadEvent) : Act Unit := do
  let ordered <- ensureOrderedBaseline host m.plan m.actor m.now ordered
  match findOrderedEventByIdempotencyKey ordered m.operationKey with
  | none => do
      let _ <- recordThreadMutationEvents host m ordered
      pure ()
  | some claimed =>
      match assertOperationIdentity claimed m.actor
          { idempotencyKey := m.operationKey
            kind := "slice.claimed"
            sliceId := m.sliceId
            payload := none } with
      | Except.error e => Act.throw e
      | Except.ok () =>
          if readyIdsEqual m.readyBefore m.readyAfter ||
              (findOrderedEventByIdempotencyKey ordered
                (deriveReadyChangedKey m.operationKey)).isSome then
            pure ()
          else do
            let _ <- appendOrderedEventBatch host m.plan.plan_id
              { rev := m.plan.rev
                actor := m.actor
                at_ := host.toISOString m.now
                events := readyChangedEvents host m }
              ordered
            pure ()

/-- The generations that a claim walked past, with the identities found there:
an envelope that has expired is never attached again. -/
structure ClaimWalk where
  generation : Nat
  envelope : ClaimSecretEnvelope
  staleClaimIds : List ClaimId
  generationsToPrune : List Nat

def createLiveClaimSecret (input : ClaimSliceInput) (clock : Clock)
    (expiresAt rev : Nat) :
    Nat -> Nat -> List ClaimId -> List Nat -> Act ClaimWalk
  | 0, _, _, _ =>
      Act.fail
        ("slice \"" ++ input.sliceId ++
          "\" has too many stale idempotency generations")
  | fuel + 1, generation, stale, pruned => do
      let candidate <- createClaimSecret
        { slice_id := input.sliceId
          generation := generation
          idempotency_key := input.idempotencyKey }
        input.workerAgentId expiresAt rev
      if clock.now < candidate.expires_at then
        pure
          { generation := generation
            envelope := candidate
            staleClaimIds := stale
            generationsToPrune := pruned }
      else
        createLiveClaimSecret input clock expiresAt rev fuel (generation + 1)
          (stale ++ [candidate.claim_id]) (pruned ++ [generation])

def claimedSlice (slice : ThreadSlice) (workerAgentId : String) (now : Nat)
    (walk : ClaimWalk) : ThreadSlice :=
  { slice with
    generation := some walk.generation
    attempt := some (slice.requireAttempt + 1)
    claim := some
      { claim_id := walk.envelope.claim_id
        worker_agent_id := workerAgentId
        claimed_at := now
        expires_at := walk.envelope.expires_at } }

def persistClaim (host : Host) (input : ClaimSliceInput) (clock : Clock)
    (plan : ThreadPlan) (slice : ThreadSlice)
    (ordered : List OrderedThreadEvent) (walk : ClaimWalk) :
    Act ClaimSecretEnvelope := do
  let nextSlice := claimedSlice slice input.workerAgentId clock.now walk
  let next <- persistOrCleanUp (replaceSlice plan input.sliceId nextSlice)
    (Cause.claim input.sliceId input.workerAgentId input.idempotencyKey) clock
    (fun canonical =>
      decide (canonical.rev = walk.envelope.rev) &&
        match findIn canonical input.sliceId with
        | none => false
        | some durable =>
            decide (durable.requireGeneration = walk.generation) &&
              decide (durable.attempt = nextSlice.attempt) &&
              decide (durable.claim = nextSlice.claim))
    (fun committed =>
      if committed then do
        deleteClaimSecretsBestEffort walk.staleClaimIds
        pruneCollectedGenerationsBestEffort input.sliceId
          walk.generationsToPrune
      else
        deleteClaimSecretsBestEffort
          (walk.envelope.claim_id :: walk.staleClaimIds))
  deleteClaimSecretsBestEffort walk.staleClaimIds
  pruneCollectedGenerationsBestEffort input.sliceId walk.generationsToPrune
  let _ <- recordThreadMutationEvents host
    (claimedEvents host input clock.now plan next) ordered
  pure walk.envelope

/-- The claim of a slice that nobody holds, after the claims and generations
that the call has found stale so far. -/
def claimFreeSlice (host : Host) (input : ClaimSliceInput) (clock : Clock)
    (ttlSeconds : Nat) (plan : ThreadPlan) (slice : ThreadSlice)
    (stale : List ClaimId) (pruned : List Nat)
    (ordered : List OrderedThreadEvent) : Act ClaimSecretEnvelope := do
  let unmet := unmetDependencies plan input.sliceId
  Program.require unmet.isEmpty
    (ThreadError.message
      ("slice \"" ++ input.sliceId ++ "\" dependencies are unresolved: " ++
        Text.join ", " unmet))
  let walk <- createLiveClaimSecret input clock
    (clock.now + ttlSeconds * 1000) (plan.rev + 1) 100
    slice.requireGeneration stale pruned
  persistClaim host input clock plan slice ordered walk

/-- A slice that is held replays the claim of the same worker and key. -/
def claimHeldSlice (host : Host) (input : ClaimSliceInput) (clock : Clock)
    (plan : ThreadPlan) (slice : ThreadSlice)
    (ordered : List OrderedThreadEvent) : Act ClaimSecretEnvelope := do
  let existing <- Program.perform
    (VaultOp.readSecret
      { slice_id := input.sliceId
        generation := slice.requireGeneration
        idempotency_key := input.idempotencyKey })
  let envelope <- Program.ofOption
    (claimMetadataMatches slice input.workerAgentId existing)
    (ThreadError.message
      ("slice \"" ++ input.sliceId ++ "\" is already claimed"))
  let unclaimed := replaceSlice plan input.sliceId { slice with claim := none }
  repairClaimSchedulerEvents host
    (claimedEvents host input clock.now unclaimed plan) ordered
  pure envelope

/-- The ready set before a claim is that of the swept plan: the generations
walked past in memory do not change it. -/
def claimSlice (host : Host) (input : ClaimSliceInput) (clock : Clock) :
    Act ClaimSecretEnvelope := do
  let ttlSeconds := input.ttlSeconds.getD DEFAULT_CLAIM_TTL_SECONDS
  Program.require (0 < ttlSeconds)
    (ThreadError.message "claim ttlSeconds must be a positive safe integer")
  Program.require (ttlSeconds ≤ MAX_THREAD_CLAIM_TTL_SECONDS)
    (ThreadError.claimTtl ttlSeconds MAX_THREAD_CLAIM_TTL_SECONDS)
  let initialPlan <- Act.readNote
  let ordered <- prepareThreadMutation host input.workerAgentId initialPlan
    clock.now
  let swept <- synchronizeExpiredClaimsForPlan host input.workerAgentId clock
    initialPlan.slices initialPlan ordered
  let slice <- findSlice swept.1 input.sliceId
  Program.require (isNonTerminal slice)
    (ThreadError.message
      ("slice \"" ++ input.sliceId ++ "\" is not claimable"))
  Program.require (slice.assigned_to = some input.workerAgentId)
    (ThreadError.message
      ("slice \"" ++ input.sliceId ++ "\" is assigned to " ++
        slice.assigned_to.getD "nobody" ++ ", not " ++ input.workerAgentId))
  match slice.claim with
  | none =>
      claimFreeSlice host input clock ttlSeconds swept.1 slice [] [] swept.2
  | some claim =>
      if hasLiveClaim slice clock.now then
        claimHeldSlice host input clock swept.1 slice swept.2
      else
        -- the sweep leaves no such claim
        claimFreeSlice host input clock ttlSeconds
          (replaceSlice swept.1 input.sliceId (expiredSlice slice))
          (expiredSlice slice) [claim.claim_id] [slice.requireGeneration]
          swept.2

end Thread
end Minni
