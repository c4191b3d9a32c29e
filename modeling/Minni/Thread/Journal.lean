import Minni.Thread.Vault

/-!
# The ordered journal of a thread

The append of a batch of events, the reconciliation of a journal with a note
that is ahead of it, the first baseline, and the events that follow a mutation.
The calls of one lock acquisition share a snapshot of the journal; here it is
passed from one program to the next.
-/

namespace Minni
namespace Thread

open Foundation

def claimIdText (host : Host) (planId : String) (id : ClaimId) : String :=
  takeString 32 (host.sha256Hex (String.ofList (Json.stableStringify
    (Json.obj
      [("plan_id", Json.str planId),
        ("slice_id", Json.str id.slice_id),
        ("generation", Json.int id.generation),
        ("idempotency_key", Json.str id.idempotency_key)]))))

def deriveClientEventKey (host : Host) (scope : String) (identity : Json) :
    String :=
  "client:" ++ scope ++ ":" ++
    takeString 32
      (host.sha256Hex (String.ofList (Json.stableStringify identity)))

def clientIdentity (planId sliceId workerAgentId idempotencyKey : String) :
    Json :=
  Json.obj
    [("plan_id", Json.str planId),
      ("slice_id", Json.str sliceId),
      ("worker_agent_id", Json.str workerAgentId),
      ("idempotency_key", Json.str idempotencyKey)]

def deriveClaimEventKey (host : Host)
    (planId sliceId workerAgentId idempotencyKey : String) : String :=
  deriveClientEventKey host "claim"
    (clientIdentity planId sliceId workerAgentId idempotencyKey)

def deriveWorkerEventKey (host : Host)
    (planId sliceId workerAgentId idempotencyKey : String) : String :=
  deriveClientEventKey host "worker"
    (clientIdentity planId sliceId workerAgentId idempotencyKey)

/-!
## Batches
-/

structure EventSpec where
  idempotencyKey : String
  kind : String
  sliceId : Option String
  payload : Option Json

structure EventBatch where
  rev : Nat
  actor : String
  at_ : String
  events : List EventSpec

def findOrderedEventByIdempotencyKey (ordered : List OrderedThreadEvent)
    (idempotencyKey : String) : Option OrderedThreadEvent :=
  ordered.find? fun event => event.idempotency_key = idempotencyKey

def operationIdentityMatches (event : OrderedThreadEvent) (actor : String)
    (spec : EventSpec) : Bool :=
  decide (event.idempotency_key = spec.idempotencyKey) &&
    decide (event.kind = spec.kind) && decide (event.actor = actor) &&
    (decide (spec.sliceId = none) || decide (event.slice_id = spec.sliceId))

def assertOperationIdentity (event : OrderedThreadEvent) (actor : String)
    (spec : EventSpec) : Except ThreadError Unit :=
  if operationIdentityMatches event actor spec then Except.ok ()
  else Except.error (ThreadError.idempotencyConflict spec.idempotencyKey)

def nextSequence (ordered : List OrderedThreadEvent) : Nat :=
  ordered.foldl (fun highest event => max highest event.seq) 0 + 1

def deriveEventId (host : Host) (planId : String) (seq : Nat)
    (idempotencyKey : String) : String :=
  takeString 32 (host.sha256Hex (String.ofList (Json.stableStringify
    (Json.obj
      [("plan_id", Json.str planId),
        ("seq", Json.int seq),
        ("idempotency_key", Json.str idempotencyKey)]))))

def freshEvent (host : Host) (planId : String) (batch : EventBatch) (seq : Nat)
    (spec : EventSpec) : OrderedThreadEvent :=
  { seq := seq
    rev := batch.rev
    event_id := deriveEventId host planId seq spec.idempotencyKey
    idempotency_key := spec.idempotencyKey
    actor := batch.actor
    kind := spec.kind
    at_ := batch.at_
    slice_id := Text.truthy spec.sliceId
    payload := spec.payload }

/-- The events of a batch: an event whose key is already there is taken from
the journal, where its identity must match. -/
def materializeBatchEvents (host : Host) (planId : String)
    (batch : EventBatch) :
    List OrderedThreadEvent -> Nat -> List EventSpec ->
      Except ThreadError (List OrderedThreadEvent)
  | _, _, [] => Except.ok []
  | ordered, seqCursor, spec :: specs =>
      match findOrderedEventByIdempotencyKey ordered spec.idempotencyKey with
      | some existing => do
          assertOperationIdentity existing batch.actor spec
          let rest <- materializeBatchEvents host planId batch ordered
            seqCursor specs
          return existing :: rest
      | none => do
          let event := freshEvent host planId batch seqCursor spec
          let rest <- materializeBatchEvents host planId batch
            (ordered ++ [event]) (seqCursor + 1) specs
          return event :: rest

def assertExistingEvents (ordered : List OrderedThreadEvent)
    (batch : EventBatch) : List EventSpec -> Except ThreadError Unit
  | [] => Except.ok ()
  | spec :: specs =>
      match findOrderedEventByIdempotencyKey ordered spec.idempotencyKey with
      | none =>
          Except.error
            (ThreadError.message
              "appendOrderedEventBatch: missing existing event")
      | some existing => do
          assertOperationIdentity existing batch.actor spec
          assertExistingEvents ordered batch specs

/-- Appends the batch.  The first component is the snapshot that the caller
goes on with, also where the append has failed. -/
def appendOrderedEventAttempt (host : Host) (planId : String)
    (batch : EventBatch) (ordered : List OrderedThreadEvent) :
    Act (List OrderedThreadEvent × Option ThreadError) :=
  if batch.events.all fun spec =>
      (findOrderedEventByIdempotencyKey ordered spec.idempotencyKey).isSome
  then
    match assertExistingEvents ordered batch batch.events with
    | Except.error e => pure (ordered, some e)
    | Except.ok () => pure (ordered, none)
  else
    match materializeBatchEvents host planId batch ordered
        (nextSequence ordered) batch.events with
    | Except.error e => pure (ordered, some e)
    | Except.ok materialized =>
        let fresh := materialized.filter fun event =>
          (findOrderedEventByIdempotencyKey ordered
            event.idempotency_key).isNone
        Program.tryCatch
          (do
            Program.perform (VaultOp.appendJournal fresh)
            pure (ordered ++ fresh, none))
          fun e =>
            -- the snapshot is read again; an unreadable journal leaves it
            Program.tryCatch
              (do
                let disk <- Act.readJournal
                pure (disk, some e))
              fun _ => pure (ordered, some e)

def appendOrderedEventBatch (host : Host) (planId : String)
    (batch : EventBatch) (ordered : List OrderedThreadEvent) :
    Act (List OrderedThreadEvent) := do
  let attempt <- appendOrderedEventAttempt host planId batch ordered
  match attempt.2 with
  | none => pure attempt.1
  | some e => Act.throw e

/-!
## Ready slices
-/

def isNonTerminal (slice : ThreadSlice) : Bool :=
  decide (slice.status ≠ PlanSliceStatus.done) &&
    decide (slice.status ≠ PlanSliceStatus.superseded)

def hasLiveClaim (slice : ThreadSlice) (now : Nat) : Bool :=
  match slice.claim with
  | none => false
  | some claim => now < claim.expires_at

def readySlices (host : Host) (plan : ThreadPlan) (now : Nat) :
    List ThreadSlice :=
  (plan.slices.filter fun slice =>
    isNonTerminal slice && (unmetDependencies plan slice.id).isEmpty &&
      !hasLiveClaim slice now).insertionSort
    fun left right => host.localeLe left.id right.id

def readyIds (host : Host) (plan : ThreadPlan) (now : Nat) : List String :=
  (readySlices host plan now).map (·.id)

def readyIdsEqual (left right : List String) : Bool :=
  Text.sortStrings left = Text.sortStrings right

def readySummary (host : Host) (plan : ThreadPlan) (now : Nat) : Json :=
  Json.obj
    [("slices",
      Json.arr ((readySlices host plan now).map fun slice =>
        Json.obj
          [("id", Json.str slice.id), ("title", Json.str slice.title)]))]

/-!
## Before a mutation
-/

def revText (rev : Nat) : String :=
  toString rev

def recoveryKeyCollisionSuffix (host : Host) (primaryKey : String)
    (conflicting : OrderedThreadEvent) : String :=
  takeString 16 (host.sha256Hex (String.ofList (Json.stableStringify
    (Json.obj
      [("key", Json.str primaryKey),
        ("event_id", Json.str conflicting.event_id),
        ("kind", Json.str conflicting.kind),
        ("rev", Json.int conflicting.rev)]))))

def isRecoveryOf (rev : Nat) (event : OrderedThreadEvent) : Bool :=
  decide (event.kind = "state.recovered") && decide (event.rev = rev)

def deriveRecoveryEventKey (host : Host) (ordered : List OrderedThreadEvent)
    (rev : Nat) : String :=
  let primary := deriveSystemEventKey "state.recovered" [revText rev]
  match findOrderedEventByIdempotencyKey ordered primary with
  | none => primary
  | some existing =>
      if isRecoveryOf rev existing then primary
      else
        let suffix := recoveryKeyCollisionSuffix host primary existing
        let alternate :=
          deriveSystemEventKey "state.recovered" [revText rev, suffix]
        match findOrderedEventByIdempotencyKey ordered alternate with
        | none => alternate
        | some other =>
            if isRecoveryOf rev other then alternate
            else
              deriveSystemEventKey "state.recovered"
                [revText rev, recoveryKeyCollisionSuffix host alternate other]

def systemBatch (rev : Nat) (actor at_ : String) (key kind : String)
    (summary : Json) : EventBatch :=
  { rev := rev
    actor := actor
    at_ := at_
    events :=
      [{ idempotencyKey := key
         kind := kind
         sliceId := none
         payload := some (Json.obj [("ready", summary)]) }] }

def reconcileThreadJournal (host : Host) (plan : ThreadPlan) (actor : String)
    (now : Nat) (ordered : List OrderedThreadEvent) :
    Act (List OrderedThreadEvent) :=
  let journalRev :=
    ordered.foldl (fun highest event => max highest event.rev) 0
  if ordered.isEmpty then pure ordered
  else if plan.rev < journalRev then
    Act.throw (ThreadError.inconsistent plan.rev journalRev)
  else if plan.rev = journalRev then pure ordered
  else if ordered.any (isRecoveryOf plan.rev) then pure ordered
  else
    appendOrderedEventBatch host plan.plan_id
      (systemBatch plan.rev actor (host.toISOString now)
        (deriveRecoveryEventKey host ordered plan.rev) "state.recovered"
        (readySummary host plan now))
      ordered

def ensureOrderedBaseline (host : Host) (plan : ThreadPlan) (actor : String)
    (now : Nat) (ordered : List OrderedThreadEvent) :
    Act (List OrderedThreadEvent) :=
  if ordered.isEmpty then
    appendOrderedEventBatch host plan.plan_id
      (systemBatch plan.rev actor (host.toISOString now)
        (deriveSystemEventKey "state.baseline" [revText plan.rev])
        "state.baseline" (readySummary host plan now))
      ordered
  else
    pure ordered

def prepareThreadMutation (host : Host) (actor : String) (plan : ThreadPlan)
    (now : Nat) : Act (List OrderedThreadEvent) := do
  let ordered <- Act.readJournal
  let ordered <- reconcileThreadJournal host plan actor now ordered
  ensureOrderedBaseline host plan actor now ordered

/-!
## After a mutation
-/

structure MutationEvents where
  actor : String
  operationKey : String
  kind : String
  sliceId : Option String
  payload : Option Json
  readyBefore : List String
  readyAfter : List String
  plan : ThreadPlan
  planBefore : Option ThreadPlan
  now : Nat
  supplementalEvents : List EventSpec

def planJustCompleted (before after : ThreadPlan) : Bool :=
  decide (before.status ≠ PageStatus.complete) &&
    decide (after.status = PageStatus.complete)

def threadCompletedEvents (m : MutationEvents) : List EventSpec :=
  match m.planBefore with
  | none => []
  | some before =>
      if planJustCompleted before m.plan then
        [{ idempotencyKey :=
             deriveSystemEventKey "thread.completed"
               [m.plan.plan_id, revText m.plan.rev]
           kind := "thread.completed"
           sliceId := none
           payload := none }]
      else []

def readyChangedEvents (host : Host) (m : MutationEvents) : List EventSpec :=
  if readyIdsEqual m.readyBefore m.readyAfter then []
  else
    [{ idempotencyKey := deriveReadyChangedKey m.operationKey
       kind := "ready.changed"
       sliceId := none
       payload := some (readySummary host m.plan m.now) }]

def mutationBatch (host : Host) (m : MutationEvents) : EventBatch :=
  { rev := m.plan.rev
    actor := m.actor
    at_ := host.toISOString m.now
    events :=
      { idempotencyKey := m.operationKey
        kind := m.kind
        sliceId := m.sliceId
        payload := m.payload } ::
      (m.supplementalEvents ++ threadCompletedEvents m ++
        readyChangedEvents host m) }

def orderedSnapshotsEqual (left right : List OrderedThreadEvent) : Bool :=
  left.map (fun event => (event.seq, event.event_id)) =
    right.map (fun event => (event.seq, event.event_id))

def orderedSnapshotMatchesJournal (ordered : List OrderedThreadEvent) :
    Act Bool := do
  let disk <- Act.readJournal
  pure (orderedSnapshotsEqual ordered disk)

def isIdempotencyConflict : ThreadError -> Bool
  | ThreadError.idempotencyConflict _ => true
  | _ => false

/-- The events that follow a persisted mutation.  A failed append is forgiven
only when the snapshot agrees with the journal and has the operation's event. -/
def recordThreadMutationEvents (host : Host) (m : MutationEvents)
    (ordered : List OrderedThreadEvent) : Act (List OrderedThreadEvent) := do
  let attempt <- appendOrderedEventAttempt host m.plan.plan_id
    (mutationBatch host m) ordered
  match attempt.2 with
  | none => pure attempt.1
  | some e =>
      if isIdempotencyConflict e then Act.throw e
      else do
        let truthful <- orderedSnapshotMatchesJournal attempt.1
        if truthful then
          if (findOrderedEventByIdempotencyKey attempt.1
              m.operationKey).isSome then
            pure attempt.1
          else
            Act.throw (ThreadError.journalAppend m.operationKey m.kind)
        else
          Act.throw e

end Thread
end Minni
