import Minni.Foundation.Text

/-!
# The notification relay

Delivery cursors and the pending queue of every subscriber, in one store.  The
writer of a journal rebuilds the queue of its plan from the whole journal; a
reader moves a cursor forward and drops what it has seen.
-/

namespace Minni
namespace Thread

open Foundation

namespace Relay

structure JournalEvent where
  seq : Nat
  kind : String
  actor : String
  at_ : String
  slice_id : Option String
deriving DecidableEq

structure DeliveryCursor where
  subscriber_id : String
  plan_id : String
  last_delivered_seq : Nat
deriving DecidableEq

structure RelayNotification where
  seq : Nat
  plan_id : String
  subscriber_id : String
  actor : String
  kind : String
  slice_id : Option String
  delta : String
  at_ : String
deriving DecidableEq

structure RelayStore where
  cursors : List DeliveryCursor
  pending : List RelayNotification
deriving DecidableEq

def emptyRelayStore : RelayStore :=
  { cursors := [], pending := [] }

/-!
## The queue of one subscriber
-/

def formatStateDelta (event : JournalEvent) (planId : String) : String :=
  let slice :=
    match Text.truthy event.slice_id with
    | some id => " slice=" ++ id
    | none => ""
  event.actor ++ " " ++ event.kind ++ " plan=" ++ planId ++ slice ++ " seq=" ++
    toString event.seq

def notificationOf (planId subscriberId : String) (event : JournalEvent) :
    RelayNotification :=
  { seq := event.seq
    plan_id := planId
    subscriber_id := subscriberId
    actor := event.actor
    kind := event.kind
    slice_id := Text.truthy event.slice_id
    delta := formatStateDelta event planId
    at_ := event.at_ }

def rebuildQueueFromJournal (planId : String) (events : List JournalEvent)
    (cursor : DeliveryCursor) : List RelayNotification :=
  ((events.filter fun event =>
      decide (event.seq > cursor.last_delivered_seq)).insertionSort
    fun a b => a.seq ≤ b.seq).map (notificationOf planId cursor.subscriber_id)

def advanceCursor (cursor : DeliveryCursor) (deliveredThroughSeq : Int)
    (deliverySucceeded : Bool) : DeliveryCursor :=
  if deliverySucceeded = false then cursor
  else if deliveredThroughSeq ≤ cursor.last_delivered_seq then cursor
  else { cursor with last_delivered_seq := deliveredThroughSeq.toNat }

def isCursorOf (subscriberId planId : String) (cursor : DeliveryCursor) :
    Bool :=
  decide (cursor.subscriber_id = subscriberId) &&
    decide (cursor.plan_id = planId)

def cursorFor (store : RelayStore) (subscriberId planId : String) :
    DeliveryCursor :=
  (store.cursors.find? (isCursorOf subscriberId planId)).getD
    { subscriber_id := subscriberId
      plan_id := planId
      last_delivered_seq := 0 }

/-!
## Writers
-/

def addSubscriber (ids : List String) (value : String) : List String :=
  let id := Text.trim value
  if id = "" ∨ id ∈ ids then ids else ids ++ [id]

/-- The subscribers that an append seeds: its actor, the cursors of the plan,
the actors of its events, and the principal of the vault. -/
def seedRelaySubscribers (actor planId : String)
    (cursors : List DeliveryCursor) (events : List JournalEvent)
    (extraIds : List String) : List String :=
  let planCursors := cursors.filter fun cursor =>
    decide (cursor.plan_id = planId)
  (actor :: (planCursors.map (·.subscriber_id) ++
    (events.map (·.actor) ++ extraIds))).foldl addSubscriber []

def seedSubscriber (planId : String) (events : List JournalEvent)
    (next : RelayStore) (subscriberId : String) : RelayStore :=
  let cursor := cursorFor next subscriberId planId
  { cursors :=
      if next.cursors.any (isCursorOf subscriberId planId) then next.cursors
      else next.cursors ++ [cursor]
    pending := next.pending ++ rebuildQueueFromJournal planId events cursor }

def comesBefore (localeLe : String -> String -> Bool)
    (a b : RelayNotification) : Bool :=
  decide (a.seq < b.seq) ||
    decide (a.seq = b.seq) &&
      (!localeLe b.subscriber_id a.subscriber_id ||
        localeLe a.subscriber_id b.subscriber_id &&
          localeLe a.plan_id b.plan_id)

/-- The queues of a plan are built again; its cursors stay. -/
def withoutQueues (store : RelayStore) (planId : String) : RelayStore :=
  { store with
    pending := store.pending.filter fun item => decide (item.plan_id ≠ planId) }

def ingestJournalEvents (localeLe : String -> String -> Bool)
    (store : RelayStore) (planId : String) (events : List JournalEvent)
    (subscriberIds : List String) : RelayStore :=
  let seeded := subscriberIds.foldl (seedSubscriber planId events)
    (withoutQueues store planId)
  let others := seeded.cursors.filter fun cursor =>
    decide (cursor.plan_id = planId) &&
      !subscriberIds.contains cursor.subscriber_id
  { cursors := seeded.cursors
    pending := (seeded.pending ++
        others.flatMap (rebuildQueueFromJournal planId events)).insertionSort
      fun a b => comesBefore localeLe a b = true }

/-!
## Readers
-/

def confirmDelivery (store : RelayStore) (subscriberId planId : String)
    (deliveredThroughSeq : Int) (deliverySucceeded : Bool) : RelayStore :=
  let advanced := advanceCursor (cursorFor store subscriberId planId)
    deliveredThroughSeq deliverySucceeded
  { cursors :=
      (store.cursors.filter fun cursor =>
        !isCursorOf subscriberId planId cursor) ++ [advanced]
    pending := store.pending.filter fun item =>
      decide (item.subscriber_id ≠ subscriberId) ||
        decide (item.plan_id ≠ planId) ||
        decide (item.seq > advanced.last_delivered_seq) }

/-- The readers that a call names, each once. -/
def readerIds : List String -> List String -> List String
  | _, [] => []
  | seen, rawId :: rest =>
      let id := Text.trim rawId
      if id = "" ∨ id = "unknown-agent" ∨ id ∈ seen then readerIds seen rest
      else id :: readerIds (id :: seen) rest

/-- The store to save, where the call saves. -/
def acknowledgeRelayThroughSeq (store : RelayStore) (planId : String)
    (throughSeq : Int) (subscriberIds : List String) : Option RelayStore :=
  if throughSeq ≤ 0 then none
  else
    some ((readerIds [] subscriberIds).foldl
      (fun store id => confirmDelivery store id planId throughSeq true) store)

/-- The last of the leading items that the subscriber wrote itself. -/
def selfAuthoredSeq (store : RelayStore) (planId subscriberId : String) : Nat :=
  let items := (store.pending.filter fun item =>
      decide (item.subscriber_id = subscriberId) &&
        decide (item.plan_id = planId)).insertionSort
    fun a b => a.seq ≤ b.seq
  match (items.takeWhile fun item =>
      decide (item.actor = subscriberId)).getLast? with
  | none => 0
  | some item => item.seq

def acknowledgeSelf (planId : String) (progress : RelayStore × Bool)
    (subscriberId : String) : RelayStore × Bool :=
  let ackSeq := selfAuthoredSeq progress.1 planId subscriberId
  if ackSeq > 0 then
    (confirmDelivery progress.1 subscriberId planId ackSeq true, true)
  else
    progress

def acknowledgeSelfAuthoredPrefix (store : RelayStore) (planId : String)
    (subscriberIds : List String) : Option RelayStore :=
  let outcome := (readerIds [] subscriberIds).foldl (acknowledgeSelf planId)
    (store, false)
  if outcome.2 then some outcome.1 else none

end Relay
end Thread
end Minni
