import Minni.Foundation.SharedFile
import Minni.Thread.RelayQueues

/-!
# Delivery under concurrent calls

Writers and readers of the relay each load the store and save a new one, and
nothing keeps another call from saving in between.  What a call saves is right
for what it loaded; it is right for the file only where what the call carries
over has not changed since its load.
-/

namespace Minni
namespace Thread
namespace Relay

open Foundation

/-!
## Calls
-/

inductive RelayCall where
  | ingestJournalIntoVault (planId : String) (journal : Journal)
      (subscriberIds : List String)
  | confirmDeliveryInVault (subscriberId planId : String)
      (deliveredThroughSeq : Int) (deliverySucceeded : Bool)
  | acknowledgeRelayThroughSeq (planId : String) (throughSeq : Int)
      (subscriberIds : List String)
  | acknowledgeSelfAuthoredPrefixInVault (planId : String)
      (subscriberIds : List String)

namespace RelayCall

/-- What the call saves for the store that it has loaded. -/
def apply (localeLe : String -> String -> Bool) (call : RelayCall)
    (store : RelayStore) : Option RelayStore :=
  match call with
  | ingestJournalIntoVault planId journal subscriberIds =>
      some (ingestJournalEvents localeLe store planId journal.events
        subscriberIds)
  | confirmDeliveryInVault subscriberId planId throughSeq ok =>
      some (confirmDelivery store subscriberId planId throughSeq ok)
  | acknowledgeRelayThroughSeq planId throughSeq subscriberIds =>
      Relay.acknowledgeRelayThroughSeq store planId throughSeq subscriberIds
  | acknowledgeSelfAuthoredPrefixInVault planId subscriberIds =>
      acknowledgeSelfAuthoredPrefix store planId subscriberIds

/-- The subscribers that a reader confirms for. -/
def readers : RelayCall -> Option (List String)
  | ingestJournalIntoVault _ _ _ => none
  | confirmDeliveryInVault subscriberId _ _ _ => some [subscriberId]
  | acknowledgeRelayThroughSeq _ _ subscriberIds =>
      some (readerIds [] subscriberIds)
  | acknowledgeSelfAuthoredPrefixInVault _ subscriberIds =>
      some (readerIds [] subscriberIds)

/-- How far the call itself confirms a cursor. -/
def confirmedThrough (call : RelayCall) (subscriberId planId : String) : Int :=
  match call with
  | confirmDeliveryInVault id plan throughSeq ok =>
      if id = subscriberId ∧ plan = planId ∧ ok = true then throughSeq else 0
  | acknowledgeRelayThroughSeq plan throughSeq subscriberIds =>
      if plan = planId ∧ subscriberId ∈ readerIds [] subscriberIds then
        throughSeq
      else 0
  | ingestJournalIntoVault _ _ _ => 0
  | acknowledgeSelfAuthoredPrefixInVault _ _ => 0

end RelayCall

abbrev RelayState := SharedFile RelayStore RelayCall

abbrev RelayMove := SharedFile.Move RelayCall

def relaySystem (localeLe : String -> String -> Bool) :
    TransitionSystem RelayState RelayMove :=
  SharedFile.system (RelayCall.apply localeLe) emptyRelayStore

/-!
## The law
-/

/-- Since a call loaded, no cursor has moved beyond what it loaded or confirms
itself, no queue that a reader carries over has grown, and a writer names no
subscriber twice. -/
def Undisturbed (s : RelayState) (move : RelayMove) : Prop :=
  forall id call loaded, move = SharedFile.Move.save id ->
    s.open_ id = some (call, loaded) ->
    (forall subscriberId planId,
      (deliveredSeq s.file subscriberId planId : Int) ≤
        max (deliveredSeq loaded subscriberId planId : Int)
          (call.confirmedThrough subscriberId planId)) ∧
    (forall ids, call.readers = some ids ->
      forall item, item ∈ s.file.pending -> item.subscriber_id ∉ ids ->
        item ∈ loaded.pending) ∧
    (forall planId journal subscriberIds,
      call = RelayCall.ingestJournalIntoVault planId journal subscriberIds ->
        subscriberIds.Nodup)

structure DeliveryKept (s : RelayState) (move : RelayMove) (s' : RelayState) :
    Prop where
  cursors : forall subscriberId planId,
    deliveredSeq s.file subscriberId planId ≤
      deliveredSeq s'.file subscriberId planId
  others : forall id call loaded ids, move = SharedFile.Move.save id ->
    s.open_ id = some (call, loaded) -> call.readers = some ids ->
    forall item, item ∈ s.file.pending -> item.subscriber_id ∉ ids ->
      item ∈ s'.file.pending
  queues : forall id planId journal subscriberIds loaded,
    move = SharedFile.Move.save id ->
    s.open_ id = some
      (RelayCall.ingestJournalIntoVault planId journal subscriberIds, loaded) ->
    forall cursor, cursor ∈ s'.file.cursors -> cursor.plan_id = planId ->
      pendingFor s'.file cursor.subscriber_id planId =
        (journal.events.filter fun event =>
          decide (event.seq > cursor.last_delivered_seq)).map
            (notificationOf planId cursor.subscriber_id)

theorem confirms_reader
    {localeLe : String -> String -> Bool} {call : RelayCall}
    {store saved : RelayStore} {ids : List String}
    (hreaders : call.readers = some ids)
    (h : call.apply localeLe store = some saved) :
    Confirms ids store saved := by
  cases call with
  | ingestJournalIntoVault planId journal subscriberIds => cases hreaders
  | confirmDeliveryInVault subscriberId planId throughSeq ok =>
      cases hreaders
      cases h
      exact confirms_confirmDelivery store planId throughSeq ok
        (List.mem_singleton_self _)
  | acknowledgeRelayThroughSeq planId throughSeq subscriberIds =>
      cases hreaders
      change acknowledgeRelayThroughSeq store planId throughSeq
        subscriberIds = some saved at h
      unfold acknowledgeRelayThroughSeq at h
      split at h
      · cases h
      · cases h
        exact confirms_foldl planId throughSeq _ store (fun _ hid => hid)
  | acknowledgeSelfAuthoredPrefixInVault planId subscriberIds =>
      cases hreaders
      change acknowledgeSelfAuthoredPrefix store planId
        subscriberIds = some saved at h
      unfold acknowledgeSelfAuthoredPrefix at h
      dsimp only at h
      split at h
      · cases h
        exact confirms_acknowledgeSelf planId _ (store, false)
          (fun _ hid => hid)
      · cases h

theorem cursorsDiffer_apply
    {localeLe : String -> String -> Bool} {call : RelayCall}
    {store saved : RelayStore} (hstore : CursorsDiffer store)
    (h : call.apply localeLe store = some saved) :
    CursorsDiffer saved := by
  cases hreaders : call.readers with
  | some ids => exact (confirms_reader hreaders h).differ hstore
  | none =>
      cases call with
      | ingestJournalIntoVault planId journal subscriberIds =>
          cases h
          exact cursorsDiffer_seeded planId journal.events subscriberIds
            (withoutQueues store planId) hstore
      | confirmDeliveryInVault subscriberId planId throughSeq ok =>
          cases hreaders
      | acknowledgeRelayThroughSeq planId throughSeq subscriberIds =>
          cases hreaders
      | acknowledgeSelfAuthoredPrefixInVault planId subscriberIds =>
          cases hreaders

theorem deliveredSeq_apply
    {localeLe : String -> String -> Bool} {call : RelayCall}
    {store saved : RelayStore} (h : call.apply localeLe store = some saved)
    (subscriberId planId : String) :
    deliveredSeq store subscriberId planId ≤
      deliveredSeq saved subscriberId planId := by
  cases hreaders : call.readers with
  | some ids => exact (confirms_reader hreaders h).forward subscriberId planId
  | none =>
      cases call with
      | ingestJournalIntoVault plan journal subscriberIds =>
          cases h
          unfold deliveredSeq
          rw [cursorFor_ingestJournalEvents]
      | confirmDeliveryInVault id plan throughSeq ok => cases hreaders
      | acknowledgeRelayThroughSeq plan throughSeq subscriberIds =>
          cases hreaders
      | acknowledgeSelfAuthoredPrefixInVault plan subscriberIds =>
          cases hreaders

theorem confirmedThrough_apply
    {localeLe : String -> String -> Bool} {call : RelayCall}
    {store saved : RelayStore} (h : call.apply localeLe store = some saved)
    (subscriberId planId : String) :
    call.confirmedThrough subscriberId planId ≤
      (deliveredSeq saved subscriberId planId : Int) := by
  cases call with
  | ingestJournalIntoVault plan journal subscriberIds =>
      exact Int.natCast_nonneg _
  | acknowledgeSelfAuthoredPrefixInVault plan subscriberIds =>
      exact Int.natCast_nonneg _
  | confirmDeliveryInVault id plan throughSeq ok =>
      cases h
      unfold RelayCall.confirmedThrough
      dsimp only
      split
      · rename_i hself
        rcases hself with ⟨rfl, rfl, rfl⟩
        exact reaches_confirmDelivery store id plan throughSeq
      · exact Int.natCast_nonneg _
  | acknowledgeRelayThroughSeq plan throughSeq subscriberIds =>
      change acknowledgeRelayThroughSeq store plan throughSeq
        subscriberIds = some saved at h
      unfold acknowledgeRelayThroughSeq at h
      unfold RelayCall.confirmedThrough
      dsimp only
      split at h
      · cases h
      · cases h
        split
        · rename_i hself
          rcases hself with ⟨rfl, hmem⟩
          exact reaches_foldl _ store hmem
        · exact Int.natCast_nonneg _

theorem cursorsDiffer_reachable
    {localeLe : String -> String -> Bool} {s : RelayState}
    (hreach : (relaySystem localeLe).Reachable s) :
    SharedFile.Everywhere CursorsDiffer s := by
  apply TransitionSystem.reachable_induction _ _ hreach
  · intro start hstart
    rw [hstart]
    exact SharedFile.everywhere_start List.nodup_nil
  · intro before move after _ hbefore hstep
    exact SharedFile.everywhere_step
      (fun _ _ _ hloaded hsaved => cursorsDiffer_apply hloaded hsaved)
      hbefore hstep

/-- In every run in which each save is undisturbed since its load, cursors
only move forward, confirmations leave the queues of the others alone, and a
writer leaves the queue of every known subscriber as the journal and its cursor
say. -/
theorem relay_delivery
    {localeLe : String -> String -> Bool} {s s' : RelayState}
    {move : RelayMove}
    (hreach : ((relaySystem localeLe).Restrict Undisturbed).Reachable s)
    (hstep : ((relaySystem localeLe).Restrict Undisturbed).step s move s') :
    DeliveryKept s move s' := by
  have hdiffer := cursorsDiffer_reachable
    (TransitionSystem.reachable_of_restrict hreach)
  rcases hstep with ⟨hguard, hstep⟩
  rcases SharedFile.step_file hstep with
    ⟨hfile, hnosave⟩ | ⟨id, call, loaded, rfl, hopen, hsaved⟩
  · constructor
    · intro subscriberId planId
      rw [hfile]
    · intro id _ _ _ hmove
      exact absurd hmove (hnosave id)
    · intro id _ _ _ _ hmove
      exact absurd hmove (hnosave id)
  · rcases hguard id call loaded rfl hopen with ⟨hcursors, hqueues, hnames⟩
    constructor
    · intro subscriberId planId
      have hloaded := deliveredSeq_apply hsaved subscriberId planId
      have hself := confirmedThrough_apply hsaved subscriberId planId
      have hbound := hcursors subscriberId planId
      omega
    · intro id' call' loaded' ids hmove hopen' hreaders item hitem hother
      cases hmove
      rw [hopen] at hopen'
      cases hopen'
      exact (confirms_reader hreaders hsaved).others item
        (hqueues ids hreaders item hitem hother) hother
    · intro id' planId journal subscriberIds loaded' hmove hopen' cursor
        hcursor hplan
      cases hmove
      rw [hopen] at hopen'
      cases hopen'
      change some (ingestJournalEvents localeLe loaded planId journal.events
        subscriberIds) = some s'.file at hsaved
      rw [<- Option.some.inj hsaved] at hcursor ⊢
      exact queue_ingestJournalEvents localeLe journal
        (hdiffer.right id _ _ hopen) (hnames planId journal subscriberIds rfl)
        hcursor hplan

/-!
## Runs
-/

def plainEvent (seq : Nat) : JournalEvent :=
  { seq := seq
    kind := "slice.claimed"
    actor := "worker"
    at_ := "2026-01-01T00:00:00.000Z"
    slice_id := none }

def plainJournal (n : Nat) : Journal where
  events := (List.range' 1 n).map plainEvent
  ordered := by
    rw [List.pairwise_map]
    exact List.pairwise_lt_range' 1

def plainIngest (n : Nat) : RelayCall :=
  RelayCall.ingestJournalIntoVault "p1" (plainJournal n) ["orchestrator"]

def plainLe (a b : String) : Bool :=
  decide (a ≤ b)

theorem relay_delivery_first :
    exists s s', DeliveryKept s (SharedFile.Move.save 1) s' ∧
      (pendingFor s'.file "orchestrator" "p1").map (·.seq) = [1, 2] := by
  let opened : RelayState :=
    { file := emptyRelayStore
      open_ := Function.update (fun _ => none) 1
        (some (plainIngest 2, emptyRelayStore)) }
  let saved : RelayState :=
    { file := ingestJournalEvents plainLe emptyRelayStore "p1"
        (plainJournal 2).events ["orchestrator"]
      open_ := Function.update opened.open_ 1 none }
  have hload : ((relaySystem plainLe).Restrict Undisturbed).step
      (SharedFile.start emptyRelayStore)
      (SharedFile.Move.load 1 (plainIngest 2)) opened := by
    refine ⟨?_, rfl⟩
    intro id call loaded hmove
    cases hmove
  have hreach : ((relaySystem plainLe).Restrict Undisturbed).Reachable
      opened :=
    TransitionSystem.reachable_step (TransitionSystem.reachable_initial rfl)
      hload
  have hsave : ((relaySystem plainLe).Restrict Undisturbed).step opened
      (SharedFile.Move.save 1) saved := by
    refine ⟨?_, rfl⟩
    intro id call loaded hmove hopen
    cases hmove
    cases hopen
    refine ⟨fun _ _ => Int.le_max_left _ _, fun _ _ item hitem => ?_, ?_⟩
    · cases hitem
    · intro planId journal subscriberIds hcall
      cases hcall
      exact List.nodup_singleton _
  exact ⟨opened, saved, relay_delivery hreach hsave, by decide +kernel⟩

/-- A writer loads, a reader confirms, and the writer saves what it had
loaded. -/
def staleMoves : List RelayMove :=
  [SharedFile.Move.load 1 (plainIngest 1),
    SharedFile.Move.save 1,
    SharedFile.Move.load 2 (plainIngest 2),
    SharedFile.Move.load 3
      (RelayCall.confirmDeliveryInVault "orchestrator" "p1" 1 true),
    SharedFile.Move.save 3]

theorem relay_delivery_stale :
    exists s s', (relaySystem plainLe).Reachable s ∧
      (relaySystem plainLe).step s (SharedFile.Move.save 2) s' ∧
      deliveredSeq s'.file "orchestrator" "p1" <
        deliveredSeq s.file "orchestrator" "p1" := by
  have hany : (TransitionSystem.exec
      (SharedFile.next (RelayCall.apply plainLe))
      (SharedFile.start emptyRelayStore) staleMoves).any (fun s =>
        (SharedFile.next (RelayCall.apply plainLe) s
          (SharedFile.Move.save 2)).any fun s' =>
            decide (deliveredSeq s'.file "orchestrator" "p1" <
              deliveredSeq s.file "orchestrator" "p1")) = true := by
    decide +kernel
  rcases Option.any_eq_true .. |>.mp hany with ⟨s, hexec, hstep⟩
  rcases Option.any_eq_true .. |>.mp hstep with ⟨s', hnext, hless⟩
  exact ⟨s, s', ⟨_, _, rfl, TransitionSystem.run_of_exec hexec⟩, hnext,
    of_decide_eq_true hless⟩

end Relay
end Thread
end Minni
