import Minni.Thread.Relay

/-!
# What a relay call computes

No cursor in a new store is behind the one that the call loaded, a reader
leaves the queues of the others alone, and the queues that a writer builds fit
the cursors beside them.
-/

namespace Minni
namespace Thread
namespace Relay

open Foundation

def deliveredSeq (store : RelayStore) (subscriberId planId : String) : Nat :=
  (cursorFor store subscriberId planId).last_delivered_seq

def isPendingOf (subscriberId planId : String) (item : RelayNotification) :
    Bool :=
  decide (item.subscriber_id = subscriberId) && decide (item.plan_id = planId)

def pendingFor (store : RelayStore) (subscriberId planId : String) :
    List RelayNotification :=
  store.pending.filter (isPendingOf subscriberId planId)

/-!
## Cursors
-/

theorem isCursorOf_iff {subscriberId planId : String} {cursor : DeliveryCursor} :
    isCursorOf subscriberId planId cursor = true <->
      cursor.subscriber_id = subscriberId ∧ cursor.plan_id = planId := by
  simp [isCursorOf]

theorem isCursorOf_cursorFor
    (store : RelayStore) (subscriberId planId : String) :
    isCursorOf subscriberId planId (cursorFor store subscriberId planId) =
      true := by
  unfold cursorFor
  cases hfind : store.cursors.find? (isCursorOf subscriberId planId) with
  | none => exact isCursorOf_iff.mpr ⟨rfl, rfl⟩
  | some cursor => exact List.find?_some hfind

theorem isCursorOf_advanceCursor
    (cursor : DeliveryCursor) (throughSeq : Int) (ok : Bool)
    (subscriberId planId : String) :
    isCursorOf subscriberId planId (advanceCursor cursor throughSeq ok) =
      isCursorOf subscriberId planId cursor := by
  unfold advanceCursor
  split
  · rfl
  · split
    · rfl
    · rfl

theorem le_advanceCursor
    (cursor : DeliveryCursor) (throughSeq : Int) (ok : Bool) :
    cursor.last_delivered_seq ≤
      (advanceCursor cursor throughSeq ok).last_delivered_seq := by
  unfold advanceCursor
  split
  · exact Nat.le_refl _
  · split
    · exact Nat.le_refl _
    · rename_i hahead
      show cursor.last_delivered_seq ≤ throughSeq.toNat
      omega

theorem reaches_advanceCursor (cursor : DeliveryCursor) (throughSeq : Int) :
    throughSeq ≤ (advanceCursor cursor throughSeq true).last_delivered_seq := by
  unfold advanceCursor
  split
  · contradiction
  · split
    · assumption
    · show throughSeq ≤ (throughSeq.toNat : Int)
      omega

theorem cursorFor_append
    (cursors : List DeliveryCursor) (cursor : DeliveryCursor)
    (pending pending' : List RelayNotification) {subscriberId planId : String}
    (h : isCursorOf subscriberId planId cursor = false) :
    cursorFor { cursors := cursors ++ [cursor], pending := pending }
        subscriberId planId =
      cursorFor { cursors := cursors, pending := pending' }
        subscriberId planId := by
  unfold cursorFor
  rw [List.find?_append]
  simp [h]

theorem cursorFor_confirmDelivery
    (store : RelayStore) (subscriberId planId : String) (throughSeq : Int)
    (ok : Bool) :
    cursorFor (confirmDelivery store subscriberId planId throughSeq ok)
        subscriberId planId =
      advanceCursor (cursorFor store subscriberId planId) throughSeq ok := by
  have hself := isCursorOf_advanceCursor
    (cursorFor store subscriberId planId) throughSeq ok subscriberId planId
  rw [isCursorOf_cursorFor] at hself
  unfold cursorFor confirmDelivery
  rw [List.find?_append]
  have hnone : (store.cursors.filter fun cursor =>
      !isCursorOf subscriberId planId cursor).find?
        (isCursorOf subscriberId planId) = none := by
    rw [List.find?_eq_none]
    intro cursor hcursor
    simpa using (List.mem_filter.mp hcursor).right
  rw [hnone, List.find?_singleton, hself]
  rfl

theorem cursorFor_confirmDelivery_other
    (store : RelayStore) {subscriberId planId other otherPlan : String}
    (throughSeq : Int) (ok : Bool)
    (h : ¬ (other = subscriberId ∧ otherPlan = planId)) :
    cursorFor (confirmDelivery store subscriberId planId throughSeq ok)
        other otherPlan =
      cursorFor store other otherPlan := by
  have hdiffer : forall cursor,
      isCursorOf subscriberId planId cursor = true ->
        isCursorOf other otherPlan cursor = false := by
    intro cursor hcursor
    rcases isCursorOf_iff.mp hcursor with ⟨hid, hplan⟩
    rw [Bool.eq_false_iff]
    intro hboth
    rcases isCursorOf_iff.mp hboth with ⟨hid', hplan'⟩
    exact h ⟨hid'.symm.trans hid, hplan'.symm.trans hplan⟩
  unfold confirmDelivery
  rw [cursorFor_append _ _ _ []]
  · unfold cursorFor
    rw [List.find?_filter]
    have hsame : (fun cursor =>
        decide ((!isCursorOf subscriberId planId cursor) = true ∧
          isCursorOf other otherPlan cursor = true)) =
        isCursorOf other otherPlan := by
      funext cursor
      cases hcursor : isCursorOf subscriberId planId cursor with
      | false => simp
      | true => simp [hdiffer cursor hcursor]
    rw [hsame]
  · apply hdiffer
    rw [isCursorOf_advanceCursor]
    exact isCursorOf_cursorFor store subscriberId planId

theorem deliveredSeq_confirmDelivery
    (store : RelayStore) (subscriberId planId : String) (throughSeq : Int)
    (ok : Bool) (other otherPlan : String) :
    deliveredSeq store other otherPlan ≤
      deliveredSeq (confirmDelivery store subscriberId planId throughSeq ok)
        other otherPlan := by
  unfold deliveredSeq
  by_cases h : other = subscriberId ∧ otherPlan = planId
  · rw [h.left, h.right, cursorFor_confirmDelivery]
    exact le_advanceCursor _ _ _
  · rw [cursorFor_confirmDelivery_other store throughSeq ok h]

theorem reaches_confirmDelivery
    (store : RelayStore) (subscriberId planId : String) (throughSeq : Int) :
    throughSeq ≤ deliveredSeq
      (confirmDelivery store subscriberId planId throughSeq true)
      subscriberId planId := by
  unfold deliveredSeq
  rw [cursorFor_confirmDelivery]
  exact reaches_advanceCursor _ _

theorem cursorFor_seedSubscriber
    (planId : String) (events : List JournalEvent) (next : RelayStore)
    (subscriberId other otherPlan : String) :
    cursorFor (seedSubscriber planId events next subscriberId)
        other otherPlan =
      cursorFor next other otherPlan := by
  unfold seedSubscriber
  cases hany : next.cursors.any (isCursorOf subscriberId planId) with
  | true => rfl
  | false =>
      simp only [Bool.false_eq_true, if_false]
      by_cases h : other = subscriberId ∧ otherPlan = planId
      · rw [h.left, h.right]
        have hnone : next.cursors.find? (isCursorOf subscriberId planId) =
            none := by
          rw [List.find?_eq_none]
          intro cursor hcursor hself
          have hfound := List.any_eq_true.mpr ⟨cursor, hcursor, hself⟩
          rw [hany] at hfound
          cases hfound
        have hself := isCursorOf_cursorFor next subscriberId planId
        show ((next.cursors ++ [cursorFor next subscriberId planId]).find?
          (isCursorOf subscriberId planId)).getD _ = _
        rw [List.find?_append, hnone, List.find?_singleton, hself]
        rfl
      · apply cursorFor_append
        rw [Bool.eq_false_iff]
        intro hboth
        rcases isCursorOf_iff.mp hboth with ⟨hid, hplan⟩
        rcases isCursorOf_iff.mp
          (isCursorOf_cursorFor next subscriberId planId) with ⟨hid', hplan'⟩
        exact h ⟨hid.symm.trans hid', hplan.symm.trans hplan'⟩

theorem cursorFor_seeded
    (planId : String) (events : List JournalEvent) (subscriberIds : List String)
    (other otherPlan : String) :
    forall next : RelayStore,
      cursorFor (subscriberIds.foldl (seedSubscriber planId events) next)
          other otherPlan =
        cursorFor next other otherPlan := by
  induction subscriberIds with
  | nil =>
      intro next
      rfl
  | cons id rest ih =>
      intro next
      rw [List.foldl_cons, ih, cursorFor_seedSubscriber]

theorem cursorFor_ingestJournalEvents
    (localeLe : String -> String -> Bool) (store : RelayStore) (planId : String)
    (events : List JournalEvent) (subscriberIds : List String)
    (other otherPlan : String) :
    cursorFor (ingestJournalEvents localeLe store planId events subscriberIds)
        other otherPlan =
      cursorFor store other otherPlan :=
  cursorFor_seeded planId events subscriberIds other otherPlan _

/-!
## One cursor for each subscriber and plan
-/

def cursorKey (cursor : DeliveryCursor) : String × String :=
  (cursor.subscriber_id, cursor.plan_id)

def CursorsDiffer (store : RelayStore) : Prop :=
  (store.cursors.map cursorKey).Nodup

theorem isCursorOf_iff_key
    {subscriberId planId : String} {cursor : DeliveryCursor} :
    isCursorOf subscriberId planId cursor = true <->
      cursorKey cursor = (subscriberId, planId) := by
  rw [isCursorOf_iff, cursorKey, Prod.mk.injEq]

theorem nodup_append_cursor
    {cursors : List DeliveryCursor} {cursor : DeliveryCursor}
    (h : (cursors.map cursorKey).Nodup)
    (hnew : forall other, other ∈ cursors -> cursorKey other ≠ cursorKey cursor) :
    ((cursors ++ [cursor]).map cursorKey).Nodup := by
  rw [List.map_append, List.nodup_append]
  refine ⟨h, List.nodup_singleton _, ?_⟩
  intro key hkey key' hkey' hsame
  rcases List.mem_map.mp hkey with ⟨other, hother, rfl⟩
  rw [List.mem_singleton.mp hkey'] at hsame
  exact hnew other hother hsame

theorem cursorsDiffer_confirmDelivery
    {store : RelayStore} (subscriberId planId : String) (throughSeq : Int)
    (ok : Bool) (h : CursorsDiffer store) :
    CursorsDiffer (confirmDelivery store subscriberId planId throughSeq ok) := by
  apply nodup_append_cursor
  · exact (List.filter_sublist.map cursorKey).nodup h
  · intro other hother hsame
    have hself : isCursorOf subscriberId planId
        (advanceCursor (cursorFor store subscriberId planId) throughSeq ok) =
        true := by
      rw [isCursorOf_advanceCursor]
      exact isCursorOf_cursorFor store subscriberId planId
    rw [isCursorOf_iff_key, <- hsame, <- isCursorOf_iff_key] at hself
    have hkept := (List.mem_filter.mp hother).right
    rw [hself] at hkept
    cases hkept

theorem cursorsDiffer_seedSubscriber
    {next : RelayStore} (planId : String) (events : List JournalEvent)
    (subscriberId : String) (h : CursorsDiffer next) :
    CursorsDiffer (seedSubscriber planId events next subscriberId) := by
  unfold CursorsDiffer seedSubscriber
  cases hany : next.cursors.any (isCursorOf subscriberId planId) with
  | true => exact h
  | false =>
      simp only [Bool.false_eq_true, if_false]
      apply nodup_append_cursor h
      intro other hother hsame
      have hself := isCursorOf_cursorFor next subscriberId planId
      rw [isCursorOf_iff_key, <- hsame, <- isCursorOf_iff_key] at hself
      have hfound := List.any_eq_true.mpr ⟨other, hother, hself⟩
      rw [hany] at hfound
      cases hfound

theorem cursorsDiffer_seeded
    (planId : String) (events : List JournalEvent)
    (subscriberIds : List String) :
    forall next : RelayStore, CursorsDiffer next ->
      CursorsDiffer
        (subscriberIds.foldl (seedSubscriber planId events) next) := by
  induction subscriberIds with
  | nil =>
      intro next h
      exact h
  | cons id rest ih =>
      intro next h
      exact ih _ (cursorsDiffer_seedSubscriber planId events id h)

theorem cursorFor_of_mem
    {store : RelayStore} {cursor : DeliveryCursor}
    (h : CursorsDiffer store) (hmem : cursor ∈ store.cursors) :
    cursorFor store cursor.subscriber_id cursor.plan_id = cursor := by
  have hself : isCursorOf cursor.subscriber_id cursor.plan_id cursor = true :=
    isCursorOf_iff.mpr ⟨rfl, rfl⟩
  unfold cursorFor
  cases hfind : store.cursors.find?
      (isCursorOf cursor.subscriber_id cursor.plan_id) with
  | none =>
      exact absurd hself (List.find?_eq_none.mp hfind cursor hmem)
  | some other =>
      have hkey := isCursorOf_iff_key.mp (List.find?_some hfind)
      exact List.inj_on_of_nodup_map h (List.mem_of_find?_eq_some hfind) hmem
        hkey

/-!
## Readers
-/

/-- What a reader that confirms for `ids` may do to a store. -/
structure Confirms (ids : List String) (store next : RelayStore) : Prop where
  differ : CursorsDiffer store -> CursorsDiffer next
  forward : forall subscriberId planId,
    deliveredSeq store subscriberId planId ≤
      deliveredSeq next subscriberId planId
  others : forall item, item ∈ store.pending -> item.subscriber_id ∉ ids ->
    item ∈ next.pending

theorem confirms_refl (ids : List String) (store : RelayStore) :
    Confirms ids store store :=
  ⟨id, fun _ _ => Nat.le_refl _, fun _ hitem _ => hitem⟩

theorem confirms_trans
    {ids : List String} {store mid next : RelayStore}
    (h : Confirms ids store mid) (h' : Confirms ids mid next) :
    Confirms ids store next := by
  constructor
  · intro hdiffer
    exact h'.differ (h.differ hdiffer)
  · intro subscriberId planId
    exact Nat.le_trans (h.forward subscriberId planId)
      (h'.forward subscriberId planId)
  · intro item hitem hother
    exact h'.others item (h.others item hitem hother) hother

theorem confirms_confirmDelivery
    (store : RelayStore) {ids : List String} {id : String} (planId : String)
    (throughSeq : Int) (ok : Bool) (h : id ∈ ids) :
    Confirms ids store (confirmDelivery store id planId throughSeq ok) := by
  constructor
  · exact cursorsDiffer_confirmDelivery id planId throughSeq ok
  · exact deliveredSeq_confirmDelivery store id planId throughSeq ok
  · intro item hitem hother
    apply List.mem_filter.mpr
    refine ⟨hitem, ?_⟩
    have hne : item.subscriber_id ≠ id := by
      intro hsame
      rw [hsame] at hother
      exact hother h
    rw [decide_eq_true hne]
    rfl

theorem confirms_foldl
    {ids : List String} (planId : String) (throughSeq : Int)
    (readers : List String) :
    forall store : RelayStore, (forall id, id ∈ readers -> id ∈ ids) ->
      Confirms ids store (readers.foldl
        (fun store id => confirmDelivery store id planId throughSeq true)
        store) := by
  induction readers with
  | nil =>
      intro store _
      exact confirms_refl ids store
  | cons id rest ih =>
      intro store h
      apply confirms_trans
      · exact confirms_confirmDelivery store planId throughSeq true
          (h id (List.mem_cons_self ..))
      · apply ih
        intro other hother
        exact h other (List.mem_cons_of_mem _ hother)

theorem reaches_foldl
    {planId : String} {throughSeq : Int} {id : String} (readers : List String) :
    forall store : RelayStore, id ∈ readers ->
      throughSeq ≤ deliveredSeq (readers.foldl
        (fun store id => confirmDelivery store id planId throughSeq true)
        store) id planId := by
  induction readers with
  | nil =>
      intro store h
      cases h
  | cons head rest ih =>
      intro store h
      rcases List.mem_cons.mp h with rfl | h
      · have hrest := confirms_foldl planId throughSeq rest
          (confirmDelivery store id planId throughSeq true)
          (fun _ hother => hother)
        have hhead := reaches_confirmDelivery store id planId throughSeq
        exact Int.le_trans hhead
          (Int.ofNat_le.mpr (hrest.forward id planId))
      · exact ih _ h

theorem confirms_acknowledgeSelf
    {ids : List String} (planId : String) (readers : List String) :
    forall progress : RelayStore × Bool,
      (forall id, id ∈ readers -> id ∈ ids) ->
      Confirms ids progress.1
        (readers.foldl (acknowledgeSelf planId) progress).1 := by
  induction readers with
  | nil =>
      intro progress _
      exact confirms_refl ids progress.1
  | cons id rest ih =>
      intro progress h
      have hone : Confirms ids progress.1
          (acknowledgeSelf planId progress id).1 := by
        unfold acknowledgeSelf
        dsimp only
        split
        · exact confirms_confirmDelivery progress.1 planId _ true
            (h id (List.mem_cons_self ..))
        · exact confirms_refl ids progress.1
      apply confirms_trans hone
      apply ih
      intro other hother
      exact h other (List.mem_cons_of_mem _ hother)

/-!
## The queue that a writer saves
-/

/-- The ordered journal of a plan. -/
structure Journal where
  events : List JournalEvent
  ordered : events.Pairwise fun a b => a.seq < b.seq

/-- An append names every subscriber once. -/
theorem seedRelaySubscribers_nodup
    (actor planId : String) (cursors : List DeliveryCursor)
    (events : List JournalEvent) (extraIds : List String) :
    (seedRelaySubscribers actor planId cursors events extraIds).Nodup := by
  have hfold : forall (values ids : List String), ids.Nodup ->
      (values.foldl addSubscriber ids).Nodup := by
    intro values
    induction values with
    | nil =>
        intro ids h
        exact h
    | cons value rest ih =>
        intro ids h
        apply ih
        unfold addSubscriber
        dsimp only
        split
        · exact h
        · rename_i hnew
          rw [not_or] at hnew
          rw [List.nodup_append]
          refine ⟨h, List.nodup_singleton _, ?_⟩
          intro id hid other hother hsame
          rw [hsame, List.mem_singleton.mp hother] at hid
          exact hnew.right hid
  exact hfold _ [] List.nodup_nil

theorem rebuildQueue_journal
    (planId : String) (journal : Journal) (cursor : DeliveryCursor) :
    rebuildQueueFromJournal planId journal.events cursor =
      (journal.events.filter fun event =>
        decide (event.seq > cursor.last_delivered_seq)).map
          (notificationOf planId cursor.subscriber_id) := by
  unfold rebuildQueueFromJournal
  rw [List.Pairwise.insertionSort_eq]
  exact (journal.ordered.imp Nat.le_of_lt).filter _

theorem isPendingOf_rebuildQueue
    {planId : String} {events : List JournalEvent} {cursor : DeliveryCursor}
    {item : RelayNotification} (subscriberId : String)
    (h : item ∈ rebuildQueueFromJournal planId events cursor) :
    isPendingOf subscriberId planId item =
      decide (cursor.subscriber_id = subscriberId) := by
  rcases List.mem_map.mp h with ⟨event, _, rfl⟩
  show (decide (cursor.subscriber_id = subscriberId) &&
    decide (planId = planId)) = _
  rw [decide_eq_true rfl, Bool.and_true]

theorem pending_seeded
    (store : RelayStore) (planId : String) (events : List JournalEvent)
    (subscriberIds : List String) :
    forall next : RelayStore,
      (forall id, cursorFor next id planId = cursorFor store id planId) ->
      (subscriberIds.foldl (seedSubscriber planId events) next).pending =
        next.pending ++ subscriberIds.flatMap fun id =>
          rebuildQueueFromJournal planId events (cursorFor store id planId) := by
  induction subscriberIds with
  | nil =>
      intro next _
      simp
  | cons id rest ih =>
      intro next hnext
      have hseed : forall other,
          cursorFor (seedSubscriber planId events next id) other planId =
            cursorFor store other planId := by
        intro other
        rw [cursorFor_seedSubscriber, hnext]
      rw [List.foldl_cons, ih _ hseed, List.flatMap_cons, <- List.append_assoc]
      show next.pending ++
        rebuildQueueFromJournal planId events (cursorFor next id planId) ++ _ = _
      rw [hnext]

section Chunks

variable {α β : Type} {p : β -> Bool} {chunk : α -> List β}

theorem filter_flatMap_none {xs : List α}
    (h : forall x, x ∈ xs -> forall b, b ∈ chunk x -> p b = false) :
    (xs.flatMap chunk).filter p = [] := by
  rw [List.filter_eq_nil_iff]
  intro b hb hp
  rcases List.mem_flatMap.mp hb with ⟨x, hx, hbx⟩
  rw [h x hx b hbx] at hp
  cases hp

/-- Of several chunks, only one is kept. -/
theorem filter_flatMap_one {xs : List α} {a : α}
    (ha : a ∈ xs) (hnodup : xs.Nodup)
    (hown : forall b, b ∈ chunk a -> p b = true)
    (hother : forall x, x ∈ xs -> x ≠ a ->
      forall b, b ∈ chunk x -> p b = false) :
    (xs.flatMap chunk).filter p = chunk a := by
  rcases List.append_of_mem ha with ⟨before, after, rfl⟩
  rw [List.nodup_append, List.nodup_cons] at hnodup
  have hbefore : (before.flatMap chunk).filter p = [] := by
    apply filter_flatMap_none
    intro x hx
    apply hother x (List.mem_append_left _ hx)
    intro hsame
    exact hnodup.right.right x hx a (List.mem_cons_self ..) hsame
  have hafter : (after.flatMap chunk).filter p = [] := by
    apply filter_flatMap_none
    intro x hx
    apply hother x (List.mem_append_right _ (List.mem_cons_of_mem _ hx))
    intro hsame
    rw [hsame] at hx
    exact hnodup.right.left.left hx
  rw [List.flatMap_append, List.filter_append, List.flatMap_cons,
    List.filter_append, hbefore, hafter, List.nil_append, List.append_nil]
  exact List.filter_eq_self.mpr hown

end Chunks

/-- Before the sort, the queue of a known subscriber is the one rebuilt for its
cursor. -/
theorem unsorted_queue
    {store : RelayStore} {planId : String} {events : List JournalEvent}
    {subscriberIds : List String} {cursor : DeliveryCursor}
    (hstore : CursorsDiffer store) (hnodup : subscriberIds.Nodup)
    (hcursor : cursor ∈ (subscriberIds.foldl (seedSubscriber planId events)
      (withoutQueues store planId)).cursors)
    (hplan : cursor.plan_id = planId) :
    (((subscriberIds.foldl (seedSubscriber planId events)
        (withoutQueues store planId)).pending ++
      ((subscriberIds.foldl (seedSubscriber planId events)
        (withoutQueues store planId)).cursors.filter fun other =>
        decide (other.plan_id = planId) &&
          !subscriberIds.contains other.subscriber_id).flatMap
            (rebuildQueueFromJournal planId events)).filter
      (isPendingOf cursor.subscriber_id planId)) =
      rebuildQueueFromJournal planId events cursor := by
  rw [pending_seeded store planId events subscriberIds
    (withoutQueues store planId) (fun _ => rfl)]
  have hdiffer := cursorsDiffer_seeded planId events subscriberIds
    (withoutQueues store planId) hstore
  have hlookup := cursorFor_of_mem hdiffer hcursor
  unfold CursorsDiffer at hdiffer
  rw [cursorFor_seeded, hplan] at hlookup
  change cursorFor store cursor.subscriber_id planId = cursor at hlookup
  generalize hseeded : (subscriberIds.foldl (seedSubscriber planId events)
    (withoutQueues store planId)).cursors = cursors at *
  have hkept : (withoutQueues store planId).pending.filter
        (isPendingOf cursor.subscriber_id planId) = [] := by
    rw [List.filter_eq_nil_iff]
    intro item hitem hself
    have hother := (List.mem_filter.mp hitem).right
    simp only [isPendingOf, Bool.and_eq_true, decide_eq_true_eq] at hself
    exact (of_decide_eq_true hother) hself.right
  rw [List.filter_append, List.filter_append]
  rw [hkept, List.nil_append]
  by_cases hmem : cursor.subscriber_id ∈ subscriberIds
  · -- its queue comes from the loop over the given subscribers
    have hothers : ((cursors.filter fun other =>
        decide (other.plan_id = planId) &&
          !subscriberIds.contains other.subscriber_id).flatMap
            (rebuildQueueFromJournal planId events)).filter
        (isPendingOf cursor.subscriber_id planId) = [] := by
      apply filter_flatMap_none
      intro other hother item hitem
      rw [isPendingOf_rebuildQueue _ hitem]
      apply decide_eq_false
      intro hsame
      have hkeep := (List.mem_filter.mp hother).right
      rw [hsame] at hkeep
      simp [hmem] at hkeep
    rw [hothers, List.append_nil]
    have hown := @filter_flatMap_one String RelayNotification
      (isPendingOf cursor.subscriber_id planId)
      (fun id => rebuildQueueFromJournal planId events
        (cursorFor store id planId)) subscriberIds cursor.subscriber_id hmem
      hnodup
      (by
        intro item hitem
        rw [isPendingOf_rebuildQueue _ hitem, hlookup]
        exact decide_eq_true rfl)
      (by
        intro id _ hid item hitem
        rw [isPendingOf_rebuildQueue _ hitem]
        apply decide_eq_false
        rw [(isCursorOf_iff.mp (isCursorOf_cursorFor store id planId)).left]
        exact hid)
    rw [hown, hlookup]
  · -- its queue comes from the loop over the other cursors
    have hgiven : (subscriberIds.flatMap fun id =>
        rebuildQueueFromJournal planId events
          (cursorFor store id planId)).filter
        (isPendingOf cursor.subscriber_id planId) = [] := by
      apply filter_flatMap_none
      intro id hid item hitem
      rw [isPendingOf_rebuildQueue _ hitem]
      apply decide_eq_false
      rw [(isCursorOf_iff.mp (isCursorOf_cursorFor store id planId)).left]
      intro hsame
      rw [hsame] at hid
      exact hmem hid
    rw [hgiven, List.nil_append]
    apply filter_flatMap_one
    · rw [List.mem_filter]
      exact ⟨hcursor, by simp [hplan, hmem]⟩
    · exact (List.Nodup.of_map cursorKey hdiffer).filter _
    · intro item hitem
      rw [isPendingOf_rebuildQueue _ hitem]
      exact decide_eq_true rfl
    · intro other hother hne item hitem
      rw [isPendingOf_rebuildQueue _ hitem]
      apply decide_eq_false
      intro hsame
      apply hne
      rcases List.mem_filter.mp hother with ⟨hin, hkeep⟩
      have hotherPlan : other.plan_id = planId := by
        simp only [Bool.and_eq_true, decide_eq_true_eq] at hkeep
        exact hkeep.left
      apply List.inj_on_of_nodup_map hdiffer hin hcursor
      unfold cursorKey
      rw [hsame, hotherPlan, hplan]

theorem pairwise_comesBefore
    (localeLe : String -> String -> Bool) (items : List RelayNotification) :
    (items.insertionSort fun a b => comesBefore localeLe a b = true).Pairwise
      fun a b => a.seq ≤ b.seq := by
  have hle : forall a b, comesBefore localeLe a b = true -> a.seq ≤ b.seq := by
    intro a b h
    unfold comesBefore at h
    simp only [Bool.or_eq_true, Bool.and_eq_true, decide_eq_true_eq] at h
    omega
  have hge : forall a b, ¬ comesBefore localeLe a b = true ->
      b.seq ≤ a.seq := by
    intro a b h
    unfold comesBefore at h
    simp only [Bool.or_eq_true, Bool.and_eq_true, decide_eq_true_eq] at h
    omega
  have hinsert : forall (a : RelayNotification) (sorted : List RelayNotification),
      sorted.Pairwise (fun a b => a.seq ≤ b.seq) ->
      (sorted.orderedInsert (fun a b => comesBefore localeLe a b = true)
        a).Pairwise fun a b => a.seq ≤ b.seq := by
    intro a sorted
    induction sorted with
    | nil =>
        intro _
        exact List.pairwise_singleton _ _
    | cons b rest ih =>
        intro h
        rw [List.pairwise_cons] at h
        rw [List.orderedInsert_cons]
        split
        · rename_i hbefore
          have hab := hle a b hbefore
          rw [List.pairwise_cons, List.pairwise_cons]
          refine ⟨?_, h⟩
          intro c hc
          rcases List.mem_cons.mp hc with rfl | hc
          · exact hab
          · exact Nat.le_trans hab (h.left c hc)
        · rename_i hafter
          have hba := hge a b hafter
          rw [List.pairwise_cons]
          refine ⟨?_, ih h.right⟩
          intro c hc
          rcases List.mem_cons.mp
              ((List.perm_orderedInsert _ a rest).mem_iff.mp hc) with rfl | hc
          · exact hba
          · exact h.left c hc
  induction items with
  | nil =>
      exact List.Pairwise.nil
  | cons item rest ih =>
      exact hinsert item _ ih

theorem queue_ingestJournalEvents
    (localeLe : String -> String -> Bool) {store : RelayStore}
    {planId : String} (journal : Journal) {subscriberIds : List String}
    {cursor : DeliveryCursor}
    (hstore : CursorsDiffer store) (hnodup : subscriberIds.Nodup)
    (hcursor : cursor ∈ (ingestJournalEvents localeLe store planId
      journal.events subscriberIds).cursors)
    (hplan : cursor.plan_id = planId) :
    pendingFor (ingestJournalEvents localeLe store planId journal.events
        subscriberIds) cursor.subscriber_id planId =
      (journal.events.filter fun event =>
        decide (event.seq > cursor.last_delivered_seq)).map
          (notificationOf planId cursor.subscriber_id) := by
  have hunsorted := unsorted_queue hstore hnodup hcursor hplan
  rw [<- rebuildQueue_journal]
  have hstrict : (rebuildQueueFromJournal planId journal.events cursor).Pairwise
      fun a b => a.seq < b.seq := by
    rw [rebuildQueue_journal, List.pairwise_map]
    exact journal.ordered.filter _
  unfold pendingFor ingestJournalEvents
  dsimp only
  generalize hitems : (subscriberIds.foldl
    (seedSubscriber planId journal.events) _).pending ++ _ = items
    at hunsorted ⊢
  have hperm := (List.perm_insertionSort
    (fun a b => comesBefore localeLe a b = true) items).filter
      (isPendingOf cursor.subscriber_id planId)
  rw [hunsorted] at hperm
  have hsorted := (pairwise_comesBefore localeLe items).filter
    (isPendingOf cursor.subscriber_id planId)
  have hseqs : (((items.insertionSort fun a b =>
      comesBefore localeLe a b = true).filter
        (isPendingOf cursor.subscriber_id planId)).map (·.seq)).Nodup := by
    rw [(hperm.map (·.seq)).nodup_iff, List.nodup_iff_pairwise_ne,
      List.pairwise_map]
    exact hstrict.imp Nat.ne_of_lt
  rw [List.nodup_iff_pairwise_ne, List.pairwise_map] at hseqs
  have hlt := hsorted.imp₂ (fun a b hle hne => Nat.lt_of_le_of_ne hle hne) hseqs
  apply List.Perm.eq_of_pairwise _ hlt hstrict hperm
  intro a b _ _ hab hba
  exact absurd hba (Nat.lt_asymm hab)

end Relay
end Thread
end Minni
