import Minni.Thread.Steps

/-!
# Specifications of the journal programs

The programs on the journal leave everything else as it is, and the snapshot
that they hand on is the journal.
-/

namespace Minni
namespace Thread

open Foundation

/-- A program whose operations are all allowed. -/
abbrev Safe {α : Type} (host : Host) (p : Act α)
    (Q : Except ThreadError α -> Vault -> Prop) (v : Vault) : Prop :=
  Program.Guarded vaultInterface (fun _ _ => True) (Allowed host) p Q v

/-- Only the journal may differ. -/
def JournalOnly (v v' : Vault) : Prop :=
  v' = { v with journal := v'.journal }

variable {host : Host} {v v' v'' : Vault}

theorem journalOnly_trans
    (h : JournalOnly v v') (h' : JournalOnly v' v'') :
    JournalOnly v v'' := by
  unfold JournalOnly at *
  rw [h', h]

theorem journalOnly_note (h : JournalOnly v v') : v'.note = v.note := by
  rw [h]

/-!
## Single operations
-/

theorem safe_perform
    {o : VaultOp} {Q : Except ThreadError (VaultReply o) -> Vault -> Prop}
    (hallowed : Allowed host o v)
    (h : forall x, Q (Program.reply vaultInterface o x v)
      (Program.after vaultInterface o x v)) :
    Safe host (Program.perform o) Q v :=
  fun _ => ⟨hallowed, h⟩

/-- An operation that only reads answers or fails. -/
theorem safe_read
    {o : VaultOp} {Q : Except ThreadError (VaultReply o) -> Vault -> Prop}
    (hallowed : Allowed host o v)
    (heffect : Vault.effect o v = v)
    (hok : Q (Except.ok (Vault.answer o v)) v)
    (herror : Q (Except.error ThreadError.io) v) :
    Safe host (Program.perform o) Q v := by
  apply safe_perform hallowed
  intro x
  cases x with
  | done =>
      change Q (Except.ok (Vault.answer o v)) (Vault.effect o v)
      rw [heffect]
      exact hok
  | failed =>
      exact herror
  | landed =>
      change Q (Except.error ThreadError.io) (Vault.effect o v)
      rw [heffect]
      exact herror

theorem safe_readNote
    {Q : Except ThreadError ThreadPlan -> Vault -> Prop}
    (hok : Q (Except.ok v.note) v)
    (herror : Q (Except.error ThreadError.io) v) :
    Safe host Act.readNote Q v :=
  safe_read True.intro rfl hok herror

theorem safe_readJournal
    {Q : Except ThreadError (List OrderedThreadEvent) -> Vault -> Prop}
    (hok : Q (Except.ok v.journal) v)
    (herror : Q (Except.error ThreadError.io) v) :
    Safe host Act.readJournal Q v :=
  safe_read True.intro rfl hok herror

theorem safe_ofExcept
    {α : Type} {result : Except String α}
    {Q : Except ThreadError α -> Vault -> Prop}
    (hok : forall a, result = Except.ok a -> Q (Except.ok a) v)
    (herror : forall text, result = Except.error text ->
      Q (Except.error (ThreadError.message text)) v) :
    Safe host (Act.ofExcept result) Q v := by
  cases hresult : result with
  | ok a =>
      exact hok a hresult
  | error text =>
      exact herror text hresult

/-- Best effort returns, in whatever vault the action leaves. -/
theorem safe_bestEffort
    {act : Act Unit} {R : Vault -> Prop}
    {Q : Except ThreadError Unit -> Vault -> Prop}
    (h : Safe host act (fun _ v' => R v') v)
    (hQ : forall v', R v' -> Q (Except.ok ()) v') :
    Safe host (Act.bestEffort act) Q v :=
  Program.guarded_tryCatch h (fun _ v' hR => hQ v' hR)
    (fun _ v' hR => hQ v' hR)

/-!
## Appending
-/

/-- What an append attempt hands on: the journal itself, or, where the journal
could not be read again after a failure, the snapshot from before. -/
def SnapshotAfter (ordered snapshot : List OrderedThreadEvent)
    (v' : Vault) : Prop :=
  snapshot = v'.journal ∨
    snapshot = ordered ∧ exists fresh, v'.journal = ordered ++ fresh

theorem safe_appendOrderedEventAttempt
    (planId : String) (batch : EventBatch) :
    Safe host (appendOrderedEventAttempt host planId batch v.journal)
      (fun r v' => JournalOnly v v' ∧
        exists snapshot e, r = Except.ok (snapshot, e) ∧
          SnapshotAfter v.journal snapshot v' ∧
          (e = none -> snapshot = v'.journal)) v := by
  have hsame : forall e : Option ThreadError,
      JournalOnly v v ∧ exists snapshot e',
        (Except.ok (v.journal, e) :
          Except ThreadError
            (List OrderedThreadEvent × Option ThreadError)) =
          Except.ok (snapshot, e') ∧
          SnapshotAfter v.journal snapshot v ∧
          (e' = none -> snapshot = v.journal) := by
    intro e
    exact ⟨rfl, v.journal, e, rfl, Or.inl rfl, fun _ => rfl⟩
  unfold appendOrderedEventAttempt
  split
  · split
    · exact hsame _
    · exact hsame _
  · split
    · exact hsame _
    · rename_i materialized _
      generalize materialized.filter _ = fresh
      -- a failed append reads the journal again, which may fail as well
      have hreread : forall (e : ThreadError) (w : Vault),
          JournalOnly v w -> (exists more, w.journal = v.journal ++ more) ->
          Safe host
            (Program.tryCatch
              (do
                let disk <- Act.readJournal
                pure (disk, some e))
              fun _ => pure (v.journal, some e))
            (fun r v' => JournalOnly v v' ∧
              exists snapshot e, r = Except.ok (snapshot, e) ∧
                SnapshotAfter v.journal snapshot v' ∧
                (e = none -> snapshot = v'.journal)) w := by
        intro e w hw hmore
        refine Program.guarded_tryCatch
          (P := fun r v' => v' = w ∧
            forall a, r = Except.ok a -> a = (w.journal, some e)) ?_ ?_ ?_
        · refine Program.guarded_bind (safe_readJournal ?_ ?_)
          · refine ⟨rfl, ?_⟩
            intro a ha
            cases ha
            rfl
          · refine ⟨rfl, ?_⟩
            intro a ha
            cases ha
        · rintro a s ⟨rfl, ha⟩
          rw [ha a rfl]
          exact ⟨hw, s.journal, some e, rfl, Or.inl rfl, fun h => by cases h⟩
        · rintro e' s ⟨rfl, _⟩
          exact ⟨hw, v.journal, some e, rfl, Or.inr ⟨rfl, hmore⟩,
            fun h => by cases h⟩
      refine Program.guarded_tryCatch
        (P := fun r v' => JournalOnly v v' ∧
          (exists more, v'.journal = v.journal ++ more) ∧
          forall a, r = Except.ok a -> a = (v'.journal, none)) ?_ ?_ ?_
      · refine Program.guarded_seq
          (P := fun r v' => JournalOnly v v' ∧
            (exists more, v'.journal = v.journal ++ more) ∧
            (r = Except.ok () -> v'.journal = v.journal ++ fresh))
          (safe_perform True.intro ?_) ?_ ?_
        · intro x
          cases x with
          | done =>
              exact ⟨rfl, ⟨fresh, rfl⟩, fun _ => rfl⟩
          | failed =>
              exact ⟨rfl, ⟨[], (List.append_nil _).symm⟩, fun h => by cases h⟩
          | landed =>
              exact ⟨rfl, ⟨fresh, rfl⟩, fun h => by cases h⟩
        · rintro ⟨⟩ s ⟨hs, hmore, happended⟩
          refine ⟨hs, hmore, ?_⟩
          intro a ha
          cases ha
          rw [happended rfl]
        · rintro e s ⟨hs, hmore, _⟩
          refine ⟨hs, hmore, ?_⟩
          intro a ha
          cases ha
      · rintro a s ⟨hs, _, ha⟩
        rw [ha a rfl]
        exact ⟨hs, s.journal, none, rfl, Or.inl rfl, fun _ => rfl⟩
      · rintro e s ⟨hs, hmore, _⟩
        exact hreread e s hs hmore

/-- The post-condition of the programs that hand on a snapshot. -/
def HandsOnJournal (v : Vault)
    (r : Except ThreadError (List OrderedThreadEvent)) (v' : Vault) : Prop :=
  JournalOnly v v' ∧ forall snapshot, r = Except.ok snapshot ->
    snapshot = v'.journal

theorem handsOnJournal_error
    (e : ThreadError) (h : JournalOnly v v') :
    HandsOnJournal v (Except.error e) v' := by
  refine ⟨h, ?_⟩
  intro snapshot hsnapshot
  cases hsnapshot

theorem handsOnJournal_self (v : Vault) :
    HandsOnJournal v (Except.ok v.journal) v := by
  refine ⟨rfl, ?_⟩
  intro snapshot hsnapshot
  cases hsnapshot
  rfl

theorem handsOnJournal_trans
    {r : Except ThreadError (List OrderedThreadEvent)}
    (h : JournalOnly v v') (h' : HandsOnJournal v' r v'') :
    HandsOnJournal v r v'' :=
  ⟨journalOnly_trans h h'.1, h'.2⟩

theorem safe_appendOrderedEventBatch
    (planId : String) (batch : EventBatch) :
    Safe host (appendOrderedEventBatch host planId batch v.journal)
      (HandsOnJournal v) v := by
  refine Program.guarded_seq (safe_appendOrderedEventAttempt planId batch)
    ?_ ?_
  · rintro ⟨snapshot, e⟩ s ⟨hs, snapshot', e', heq, _, hnone⟩
    cases heq
    cases e with
    | none =>
        refine ⟨hs, ?_⟩
        intro final hfinal
        cases hfinal
        exact hnone rfl
    | some e =>
        exact handsOnJournal_error e hs
  · rintro e s ⟨hs, _⟩
    exact handsOnJournal_error e hs

theorem safe_reconcileThreadJournal
    (plan : ThreadPlan) (actor : String) (now : Nat) :
    Safe host (reconcileThreadJournal host plan actor now v.journal)
      (HandsOnJournal v) v := by
  unfold reconcileThreadJournal
  simp only
  split
  · exact handsOnJournal_self v
  · split
    · exact handsOnJournal_error _ rfl
    · split
      · exact handsOnJournal_self v
      · split
        · exact handsOnJournal_self v
        · exact safe_appendOrderedEventBatch _ _

theorem safe_ensureOrderedBaseline
    (plan : ThreadPlan) (actor : String) (now : Nat) :
    Safe host (ensureOrderedBaseline host plan actor now v.journal)
      (HandsOnJournal v) v := by
  unfold ensureOrderedBaseline
  split
  · exact safe_appendOrderedEventBatch _ _
  · exact handsOnJournal_self v

theorem safe_prepareThreadMutation
    (actor : String) (plan : ThreadPlan) (now : Nat) :
    Safe host (prepareThreadMutation host actor plan now)
      (HandsOnJournal v) v := by
  refine Program.guarded_seq
    (safe_readJournal (handsOnJournal_self v)
      (handsOnJournal_error _ rfl)) ?_ ?_
  · rintro ordered s ⟨hs, hordered⟩
    rw [hordered ordered rfl]
    refine Program.guarded_seq (safe_reconcileThreadJournal plan actor now)
      ?_ ?_
    · rintro ordered' s' ⟨hs', hordered'⟩
      rw [hordered' ordered' rfl]
      refine Program.guarded_mono (safe_ensureOrderedBaseline plan actor now) ?_
      intro r s'' h
      exact handsOnJournal_trans (journalOnly_trans hs hs') h
    · rintro e s' ⟨hs', _⟩
      exact handsOnJournal_error e (journalOnly_trans hs hs')
  · rintro e s ⟨hs, _⟩
    exact handsOnJournal_error e hs

/-!
## The events of a mutation
-/

theorem eq_of_orderedSnapshotsEqual
    {ordered snapshot : List OrderedThreadEvent}
    (hsnapshot : SnapshotAfter ordered snapshot v)
    (h : orderedSnapshotsEqual snapshot v.journal = true) :
    snapshot = v.journal := by
  rcases hsnapshot with hsame | ⟨hold, fresh, hfresh⟩
  · exact hsame
  · unfold orderedSnapshotsEqual at h
    have hlength := congrArg List.length (of_decide_eq_true h)
    rw [List.length_map, List.length_map, hfresh, hold, List.length_append]
      at hlength
    have hnil : fresh = [] := List.length_eq_zero_iff.mp (by omega)
    rw [hold, hfresh, hnil, List.append_nil]

theorem safe_recordThreadMutationEvents (m : MutationEvents) :
    Safe host (recordThreadMutationEvents host m v.journal)
      (HandsOnJournal v) v := by
  refine Program.guarded_seq (safe_appendOrderedEventAttempt _ _) ?_ ?_
  · rintro ⟨snapshot, e⟩ s ⟨hs, snapshot', e', heq, hsnapshot, hnone⟩
    cases heq
    cases e with
    | none =>
        refine ⟨hs, ?_⟩
        intro final hfinal
        cases hfinal
        exact hnone rfl
    | some e =>
        simp only
        split
        · exact handsOnJournal_error e hs
        · refine Program.guarded_bind (Program.guarded_bind
            (safe_readJournal ?_ (handsOnJournal_error _ hs)))
          change Safe host
            (if orderedSnapshotsEqual snapshot s.journal then _ else _)
            (HandsOnJournal v) s
          split
          · rename_i htruthful
            split
            · refine ⟨hs, ?_⟩
              intro final hfinal
              cases hfinal
              exact eq_of_orderedSnapshotsEqual hsnapshot htruthful
            · exact handsOnJournal_error _ hs
          · exact handsOnJournal_error e hs
  · rintro e s ⟨hs, _⟩
    exact handsOnJournal_error e hs

end Thread
end Minni
