import Mathlib.Data.List.Dedup
import Minni.Thread.JournalSpecs

/-!
# Specifications of the programs on note, envelopes and receipts

What a program leaves behind where it returns.  A failure carries no promise,
except that a failed persist knows whether the note has landed.
-/

namespace Minni
namespace Thread

open Foundation

/-- The promise of a program that returns. -/
def Returns {α : Type} (P : α -> Vault -> Prop) (r : Except ThreadError α)
    (v' : Vault) : Prop :=
  forall a, r = Except.ok a -> P a v'

variable {host : Host} {v v' v'' : Vault} {α β : Type}

theorem returns_ok {P : α -> Vault -> Prop} {a : α} (h : P a v) :
    Returns P (Except.ok a) v := by
  intro b hb
  cases hb
  exact h

theorem returns_error (P : α -> Vault -> Prop) (e : ThreadError) :
    Returns P (Except.error e) v := by
  intro a ha
  cases ha

theorem safe_then
    {p : Act α} {f : α -> Act β} {P : α -> Vault -> Prop}
    {R : β -> Vault -> Prop}
    (h : Safe host p (Returns P) v)
    (hnext : forall a s, P a s -> Safe host (f a) (Returns R) s) :
    Safe host (p >>= f) (Returns R) v := by
  refine Program.guarded_seq h ?_ ?_
  · intro a s ha
    exact hnext a s (ha a rfl)
  · intro e s _
    exact returns_error R e

theorem safe_weaken
    {p : Act α} {P R : α -> Vault -> Prop}
    (h : Safe host p (Returns P) v)
    (hPR : forall a s, P a s -> R a s) :
    Safe host p (Returns R) v := by
  refine Program.guarded_mono h ?_
  intro r s hr a ha
  exact hPR a s (hr a ha)

theorem safe_require
    {condition : Bool} {e : ThreadError}
    {R : Unit -> Vault -> Prop}
    (h : condition = true -> R () v) :
    Safe host (Program.require condition e) (Returns R) v :=
  Program.guarded_require (fun hcondition => returns_ok (h hcondition))
    (fun _ => returns_error R e)

theorem safe_ofOption
    {value : Option α} {e : ThreadError} {R : α -> Vault -> Prop}
    (h : forall a, value = some a -> R a v) :
    Safe host (Program.ofOption value e) (Returns R) v :=
  Program.guarded_ofOption (fun a ha => returns_ok (h a ha))
    (fun _ => returns_error R e)

/-- A promise that holds however the program ends holds where it returns. -/
theorem safe_returns
    {p : Act α} {P : Vault -> Prop}
    (h : Safe host p (fun _ v' => P v') v) :
    Safe host p (Returns fun _ v' => P v') v := by
  refine Program.guarded_mono h ?_
  intro _ s hs _ _
  exact hs

theorem safe_journal
    {p : Act (List OrderedThreadEvent)}
    (h : Safe host p (HandsOnJournal v) v) :
    Safe host p
      (Returns fun ordered v' => JournalOnly v v' ∧ ordered = v'.journal) v := by
  refine Program.guarded_mono h ?_
  intro r s hr ordered hordered
  exact ⟨hr.1, hr.2 ordered hordered⟩

/-!
## Slices
-/

theorem hasSlice_of_filter
    {plan : ThreadPlan} {sliceId : String} {slice : ThreadSlice}
    (h : plan.slices.filter (fun s => s.id = sliceId) = [slice]) :
    HasSlice plan slice ∧ slice.id = sliceId := by
  have hmem : slice ∈ plan.slices.filter (fun s => s.id = sliceId) := by
    rw [h]
    exact List.mem_singleton.mpr rfl
  have hid : slice.id = sliceId :=
    of_decide_eq_true (List.mem_filter.mp hmem).2
  refine ⟨?_, hid⟩
  unfold HasSlice
  rw [hid]
  exact h

theorem safe_findSlice
    (plan : ThreadPlan) (sliceId : String) :
    Safe host (findSlice plan sliceId)
      (Returns fun slice v' =>
        v' = v ∧ HasSlice plan slice ∧ slice.id = sliceId) v := by
  unfold findSlice
  split
  · exact returns_error _ _
  · rename_i slice hslice
    exact returns_ok ⟨rfl, hasSlice_of_filter hslice⟩
  · exact returns_error _ _

theorem mem_of_hasSlice
    {plan : ThreadPlan} {slice : ThreadSlice} (h : HasSlice plan slice) :
    slice ∈ plan.slices := by
  have hmem : slice ∈ plan.slices.filter (fun s => s.id = slice.id) := by
    rw [h]
    exact List.mem_singleton.mpr rfl
  exact (List.mem_filter.mp hmem).1

theorem hasSlice_unique
    {plan : ThreadPlan} {slice other : ThreadSlice}
    (h : HasSlice plan slice) (hmem : other ∈ plan.slices)
    (hid : other.id = slice.id) :
    other = slice := by
  have hfilter : other ∈ plan.slices.filter (fun s => s.id = slice.id) :=
    List.mem_filter.mpr ⟨hmem, decide_eq_true hid⟩
  rw [h] at hfilter
  exact List.mem_singleton.mp hfilter

theorem replaceById_filter
    {slices : List ThreadSlice} {id : String} {f : ThreadSlice -> ThreadSlice}
    (hid : forall s, s.id = id -> (f s).id = id) :
    (replaceById slices id f).filter (fun s => s.id = id) =
      (slices.filter (fun s => s.id = id)).map f := by
  induction slices with
  | nil =>
      rfl
  | cons s rest ih =>
      unfold replaceById at ih ⊢
      rw [List.map_cons]
      by_cases hs : s.id = id
      · simp [hs, hid s hs, ih]
      · simp [hs, ih]

theorem hasSlice_replaceSlice
    {plan : ThreadPlan} {slice next : ThreadSlice}
    (h : HasSlice plan slice) (hid : next.id = slice.id) :
    HasSlice (replaceSlice plan slice.id next) next := by
  unfold HasSlice replaceSlice
  rw [hid, replaceById_filter (fun _ _ => hid), h]
  rfl

/-!
## Envelopes and receipts
-/

/-- Only the envelopes may differ, and no new token has been drawn. -/
def SecretsOnly (v v' : Vault) : Prop :=
  v' = { v with secrets := v'.secrets }

def ReceiptsOnly (v v' : Vault) : Prop :=
  v' = { v with receipts := v'.receipts }

theorem secretsOnly_trans
    (h : SecretsOnly v v') (h' : SecretsOnly v' v'') :
    SecretsOnly v v'' := by
  unfold SecretsOnly at *
  rw [h', h]

theorem receiptsOnly_trans
    (h : ReceiptsOnly v v') (h' : ReceiptsOnly v' v'') :
    ReceiptsOnly v v'' := by
  unfold ReceiptsOnly at *
  rw [h', h]

/-- Only envelopes under these identities may be gone. -/
structure Deleted (ids : List ClaimId) (v v' : Vault) : Prop where
  only : SecretsOnly v v'
  elsewhere : forall id, id ∉ ids -> v'.secrets id = v.secrets id

theorem deleted_refl (ids : List ClaimId) (v : Vault) : Deleted ids v v :=
  ⟨rfl, fun _ _ => rfl⟩

theorem deleted_trans
    {ids : List ClaimId}
    (h : Deleted ids v v') (h' : Deleted ids v' v'') :
    Deleted ids v v'' := by
  constructor
  · exact secretsOnly_trans h.only h'.only
  · intro id hid
    rw [h'.elsewhere id hid, h.elsewhere id hid]

theorem deleted_unlink
    {ids : List ClaimId} {id : ClaimId} (hid : id ∈ ids) :
    Deleted ids v (v.putSecret id none) := by
  constructor
  · rfl
  · intro other hother
    unfold Vault.putSecret
    apply Function.update_of_ne
    rintro rfl
    exact hother hid

theorem safe_deleteClaimSecret
    {ids : List ClaimId} {id : ClaimId} (hid : id ∈ ids) :
    Safe host (deleteClaimSecret id) (fun _ v' => Deleted ids v v') v := by
  refine Program.guarded_bind
    (safe_read True.intro rfl ?_ (deleted_refl ids v))
  change Safe host
    (if (v.envelope id).isSome then unlinkEnvelope id else pure ())
    (fun _ v' => Deleted ids v v') v
  split
  · change Safe host (Program.perform (VaultOp.unlinkSecret id))
      (fun _ v' => Deleted ids v v') v
    refine safe_perform True.intro ?_
    intro x
    cases x with
    | done =>
        exact deleted_unlink hid
    | failed =>
        exact deleted_refl ids v
    | landed =>
        exact deleted_unlink hid
  · exact Program.guarded_pure (deleted_refl ids v)

theorem safe_deleteClaimSecretsBestEffort (ids : List ClaimId) :
    Safe host (deleteClaimSecretsBestEffort ids)
      (fun _ v' => Deleted ids v v') v := by
  apply Program.guarded_forEach (P := Deleted ids v)
  · intro id s hid hs
    apply safe_bestEffort (R := Deleted ids v)
    · refine Program.guarded_mono
        (safe_deleteClaimSecret (List.mem_dedup.mp hid)) ?_
      intro _ s' hs'
      exact deleted_trans hs hs'
    · intro s' hs'
      exact hs'
  · exact deleted_refl ids v

theorem receiptAt_dropReceipt
    (v : Vault) (id id' : ReceiptId) :
    receiptAt (v.dropReceipt id) id' =
      if id' = id then none else receiptAt v id' := by
  unfold receiptAt Vault.dropReceipt
  simp only
  induction v.receipts with
  | nil =>
      split
      · rfl
      · rfl
  | cons r rest ih =>
      by_cases hr : r.id = id
      · rw [List.filter_cons_of_neg (by simpa using hr), ih]
        by_cases hid : id' = id
        · rw [if_pos hid, if_pos hid]
        · rw [if_neg hid, if_neg hid, List.find?_cons_of_neg]
          simp only [decide_eq_true_eq]
          intro h
          exact hid (h.symm.trans hr)
      · rw [List.filter_cons_of_pos (by simpa using hr)]
        by_cases hr' : r.id = id'
        · have hne : ¬ id' = id := by
            rw [← hr']
            exact hr
          rw [if_neg hne, List.find?_cons_of_pos (by simpa using hr'),
            List.find?_cons_of_pos (by simpa using hr')]
        · rw [List.find?_cons_of_neg (by simpa using hr'), ih,
            List.find?_cons_of_neg (by simpa using hr')]

/-- Pruning a generation drops receipts of that slice and generation only. -/
structure Pruned (sliceId : String) (v v' : Vault) : Prop where
  only : ReceiptsOnly v v'
  receipts : forall id receipt, receiptAt v' id = some receipt ->
    receiptAt v id = some receipt
  elsewhere : forall id : ReceiptId, id.slice_id ≠ sliceId ->
    receiptAt v' id = receiptAt v id

theorem pruned_refl (sliceId : String) (v : Vault) : Pruned sliceId v v :=
  ⟨rfl, fun _ _ h => h, fun _ _ => rfl⟩

theorem pruned_drop
    {sliceId : String} {id : ReceiptId}
    (h : Pruned sliceId v v') (hid : id.slice_id = sliceId) :
    Pruned sliceId v (v'.dropReceipt id) := by
  constructor
  · have honly := h.only
    unfold ReceiptsOnly at *
    rw [honly]
    rfl
  · intro id' receipt hreceipt
    rw [receiptAt_dropReceipt] at hreceipt
    split at hreceipt
    · cases hreceipt
    · exact h.receipts id' receipt hreceipt
  · intro id' hne
    rw [receiptAt_dropReceipt, if_neg ?_]
    · exact h.elsewhere id' hne
    · rintro rfl
      exact hne hid

theorem safe_prune
    {sliceId : String} {generation : Nat}
    (h : RetiredGeneration v.note sliceId generation) :
    Safe host (pruneSliceReceiptsOnGenerationAdvance sliceId generation)
      (fun _ v' => Pruned sliceId v v') v := by
  apply safe_bestEffort (R := Pruned sliceId v)
  · refine Program.guarded_bind
      (safe_read True.intro rfl ?_ (pruned_refl sliceId v))
    apply Program.guarded_forEach (P := Pruned sliceId v)
    · intro id s hid hs
      have hids : id.slice_id = sliceId ∧ id.generation = generation := by
        change id ∈ (v.receipts.filter fun r =>
          r.id.slice_id = sliceId ∧ r.id.generation = generation).map (·.id)
          at hid
        rcases List.mem_map.mp hid with ⟨receipt, hreceipt, rfl⟩
        simpa using (List.mem_filter.mp hreceipt).2
      refine safe_perform ?_ ?_
      · change RetiredGeneration s.note id.slice_id id.generation
        rw [hs.only, hids.1, hids.2]
        exact h
      · intro x
        cases x with
        | done =>
            exact pruned_drop hs hids.1
        | failed =>
            exact hs
        | landed =>
            exact pruned_drop hs hids.1
    · exact pruned_refl sliceId v
  · intro s hs
    exact hs

theorem safe_pruneCollectedGenerations
    {sliceId : String} {generations : List Nat}
    (h : forall generation, generation ∈ generations ->
      RetiredGeneration v.note sliceId generation) :
    Safe host (pruneCollectedGenerationsBestEffort sliceId generations)
      (fun _ v' => ReceiptsOnly v v') v := by
  apply Program.guarded_forEach (P := ReceiptsOnly v)
  · intro generation s hmem hs
    have hnote : s.note = v.note := by rw [hs]
    have hretired : RetiredGeneration s.note sliceId generation := by
      rw [hnote]
      exact h generation (List.mem_dedup.mp hmem)
    refine Program.guarded_mono (safe_prune hretired) ?_
    intro _ s' hs'
    exact receiptsOnly_trans hs hs'.only
  · rfl

theorem safe_pruneAfterPlanMutation
    {before after : ThreadPlan}
    (h : forall entry, entry ∈ advancedGenerations before after ->
      RetiredGeneration v.note entry.1 entry.2) :
    Safe host (pruneSliceReceiptsAfterPlanMutation before after)
      (fun _ v' => ReceiptsOnly v v') v := by
  apply Program.guarded_forEach (P := ReceiptsOnly v)
  · intro entry s hmem hs
    have hnote : s.note = v.note := by rw [hs]
    have hretired : RetiredGeneration s.note entry.1 entry.2 := by
      rw [hnote]
      exact h entry hmem
    refine Program.guarded_mono (safe_prune hretired) ?_
    intro _ s' hs'
    exact receiptsOnly_trans hs hs'.only
  · rfl

/-!
## Persisting
-/

/-- The vault after the note was written: the history may lag behind. -/
def Wrote (v : Vault) (plan : ThreadPlan) (cause : Cause) (now : Nat)
    (v' : Vault) : Prop :=
  v' = { Vault.effect (VaultOp.writeNote plan cause now) v with
    history := v'.history }

theorem wrote_note
    {plan : ThreadPlan} {cause : Cause} {now : Nat}
    (h : Wrote v plan cause now v') :
    v'.note = plan := by
  rw [h]
  rfl

def PersistPost (v : Vault) (plan : ThreadPlan) (cause : Cause) (now : Nat)
    (r : Except ThreadError ThreadPlan) (v' : Vault) : Prop :=
  match r with
  | Except.ok p => p = plan ∧ Wrote v plan cause now v'
  | Except.error (ThreadError.planHistoryAppend _) =>
      Wrote v plan cause now v'
  | Except.error _ => v' = v ∨ Wrote v plan cause now v'

theorem safe_persistPlan
    {plan : ThreadPlan} {cause : Cause} {clock : Clock}
    (h : assertUniqueSliceIds plan.slices "persistPlan" = Except.ok () ->
      NoteStep host v (persistedPlan plan clock) clock.now cause) :
    Safe host (persistPlan plan cause clock)
      (PersistPost v (persistedPlan plan clock) cause clock.now) v := by
  refine Program.guarded_bind (safe_ofExcept ?_ ?_)
  · intro _ hunique
    refine Program.guarded_bind (safe_perform ⟨h hunique, hunique⟩ ?_)
    have hwritten : Safe host
        (do
          Program.tryCatch
            (Program.perform
              (VaultOp.appendHistory (persistedPlan plan clock)))
            fun _ => Act.throw (ThreadError.planHistoryAppend
              (persistedPlan plan clock).rev)
          pure (persistedPlan plan clock))
        (PersistPost v (persistedPlan plan clock) cause clock.now)
        (Vault.effect
          (VaultOp.writeNote (persistedPlan plan clock) cause clock.now)
          v) := by
      apply Program.guarded_bind
      refine Program.guarded_tryCatch
        (P := fun _ v' =>
          Wrote v (persistedPlan plan clock) cause clock.now v')
        (safe_perform True.intro ?_) ?_ ?_
      · intro x
        cases x with
        | done =>
            rfl
        | failed =>
            rfl
        | landed =>
            rfl
      · rintro ⟨⟩ s hs
        exact ⟨rfl, hs⟩
      · intro _ s hs
        exact hs
    intro x
    cases x with
    | done =>
        exact hwritten
    | failed =>
        exact Or.inl rfl
    | landed =>
        exact Or.inr rfl
  · intro _ _
    exact Or.inl rfl

theorem safe_judgeCommitted
    {plan : ThreadPlan} {cause : Cause} {now : Nat} {e : ThreadError}
    {isIntended : ThreadPlan -> Bool}
    (hintended : isIntended v.note = false)
    (hpost : PersistPost v plan cause now (Except.error e) v') :
    Safe host (judgeCommitted e isIntended)
      (Returns fun committed s =>
        s = v' ∧ (committed = true -> Wrote v plan cause now s)) v' := by
  have hreread : (v' = v ∨ Wrote v plan cause now v') ->
      Safe host
        (Program.tryCatch
          (do
            let canonical <- Act.readNote
            pure (isIntended canonical))
          fun _ => pure false)
        (Returns fun committed s =>
          s = v' ∧ (committed = true -> Wrote v plan cause now s)) v' := by
    intro hcase
    refine Program.guarded_tryCatch
      (P := fun r s => s = v' ∧ (r = Except.ok true ->
        Wrote v plan cause now s)) ?_ ?_ ?_
    · refine Program.guarded_bind (safe_readNote ?_ ⟨rfl, fun h => by cases h⟩)
      refine ⟨rfl, ?_⟩
      intro htrue
      rcases hcase with rfl | hwrote
      · cases hvalue : isIntended v'.note with
        | true =>
            rw [hintended] at hvalue
            cases hvalue
        | false =>
            rw [hvalue] at htrue
            cases htrue
      · exact hwrote
    · rintro committed s ⟨hs, hcommitted⟩
      apply returns_ok
      refine ⟨hs, ?_⟩
      rintro rfl
      exact hcommitted rfl
    · rintro e' s ⟨hs, _⟩
      apply returns_ok
      exact ⟨hs, fun h => by cases h⟩
  cases e with
  | planHistoryAppend rev =>
      exact returns_ok ⟨rfl, fun _ => hpost⟩
  | io =>
      exact hreread hpost
  | message text =>
      exact hreread hpost
  | busy =>
      exact hreread hpost
  | idempotencyConflict key =>
      exact hreread hpost
  | journalAppend key kind =>
      exact hreread hpost
  | inconsistent noteRev journalRev =>
      exact hreread hpost
  | claimTtl ttl maximum =>
      exact hreread hpost

/-- A clean-up that acts on a committed note runs only where the note has
landed. -/
theorem safe_persistOrCleanUp
    {plan : ThreadPlan} {cause : Cause} {clock : Clock}
    {isIntended : ThreadPlan -> Bool} {cleanUp : Bool -> Act Unit}
    (h : assertUniqueSliceIds plan.slices "persistPlan" = Except.ok () ->
      NoteStep host v (persistedPlan plan clock) clock.now cause)
    (hintended : isIntended v.note = false)
    (hclean : forall committed s,
      (committed = true ->
        Wrote v (persistedPlan plan clock) cause clock.now s) ->
      Safe host (cleanUp committed) (fun _ _ => True) s) :
    Safe host (persistOrCleanUp plan cause clock isIntended cleanUp)
      (Returns fun p s => p = persistedPlan plan clock ∧
        Wrote v (persistedPlan plan clock) cause clock.now s) v := by
  refine Program.guarded_tryCatch (safe_persistPlan h) ?_ ?_
  · intro p s hpost
    exact returns_ok hpost
  · intro e s hpost
    refine safe_then (safe_judgeCommitted hintended hpost) ?_
    rintro committed s' ⟨rfl, hcommitted⟩
    refine safe_then
      (P := fun _ _ => True)
      (Program.guarded_mono (hclean committed s' hcommitted)
        fun _ _ _ => fun _ _ => True.intro) ?_
    intro _ s'' _
    exact returns_error _ _

end Thread
end Minni
