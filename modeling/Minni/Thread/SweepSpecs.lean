import Minni.Thread.NoteSpecs

/-!
# Specifications of the expiry sweep

A sweep leaves each slice as it is or, where the claim was stale, without the
claim, and it touches the receipts of the slices that it expires only.
-/

namespace Minni
namespace Thread

open Foundation

def slicesAt (plan : ThreadPlan) (sliceId : String) : List ThreadSlice :=
  plan.slices.filter fun s => s.id = sliceId

/-- The revisions that landed in between are expiries. -/
def OnlyExpired (v v' : Vault) : Prop :=
  exists recent, v'.landed = recent ++ v.landed ∧
    forall entry, entry ∈ recent ->
      exists sliceId actor, entry.cause = Cause.expire sliceId actor

structure Swept (now : Nat) (v v' : Vault) : Prop where
  expired : OnlyExpired v v'
  receipts : forall id receipt, receiptAt v' id = some receipt ->
    receiptAt v id = some receipt
  slices : forall sliceId,
    (slicesAt v'.note sliceId = slicesAt v.note sliceId ∧
        forall id : ReceiptId, id.slice_id = sliceId ->
          receiptAt v' id = receiptAt v id) ∨
      exists stale cleared, slicesAt v.note sliceId = [stale] ∧
        isStale now stale = true ∧ slicesAt v'.note sliceId = [cleared] ∧
        cleared.claim = none

def NoStale (now : Nat) (plan : ThreadPlan) (sliceId : String) : Prop :=
  forall slice, slice ∈ slicesAt plan sliceId -> isStale now slice = false

variable {host : Host} {v v' v'' : Vault}

theorem onlyExpired_of_same (h : v'.landed = v.landed) : OnlyExpired v v' := by
  refine ⟨[], h, ?_⟩
  intro entry hentry
  cases hentry

theorem onlyExpired_trans
    (h : OnlyExpired v v') (h' : OnlyExpired v' v'') : OnlyExpired v v'' := by
  rcases h with ⟨recent, hlanded, hexpired⟩
  rcases h' with ⟨recent', hlanded', hexpired'⟩
  refine ⟨recent' ++ recent, ?_, ?_⟩
  · rw [hlanded', hlanded, List.append_assoc]
  · intro entry hentry
    rcases List.mem_append.mp hentry with hentry | hentry
    · exact hexpired' entry hentry
    · exact hexpired entry hentry

theorem swept_of_same
    {now : Nat} (hnote : v'.note = v.note)
    (hreceipts : v'.receipts = v.receipts) (hlanded : v'.landed = v.landed) :
    Swept now v v' := by
  refine ⟨onlyExpired_of_same hlanded, ?_, ?_⟩
  · intro id receipt h
    unfold receiptAt at *
    rw [hreceipts] at h
    exact h
  · intro sliceId
    refine Or.inl ⟨by rw [hnote], ?_⟩
    intro id _
    unfold receiptAt
    rw [hreceipts]

theorem swept_trans
    {now : Nat} (h : Swept now v v') (h' : Swept now v' v'') :
    Swept now v v'' := by
  refine ⟨onlyExpired_trans h.expired h'.expired, ?_, ?_⟩
  · intro id receipt hreceipt
    exact h.receipts id receipt (h'.receipts id receipt hreceipt)
  · intro sliceId
    rcases h.slices sliceId with
      ⟨hsame, hreceipts⟩ | ⟨stale, cleared, hstale, his, hcleared, hclaim⟩
    · rcases h'.slices sliceId with
        ⟨hsame', hreceipts'⟩ | ⟨stale, cleared, hstale, hrest⟩
      · refine Or.inl ⟨hsame'.trans hsame, ?_⟩
        intro id hid
        rw [hreceipts' id hid, hreceipts id hid]
      · exact Or.inr ⟨stale, cleared, hsame ▸ hstale, hrest⟩
    · rcases h'.slices sliceId with
        ⟨hsame', _⟩ | ⟨_, cleared', _, _, hcleared', hclaim'⟩
      · exact Or.inr
          ⟨stale, cleared, hstale, his, hsame'.trans hcleared, hclaim⟩
      · exact Or.inr ⟨stale, cleared', hstale, his, hcleared', hclaim'⟩

theorem isStale_of_claim_none
    {slice : ThreadSlice} (h : slice.claim = none) (now : Nat) :
    isStale now slice = false := by
  simp [isStale, h]

theorem noStale_of_swept
    {now : Nat} {sliceId : String}
    (h : Swept now v v') (hstale : NoStale now v.note sliceId) :
    NoStale now v'.note sliceId := by
  intro slice hslice
  rcases h.slices sliceId with
    ⟨hsame, _⟩ | ⟨_, cleared, _, _, hcleared, hclaim⟩
  · rw [hsame] at hslice
    exact hstale slice hslice
  · rw [hcleared] at hslice
    rw [List.mem_singleton.mp hslice]
    exact isStale_of_claim_none hclaim now

theorem slicesAt_of_hasSlice
    {plan : ThreadPlan} {slice : ThreadSlice} (h : HasSlice plan slice) :
    slicesAt plan slice.id = [slice] :=
  h

/-!
## Other slices
-/

theorem slicesAt_replaceById_of_ne
    {plan : ThreadPlan} {slices : List ThreadSlice} {id sliceId : String}
    {f : ThreadSlice -> ThreadSlice}
    (hplan : plan.slices = replaceById slices id f)
    (hid : forall s, s.id = id -> (f s).id = id) (hne : sliceId ≠ id) :
    slicesAt plan sliceId = slices.filter fun s => s.id = sliceId := by
  unfold slicesAt
  rw [hplan]
  clear hplan
  induction slices with
  | nil =>
      rfl
  | cons s rest ih =>
      unfold replaceById at ih ⊢
      rw [List.map_cons]
      by_cases hs : s.id = id
      · have hleft : ¬ (f s).id = sliceId := by
          rw [hid s hs]
          exact fun h => hne h.symm
        have hright : ¬ s.id = sliceId := by
          rw [hs]
          exact fun h => hne h.symm
        simpa [hs, hid s hs, hleft, hright, Ne.symm hne] using ih
      · rw [if_neg hs]
        by_cases hsame : s.id = sliceId
        · simpa [hsame] using ih
        · simpa [hsame] using ih

/-!
## The sweep
-/

theorem not_intended_of_rev
    {plan : ThreadPlan} {rest : Bool} :
    (decide (plan.rev = plan.rev + 1) && rest) = false := by
  simp

theorem expireStep
    {slice : ThreadSlice} {actor : String} {clock : Clock}
    (hslice : HasSlice v.note slice) (hclaim : slice.claim.isSome = true)
    (hlive : hasLiveClaim slice clock.now = false) :
    NoteStep host v
      (persistedPlan (replaceSlice v.note slice.id (expiredSlice slice)) clock)
      clock.now (Cause.expire slice.id actor) :=
  ⟨slice, hslice, rfl, hclaim, hlive, rfl⟩

theorem retired_of_next
    {plan : ThreadPlan} {slice next : ThreadSlice} {generation : Nat}
    (hnext : HasSlice plan next) (hid : next.id = slice.id)
    (hgeneration : generation < next.requireGeneration) :
    RetiredGeneration plan slice.id generation := by
  intro other hother hotherId hotherGeneration
  have hsame : other = next :=
    hasSlice_unique hnext (mem_of_hasSlice hother)
      (hotherId.trans hid.symm)
  rw [hsame] at hotherGeneration
  omega

theorem hasSlice_persisted
    {plan : ThreadPlan} {slice next : ThreadSlice} {clock : Clock}
    (h : HasSlice plan slice) (hid : next.id = slice.id) :
    HasSlice (persistedPlan (replaceSlice plan slice.id next) clock) next :=
  hasSlice_replaceSlice h hid

theorem safe_expireStaleClaimForSlice
    (actor sliceId : String) (clock : Clock) :
    Safe host
      (expireStaleClaimForSlice host actor sliceId clock v.note v.journal)
      (Returns fun r v' => r.1 = v'.note ∧ r.2 = v'.journal ∧ Swept clock.now v v' ∧
        NoStale clock.now v'.note sliceId) v := by
  refine safe_then (safe_findSlice v.note sliceId) ?_
  rintro slice s ⟨rfl, hslice, rfl⟩
  have hkeep : isStale clock.now slice = false ->
      Returns
        (fun (r : ThreadPlan × List OrderedThreadEvent) v' =>
          r.1 = v'.note ∧ r.2 = v'.journal ∧ Swept clock.now s v' ∧
            NoStale clock.now v'.note slice.id)
        (Except.ok (s.note, s.journal)) s := by
    intro hstale
    apply returns_ok
    refine ⟨rfl, rfl, swept_of_same rfl rfl rfl, ?_⟩
    intro other hother
    rw [slicesAt_of_hasSlice hslice] at hother
    rw [List.mem_singleton.mp hother]
    exact hstale
  cases hclaim : slice.claim with
  | none =>
      exact hkeep (isStale_of_claim_none hclaim _)
  | some claim =>
      simp only
      split
      · rename_i hlive
        exact hkeep (by simp [isStale, hlive])
      · rename_i hlive
        have hlive' : hasLiveClaim slice clock.now = false := by
          simpa using hlive
        have hsome : slice.claim.isSome = true := by
          rw [hclaim]
          rfl
        have hstale : isStale clock.now slice = true := by
          simp [isStale, hsome, hlive']
        refine safe_then (safe_persistOrCleanUp
          (fun _ => expireStep hslice hsome hlive') not_intended_of_rev ?_) ?_
        · intro committed w _
          cases committed with
          | true =>
              exact Program.guarded_mono
                (safe_deleteClaimSecretsBestEffort _) fun _ _ _ => True.intro
          | false =>
              exact True.intro
        · rintro next w ⟨rfl, hwrote⟩
          refine safe_then
            (safe_returns (safe_deleteClaimSecretsBestEffort _)) ?_
          intro _ w' hsecrets
          have hnote : w'.note =
              persistedPlan (replaceSlice s.note slice.id (expiredSlice slice))
                clock := by
            rw [hsecrets.only]
            change w.note = _
            exact wrote_note hwrote
          have hnext : HasSlice w'.note (expiredSlice slice) := by
            rw [hnote]
            exact hasSlice_persisted hslice rfl
          have hretired : RetiredGeneration w'.note slice.id
              slice.requireGeneration := by
            apply retired_of_next hnext rfl
            simp [expiredSlice, PlanSlice.requireGeneration]
          refine safe_then (safe_returns (safe_prune hretired)) ?_
          intro _ w'' hpruned
          have hjournal : s.journal = w''.journal := by
            rw [hpruned.only, hsecrets.only, hwrote]
            rfl
          have hnote'' : w''.note = w'.note := by
            rw [hpruned.only]
          rw [hjournal]
          refine safe_then
            (safe_journal (safe_recordThreadMutationEvents _)) ?_
          rintro ordered x ⟨hx, hordered⟩
          have hnotex : x.note =
              persistedPlan (replaceSlice s.note slice.id (expiredSlice slice))
                clock := by
            rw [hx]
            exact hnote''.trans hnote
          have hat : slicesAt x.note slice.id = [expiredSlice slice] := by
            have hhas : HasSlice x.note (expiredSlice slice) := by
              rw [hnotex]
              exact hasSlice_persisted hslice rfl
            exact hhas
          apply returns_ok
          refine ⟨hnotex.symm, hordered, ?_, ?_⟩
          · have hreceipts : forall id, receiptAt w' id = receiptAt s id := by
              intro id
              unfold receiptAt
              rw [hsecrets.only, hwrote]
              rfl
            have hreceiptsx : forall id, receiptAt x id = receiptAt w'' id := by
              intro id
              unfold receiptAt
              rw [hx]
            refine ⟨?_, ?_, ?_⟩
            · refine ⟨[{ cause := Cause.expire slice.id actor
                         now := clock.now
                         before := s.note
                         after := w.note }], ?_, ?_⟩
              · rw [hx]
                change w''.landed = _
                rw [hpruned.only, hsecrets.only, hwrote]
                rfl
              · intro entry hentry
                rw [List.mem_singleton.mp hentry]
                exact ⟨slice.id, actor, rfl⟩
            · intro id receipt hreceipt
              rw [hreceiptsx] at hreceipt
              rw [← hreceipts]
              exact hpruned.receipts id receipt hreceipt
            · intro other
              by_cases hother : other = slice.id
              · rw [hother]
                exact Or.inr ⟨slice, expiredSlice slice,
                  slicesAt_of_hasSlice hslice, hstale, hat, rfl⟩
              · refine Or.inl ⟨?_, ?_⟩
                · rw [hnotex]
                  exact slicesAt_replaceById_of_ne rfl (fun _ _ => rfl) hother
                · intro id hid
                  rw [hreceiptsx, hpruned.elsewhere id (by rw [hid]; exact hother),
                    hreceipts]
          · intro other hother
            rw [hat] at hother
            rw [List.mem_singleton.mp hother]
            exact isStale_of_claim_none rfl _

theorem safe_synchronizeExpiredClaimsForPlan
    (actor : String) (clock : Clock) (slices : List ThreadSlice) :
    Safe host
      (synchronizeExpiredClaimsForPlan host actor clock slices v.note
        v.journal)
      (Returns fun r v' => r.1 = v'.note ∧ r.2 = v'.journal ∧ Swept clock.now v v' ∧
        forall slice, slice ∈ slices -> isStale clock.now slice = true ->
          NoStale clock.now v'.note slice.id) v := by
  induction slices generalizing v with
  | nil =>
      apply returns_ok
      refine ⟨rfl, rfl, swept_of_same rfl rfl rfl, ?_⟩
      intro slice hslice
      cases hslice
  | cons slice rest ih =>
      unfold synchronizeExpiredClaimsForPlan
      split
      · refine safe_then
          (safe_expireStaleClaimForSlice actor slice.id clock) ?_
        rintro ⟨plan, ordered⟩ s ⟨hplan, hordered, hswept, hstale⟩
        simp only at hplan hordered ⊢
        rw [hplan, hordered]
        refine safe_weaken ih ?_
        rintro r s' ⟨hr, hr', hswept', hrest⟩
        refine ⟨hr, hr', swept_trans hswept hswept', ?_⟩
        intro other hother hotherStale
        rcases List.mem_cons.mp hother with rfl | hother
        · exact noStale_of_swept hswept' hstale
        · exact hrest other hother hotherStale
      · rename_i hfresh
        refine safe_weaken ih ?_
        rintro r s' ⟨hr, hr', hswept', hrest⟩
        refine ⟨hr, hr', hswept', ?_⟩
        intro other hother hotherStale
        rcases List.mem_cons.mp hother with rfl | hother
        · exact absurd hotherStale hfresh
        · exact hrest other hother hotherStale

end Thread
end Minni
