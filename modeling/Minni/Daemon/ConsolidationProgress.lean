import Mathlib
import Minni.Daemon.DurableWrites
import Minni.Daemon.Consolidation

/-!
# What the decisions do to the queue

Each decision of a batch writes on one candidate and takes it off the queue,
up to a duplicate whose replacement has gone.  No decision puts a candidate
back.
-/

namespace Minni
namespace Daemon

open Foundation
open Foundation.Db

/-!
## Off the queue
-/

/-- No selectable candidate has the id. -/
def OffQueue (cid : Nat) (s : Store) : Prop :=
  forall row, row ∈ s.candidates -> row.candidate_id = cid ->
    isSelectable s row = false

/-- `candidate_id` is the primary key. -/
def Keyed (s : Store) : Prop :=
  (s.candidates.map (·.candidate_id)).Nodup

def AgentsValid (host : Host) (s : Store) : Prop :=
  forall row, row ∈ s.candidates -> row.status = CandidateStatus.proposed ->
    agentIdError host row.owner = none

/-- An update that keeps the key, proposes nothing, and leaves the text and the
owner of what stays proposed. -/
structure Rewrites (f : Candidate -> Candidate) : Prop where
  id : forall row, (f row).candidate_id = row.candidate_id
  proposed : forall row, (f row).status = CandidateStatus.proposed ->
    row.status = CandidateStatus.proposed ∧
      (f row).content = row.content ∧ (f row).principal = row.principal

/-- A write that concerns one candidate only. -/
structure Touches (cid : Nat) (s s' : Store) : Prop where
  update : exists f, Rewrites f ∧
    (forall row, row.candidate_id ≠ cid -> f row = row) ∧
    s'.candidates = s.candidates.map f
  fences : forall other, other ≠ cid -> isFenced other s' = isFenced other s

/-- Any number of decisions. -/
structure Onward (s s' : Store) : Prop where
  update : exists f, Rewrites f ∧ s'.candidates = s.candidates.map f
  off : forall cid, OffQueue cid s -> OffQueue cid s'

theorem rewrites_id : Rewrites id where
  id := fun _ => rfl
  proposed := fun _ h => ⟨h, rfl, rfl⟩

theorem Rewrites.comp
    {f g : Candidate -> Candidate} (hf : Rewrites f) (hg : Rewrites g) :
    Rewrites (g ∘ f) where
  id := by
    intro row
    exact (hg.id (f row)).trans (hf.id row)
  proposed := by
    intro row h
    rcases hg.proposed (f row) h with ⟨hstatus, hcontent, hprincipal⟩
    rcases hf.proposed row hstatus with ⟨hstatus', hcontent', hprincipal'⟩
    exact ⟨hstatus', hcontent.trans hcontent', hprincipal.trans hprincipal'⟩

theorem rewrites_resolve
    {status : CandidateStatus} (hstatus : status ≠ CandidateStatus.proposed)
    (now : Nat) (resolved_by reason : String) :
    Rewrites (Candidate.resolve status now resolved_by reason) where
  id := fun _ => rfl
  proposed := fun _ h => absurd h hstatus

theorem rewrites_flag : Rewrites Candidate.flag where
  id := fun _ => rfl
  proposed := fun _ h => ⟨h, rfl, rfl⟩

namespace Touches

variable {cid : Nat} {s s' s'' : Store}

/-- A write to neither the candidates nor the actions. -/
theorem of_eq
    (hcandidates : s'.candidates = s.candidates)
    (hactions : s'.actions = s.actions) :
    Touches cid s s' where
  update := by
    refine ⟨id, rewrites_id, fun _ _ => rfl, ?_⟩
    rw [List.map_id, hcandidates]
  fences := by
    intro other _
    unfold isFenced
    rw [hactions]

theorem refl (cid : Nat) (s : Store) : Touches cid s s :=
  of_eq rfl rfl

theorem trans (h : Touches cid s s') (h' : Touches cid s' s'') :
    Touches cid s s'' where
  update := by
    rcases h.update with ⟨f, hf, hothers, hrows⟩
    rcases h'.update with ⟨g, hg, hothers', hrows'⟩
    refine ⟨g ∘ f, hf.comp hg, ?_, ?_⟩
    · intro row hne
      show g (f row) = row
      rw [hothers row hne]
      exact hothers' row hne
    · rw [hrows', hrows, List.map_map]
  fences := fun other hother =>
    (h'.fences other hother).trans (h.fences other hother)

theorem mem_iff
    (h : Touches cid s s') {row : Candidate} (hne : row.candidate_id ≠ cid) :
    row ∈ s'.candidates <-> row ∈ s.candidates := by
  rcases h.update with ⟨f, hf, hothers, hrows⟩
  rw [hrows]
  constructor
  · intro hrow
    rcases List.mem_map.mp hrow with ⟨old, hold, heq⟩
    have hold_ne : old.candidate_id ≠ cid := by
      rw [← hf.id old, heq]
      exact hne
    rw [← heq, hothers old hold_ne]
    exact hold
  · intro hrow
    exact List.mem_map.mpr ⟨row, hrow, hothers row hne⟩

theorem offQueue
    (h : Touches cid s s') {other : Nat} (hne : other ≠ cid)
    (hoff : OffQueue other s) : OffQueue other s' := by
  intro row hrow hid
  have hrow_ne : row.candidate_id ≠ cid := by
    rw [hid]
    exact hne
  have hbefore := hoff row ((h.mem_iff hrow_ne).mp hrow) hid
  unfold isSelectable at hbefore ⊢
  rw [h.fences _ hrow_ne]
  exact hbefore

/-- A decision that settles its candidate, or that writes nothing on it. -/
theorem onward
    (h : Touches cid s s')
    (hoff : OffQueue cid s -> OffQueue cid s') : Onward s s' where
  update := by
    rcases h.update with ⟨f, hf, _, hrows⟩
    exact ⟨f, hf, hrows⟩
  off := by
    intro other hother
    by_cases heq : other = cid
    · rw [heq] at hother ⊢
      exact hoff hother
    · exact h.offQueue heq hother

end Touches

namespace Onward

variable {s s' s'' : Store}

theorem refl (s : Store) : Onward s s where
  update := by
    refine ⟨id, rewrites_id, ?_⟩
    rw [List.map_id]
  off := fun _ h => h

theorem trans (h : Onward s s') (h' : Onward s' s'') : Onward s s'' where
  update := by
    rcases h.update with ⟨f, hf, hrows⟩
    rcases h'.update with ⟨g, hg, hrows'⟩
    refine ⟨g ∘ f, hf.comp hg, ?_⟩
    rw [hrows', hrows, List.map_map]
  off := fun cid hcid => h'.off cid (h.off cid hcid)

/-- Where a row that stays proposed comes from. -/
theorem row
    (h : Onward s s') {row : Candidate} (hrow : row ∈ s'.candidates)
    (hstatus : row.status = CandidateStatus.proposed) :
    exists old, old ∈ s.candidates ∧
      old.status = CandidateStatus.proposed ∧
      row.candidate_id = old.candidate_id ∧
      row.content = old.content ∧ row.principal = old.principal := by
  rcases h.update with ⟨f, hf, hrows⟩
  rw [hrows] at hrow
  rcases List.mem_map.mp hrow with ⟨old, hold, heq⟩
  rw [← heq] at hstatus ⊢
  rcases hf.proposed old hstatus with ⟨hproposed, hcontent, hprincipal⟩
  exact ⟨old, hold, hproposed, hf.id old, hcontent, hprincipal⟩

theorem keyed (h : Onward s s') (hkeyed : Keyed s) : Keyed s' := by
  rcases h.update with ⟨f, hf, hrows⟩
  have hids : s'.candidates.map (·.candidate_id) =
      s.candidates.map (·.candidate_id) := by
    rw [hrows, List.map_map]
    exact List.map_congr_left (fun row _ => hf.id row)
  unfold Keyed
  rw [hids]
  exact hkeyed

theorem agentsValid
    {host : Host} (h : Onward s s') (hvalid : AgentsValid host s) :
    AgentsValid host s' := by
  intro row hrow hstatus
  rcases h.row hrow hstatus with ⟨old, hold, hproposed, _, _, hprincipal⟩
  have howner : row.owner = old.owner := by
    unfold Candidate.owner
    rw [hprincipal]
  rw [howner]
  exact hvalid old hold hproposed

end Onward

/-!
## Rows of a keyed table
-/

section Rows

variable {cid : Nat} {s : Store} {row row' : Candidate}

theorem Keyed.eq
    (hkeyed : Keyed s) (hrow : row ∈ s.candidates)
    (hrow' : row' ∈ s.candidates)
    (hid : row.candidate_id = row'.candidate_id) : row = row' :=
  List.inj_on_of_nodup_map hkeyed hrow hrow' hid

theorem offQueue_of_status
    (h : forall row, row ∈ s.candidates -> row.candidate_id = cid ->
      row.status ≠ CandidateStatus.proposed) :
    OffQueue cid s := by
  intro row hrow hid
  simp [isSelectable, h row hrow hid]

theorem offQueue_of_fence (h : isFenced cid s = true) : OffQueue cid s := by
  intro row hrow hid
  simp [isSelectable, hid, h]

theorem proposedCandidate_spec
    (h : proposedCandidate cid s = some row) :
    s.findCandidate cid = some row ∧ row ∈ s.candidates ∧
      row.candidate_id = cid ∧ row.status = CandidateStatus.proposed := by
  rcases Option.filter_eq_some_iff.mp h with ⟨hfind, hstatus⟩
  rcases mem_of_findCandidate hfind with ⟨hrow, hid⟩
  exact ⟨hfind, hrow, hid, by simpa using hstatus⟩

/-- The row that a decision does not find to be proposed. -/
theorem offQueue_of_find
    (hkeyed : Keyed s)
    (h : forall row, s.findCandidate cid = some row ->
      row.status ≠ CandidateStatus.proposed) :
    OffQueue cid s := by
  apply offQueue_of_status
  intro row hrow hid
  cases hfind : s.findCandidate cid with
  | none =>
      have hnone := List.find?_eq_none.mp hfind row hrow
      simp [hid] at hnone
  | some found =>
      rcases mem_of_findCandidate hfind with ⟨hfound, hfound_id⟩
      rw [hkeyed.eq hrow hfound (hid.trans hfound_id.symm)]
      exact h found hfind

theorem offQueue_of_proposedCandidate
    (hkeyed : Keyed s) (h : proposedCandidate cid s = none) :
    OffQueue cid s := by
  apply offQueue_of_find hkeyed
  intro row hfind hstatus
  unfold proposedCandidate at h
  rw [hfind] at h
  simp [Option.filter, hstatus] at h

end Rows

/-!
## Statements on one candidate
-/

theorem touches_updateCandidate
    (cid : Nat) {f : Candidate -> Candidate} (hf : Rewrites f) (s : Store) :
    Touches cid s (s.updateCandidate cid f) where
  update := by
    refine ⟨fun row => if row.candidate_id = cid then f row else row,
      ?_, ?_, rfl⟩
    · constructor
      · intro row
        split
        · exact hf.id row
        · rfl
      · intro row
        split
        · exact hf.proposed row
        · intro hstatus
          exact ⟨hstatus, rfl, rfl⟩
    · intro row hne
      exact if_neg hne
  fences := fun _ _ => rfl

theorem isFenced_insertAction
    (cid : Nat) (action : ConsolidationAction) (s : Store) :
    isFenced cid (s.insertAction action) =
      (isFenced cid s || action.fences cid) := by
  show (s.actions ++ [action]).any _ = _
  rw [List.any_append]
  simp [isFenced]

theorem touches_insertAction
    {cid : Nat} {action : ConsolidationAction}
    (h : forall other, other ≠ cid -> action.fences other = false)
    (s : Store) :
    Touches cid s (s.insertAction action) where
  update := (Touches.refl cid s).update
  fences := by
    intro other hne
    rw [isFenced_insertAction, h other hne, Bool.or_false]

/-- A marker names its candidate. -/
theorem fences_of_claim
    {cid other : Nat} {action : ConsolidationAction}
    (hclaim : action.claim = toString cid) (hne : other ≠ cid) :
    action.fences other = false := by
  have hdiffer : action.claim ≠ toString other := by
    rw [hclaim]
    intro heq
    exact hne (Nat.repr_injective heq).symm
  unfold ConsolidationAction.fences
  rw [decide_eq_false hdiffer]
  simp only [Bool.and_false, Bool.false_and]

theorem isReviewOf_claim
    {cid : Nat} {action : ConsolidationAction}
    (h : action.isReviewOf cid = true) : action.claim = toString cid := by
  unfold ConsolidationAction.isReviewOf at h
  rw [Bool.and_eq_true, Bool.and_eq_true] at h
  exact of_decide_eq_true h.left.right

theorem isReviewOf_fences
    {cid : Nat} {action : ConsolidationAction}
    (h : action.isReviewOf cid = true) : action.fences cid = true := by
  unfold ConsolidationAction.isReviewOf at h
  rw [Bool.and_eq_true, Bool.and_eq_true] at h
  unfold ConsolidationAction.fences
  rw [h.left.left, h.left.right, h.right]
  simp only [Bool.true_or, Bool.and_self]

theorem isFenced_supersede
    {cid other : Nat} (hne : other ≠ cid) (s : Store) :
    isFenced other (supersedeAfmReview cid s) = isFenced other s := by
  show (s.actions.map _).any _ = s.actions.any _
  rw [List.any_map]
  refine List.any_congr rfl ?_
  intro action
  show ConsolidationAction.fences other (if action.isReviewOf cid then
    { action with status := some ActionStatus.superseded } else action) = _
  split
  · rename_i hreview
    have hclaim := isReviewOf_claim hreview
    rw [fences_of_claim hclaim hne]
    exact @fences_of_claim cid _ _ hclaim hne
  · rfl

theorem touches_supersede (cid : Nat) (s : Store) :
    Touches cid s (supersedeAfmReview cid s) where
  update := (Touches.refl cid s).update
  fences := fun _ hne => isFenced_supersede hne s

/-- The status of the candidate that a decision closed. -/
theorem status_resolve
    {cid now : Nat} {status : CandidateStatus} {resolved_by reason : String}
    {s : Store} {row : Candidate}
    (hrow : row ∈ (s.updateCandidate cid
      (Candidate.resolve status now resolved_by reason)).candidates)
    (hid : row.candidate_id = cid) : row.status = status := by
  rcases List.mem_map.mp hrow with ⟨old, hold, heq⟩
  split at heq
  · rw [← heq]
    rfl
  · rename_i hne
    rw [heq] at hne
    exact absurd hid hne

/-!
## Bodies
-/

/-- What a decision that settles its candidate has done. -/
structure Settles (cid : Nat) (s s' : Store) : Prop where
  touches : Touches cid s s'
  off : OffQueue cid s'

theorem Settles.onward {cid : Nat} {s s' : Store} (h : Settles cid s s') :
    Onward s s' :=
  h.touches.onward (fun _ => h.off)

/-- Nothing to settle. -/
theorem Settles.refl {cid : Nat} {s : Store} (h : OffQueue cid s) :
    Settles cid s s where
  touches := Touches.refl cid s
  off := h

/-- The two tables of the queue are as they were. -/
def SameQueue (s s' : Store) : Prop :=
  s'.candidates = s.candidates ∧ s'.actions = s.actions

theorem Settles.of_same
    {cid : Nat} {s s' s'' : Store} (h : Settles cid s s')
    (hsame : SameQueue s' s'') : Settles cid s s'' where
  touches := h.touches.trans (Touches.of_eq hsame.left hsame.right)
  off := by
    have hoff := h.off
    unfold OffQueue isSelectable isFenced at hoff ⊢
    rw [hsame.left, hsame.right]
    exact hoff

theorem Settles.after_same
    {cid : Nat} {s s' s'' : Store} (hsame : SameQueue s s')
    (h : Settles cid s' s'') : Settles cid s s'' where
  touches := (Touches.of_eq hsame.left hsame.right).trans h.touches
  off := h.off

section Bodies

variable {s w : Store}

theorem succeeds_addReview (cid : Nat) (detail : String) :
    Succeeds (addReview cid detail)
      (fun _ w' => Settles cid w w' ∧ w'.learnings = w.learnings) s w := by
  apply succeeds_bind
  apply succeeds_select
  cases hfenced : hasActiveReview cid w with
  | true =>
      apply succeeds_pure
      refine ⟨Settles.refl (offQueue_of_fence ?_), rfl⟩
      rcases List.any_eq_true.mp hfenced with ⟨action, haction, hreview⟩
      exact List.any_eq_true.mpr
        ⟨action, haction, isReviewOf_fences hreview⟩
  | false =>
      apply succeeds_bind
      apply succeeds_execute
      apply succeeds_pure
      refine ⟨⟨?_, ?_⟩, rfl⟩
      · apply touches_insertAction
        intro other hne
        exact @fences_of_claim cid _ _ rfl hne
      · apply offQueue_of_fence
        rw [isFenced_insertAction]
        simp [reviewAction, ConsolidationAction.fences]

theorem succeeds_closeCandidate
    (env : Env) (cid : Nat) {status : CandidateStatus}
    (hstatus : status ≠ CandidateStatus.proposed)
    (resolved_by reason : String) (type : ActionType) :
    Succeeds (closeCandidate env cid status resolved_by reason type)
      (fun _ w' => Settles cid w w' ∧ w'.learnings = w.learnings) s w := by
  apply succeeds_bind
  apply succeeds_execute
  apply succeeds_bind
  apply succeeds_execute
  apply succeeds_execute
  refine ⟨⟨?_, ?_⟩, rfl⟩
  · have hclosed := touches_updateCandidate cid
      (rewrites_resolve hstatus env.now resolved_by reason) w
    have hlifted := hclosed.trans (touches_supersede cid _)
    apply hlifted.trans
    apply touches_insertAction
    intro other hne
    exact @fences_of_claim cid _ _ rfl hne
  · apply offQueue_of_status
    intro row hrow hid
    have hresolved : row.status = status := status_resolve hrow hid
    rw [hresolved]
    exact hstatus

end Bodies

/-!
## Decisions

With the writes healthy, each decision settles its candidate; a duplicate
stays only while its replacement is missing.
-/

/-- No statement of a promotion raises. -/
structure Healthy (env : Env) : Prop where
  dedupIndex : env.dedupIndex = none
  insertLearning : env.insertLearning = none
  canonicalNode : env.canonicalNode = none

theorem rowMatchesSnapshot_found
    {cid : Nat} {s : Store} {row : Candidate}
    (hfind : s.findCandidate cid = some row)
    (hstatus : row.status = CandidateStatus.proposed) :
    rowMatchesSnapshot row s = true := by
  unfold rowMatchesSnapshot
  rw [(mem_of_findCandidate hfind).right, hfind]
  simp [hstatus]

theorem preparePromotion_proposed
    {host : Host} {verdict : Option Verdict} {cid : Nat} {s : Store}
    {row : Candidate} (hfind : s.findCandidate cid = some row)
    (hstatus : row.status = CandidateStatus.proposed) :
    preparePromotion host verdict (s.findCandidate cid) ≠
      Preparation.nothing := by
  rw [hfind]
  unfold preparePromotion
  dsimp only
  rw [if_neg (not_not_intro hstatus)]
  split
  · intro h
    cases h
  · split
    · intro h
      cases h
    · split
      · intro h
        cases h
      · intro h
        cases h

theorem preparePromotion_invalid
    {host : Host} {verdict : Option Verdict} {found : Option Candidate}
    (h : preparePromotion host verdict found = Preparation.invalidAgent) :
    exists row, found = some row ∧
      row.status = CandidateStatus.proposed ∧
      (agentIdError host row.owner).isSome = true := by
  cases found with
  | none => cases h
  | some row =>
      unfold preparePromotion at h
      grind

section Decisions

variable {host : Host} {env : Env} {cid : Nat} {s : Store}

theorem returns_dedupIndex (hnone : env.dedupIndex = none) :
    Returns (ensureDedupIndex host env)
      (fun r s' => r = Except.ok () ∧ SameQueue s s') s := by
  apply returns_bind
  unfold stepFails
  rw [hnone]
  apply returns_pure
  apply returns_bind
  apply returns_read
  dsimp only
  split
  · exact returns_pure ⟨rfl, rfl, rfl⟩
  · apply returns_committed
    apply succeeds_mono
    · apply succeeds_forEach (I := SameQueue s)
      · intro row _ w hw
        exact succeeds_execute hw
      · exact ⟨rfl, rfl⟩
    · intro _ w hw
      exact ⟨rfl, hw⟩

theorem returns_flagged
    {reason : String} {read : Candidate}
    (hfind : s.findCandidate cid = some read)
    (hstatus : read.status = CandidateStatus.proposed) :
    Returns (fenceFlagged reason read) (fun _ s' => Settles cid s s') s := by
  have hid := (mem_of_findCandidate hfind).right
  apply returns_committed
  apply succeeds_bind
  apply succeeds_select
  rw [rowMatchesSnapshot_found hfind hstatus]
  apply succeeds_bind
  apply succeeds_execute
  apply succeeds_bind
  apply succeeds_mono (succeeds_addReview _ _)
  intro _ w hw
  apply succeeds_pure
  rw [hid] at hw
  constructor
  · have hflag := touches_updateCandidate cid rewrites_flag s
    exact hflag.trans hw.left.touches
  · exact hw.left.off

theorem returns_refused
    {reason : String} {read : Candidate}
    (hfind : s.findCandidate cid = some read)
    (hstatus : read.status = CandidateStatus.proposed) :
    Returns (fenceRefused host reason read)
      (fun _ s' => Settles cid s s') s := by
  have hid := (mem_of_findCandidate hfind).right
  apply returns_committed
  apply succeeds_bind
  apply succeeds_select
  rw [rowMatchesSnapshot_found hfind hstatus]
  apply succeeds_bind
  apply succeeds_mono (succeeds_addReview _ _)
  intro _ w hw
  apply succeeds_pure
  rw [hid] at hw
  exact hw.left

/-- The write of a promotion that finds its row as it was read. -/
theorem succeeds_promoteBlock
    (hhealthy : Healthy env) {reason : String} {verdict : Option Verdict}
    {read : Candidate} (hid : read.candidate_id = cid)
    (hmatches : rowMatchesSnapshot read s = true) :
    Succeeds (promoteBlock host env reason verdict read)
      (fun _ w => Settles cid s w) s s := by
  apply succeeds_bind
  apply succeeds_select
  rw [hmatches]
  apply succeeds_bind
  apply succeeds_select
  apply succeeds_bind
  unfold stepFails
  rw [hhealthy.insertLearning]
  apply succeeds_pure
  apply succeeds_bind
  apply succeeds_insert
  apply succeeds_bind
  rw [hhealthy.canonicalNode]
  apply succeeds_pure
  apply succeeds_bind
  apply succeeds_execute
  apply succeeds_bind
  apply succeeds_execute
  apply succeeds_bind
  apply succeeds_execute
  apply succeeds_pure
  rw [hid]
  have hinserted : forall row, SameQueue s (s.insertLearning row).2 :=
    fun _ => ⟨rfl, rfl⟩
  have haccepted : CandidateStatus.accepted ≠ CandidateStatus.proposed := by
    decide
  apply Settles.after_same (hinserted _)
  constructor
  · apply Touches.trans (touches_updateCandidate cid
      (rewrites_resolve haccepted env.now (promotedBy verdict)
        (takeChars 500 reason)) _)
    apply Touches.trans (touches_supersede cid _)
    apply touches_insertAction
    intro other _
    rfl
  · apply offQueue_of_status
    intro row hrow hrow_id
    have hresolved : row.status = CandidateStatus.accepted :=
      status_resolve hrow hrow_id
    rw [hresolved]
    exact haccepted

theorem returns_settles_promote
    (hkeyed : Keyed s) (hvalid : AgentsValid host s) (hhealthy : Healthy env)
    (reason : String) (verdict : Option Verdict) :
    Returns (promoteCandidateDurable host env cid reason verdict)
      (fun _ s' => Settles cid s s') s := by
  apply returns_bind
  apply returns_read
  dsimp only
  cases hprepared : preparePromotion host verdict (s.findCandidate cid) with
  | nothing =>
      apply returns_pure
      apply Settles.refl
      apply offQueue_of_find hkeyed
      intro row hfind hstatus
      exact absurd hprepared (preparePromotion_proposed hfind hstatus)
  | invalidAgent =>
      rcases preparePromotion_invalid hprepared with
        ⟨row, hfind, hstatus, hinvalid⟩
      have hrow := (mem_of_findCandidate hfind).left
      rw [hvalid row hrow hstatus] at hinvalid
      cases hinvalid
  | flagged read =>
      rcases preparePromotion_row (Or.inl hprepared) with ⟨hfind, hstatus⟩
      apply returns_bind
      apply returns_mono (returns_flagged hfind hstatus)
      intro r s' hs'
      cases r with
      | ok _ => exact returns_pure hs'
      | error e => exact hs'
  | refused read =>
      rcases preparePromotion_row (Or.inr (Or.inl hprepared)) with
        ⟨hfind, hstatus⟩
      apply returns_bind
      apply returns_mono (returns_refused hfind hstatus)
      intro r s' hs'
      cases r with
      | ok _ => exact returns_pure hs'
      | error e => exact hs'
  | ready read =>
      rcases preparePromotion_row (Or.inr (Or.inr hprepared)) with
        ⟨hfind, hstatus⟩
      apply returns_bind
      apply returns_mono (returns_dedupIndex hhealthy.dedupIndex)
      intro r s₁ hindexed
      rcases hindexed with ⟨hr, hsame⟩
      rw [hr]
      apply returns_tryExcept
      apply returns_committed
      have hfind' : s₁.findCandidate cid = some read := by
        unfold Store.findCandidate
        rw [hsame.left]
        exact hfind
      apply succeeds_mono (succeeds_promoteBlock hhealthy
        (mem_of_findCandidate hfind).right
        (rowMatchesSnapshot_found hfind' hstatus))
      intro _ w hw
      exact Settles.after_same hsame hw

theorem returns_evictAfterPromotion (lid : Nat) :
    Returns (evictAfterPromotion host env lid)
      (fun _ s' => SameQueue s s') s := by
  apply returns_tryExcept
  apply returns_transaction
  · apply writes_bind
    apply writes_select
    cases s.findLearning lid with
    | none => exact writes_pure ⟨rfl, rfl⟩
    | some row =>
        apply writes_bind
        apply writes_bind
        apply writes_mayRaise
        apply writes_select
        apply writes_forEach (I := SameQueue s)
        · intro dup _ w hw
          apply writes_bind
          apply writes_select
          split
          · exact writes_pure hw
          · apply writes_bind
            apply writes_mayRaise
            exact writes_execute hw
        · exact ⟨rfl, rfl⟩
  · intro e
    exact returns_pure ⟨rfl, rfl⟩

theorem returns_applyPromotion
    {env : Nat -> Env} (hkeyed : Keyed s) (hvalid : AgentsValid host s)
    (hhealthy : Healthy (env cid)) (result : ConsolidationResult) :
    Returns (applyPromotion host env result cid)
      (fun _ s' => Settles cid s s') s := by
  apply returns_bind
  apply returns_mono (returns_settles_promote hkeyed hvalid hhealthy _ _)
  intro r s' hs'
  cases r with
  | error e => exact hs'
  | ok lid =>
      cases lid with
      | none => exact returns_pure hs'
      | some lid =>
          apply returns_bind
          apply returns_mono (returns_evictAfterPromotion lid)
          intro r s'' hsame
          cases r with
          | error e => exact hs'.of_same hsame
          | ok _ => exact returns_pure (hs'.of_same hsame)

end Decisions

/-!
## The decisions that keep the learnings
-/

/-- A proposed candidate whose text its owner has not learned. -/
def Vacant (host : Host) (cid : Nat) (s : Store) : Prop :=
  exists row, row ∈ s.candidates ∧ row.candidate_id = cid ∧
    row.status = CandidateStatus.proposed ∧
    hasActiveLearningHash host (host.content_hash row.content) row.owner s =
      false

def Resolved (host : Host) (cid : Nat) (s : Store) : Prop :=
  OffQueue cid s ∨ Vacant host cid s

structure Steady (host : Host) (s s' : Store) : Prop where
  onward : Onward s s'
  learnings : s'.learnings = s.learnings
  resolved : forall cid, Resolved host cid s -> Resolved host cid s'

theorem hasActiveLearningHash_congr
    {s s' : Store} (h : s'.learnings = s.learnings)
    (host : Host) (hash owner : String) :
    hasActiveLearningHash host hash owner s' =
      hasActiveLearningHash host hash owner s := by
  unfold hasActiveLearningHash findActiveLearningByHash
  rw [h]

namespace Steady

variable {host : Host} {s s' s'' : Store}

theorem refl (host : Host) (s : Store) : Steady host s s where
  onward := Onward.refl s
  learnings := rfl
  resolved := fun _ h => h

theorem trans (h : Steady host s s') (h' : Steady host s' s'') :
    Steady host s s'' where
  onward := h.onward.trans h'.onward
  learnings := h'.learnings.trans h.learnings
  resolved := fun cid hcid => h'.resolved cid (h.resolved cid hcid)

theorem of_settles
    {cid : Nat} (h : Settles cid s s')
    (hlearnings : s'.learnings = s.learnings) : Steady host s s' where
  onward := h.onward
  learnings := hlearnings
  resolved := by
    intro other hother
    by_cases heq : other = cid
    · rw [heq]
      exact Or.inl h.off
    · rcases hother with hoff | hvacant
      · exact Or.inl (h.touches.offQueue heq hoff)
      · rcases hvacant with ⟨row, hrow, hid, hstatus, hhash⟩
        have hne : row.candidate_id ≠ cid := by
          rw [hid]
          exact heq
        apply Or.inr
        refine ⟨row, (h.touches.mem_iff hne).mpr hrow, hid, hstatus, ?_⟩
        rw [hasActiveLearningHash_congr hlearnings]
        exact hhash

end Steady

section Closes

variable {host : Host} {cid : Nat} {s : Store}

theorem returns_rejectDedup (env : Env) (hkeyed : Keyed s) :
    Returns (rejectCandidateDedup host env cid)
      (fun _ s' => Steady host s s' ∧ Resolved host cid s') s := by
  apply returns_committed
  apply succeeds_bind
  apply succeeds_select
  cases hfind : proposedCandidate cid s with
  | none =>
      apply succeeds_pure
      exact ⟨Steady.refl host s,
        Or.inl (offQueue_of_proposedCandidate hkeyed hfind)⟩
  | some row =>
      apply succeeds_bind
      apply succeeds_select
      cases hreplaced : hasActiveLearningHash host
          (host.content_hash row.content) row.owner s with
      | true =>
          apply succeeds_bind
          apply succeeds_mono (succeeds_closeCandidate env cid (by decide)
            "afm-consolidation" "duplicate of existing learning"
            ActionType.afm_dedup)
          intro _ w hw
          apply succeeds_pure
          exact ⟨Steady.of_settles hw.left hw.right, Or.inl hw.left.off⟩
      | false =>
          rcases proposedCandidate_spec hfind with ⟨_, hrow, hid, hstatus⟩
          apply succeeds_pure
          exact ⟨Steady.refl host s,
            Or.inr ⟨row, hrow, hid, hstatus, hreplaced⟩⟩

theorem returns_settles_closeByJudge
    (env : Env) (hkeyed : Keyed s) {status : CandidateStatus}
    (hstatus : status ≠ CandidateStatus.proposed) (type : ActionType)
    (fallback : String) (verdict : Option Verdict) :
    Returns (closeByJudge env status type fallback cid verdict)
      (fun _ s' => Steady host s s' ∧ OffQueue cid s') s := by
  apply returns_committed
  apply succeeds_bind
  apply succeeds_select
  cases hfind : proposedCandidate cid s with
  | none =>
      apply succeeds_pure
      exact ⟨Steady.refl host s, offQueue_of_proposedCandidate hkeyed hfind⟩
  | some row =>
      apply succeeds_bind
      apply succeeds_mono (succeeds_closeCandidate env cid hstatus
        (verdictAuthor verdict) (verdictReason fallback verdict) type)
      intro _ w hw
      apply succeeds_pure
      exact ⟨Steady.of_settles hw.left hw.right, hw.left.off⟩

theorem returns_markReview (hkeyed : Keyed s) (reason : String) :
    Returns (markCandidateReview host cid reason)
      (fun _ s' => Steady host s s' ∧ OffQueue cid s') s := by
  apply returns_committed
  apply succeeds_bind
  apply succeeds_select
  cases hfind : proposedCandidate cid s with
  | none =>
      apply succeeds_pure
      exact ⟨Steady.refl host s, offQueue_of_proposedCandidate hkeyed hfind⟩
  | some row =>
      have hreview : forall w, Touches cid s w ->
          w.learnings = s.learnings ->
          Succeeds (addReview cid (takeChars 500 reason))
            (fun _ w' => Steady host s w' ∧ OffQueue cid w') s w := by
        intro w htouches hlearnings
        apply succeeds_mono (succeeds_addReview cid _)
        intro _ w' hw'
        have hsettles : Settles cid s w' :=
          ⟨htouches.trans hw'.left.touches, hw'.left.off⟩
        exact ⟨Steady.of_settles hsettles (hw'.right.trans hlearnings),
          hw'.left.off⟩
      apply succeeds_bind
      apply succeeds_whenever
      · intro _
        apply succeeds_execute
        exact hreview _ (touches_updateCandidate cid rewrites_flag s) rfl
      · intro _
        exact hreview s (Touches.refl cid s) rfl

end Closes

/-!
## Compacting
-/

def compactRow (now : Nat) (row : Candidate) : Candidate :=
  let stamped :=
    if row.status = CandidateStatus.expired then
      { row with resolved_at := some (row.resolved_at.getD now) }
    else row
  if stamped.compactable now then { stamped with content := "" } else stamped

theorem compactRow_status (now : Nat) (row : Candidate) :
    (compactRow now row).status = row.status := by
  unfold compactRow
  grind

theorem compactRow_proposed
    (now : Nat) {row : Candidate}
    (h : row.status = CandidateStatus.proposed) : compactRow now row = row := by
  unfold compactRow Candidate.compactable
  simp [h]

theorem rewrites_compactRow (now : Nat) : Rewrites (compactRow now) where
  id := by
    intro row
    unfold compactRow
    grind
  proposed := by
    intro row h
    rw [compactRow_status] at h
    rw [compactRow_proposed now h]
    exact ⟨h, rfl, rfl⟩

theorem expireAndCompact_candidates (now : Nat) (s : Store) :
    (expireAndCompact now s).candidates = s.candidates.map (compactRow now) :=
  rfl

theorem isFenced_foldl
    {cid : Nat} {cids : List Nat} (h : cid ∉ cids) (s : Store) :
    isFenced cid (cids.foldl (fun s other => supersedeAfmReview other s) s) =
      isFenced cid s := by
  induction cids generalizing s with
  | nil => rfl
  | cons other rest ih =>
      rw [List.mem_cons, not_or] at h
      show isFenced cid (rest.foldl _ (supersedeAfmReview other s)) = _
      rw [ih h.right, isFenced_supersede h.left]

/-- The markers of a proposed candidate stay. -/
theorem isFenced_expireAndCompact
    {now : Nat} {s : Store} (hkeyed : Keyed s) {row : Candidate}
    (hrow : row ∈ s.candidates)
    (hstatus : row.status = CandidateStatus.proposed) :
    isFenced row.candidate_id (expireAndCompact now s) =
      isFenced row.candidate_id s := by
  apply isFenced_foldl
  intro hmem
  rcases List.mem_map.mp hmem with ⟨other, hother, hid⟩
  rcases List.mem_filter.mp hother with ⟨hother_mem, hexpired⟩
  have heq := hkeyed.eq hother_mem hrow hid
  rw [heq, hstatus] at hexpired
  cases hexpired

theorem steady_expireAndCompact
    {host : Host} (now : Nat) {s : Store} (hkeyed : Keyed s) :
    Steady host s (expireAndCompact now s) := by
  have hlearnings : (expireAndCompact now s).learnings = s.learnings :=
    (supersedeAfmReview_foldl _ s).left
  have hoff : forall cid, OffQueue cid s ->
      OffQueue cid (expireAndCompact now s) := by
    intro cid hcid row hrow hid
    rw [expireAndCompact_candidates] at hrow
    rcases List.mem_map.mp hrow with ⟨old, hold, heq⟩
    cases hstatus : decide (row.status = CandidateStatus.proposed) with
    | false =>
        unfold isSelectable
        rw [hstatus, Bool.false_and]
    | true =>
        have hold_status : old.status = CandidateStatus.proposed := by
          rw [← compactRow_status now old, heq]
          exact of_decide_eq_true hstatus
        have hsame : row = old := by
          rw [← heq, compactRow_proposed now hold_status]
        rw [hsame] at hid ⊢
        have hbefore := hcid old hold hid
        unfold isSelectable at hbefore ⊢
        rw [isFenced_expireAndCompact hkeyed hold hold_status]
        exact hbefore
  constructor
  · exact ⟨⟨compactRow now, rewrites_compactRow now, rfl⟩, hoff⟩
  · exact hlearnings
  · intro cid hcid
    rcases hcid with hcid | hcid
    · exact Or.inl (hoff cid hcid)
    · rcases hcid with ⟨row, hrow, hid, hstatus, hhash⟩
      apply Or.inr
      refine ⟨row, ?_, hid, hstatus, ?_⟩
      · rw [expireAndCompact_candidates]
        exact List.mem_map.mpr ⟨row, hrow, compactRow_proposed now hstatus⟩
      · rw [hasActiveLearningHash_congr hlearnings]
        exact hhash

/-!
## Applying
-/

/-- What is left of the pass, once a candidate is decided and counted. -/
theorem returns_applyRest
    {decide_ : Nat -> Governance Bool}
    {Step : Store -> Store -> Prop} {Done : Nat -> Store -> Prop}
    (htrans : forall s s' s'', Step s s' -> Step s' s'' -> Step s s'')
    (hdone : forall cid s s', Step s s' -> Done cid s -> Done cid s')
    {cid : Nat} {rest : List Nat} {s s₁ : Store}
    (hrest : Returns (applyEach decide_ rest)
      (fun r s' => (exists counts, r = Except.ok counts) ∧ Step s₁ s' ∧
        forall other, other ∈ rest -> Done other s') s₁)
    (landed : Option Bool) (hstep : Step s s₁) (hcid : Done cid s₁) :
    Returns (applyEach decide_ rest >>= fun counts =>
      match landed with
      | none => pure (counts.1, counts.2 + 1)
      | some true => pure (counts.1 + 1, counts.2)
      | some false => pure counts)
      (fun r s' => (exists counts, r = Except.ok counts) ∧ Step s s' ∧
        forall other, other ∈ cid :: rest -> Done other s') s₁ := by
  apply returns_bind
  apply returns_mono hrest
  intro r s' hs'
  rcases hs' with ⟨⟨counts, hr⟩, hlater, hothers⟩
  have hall : forall other, other ∈ cid :: rest -> Done other s' := by
    intro other hother
    rcases List.mem_cons.mp hother with heq | hmem
    · rw [heq]
      exact hdone cid s₁ s' hlater hcid
    · exact hothers other hmem
  rw [hr]
  dsimp only
  split
  · exact returns_pure ⟨⟨_, rfl⟩, htrans s s₁ s' hstep hlater, hall⟩
  · exact returns_pure ⟨⟨_, rfl⟩, htrans s s₁ s' hstep hlater, hall⟩
  · exact returns_pure ⟨⟨_, rfl⟩, htrans s s₁ s' hstep hlater, hall⟩

/-- One decision after the other: what each has done is kept by the others. -/
theorem returns_applyEach
    {decide_ : Nat -> Governance Bool} {I : Store -> Prop}
    {Step : Store -> Store -> Prop} {Done : Nat -> Store -> Prop}
    (hrefl : forall s, Step s s)
    (htrans : forall s s' s'', Step s s' -> Step s' s'' -> Step s s'')
    (hinv : forall s s', Step s s' -> I s -> I s')
    (hdone : forall cid s s', Step s s' -> Done cid s -> Done cid s')
    {cids : List Nat}
    (h : forall cid, cid ∈ cids -> forall s, I s ->
      Returns (decide_ cid) (fun _ s' => Step s s' ∧ Done cid s') s)
    {s : Store} (hs : I s) :
    Returns (applyEach decide_ cids)
      (fun r s' => (exists counts, r = Except.ok counts) ∧ Step s s' ∧
        forall cid, cid ∈ cids -> Done cid s') s := by
  induction cids generalizing s with
  | nil =>
      apply returns_pure
      refine ⟨⟨_, rfl⟩, hrefl s, ?_⟩
      intro cid hcid
      cases hcid
  | cons cid rest ih =>
      apply returns_bind
      apply returns_tryExcept
      apply returns_bind
      apply returns_mono (h cid (List.mem_cons_self ..) s hs)
      intro r s₁ hs₁
      have hrest := ih (fun other hother =>
        h other (List.mem_cons_of_mem _ hother)) (hinv s s₁ hs₁.left hs)
      cases r with
      | ok landed =>
          exact returns_pure (returns_applyRest htrans hdone hrest _
            hs₁.left hs₁.right)
      | error e =>
          exact returns_pure (returns_applyRest htrans hdone hrest none
            hs₁.left hs₁.right)

/-- What applying a result has done to the queue. -/
structure AppliedTo (host : Host) (result : ConsolidationResult)
    (s s' : Store) : Prop where
  onward : Onward s s'
  promoted : forall cid, cid ∈ result.promote_candidate_ids ->
    OffQueue cid s'
  deduped : forall cid, cid ∈ result.dedup_candidate_ids ->
    Resolved host cid s'
  rejected : forall cid, cid ∈ result.reject_candidate_ids -> OffQueue cid s'
  redacted : forall cid, cid ∈ result.redact_candidate_ids -> OffQueue cid s'
  reviewed : forall cid, cid ∈ result.review_candidate_ids -> OffQueue cid s'
  learnings : result.promote_candidate_ids = [] -> s'.learnings = s.learnings

section Applying

variable {host : Host} {env : Nat -> Env} {s : Store}

theorem returns_promotions
    (hhealthy : forall cid, Healthy (env cid)) (hkeyed : Keyed s)
    (hvalid : AgentsValid host s) (result : ConsolidationResult)
    (cids : List Nat) :
    Returns (applyEach (applyPromotion host env result) cids)
      (fun r s' => (exists counts, r = Except.ok counts) ∧ Onward s s' ∧
        forall cid, cid ∈ cids -> OffQueue cid s') s := by
  apply returns_applyEach
    (I := fun s => Keyed s ∧ AgentsValid host s)
  · exact Onward.refl
  · intro _ _ _ h h'
    exact h.trans h'
  · intro _ _ h hI
    exact ⟨h.keyed hI.left, h.agentsValid hI.right⟩
  · intro cid _ _ h hoff
    exact h.off cid hoff
  · intro cid _ s hI
    apply returns_mono
      (returns_applyPromotion hI.left hI.right (hhealthy cid) result)
    intro _ s' hs'
    exact ⟨hs'.onward, hs'.off⟩
  · exact ⟨hkeyed, hvalid⟩

theorem applyEach_nil (decide_ : Nat -> Governance Bool) :
    Returns (applyEach decide_ []) (fun _ s' => s' = s) s :=
  returns_pure rfl

/-- A phase that keeps the learnings. -/
theorem returns_steadyEach
    {decide_ : Nat -> Governance Bool} {Done : Nat -> Store -> Prop}
    (hdone : forall cid s s', Steady host s s' -> Done cid s -> Done cid s')
    {cids : List Nat}
    (h : forall cid s, Keyed s ->
      Returns (decide_ cid) (fun _ s' => Steady host s s' ∧ Done cid s') s)
    (hkeyed : Keyed s) :
    Returns (applyEach decide_ cids)
      (fun r s' => (exists counts, r = Except.ok counts) ∧ Steady host s s' ∧
        forall cid, cid ∈ cids -> Done cid s') s := by
  apply returns_applyEach (I := Keyed)
  · exact Steady.refl host
  · intro _ _ _ h h'
    exact h.trans h'
  · intro _ _ h hI
    exact h.onward.keyed hI
  · exact hdone
  · intro cid _ s hI
    exact h cid s hI
  · exact hkeyed

theorem returns_applied
    (hhealthy : forall cid, Healthy (env cid)) (hkeyed : Keyed s)
    (hvalid : AgentsValid host s) (now : Nat) (result : ConsolidationResult) :
    Returns (applyConsolidationResult host env now result)
      (fun r s' => (exists applied, r = Except.ok applied) ∧
        AppliedTo host result s s') s := by
  have hoff : forall cid s s', Steady host s s' -> OffQueue cid s ->
      OffQueue cid s' :=
    fun cid _ _ h hcid => h.onward.off cid hcid
  apply returns_bind
  have hphase := returns_promotions hhealthy hkeyed hvalid result
    result.promote_candidate_ids
  have hphase_learnings : Returns
      (applyEach (applyPromotion host env result)
        result.promote_candidate_ids)
      (fun _ s' => result.promote_candidate_ids = [] ->
        s'.learnings = s.learnings) s := by
    cases result.promote_candidate_ids with
    | nil =>
        apply returns_mono (applyEach_nil _)
        intro _ s' hs' _
        rw [hs']
    | cons cid rest =>
        apply returns_mono
          (returns_promotions hhealthy hkeyed hvalid result (cid :: rest))
        intro _ s' _ hnil
        cases hnil
  apply returns_mono (returns_both hphase hphase_learnings)
  intro r s₁ h₁
  rcases h₁ with ⟨⟨⟨promoted, hr⟩, honward, hpromoted⟩, hlearnings⟩
  have hkeyed₁ := honward.keyed hkeyed
  rw [hr]
  apply returns_bind
  apply returns_mono (@returns_steadyEach _ _ _ (Resolved host)
    (fun cid _ _ h hcid => h.resolved cid hcid) _
    (fun cid s hs => returns_rejectDedup (env cid) hs) hkeyed₁)
  intro r s₂ h₂
  rcases h₂ with ⟨⟨deduped, hr⟩, hsteady₂, hdeduped⟩
  have hkeyed₂ := hsteady₂.onward.keyed hkeyed₁
  rw [hr]
  apply returns_bind
  apply returns_mono (@returns_steadyEach _ _ _ OffQueue hoff _
    (fun cid s hs => returns_settles_closeByJudge (env cid) hs (by decide) _ _
      (result.verdict cid)) hkeyed₂)
  intro r s₃ h₃
  rcases h₃ with ⟨⟨rejected, hr⟩, hsteady₃, hrejected⟩
  have hkeyed₃ := hsteady₃.onward.keyed hkeyed₂
  rw [hr]
  apply returns_bind
  apply returns_mono (@returns_steadyEach _ _ _ OffQueue hoff _
    (fun cid s hs => returns_settles_closeByJudge (env cid) hs (by decide) _ _
      (result.verdict cid)) hkeyed₃)
  intro r s₄ h₄
  rcases h₄ with ⟨⟨redacted, hr⟩, hsteady₄, hredacted⟩
  have hkeyed₄ := hsteady₄.onward.keyed hkeyed₃
  rw [hr]
  apply returns_bind
  apply returns_mono (@returns_steadyEach _ _ _ OffQueue hoff _
    (fun cid s hs => returns_markReview hs _) hkeyed₄)
  intro r s₅ h₅
  rcases h₅ with ⟨⟨reviewed, hr⟩, hsteady₅, hreviewed⟩
  have hkeyed₅ := hsteady₅.onward.keyed hkeyed₄
  have hsteady₆ := @steady_expireAndCompact host now _ hkeyed₅
  rw [hr]
  apply returns_bind
  apply returns_tryExcept
  apply returns_committed
  apply succeeds_execute
  apply returns_bind
  apply returns_read
  apply returns_pure
  have hfrom₄ := hsteady₅.trans hsteady₆
  have hfrom₃ := hsteady₄.trans hfrom₄
  have hfrom₂ := hsteady₃.trans hfrom₃
  have hfrom₁ := hsteady₂.trans hfrom₂
  refine ⟨⟨_, rfl⟩, ?_⟩
  constructor
  · exact honward.trans hfrom₁.onward
  · intro cid hcid
    exact hfrom₁.onward.off cid (hpromoted cid hcid)
  · intro cid hcid
    exact hfrom₂.resolved cid (hdeduped cid hcid)
  · intro cid hcid
    exact hfrom₃.onward.off cid (hrejected cid hcid)
  · intro cid hcid
    exact hfrom₄.onward.off cid (hredacted cid hcid)
  · intro cid hcid
    exact hsteady₆.onward.off cid (hreviewed cid hcid)
  · intro hnil
    exact hfrom₁.learnings.trans (hlearnings hnil)

end Applying

end Daemon
end Minni
