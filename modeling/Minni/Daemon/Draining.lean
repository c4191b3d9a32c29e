import Minni.Daemon.ConsolidationProgress

/-!
# Draining the queue

Every candidate that a pass examines gets exactly one answer, so a batch that
is applied leaves behind what it deferred and the duplicates whose replacement
was evicted meanwhile.  A drain that goes on has therefore shortened the
queue, and it ends.
-/

namespace Minni
namespace Daemon

open Foundation
open Foundation.Db

/-!
## What a pass answers
-/

/-- The answer on one candidate. -/
inductive Decides (host : Host) (s : Store) (row : Candidate) (t : Triage) :
    Triage -> Prop where
  | promote (key : String × String) :
      Decides host s row t (t.promote row.candidate_id key)
  | review : Decides host s row t (t.review row.candidate_id)
  | reject : Decides host s row t (t.reject row.candidate_id)
  | redact : Decides host s row t (t.redact row.candidate_id)
  | defer : Decides host s row t (t.defer row.candidate_id)
  | dedup
      (h : t.seen.contains (row.owner, host.content_hash row.content) = true ∨
        hasActiveLearningHash host (host.content_hash row.content) row.owner s
          = true) :
      Decides host s row t (t.dedup row.candidate_id)

theorem judgeRow_decides
    {host : Host} {s : Store} {row : Candidate} (config : PassConfig)
    (verdict : Verdict) (key : String × String) (t : Triage) :
    Decides host s row t (judgeRow config verdict key t row.candidate_id) := by
  unfold judgeRow
  cases verdict.decision with
  | accept =>
      dsimp only
      split
      · exact Decides.promote key
      · exact Decides.review
  | reject => exact Decides.reject
  | redact => exact Decides.redact
  | inconclusive => exact Decides.review

theorem triageRow_decides
    (host : Host) (config : PassConfig) (judge : Candidate -> Verdict)
    (s : Store) (t : Triage) (row : Candidate) :
    Decides host s row t (triageRow host config judge s t row) ∨
    Decides host s row (t.judged row.candidate_id (judge row))
      (triageRow host config judge s t row) := by
  unfold triageRow
  dsimp only
  split
  · exact Or.inl Decides.review
  · split
    · rename_i hdup
      rw [Bool.or_eq_true] at hdup
      exact Or.inl (Decides.dedup hdup)
    · split
      · exact Or.inl Decides.review
      · split
        · exact Or.inl Decides.review
        · split
          · exact Or.inl Decides.review
          · split
            · exact Or.inl Decides.reject
            · split
              · exact Or.inl (Decides.promote _)
              · split
                · exact Or.inl Decides.review
                · split
                  · exact Or.inl Decides.review
                  · split
                    · exact Or.inl Decides.defer
                    · exact Or.inr (judgeRow_decides config _ _ _)

/-- The decisions of a result. -/
def ConsolidationResult.decides (result : ConsolidationResult) (cid : Nat) :
    Prop :=
  cid ∈ result.promote_candidate_ids ∨ cid ∈ result.dedup_candidate_ids ∨
    cid ∈ result.review_candidate_ids ∨ cid ∈ result.reject_candidate_ids ∨
    cid ∈ result.redact_candidate_ids

/-- What holds of the answers after some of the rows.  Before anything is
promoted, a duplicate repeats a learning of the store itself. -/
structure Answers (host : Host) (s : Store) (rows : List Candidate)
    (t : Triage) : Prop where
  covered : forall row, row ∈ rows ->
    t.result.decides row.candidate_id ∨ row.candidate_id ∈ t.deferredBudget
  promoted : forall cid, cid ∈ t.result.promote_candidate_ids ->
    exists row, row ∈ rows ∧ row.candidate_id = cid
  seen : t.result.promote_candidate_ids = [] -> t.seen = []
  deduped : t.result.promote_candidate_ids = [] ->
    forall cid, cid ∈ t.result.dedup_candidate_ids ->
      exists row, row ∈ rows ∧ row.candidate_id = cid ∧
        hasActiveLearningHash host (host.content_hash row.content) row.owner s
          = true

namespace Answers

variable {host : Host} {s : Store} {rows : List Candidate} {t : Triage}

theorem judged (h : Answers host s rows t) (cid : Nat) (verdict : Verdict) :
    Answers host s rows (t.judged cid verdict) where
  covered := h.covered
  promoted := h.promoted
  seen := h.seen
  deduped := h.deduped

/-- The rows so far keep their answers when a list grows. -/
theorem covered_append
    {t' : Triage} {row : Candidate} (h : Answers host s rows t)
    (hmono : forall cid, t.result.decides cid ∨ cid ∈ t.deferredBudget ->
      t'.result.decides cid ∨ cid ∈ t'.deferredBudget)
    (hrow : t'.result.decides row.candidate_id ∨
      row.candidate_id ∈ t'.deferredBudget) :
    forall other, other ∈ rows ++ [row] ->
      t'.result.decides other.candidate_id ∨
        other.candidate_id ∈ t'.deferredBudget := by
  intro other hother
  rcases List.mem_append.mp hother with hmem | hlast
  · exact hmono _ (h.covered other hmem)
  · rw [List.mem_singleton.mp hlast]
    exact hrow

theorem promoted_append
    (h : Answers host s rows t) (row : Candidate) :
    forall cid, cid ∈ t.result.promote_candidate_ids ->
      exists other, other ∈ rows ++ [row] ∧ other.candidate_id = cid := by
  intro cid hcid
  rcases h.promoted cid hcid with ⟨other, hother, hid⟩
  exact ⟨other, List.mem_append.mpr (Or.inl hother), hid⟩

theorem deduped_append
    (h : Answers host s rows t) (row : Candidate) :
    t.result.promote_candidate_ids = [] ->
    forall cid, cid ∈ t.result.dedup_candidate_ids ->
      exists other, other ∈ rows ++ [row] ∧ other.candidate_id = cid ∧
        hasActiveLearningHash host (host.content_hash other.content)
          other.owner s = true := by
  intro hnil cid hcid
  rcases h.deduped hnil cid hcid with ⟨other, hother, hid, hhash⟩
  exact ⟨other, List.mem_append.mpr (Or.inl hother), hid, hhash⟩

theorem decides
    {row : Candidate} {t' : Triage} (h : Answers host s rows t)
    (hdecides : Decides host s row t t') :
    Answers host s (rows ++ [row]) t' := by
  cases hdecides with
  | promote key =>
      constructor
      · apply h.covered_append
        · intro cid hcid
          simp only [Triage.promote, ConsolidationResult.decides,
            List.mem_append] at hcid ⊢
          tauto
        · simp [Triage.promote, ConsolidationResult.decides]
      · intro cid hcid
        rcases List.mem_append.mp hcid with hmem | hlast
        · exact h.promoted_append row cid hmem
        · rw [List.mem_singleton.mp hlast]
          exact ⟨row, List.mem_append.mpr (Or.inr (List.mem_singleton_self _)),
            rfl⟩
      · intro hnil
        simp [Triage.promote] at hnil
      · intro hnil
        simp [Triage.promote] at hnil
  | review =>
      constructor
      · apply h.covered_append
        · intro cid hcid
          simp only [Triage.review, ConsolidationResult.decides,
            List.mem_append] at hcid ⊢
          tauto
        · simp [Triage.review, ConsolidationResult.decides]
      · exact h.promoted_append row
      · exact h.seen
      · exact h.deduped_append row
  | reject =>
      constructor
      · apply h.covered_append
        · intro cid hcid
          simp only [Triage.reject, ConsolidationResult.decides,
            List.mem_append] at hcid ⊢
          tauto
        · simp [Triage.reject, ConsolidationResult.decides]
      · exact h.promoted_append row
      · exact h.seen
      · exact h.deduped_append row
  | redact =>
      constructor
      · apply h.covered_append
        · intro cid hcid
          simp only [Triage.redact, ConsolidationResult.decides,
            List.mem_append] at hcid ⊢
          tauto
        · simp [Triage.redact, ConsolidationResult.decides]
      · exact h.promoted_append row
      · exact h.seen
      · exact h.deduped_append row
  | defer =>
      constructor
      · apply h.covered_append
        · intro cid hcid
          simp only [Triage.defer, List.mem_append] at hcid ⊢
          tauto
        · simp [Triage.defer]
      · exact h.promoted_append row
      · exact h.seen
      · exact h.deduped_append row
  | dedup hcause =>
      constructor
      · apply h.covered_append
        · intro cid hcid
          simp only [Triage.dedup, ConsolidationResult.decides,
            List.mem_append] at hcid ⊢
          tauto
        · simp [Triage.dedup, ConsolidationResult.decides]
      · exact h.promoted_append row
      · exact h.seen
      · intro hnil cid hcid
        rcases List.mem_append.mp hcid with hmem | hlast
        · exact h.deduped_append row hnil cid hmem
        · have hseen : t.seen = [] := h.seen hnil
          rw [hseen] at hcause
          rcases hcause with hcontains | hhash
          · cases hcontains
          · rw [List.mem_singleton.mp hlast]
            exact ⟨row,
              List.mem_append.mpr (Or.inr (List.mem_singleton_self _)), rfl,
              hhash⟩

end Answers

theorem answers_foldl
    (host : Host) (config : PassConfig) (judge : Candidate -> Verdict)
    (s : Store) (rows : List Candidate) :
    forall (before : List Candidate) (t : Triage),
      Answers host s before t ->
      Answers host s (before ++ rows)
        (rows.foldl (triageRow host config judge s) t) := by
  induction rows with
  | nil =>
      intro before t h
      rw [List.append_nil]
      exact h
  | cons row rest ih =>
      intro before t h
      have hstep : Answers host s (before ++ [row])
          (triageRow host config judge s t row) := by
        rcases triageRow_decides host config judge s t row with hrow | hrow
        · exact h.decides hrow
        · exact (h.judged _ _).decides hrow
      have hrest := ih (before ++ [row]) _ hstep
      rw [List.append_assoc] at hrest
      exact hrest

theorem answers_triage
    (host : Host) (config : PassConfig) (judge : Candidate -> Verdict)
    (s : Store) (rows : List Candidate) :
    Answers host s rows (triage host config judge s rows) := by
  apply answers_foldl host config judge s rows []
  constructor
  · intro row hrow
    cases hrow
  · intro cid hcid
    cases hcid
  · intro _
    rfl
  · intro _ cid hcid
    cases hcid

/-!
## A batch
-/

/-- Nothing raises around a batch, and its drafts are written. -/
structure BatchEnv.Completes (env : BatchEnv) : Prop where
  pass : env.pass.dedupIndex = none
  writes : forall cid, Healthy (env.write cid)
  drafts : env.draftFailure = none

/-- The batch gives the result to the apply step, or there is nothing to
apply. -/
def ConsolidationResult.Handed (result : ConsolidationResult) : Prop :=
  result.applies = true ∨
    (result.reject_candidate_ids = [] ∧ result.redact_candidate_ids = [])

/-- What the pass makes of the store that it has compacted. -/
def passOf (host : Host) (config : PassConfig) (env : BatchEnv) (s : Store) :
    PassResult where
  total := totalProposed s
  candidates := proposedCandidates config.max_per_run s
  triage := triage host config env.judge s
    (proposedCandidates config.max_per_run s)

section Batch

variable {host : Host} {config : PassConfig} {env : BatchEnv} {s : Store}

theorem SameQueue.onward {s s' : Store} (h : SameQueue s s') : Onward s s' where
  update := ⟨id, rewrites_id, by rw [List.map_id, h.left]⟩
  off := by
    intro cid hoff
    unfold OffQueue isSelectable isFenced at hoff ⊢
    rw [h.left, h.right]
    exact hoff

theorem returns_runPass (hcompletes : env.Completes) (hkeyed : Keyed s) :
    Returns (runPass host config env)
      (fun r s' => Onward s s' ∧
        r = Except.ok (passOf host config env s')) s := by
  apply returns_bind
  apply returns_mono (returns_dedupIndex hcompletes.pass)
  intro r s₁ h₁
  have honward := h₁.right.onward
  have hcompacted := (@steady_expireAndCompact host env.now _
    (honward.keyed hkeyed)).onward
  rw [h₁.left]
  apply returns_bind
  apply returns_committed
  apply succeeds_execute
  apply returns_bind
  apply returns_read
  apply returns_bind
  apply returns_read
  apply returns_bind
  apply returns_read
  apply returns_pure
  exact ⟨honward.trans hcompacted, rfl⟩

/-- Nothing to apply. -/
theorem appliedTo_nothing
    {result : ConsolidationResult} (happlies : result.applies = false)
    (hhanded : result.Handed) (s : Store) : AppliedTo host result s s := by
  have hnone : result.promote_candidate_ids = [] ∧
      result.dedup_candidate_ids = [] ∧ result.review_candidate_ids = [] := by
    unfold ConsolidationResult.applies at happlies
    simpa [and_assoc] using happlies
  rcases hhanded with happlied | ⟨hreject, hredact⟩
  · rw [happlies] at happlied
    cases happlied
  · constructor
    · exact Onward.refl s
    · rw [hnone.left]
      intro cid hcid
      cases hcid
    · rw [hnone.right.left]
      intro cid hcid
      cases hcid
    · rw [hreject]
      intro cid hcid
      cases hcid
    · rw [hredact]
      intro cid hcid
      cases hcid
    · rw [hnone.right.right]
      intro cid hcid
      cases hcid
    · intro _
      rfl

/-- A batch, by the store on which its pass decides. -/
def Batched (host : Host) (config : PassConfig) (env : BatchEnv) (s : Store)
    (r : Except DbError BatchReport) (s' : Store) : Prop :=
  exists s₁, Onward s s₁ ∧
    (runPass host config env (Connection.idle s)).1 =
      Except.ok (passOf host config env s₁) ∧
    r = Except.ok ((passOf host config env s₁).report none) ∧
    ((passOf host config env s₁).triage.result.Handed ->
      AppliedTo host (passOf host config env s₁).triage.result s₁ s')

theorem returns_compileBatch
    (hcompletes : env.Completes) (hkeyed : Keyed s)
    (hvalid : AgentsValid host s) :
    Returns (compileBatch host config env) (Batched host config env s) s := by
  apply returns_bind
  apply returns_mono (returns_runPass hcompletes hkeyed).self
  intro r s₁ h₁
  rcases h₁ with ⟨⟨honward, hr⟩, hself⟩
  have hpass : (runPass host config env (Connection.idle s)).1 =
      Except.ok (passOf host config env s₁) := hself.symm.trans hr
  rw [hr]
  have hdraft : draftFailure env (passOf host config env s₁).triage.result =
      none := by
    unfold draftFailure
    rw [hcompletes.drafts]
    split
    · rfl
    · rfl
  dsimp only
  rw [hdraft]
  cases happlies : (passOf host config env s₁).triage.result.applies with
  | false =>
      apply returns_pure
      refine ⟨s₁, honward, hpass, rfl, ?_⟩
      intro hhanded
      exact appliedTo_nothing happlies hhanded s₁
  | true =>
      apply returns_bind
      apply returns_mono (returns_applied hcompletes.writes
        (honward.keyed hkeyed) (honward.agentsValid hvalid) env.now _)
      intro r s' hs'
      rcases hs' with ⟨⟨applied, hr⟩, happlied⟩
      rw [hr]
      apply returns_pure
      exact ⟨s₁, honward, hpass, rfl, fun _ => happlied⟩

theorem batch_batched
    (hcompletes : env.Completes) (hkeyed : Keyed s)
    (hvalid : AgentsValid host s) :
    Batched host config env s (batch host config env s).1
      (batch host config env s).2 :=
  (returns_compileBatch hcompletes hkeyed hvalid).result

/-!
### The answer reaches the queue
-/

theorem mem_proposedCandidates
    {limit : Nat} {row : Candidate} (h : row ∈ proposedCandidates limit s) :
    row ∈ s.candidates ∧ isSelectable s row = true := by
  have hsorted := List.mem_of_mem_take h
  exact List.mem_filter.mp ((List.mem_insertionSort earlierFirst).mp hsorted)

theorem isSelectable_proposed
    {row : Candidate} (h : isSelectable s row = true) :
    row.status = CandidateStatus.proposed := by
  unfold isSelectable at h
  rw [Bool.and_eq_true] at h
  exact of_decide_eq_true h.left

theorem not_offQueue
    {row : Candidate} (hrow : row ∈ s.candidates)
    (hselectable : isSelectable s row = true) :
    ¬ OffQueue row.candidate_id s := by
  intro hoff
  have hfalse := hoff row hrow rfl
  rw [hselectable] at hfalse
  cases hfalse

/-- A row of the queue later on was one before, with its text. -/
theorem Onward.queued
    {s' : Store} (h : Onward s s') (hkeyed : Keyed s) {row : Candidate}
    (hrow : row ∈ s'.candidates) (hselectable : isSelectable s' row = true) :
    exists old, old ∈ s.candidates ∧ isSelectable s old = true ∧
      row.candidate_id = old.candidate_id ∧ row.content = old.content ∧
      row.owner = old.owner := by
  rcases h.row hrow (isSelectable_proposed hselectable) with
    ⟨old, hold, hstatus, hid, hcontent, hprincipal⟩
  have howner : row.owner = old.owner := by
    unfold Candidate.owner
    rw [hprincipal]
  cases hbefore : isSelectable s old with
  | true => exact ⟨old, hold, hbefore, hid, hcontent, howner⟩
  | false =>
      have hoff : OffQueue old.candidate_id s := by
        intro other hother hsame
        rw [hkeyed.eq hother hold hsame]
        exact hbefore
      have hlater := h.off _ hoff
      rw [← hid] at hlater
      exact absurd hlater (not_offQueue hrow hselectable)

/-- A duplicate that stays: a promotion of the same batch has cost it the
learning that it repeats. -/
def ReplacementGone (host : Host) (result : ConsolidationResult)
    (row : Candidate) (s' : Store) : Prop :=
  row.candidate_id ∈ result.dedup_candidate_ids ∧
    result.promote_candidate_ids ≠ [] ∧
    hasActiveLearningHash host (host.content_hash row.content) row.owner s' =
      false

theorem vacant_row
    {s' : Store} (h : Onward s s') (hkeyed : Keyed s) {row : Candidate}
    (hrow : row ∈ s.candidates) (hvacant : Vacant host row.candidate_id s') :
    hasActiveLearningHash host (host.content_hash row.content) row.owner s' =
      false := by
  rcases hvacant with ⟨later, hlater, hid, hstatus, hhash⟩
  rcases h.row hlater hstatus with
    ⟨old, hold, _, hold_id, hcontent, hprincipal⟩
  have heq : old = row := hkeyed.eq hold hrow (hold_id.symm.trans hid)
  rw [heq] at hcontent hprincipal
  unfold Candidate.owner at hhash ⊢
  rw [← hcontent, ← hprincipal]
  exact hhash

theorem examined_settled
    {s' : Store} (hkeyed : Keyed s)
    (happlied : AppliedTo host (passOf host config env s).triage.result s s')
    {row : Candidate} (hrow : row ∈ (passOf host config env s).candidates)
    (hdeferred : row.candidate_id ∉
      (passOf host config env s).triage.deferredBudget) :
    OffQueue row.candidate_id s' ∨
      ReplacementGone host (passOf host config env s).triage.result row s' := by
  have hanswers : Answers host s (passOf host config env s).candidates
      (passOf host config env s).triage :=
    answers_triage host config env.judge s _
  have hmem := (mem_proposedCandidates hrow).left
  rcases hanswers.covered row hrow with hdecides | hlater
  · rcases hdecides with hcid | hcid | hcid | hcid | hcid
    · exact Or.inl (happlied.promoted _ hcid)
    · rcases happlied.deduped _ hcid with hoff | hvacant
      · exact Or.inl hoff
      · apply Or.inr
        have hhash := vacant_row happlied.onward hkeyed hmem hvacant
        refine ⟨hcid, ?_, hhash⟩
        intro hnil
        rcases hanswers.deduped hnil _ hcid with ⟨other, hother, hid, hactive⟩
        have heq : other = row :=
          hkeyed.eq (mem_proposedCandidates hother).left hmem hid
        rw [heq] at hactive
        rw [hasActiveLearningHash_congr (happlied.learnings hnil), hactive]
          at hhash
        cases hhash
    · exact Or.inl (happlied.reviewed _ hcid)
    · exact Or.inl (happlied.rejected _ hcid)
    · exact Or.inl (happlied.redacted _ hcid)
  · exact absurd hlater hdeferred

end Batch

/-!
## The queue shrinks
-/

theorem nodup_selectable {s : Store} (hkeyed : Keyed s) :
    ((selectable s).map (·.candidate_id)).Nodup :=
  hkeyed.sublist (List.filter_sublist.map _)

theorem Onward.ids_subset
    {s s' : Store} (h : Onward s s') (hkeyed : Keyed s) :
    (selectable s').map (·.candidate_id) ⊆
      (selectable s).map (·.candidate_id) := by
  intro cid hcid
  rcases List.mem_map.mp hcid with ⟨later, hlater, hid⟩
  rcases List.mem_filter.mp hlater with ⟨hmem, hselectable⟩
  rcases h.queued hkeyed hmem hselectable with
    ⟨old, hold, hold_selectable, hold_id, _⟩
  rw [← hid, hold_id]
  exact List.mem_map.mpr
    ⟨old, List.mem_filter.mpr ⟨hold, hold_selectable⟩, rfl⟩

theorem Onward.length_le
    {s s' : Store} (h : Onward s s') (hkeyed : Keyed s) :
    (selectable s').length ≤ (selectable s).length := by
  have hlength := ((nodup_selectable (h.keyed hkeyed)).subperm
    (h.ids_subset hkeyed)).length_le
  rw [List.length_map, List.length_map] at hlength
  exact hlength

theorem Onward.shrinks
    {s s' : Store} (h : Onward s s') (hkeyed : Keyed s) {row : Candidate}
    (hrow : row ∈ s.candidates) (hselectable : isSelectable s row = true)
    (hoff : OffQueue row.candidate_id s') :
    (selectable s').length < (selectable s).length := by
  have hnew : row.candidate_id ∉ (selectable s').map (·.candidate_id) := by
    intro hmem
    rcases List.mem_map.mp hmem with ⟨later, hlater, hid⟩
    rcases List.mem_filter.mp hlater with ⟨hlater_mem, hlater_selectable⟩
    rw [hoff later hlater_mem hid] at hlater_selectable
    cases hlater_selectable
  have hsubset : row.candidate_id :: (selectable s').map (·.candidate_id) ⊆
      (selectable s).map (·.candidate_id) := by
    apply List.cons_subset.mpr
    constructor
    · exact List.mem_map.mpr
        ⟨row, List.mem_filter.mpr ⟨hrow, hselectable⟩, rfl⟩
    · exact h.ids_subset hkeyed
  have hnodup := List.nodup_cons.mpr ⟨hnew, nodup_selectable (h.keyed hkeyed)⟩
  have hlength := (hnodup.subperm hsubset).length_le
  rw [List.length_cons, List.length_map, List.length_map] at hlength
  exact hlength

theorem goes_on
    {report : BatchReport} (hnone : report.failure = none)
    (hgoes : report.stops = false) :
    report.examined ≠ 0 ∧ report.deferredBudget = 0 := by
  unfold BatchReport.stops at hgoes
  rw [hnone] at hgoes
  simp only [Bool.or_eq_false_iff, decide_eq_false_iff_not] at hgoes
  omega

theorem stops_examined
    {report : BatchReport} (hnone : report.failure = none)
    (hstops : report.stops = true) (hbudget : report.deferredBudget = 0) :
    report.examined = 0 ∨ report.deferred = 0 := by
  unfold BatchReport.stops at hstops
  rw [hnone, hbudget] at hstops
  simpa using hstops

section Batches

variable {host : Host} {config : PassConfig} {env : BatchEnv} {s s' : Store}

/-- A batch after which the loop goes on has taken a candidate off. -/
theorem continuing_shrinks
    (hkeyed : Keyed s)
    (happlied : AppliedTo host (passOf host config env s).triage.result s s')
    (hgoes : ((passOf host config env s).report none).stops = false) :
    (selectable s').length < (selectable s).length := by
  have hanswers : Answers host s (passOf host config env s).candidates
      (passOf host config env s).triage :=
    answers_triage host config env.judge s _
  rcases goes_on rfl hgoes with ⟨hexamined, hbudget⟩
  have hsome : (passOf host config env s).candidates ≠ [] :=
    List.ne_nil_of_length_pos (Nat.pos_of_ne_zero hexamined)
  have hkept : (passOf host config env s).triage.deferredBudget = [] :=
    List.length_eq_zero_iff.mp hbudget
  by_cases hpromotes :
      (passOf host config env s).triage.result.promote_candidate_ids = []
  · rcases List.exists_mem_of_ne_nil _ hsome with ⟨row, hrow⟩
    rcases mem_proposedCandidates hrow with ⟨hmem, hselectable⟩
    have hrow_kept : row.candidate_id ∉
        (passOf host config env s).triage.deferredBudget := by
      rw [hkept]
      exact List.not_mem_nil
    rcases examined_settled hkeyed happlied hrow hrow_kept with hoff | hgone
    · exact happlied.onward.shrinks hkeyed hmem hselectable hoff
    · exact absurd hpromotes hgone.right.left
  · rcases List.exists_mem_of_ne_nil _ hpromotes with ⟨cid, hcid⟩
    rcases hanswers.promoted cid hcid with ⟨row, hrow, hid⟩
    rcases mem_proposedCandidates hrow with ⟨hmem, hselectable⟩
    have hoff := happlied.promoted cid hcid
    rw [← hid] at hoff
    exact happlied.onward.shrinks hkeyed hmem hselectable hoff

/-- A batch that stops the loop, with the model budget intact, has examined
the whole queue. -/
theorem stopping_examined
    (hlimit : 0 < config.max_per_run)
    (hstops : ((passOf host config env s).report none).stops = true)
    (hbudget : (passOf host config env s).triage.deferredBudget = [])
    {row : Candidate} (hrow : row ∈ selectable s) :
    row ∈ (passOf host config env s).candidates := by
  have hsorted : row ∈ (selectable s).insertionSort earlierFirst :=
    (List.mem_insertionSort earlierFirst).mpr hrow
  have hlength : (passOf host config env s).candidates.length =
      min config.max_per_run (selectable s).length := by
    show (((selectable s).insertionSort earlierFirst).take _).length = _
    rw [List.length_take, List.length_insertionSort]
  have htotal : (selectable s).length ≤ totalProposed s := by
    apply List.Sublist.length_le
    apply List.monotone_filter_right
    intro other hother
    exact decide_eq_true (isSelectable_proposed hother)
  have hall : (selectable s).length ≤ config.max_per_run := by
    have hpositive : 0 < (selectable s).length := List.length_pos_of_mem hrow
    have hexamined := @stops_examined ((passOf host config env s).report none) rfl hstops
      (List.length_eq_zero_iff.mpr hbudget)
    have hreport : (passOf host config env s).candidates.length = 0 ∨
        totalProposed s - (passOf host config env s).candidates.length = 0 :=
      hexamined
    omega
  show row ∈ ((selectable s).insertionSort earlierFirst).take _
  rw [List.take_of_length_le]
  · exact hsorted
  · rw [List.length_insertionSort]
    exact hall

end Batches

/-!
## The drain
-/

/-- The store before the `k`-th batch of a drain. -/
inductive Draining (host : Host) (config : PassConfig) (env : Nat -> BatchEnv)
    (start : Store) : Nat -> Store -> Prop where
  | start : Draining host config env start 0 start
  | next {k : Nat} {s s' : Store} {report : BatchReport}
      (before : Draining host config env start k s)
      (hbatch : batch host config (env k) s = (Except.ok report, s'))
      (hgoes : report.stops = false) :
      Draining host config env start (k + 1) s'

/-- A drain that ended by itself.  With the model budget intact, nothing is
left but duplicates whose replacement went in the last batch. -/
def Drained (host : Host) (drain : Drain) : Prop :=
  drain.stopped = true ∧ exists report, drain.last = some report ∧
    report.failure = none ∧
    (report.deferredBudget = 0 ->
      forall row, row ∈ selectable drain.store ->
        ReplacementGone host report.decided row drain.store)

section Drains

variable {host : Host} {config : PassConfig}

/-- What the last batch leaves. -/
theorem drained_last
    {env : BatchEnv} {s s' : Store} {k : Nat} (hlimit : 0 < config.max_per_run)
    (hkeyed : Keyed s)
    (happlied : AppliedTo host (passOf host config env s).triage.result s s')
    (hstops : ((passOf host config env s).report none).stops = true) :
    Drained host
      { store := s', batches := k, stopped := true
        last := some ((passOf host config env s).report none) } := by
  refine ⟨rfl, _, rfl, rfl, ?_⟩
  intro hbudget row hrow
  have hkept : (passOf host config env s).triage.deferredBudget = [] :=
    List.length_eq_zero_iff.mp hbudget
  rcases List.mem_filter.mp hrow with ⟨hmem, hselectable⟩
  rcases happlied.onward.queued hkeyed hmem hselectable with
    ⟨old, hold, hold_selectable, hid, hcontent, howner⟩
  have hexamined := stopping_examined hlimit hstops hkept
    (List.mem_filter.mpr ⟨hold, hold_selectable⟩)
  have hold_kept : old.candidate_id ∉
      (passOf host config env s).triage.deferredBudget := by
    rw [hkept]
    exact List.not_mem_nil
  rcases examined_settled hkeyed happlied hexamined hold_kept with
    hoff | hgone
  · rw [← hid] at hoff
    exact absurd hoff (not_offQueue hmem hselectable)
  · unfold ReplacementGone at hgone ⊢
    rw [hid, hcontent, howner]
    exact hgone

/-- The induction is on the length of the queue. -/
theorem drain_ends
    {env : Nat -> BatchEnv} {start : Store}
    (hlimit : 0 < config.max_per_run)
    (hcompletes : forall k, (env k).Completes)
    (hhanded : forall k s report s', Draining host config env start k s ->
      batch host config (env k) s = (Except.ok report, s') ->
      report.decided.Handed)
    {k : Nat} {s : Store} (hdraining : Draining host config env start k s)
    (hkeyed : Keyed s) (hvalid : AgentsValid host s) :
    exists limit drain, Drained host drain ∧
      forall more, limit ≤ more ->
        drainConsolidation host config env more k s = drain := by
  induction hlength : (selectable s).length using Nat.strong_induction_on
    generalizing k s with
  | _ n ih =>
      rcases @batch_batched _ config _ _ (hcompletes k) hkeyed hvalid with
        ⟨s₁, honward, _, hreport, happlied⟩
      generalize hs' : (batch host config (env k) s).2 = s' at happlied
      have hbatch : batch host config (env k) s =
          (Except.ok ((passOf host config (env k) s₁).report none), s') :=
        Prod.ext hreport hs'
      have happlied' := happlied (hhanded k s _ s' hdraining hbatch)
      have hkeyed₁ := honward.keyed hkeyed
      cases hstops : ((passOf host config (env k) s₁).report none).stops with
      | true =>
          refine ⟨1, _, drained_last (k := k + 1) hlimit hkeyed₁ happlied'
            hstops, ?_⟩
          intro more hmore
          cases more with
          | zero => cases hmore
          | succ more =>
              unfold drainConsolidation
              rw [hbatch]
              dsimp only
              rw [if_pos hstops]
      | false =>
          have hshorter : (selectable s').length < n := by
            rw [← hlength]
            exact (continuing_shrinks hkeyed₁ happlied' hstops).trans_le
              (honward.length_le hkeyed)
          have honward' := honward.trans happlied'.onward
          rcases ih _ hshorter (hdraining.next hbatch hstops)
            (honward'.keyed hkeyed) (honward'.agentsValid hvalid) rfl with
            ⟨limit, drain, hdrained, hruns⟩
          refine ⟨limit + 1, drain, hdrained, ?_⟩
          intro more hmore
          cases more with
          | zero => cases hmore
          | succ more =>
              unfold drainConsolidation
              rw [hbatch]
              dsimp only
              rw [if_neg (by rw [hstops]; exact Bool.false_ne_true)]
              exact hruns more (Nat.le_of_succ_le_succ hmore)

/-- Every examined candidate that is not deferred is off the queue afterwards,
up to a duplicate whose replacement went in the same batch; so a drain without
a limit ends. -/
theorem consolidation_progress (host : Host) (config : PassConfig) :
    (forall (env : BatchEnv) (s : Store) (pass : PassResult),
      env.Completes -> Keyed s -> AgentsValid host s ->
      (runPass host config env (Connection.idle s)).1 = Except.ok pass ->
      pass.triage.result.Handed ->
      forall row, row ∈ pass.candidates ->
        row.candidate_id ∉ pass.triage.deferredBudget ->
        (forall limit later,
          later ∈ proposedCandidates limit (batch host config env s).2 ->
          later.candidate_id ≠ row.candidate_id) ∨
        ReplacementGone host pass.triage.result row
          (batch host config env s).2) ∧
    (forall (env : Nat -> BatchEnv) (start : Store),
      0 < config.max_per_run -> (forall k, (env k).Completes) ->
      Keyed start -> AgentsValid host start ->
      (forall k s report s', Draining host config env start k s ->
        batch host config (env k) s = (Except.ok report, s') ->
        report.decided.Handed) ->
      exists limit drain, Drained host drain ∧
        forall more, limit ≤ more ->
          drainConsolidation host config env more 0 start = drain) := by
  constructor
  · intro env s pass hcompletes hkeyed hvalid hpass hhanded row hrow hkept
    rcases @batch_batched _ config _ _ hcompletes hkeyed hvalid with
      ⟨s₁, honward, hself, _, happlied⟩
    have heq : pass = passOf host config env s₁ :=
      Except.ok.inj (hpass.symm.trans hself)
    rw [heq] at hhanded hrow hkept ⊢
    rcases examined_settled (honward.keyed hkeyed) (happlied hhanded) hrow
      hkept with hoff | hgone
    · apply Or.inl
      intro limit later hlater hid
      rcases mem_proposedCandidates hlater with ⟨hmem, hselectable⟩
      rw [hoff later hmem hid] at hselectable
      cases hselectable
    · exact Or.inr hgone
  · intro env start hlimit hcompletes hkeyed hvalid hhanded
    exact drain_ends hlimit hcompletes hhanded Draining.start hkeyed hvalid

end Drains

/-!
## What stays behind by design
-/

def EmptiesBatch (host : Host) (config : PassConfig) : Prop :=
  forall (env : BatchEnv) (s : Store) (pass : PassResult),
    env.Completes -> Keyed s -> AgentsValid host s ->
    (runPass host config env (Connection.idle s)).1 = Except.ok pass ->
    pass.triage.result.Handed ->
    forall row, row ∈ pass.candidates ->
      row.candidate_id ∉ pass.triage.deferredBudget ->
      forall limit later,
        later ∈ proposedCandidates limit (batch host config env s).2 ->
        later.candidate_id ≠ row.candidate_id

def EmptiesQueue (host : Host) (config : PassConfig) : Prop :=
  forall (env : Nat -> BatchEnv) (start : Store),
    0 < config.max_per_run -> (forall k, (env k).Completes) ->
    Keyed start -> AgentsValid host start ->
    (forall k s report s', Draining host config env start k s ->
      batch host config (env k) s = (Except.ok report, s') ->
      report.decided.Handed) ->
    exists limit, forall more, limit ≤ more ->
      (drainConsolidation host config env more 0 start).stopped = true ∧
        selectable (drainConsolidation host config env more 0 start).store =
          []

instance (s : Store) : Decidable (Keyed s) :=
  inferInstanceAs (Decidable (List.Nodup _))

instance (host : Host) (s : Store) : Decidable (AgentsValid host s) :=
  inferInstanceAs (Decidable (forall row, row ∈ s.candidates -> _))

instance (result : ConsolidationResult) : Decidable result.Handed :=
  inferInstanceAs (Decidable (_ ∨ _))

def plainBatch : BatchEnv where
  now := 2
  pass := plainEnv 2
  write := fun _ => plainEnv 2
  judge := fun _ =>
    { decision := JudgeDecision.accept
      reason := "durable fact"
      model := "judge"
      cached := false }
  draftFailure := none

theorem plainBatch_completes : plainBatch.Completes where
  pass := rfl
  writes := fun _ =>
    { dedupIndex := rfl
      insertLearning := rfl
      canonicalNode := rfl }
  drafts := rfl

/-- A drain whose first batch stops it. -/
theorem drain_once
    {host : Host} {config : PassConfig} {env : Nat -> BatchEnv} {s s' : Store}
    {report : BatchReport}
    (hbatch : batch host config (env 0) s = (Except.ok report, s'))
    (hstops : report.stops = true) :
    (forall k later, Draining host config env s k later ->
      k = 0 ∧ later = s) ∧
    forall more, (drainConsolidation host config env (more + 1) 0 s).store =
      s' := by
  constructor
  · intro k later h
    induction h with
    | start => exact ⟨rfl, rfl⟩
    | next before hnext hgoes ih =>
        rw [ih.left, ih.right, hbatch] at hnext
        cases hnext
        rw [hstops] at hgoes
        cases hgoes
  · intro more
    unfold drainConsolidation
    rw [hbatch]
    dsimp only
    rw [if_pos hstops]

def storeOf (learnings : List Learning) (candidates : List Candidate) :
    Store :=
  { Store.empty with
    learnings := learnings
    nextLearning := learnings.length + 1
    candidates := candidates
    nextCandidate := candidates.length + 1 }

def gatewayFact : Candidate :=
  candidateOf "the gateway listens on port 8080"

def retryFact : Candidate :=
  { candidateOf "clients retry after 500ms" with candidate_id := 2 }

/-- A candidate that asks to be safe and waits for the model. -/
def reviewedFact : Candidate :=
  { gatewayFact with privacy_level := some "review" }

def retryLearning : Learning where
  learning_id := 1
  agent_id := "main"
  category := "general"
  content := "clients retry after 500ms"
  embedding := none
  created_at := 1
  status := some LearningStatus.active
  superseded_by := none
  content_hash := none
  writer := Writer.store

/-- Every text is near to every other. -/
def crowdedHost : Host :=
  { plainHost with jaccardNear := fun _ _ => true }

def wholeQueue : PassConfig where
  max_per_run := 50
  judge_mode := JudgeMode.enforce
  max_model_calls := 20

def noModelCalls : PassConfig :=
  { wholeQueue with max_model_calls := 0 }

def twoFacts : Store :=
  storeOf [] [gatewayFact, retryFact]

/-- Two facts leave the queue in one batch. -/
theorem consolidation_progress_two :
    (forall limit later,
      later ∈ proposedCandidates limit (batch plainHost wholeQueue plainBatch
        twoFacts).2 ->
      later.candidate_id ≠ 2) ∧
    exists limit drain, Drained plainHost drain ∧
      forall more, limit ≤ more ->
        drainConsolidation plainHost wholeQueue (fun _ => plainBatch) more 0
          twoFacts = drain := by
  have hall := consolidation_progress plainHost wholeQueue
  constructor
  · have hsettled := hall.left plainBatch twoFacts
      (passOf plainHost wholeQueue plainBatch twoFacts)
      plainBatch_completes (by decide +kernel) (by decide +kernel)
      (by decide +kernel) (by decide +kernel) retryFact (by decide +kernel)
      (by decide +kernel)
    rcases hsettled with hgone | hduplicate
    · exact hgone
    · have hnone : 2 ∉ (passOf plainHost wholeQueue plainBatch
          twoFacts).triage.result.dedup_candidate_ids := by
        decide +kernel
      exact absurd hduplicate.left hnone
  · have hbatch : exists report s',
        batch plainHost wholeQueue plainBatch twoFacts =
          (Except.ok report, s') ∧
        report.stops = true ∧ report.decided.Handed :=
      ⟨_, _, rfl, by decide +kernel, by decide +kernel⟩
    rcases hbatch with ⟨report, s', hbatch, hstops, hhanded⟩
    have honce := @drain_once _ _ (fun _ => plainBatch) _ _ _ hbatch hstops
    apply hall.right (fun _ => plainBatch) twoFacts (by decide)
      (fun _ => plainBatch_completes) (by decide +kernel) (by decide +kernel)
    intro k s other s'' hdraining hother
    rw [(honce.left k s hdraining).right, hbatch] at hother
    cases hother
    exact hhanded

/-- A promotion evicts what a duplicate repeats; and a drain without model
calls leaves what needs one. -/
theorem consolidation_leaves :
    ¬ EmptiesBatch crowdedHost wholeQueue ∧
    ¬ EmptiesQueue plainHost noModelCalls := by
  constructor
  · intro h
    have hstays : retryFact ∈ proposedCandidates 50 (batch crowdedHost
        wholeQueue plainBatch
        (storeOf [retryLearning] [gatewayFact, retryFact])).2 := by
      decide +kernel
    exact h plainBatch (storeOf [retryLearning] [gatewayFact, retryFact])
      (passOf crowdedHost wholeQueue plainBatch
        (storeOf [{ retryLearning with
          content_hash := some "clients retry after 500ms" }]
          [gatewayFact, retryFact]))
      plainBatch_completes (by decide +kernel) (by decide +kernel)
      (by decide +kernel) (by decide +kernel) retryFact (by decide +kernel)
      (by decide +kernel) 50 retryFact hstays rfl
  · intro h
    have hbatch : exists report s', batch plainHost noModelCalls plainBatch
        (storeOf [] [reviewedFact]) = (Except.ok report, s') ∧
        report.stops = true ∧ report.decided.Handed ∧ selectable s' ≠ [] :=
      ⟨_, _, rfl, by decide +kernel, by decide +kernel, by decide +kernel⟩
    rcases hbatch with ⟨report, s', hbatch, hstops, hhanded, hleft⟩
    have honce := @drain_once _ _ (fun _ => plainBatch) _ _ _ hbatch hstops
    have hends := h (fun _ => plainBatch) (storeOf [] [reviewedFact])
      (by decide) (fun _ => plainBatch_completes) (by decide +kernel)
      (by decide +kernel) (by
        intro k s other s'' hdraining hother
        rw [(honce.left k s hdraining).right, hbatch] at hother
        cases hother
        exact hhanded)
    rcases hends with ⟨limit, hall⟩
    have hempty := (hall (limit + 1) (Nat.le_succ limit)).right
    rw [honce.right limit] at hempty
    exact hleft hempty

end Daemon
end Minni
