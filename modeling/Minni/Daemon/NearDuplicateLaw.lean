import Minni.Daemon.DurableWrites
import Minni.Daemon.NearDuplicate
import Mathlib.Tactic.NormNum

/-!
# Evictions and shared text

The measure of likeness is symmetric and a share, but the normal form that it
works on has the letters of one alphabet only.  Two texts without a common
piece are alike when that form makes them equal, or leaves them mostly alike.
-/

namespace Minni
namespace Daemon

open Foundation
open Foundation.Db

/-!
## Scores
-/

theorem maxScore_lt_iff {scores : List Rat} {bound : Rat}
    (hbound : 0 < bound) :
    maxScore scores < bound <->
      forall score, score ∈ scores -> score < bound := by
  cases scores with
  | nil =>
      constructor
      · intro _ score hscore
        cases hscore
      · intro _
        exact hbound
  | cons first rest =>
      rw [maxScore]
      induction rest generalizing first with
      | nil => simp
      | cons second rest ih =>
          rw [List.foldl_cons, ih]
          simp only [List.mem_cons, forall_eq_or_imp, max_lt_iff]
          exact and_assoc

theorem maxScore_range {scores : List Rat}
    (h : forall score, score ∈ scores -> 0 ≤ score ∧ score ≤ 1) :
    0 ≤ maxScore scores ∧ maxScore scores ≤ 1 := by
  cases scores with
  | nil => exact ⟨le_refl _, zero_le_one⟩
  | cons first rest =>
      rw [maxScore]
      induction rest generalizing first with
      | nil => exact h first List.mem_cons_self
      | cons second rest ih =>
          rw [List.foldl_cons]
          apply ih
          intro score hscore
          rcases List.mem_cons.mp hscore with hmax | hrest
          · have hfirst := h first List.mem_cons_self
            have hsecond := h second
              (List.mem_cons_of_mem _ List.mem_cons_self)
            rw [hmax]
            exact ⟨le_max_of_le_left hfirst.left,
              max_le hfirst.right hsecond.right⟩
          · exact h score
              (List.mem_cons_of_mem _ (List.mem_cons_of_mem _ hrest))

section Grams

variable {α : Type} [DecidableEq α] {xs ys : List α}

/-- Fewer than the threshold's share of the pieces are common. -/
def FewShared (xs ys : List α) : Prop :=
  fiveGrams xs ∩ fiveGrams ys ≠ ∅ ->
    20 * (fiveGrams xs ∩ fiveGrams ys).card <
      13 * (fiveGrams xs ∪ fiveGrams ys).card

theorem fiveGrams_short (h : ¬ 5 ≤ xs.length) : fiveGrams xs = ∅ := by
  unfold fiveGrams
  cases hgrams : Grams.grams 5 xs with
  | nil => rfl
  | cons gram rest =>
      have hmem : gram ∈ Grams.grams 5 xs := by
        rw [hgrams]
        exact List.mem_cons_self
      rcases Grams.infix_of_mem_grams hmem with ⟨hinfixed, hlength⟩
      rw [← hlength] at h
      exact absurd hinfixed.length_le h

theorem fiveGrams_ne_empty (h : 5 ≤ xs.length) : fiveGrams xs ≠ ∅ := by
  rcases Grams.exists_gram (by decide) h with ⟨gram, hgram⟩
  intro hempty
  have hmem := List.mem_toFinset.mpr hgram
  rw [← fiveGrams, hempty] at hmem
  exact absurd hmem (Finset.notMem_empty gram)

theorem gramScores_lt_iff :
    (forall score, score ∈ gramScores xs ys -> score < jaccardThreshold) <->
      FewShared xs ys := by
  unfold gramScores FewShared
  by_cases hlong : 5 ≤ xs.length ∧ 5 ≤ ys.length
  · have hunion : ¬ fiveGrams xs ∪ fiveGrams ys = ∅ := by
      intro hempty
      exact fiveGrams_ne_empty hlong.left
        (Finset.union_eq_empty.mp hempty).left
    have hiff := @Grams.jaccard_lt_iff (List α) _ (fiveGrams xs)
      (fiveGrams ys) 13 20 (by decide) (by decide)
    have hthreshold : ((13 : Nat) : Rat) / ((20 : Nat) : Rat) =
        jaccardThreshold := by
      norm_num [jaccardThreshold]
    rw [hthreshold] at hiff
    rw [if_pos (by simpa using hlong), if_neg hunion]
    simpa using hiff
  · have hnone : fiveGrams xs ∩ fiveGrams ys = ∅ := by
      rcases not_and_or.mp hlong with hxs | hys
      · rw [fiveGrams_short hxs, Finset.empty_inter]
      · rw [fiveGrams_short hys, Finset.inter_empty]
    rw [if_neg (by simpa using hlong), hnone]
    simp

theorem gramScores_range :
    forall score, score ∈ gramScores xs ys -> 0 ≤ score ∧ score ≤ 1 := by
  intro score hscore
  unfold gramScores at hscore
  split at hscore
  · split at hscore
    · cases hscore
    · rw [List.mem_singleton.mp hscore]
      exact ⟨Grams.jaccard_nonneg, Grams.jaccard_le_one⟩
  · cases hscore

theorem gramScores_comm (xs ys : List α) :
    gramScores xs ys = gramScores ys xs := by
  unfold gramScores
  rw [Bool.and_comm, Finset.union_comm, Grams.jaccard_comm]

end Grams

/-!
## The measure
-/

section Measure

variable (lower : String -> String) (text_a text_b : String)

theorem fiveGramJaccard_comm :
    fiveGramJaccard lower text_a text_b =
      fiveGramJaccard lower text_b text_a := by
  unfold fiveGramJaccard
  dsimp only
  rw [Bool.or_comm, gramScores_comm (Words.split _ _),
    gramScores_comm (normalizeForShingles lower text_a)]
  simp only [eq_comm]

theorem fiveGramJaccard_range :
    0 ≤ fiveGramJaccard lower text_a text_b ∧
      fiveGramJaccard lower text_a text_b ≤ 1 := by
  unfold fiveGramJaccard
  dsimp only
  split
  · exact ⟨le_refl _, zero_le_one⟩
  · split
    · exact ⟨zero_le_one, le_refl _⟩
    · apply maxScore_range
      intro score hscore
      rcases List.mem_append.mp hscore with hwords | hchars
      · exact gramScores_range score hwords
      · exact gramScores_range score hchars

/-- The forms that are compared have nothing in them, or differ and share few
of their pieces. -/
def FormsApart : Prop :=
  normalizeForShingles lower text_a = [] ∨
    normalizeForShingles lower text_b = [] ∨
    (normalizeForShingles lower text_a ≠ normalizeForShingles lower text_b ∧
      FewShared
        (Words.split PyText.isSpace (normalizeForShingles lower text_a))
        (Words.split PyText.isSpace (normalizeForShingles lower text_b)) ∧
      FewShared (normalizeForShingles lower text_a)
        (normalizeForShingles lower text_b))

theorem jaccardThreshold_pos : 0 < jaccardThreshold := by
  norm_num [jaccardThreshold]

theorem fiveGramJaccard_lt_iff :
    fiveGramJaccard lower text_a text_b < jaccardThreshold <->
      FormsApart lower text_a text_b := by
  unfold fiveGramJaccard FormsApart
  dsimp only
  generalize normalizeForShingles lower text_a = norm_a
  generalize normalizeForShingles lower text_b = norm_b
  by_cases hempty : norm_a = [] ∨ norm_b = []
  · rw [if_pos (by simpa using hempty)]
    constructor
    · intro _
      rcases hempty with ha | hb
      · exact Or.inl ha
      · exact Or.inr (Or.inl hb)
    · intro _
      exact jaccardThreshold_pos
  · rw [if_neg (by simpa using hempty)]
    have hapart : forall P : Prop,
        (norm_a = [] ∨ norm_b = [] ∨ P) <-> P := by
      intro P
      rw [← or_assoc]
      exact or_iff_right hempty
    rw [hapart]
    by_cases heq : norm_a = norm_b
    · rw [if_pos heq]
      constructor
      · intro h
        exact absurd h (not_lt.mpr (by norm_num [jaccardThreshold]))
      · intro h
        exact absurd heq h.left
    · rw [if_neg heq, maxScore_lt_iff jaccardThreshold_pos,
        and_iff_right heq]
      simp only [List.mem_append, or_imp, forall_and]
      exact and_congr gramScores_lt_iff gramScores_lt_iff

end Measure

/-!
## Rows that are kept
-/

section Rows

variable {other : Nat} {content : String} {stored : Option Embedding}

theorem stored_evict {s : Store} {dup : Nat}
    (h : Stored other content stored s) (hne : dup ≠ other) :
    Stored other content stored (s.evict dup) := by
  rcases h with ⟨hnext, ⟨row, hrow, hid⟩, hrows⟩
  have hkeeps : forall old : Learning,
      (if old.superseded_by = some dup then
        { old with superseded_by := none } else old).learning_id =
          old.learning_id ∧
      (if old.superseded_by = some dup then
        { old with superseded_by := none } else old).content = old.content ∧
      (if old.superseded_by = some dup then
        { old with superseded_by := none } else old).embedding =
          old.embedding := by
    intro old
    split
    · exact ⟨rfl, rfl, rfl⟩
    · exact ⟨rfl, rfl, rfl⟩
  refine ⟨hnext, ⟨_, List.mem_filter.mpr
    ⟨List.mem_map.mpr ⟨row, hrow, rfl⟩, ?_⟩, ?_⟩, ?_⟩
  · rw [(hkeeps row).left, hid]
    exact decide_eq_true hne.symm
  · rw [(hkeeps row).left, hid]
  · intro kept hkept hkeptId
    rcases List.mem_map.mp (List.mem_of_mem_filter hkept) with
      ⟨old, hold, heq⟩
    rw [← heq] at hkeptId ⊢
    rw [(hkeeps old).left] at hkeptId
    rw [(hkeeps old).right.left, (hkeeps old).right.right]
    exact hrows old hold hkeptId

theorem keeps_purge {P : Store -> Prop} (env : Env) (lid : Nat)
    (text : String) :
    Keeps P (purgeDurableLearning env lid text) := by
  have hdocument : Keeps P purgeDurableDocument :=
    keeps_tryExcept (keeps_transaction _ (keeps_pure _))
      (fun _ => keeps_pure _)
  unfold purgeDurableLearning
  split
  · apply keeps_bind hdocument
    intro _
    split
    · exact keeps_pure _
    · apply keeps_bind (keeps_cursor (keeps_select _))
      intro row
      split
      · exact hdocument
      · exact keeps_pure _
  · exact keeps_pure _

theorem keeps_evictNearDuplicate {env : Env} {dup : Nat}
    (hne : dup ≠ other) :
    Keeps (Stored other content stored) (evictNearDuplicate env dup) := by
  apply keeps_bind (keeps_select _)
  intro row
  apply keeps_bind
  · apply keeps_bind (keeps_select _)
    intro found
    split
    · exact keeps_pure _
    · apply keeps_bind (keeps_mayRaise _)
      intro _
      exact keeps_execute fun s hs => stored_evict hs hne
  · intro _
    exact keeps_purge env dup _

section Found

variable {host : Host} {env : Env} {agent_id category text : String}
variable {lid : Nat} {embedding : Option Embedding}

theorem not_found_of_below {s : Store}
    (hbelow : fiveGramJaccard host.lower text content < jaccardThreshold)
    (hs : Stored other content stored s)
    (hcosine : cosineReaches host (targetEmbedding lid embedding s) stored =
      false) :
    other ∉ findNearDuplicates host.withShingles agent_id category text lid
      embedding s := by
  intro hfound
  rcases mem_findNearDuplicates hfound with ⟨row, hrow, hid, _, hnear⟩
  rcases hs.right.right row hrow hid with ⟨hcontent, hembedding⟩
  unfold isNearDuplicate at hnear
  rw [Bool.and_eq_true, Bool.or_eq_true, hcontent, hembedding] at hnear
  rcases hnear.right with hjaccard | hreaches
  · exact absurd (of_decide_eq_true hjaccard) (not_le.mpr hbelow)
  · have hsame : cosineReaches host.withShingles = cosineReaches host := rfl
    rw [hsame, hcosine] at hreaches
    cases hreaches

theorem kept_of_below {c : Connection Store}
    (hbelow : fiveGramJaccard host.lower text content < jaccardThreshold)
    (hc : Throughout (Stored other content stored) c)
    (hcosine : cosineReaches host (targetEmbedding lid embedding c.working)
      stored = false) :
    Meets (evictNearDuplicates host.withShingles env agent_id category text
        lid embedding)
      (fun _ c' => Throughout (Stored other content stored) c') c := by
  apply meets_bind (P := fun r c' =>
    Throughout (Stored other content stored) c' ∧
      forall near_dups, r = Except.ok near_dups -> other ∉ near_dups)
  · apply meets_bind (P := fun _ c' => c' = c)
    · exact meets_mayRaise rfl fun _ => rfl
    · intro _ c' hc'
      rw [hc']
      apply meets_select
      constructor
      · exact hc
      · intro near_dups heq
        rw [← Except.ok.inj heq]
        exact not_found_of_below hbelow hc.right hcosine
    · intro e c' hc'
      rw [hc']
      constructor
      · exact hc
      · intro near_dups heq
        cases heq
  · intro near_dups c' hc'
    apply keeps_forEach
    · intro dup hdup
      apply keeps_evictNearDuplicate
      intro heq
      rw [heq] at hdup
      exact hc'.right near_dups rfl hdup
    · exact hc'.left
  · intro e c' hc'
    exact hc'.left

end Found

end Rows

/-- Evictions take away only what shares text, up to texts whose compared
forms are the same or mostly alike although they share none. -/
theorem evictsOnSharedText_iff (host : Host) (isAlnum : Char -> Bool)
    (text_a text_b : String) :
    EvictsOnSharedText host isAlnum text_a text_b <->
      (SharesNoText host.lower isAlnum text_a text_b ->
        FormsApart host.lower text_a text_b) := by
  constructor
  · intro h hnone
    exact (fiveGramJaccard_lt_iff host.lower text_a text_b).mp (h.below hnone)
  · intro h
    have hbelow : SharesNoText host.lower isAlnum text_a text_b ->
        fiveGramJaccard host.lower text_a text_b < jaccardThreshold :=
      fun hnone => (fiveGramJaccard_lt_iff host.lower text_a text_b).mpr
        (h hnone)
    constructor
    · exact fiveGramJaccard_comm host.lower text_a text_b
    · exact fiveGramJaccard_range host.lower text_a text_b
    · exact hbelow
    · intro hnone agent_id category lid other embedding stored s hs hcosine
      exact not_found_of_below (hbelow hnone) hs hcosine
    · intro hnone env agent_id category lid other embedding stored c
        hcommitted hworking hcosine
      exact kept_of_below (hbelow hnone) ⟨hcommitted, hworking⟩ hcosine

namespace OneDigit

def isAlnum (c : Char) : Bool :=
  c.isAlphanum || (0x400 ≤ c.toNat && c.toNat < 0x530)

def learning (learning_id : Nat) (content : String) : Learning where
  learning_id := learning_id
  agent_id := "main"
  category := "general"
  content := content
  embedding := none
  created_at := learning_id
  status := some LearningStatus.active
  superseded_by := none
  content_hash := none
  writer := Writer.store

def store : Store :=
  { Store.empty with
    learnings := [learning 1 "база 1", learning 2 "тесты 1"]
    nextLearning := 3 }

/-- All that is compared of the two texts is the digit, so the older one is
deleted. -/
theorem deletes_unlike :
    ¬ EvictsOnSharedText plainHost isAlnum "тесты 1" "база 1" ∧
      (evictNearDuplicates plainHost.withShingles
        { plainEnv 0 with purgeBegins := fun _ => false } "main"
        "general" "тесты 1" 2 none (Connection.idle store)).2.working.learnings
          = [learning 2 "тесты 1"] := by
  constructor
  · intro h
    have hnone : SharesNoText plainHost.lower isAlnum "тесты 1" "база 1" := by
      decide +kernel
    have hequal : fiveGramJaccard plainHost.lower "тесты 1" "база 1" = 1 := by
      decide +kernel
    have hbelow := h.below hnone
    rw [hequal] at hbelow
    exact absurd hbelow (not_lt.mpr (by norm_num [jaccardThreshold]))
  · decide +kernel

end OneDigit

end Daemon
end Minni
