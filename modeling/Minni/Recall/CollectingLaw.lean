import Mathlib.Algebra.Ring.Nat
import Mathlib.Data.List.Dedup
import Minni.Recall.Collecting

/-!
# Collecting until there are enough rows

The lexical search is cut in rows, so that a short window shows that there are
no more.  The semantic search is cut in chunks, and a window that gives only
eligible documents may still be short because one document has many of its
chunks among the best.
-/

namespace Minni
namespace Recall

open Foundation
open Foundation.Window

/-!
## The windows
-/

/-- The windows that are tried, in turn. -/
def tried (ceiling start : Nat) : Nat -> Nat
  | 0 => start
  | i + 1 => min ceiling (tried ceiling start i * 2)

theorem tried_le {ceiling start : Nat} (h : start ≤ ceiling) (i : Nat) :
    tried ceiling start i ≤ ceiling := by
  cases i with
  | zero => exact h
  | succ i => exact Nat.min_le_left _ _

theorem le_tried {ceiling start : Nat} (h : start ≤ ceiling) (i : Nat) :
    start ≤ tried ceiling start i := by
  induction i with
  | zero => exact Nat.le_refl start
  | succ i ih =>
      apply Nat.le_min.mpr
      exact ⟨h, Nat.le_trans ih (Nat.le_mul_of_pos_right _ Nat.zero_lt_two)⟩

theorem tried_tail (ceiling start i : Nat) :
    tried ceiling (min ceiling (start * 2)) i = tried ceiling start (i + 1) := by
  induction i with
  | zero => rfl
  | succ i ih =>
      rw [tried, ih]
      rfl

section Collect

variable {K : Type} {fetch : Nat -> List (Hit K)} {eligible : Hit K -> Bool}
  {wanted : Int} {sqlWindow : Bool} {ceiling : Nat}

variable (fetch eligible) in
def eligibleRows (window : Nat) : List (Hit K) :=
  (fetch window).filter eligible

variable (fetch eligible) in
/-- Every row of the window is eligible. -/
def AllEligible (window : Nat) : Prop :=
  (eligibleRows fetch eligible window).length = (fetch window).length

variable (fetch eligible wanted) in
def HasEnough (window : Nat) : Prop :=
  wanted ≤ (eligibleRows fetch eligible window).length

variable (fetch eligible wanted sqlWindow ceiling) in
/-- Where the loop returns. -/
def Stops (window : Nat) : Prop :=
  HasEnough fetch eligible wanted window ∨
    AllEligible fetch eligible window ∨
      (sqlWindow = true ∧ (fetch window).length < window) ∨
        ceiling ≤ window

/-- The loop returns the eligible rows of the first window at which it
stops. -/
theorem collectFrom_stops (window : Nat) (hpos : 0 < window) :
    exists i, (collectFrom fetch eligible wanted sqlWindow ceiling window
        hpos).rows = eligibleRows fetch eligible (tried ceiling window i) ∧
      Stops fetch eligible wanted sqlWindow ceiling (tried ceiling window i) ∧
        forall j, j < i ->
          ¬ Stops fetch eligible wanted sqlWindow ceiling
            (tried ceiling window j) := by
  induction window, hpos using collectFrom.induct fetch eligible wanted
    sqlWindow ceiling with
  | case1 window hpos raw rows hstop =>
      refine ⟨0, ?_, ?_, fun j hj => absurd hj (Nat.not_lt_zero j)⟩
      · rw [collectFrom, if_pos hstop]
        rfl
      · rcases hstop with henough | hall
        · exact Or.inl henough
        · exact Or.inr (Or.inl hall)
  | case2 window hpos raw rows hmore hshort =>
      refine ⟨0, ?_, ?_, fun j hj => absurd hj (Nat.not_lt_zero j)⟩
      · rw [collectFrom, if_neg hmore, if_pos hshort]
        rfl
      · exact Or.inr (Or.inr (Or.inl hshort))
  | case3 window hpos raw rows hmore hlong hceiling =>
      refine ⟨0, ?_, ?_, fun j hj => absurd hj (Nat.not_lt_zero j)⟩
      · rw [collectFrom, if_neg hmore, if_neg hlong, dif_pos hceiling]
        rfl
      · exact Or.inr (Or.inr (Or.inr hceiling))
  | case4 window hpos raw rows hmore hlong hceiling ih =>
      rcases ih with ⟨i, hrows, hstops, hbefore⟩
      rw [tried_tail] at hrows hstops
      refine ⟨i + 1, ?_, hstops, ?_⟩
      · rw [collectFrom, if_neg hmore, if_neg hlong, dif_neg hceiling]
        exact hrows
      · intro j hj
        cases j with
        | zero =>
            rintro (henough | hall | hshort | hreached)
            · exact hmore (Or.inl henough)
            · exact hmore (Or.inr hall)
            · exact hlong hshort
            · exact hceiling hreached
        | succ j =>
            have h := hbefore j (Nat.lt_of_succ_lt_succ hj)
            rw [tried_tail] at h
            exact h

/-!
## Enough rows
-/

variable (fetch eligible ceiling) in
/-- How many documents the ceiling window has eligible rows of. -/
def distinctEligible : Nat :=
  ((eligibleRows fetch eligible ceiling).map (·.doc_id)).dedup.length

variable (fetch eligible ceiling) in
theorem distinctEligible_le :
    distinctEligible fetch eligible ceiling ≤
      (eligibleRows fetch eligible ceiling).length := by
  have hle := (List.dedup_sublist
    ((eligibleRows fetch eligible ceiling).map (·.doc_id))).length_le
  rw [List.length_map] at hle
  exact hle

theorem firstWindow_le_ceilingOf (wanted : Int) (effectiveFast : Bool) :
    firstWindow wanted ≤ ceilingOf wanted effectiveFast := by
  cases effectiveFast with
  | false => exact Nat.le_max_left _ _
  | true => exact Nat.le_refl _

theorem wanted_le_firstWindow (wanted : Int) :
    wanted ≤ firstWindow wanted := by
  unfold firstWindow
  rw [Int.toNat_of_nonneg (by omega)]
  exact Int.le_max_right _ _

variable (fetch eligible wanted sqlWindow) in
/-- The loop returns as many eligible rows as wanted, or as many as there are
eligible documents in the ceiling window. -/
def Enough (effectiveFast : Bool) : Prop :=
  min wanted
      (distinctEligible fetch eligible (ceilingOf wanted effectiveFast)) ≤
    (collectEligible fetch eligible wanted sqlWindow effectiveFast).rows.length

variable (wanted) in
/-- The windows of a search, in turn. -/
def windowAt (effectiveFast : Bool) (i : Nat) : Nat :=
  tried (ceilingOf wanted effectiveFast) (firstWindow wanted) i

variable (fetch eligible wanted) in
/-- The first window at which nothing is denied gives too few documents, while
the ceiling window has more. -/
def Crowded (effectiveFast : Bool) : Prop :=
  exists i, (forall j, j < i ->
      ¬ HasEnough fetch eligible wanted (windowAt wanted effectiveFast j) ∧
        ¬ AllEligible fetch eligible (windowAt wanted effectiveFast j)) ∧
    AllEligible fetch eligible (windowAt wanted effectiveFast i) ∧
    ¬ HasEnough fetch eligible wanted (windowAt wanted effectiveFast i) ∧
    (fetch (windowAt wanted effectiveFast i)).length <
      distinctEligible fetch eligible (ceilingOf wanted effectiveFast)

theorem windowAt_le_ceilingOf (effectiveFast : Bool) (i : Nat) :
    windowAt wanted effectiveFast i ≤ ceilingOf wanted effectiveFast :=
  tried_le (firstWindow_le_ceilingOf wanted effectiveFast) i

theorem collectEligible_stops (effectiveFast : Bool) :
    exists i, (collectEligible fetch eligible wanted sqlWindow
        effectiveFast).rows =
          eligibleRows fetch eligible (windowAt wanted effectiveFast i) ∧
      Stops fetch eligible wanted sqlWindow
        (ceilingOf wanted effectiveFast) (windowAt wanted effectiveFast i) ∧
      forall j, j < i -> ¬ Stops fetch eligible wanted sqlWindow
        (ceilingOf wanted effectiveFast) (windowAt wanted effectiveFast j) :=
  collectFrom_stops _ (firstWindow_pos wanted)

/-- A window that has all that the ceiling window has. -/
theorem min_le_of_ceiling {effectiveFast : Bool} {i : Nat}
    (h : ceilingOf wanted effectiveFast ≤ windowAt wanted effectiveFast i) :
    min wanted
        (distinctEligible fetch eligible (ceilingOf wanted effectiveFast)) ≤
      ((eligibleRows fetch eligible
        (windowAt wanted effectiveFast i)).length : Int) := by
  have hsame : windowAt wanted effectiveFast i =
      ceilingOf wanted effectiveFast :=
    Nat.le_antisymm (windowAt_le_ceilingOf effectiveFast i) h
  rw [hsame]
  exact Int.le_trans (Int.min_le_right _ _)
    (Int.ofNat_le.mpr (distinctEligible_le fetch eligible _))

/-- Without a window of rows, the loop returns enough exactly where it does
not stop at a crowded window. -/
theorem enough_iff {effectiveFast : Bool} :
    Enough fetch eligible wanted false effectiveFast <->
      ¬ Crowded fetch eligible wanted effectiveFast := by
  rcases @collectEligible_stops K fetch eligible wanted false effectiveFast
    with ⟨i, hrows, hstops, hbefore⟩
  unfold Enough
  rw [hrows]
  constructor
  · rintro hle ⟨k, hdenied, hall, hfew, hmore⟩
    have hfirst : k = i := by
      rcases Nat.lt_trichotomy k i with hlt | heq | hgt
      · exact absurd (Or.inr (Or.inl hall)) (hbefore k hlt)
      · exact heq
      · rcases hdenied i hgt with ⟨hnot, hnotAll⟩
        rcases hstops with henough | hallHere | hshort | hreached
        · exact absurd henough hnot
        · exact absurd hallHere hnotAll
        · exact absurd hshort.left Bool.false_ne_true
        · have hsame : forall j, i ≤ j ->
              windowAt wanted effectiveFast j =
                ceilingOf wanted effectiveFast := by
            intro j hj
            induction j, hj using Nat.le_induction with
            | base =>
                exact Nat.le_antisymm
                  (windowAt_le_ceilingOf effectiveFast i) hreached
            | succ j hj ih =>
                change min _ (windowAt wanted effectiveFast j * 2) = _
                rw [ih]
                exact Nat.min_eq_left
                  (Nat.le_mul_of_pos_right _ Nat.zero_lt_two)
          rw [hsame k (Nat.le_of_lt hgt), ← hsame i (Nat.le_refl i)] at hall
          exact absurd hall hnotAll
    rw [hfirst] at hall hfew hmore
    unfold AllEligible at hall
    unfold HasEnough at hfew
    rw [hall] at hle hfew
    omega
  · intro hclear
    rcases hstops with henough | hall | hshort | hreached
    · exact Int.le_trans (Int.min_le_left _ _) henough
    · by_cases henough : HasEnough fetch eligible wanted
          (windowAt wanted effectiveFast i)
      · exact Int.le_trans (Int.min_le_left _ _) henough
      · have hfits : distinctEligible fetch eligible
            (ceilingOf wanted effectiveFast) ≤
              (fetch (windowAt wanted effectiveFast i)).length := by
          by_contra hbad
          apply hclear
          refine ⟨i, ?_, hall, henough, Nat.lt_of_not_le hbad⟩
          intro j hj
          have hnot := hbefore j hj
          exact ⟨fun h => hnot (Or.inl h), fun h => hnot (Or.inr (Or.inl h))⟩
        rw [hall]
        exact Int.le_trans (Int.min_le_right _ _) (Int.ofNat_le.mpr hfits)
    · exact absurd hshort.left Bool.false_ne_true
    · exact min_le_of_ceiling hreached

/-- A search that is cut in rows gives enough. -/
theorem enough_of_cut {full : List (Hit K)} {effectiveFast : Bool}
    (hfetch : forall limit, 0 < limit -> fetch limit = full.take (limit * 3)) :
    Enough fetch eligible wanted true effectiveFast := by
  rcases @collectEligible_stops K fetch eligible wanted true effectiveFast
    with ⟨i, hrows, hstops, _⟩
  unfold Enough
  rw [hrows]
  have hstart : firstWindow wanted ≤ windowAt wanted effectiveFast i :=
    le_tried (firstWindow_le_ceilingOf wanted effectiveFast) i
  have hpos : 0 < windowAt wanted effectiveFast i :=
    Nat.lt_of_lt_of_le (firstWindow_pos wanted) hstart
  have hceiling := @windowAt_le_ceilingOf wanted effectiveFast i
  -- A window that is not filled shows all the rows that there are.
  have hwhole : (fetch (windowAt wanted effectiveFast i)).length <
      windowAt wanted effectiveFast i ->
        fetch (windowAt wanted effectiveFast i) =
          fetch (ceilingOf wanted effectiveFast) := by
    intro hshort
    rw [hfetch _ hpos, List.length_take] at hshort
    have hlength : full.length ≤ windowAt wanted effectiveFast i * 3 := by
      omega
    rw [hfetch _ hpos, hfetch _ (Nat.lt_of_lt_of_le hpos hceiling),
      List.take_of_length_le hlength,
      List.take_of_length_le (Nat.le_trans hlength
        (Nat.mul_le_mul_right 3 hceiling))]
  have hrest : (fetch (windowAt wanted effectiveFast i)).length <
      windowAt wanted effectiveFast i ->
        min wanted (distinctEligible fetch eligible
            (ceilingOf wanted effectiveFast)) ≤
          ((eligibleRows fetch eligible
            (windowAt wanted effectiveFast i)).length : Int) := by
    intro hshort
    have hsame : eligibleRows fetch eligible
        (windowAt wanted effectiveFast i) = eligibleRows fetch eligible
          (ceilingOf wanted effectiveFast) := by
      unfold eligibleRows
      rw [hwhole hshort]
    rw [hsame]
    exact Int.le_trans (Int.min_le_right _ _)
      (Int.ofNat_le.mpr (distinctEligible_le fetch eligible _))
  rcases hstops with henough | hall | hshort | hreached
  · exact Int.le_trans (Int.min_le_left _ _) henough
  · by_cases henough : HasEnough fetch eligible wanted
        (windowAt wanted effectiveFast i)
    · exact Int.le_trans (Int.min_le_left _ _) henough
    · apply hrest
      unfold AllEligible at hall
      unfold HasEnough at henough
      rw [hall] at henough
      have hwanted := wanted_le_firstWindow wanted
      omega
  · exact hrest hshort.right
  · exact min_le_of_ceiling hreached

end Collect

/-!
## Both searches
-/

section Searches

variable {K : Type} [LinearOrder K] [Zero K] [One K]

/-- Falling back where nothing is found, and cutting afterwards. -/
theorem cut_choice {item : Type} {first second : List item}
    {n : Nat} (hn : 0 < n) (p : Prop) [Decidable p] :
    (if first.take n = [] ∧ p then second.take n else first.take n) =
      (if first = [] ∧ p then second else first).take n := by
  have hnone : first.take n = [] <-> first = [] := by
    rw [List.take_eq_nil_iff]
    exact ⟨fun h => h.resolve_left (Nat.ne_of_gt hn), Or.inr⟩
  by_cases h : first = [] ∧ p
  · rw [if_pos h, if_pos ⟨hnone.mpr h.left, h.right⟩]
  · rw [if_neg h, if_neg fun hbad => h ⟨hnone.mp hbad.left, hbad.right⟩]

/-- Which expression the lexical search matches does not depend on where it is
cut. -/
theorem ftsSearch_cut (index : FtsIndex K) (query : String)
    (agentFilter excludeStatuses : List String) :
    exists full : List (Hit K), forall limit, 0 < limit ->
      index.ftsSearch query agentFilter excludeStatuses limit =
        full.take (limit * 3) := by
  by_cases hempty : index.sanitizeFtsQuery query = ""
  · refine ⟨[], fun limit _ => ?_⟩
    unfold FtsIndex.ftsSearch
    rw [if_pos hempty, List.take_nil]
  · refine ⟨?_, fun limit hlimit => ?_⟩
    rotate_left
    · unfold FtsIndex.ftsSearch
      rw [if_neg hempty]
      dsimp only
      rw [cut_choice (Nat.mul_pos hlimit (Nat.succ_pos 2)),
        cut_choice (Nat.mul_pos hlimit (Nat.succ_pos 2)), List.map_take]

/-- The lexical search collects enough; the semantic search does exactly where
it does not stop at a crowded window. -/
theorem searches_collect (fts : FtsIndex K) (vectors : VectorIndex K)
    (query : String) (agentFilter excludeStatuses : List String)
    (eligible : Hit K -> Bool) (wanted : Int) (effectiveFast : Bool) :
    Enough (fts.ftsSearch query agentFilter excludeStatuses) eligible wanted
        true effectiveFast ∧
      (Enough (vectors.semanticSearch agentFilter) eligible wanted false
          effectiveFast <->
        ¬ Crowded (vectors.semanticSearch agentFilter) eligible wanted
          effectiveFast) := by
  constructor
  · rcases ftsSearch_cut fts query agentFilter excludeStatuses with
      ⟨full, hfull⟩
    exact enough_of_cut hfull
  · exact enough_iff

end Searches

/-!
## A document with many chunks
-/

namespace LongPage

/-- Ten chunks of one page come before the chunk of another. -/
def docOf (chunkId : Nat) : Nat :=
  if chunkId ≤ 10 then 1 else 2

def row (chunkId : Nat) : DocRow Nat :=
  { doc_id := docOf chunkId
    chunk_id := some chunkId
    path := "wiki/page.md"
    agent := "codex"
    sigil := ""
    decay_score := some 1
    page_status := some "accepted"
    privacy_level := some "safe"
    page_type := none
    evidence_refs := none
    indexed_at := none
    layer := none
    chunk_text := some "chunk"
    heading_context := none }

def chunkIds : List Nat :=
  [1, 2, 3, 4, 5, 6, 7, 8, 9, 10, 11]

def index : VectorIndex Nat :=
  { search := fun n => (chunkIds.map fun id => (id, 20 - id)).take n
    searchLoaded := fun n => (chunkIds.map fun id => (id, 20 - id)).take n
    chunkRows := chunkIds.map row }

theorem first_window :
    (index.semanticSearch [] 2).map (·.doc_id) = [1] := by
  decide

theorem ceiling_window :
    (index.semanticSearch [] 512).map (·.doc_id) = [1, 2] := by
  decide

/-- Two documents are wanted and eligible, and one is returned. -/
theorem one_of_two :
    ¬ Enough (index.semanticSearch []) (fun _ => true) 2 false false := by
  have hall : forall window,
      (index.semanticSearch [] window).filter (fun _ => true) =
        index.semanticSearch [] window :=
    fun window => List.filter_true _
  have hrows : (collectEligible (index.semanticSearch []) (fun _ => true) 2
      false false).rows = index.semanticSearch [] 2 := by
    unfold collectEligible
    rw [collectFrom, hall, if_pos (Or.inr rfl)]
    rfl
  have hlength : (index.semanticSearch [] 2).length = 1 := by
    rw [← List.length_map (f := fun h : Hit Nat => h.doc_id), first_window]
    rfl
  have hdistinct : distinctEligible (index.semanticSearch [])
      (fun _ => true) (ceilingOf 2 false) = 2 := by
    unfold distinctEligible eligibleRows
    rw [hall]
    change ((index.semanticSearch [] 512).map (·.doc_id)).dedup.length = 2
    rw [ceiling_window]
    decide
  unfold Enough
  rw [hrows, hlength, hdistinct]
  decide

end LongPage

end Recall
end Minni
