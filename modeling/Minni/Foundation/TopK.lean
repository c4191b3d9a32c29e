import Mathlib.Data.List.Sort
import Mathlib.Order.Defs.LinearOrder

/-!
# The best positions of a list of scores

A search by scores gives the positions of the `k` best scores, best first; how
it orders equal scores is its own affair.  Where some positions no longer
count, the first `k` of the others among the hits are the best of those that
count, as long as the hits hold enough of them.
-/

namespace Minni
namespace Foundation

section TopK

variable {score : Type} [LinearOrder score]

/-- The hits are the `k` best scores with their positions. -/
structure IsTopK (scores : List score) (k : Nat)
    (hits : List (score × Nat)) : Prop where
  nodup : (hits.map Prod.snd).Nodup
  score : forall hit, hit ∈ hits -> scores[hit.2]? = some hit.1
  length : hits.length = min k scores.length
  descending : hits.Pairwise fun first later => later.1 ≤ first.1
  best : forall i s, scores[i]? = some s -> i ∉ hits.map Prod.snd ->
    forall hit, hit ∈ hits -> s ≤ hit.1

/-- A search that finds the best scores. -/
structure TopK (score : Type) [LinearOrder score] where
  run : List score -> Nat -> List (score × Nat)
  exact : forall scores k, IsTopK scores k (run scores k)

/-!
## Hits that count
-/

/-- The positions that count. -/
def countedPositions (n : Nat) (counts : Nat -> Bool) : List Nat :=
  (List.range n).filter counts

/-- The hits that count, at most `k` of them. -/
def countedHits (counts : Nat -> Bool) (k : Nat) (hits : List (score × Nat)) :
    List (score × Nat) :=
  (hits.filter fun hit => counts hit.2).take k

variable {scores : List score} {m k : Nat} {hits : List (score × Nat)}
variable {counts : Nat -> Bool}

theorem IsTopK.bound
    (h : IsTopK scores m hits) {hit : score × Nat} (hhit : hit ∈ hits) :
    hit.2 < scores.length :=
  (List.getElem?_eq_some_iff.mp (h.score hit hhit)).fst

omit [LinearOrder score] in
@[simp]
theorem countedHits_nil :
    countedHits counts k ([] : List (score × Nat)) = [] := by
  simp [countedHits]

omit [LinearOrder score] in
theorem mem_countedHits
    {hit : score × Nat} (hhit : hit ∈ countedHits counts k hits) :
    hit ∈ hits ∧ counts hit.2 = true :=
  List.mem_filter.mp (List.mem_of_mem_take hhit)

omit [LinearOrder score] in
theorem countedHits_sublist (counts : Nat -> Bool) (k : Nat)
    (hits : List (score × Nat)) : (countedHits counts k hits).Sublist hits :=
  (List.take_sublist _ _).trans List.filter_sublist

/-- There are no more hits that count than positions. -/
theorem IsTopK.counted_length_le (h : IsTopK scores m hits) :
    (hits.filter fun hit => counts hit.2).length ≤
      (countedPositions scores.length counts).length := by
  have hnodup : ((hits.filter fun hit => counts hit.2).map Prod.snd).Nodup :=
    h.nodup.sublist (List.filter_sublist.map _)
  have hsubset : ((hits.filter fun hit => counts hit.2).map Prod.snd) ⊆
      countedPositions scores.length counts := by
    intro i hi
    rcases List.mem_map.mp hi with ⟨hit, hhit, heq⟩
    rcases List.mem_filter.mp hhit with ⟨hmem, hcounts⟩
    rw [← heq]
    exact List.mem_filter.mpr ⟨List.mem_range.mpr (h.bound hmem), hcounts⟩
  have hle := (List.subperm_of_subset hnodup hsubset).length_le
  rw [List.length_map] at hle
  exact hle

/-- Enough hits count. -/
def Covers (scores : List score) (counts : Nat -> Bool) (k : Nat)
    (hits : List (score × Nat)) : Prop :=
  min k (countedPositions scores.length counts).length ≤
    (hits.filter fun hit => counts hit.2).length

theorem IsTopK.counted_length
    (h : IsTopK scores m hits) (hcovers : Covers scores counts k hits) :
    (countedHits counts k hits).length =
      min k (countedPositions scores.length counts).length := by
  have hle := @IsTopK.counted_length_le _ _ _ _ _ counts h
  unfold Covers at hcovers
  unfold countedHits
  rw [List.length_take]
  omega

/-- A position that counts and is not among them scores no better. -/
theorem IsTopK.counted_best
    (h : IsTopK scores m hits) {i : Nat} {s : score}
    (hi : scores[i]? = some s) (hcounts : counts i = true)
    (hnot : i ∉ (countedHits counts k hits).map Prod.snd) :
    forall hit, hit ∈ countedHits counts k hits -> s ≤ hit.1 := by
  intro hit hhit
  by_cases hmem : i ∈ hits.map Prod.snd
  · rcases List.mem_map.mp hmem with ⟨other, hother, heq⟩
    have hother_score : other.1 = s := by
      have hs := h.score other hother
      rw [heq, hi] at hs
      exact (Option.some.inj hs).symm
    have hfiltered : other ∈ hits.filter fun hit => counts hit.2 := by
      apply List.mem_filter.mpr
      rw [heq]
      exact ⟨hother, hcounts⟩
    have hsplit := List.take_append_drop k
      (hits.filter fun hit => counts hit.2)
    have hpairs := h.descending.sublist
      (List.filter_sublist (p := fun hit => counts hit.2))
    rw [← hsplit] at hpairs hfiltered
    rcases List.mem_append.mp hfiltered with htaken | hdropped
    · exact absurd (List.mem_map.mpr ⟨other, htaken, heq⟩) hnot
    · have hle := (List.pairwise_append.mp hpairs).right.right hit hhit other
        hdropped
      rw [hother_score] at hle
      exact hle
  · exact h.best i s hi hmem hit (mem_countedHits hhit).left

/-- Where at most `k` positions do not count, twice as many hits are
enough. -/
theorem IsTopK.covers
    (h : IsTopK scores m hits) (hm : min (2 * k) scores.length ≤ m)
    (hfew : scores.length ≤
      (countedPositions scores.length counts).length + k) :
    Covers scores counts k hits := by
  have hsplit : (hits.filter fun hit => counts hit.2).length +
      (hits.filter fun hit => !counts hit.2).length = hits.length := by
    simpa using (List.length_eq_length_filter_add
      (l := hits) fun hit => counts hit.2).symm
  have huncounted := @IsTopK.counted_length_le _ _ _ _ _ (fun i => !counts i) h
  have hpositions : (countedPositions scores.length counts).length +
      (countedPositions scores.length fun i => !counts i).length =
      scores.length := by
    have hrange := (List.length_eq_length_filter_add
      (l := List.range scores.length) counts).symm
    rw [List.length_range] at hrange
    simpa [countedPositions] using hrange
  have hlength := h.length
  unfold Covers
  omega

/-!
## A search by sorting
-/

def descendingByScore (left right : score × Nat) : Prop :=
  right.1 ≤ left.1

instance : DecidableRel (@descendingByScore score _) :=
  fun left right => inferInstanceAs (Decidable (right.1 ≤ left.1))

instance : Std.Total (@descendingByScore score _) where
  total := fun left right => le_total right.1 left.1

instance : IsTrans (score × Nat) descendingByScore where
  trans := fun _ _ _ hfirst hsecond => le_trans hsecond hfirst

def sortedHits (scores : List score) : List (score × Nat) :=
  scores.zipIdx.insertionSort descendingByScore

theorem sortedHits_perm (scores : List score) :
    (sortedHits scores).Perm scores.zipIdx :=
  List.perm_insertionSort _ _

theorem mem_sortedHits {hit : score × Nat} :
    hit ∈ sortedHits scores <-> scores[hit.2]? = some hit.1 := by
  rw [(sortedHits_perm scores).mem_iff]
  rcases hit with ⟨s, i⟩
  rw [List.mk_mem_zipIdx_iff_getElem?]

theorem isTopK_sorted (scores : List score) (k : Nat) :
    IsTopK scores k ((sortedHits scores).take k) where
  nodup := by
    have hall : ((sortedHits scores).map Prod.snd).Nodup := by
      rw [((sortedHits_perm scores).map Prod.snd).nodup_iff,
        List.zipIdx_map_snd]
      exact List.nodup_range'
    exact hall.sublist ((List.take_sublist _ _).map _)
  score := by
    intro hit hhit
    exact mem_sortedHits.mp (List.mem_of_mem_take hhit)
  length := by
    rw [List.length_take, (sortedHits_perm scores).length_eq,
      List.length_zipIdx]
  descending := (List.pairwise_insertionSort descendingByScore _).sublist
    (List.take_sublist _ _)
  best := by
    intro i s hi hnot hit hhit
    have hmem : (s, i) ∈ sortedHits scores := mem_sortedHits.mpr hi
    have hpairs := List.pairwise_insertionSort descendingByScore scores.zipIdx
    have hsplit := List.take_append_drop k (sortedHits scores)
    unfold sortedHits at hsplit hmem hnot hhit
    rw [← hsplit] at hpairs hmem
    rcases List.mem_append.mp hmem with htaken | hdropped
    · exact absurd (List.mem_map.mpr ⟨(s, i), htaken, rfl⟩) hnot
    · exact (List.pairwise_append.mp hpairs).right.right hit hhit (s, i)
        hdropped

def sortTopK : TopK score where
  run := fun scores k => (sortedHits scores).take k
  exact := isTopK_sorted

end TopK

end Foundation
end Minni
