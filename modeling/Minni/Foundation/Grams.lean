import Mathlib.Algebra.Order.Field.Rat
import Mathlib.Algebra.Order.Field.Basic
import Mathlib.Data.Finset.Card

/-!
# Likeness by shared pieces

The pieces of one length that a list has, and the share of the pieces of two
lists that both have.
-/

namespace Minni
namespace Foundation
namespace Grams

variable {α : Type}

/-!
## Pieces of a list
-/

/-- The pieces of `n` entries that stand next to each other. -/
def grams (n : Nat) : List α -> List (List α)
  | [] => []
  | a :: rest =>
      if n ≤ rest.length + 1 then (a :: rest).take n :: grams n rest else []

theorem grams_cons (n : Nat) (a : α) (rest : List α) :
    grams n (a :: rest) =
      if n ≤ rest.length + 1 then (a :: rest).take n :: grams n rest else [] :=
  rfl

theorem infix_of_mem_grams {n : Nat} {xs gram : List α}
    (h : gram ∈ grams n xs) :
    gram <:+: xs ∧ gram.length = n := by
  induction xs with
  | nil => cases h
  | cons a rest ih =>
      rw [grams_cons] at h
      split at h
      · rename_i hlength
        rcases List.mem_cons.mp h with hhere | hlater
        · rw [hhere]
          constructor
          · exact (List.take_prefix n (a :: rest)).isInfix
          · rw [List.length_take, List.length_cons]
            exact min_eq_left hlength
        · rcases ih hlater with ⟨hinfixed, hn⟩
          exact ⟨hinfixed.trans (List.suffix_cons a rest).isInfix, hn⟩
      · cases h

theorem mem_grams {n : Nat} {xs gram : List α} (hn : 0 < n)
    (hinfixed : gram <:+: xs) (hlength : gram.length = n) :
    gram ∈ grams n xs := by
  induction xs with
  | nil =>
      rw [List.infix_nil.mp hinfixed] at hlength
      exact absurd hlength (ne_of_lt hn)
  | cons a rest ih =>
      have hlong : n ≤ rest.length + 1 := by
        rw [← hlength]
        exact hinfixed.length_le
      rw [grams_cons, if_pos hlong]
      rcases List.infix_cons_iff.mp hinfixed with hprefixed | hlater
      · rw [List.prefix_iff_eq_take.mp hprefixed, hlength]
        exact List.mem_cons_self
      · exact List.mem_cons_of_mem _ (ih hlater)

/-- A list that is long enough has a piece. -/
theorem exists_gram {n : Nat} {xs : List α} (hn : 0 < n)
    (hlength : n ≤ xs.length) :
    exists gram, gram ∈ grams n xs := by
  refine ⟨xs.take n, mem_grams hn (List.take_prefix n xs).isInfix ?_⟩
  rw [List.length_take]
  exact min_eq_left hlength

/-!
## Shares
-/

section Jaccard

variable [DecidableEq α]

/-- The share of the common entries; of two empty sets it is none. -/
def jaccard (A B : Finset α) : Rat :=
  ((A ∩ B).card : Rat) / ((A ∪ B).card : Rat)

variable {A B : Finset α}

theorem jaccard_comm (A B : Finset α) : jaccard A B = jaccard B A := by
  unfold jaccard
  rw [Finset.inter_comm, Finset.union_comm]

theorem jaccard_nonneg : 0 ≤ jaccard A B :=
  div_nonneg (Nat.cast_nonneg _) (Nat.cast_nonneg _)

theorem jaccard_le_one : jaccard A B ≤ 1 := by
  have hle : ((A ∩ B).card : Rat) ≤ ((A ∪ B).card : Rat) :=
    Nat.cast_le.mpr (Finset.card_le_card
      (Finset.inter_subset_left.trans Finset.subset_union_left))
  exact div_le_one_of_le₀ hle (Nat.cast_nonneg _)

/-- A share stays below a threshold when too few entries are common. -/
theorem jaccard_lt_iff {p q : Nat} (hp : 0 < p) (hq : 0 < q) :
    jaccard A B < (p : Rat) / q <->
      (A ∩ B ≠ ∅ -> q * (A ∩ B).card < p * (A ∪ B).card) := by
  have hqrat : (0 : Rat) < q := Nat.cast_pos.mpr hq
  have hprat : (0 : Rat) < p := Nat.cast_pos.mpr hp
  by_cases hempty : A ∩ B = ∅
  · have hzero : jaccard A B = 0 := by
      unfold jaccard
      rw [hempty, Finset.card_empty, Nat.cast_zero, zero_div]
    constructor
    · intro _ hne
      exact absurd hempty hne
    · intro _
      rw [hzero]
      exact div_pos hprat hqrat
  · have hnonempty : (A ∩ B).Nonempty := Finset.nonempty_iff_ne_empty.mpr hempty
    have hunion : 0 < (A ∪ B).card := Finset.card_pos.mpr
      (hnonempty.mono (Finset.inter_subset_left.trans
        Finset.subset_union_left))
    have hunionRat : (0 : Rat) < (A ∪ B).card := Nat.cast_pos.mpr hunion
    unfold jaccard
    rw [div_lt_div_iff₀ hunionRat hqrat]
    constructor
    · intro h _
      rw [Nat.mul_comm]
      exact_mod_cast h
    · intro h
      have hless := h hempty
      rw [Nat.mul_comm] at hless
      exact_mod_cast hless

end Jaccard

end Grams
end Foundation
end Minni
