import Mathlib.Data.List.Sort
import Mathlib.Data.List.Perm.Basic

/-!
# Pages by key

Rows are read in the order of a key, a page at a time: each page begins after
the last key of the page before it, and a page that is not full is the last.
Where the keys differ, the pages together are all the rows after the first key,
and what is left out of the rows is left out of the order alone.
-/

namespace Minni
namespace Foundation
namespace Paging

variable {α κ σ : Type} [LinearOrder κ] (key : α -> κ)

/-- The rows in the order of the key. -/
def inOrder (rows : List α) : List α :=
  rows.mergeSort fun a b => decide (key a ≤ key b)

/-- No two rows have one key. -/
def Distinct (rows : List α) : Prop :=
  rows.Pairwise fun a b => key a ≠ key b

def Ascending (rows : List α) : Prop :=
  rows.Pairwise fun a b => key a < key b

/-- `ORDER BY key` and `LIMIT size`, on the rows after a key. -/
def page (size : Nat) (rows : List α) (after : κ) : List α :=
  (inOrder key (rows.filter fun row => decide (after < key row))).take size

/-- The loop over the pages: a step for each row, until a page is not full. -/
def walk (size : Nat) (fetch : κ -> List α) (step : σ -> α -> σ) :
    Nat -> κ -> σ -> σ
  | 0, _, s => s
  | fuel + 1, after, s =>
      let rows := fetch after
      match rows.getLast? with
      | none => s
      | some last =>
          let s' := rows.foldl step s
          if rows.length < size then s'
          else walk size fetch step fuel (key last) s'

/-!
## The order
-/

theorem inOrder_perm (rows : List α) : (inOrder key rows).Perm rows :=
  List.mergeSort_perm rows _

theorem mem_inOrder {rows : List α} {row : α} :
    row ∈ inOrder key rows <-> row ∈ rows :=
  (inOrder_perm key rows).mem_iff

variable {key}

theorem inOrder_ascending {rows : List α} (h : Distinct key rows) :
    Ascending key (inOrder key rows) := by
  have hle : (inOrder key rows).Pairwise fun a b => key a ≤ key b := by
    have hsorted := @List.pairwise_mergeSort α
      (fun a b => decide (key a ≤ key b))
      (fun a b c hab hbc => decide_eq_true
        (le_trans (of_decide_eq_true hab) (of_decide_eq_true hbc)))
      (fun a b => by
        rcases le_total (key a) (key b) with hab | hba
        · simp [hab]
        · simp [hba]) rows
    exact hsorted.imp fun hab => of_decide_eq_true hab
  have hne : Distinct key (inOrder key rows) :=
    (inOrder_perm key rows).symm.pairwise h fun hab => Ne.symm hab
  exact (hle.and hne).imp fun hab => lt_of_le_of_ne hab.1 hab.2

/-- Two ascending lists of the same rows are the same. -/
theorem ascending_unique {rows others : List α} (hrows : Ascending key rows)
    (hothers : Ascending key others) (hperm : rows.Perm others) :
    rows = others := by
  apply List.Perm.eq_of_pairwise _ hrows hothers hperm
  intro a b _ _ hab hba
  exact absurd hba (lt_asymm hab)

/-- Rows that are left out do not change the order of the others. -/
theorem inOrder_filter {rows : List α} (h : Distinct key rows)
    (keep : α -> Bool) :
    inOrder key (rows.filter keep) = (inOrder key rows).filter keep := by
  have hperm := (inOrder_perm key (rows.filter keep)).trans
    ((inOrder_perm key rows).symm.filter keep)
  exact ascending_unique (inOrder_ascending (h.filter keep))
    ((inOrder_ascending h).filter keep) hperm

/-!
## The pages
-/

theorem filter_drop_of_ascending {rows : List α} (h : Ascending key rows)
    {last : α} {size : Nat} (hlast : (rows.take size).getLast? = some last) :
    rows.filter (fun row => decide (key last < key row)) = rows.drop size := by
  rcases List.getLast?_eq_some_iff.mp hlast with ⟨front, hfront⟩
  have hsplit : rows = front ++ [last] ++ rows.drop size := by
    rw [← hfront]
    exact (List.take_append_drop size rows).symm
  have hparts := h
  unfold Ascending at hparts
  rw [hsplit] at hparts
  rcases List.pairwise_append.mp hparts with ⟨hpage, _, hcross⟩
  have hbefore : (front ++ [last]).filter
      (fun row => decide (key last < key row)) = [] := by
    rw [List.filter_eq_nil_iff]
    intro row hrow hlt
    have hless := of_decide_eq_true hlt
    rcases List.mem_append.mp hrow with hin | hend
    · exact lt_asymm hless ((List.pairwise_append.mp hpage).2.2 row hin last
        List.mem_cons_self)
    · rw [List.mem_singleton.mp hend] at hless
      exact lt_irrefl _ hless
  have hafter : (rows.drop size).filter
      (fun row => decide (key last < key row)) = rows.drop size := by
    rw [List.filter_eq_self]
    intro row hrow
    exact decide_eq_true (hcross last
      (List.mem_append_right front List.mem_cons_self) row hrow)
  calc rows.filter (fun row => decide (key last < key row))
      = (front ++ [last] ++ rows.drop size).filter
          (fun row => decide (key last < key row)) := by rw [← hsplit]
    _ = rows.drop size := by
        rw [List.filter_append, hbefore, hafter]
        rfl

/-- The rows that come after the last one of a page. -/
theorem after_page {rows : List α} (h : Distinct key rows) {size : Nat}
    {after : κ} {last : α}
    (hlast : (page key size rows after).getLast? = some last) :
    inOrder key (rows.filter fun row => decide (key last < key row)) =
      (inOrder key (rows.filter fun row => decide (after < key row))).drop
        size := by
  have hmem : last ∈ rows.filter fun row => decide (after < key row) := by
    have hin := List.mem_of_mem_take (List.mem_of_getLast? hlast)
    exact (mem_inOrder key).mp hin
  have hbeyond := of_decide_eq_true (List.mem_filter.mp hmem).2
  have hsame : (rows.filter fun row => decide (key last < key row)) =
      ((rows.filter fun row => decide (after < key row)).filter
        fun row => decide (key last < key row)) := by
    rw [List.filter_filter]
    apply List.filter_congr
    intro row _
    by_cases hlt : key last < key row
    · simp [hlt, lt_trans hbeyond hlt]
    · simp [hlt]
  have hdistinct : Distinct key
      (rows.filter fun row => decide (after < key row)) := h.filter _
  rw [hsame, inOrder_filter hdistinct]
  exact filter_drop_of_ascending (inOrder_ascending hdistinct) hlast

/-- The loop goes through all the rows after the first key, in order. -/
theorem walk_eq_foldl {rows : List α} (h : Distinct key rows) {size : Nat}
    (hsize : 0 < size) (step : σ -> α -> σ) {fuel : Nat} {after : κ} (s : σ)
    (hfuel : (rows.filter fun row => decide (after < key row)).length < fuel) :
    walk key size (page key size rows) step fuel after s =
      (inOrder key (rows.filter fun row => decide (after < key row))).foldl
        step s := by
  induction fuel generalizing after s with
  | zero => exact absurd hfuel (Nat.not_lt_zero _)
  | succ fuel ih =>
      have hlength := (inOrder_perm key
        (rows.filter fun row => decide (after < key row))).length_eq
      unfold walk
      dsimp only
      cases hlast : (page key size rows after).getLast? with
      | none =>
          have hempty := List.getLast?_eq_none_iff.mp hlast
          unfold page at hempty
          rcases List.take_eq_nil_iff.mp hempty with hzero | hnil
          · exact absurd hzero (Nat.ne_of_gt hsize)
          · rw [hnil]
            rfl
      | some last =>
          dsimp only
          have hrest := after_page h hlast
          unfold page at hlast ⊢
          generalize hbeyond : inOrder key
            (rows.filter fun row => decide (after < key row)) = beyond at *
          split
          · rename_i hshort
            rw [List.length_take] at hshort
            have hall : beyond.take size = beyond :=
              List.take_of_length_le (by omega)
            rw [hall]
          · rename_i hfull
            have hfewer : (rows.filter
                fun row => decide (key last < key row)).length < fuel := by
              have hperm := (inOrder_perm key (rows.filter
                fun row => decide (key last < key row))).length_eq
              rw [hrest, List.length_drop] at hperm
              rw [List.length_take] at hfull
              omega
            have hnext := ih (beyond.take size |>.foldl step s) hfewer
            rw [hrest] at hnext
            rw [show (fun after => (inOrder key (rows.filter
              fun row => decide (after < key row))).take size) =
                page key size rows from rfl, hnext, ← List.foldl_append,
              List.take_append_drop]

end Paging
end Foundation
end Minni
