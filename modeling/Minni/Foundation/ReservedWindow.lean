import Mathlib.Data.List.Sort
import Mathlib.Order.Defs.LinearOrder

/-!
# A ranked window with reserved places

The first `n` items of a ranking, where some items keep a place whatever their
score is.  They take the places of the last items that have none reserved, and
the window is ranked again.
-/

namespace Minni
namespace Foundation
namespace Window

section Ranked

variable {item score : Type} [DecidableEq item] [LinearOrder score]

/-!
## Rankings
-/

def ahead (key : item -> score) (left right : item) : Prop :=
  key right ≤ key left

instance (key : item -> score) : DecidableRel (ahead key) :=
  fun left right => inferInstanceAs (Decidable (key right ≤ key left))

instance (key : item -> score) : Std.Total (ahead key) where
  total := fun left right => le_total (key right) (key left)

instance (key : item -> score) : IsTrans item (ahead key) where
  trans := fun _ _ _ hfirst hsecond => le_trans hsecond hfirst

/-- Best first; equal scores keep their order. -/
def rankBy (key : item -> score) (items : List item) : List item :=
  items.insertionSort (ahead key)

variable {key : item -> score}

omit [DecidableEq item] in
theorem rankBy_perm (items : List item) : (rankBy key items).Perm items :=
  List.perm_insertionSort _ _

omit [DecidableEq item] in
theorem rankBy_pairwise (items : List item) :
    (rankBy key items).Pairwise (ahead key) :=
  List.pairwise_insertionSort _ _

/-!
## Filling up
-/

/-- Items of a window that are not yet kept, until `n` are kept. -/
def fillUp (n : Nat) : List item -> List item -> List item
  | kept, [] => kept
  | kept, r :: rest =>
      if n ≤ kept.length then kept
      else if r ∈ kept then fillUp n kept rest
      else fillUp n (kept ++ [r]) rest

theorem fillUp_eq {n : Nat} {kept window : List item}
    (hnodup : window.Nodup) :
    fillUp n kept window =
      kept ++ (window.filter fun r => r ∉ kept).take (n - kept.length) := by
  induction window generalizing kept with
  | nil =>
      rw [List.filter_nil, List.take_nil, List.append_nil]
      rfl
  | cons r rest ih =>
      have hrest := List.nodup_cons.mp hnodup
      rw [fillUp]
      split
      · rename_i hfull
        rw [Nat.sub_eq_zero_of_le hfull, List.take_zero, List.append_nil]
      · rename_i hmore
        split
        · rename_i hkept
          rw [ih hrest.right, List.filter_cons_of_neg (by simpa using hkept)]
        · rename_i hnew
          have hsame : (rest.filter fun s => s ∉ kept ++ [r]) =
              rest.filter fun s => s ∉ kept := by
            apply List.filter_congr
            intro s hs
            have hne : s ≠ r := by
              intro heq
              rw [heq] at hs
              exact hrest.left hs
            simp only [List.mem_append, List.mem_singleton, hne, or_false]
          have hcount : n - kept.length = n - (kept ++ [r]).length + 1 := by
            rw [List.length_append, List.length_singleton]
            omega
          rw [ih hrest.right, hsame,
            List.filter_cons_of_pos (by simpa using hnew), hcount,
            List.take_succ_cons, List.append_assoc]
          rfl

/-!
## The window
-/

/-- `missing` holds the reserved items that the first `n` do not hold. -/
def reserve (key : item -> score) (reserved : item -> Bool) (n : Nat)
    (ranked missing : List item) : List item :=
  if missing = [] then ranked.take n
  else
    (rankBy key (fillUp (n - missing.length)
      ((ranked.take n).filter reserved) (ranked.take n) ++ missing)).take n

/-- What a window with reserved places holds of a ranking. -/
structure Reserves (key : item -> score) (reserved : item -> Bool) (n : Nat)
    (ranked window : List item) : Prop where
  nodup : window.Nodup
  length_le : window.length ≤ n
  subset : forall r, r ∈ window -> r ∈ ranked
  descending : window.Pairwise (ahead key)
  holds : forall r, r ∈ ranked -> reserved r = true -> r ∈ window
  omits : forall d, d ∈ ranked -> d ∉ window -> window.length = n ∧
    forall r, r ∈ window -> key d ≤ key r ∨ reserved r = true

section

variable {reserved : item -> Bool} {n : Nat} {ranked missing : List item}

omit [DecidableEq item] in
theorem take_ahead (hranked : ranked.Pairwise (ahead key)) {r d : item}
    (hr : r ∈ ranked.take n) (hd : d ∈ ranked.drop n) : key d ≤ key r := by
  have hsplit := List.take_append_drop n ranked
  rw [← hsplit] at hranked
  exact (List.pairwise_append.mp hranked).right.right r hr d hd

omit [DecidableEq item] in
theorem drop_of_not_take {d : item} (hd : d ∈ ranked)
    (hnot : d ∉ ranked.take n) : d ∈ ranked.drop n := by
  rw [← List.take_append_drop n ranked] at hd
  rcases List.mem_append.mp hd with htake | hdrop
  · exact absurd htake hnot
  · exact hdrop

omit [DecidableEq item] in
theorem take_length_of_drop {d : item} (hd : d ∈ ranked.drop n) :
    (ranked.take n).length = n := by
  have hpos := List.length_pos_of_mem hd
  rw [List.length_drop] at hpos
  rw [List.length_take]
  omega

omit [DecidableEq item] in
/-- The window that needs no change. -/
theorem take_reserves (hnodup : ranked.Nodup)
    (hranked : ranked.Pairwise (ahead key))
    (hholds : forall r, r ∈ ranked -> reserved r = true ->
      r ∈ ranked.take n) :
    Reserves key reserved n ranked (ranked.take n) := by
  constructor
  · exact hnodup.sublist (List.take_sublist n ranked)
  · exact List.length_take_le n ranked
  · exact fun r hr => List.mem_of_mem_take hr
  · exact hranked.sublist (List.take_sublist n ranked)
  · exact hholds
  · intro d hd hnot
    have hdrop := drop_of_not_take hd hnot
    exact ⟨take_length_of_drop hdrop,
      fun r hr => Or.inl (take_ahead hranked hr hdrop)⟩

/-- The window whose last items make room for the missing ones. -/
theorem filled_reserves (hnodup : ranked.Nodup)
    (hranked : ranked.Pairwise (ahead key))
    (hmissing : forall r, r ∈ missing <->
      r ∈ ranked ∧ reserved r = true ∧ r ∉ ranked.take n)
    (hmissingNodup : missing.Nodup) (hsome : missing ≠ [])
    (hfew : (ranked.filter reserved).length ≤ n) :
    Reserves key reserved n ranked
      ((rankBy key (fillUp (n - missing.length)
        ((ranked.take n).filter reserved) (ranked.take n) ++ missing)).take
          n) := by
  have hwindowNodup : (ranked.take n).Nodup :=
    hnodup.sublist (List.take_sublist n ranked)
  rcases List.exists_mem_of_ne_nil missing hsome with ⟨first, hfirst⟩
  have hfull : (ranked.take n).length = n :=
    take_length_of_drop (drop_of_not_take ((hmissing first).mp hfirst).left
      ((hmissing first).mp hfirst).right.right)
  -- The reserved items of the window and the missing ones have room.
  have hroom : ((ranked.take n).filter reserved).length + missing.length ≤
      n := by
    have hboth : ((ranked.take n).filter reserved ++ missing).Nodup := by
      apply List.nodup_append.mpr
      refine ⟨hwindowNodup.filter reserved, hmissingNodup, ?_⟩
      intro r hr s hs heq
      rw [heq] at hr
      exact ((hmissing s).mp hs).right.right (List.mem_filter.mp hr).left
    have hsubset : (ranked.take n).filter reserved ++ missing ⊆
        ranked.filter reserved := by
      intro r hr
      rcases List.mem_append.mp hr with hkept | hadded
      · rcases List.mem_filter.mp hkept with ⟨hmem, hreserved⟩
        exact List.mem_filter.mpr ⟨List.mem_of_mem_take hmem, hreserved⟩
      · rcases (hmissing r).mp hadded with ⟨hmem, hreserved, _⟩
        exact List.mem_filter.mpr ⟨hmem, hreserved⟩
    have hle := (List.subperm_of_subset hboth hsubset).length_le
    rw [List.length_append] at hle
    exact Nat.le_trans hle hfew
  have hothers : ((ranked.take n).filter fun r =>
      r ∉ (ranked.take n).filter reserved) =
        (ranked.take n).filter fun r => !reserved r := by
    apply List.filter_congr
    intro r hr
    simp only [List.mem_filter, hr, true_and]
    cases reserved r with
    | true => rfl
    | false => rfl
  have hsplit : ((ranked.take n).filter reserved).length +
      ((ranked.take n).filter fun r => !reserved r).length = n := by
    have hcount := (List.length_eq_length_filter_add
      (l := ranked.take n) reserved).symm
    rw [hfull] at hcount
    exact hcount
  rw [fillUp_eq hwindowNodup, hothers]
  generalize hplaces :
    n - missing.length - ((ranked.take n).filter reserved).length = places
  have hlength : ((ranked.take n).filter reserved ++
      ((ranked.take n).filter fun r => !reserved r).take places ++
        missing).length = n := by
    rw [List.length_append, List.length_append, List.length_take]
    omega
  have hmem : forall r, r ∈ rankBy key ((ranked.take n).filter reserved ++
      ((ranked.take n).filter fun r => !reserved r).take places ++
        missing) <->
      (r ∈ ranked.take n ∧ reserved r = true) ∨
        r ∈ ((ranked.take n).filter fun r => !reserved r).take places ∨
          r ∈ missing := by
    intro r
    rw [(rankBy_perm _).mem_iff, List.mem_append, List.mem_append,
      List.mem_filter, or_assoc]
  have hwhole : (rankBy key ((ranked.take n).filter reserved ++
      ((ranked.take n).filter fun r => !reserved r).take places ++
        missing)).take n =
      rankBy key ((ranked.take n).filter reserved ++
        ((ranked.take n).filter fun r => !reserved r).take places ++
          missing) := by
    apply List.take_of_length_le
    rw [(rankBy_perm _).length_eq, hlength]
  rw [hwhole]
  have hadded : forall r,
      r ∈ ((ranked.take n).filter fun r => !reserved r).take places ->
        r ∈ ranked.take n ∧ reserved r = false := by
    intro r hr
    rcases List.mem_filter.mp (List.mem_of_mem_take hr) with ⟨hin, hno⟩
    exact ⟨hin, by simpa using hno⟩
  constructor
  · rw [(rankBy_perm _).nodup_iff]
    apply List.nodup_append.mpr
    refine ⟨?_, hmissingNodup, ?_⟩
    · apply List.nodup_append.mpr
      refine ⟨hwindowNodup.filter reserved,
        (hwindowNodup.filter _).sublist (List.take_sublist _ _), ?_⟩
      intro r hr s hs heq
      rw [← heq] at hs
      have hno := (hadded r hs).right
      rw [(List.mem_filter.mp hr).right] at hno
      cases hno
    · intro r hr s hs heq
      rw [← heq] at hs
      have hout := ((hmissing r).mp hs).right.right
      rcases List.mem_append.mp hr with hkept | hfilled
      · exact hout (List.mem_filter.mp hkept).left
      · exact hout (hadded r hfilled).left
  · rw [(rankBy_perm _).length_eq, hlength]
  · intro r hr
    rcases (hmem r).mp hr with hkept | hfilled | hlast
    · exact List.mem_of_mem_take hkept.left
    · exact List.mem_of_mem_take (hadded r hfilled).left
    · exact ((hmissing r).mp hlast).left
  · exact rankBy_pairwise _
  · intro r hr hreserved
    apply (hmem r).mpr
    by_cases hin : r ∈ ranked.take n
    · exact Or.inl ⟨hin, hreserved⟩
    · exact Or.inr (Or.inr ((hmissing r).mpr ⟨hr, hreserved, hin⟩))
  · intro d hd hnot
    refine ⟨by rw [(rankBy_perm _).length_eq, hlength], ?_⟩
    intro r hr
    rcases (hmem r).mp hr with hkept | hfilled | hlast
    · exact Or.inr hkept.right
    · apply Or.inl
      by_cases hin : d ∈ ranked.take n
      · have hno : reserved d = false := by
          cases hreserved : reserved d with
          | false => rfl
          | true => exact absurd ((hmem d).mpr (Or.inl ⟨hin, hreserved⟩)) hnot
        have hdrop : d ∈ ((ranked.take n).filter fun r => !reserved r).drop
            places := by
          apply drop_of_not_take
          · exact List.mem_filter.mpr ⟨hin, by rw [hno]; rfl⟩
          · exact fun hbad => hnot ((hmem d).mpr (Or.inr (Or.inl hbad)))
        apply take_ahead (n := places) _ hfilled hdrop
        exact hranked.sublist
          (List.filter_sublist.trans (List.take_sublist n ranked))
      · exact take_ahead hranked (hadded r hfilled).left
          (drop_of_not_take hd hin)
    · exact Or.inr ((hmissing r).mp hlast).right.left

/-- The window holds every reserved item, and leaves out only what ranks
behind the items that have no place reserved. -/
theorem reserve_reserves (hnodup : ranked.Nodup)
    (hranked : ranked.Pairwise (ahead key))
    (hmissing : forall r, r ∈ missing <->
      r ∈ ranked ∧ reserved r = true ∧ r ∉ ranked.take n)
    (hmissingNodup : missing.Nodup)
    (hfew : (ranked.filter reserved).length ≤ n) :
    Reserves key reserved n ranked
      (reserve key reserved n ranked missing) := by
  unfold reserve
  split
  · rename_i hnone
    apply take_reserves hnodup hranked
    intro r hr hreserved
    by_contra hout
    have hbad := (hmissing r).mpr ⟨hr, hreserved, hout⟩
    rw [hnone] at hbad
    cases hbad
  · rename_i hsome
    exact filled_reserves hnodup hranked hmissing hmissingNodup hsome hfew

end

end Ranked
end Window
end Foundation
end Minni
