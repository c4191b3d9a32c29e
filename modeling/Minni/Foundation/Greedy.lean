import Mathlib.Data.List.Induction

/-!
# Keeping the first of each kind

A list is gone through once.  An entry is kept unless it is dropped for what it
is, or resembles one that is kept already.  To resemble need not be transitive.
-/

namespace Minni
namespace Foundation
namespace Greedy

variable {α : Type} (drops : α -> Bool) (resembles : α -> α -> Bool)

def keep (kept : List α) (a : α) : List α :=
  if drops a || kept.any (resembles a) then kept else kept ++ [a]

def keepers (xs : List α) : List α :=
  xs.foldl (keep drops resembles) []

theorem keepers_snoc (xs : List α) (a : α) :
    keepers drops resembles (xs ++ [a]) =
      if drops a || (keepers drops resembles xs).any (resembles a) then
        keepers drops resembles xs
      else keepers drops resembles xs ++ [a] := by
  unfold keepers
  rw [List.foldl_append]
  rfl

variable {drops resembles} {xs : List α}

theorem mem_of_mem_keepers {a : α} (h : a ∈ keepers drops resembles xs) :
    a ∈ xs := by
  induction xs using List.reverseRecOn with
  | nil => exact h
  | append_singleton xs b ih =>
      rw [keepers_snoc] at h
      split at h
      · exact List.mem_append_left _ (ih h)
      · rcases List.mem_append.mp h with hbefore | hhere
        · exact List.mem_append_left _ (ih hbefore)
        · exact List.mem_append_right _ hhere

theorem mem_keepers_snoc {a b : α} (h : a ∈ keepers drops resembles xs) :
    a ∈ keepers drops resembles (xs ++ [b]) := by
  rw [keepers_snoc]
  split
  · exact h
  · exact List.mem_append_left _ h

theorem keepers_not_dropped {a : α} (h : a ∈ keepers drops resembles xs) :
    drops a = false := by
  induction xs using List.reverseRecOn with
  | nil => cases h
  | append_singleton xs b ih =>
      rw [keepers_snoc] at h
      split at h
      · exact ih h
      · rename_i hkept
        rw [Bool.or_eq_true, not_or, Bool.not_eq_true] at hkept
        rcases List.mem_append.mp h with hbefore | hhere
        · exact ih hbefore
        · rw [List.mem_singleton.mp hhere]
          exact hkept.left

/-- No kept entry resembles one that was kept before it. -/
theorem keepers_pairwise :
    (keepers drops resembles xs).Pairwise
      fun before after => resembles after before = false := by
  induction xs using List.reverseRecOn with
  | nil => exact List.Pairwise.nil
  | append_singleton xs b ih =>
      rw [keepers_snoc]
      split
      · exact ih
      · rename_i hkept
        rw [Bool.or_eq_true, not_or, Bool.not_eq_true, Bool.not_eq_true]
          at hkept
        apply List.pairwise_append.mpr
        refine ⟨ih, List.pairwise_singleton _ _, ?_⟩
        intro before hbefore after hafter
        rw [List.mem_singleton.mp hafter]
        exact Bool.eq_false_iff.mpr
          (List.any_eq_false.mp hkept.right before hbefore)

/-- What is not kept is dropped, or resembles an entry that is. -/
theorem keepers_cover {a : α} (h : a ∈ xs) :
    drops a = true ∨ a ∈ keepers drops resembles xs ∨
      exists e, e ∈ keepers drops resembles xs ∧ resembles a e = true := by
  induction xs using List.reverseRecOn with
  | nil => cases h
  | append_singleton xs b ih =>
      rcases List.mem_append.mp h with hbefore | hhere
      · rcases ih hbefore with hdrops | hkept | ⟨e, he, hlike⟩
        · exact Or.inl hdrops
        · exact Or.inr (Or.inl (mem_keepers_snoc hkept))
        · exact Or.inr (Or.inr ⟨e, mem_keepers_snoc he, hlike⟩)
      · rw [List.mem_singleton.mp hhere, keepers_snoc]
        split
        · rename_i hgone
          rw [Bool.or_eq_true] at hgone
          rcases hgone with hdrops | hany
          · exact Or.inl hdrops
          · rcases List.any_eq_true.mp hany with ⟨e, he, hlike⟩
            exact Or.inr (Or.inr ⟨e, he, hlike⟩)
        · exact Or.inr (Or.inl (List.mem_append_right _
            (List.mem_singleton_self b)))

/-- Where nothing is dropped and nothing resembles an earlier entry, all is
kept. -/
theorem keepers_eq_self (hdrops : forall a, a ∈ xs -> drops a = false)
    (hapart : xs.Pairwise fun before after => resembles after before = false) :
    keepers drops resembles xs = xs := by
  induction xs using List.reverseRecOn with
  | nil => rfl
  | append_singleton xs b ih =>
      rcases List.pairwise_append.mp hapart with ⟨hbefore, _, hlast⟩
      have hself := ih
        (fun a ha => hdrops a (List.mem_append_left _ ha)) hbefore
      rw [keepers_snoc, hself, if_neg]
      rw [Bool.or_eq_true, not_or, Bool.not_eq_true, Bool.not_eq_true]
      constructor
      · exact hdrops b (List.mem_append_right _ (List.mem_singleton_self b))
      · apply List.any_eq_false.mpr
        intro before hmem
        exact Bool.eq_false_iff.mp
          (hlast before hmem b (List.mem_singleton_self b))

end Greedy
end Foundation
end Minni
