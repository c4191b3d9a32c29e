/-!
# Dictionaries in the order of their keys

A dictionary is the list of its entries.  Setting a key keeps the place of the
key, and a new key goes to the end.
-/

namespace Minni
namespace Foundation
namespace Dict

section Dict

variable {key value : Type} [DecidableEq key]

def set (k : key) (v : value) : List (key × value) -> List (key × value)
  | [] => [(k, v)]
  | (other, old) :: rest =>
      if other = k then (k, v) :: rest
      else (other, old) :: set k v rest

theorem set_nil (k : key) (v : value) : set k v [] = [(k, v)] :=
  rfl

theorem set_cons (k : key) (v : value) (entry : key × value)
    (rest : List (key × value)) :
    set k v (entry :: rest) =
      if entry.1 = k then (k, v) :: rest
      else (entry.1, entry.2) :: set k v rest :=
  rfl

theorem lookup_set (k : key) (v : value) (dict : List (key × value))
    (wanted : key) :
    (set k v dict).lookup wanted =
      if wanted = k then some v else dict.lookup wanted := by
  by_cases hwanted : wanted = k
  · rw [if_pos hwanted, hwanted]
    induction dict with
    | nil =>
        simp [set_nil]
    | cons entry rest ih =>
        rw [set_cons]
        by_cases hother : entry.1 = k
        · rw [if_pos hother]
          simp
        · rw [if_neg hother, List.lookup_cons,
            beq_eq_false_iff_ne.mpr (Ne.symm hother)]
          exact ih
  · rw [if_neg hwanted]
    have hne : (wanted == k) = false := beq_eq_false_iff_ne.mpr hwanted
    induction dict with
    | nil =>
        rw [set_nil, List.lookup_cons, hne]
    | cons entry rest ih =>
        rw [set_cons]
        by_cases hother : entry.1 = k
        · rw [if_pos hother, List.lookup_cons, List.lookup_cons, hother, hne]
        · rw [if_neg hother, List.lookup_cons, List.lookup_cons, ih]

def erase (k : key) (dict : List (key × value)) : List (key × value) :=
  dict.filter fun entry => decide (entry.1 ≠ k)

theorem lookup_erase (k : key) (dict : List (key × value)) (wanted : key) :
    (erase k dict).lookup wanted =
      if wanted = k then none else dict.lookup wanted := by
  induction dict with
  | nil =>
      simp [erase]
  | cons entry rest ih =>
      unfold erase at ih
      unfold erase
      by_cases hother : entry.1 = k
      · rw [List.filter_cons_of_neg (by simpa using hother), ih]
        by_cases hwanted : wanted = k
        · rw [if_pos hwanted, if_pos hwanted]
        · have hne : wanted ≠ entry.1 := by
            rw [hother]
            exact hwanted
          rw [if_neg hwanted, if_neg hwanted, List.lookup_cons,
            beq_eq_false_iff_ne.mpr hne]
      · rw [List.filter_cons_of_pos (by simpa using hother),
          List.lookup_cons, List.lookup_cons, ih]
        by_cases hwanted : wanted = k
        · have hne : wanted ≠ entry.1 := by
            rw [hwanted]
            exact Ne.symm hother
          rw [beq_eq_false_iff_ne.mpr hne, if_pos hwanted]
        · rw [if_neg hwanted, if_neg hwanted]

theorem mem_of_lookup {dict : List (key × value)} {k : key} {v : value}
    (h : dict.lookup k = some v) :
    (k, v) ∈ dict := by
  induction dict with
  | nil => cases h
  | cons entry rest ih =>
      rw [List.lookup_cons] at h
      by_cases hk : k = entry.1
      · rw [beq_iff_eq.mpr hk] at h
        have hv : entry.2 = v := Option.some.inj h
        rw [hk, ← hv]
        exact List.mem_cons_self
      · rw [beq_eq_false_iff_ne.mpr hk] at h
        exact List.mem_cons_of_mem _ (ih h)

theorem lookup_map {image : Type} (f : key -> value -> image)
    (dict : List (key × value)) (wanted : key) :
    (dict.map fun entry => (entry.1, f entry.1 entry.2)).lookup wanted =
      (dict.lookup wanted).map (f wanted) := by
  induction dict with
  | nil => rfl
  | cons entry rest ih =>
      rw [List.map_cons, List.lookup_cons, List.lookup_cons, ih]
      by_cases hwanted : wanted = entry.1
      · rw [beq_iff_eq.mpr hwanted, hwanted]
        rfl
      · rw [beq_eq_false_iff_ne.mpr hwanted]

theorem lookup_eq_none {dict : List (key × value)} {wanted : key}
    (h : wanted ∉ dict.map (·.1)) :
    dict.lookup wanted = none := by
  induction dict with
  | nil => rfl
  | cons entry rest ih =>
      rw [List.map_cons, List.mem_cons, not_or] at h
      rw [List.lookup_cons, beq_eq_false_iff_ne.mpr h.left]
      exact ih h.right

theorem lookup_eq_none_iff {dict : List (key × value)} {wanted : key} :
    dict.lookup wanted = none <-> wanted ∉ dict.map (·.1) := by
  constructor
  · intro h hmem
    rcases List.mem_map.mp hmem with ⟨entry, hentry, hkey⟩
    have hne := List.lookup_eq_none_iff.mp h entry hentry
    rw [hkey] at hne
    simp at hne
  · exact lookup_eq_none

/-- A new key goes to the end. -/
theorem set_of_lookup_none {dict : List (key × value)} {k : key} {v : value}
    (h : dict.lookup k = none) :
    set k v dict = dict ++ [(k, v)] := by
  induction dict with
  | nil => rfl
  | cons entry rest ih =>
      have hkeys := lookup_eq_none_iff.mp h
      rw [List.map_cons, List.mem_cons, not_or] at hkeys
      rw [set_cons, if_neg (Ne.symm hkeys.left),
        ih (lookup_eq_none hkeys.right)]
      rfl

theorem mem_of_mem_set {dict : List (key × value)} {k : key} {v : value}
    {entry : key × value} (h : entry ∈ set k v dict) :
    entry = (k, v) ∨ entry ∈ dict := by
  induction dict with
  | nil => exact Or.inl (List.mem_singleton.mp h)
  | cons first rest ih =>
      rw [set_cons] at h
      split at h
      · rcases List.mem_cons.mp h with hnew | hrest
        · exact Or.inl hnew
        · exact Or.inr (List.mem_cons_of_mem _ hrest)
      · rcases List.mem_cons.mp h with hfirst | hrest
        · exact Or.inr (List.mem_cons.mpr (Or.inl hfirst))
        · rcases ih hrest with hnew | hmem
          · exact Or.inl hnew
          · exact Or.inr (List.mem_cons_of_mem _ hmem)

theorem nodup_keys_set {dict : List (key × value)} {k : key} {v : value}
    (h : (dict.map (·.1)).Nodup) :
    ((set k v dict).map (·.1)).Nodup := by
  induction dict with
  | nil => simp [set_nil]
  | cons first rest ih =>
      rw [List.map_cons, List.nodup_cons] at h
      rw [set_cons]
      split
      · rename_i hk
        rw [List.map_cons, List.nodup_cons, ← hk]
        exact h
      · rename_i hk
        rw [List.map_cons, List.nodup_cons]
        constructor
        · intro hmem
          rcases List.mem_map.mp hmem with ⟨entry, hentry, hkey⟩
          rcases mem_of_mem_set hentry with hnew | hold
          · rw [hnew] at hkey
            exact hk hkey.symm
          · exact h.left (List.mem_map.mpr ⟨entry, hold, hkey⟩)
        · exact ih h.right

/-- Setting the key that came last. -/
theorem set_append_last {dict : List (key × value)} {k : key} {old v : value}
    (h : k ∉ dict.map (·.1)) :
    set k v (dict ++ [(k, old)]) = dict ++ [(k, v)] := by
  induction dict with
  | nil => rw [List.nil_append, List.nil_append, set_cons, if_pos rfl]
  | cons first rest ih =>
      rw [List.map_cons, List.mem_cons, not_or] at h
      rw [List.cons_append, set_cons, if_neg (Ne.symm h.left), ih h.right]
      rfl

/-- The check holds at every key of either dictionary. -/
def allKeys (check : key -> Bool) (dict other : List (key × value)) : Bool :=
  (dict.map (·.1) ++ other.map (·.1)).all check

omit [DecidableEq key] in
theorem allKeys_iff {check : key -> Bool} {dict other : List (key × value)} :
    allKeys check dict other = true <->
      forall k, (k ∈ dict.map (·.1) ∨ k ∈ other.map (·.1)) ->
        check k = true := by
  unfold allKeys
  rw [List.all_eq_true]
  constructor
  · intro h k hk
    exact h k (List.mem_append.mpr hk)
  · intro h k hk
    exact h k (List.mem_append.mp hk)

end Dict

end Dict
end Foundation
end Minni
