import Minni.Foundation.Dict

/-!
# Postings of a keyed collection

An index keeps the entries of a collection by key and, for each term, the keys
of the entries that have the term.  When an entry under a new key comes in, its
postings are added to the ones that are there.  The postings are exact when they
are those of the entries; then equal entries have equal postings.
-/

namespace Minni
namespace Foundation
namespace Postings

variable {key entry row term : Type} [DecidableEq key]

/-- The entries of rows, each set in turn. -/
def setAll (entryOf : row -> entry) (keyOf : row -> key) :
    List row -> List (key × entry) -> List (key × entry)
  | [], dict => dict
  | r :: rows, dict =>
      setAll entryOf keyOf rows (Dict.set (keyOf r) (entryOf r) dict)

/-- The postings of one entry. -/
def postingsOf (terms : List term) (k : key) : List (term × key) :=
  terms.map fun t => (t, k)

def Exact (termsOf : entry -> List term) (dict : List (key × entry))
    (postings : List (term × key)) : Prop :=
  forall t k, (t, k) ∈ postings <->
    exists e, dict.lookup k = some e ∧ t ∈ termsOf e

omit [DecidableEq key] in
theorem mem_postingsOf {terms : List term} {k other : key} {t : term} :
    (t, other) ∈ postingsOf terms k <-> t ∈ terms ∧ other = k := by
  unfold postingsOf
  constructor
  · intro h
    rcases List.mem_map.mp h with ⟨u, hu, heq⟩
    cases heq
    exact ⟨hu, rfl⟩
  · intro h
    rcases h with ⟨ht, rfl⟩
    exact List.mem_map.mpr ⟨t, ht, rfl⟩

theorem exact_nil (termsOf : entry -> List term) :
    Exact termsOf ([] : List (key × entry)) [] := by
  intro t k
  constructor
  · intro h
    exact absurd h List.not_mem_nil
  · intro h
    rcases h with ⟨e, he, _⟩
    exact absurd he (by simp)

theorem exact_set {termsOf : entry -> List term} {dict : List (key × entry)}
    {postings : List (term × key)} {k : key} {e : entry}
    (hnew : dict.lookup k = none) (h : Exact termsOf dict postings) :
    Exact termsOf (Dict.set k e dict)
      (postings ++ postingsOf (termsOf e) k) := by
  intro t other
  rw [List.mem_append, mem_postingsOf, Dict.lookup_set, h t other]
  by_cases hother : other = k
  · subst hother
    rw [hnew, if_pos rfl]
    constructor
    · intro hcase
      rcases hcase with ⟨old, hold, _⟩ | ⟨ht, _⟩
      · cases hold
      · exact ⟨e, rfl, ht⟩
    · intro hcase
      rcases hcase with ⟨found, hfound, ht⟩
      cases hfound
      exact Or.inr ⟨ht, rfl⟩
  · rw [if_neg hother]
    constructor
    · intro hcase
      rcases hcase with hold | ⟨_, heq⟩
      · exact hold
      · exact absurd heq hother
    · intro hold
      exact Or.inl hold

/-- Exact postings depend on the entries under each key only. -/
theorem exact_unique {termsOf : entry -> List term}
    {dict other : List (key × entry)} {postings ofOther : List (term × key)}
    (h : Exact termsOf dict postings) (hother : Exact termsOf other ofOther)
    (hlookup : forall k, dict.lookup k = other.lookup k) (p : term × key) :
    p ∈ postings <-> p ∈ ofOther := by
  rw [h p.1 p.2, hother p.1 p.2, hlookup p.2]

/-- Rows of distinct keys: a key finds its row, or what was there before. -/
theorem lookup_setAll {entryOf : row -> entry} {keyOf : row -> key}
    {rows : List row} (hnodup : (rows.map keyOf).Nodup)
    (dict : List (key × entry)) (wanted : key) :
    (setAll entryOf keyOf rows dict).lookup wanted =
      ((rows.find? fun r => keyOf r = wanted).map entryOf).or
        (dict.lookup wanted) := by
  induction rows generalizing dict with
  | nil =>
      rfl
  | cons r rows ih =>
      rw [List.map_cons, List.nodup_cons] at hnodup
      rw [setAll, ih hnodup.right, Dict.lookup_set, List.find?_cons]
      by_cases hr : keyOf r = wanted
      · have hrest : (rows.find? fun other => keyOf other = wanted) = none := by
          apply List.find?_eq_none.mpr
          intro other hother heq
          apply hnodup.left
          rw [hr, ← of_decide_eq_true heq]
          exact List.mem_map_of_mem hother
        rw [hrest, if_pos hr.symm, decide_eq_true hr]
        rfl
      · rw [if_neg (Ne.symm hr), decide_eq_false hr]

end Postings
end Foundation
end Minni
