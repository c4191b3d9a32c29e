import Mathlib.Data.List.Nodup
import Mathlib.Logic.Function.Basic

/-!
# Tallies by key

Each entry of a log counts under every key it has.  What a key has in the end is
the fold of the entries that have the key, whatever other keys they have.
-/

namespace Minni
namespace Foundation

/-- No key stays twice. -/
theorem nodup_eraseDups [DecidableEq key] (keys : List key) :
    keys.eraseDups.Nodup := by
  cases keys with
  | nil =>
      exact List.nodup_nil
  | cons first rest =>
      have hle := List.length_filter_le (fun other => !other == first) rest
      rw [List.eraseDups_cons, List.nodup_cons]
      constructor
      · intro hmem
        have hfiltered := List.mem_eraseDups.mp hmem
        simp at hfiltered
      · exact nodup_eraseDups (rest.filter fun other => !other == first)
termination_by keys.length
decreasing_by
  rw [List.length_cons]
  omega

namespace Tally

section Tally

variable {key entry total : Type} [DecidableEq key]

def touch (init : total) (step : total -> total)
    (tally : key -> Option total) (k : key) : key -> Option total :=
  Function.update tally k (some (step ((tally k).getD init)))

def touchAll (init : total) (step : total -> total) (keys : List key)
    (tally : key -> Option total) : key -> Option total :=
  keys.foldl (touch init step) tally

variable (keysOf : entry -> List key) (init : total)
variable (step : entry -> total -> total)

def count (entries : List entry) (tally : key -> Option total) :
    key -> Option total :=
  entries.foldl (fun tally e => touchAll init (step e) (keysOf e) tally) tally

/-- The entries that have the key, in order. -/
def under (k : key) (entries : List entry) : List entry :=
  entries.filter fun e => decide (k ∈ keysOf e)

theorem touchAll_apply
    {f : total -> total} {keys : List key} (h : keys.Nodup)
    (tally : key -> Option total) (k : key) :
    touchAll init f keys tally k =
      if k ∈ keys then some (f ((tally k).getD init)) else tally k := by
  unfold touchAll
  induction keys generalizing tally with
  | nil =>
      rfl
  | cons first rest ih =>
      have hrest := List.nodup_cons.mp h
      rw [List.foldl_cons, ih hrest.right]
      unfold touch
      by_cases hfirst : k = first
      · rw [hfirst, if_neg hrest.left, if_pos (List.mem_cons_self ..),
          Function.update_self]
      · rw [Function.update_of_ne hfirst]
        by_cases hmem : k ∈ rest
        · rw [if_pos hmem, if_pos (List.mem_cons_of_mem _ hmem)]
        · rw [if_neg hmem, if_neg]
          intro hcons
          rcases List.mem_cons.mp hcons with heq | hin
          · exact hfirst heq
          · exact hmem hin

/-- What a key has: nothing, or the fold of the entries under it. -/
theorem count_apply
    (hnodup : forall e, (keysOf e).Nodup) (entries : List entry)
    (tally : key -> Option total) (k : key) :
    count keysOf init step entries tally k =
      if (under keysOf k entries).isEmpty then tally k
      else
        some ((under keysOf k entries).foldl (fun t e => step e t)
          ((tally k).getD init)) := by
  unfold count
  induction entries generalizing tally with
  | nil =>
      rfl
  | cons e rest ih =>
      rw [List.foldl_cons, ih, touchAll_apply init (hnodup e)]
      unfold under
      by_cases hk : k ∈ keysOf e
      · rw [if_pos hk, List.filter_cons_of_pos
            (p := fun e => decide (k ∈ keysOf e)) (decide_eq_true hk),
          List.isEmpty_cons, if_neg Bool.false_ne_true, List.foldl_cons]
        split
        · rename_i hnone
          rw [List.isEmpty_iff.mp hnone]
          rfl
        · rfl
      · rw [if_neg hk, List.filter_cons_of_neg
            (p := fun e => decide (k ∈ keysOf e)) (by simpa using hk)]

end Tally

end Tally

end Foundation
end Minni
