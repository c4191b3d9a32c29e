import Mathlib.Data.List.Basic

/-!
# The last component of a path

A path text is split at its slashes; empty components and single dots do not
count.  A name that is joined to a path is the last component of the result.
-/

namespace Minni
namespace Foundation
namespace PathName

/-- The pieces between the slashes. -/
def pieces : List Char -> List (List Char)
  | [] => [[]]
  | c :: cs =>
      if c = '/' then [] :: pieces cs
      else
        match pieces cs with
        | [] => [[c]]
        | piece :: rest => (c :: piece) :: rest

def counts (piece : List Char) : Bool :=
  !piece.isEmpty && decide (piece ≠ ['.'])

/-- `PurePosixPath(text).name` -/
def nameOf (text : String) : String :=
  String.ofList (((pieces text.toList).filter counts).getLast?.getD [])

/-- `str(base / name)` -/
def join (base name : String) : String :=
  base ++ "/" ++ name

/-- A name as a directory listing gives it. -/
def Simple (name : String) : Prop :=
  '/' ∉ name.toList ∧ name ≠ "" ∧ name ≠ "."

theorem pieces_cons (c : Char) (cs : List Char) :
    pieces (c :: cs) =
      if c = '/' then [] :: pieces cs
      else
        match pieces cs with
        | [] => [[c]]
        | piece :: rest => (c :: piece) :: rest :=
  rfl

theorem pieces_ne_nil (cs : List Char) : pieces cs ≠ [] := by
  cases cs with
  | nil => exact List.cons_ne_nil _ _
  | cons c cs =>
      rw [pieces_cons]
      split
      · exact List.cons_ne_nil _ _
      · split
        · exact List.cons_ne_nil _ _
        · exact List.cons_ne_nil _ _

theorem pieces_append (front back : List Char) :
    pieces (front ++ '/' :: back) = pieces front ++ pieces back := by
  induction front with
  | nil =>
      show pieces ('/' :: back) = [[]] ++ pieces back
      rw [pieces_cons, if_pos rfl]
      rfl
  | cons c front ih =>
      rw [List.cons_append, pieces_cons, pieces_cons, ih]
      split
      · rfl
      · cases hpieces : pieces front with
        | nil => exact absurd hpieces (pieces_ne_nil front)
        | cons piece rest => rfl

theorem pieces_of_no_slash {cs : List Char} (h : '/' ∉ cs) :
    pieces cs = [cs] := by
  induction cs with
  | nil => rfl
  | cons c cs ih =>
      rw [List.mem_cons, not_or] at h
      rw [pieces_cons, if_neg (Ne.symm h.1), ih h.2]

theorem no_slash_of_mem_pieces {cs piece : List Char}
    (h : piece ∈ pieces cs) : '/' ∉ piece := by
  induction cs generalizing piece with
  | nil =>
      rw [List.mem_singleton.mp h]
      exact List.not_mem_nil
  | cons c cs ih =>
      rw [pieces_cons] at h
      split at h
      · rcases List.mem_cons.mp h with rfl | hrest
        · exact List.not_mem_nil
        · exact ih hrest
      · rename_i hc
        split at h
        · rw [List.mem_singleton.mp h, List.mem_singleton]
          exact fun hslash => hc hslash.symm
        · rename_i first rest hpieces
          rcases List.mem_cons.mp h with rfl | hrest
          · rw [List.mem_cons, not_or]
            constructor
            · exact fun hslash => hc hslash.symm
            · apply ih
              rw [hpieces]
              exact List.mem_cons_self
          · apply ih
            rw [hpieces]
            exact List.mem_cons_of_mem first hrest

theorem counts_of_simple {name : String} (h : Simple name) :
    counts name.toList = true := by
  unfold counts
  have hempty : name.toList ≠ [] := by
    intro hnil
    exact h.2.1 (String.toList_inj.mp hnil)
  have hdot : name.toList ≠ ['.'] := by
    intro hone
    exact h.2.2 (String.toList_inj.mp hone)
  rw [List.isEmpty_eq_false_iff.mpr hempty, decide_eq_true hdot]
  rfl

theorem nameOf_simple {name : String} (h : Simple name) :
    nameOf name = name := by
  unfold nameOf
  rw [pieces_of_no_slash h.1, List.filter_cons_of_pos (counts_of_simple h)]
  exact String.ofList_toList

theorem simple_nameOf {text : String} (h : nameOf text ≠ "") :
    Simple (nameOf text) := by
  unfold nameOf at h ⊢
  cases hlast : ((pieces text.toList).filter counts).getLast? with
  | none =>
      rw [hlast] at h
      exact absurd rfl h
  | some piece =>
      have hmem := List.mem_of_getLast? hlast
      rcases List.mem_filter.mp hmem with ⟨hpiece, hcounts⟩
      rcases Bool.and_eq_true_iff.mp hcounts with ⟨_, hdot⟩
      refine ⟨?_, ?_, ?_⟩
      · rw [Option.getD_some, String.toList_ofList]
        exact no_slash_of_mem_pieces hpiece
      · rw [hlast] at h
        exact h
      · intro hone
        have hlist := congrArg String.toList hone
        rw [Option.getD_some, String.toList_ofList] at hlist
        exact of_decide_eq_true hdot hlist

theorem nameOf_nameOf (text : String) : nameOf (nameOf text) = nameOf text := by
  by_cases hempty : nameOf text = ""
  · rw [hempty]
    rfl
  · exact nameOf_simple (simple_nameOf hempty)

theorem nameOf_join (base : String) {name : String} (h : Simple name) :
    nameOf (join base name) = name := by
  have htext : (join base name).toList =
      base.toList ++ '/' :: name.toList := by
    unfold join
    rw [String.toList_append, String.toList_append, List.append_assoc]
    rfl
  unfold nameOf
  rw [htext, pieces_append, pieces_of_no_slash h.1, List.filter_append,
    List.filter_cons_of_pos (counts_of_simple h), List.filter_nil,
    List.getLast?_concat]
  exact String.ofList_toList

theorem join_injective (base : String) {name other : String}
    (h : join base name = join base other) : name = other := by
  unfold join at h
  have hlists := congrArg String.toList h
  simp only [String.toList_append] at hlists
  exact String.toList_inj.mp (List.append_cancel_left hlists)

end PathName
end Foundation
end Minni
