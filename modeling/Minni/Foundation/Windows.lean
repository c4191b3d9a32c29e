import Mathlib.Data.List.Forall2
import Mathlib.Order.Lattice

/-!
# Windows that cover a list

A list is cut into windows that may overlap.  They cover it when each begins no
later than the one before has ended, from its first entry to its last.  Pieces
of pieces cover what the pieces cover.
-/

namespace Minni
namespace Foundation
namespace Windows

variable {α : Type}

def slice (whole : List α) (window : Nat × Nat) : List α :=
  (whole.drop window.1).take (window.2 - window.1)

/-- From what is reached, the windows go on to the goal. -/
def Linked : Nat -> List (Nat × Nat) -> Nat -> Prop
  | reached, [], goal => goal ≤ reached
  | reached, window :: rest, goal =>
      window.1 ≤ reached ∧ Linked window.2 rest goal

/-- The windows that begin and end in a list. -/
def Within (length : Nat) (windows : List (Nat × Nat)) : Prop :=
  forall window, window ∈ windows -> window.1 ≤ window.2 ∧ window.2 ≤ length

def Covers (whole : List α) (pieces : List (List α)) : Prop :=
  exists windows, pieces = windows.map (slice whole) ∧
    Within whole.length windows ∧ Linked 0 windows whole.length

theorem linked_mono {reached reached' goal : Nat}
    {windows : List (Nat × Nat)} (h : Linked reached windows goal)
    (hle : reached ≤ reached') :
    Linked reached' windows goal := by
  cases windows with
  | nil => exact le_trans h hle
  | cons window rest => exact ⟨le_trans h.left hle, h.right⟩

theorem linked_append {reached middle goal : Nat}
    {before after : List (Nat × Nat)} (hbefore : Linked reached before middle)
    (hafter : Linked middle after goal) :
    Linked reached (before ++ after) goal := by
  induction before generalizing reached with
  | nil => exact linked_mono hafter hbefore
  | cons window before ih => exact ⟨hbefore.left, ih hbefore.right⟩

def shift (by_ : Nat) (windows : List (Nat × Nat)) : List (Nat × Nat) :=
  windows.map fun window => (by_ + window.1, by_ + window.2)

theorem linked_shift (by_ : Nat) {reached goal : Nat}
    {windows : List (Nat × Nat)} (h : Linked reached windows goal) :
    Linked (by_ + reached) (shift by_ windows) (by_ + goal) := by
  induction windows generalizing reached with
  | nil => exact Nat.add_le_add_left h by_
  | cons window windows ih =>
      exact ⟨Nat.add_le_add_left h.left by_, ih h.right⟩

theorem exists_window {reached goal i : Nat} {windows : List (Nat × Nat)}
    (h : Linked reached windows goal) (hreached : reached ≤ i)
    (hgoal : i < goal) :
    exists window, window ∈ windows ∧ window.1 ≤ i ∧ i < window.2 := by
  induction windows generalizing reached with
  | nil => exact absurd (le_trans h hreached) (not_le.mpr hgoal)
  | cons window windows ih =>
      by_cases hhere : i < window.2
      · exact ⟨window, List.mem_cons_self .., le_trans h.left hreached, hhere⟩
      · rcases ih h.right (not_lt.mp hhere) with ⟨other, hother, hin⟩
        exact ⟨other, List.mem_cons_of_mem _ hother, hin⟩

theorem length_slice {whole : List α} (window : Nat × Nat)
    (h : window.2 ≤ whole.length) :
    (slice whole window).length = window.2 - window.1 := by
  unfold slice
  rw [List.length_take, List.length_drop]
  exact min_eq_left (Nat.sub_le_sub_right h _)

theorem slice_slice {whole : List α} {outer inner : Nat × Nat}
    (h : inner.2 ≤ outer.2 - outer.1) :
    slice (slice whole outer) inner =
      slice whole (outer.1 + inner.1, outer.1 + inner.2) := by
  unfold slice
  rw [List.drop_take, List.drop_drop, List.take_take]
  have hmin : min (inner.2 - inner.1) (outer.2 - outer.1 - inner.1) =
      inner.2 - inner.1 := min_eq_left (Nat.sub_le_sub_right h _)
  have hlength : outer.1 + inner.2 - (outer.1 + inner.1) =
      inner.2 - inner.1 := Nat.add_sub_add_left _ _ _
  rw [hmin, hlength]

theorem covers_self (whole : List α) : Covers whole [whole] := by
  refine ⟨[(0, whole.length)], ?_, ?_, ?_⟩
  · simp [slice]
  · intro window hwindow
    rw [List.mem_singleton.mp hwindow]
    exact ⟨Nat.zero_le _, le_refl _⟩
  · exact ⟨le_refl _, le_refl _⟩

/-- Every entry is in a piece. -/
theorem mem_of_covers {whole : List α} {pieces : List (List α)} {x : α}
    (h : Covers whole pieces) (hx : x ∈ whole) :
    exists piece, piece ∈ pieces ∧ x ∈ piece := by
  rcases h with ⟨windows, hpieces, _, hlinked⟩
  rcases List.mem_iff_getElem.mp hx with ⟨i, hi, hget⟩
  rcases exists_window hlinked (Nat.zero_le i) hi with
    ⟨window, hwindow, hstart, hend⟩
  refine ⟨slice whole window, ?_, ?_⟩
  · rw [hpieces]
    exact List.mem_map.mpr ⟨window, hwindow, rfl⟩
  · apply List.mem_of_getElem? (i := i - window.1)
    unfold slice
    rw [List.getElem?_take_of_lt (Nat.sub_lt_sub_right hstart hend),
      List.getElem?_drop, Nat.add_sub_cancel' hstart,
      List.getElem?_eq_getElem hi, hget]

theorem covers_flatten {whole : List α} {pieces : List (List α)}
    {parts : List (List (List α))} (h : Covers whole pieces)
    (hparts : List.Forall₂ Covers pieces parts) :
    Covers whole parts.flatten := by
  rcases h with ⟨windows, hpieces, hwithin, hlinked⟩
  have hgo : forall (reached : Nat), Linked reached windows whole.length ->
      exists windows', parts.flatten = windows'.map (slice whole) ∧
        Within whole.length windows' ∧
        Linked reached windows' whole.length := by
    clear hlinked
    induction windows generalizing pieces parts with
    | nil =>
        intro reached hlinked
        rw [hpieces] at hparts
        cases hparts
        exact ⟨[], rfl, fun window hwindow => absurd hwindow List.not_mem_nil,
          hlinked⟩
    | cons window windows ih =>
        intro reached hlinked
        rw [hpieces, List.map_cons] at hparts
        cases hparts with
        | cons hfirst hrest =>
            rename_i first rest
            have hin := hwithin window (List.mem_cons_self ..)
            rcases ih hrest rfl (fun other hother =>
              hwithin other (List.mem_cons_of_mem _ hother)) window.2
              hlinked.right with ⟨later, hlater, hlaterIn, hlaterLinked⟩
            rcases hfirst with ⟨inner, hinner, hinnerIn, hinnerLinked⟩
            rw [length_slice _ hin.right] at hinnerIn hinnerLinked
            refine ⟨shift window.1 inner ++ later, ?_, ?_, ?_⟩
            · rw [List.flatten_cons, List.map_append, hlater, hinner]
              unfold shift
              rw [List.map_map]
              congr 1
              apply List.map_congr_left
              intro part hpart
              exact slice_slice (hinnerIn part hpart).right
            · intro other hother
              rcases List.mem_append.mp hother with hshifted | hmem
              · rcases List.mem_map.mp hshifted with ⟨part, hpart, heq⟩
                rcases hinnerIn part hpart with ⟨hle, hend⟩
                rw [← heq]
                constructor
                · exact Nat.add_le_add_left hle _
                · have hsum := Nat.add_le_add_left hend window.1
                  rw [Nat.add_sub_cancel' hin.left] at hsum
                  exact le_trans hsum hin.right
              · exact hlaterIn other hmem
            · have hshift := linked_shift window.1 hinnerLinked
              rw [Nat.add_zero, Nat.add_sub_cancel' hin.left] at hshift
              exact linked_append (linked_mono hshift hlinked.left)
                hlaterLinked
  exact hgo 0 hlinked

end Windows
end Foundation
end Minni
