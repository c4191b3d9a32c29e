import Minni.Foundation.TransitionSystem
import Mathlib.Logic.Function.Basic

/-!
# A file that several processes rewrite

Each call loads the whole file, computes a new content from what it loaded, and
saves that, or ends without saving.  Nothing is locked, so other calls may save
between the load and the save of a call.
-/

namespace Minni
namespace Foundation

structure SharedFile (content call : Type) where
  file : content
  /-- The calls that have loaded and not yet ended, with what they loaded. -/
  open_ : Nat -> Option (call × content)

namespace SharedFile

inductive Move (call : Type) where
  | load (id : Nat) (c : call)
  | save (id : Nat)
  | finish (id : Nat)

variable {content call : Type}

def start (file : content) : SharedFile content call :=
  { file := file, open_ := fun _ => none }

def next (apply : call -> content -> Option content)
    (s : SharedFile content call) :
    Move call -> Option (SharedFile content call)
  | Move.load id c =>
      match s.open_ id with
      | some _ => none
      | none =>
          some { s with open_ := Function.update s.open_ id (some (c, s.file)) }
  | Move.save id =>
      match s.open_ id with
      | none => none
      | some (c, loaded) =>
          (apply c loaded).map fun saved =>
            { file := saved, open_ := Function.update s.open_ id none }
  | Move.finish id =>
      match s.open_ id with
      | none => none
      | some (c, loaded) =>
          match apply c loaded with
          | some _ => none
          | none => some { s with open_ := Function.update s.open_ id none }

def system (apply : call -> content -> Option content) (file : content) :
    TransitionSystem (SharedFile content call) (Move call) :=
  TransitionSystem.OfNext (fun s => s = start file) (next apply)

section Steps

variable {apply : call -> content -> Option content} {file : content}
  {s s' : SharedFile content call} {move : Move call}

/-- A step leaves the file alone, or it is the save of an open call. -/
theorem step_file
    (h : (system apply file).step s move s') :
    (s'.file = s.file ∧ forall id, move ≠ Move.save id) ∨
      exists id c loaded, move = Move.save id ∧
        s.open_ id = some (c, loaded) ∧ apply c loaded = some s'.file := by
  have hnext : next apply s move = some s' := h
  cases move with
  | load id c =>
      left
      dsimp only [next] at hnext
      split at hnext
      · cases hnext
      · cases hnext
        exact ⟨rfl, fun _ hmove => by cases hmove⟩
  | save id =>
      right
      dsimp only [next] at hnext
      split at hnext
      · cases hnext
      · rename_i c loaded hopen
        rcases Option.map_eq_some_iff.mp hnext with ⟨saved, hsaved, hs'⟩
        rw [<- hs']
        exact ⟨id, c, loaded, rfl, hopen, hsaved⟩
  | finish id =>
      left
      dsimp only [next] at hnext
      split at hnext
      · cases hnext
      · split at hnext
        · cases hnext
        · cases hnext
          exact ⟨rfl, fun _ hmove => by cases hmove⟩

/-- Every content is the file's own or was loaded from it. -/
def Everywhere (P : content -> Prop) (s : SharedFile content call) : Prop :=
  P s.file ∧ forall id c loaded, s.open_ id = some (c, loaded) -> P loaded

theorem everywhere_start {P : content -> Prop} (h : P file) :
    Everywhere P (start file : SharedFile content call) :=
  ⟨h, fun _ _ _ hopen => by cases hopen⟩

theorem everywhere_step
    {P : content -> Prop}
    (happly : forall c loaded saved, P loaded ->
      apply c loaded = some saved -> P saved)
    (h : Everywhere P s) (hstep : (system apply file).step s move s') :
    Everywhere P s' := by
  have hclosed : forall id, Everywhere P
      { s with open_ := Function.update s.open_ id none } := by
    intro id
    refine ⟨h.left, ?_⟩
    intro other c loaded hopen
    by_cases hother : other = id
    · rw [hother] at hopen
      change Function.update s.open_ id none id = _ at hopen
      rw [Function.update_self] at hopen
      cases hopen
    · change Function.update s.open_ id none other = _ at hopen
      rw [Function.update_of_ne hother] at hopen
      exact h.right other c loaded hopen
  have hnext : next apply s move = some s' := hstep
  cases move with
  | load id c =>
      dsimp only [next] at hnext
      split at hnext
      · cases hnext
      · cases hnext
        refine ⟨h.left, ?_⟩
        intro other c' loaded hopen
        change Function.update s.open_ id (some (c, s.file)) other = _ at hopen
        by_cases hother : other = id
        · rw [hother, Function.update_self] at hopen
          cases hopen
          exact h.left
        · rw [Function.update_of_ne hother] at hopen
          exact h.right other c' loaded hopen
  | save id =>
      dsimp only [next] at hnext
      split at hnext
      · cases hnext
      · rename_i c loaded hopen
        rcases Option.map_eq_some_iff.mp hnext with ⟨saved, hsaved, hs'⟩
        rw [<- hs']
        exact ⟨happly c loaded saved (h.right id c loaded hopen) hsaved,
          (hclosed id).right⟩
  | finish id =>
      dsimp only [next] at hnext
      split at hnext
      · cases hnext
      · split at hnext
        · cases hnext
        · cases hnext
          exact hclosed id

end Steps

end SharedFile
end Foundation
end Minni
