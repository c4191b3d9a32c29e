import Mathlib.Data.List.Basic

/-!
# Reduction in rounds

Answers are reduced by asking for more answers, until a round leaves a single
one.  Which answers count as successes and which of them can be used are two
predicates.  What a round is answered with is arbitrary, so nothing makes the
answers fewer.
-/

namespace Minni
namespace Foundation

structure Reducer (answer : Type) where
  succeeded : answer -> Bool
  usable : answer -> Bool
  /-- Asks about the usable answers, and counts what was asked so far. -/
  round : List answer -> Nat -> List answer × Nat

namespace Reducer

variable {answer : Type} (R : Reducer answer)

def usables (answers : List answer) : List answer :=
  answers.filter R.usable

/-- The successes of the next round. -/
def next (answers : List answer) (asked : Nat) : List answer × Nat :=
  let (answered, asked) := R.round (R.usables answers) asked
  (answered.filter R.succeeded, asked)

/-- The answer that is left and what was asked, if the rounds end within the
fuel. -/
def reduce : Nat -> List answer -> Nat -> Option (Option answer × Nat)
  | 0, _, _ => none
  | fuel + 1, answers, asked =>
      match R.usables answers with
      | [] => some (none, asked)
      | [_] => some (answers.find? R.succeeded, asked)
      | _ :: _ :: _ =>
          match R.next answers asked with
          | ([], asked) => some (answers.find? R.succeeded, asked)
          | ([one], asked) => some (some one, asked)
          | (one :: another :: more, asked) =>
              reduce fuel (one :: another :: more) asked

/-- The rounds end, and a usable answer is left when there was one. -/
def EndsUsable (answers : List answer) (asked : Nat) : Prop :=
  exists fuel left asked',
    R.reduce fuel answers asked = some (left, asked') ∧
      (answers.any R.usable = true ->
        exists a, left = some a ∧ R.usable a = true)

def FirstUsable (answers : List answer) : Prop :=
  exists a, answers.find? R.succeeded = some a ∧ R.usable a = true

/-- A round is reached that is the last, and what it leaves can be used. -/
inductive Settles : List answer -> Nat -> Prop where
  | sole {answers : List answer} {asked : Nat}
      (husables : (R.usables answers).length = 1)
      (hfirst : R.FirstUsable answers) :
      Settles answers asked
  | merged {answers : List answer} {asked : Nat} {one : answer}
      (husables : 1 < (R.usables answers).length)
      (hnext : (R.next answers asked).1 = [one])
      (husable : R.usable one = true) :
      Settles answers asked
  | failed {answers : List answer} {asked : Nat}
      (husables : 1 < (R.usables answers).length)
      (hnext : (R.next answers asked).1 = [])
      (hfirst : R.FirstUsable answers) :
      Settles answers asked
  | again {answers : List answer} {asked : Nat}
      (husables : 1 < (R.usables answers).length)
      (hnext : 1 < (R.next answers asked).1.length)
      (hsettles : Settles (R.next answers asked).1 (R.next answers asked).2) :
      Settles answers asked

variable {R} {answers : List answer} {asked : Nat}

theorem settles_of_reduce {fuel asked' : Nat} {a : answer}
    (h : R.reduce fuel answers asked = some (some a, asked'))
    (husable : R.usable a = true) :
    R.Settles answers asked := by
  induction fuel generalizing answers asked with
  | zero => cases h
  | succ fuel ih =>
      rw [reduce] at h
      split at h
      · cases h
      · rename_i only honly
        have hleft := congrArg Prod.fst (Option.some.inj h)
        exact Settles.sole (by rw [honly]; rfl) ⟨a, hleft, husable⟩
      · rename_i first second rest hmany
        have hlength : 1 < (R.usables answers).length := by
          rw [hmany]
          exact Nat.one_lt_succ_succ _
        split at h
        · rename_i asked'' hnext
          have hleft := congrArg Prod.fst (Option.some.inj h)
          exact Settles.failed hlength (congrArg Prod.fst hnext)
            ⟨a, hleft, husable⟩
        · rename_i one asked'' hnext
          have hleft := congrArg Prod.fst (Option.some.inj h)
          rw [← Option.some.inj hleft] at husable
          exact Settles.merged hlength (congrArg Prod.fst hnext) husable
        · rename_i one another more asked'' hnext
          have hsettles := ih h
          apply Settles.again hlength
          · rw [hnext]
            exact Nat.one_lt_succ_succ _
          · rw [hnext]
            exact hsettles

theorem reduce_many {fuel : Nat} (husables : 1 < (R.usables answers).length) :
    R.reduce (fuel + 1) answers asked =
      match R.next answers asked with
      | ([], asked) => some (answers.find? R.succeeded, asked)
      | ([one], asked) => some (some one, asked)
      | (one :: another :: more, asked) =>
          R.reduce fuel (one :: another :: more) asked := by
  rw [reduce]
  split
  · rename_i hnil
    rw [hnil] at husables
    cases husables
  · rename_i hone
    rw [hone] at husables
    exact absurd husables (Nat.lt_irrefl 1)
  · rfl

theorem reduce_of_settles (h : R.Settles answers asked) :
    exists fuel a asked',
      R.reduce fuel answers asked = some (some a, asked') ∧
        R.usable a = true := by
  induction h with
  | @sole answers asked husables hfirst =>
      rcases List.length_eq_one_iff.mp husables with ⟨only, honly⟩
      rcases hfirst with ⟨a, hfind, husable⟩
      refine ⟨1, a, asked, ?_, husable⟩
      rw [reduce, honly, hfind]
  | @merged answers asked one husables hnext husable =>
      refine ⟨1, one, (R.next answers asked).2, ?_, husable⟩
      have hpair : R.next answers asked = ([one], (R.next answers asked).2) :=
        Prod.ext hnext rfl
      rw [reduce_many husables, hpair]
  | @failed answers asked husables hnext hfirst =>
      rcases hfirst with ⟨a, hfind, husable⟩
      refine ⟨1, a, (R.next answers asked).2, ?_, husable⟩
      have hpair : R.next answers asked = ([], (R.next answers asked).2) :=
        Prod.ext hnext rfl
      rw [reduce_many husables, hpair, hfind]
  | @again answers asked husables hnext hsettles ih =>
      rcases ih with ⟨fuel, a, asked', hreduce, husable⟩
      refine ⟨fuel + 1, a, asked', ?_, husable⟩
      rw [reduce_many husables]
      split
      · rename_i hnil
        rw [hnil] at hnext
        cases hnext
      · rename_i hone
        rw [hone] at hnext
        exact absurd hnext (Nat.lt_irrefl 1)
      · rename_i hmore
        rw [hmore] at hreduce
        exact hreduce

/-- A reduction ends with a usable answer exactly when a last round is reached
that leaves one. -/
theorem endsUsable_iff :
    R.EndsUsable answers asked <->
      (answers.any R.usable = true -> R.Settles answers asked) := by
  constructor
  · intro h hany
    rcases h with ⟨fuel, left, asked', hreduce, hleft⟩
    rcases hleft hany with ⟨a, heq, husable⟩
    rw [heq] at hreduce
    exact settles_of_reduce hreduce husable
  · intro h
    cases hany : answers.any R.usable with
    | true =>
        rcases reduce_of_settles (h hany) with
          ⟨fuel, a, asked', hreduce, husable⟩
        exact ⟨fuel, some a, asked', hreduce, fun _ => ⟨a, rfl, husable⟩⟩
    | false =>
        have hnone : R.usables answers = [] := by
          apply List.filter_eq_nil_iff.mpr
          exact List.any_eq_false.mp hany
        refine ⟨1, none, asked, ?_, ?_⟩
        · rw [reduce, hnone]
        · intro htrue
          rw [hany] at htrue
          cases htrue

/-!
## Rounds that give as much again
-/

/-- Nothing settles while every round gives as much to reduce again. -/
theorem not_settles_of_stuck (stuck : List answer -> Prop)
    (hstuck : forall answers asked, stuck answers ->
      1 < (R.usables answers).length ∧
        1 < (R.next answers asked).1.length ∧
        stuck (R.next answers asked).1)
    (h : stuck answers) :
    ¬ R.Settles answers asked := by
  intro hsettles
  induction hsettles with
  | @sole answers asked husables hfirst =>
      have hmany := (hstuck answers asked h).left
      rw [husables] at hmany
      exact absurd hmany (Nat.lt_irrefl 1)
  | @merged answers asked one husables hnext husable =>
      have hmany := (hstuck answers asked h).right.left
      rw [hnext] at hmany
      exact absurd hmany (Nat.lt_irrefl 1)
  | @failed answers asked husables hnext hfirst =>
      have hmany := (hstuck answers asked h).right.left
      rw [hnext] at hmany
      cases hmany
  | @again answers asked husables hnext hsettles ih =>
      exact ih (hstuck answers asked h).right.right

end Reducer

end Foundation
end Minni
