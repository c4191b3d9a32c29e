/-!
# Facts that stand in a history

An entry of a history may establish a fact, and a later entry may override it.
A fact stands when some entry establishes it and no later entry overrides it.
-/

namespace Minni
namespace Foundation
namespace History

section History

variable {entry fact : Type}
variable (establishes overrides : entry -> fact -> Prop)

def Stands (history : List entry) (f : fact) : Prop :=
  exists before e after, history = before ++ e :: after ∧
    establishes e f ∧ forall later, later ∈ after -> ¬ overrides later f

theorem not_stands_nil (f : fact) :
    ¬ Stands establishes overrides [] f := by
  intro h
  rcases h with ⟨before, e, after, heq, _, _⟩
  cases before with
  | nil => cases heq
  | cons first rest => cases heq

/-- What stands after one more entry was established by it, or stood before and
is not overridden by it. -/
theorem stands_snoc {history : List entry} {last : entry} {f : fact}
    (h : Stands establishes overrides (history ++ [last]) f) :
    establishes last f ∨
      (Stands establishes overrides history f ∧ ¬ overrides last f) := by
  rcases h with ⟨before, e, after, heq, he, hafter⟩
  rcases List.eq_nil_or_concat after with hnil | ⟨front, final, hfinal⟩
  · rw [hnil] at heq
    have hsplit := List.append_inj' heq rfl
    have hlast : last = e := (List.cons.inj hsplit.right).left
    exact Or.inl (hlast ▸ he)
  · rw [hfinal, List.concat_eq_append] at heq hafter
    have hassoc : history ++ [last] = (before ++ e :: front) ++ [final] := by
      rw [heq, List.append_assoc, List.cons_append]
    have hsplit := List.append_inj' hassoc rfl
    have hlast : last = final := (List.cons.inj hsplit.right).left
    right
    constructor
    · exact ⟨before, e, front, hsplit.left, he, fun later hlater =>
        hafter later (List.mem_append_left _ hlater)⟩
    · rw [hlast]
      exact hafter final (List.mem_append_right _ (List.mem_singleton.mpr rfl))

end History

end History
end Foundation
end Minni
