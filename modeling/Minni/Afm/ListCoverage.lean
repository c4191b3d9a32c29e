import Mathlib.Data.List.Induction
import Minni.Afm.ListChunking

/-!
# Every item of a list is sent once
-/

namespace Minni
namespace Afm
namespace ListChunking

open Foundation

/-!
## Packing
-/

section Packing

variable {item : Type} (budgetTokens : Int) (serialize : item -> List Char)

def tokensOf (group : List item) : Int :=
  group.foldl (fun total i => total + estimateTextTokens (serialize i)) 0

/-- A group is one item, or is within the budget. -/
def Fits (group : List item) : Prop :=
  group.length = 1 ∨ group ≠ [] ∧ tokensOf serialize group ≤ budgetTokens

structure Packed (items : List item) (packing : Packing item) : Prop where
  taken : packing.groups.flatten ++ packing.current = items
  tokens : packing.currentTokens = tokensOf serialize packing.current
  open_ : packing.current ≠ [] -> Fits budgetTokens serialize packing.current
  closed : forall group, group ∈ packing.groups ->
    Fits budgetTokens serialize group

variable {budgetTokens serialize}

theorem packed_packItem
    {items : List item} {packing : Packing item}
    (h : Packed budgetTokens serialize items packing) (i : item) :
    Packed budgetTokens serialize (items ++ [i])
      (packItem budgetTokens serialize packing i) := by
  unfold packItem
  dsimp only
  split
  · rename_i hcloses
    simp only [Bool.and_eq_true, Bool.not_eq_true', List.isEmpty_eq_false_iff]
      at hcloses
    constructor
    · simp [h.taken]
    · simp [tokensOf]
    · exact fun _ => Or.inl rfl
    · intro group hgroup
      rcases List.mem_append.mp hgroup with hold | hnew
      · exact h.closed group hold
      · rw [List.mem_singleton.mp hnew]
        exact h.open_ hcloses.left
  · rename_i hstays
    have htokens : packing.currentTokens + estimateTextTokens (serialize i) =
        tokensOf serialize (packing.current ++ [i]) := by
      simp [tokensOf, h.tokens]
    constructor
    · rw [← List.append_assoc, h.taken]
    · exact htokens
    · intro _
      rw [Fits, ← htokens]
      cases hcurrent : packing.current with
      | nil => exact Or.inl rfl
      | cons first rest =>
          rw [hcurrent] at hstays
          simp at hstays
          exact Or.inr ⟨by simp, hstays⟩
    · exact h.closed

theorem packed_foldl (items : List item) :
    Packed budgetTokens serialize items
      (items.foldl (packItem budgetTokens serialize) ⟨[], [], 0⟩) := by
  induction items using List.reverseRecOn with
  | nil => exact ⟨rfl, rfl, fun h => absurd rfl h, fun _ h => nomatch h⟩
  | append_singleton items i ih =>
      rw [List.foldl_append]
      exact packed_packItem ih i

/-- The groups hold the items in their order, each once. -/
theorem splitListByTokenBudget_spec {items : List item} (h : items ≠ []) :
    (splitListByTokenBudget budgetTokens serialize items).flatten = items ∧
      forall group,
        group ∈ splitListByTokenBudget budgetTokens serialize items ->
          Fits budgetTokens serialize group := by
  rcases @packed_foldl item budgetTokens serialize items with
    ⟨htaken, _, hopen, hclosed⟩
  unfold splitListByTokenBudget
  dsimp only
  split
  · rename_i hempty
    rw [List.isEmpty_iff.mp hempty, List.append_nil] at htaken
    split
    · rename_i hnone
      rw [List.isEmpty_iff.mp hnone] at htaken
      exact absurd htaken.symm h
    · exact ⟨htaken, hclosed⟩
  · rename_i hsome
    rw [if_neg (by simp), List.flatten_append, List.flatten_singleton]
    refine ⟨htaken, ?_⟩
    intro group hgroup
    rcases List.mem_append.mp hgroup with hold | hlast
    · exact hclosed group hold
    · rw [List.mem_singleton.mp hlast]
      exact hopen (fun hnil => hsome (List.isEmpty_iff.mpr hnil))

end Packing

/-!
## Calling
-/

section Calls

variable (toLowerCase : String -> String) (callOp : CallOp)
variable (listField : String) (budgetTokens : Int) (payload : Payload)

/-- One call for each group, with the other fields as they are. -/
def groupAnswers (groups : List (List Json)) (calls : Nat) :
    List NativeOpResult × Nat :=
  (groups.mapIdx fun i group =>
    callOp (calls + i) (Dict.set listField (Json.arr group) payload),
    calls + groups.length)

inductive Sends (calls : Nat) : List NativeOpResult × Nat -> Prop where
  | whole (error : Option String)
      (hwhole : (listItems listField payload).length ≤ 1 ∨
        estimateNativePayloadTokens payload ≤ budgetTokens ∧
          ((callOp calls payload).ok = true ∨
            errorKindOf toLowerCase (callOp calls payload) ≠
              "context_overflow")) :
      Sends calls ([{ callOp calls payload with error := error }], calls + 1)
  | grouped (groups : List (List Json))
      (hitems : groups.flatten = listItems listField payload)
      (hfits : forall group, group ∈ groups ->
        Fits (max (budgetTokens - estimateNativePayloadTokens
          (Dict.erase listField payload)) minChunkTokens) Json.stringify
          group) :
      Sends calls (groupAnswers callOp listField payload groups calls)

theorem callGroups_eq (groups : List (List Json)) (calls : Nat) :
    callGroups callOp listField payload groups calls =
      groupAnswers callOp listField payload groups calls := by
  induction groups generalizing calls with
  | nil => rfl
  | cons group groups ih =>
      rw [callGroups, ih (calls + 1)]
      simp [groupAnswers, Nat.add_comm, Nat.add_left_comm]

theorem sends_callInGroups (calls : Nat) :
    Sends toLowerCase callOp listField budgetTokens payload calls
      (callInGroups callOp listField budgetTokens payload calls) := by
  unfold callInGroups
  dsimp only
  split
  · rename_i hfew
    unfold callWhole
    dsimp only
    split
    · exact Sends.whole _ (Or.inl hfew)
    · exact Sends.whole _ (Or.inl hfew)
  · rename_i hmany
    have hitems : listItems listField payload ≠ [] := by
      intro hnone
      rw [hnone] at hmany
      exact hmany (Nat.zero_le 1)
    rw [callGroups_eq]
    exact Sends.grouped _ (splitListByTokenBudget_spec hitems).left
      (splitListByTokenBudget_spec hitems).right

/-- Whatever the operation answers, each item is sent once, in order and in
groups that fit, after at most one call that overflowed. -/
theorem callNativeOpChunked_sends (calls : Nat) :
    exists first,
      (first = calls ∨ first = calls + 1 ∧
        errorKindOf toLowerCase (callOp calls payload) = "context_overflow") ∧
      Sends toLowerCase callOp listField budgetTokens payload first
        (callNativeOpChunked toLowerCase callOp listField budgetTokens payload
          calls) := by
  unfold callNativeOpChunked
  split
  · rename_i hwithin
    dsimp only
    split
    · rename_i hdone
      rw [Bool.or_eq_true, decide_eq_true_iff] at hdone
      exact ⟨calls, Or.inl rfl, Sends.whole _ (Or.inr ⟨hwithin, hdone⟩)⟩
    · rename_i hover
      rw [Bool.or_eq_true, decide_eq_true_iff, not_or, not_not] at hover
      exact ⟨calls + 1, Or.inr ⟨rfl, hover.right⟩, sends_callInGroups ..⟩
  · exact ⟨calls, Or.inl rfl, sends_callInGroups ..⟩

end Calls

end ListChunking
end Afm
end Minni
