import Minni.Afm.Chunking
import Minni.Afm.ListChunking
import Minni.Foundation.TreeReduction

/-!
# Reduction by the same operation

The answers for the chunks are merged by the operation that gave them.  The
answers of a round are cut and asked about again, for as long as more than one
of them is a success.
-/

namespace Minni
namespace Afm

open Foundation

/-!
## Texts
-/

def NativeResult.hasData (result : NativeResult) : Bool :=
  match result.data with
  | Json.obj _ => true
  | _ => false

section Reduction

variable (host : ChunkHost) (native_op : NativeOp)
variable (build_reduce_payload : List Json -> Payload)
variable (text_field : String) (budget_tokens : Int)

def reducer : Reducer NativeResult where
  succeeded result := result.ok
  usable result := result.ok && result.hasData
  round successes calls :=
    let reduced := callNativeOpChunked host native_op text_field
      { budget_tokens := budget_tokens
        chunk_tokens := defaultChunkTokens
        overlap_tokens := defaultOverlapTokens }
      (build_reduce_payload (successes.map (·.data))) calls
    (reduced.called.map (·.result), reduced.calls)

def reduceViaSameOp (fuel : Nat) (chunk_results : List NativeResult)
    (calls : Nat) : Option (Option NativeResult × Nat) :=
  (reducer host native_op build_reduce_payload text_field
    budget_tokens).reduce fuel chunk_results calls

end Reduction

/-!
## Lists
-/

namespace ListChunking

section Reduction

variable (toLowerCase : String -> String) (callOp : CallOp)
variable (buildReducePayload : List Payload -> Payload)
variable (listField : String) (budgetTokens : Int)

def reducer : Reducer NativeOpResult where
  succeeded r := r.ok
  usable r := r.ok && r.data.isSome
  round successes calls :=
    callNativeOpChunked toLowerCase callOp listField budgetTokens
      (buildReducePayload (successes.filterMap (·.data))) calls

def reduceViaSameOp (fuel : Nat) (results : List NativeOpResult)
    (calls : Nat) : Option (Option NativeOpResult × Nat) :=
  (reducer toLowerCase callOp buildReducePayload listField
    budgetTokens).reduce fuel results calls

end Reduction

end ListChunking

/-!
## Calls that end with a usable answer
-/

/-- The calls end, and the value is a success with data when one of the
results was. -/
def ReducesToUsable {result : Type} (usable : result -> Bool)
    (reduce : Nat -> List result -> Nat -> Option (Option result × Nat))
    (results : List result) (calls : Nat) : Prop :=
  exists fuel value calls',
    reduce fuel results calls = some (value, calls') ∧
      (results.any usable = true ->
        exists r, value = some r ∧ usable r = true)

def NativeResult.usable (result : NativeResult) : Bool :=
  result.ok && result.hasData

def ListChunking.NativeOpResult.usable
    (result : ListChunking.NativeOpResult) : Bool :=
  result.ok && result.data.isSome

/-!
## When the calls end
-/

namespace ListChunking
namespace LongBriefs

def answer (brief : Payload) : NativeOpResult where
  ok := true
  data := some brief
  error := none

def bareAnswer : NativeOpResult where
  ok := true
  data := none
  error := none

def callOp (brief : Payload) : CallOp :=
  fun _ _ => answer brief

def buildReducePayload (partials : List Payload) : Payload :=
  [("partialBriefs", Json.arr (partials.map Json.obj))]

abbrev briefReducer (brief : Payload) : Reducer NativeOpResult :=
  reducer id (callOp brief) buildReducePayload "partialBriefs" 200

/-- Two briefs that are too long together are answered by two briefs again. -/
theorem next_answers {brief : Payload}
    (hover : ¬ estimateNativePayloadTokens
      (buildReducePayload [brief, brief]) ≤ 200)
    (hlong : 100 < estimateTextTokens (Json.stringify (Json.obj brief)))
    (calls : Nat) :
    ((briefReducer brief).next [answer brief, answer brief] calls).1 =
      [answer brief, answer brief] := by
  have hbudget : max ((200 : Int) - estimateNativePayloadTokens
      (Dict.erase "partialBriefs" (buildReducePayload [brief, brief])))
      minChunkTokens = 200 := by
    apply max_eq_right
    show (200 : Int) - (_ : Nat) ≤ 200
    exact Int.sub_le_self 200 (Int.natCast_nonneg _)
  have hgroups : splitListByTokenBudget 200 Json.stringify
      [Json.obj brief, Json.obj brief] =
        [[Json.obj brief], [Json.obj brief]] := by
    have hsecond : 200 < estimateTextTokens (Json.stringify (Json.obj brief)) +
        estimateTextTokens (Json.stringify (Json.obj brief)) := by
      omega
    simp [splitListByTokenBudget, packItem, hsecond]
  unfold Reducer.next
  show ((ListChunking.callNativeOpChunked id (callOp brief) "partialBriefs" 200
    (buildReducePayload [brief, brief]) calls).1.filter (·.ok)) = _
  unfold ListChunking.callNativeOpChunked callInGroups
  rw [if_neg hover]
  dsimp only
  rw [hbudget]
  show (callGroups (callOp brief) "partialBriefs" _ (splitListByTokenBudget 200
    Json.stringify [Json.obj brief, Json.obj brief]) calls).1.filter _ = _
  rw [hgroups]
  rfl

theorem never_settles {brief : Payload}
    (hover : ¬ estimateNativePayloadTokens
      (buildReducePayload [brief, brief]) ≤ 200)
    (hlong : 100 < estimateTextTokens (Json.stringify (Json.obj brief))) :
    ¬ (briefReducer brief).Settles [answer brief, answer brief] 0 := by
  apply Reducer.not_settles_of_stuck
    (fun answers => answers = [answer brief, answer brief])
  · intro answers asked heq
    rw [heq, next_answers hover hlong]
    exact ⟨Nat.one_lt_two, Nat.one_lt_two, rfl⟩
  · rfl

theorem any_usable (first : NativeOpResult) (brief : Payload) :
    [first, answer brief].any NativeOpResult.usable = true := by
  simp [NativeOpResult.usable, answer]

theorem first_success {brief : Payload} {fuel calls' : Nat}
    {value : Option NativeOpResult}
    (h : reduceViaSameOp id (callOp brief) buildReducePayload "partialBriefs"
      200 fuel [bareAnswer, answer brief] 0 = some (value, calls')) :
    value = some bareAnswer := by
  cases fuel with
  | zero => cases h
  | succ fuel => exact (congrArg Prod.fst (Option.some.inj h)).symm

def longBrief : Payload :=
  [("brief", Json.str (String.ofList (List.replicate 400 'x')))]

theorem long_longBrief :
    ¬ estimateNativePayloadTokens
        (buildReducePayload [longBrief, longBrief]) ≤ 200 ∧
      100 < estimateTextTokens (Json.stringify (Json.obj longBrief)) := by
  simp only [estimateNativePayloadTokens, estimateTextTokens, Text.length,
    Text.utf16Units, String.toList_ofList, buildReducePayload, longBrief,
    Json.stringify, Json.stringifyFields, Json.stringifyItems, Json.quote,
    List.map_cons, List.map_nil]
  decide +kernel

end LongBriefs
end ListChunking

end Afm
end Minni
