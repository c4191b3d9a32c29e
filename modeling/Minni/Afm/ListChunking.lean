import Minni.Foundation.Dict
import Minni.Foundation.Json
import Minni.Foundation.Text

/-!
# Calls of a small model with a list in groups

The mirror of the chunked calls for a payload whose long field is a list.  The
list is packed into groups, and there is one call for each group.
-/

namespace Minni
namespace Afm
namespace ListChunking

open Foundation

abbrev Payload := List (String × Json)

structure NativeOpResult where
  ok : Bool
  data : Option Payload
  error : Option String

/-- The operation, which may answer the same payload differently each time. -/
abbrev CallOp := Nat -> Payload -> NativeOpResult

def minChunkTokens : Int := 200

def estimateTextTokens (text : List Char) : Int :=
  ((Text.length (String.ofList text) + 3) / 4 : Nat)

def estimateNativePayloadTokens (payload : Payload) : Int :=
  estimateTextTokens (Json.stringify (Json.obj payload))

/-!
## Packing
-/

/-- The groups that are closed and the one that is open, with its tokens. -/
structure Packing (item : Type) where
  groups : List (List item)
  current : List item
  currentTokens : Int

section Packing

variable {item : Type} (budgetTokens : Int) (serialize : item -> List Char)

def packItem (packing : Packing item) (i : item) : Packing item :=
  let itemTokens := estimateTextTokens (serialize i)
  if !packing.current.isEmpty &&
      decide (packing.currentTokens + itemTokens > budgetTokens) then
    { groups := packing.groups ++ [packing.current]
      current := [i]
      currentTokens := itemTokens }
  else
    { packing with
      current := packing.current ++ [i]
      currentTokens := packing.currentTokens + itemTokens }

def splitListByTokenBudget (items : List item) : List (List item) :=
  let packing := items.foldl (packItem budgetTokens serialize)
    { groups := []
      current := []
      currentTokens := 0 }
  let groups :=
    if packing.current.isEmpty then packing.groups
    else packing.groups ++ [packing.current]
  if groups.isEmpty then [[]] else groups

end Packing

/-!
## Calling
-/

section Calls

variable (toLowerCase : String -> String) (callOp : CallOp)
variable (listField : String) (budgetTokens : Int)

def errorKindOf (result : NativeOpResult) : String :=
  match result.data.bind (·.lookup "error_kind") with
  | some (Json.str kind) => toLowerCase (Text.trim kind)
  | _ => ""

def listItems (payload : Payload) : List Json :=
  match payload.lookup listField with
  | some (Json.arr items) => items
  | _ => []

/-- Why no group could be made. -/
def cannotHelp (payload : Payload) : String :=
  let estimated := estimateNativePayloadTokens payload
  let items := listItems listField payload
  "payload over budget (~" ++ toString estimated ++ " tokens > " ++
    toString budgetTokens ++ ") with " ++ toString items.length ++ " " ++
    listField ++ " item(s) — chunking cannot help"

def callWhole (payload : Payload) (calls : Nat) :
    List NativeOpResult × Nat :=
  let result := callOp calls payload
  if !result.ok then
    let detail := cannotHelp listField budgetTokens payload
    let error :=
      match result.error with
      | some error =>
          if error.isEmpty then detail else error ++ " (" ++ detail ++ ")"
      | none => detail
    ([{ result with error := some error }], calls + 1)
  else ([result], calls + 1)

def callGroups (payload : Payload) :
    List (List Json) -> Nat -> List NativeOpResult × Nat
  | [], calls => ([], calls)
  | group :: groups, calls =>
      let result := callOp calls
        (Dict.set listField (Json.arr group) payload)
      let (results, calls) := callGroups payload groups (calls + 1)
      (result :: results, calls)

def callInGroups (payload : Payload) (calls : Nat) :
    List NativeOpResult × Nat :=
  let items := listItems listField payload
  if items.length ≤ 1 then
    callWhole callOp listField budgetTokens payload calls
  else
    let basePayload := Dict.erase listField payload
    let baseTokens := estimateNativePayloadTokens basePayload
    let groupBudget := max (budgetTokens - baseTokens) minChunkTokens
    callGroups callOp listField payload
      (splitListByTokenBudget groupBudget Json.stringify items) calls

def callNativeOpChunked (payload : Payload) (calls : Nat) :
    List NativeOpResult × Nat :=
  if estimateNativePayloadTokens payload ≤ budgetTokens then
    let result := callOp calls payload
    if result.ok || errorKindOf toLowerCase result ≠ "context_overflow" then
      ([result], calls + 1)
    else
      callInGroups callOp listField budgetTokens payload (calls + 1)
  else callInGroups callOp listField budgetTokens payload calls

end Calls

end ListChunking
end Afm
end Minni
