import Minni.Foundation.Dict
import Minni.Foundation.PyText
import Minni.Foundation.Words

/-!
# Calls of a small model in chunks

The model takes a few thousand tokens.  A text that is too long is cut into
overlapping windows of words, a window that still overflows is cut again, and
partial answers are reduced by the same operation.
-/

namespace Minni
namespace Afm

open Foundation

structure ChunkHost where
  count_tokens : String -> Nat
  /-- `str.lower`. -/
  lower : String -> String

abbrev Payload := List (String × Json)

structure NativeResult where
  ok : Bool
  data : Json

/-- The operation, which may answer the same payload differently each time. -/
abbrev NativeOp := Nat -> Payload -> NativeResult

def minChunkTokens : Nat := 200

def defaultChunkTokens : Int := 2400

def defaultOverlapTokens : Int := 300

def sentenceSnapLookaheadWords : Nat := 20

section Text

variable (host : ChunkHost)

def estimateNativePayloadTokens (payload : Payload) : Nat :=
  host.count_tokens (String.ofList (Json.stringify (Json.obj payload)))

/-!
## Cutting a text
-/

abbrev Word := List Char

def wordsOf (text : List Char) : List Word :=
  Words.split PyText.isSpace text

def joinWords (words : List Word) : List Char :=
  Words.join ' ' words

def isBlank (text : List Char) : Bool :=
  text.all PyText.isSpace

/-- The first white space behind the end of a sentence. -/
def sentenceEnd : Option Char -> List Char -> Option Nat
  | _, [] => none
  | before, c :: rest =>
      if PyText.isSpace c && before.any (fun d => ['.', '!', '?'].contains d)
        then some 0
      else (sentenceEnd (some c) rest).map (· + 1)

/-- The words of a window and its end, which goes on to the end of a sentence
that is near. -/
def snapWindow (words : List Word) (start chunk_tokens : Nat) :
    List Word × Nat :=
  let end_ := min (start + chunk_tokens) words.length
  let window_words := (words.drop start).take (end_ - start)
  if end_ < words.length then
    let lookahead_text := joinWords
      ((words.drop end_).take sentenceSnapLookaheadWords)
    match sentenceEnd none lookahead_text with
    | none => (window_words, end_)
    | some i =>
        let extra_words := wordsOf (lookahead_text.take (i + 1))
        (window_words ++ extra_words, end_ + extra_words.length)
  else (window_words, end_)

def splitLoop (words : List Word) (chunk_tokens overlap_tokens start : Nat) :
    List (List Char) :=
  if start < words.length then
    let (window_words, end_) := snapWindow words start chunk_tokens
    let rest :=
      if words.length ≤ end_ then []
      else
        splitLoop words chunk_tokens overlap_tokens
          (start + max (chunk_tokens - overlap_tokens) 1)
    let chunk_text := joinWords window_words
    if isBlank chunk_text then rest else chunk_text :: rest
  else []
termination_by words.length - start
decreasing_by
  have hstep : 1 ≤ max (chunk_tokens - overlap_tokens) 1 := le_max_right _ _
  omega

def splitText (text : List Char) (chunk_tokens overlap_tokens : Nat) :
    List (List Char) :=
  if isBlank text then [text]
  else if host.count_tokens (String.ofList text) ≤ chunk_tokens then [text]
  else
    match splitLoop (wordsOf text) chunk_tokens overlap_tokens 0 with
    | [] => [text]
    | chunks => chunks

end Text

/-!
## Calling in chunks
-/

/-- A call whose result is returned. -/
structure Called where
  payload : Payload
  result : NativeResult

section Calls

variable (host : ChunkHost) (native_op : NativeOp) (text_field : String)

def payloadText (payload : Payload) : List Char :=
  ((firstText (Json.obj payload) [text_field]).getD "").toList

def setText (payload : Payload) (text : List Char) : Payload :=
  Dict.set text_field (Json.str (String.ofList text)) payload

def classifyErrorKind (result : NativeResult) : String :=
  host.lower
    (PyText.strip ((firstText result.data ["error_kind"]).getD ""))

def overflowed (result : NativeResult) : Bool :=
  !result.ok && classifyErrorKind host result = "context_overflow"

def effectiveOverlapTokens (chunk_tokens : Nat) (overlap_tokens : Int) : Nat :=
  (max (min overlap_tokens (chunk_tokens / 4 : Nat)) 0).toNat

def callOnce (payload : Payload) (calls : Nat) : List Called × Nat :=
  ([{ payload := payload
      result := native_op calls payload }], calls + 1)

/-- One call for each piece.  At the floor nothing is cut again. -/
def callPieces (resplit : Option (Payload -> Nat -> List Called × Nat))
    (payload : Payload) : List (List Char) -> Nat -> List Called × Nat
  | [], calls => ([], calls)
  | piece :: pieces, calls =>
      let chunk_payload := setText text_field payload piece
      let chunk_result := native_op calls chunk_payload
      let (here, calls) :=
        match resplit with
        | some again =>
            if overflowed host chunk_result then
              again chunk_payload (calls + 1)
            else
              ([{ payload := chunk_payload
                  result := chunk_result }], calls + 1)
        | none =>
            ([{ payload := chunk_payload
                result := chunk_result }], calls + 1)
      let (rest, calls) := callPieces resplit payload pieces calls
      (here ++ rest, calls)

def chunkAndCall (overlap_tokens : Int) (chunk_tokens : Nat)
    (payload : Payload) (calls : Nat) : List Called × Nat :=
  let text := payloadText text_field payload
  if isBlank text || chunk_tokens < minChunkTokens then
    callOnce native_op payload calls
  else
    let pieces := splitText host text chunk_tokens
      (effectiveOverlapTokens chunk_tokens overlap_tokens)
    if hfloor : chunk_tokens ≤ minChunkTokens then
      if pieces.length ≤ 1 then callOnce native_op payload calls
      else callPieces host native_op text_field none payload pieces calls
    else
      let again := chunkAndCall overlap_tokens
        (max (chunk_tokens / 2) minChunkTokens)
      if pieces.length ≤ 1 then again payload calls
      else
        callPieces host native_op text_field (some again) payload pieces calls
termination_by chunk_tokens
decreasing_by
  have hhalf : chunk_tokens / 2 < chunk_tokens := by
    unfold minChunkTokens at hfloor
    omega
  exact max_lt hhalf (not_le.mp hfloor)

/-- The results, whether the text was cut, and the calls so far. -/
structure ChunkedCall where
  called : List Called
  was_chunked : Bool
  calls : Nat

structure ChunkLimits where
  budget_tokens : Int
  chunk_tokens : Int
  overlap_tokens : Int

/-- What is left for the text beside the other fields. -/
def callInChunks (limits : ChunkLimits) (payload : Payload) (calls : Nat) :
    ChunkedCall :=
  let base_payload := Dict.erase text_field payload
  let base_tokens := estimateNativePayloadTokens host base_payload
  if (base_tokens : Int) > limits.budget_tokens then
    let (called, calls) := callOnce native_op payload calls
    { called := called
      was_chunked := false
      calls := calls }
  else
    let size := max
      (min limits.chunk_tokens (limits.budget_tokens - base_tokens))
      minChunkTokens
    let (called, calls) := chunkAndCall host native_op text_field
      limits.overlap_tokens size.toNat payload calls
    { called := called
      was_chunked := true
      calls := calls }

def callNativeOpChunked (limits : ChunkLimits) (payload : Payload)
    (calls : Nat) : ChunkedCall :=
  if (estimateNativePayloadTokens host payload : Int) ≤
      limits.budget_tokens then
    let result := native_op calls payload
    if overflowed host result then
      callInChunks host native_op text_field limits payload (calls + 1)
    else
      { called := [{ payload := payload
                     result := result }]
        was_chunked := false
        calls := calls + 1 }
  else callInChunks host native_op text_field limits payload calls

end Calls

end Afm
end Minni
