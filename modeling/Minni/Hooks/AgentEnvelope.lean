import Mathlib.Data.List.Basic
import Minni.Foundation.Text

/-!
# The envelope of a turn

A hook hands the agent a body of values as one line of JSON between two tags.
Strings are lists of UTF-16 units.  The printer of strings writes a surrogate
that has no partner as an escape, and neither it nor the wrapper escapes an
angle bracket.
-/

namespace Minni
namespace Hooks

open Foundation

abbrev Units := List Nat

/-- The units of a text of plain ASCII. -/
def ascii (text : String) : Units :=
  text.toList.map Char.toNat

/-!
## Values
-/

/-- The digits that a number is printed with. -/
structure NumberText where
  units : Units
  plain : 0x3c ∉ units

inductive EnvelopeValue where
  | undefined
  | null
  | bool (b : Bool)
  | number (n : NumberText)
  | string (units : Units)
  | array (items : List EnvelopeValue)
  | object (fields : List (Units × EnvelopeValue))

/-- The body is an object, and an object has a key once. -/
structure EnvelopeBody where
  fields : List (Units × EnvelopeValue)
  distinct : (fields.map Prod.fst).Nodup

inductive EnvelopeEvent where
  | SessionStart
  | UserPromptSubmit
  | PreCompact
  | PostCompact
  | CompactSummary
  | Stop
  | Handoff
  deriving DecidableEq, Repr

def EnvelopeEvent.text : EnvelopeEvent -> Units
  | .SessionStart => ascii "SessionStart"
  | .UserPromptSubmit => ascii "UserPromptSubmit"
  | .PreCompact => ascii "PreCompact"
  | .PostCompact => ascii "PostCompact"
  | .CompactSummary => ascii "CompactSummary"
  | .Stop => ascii "Stop"
  | .Handoff => ascii "Handoff"

/-!
## Printing
-/

def isHigh (u : Nat) : Bool :=
  decide (0xd800 ≤ u) && decide (u ≤ 0xdbff)

def isLow (u : Nat) : Bool :=
  decide (0xdc00 ≤ u) && decide (u ≤ 0xdfff)

def startsLow : Units -> Bool
  | [] => false
  | u :: _ => isLow u

def hexUnit (n : Nat) : Nat :=
  if n < 10 then 0x30 + n else 0x57 + n

/-- `\u` and four hexadecimal digits. -/
def unicodeEscape (u : Nat) : Units :=
  [0x5c, 0x75, hexUnit (u / 0x1000), hexUnit (u / 0x100 % 16),
    hexUnit (u / 0x10 % 16), hexUnit (u % 16)]

def escapeUnit (u : Nat) : Units :=
  if u = 0x22 then [0x5c, 0x22]
  else if u = 0x5c then [0x5c, 0x5c]
  else if u = 0x08 then [0x5c, 0x62]
  else if u = 0x09 then [0x5c, 0x74]
  else if u = 0x0a then [0x5c, 0x6e]
  else if u = 0x0c then [0x5c, 0x66]
  else if u = 0x0d then [0x5c, 0x72]
  else if u < 0x20 then unicodeEscape u
  else if isHigh u || isLow u then unicodeEscape u
  else [u]

/-- The units of a string literal; the flag says that the unit is the second
half of a pair. -/
def quoteFrom : Bool -> Units -> Units
  | _, [] => []
  | paired, u :: rest =>
      if paired then u :: quoteFrom false rest
      else if isHigh u && startsLow rest then u :: quoteFrom true rest
      else escapeUnit u ++ quoteFrom false rest

/-- `JSON.stringify` of a string. -/
def quoteUnits (s : Units) : Units :=
  0x22 :: (quoteFrom false s ++ [0x22])

def joinUnits : List Units -> Units
  | [] => []
  | [piece] => piece
  | piece :: pieces => piece ++ 0x2c :: joinUnits pieces

def bracketed (opening closing : Nat) (pieces : List Units) : Units :=
  opening :: (joinUnits pieces ++ [closing])

def isDefined : EnvelopeValue -> Bool
  | .undefined => false
  | _ => true

section Printing

-- `a.localeCompare(b) <= 0`
variable (localeOrder : Units -> Units -> Bool)

mutual

/-- The entries of an object are ordered by their keys only, and their order is
the same before and after they are printed. -/
def stableStringify : EnvelopeValue -> Units
  | .undefined => ascii "null"
  | .null => ascii "null"
  | .bool true => ascii "true"
  | .bool false => ascii "false"
  | .number n => n.units
  | .string s => quoteUnits s
  | .array items => bracketed 0x5b 0x5d (stableItems items)
  | .object fields =>
      bracketed 0x7b 0x7d
        (((stableEntries fields).mergeSort fun a b =>
          localeOrder a.1 b.1).map Prod.snd)

def stableItems : List EnvelopeValue -> List Units
  | [] => []
  | item :: rest => stableStringify item :: stableItems rest

/-- The keys that have a value, each with its printed entry. -/
def stableEntries : List (Units × EnvelopeValue) -> List (Units × Units)
  | [] => []
  | (key, value) :: rest =>
      if isDefined value then
        (key, quoteUnits key ++ 0x3a :: stableStringify value) ::
          stableEntries rest
      else stableEntries rest

end

/-- The value of a key that has one. -/
def EnvelopeBody.value (body : EnvelopeBody) (key : Units) :
    Option EnvelopeValue :=
  ((body.fields.find? fun field => field.1 = key).map Prod.snd).filter
    isDefined

def EnvelopeBody.entry (body : EnvelopeBody) (key : Units) : Option Units :=
  (body.value key).map fun value =>
    quoteUnits key ++ 0x3a :: stableStringify localeOrder value

/-- The keys that the priority does not name, in order. -/
def EnvelopeBody.restKeys (body : EnvelopeBody) (priority : List Units) :
    List Units :=
  let seen := priority.filter fun key => (body.value key).isSome
  ((body.fields.map Prod.fst).filter fun key =>
    !seen.contains key && (body.value key).isSome).mergeSort localeOrder

def serializeEnvelope (body : EnvelopeBody) (priority : List Units) : Units :=
  bracketed 0x7b 0x7d
    ((priority ++ body.restKeys localeOrder priority).filterMap
      (body.entry localeOrder))

/-- `ENVELOPE_PRIORITY_ORDER` -/
def envelopePriorityOrder : List Units :=
  ["contract", "trimmed", "over_budget", "identity", "degraded",
    "corrections_reassert", "lifecycle", "lifecycle_focus",
    "pending_learnings", "expired_handoffs", "handoff_acks",
    "handoff_context_withheld", "stale_beliefs", "active_thread",
    "active_thread_ref", "recall", "recent_learnings", "handoff_context",
    "pending_attention", "identity_body", "layer1_shelf", "layer1_source",
    "fallback_commands", "audit_tail"].map ascii

/-!
## Wrapping
-/

structure EnvelopeOptions where
  event : EnvelopeEvent
  agent : Units
  body : EnvelopeBody
  /-- A budget that is not zero. -/
  budget : Option NumberText
  priority : Option (List Units)
  legacyKeySort : Bool

def digits (n : Nat) : Units :=
  ascii (toString n)

def estimateTokens (text : Units) : Nat :=
  (text.length + 3) / 4

def EnvelopeOptions.json (options : EnvelopeOptions) : Units :=
  if options.legacyKeySort then
    stableStringify localeOrder (.object options.body.fields)
  else
    serializeEnvelope localeOrder options.body
      (options.priority.getD envelopePriorityOrder)

def EnvelopeOptions.budgetText (options : EnvelopeOptions) : Units :=
  match options.budget with
  | none => []
  | some budget => ascii " budget=\"" ++ budget.units ++ ascii "\""

def EnvelopeOptions.open_ (options : EnvelopeOptions) : Units :=
  ascii "<minni:context version=\"1\" event=\"" ++ options.event.text ++
    ascii "\" agent=\"" ++ options.agent ++ ascii "\" tokens=\"" ++
    digits (estimateTokens (options.json localeOrder)) ++ ascii "\"" ++
    options.budgetText ++ ascii ">"

def contextClose : Units :=
  ascii "</minni:context>"

def wrapEnvelope (options : EnvelopeOptions) : Units :=
  options.open_ localeOrder ++ 0x0a ::
    (options.json localeOrder ++ 0x0a :: contextClose)

end Printing

/-!
## Clipping
-/

def evidenceOpen : Units :=
  ascii "<EVIDENCE"

def evidenceClose : Units :=
  ascii "</EVIDENCE>"

/-- What `/^<EVIDENCE[^>]*>/` matches. -/
def evidenceTag (text : Units) : Option Units :=
  let body := text.takeWhile (· ≠ 0x3e)
  if evidenceOpen.isPrefixOf text && decide (body.length < text.length) then
    some (text.take (body.length + 1))
  else none

def clipEvidenceText (text : Units) (maxChars : Nat) : Units :=
  if text.length ≤ maxChars then text
  else
    match (evidenceTag text).filter fun _ => evidenceClose.isSuffixOf text with
    | some openTag =>
        let innerBudget :=
          maxChars - openTag.length - evidenceClose.length - 3
        let inner :=
          (text.take (text.length - evidenceClose.length)).drop openTag.length
        openTag ++ inner.take innerBudget ++ ascii "..." ++ evidenceClose
    | none => text.take (maxChars - 3) ++ ascii "..."

end Hooks
end Minni
