import Minni.Vault.WordRegex

/-!
# Counting a term in a text

The scan of the code units for a term of lower-case ASCII, the reference by
pattern that it falls back to beside other letters, and the scan with sticky
patterns for a term that is too long for a pattern.
-/

namespace Minni
namespace Vault

open Foundation
open Foundation.Scan

def charCodeAt (text : List Nat) (i : Nat) : Nat :=
  text.getD i 0

/-- For a term that is not empty. -/
def indexOf (text term : List Nat) (position : Nat) : Option Nat :=
  (List.range text.length).find? fun i =>
    position ≤ i && term.isPrefixOf (text.drop i)

/-!
## Long terms
-/

variable (U : Unicode)

/-- Where a sticky pattern that is tested at `idx` leaves its last index. -/
def stickyEnd (pattern : Regex Nat) (text : List Nat) (idx : Nat) :
    Option Nat :=
  let after := codePoints (text.drop idx)
  (pattern.hit (codePoints (text.take idx)).reverse after).map fun n =>
    idx + unitLength (after.take n)

def leadSticky : Regex Nat :=
  notWordBefore U false

def tailSticky (withSuffix : Bool) : Regex Nat :=
  if withSuffix then .seq (morphologicalSuffix U false) (notWordAfter U false)
  else notWordAfter U false

def longVerdict (text term : List Nat) (inflect : Bool) (idx : Nat) :
    Verdict :=
  if leadRequired U term && (stickyEnd (leadSticky U) text idx).isNone then
    .pass
  else
    let afterIdx := idx + term.length
    if !tailRequired U term then .take afterIdx
    else
      match stickyEnd (tailSticky U (allowSuffix U term inflect)) text
          afterIdx with
      | some lastIndex => .take lastIndex
      | none => .pass

def countLongWordOccurrences (textLower termLower : List Nat)
    (inflect : Bool) (maxCount : Nat) : Nat :=
  if rejected U termLower then 0
  else
    (loop (longVerdict U textLower termLower inflect) maxCount
      (indexOf textLower termLower) (textLower.length + 1) 0 0).getD 0

/-!
## The reference
-/

def lowered (text : List Nat) : List Nat :=
  if isPureLowerAscii text then text else U.toLowerCase text

def countWordOccurrencesRegex (text term : List Nat) (inflect : Bool)
    (maxCount : Nat) : Nat :=
  if term = [] then 0
  else
    match indexOf (lowered U text) (lowered U term) 0 with
    | none => 0
    | some _ =>
        if maxRegexTermLength < (lowered U term).length then
          countLongWordOccurrences U (lowered U text) (lowered U term) inflect
            maxCount
        else
          match wordRegex U term inflect with
          | none => 0
          | some regex => min (regex.countMatches (codePoints text)) maxCount

/-!
## The scan of lower-case ASCII
-/

def defaultMaxCount : Nat :=
  5

/-- Whether a match may end at `p`, where a suffix ends. -/
def suffixVerdict (text : List Nat) (p : Nat) : Verdict :=
  if text.length ≤ p then .take p
  else if 128 ≤ charCodeAt text p then .giveUp
  else if isAsciiLowerWordChar (charCodeAt text p) then .pass
  else .take p

def tailVerdict (text : List Nat) (suffix : Bool) (afterIdx : Nat) :
    Verdict :=
  if text.length ≤ afterIdx then .take afterIdx
  else
    let c0 := charCodeAt text afterIdx
    if 128 ≤ c0 then .giveUp
    else if !isAsciiLowerWordChar c0 then .take afterIdx
    else if !suffix then .pass
    else if c0 = 115 then suffixVerdict text (afterIdx + 1)
    else if c0 = 101 ∧ afterIdx + 1 < text.length then
      let c1 := charCodeAt text (afterIdx + 1)
      if 128 ≤ c1 then .giveUp
      else if c1 = 115 ∨ c1 = 100 then suffixVerdict text (afterIdx + 2)
      else .pass
    else if c0 = 105 ∧ afterIdx + 2 < text.length then
      let c1 := charCodeAt text (afterIdx + 1)
      let c2 := charCodeAt text (afterIdx + 2)
      if 128 ≤ c1 ∨ 128 ≤ c2 then .giveUp
      else if c1 = 110 ∧ c2 = 103 then suffixVerdict text (afterIdx + 3)
      else .pass
    else .pass

/-- The check of an occurrence at `idx` of a term with these edges. -/
def asciiVerdict (text : List Nat) (lead tail suffix : Bool)
    (termLen idx : Nat) : Verdict :=
  if lead ∧ 0 < idx ∧ 128 ≤ charCodeAt text (idx - 1) then .giveUp
  else if lead ∧ 0 < idx ∧ isAsciiLowerWordChar (charCodeAt text (idx - 1))
  then .pass
  else if !tail then .take (idx + termLen)
  else tailVerdict text suffix (idx + termLen)

def asciiLeadRequired (term : List Nat) : Bool :=
  isAsciiLowerEdgeChar (charCodeAt term 0)

def asciiTailRequired (term : List Nat) : Bool :=
  isAsciiLowerEdgeChar (charCodeAt term (term.length - 1))

def asciiAllowSuffix (term : List Nat) (inflect : Bool) : Bool :=
  inflect && minMorphologicalLength ≤ term.length &&
    (97 ≤ charCodeAt term (term.length - 1) &&
      charCodeAt term (term.length - 1) ≤ 122)

def asciiRejected (term : List Nat) : Bool :=
  !asciiLeadRequired term && !asciiTailRequired term &&
    !hasAsciiWordChar term

def termVerdict (text term : List Nat) (inflect : Bool) (idx : Nat) :
    Verdict :=
  asciiVerdict text (asciiLeadRequired term) (asciiTailRequired term)
    (asciiAllowSuffix term inflect) term.length idx

/-- The count of the scan, or `none` where it meets a letter that is not
ASCII beside an occurrence. -/
def scanWordOccurrences (text term : List Nat) (inflect : Bool)
    (maxCount : Nat) : Option Nat :=
  loop (termVerdict text term inflect) maxCount (indexOf text term)
    (text.length + 1) 0 0

/-- The fallback passes no `maxCount` on, so that the default caps it. -/
def countWordOccurrences (text term : List Nat) (inflect : Bool)
    (maxCount : Nat) : Nat :=
  if term = [] then 0
  else if !isPureLowerAscii term then
    countWordOccurrencesRegex U text term inflect maxCount
  else if (indexOf text term 0).isNone then 0
  else if asciiRejected term then 0
  else
    match scanWordOccurrences text term inflect maxCount with
    | some count => count
    | none => countWordOccurrencesRegex U text term inflect defaultMaxCount

end Vault
end Minni
