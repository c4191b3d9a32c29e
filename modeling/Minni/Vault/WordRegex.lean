import Mathlib.Algebra.Ring.Nat
import Minni.Foundation.Regex

/-!
# Whole-word patterns

The patterns by which the vault search counts a term, and the Unicode data
they rest on.  A string is its UTF-16 code units.  Patterns carry the flag for
Unicode and are matched over code points.
-/

namespace Minni
namespace Vault

open Foundation

def isAsciiUpper (c : Nat) : Bool :=
  65 ≤ c && c ≤ 90

def isAsciiLetter (c : Nat) : Bool :=
  isAsciiUpper c || (97 ≤ c && c ≤ 122)

def isAsciiDigit (c : Nat) : Bool :=
  48 ≤ c && c ≤ 57

/-- The character data of the host.  `wordFolded` and `noSeparatorFolded` are
the classes as a pattern that ignores case reads them. -/
structure Unicode where
  letter : Nat -> Bool
  number : Nat -> Bool
  noSeparator : Nat -> Bool
  fold : Nat -> Nat
  wordFolded : Nat -> Bool
  noSeparatorFolded : Nat -> Bool
  toLowerCase : List Nat -> List Nat
  letter_ascii : forall c, c < 128 -> letter c = isAsciiLetter c
  number_ascii : forall c, c < 128 -> number c = isAsciiDigit c
  noSeparator_latin : forall c, c < 128 ∨ c = 0x17f ∨ c = 0x212a ->
    noSeparator c = false
  fold_ascii : forall c, c < 128 ->
    fold c = if isAsciiUpper c then c + 32 else c
  /-- Outside of ASCII the long s and the sign for kelvin fold to a letter of
  ASCII, and nothing else does. -/
  fold_into_ascii : forall c, 128 ≤ c -> fold c < 128 ->
    (c = 0x17f ∧ fold c = 115) ∨ (c = 0x212a ∧ fold c = 107)
  wordFolded_iff : forall c, wordFolded c = true <->
    exists a, (letter a || number a) = true ∧ fold a = fold c
  noSeparatorFolded_iff : forall c, noSeparatorFolded c = true <->
    exists a, noSeparator a = true ∧ fold a = fold c
  toLowerCase_lower : forall s c, c ∈ toLowerCase s -> isAsciiUpper c = false
  toLowerCase_idem : forall s, toLowerCase (toLowerCase s) = toLowerCase s
  /-- No letter is lowered by what stands beyond the end of its line. -/
  toLowerCase_line : forall s t,
    toLowerCase (s ++ 10 :: t) = toLowerCase s ++ 10 :: toLowerCase t

/-!
## Code points
-/

def isHigh (u : Nat) : Bool :=
  0xd800 ≤ u && u ≤ 0xdbff

def isLow (u : Nat) : Bool :=
  0xdc00 ≤ u && u ≤ 0xdfff

def codePoints : List Nat -> List Nat
  | [] => []
  | [u] => [u]
  | u :: v :: rest =>
      if isHigh u && isLow v then
        (0x10000 + (u - 0xd800) * 0x400 + (v - 0xdc00)) :: codePoints rest
      else u :: codePoints (v :: rest)

/-- The code units of a list of code points. -/
def unitLength (cs : List Nat) : Nat :=
  (cs.map fun c => if 0x10000 ≤ c then 2 else 1).sum

/-!
## Classes of code units
-/

def isAsciiLowerWordChar (code : Nat) : Bool :=
  (97 ≤ code && code ≤ 122) || (48 ≤ code && code ≤ 57)

def isAsciiLowerEdgeChar (code : Nat) : Bool :=
  isAsciiLowerWordChar code || code = 95

def isPureLowerAscii (str : List Nat) : Bool :=
  str.all fun c => !(128 ≤ c || (65 ≤ c && c ≤ 90))

def hasAsciiWordChar (str : List Nat) : Bool :=
  str.any isAsciiLowerWordChar

/-!
## Patterns
-/

def maxRegexTermLength : Nat :=
  256

def minMorphologicalLength : Nat :=
  4

variable (U : Unicode) (ignoreCase : Bool)

def wordChar (c : Nat) : Bool :=
  U.letter c || U.number c

/-- A test for a character that is not there reads the text "undefined". -/
def wordEdgeChar : Option Nat -> Bool
  | none => true
  | some c => wordChar U c || c = 95

def letterChar : Option Nat -> Bool
  | none => true
  | some c => U.letter c

def hasWordChar (term : List Nat) : Bool :=
  (codePoints term).any (wordChar U)

def sameChar (c x : Nat) : Bool :=
  if ignoreCase then U.fold c == U.fold x else c == x

def wordClass : Nat -> Bool :=
  if ignoreCase then U.wordFolded else wordChar U

def noSeparatorClass : Nat -> Bool :=
  if ignoreCase then U.noSeparatorFolded else U.noSeparator

def notWordBefore : Regex Nat :=
  .alt (.behind false (wordClass U ignoreCase))
    (.behind true (noSeparatorClass U ignoreCase))

def notWordAfter : Regex Nat :=
  .alt (.ahead false (wordClass U ignoreCase))
    (.ahead true (noSeparatorClass U ignoreCase))

/-- `(?:s|es|ing|ed)?` -/
def morphologicalSuffix : Regex Nat :=
  (Regex.alt (.word (sameChar U ignoreCase) [115])
    (.alt (.word (sameChar U ignoreCase) [101, 115])
      (.alt (.word (sameChar U ignoreCase) [105, 110, 103])
        (.word (sameChar U ignoreCase) [101, 100])))).optional

def leadRequired (term : List Nat) : Bool :=
  wordEdgeChar U term.head?

def tailRequired (term : List Nat) : Bool :=
  wordEdgeChar U term.getLast?

def allowSuffix (term : List Nat) (inflect : Bool) : Bool :=
  inflect && minMorphologicalLength ≤ term.length &&
    letterChar U term.getLast?

/-- A term with neither an edge to anchor nor a letter or number. -/
def rejected (term : List Nat) : Bool :=
  !leadRequired U term && !tailRequired U term && !hasWordChar U term

def tailPattern (term : List Nat) (inflect : Bool) : Regex Nat :=
  .seq
    (if allowSuffix U term inflect then morphologicalSuffix U ignoreCase
      else .empty)
    (if tailRequired U term then notWordAfter U ignoreCase else .empty)

/-- The pattern of a term, by whether it ignores case. -/
def wordPattern (term : List Nat) (inflect : Bool) : Regex Nat :=
  .seq (if leadRequired U term then notWordBefore U ignoreCase else .empty)
    (.seq (.word (sameChar U ignoreCase) (codePoints term))
      (tailPattern U ignoreCase term inflect))

/-- The pattern is built with the flags `giu`. -/
def wordRegex (term : List Nat) (inflect : Bool) : Option (Regex Nat) :=
  if rejected U term then none else some (wordPattern U true term inflect)

end Vault
end Minni
