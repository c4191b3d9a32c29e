import Mathlib.Data.Rat.Defs
import Minni.Foundation.Dict
import Minni.Foundation.Text
import Minni.Vault.MultiTerm

/-!
# The score of a note

What a note of the vault scores for a query: the gate by its status, the bonus
for a phrase, the counts of the terms by one of two paths, and the boosts that
rank it.  A matcher is kept under the terms of its query joined by NUL.
-/

namespace Minni
namespace Vault

open Foundation

def unitsOf (s : String) : List Nat :=
  Text.utf16Units s

/-!
## The frontmatter
-/

def isWhitespaceUnit (u : Nat) : Bool :=
  (9 ≤ u && u ≤ 13) || u = 0x20 || u = 0xa0 || u = 0x1680 ||
    (0x2000 ≤ u && u ≤ 0x200a) || u = 0x2028 || u = 0x2029 || u = 0x202f ||
    u = 0x205f || u = 0x3000 || u = 0xfeff

def trimUnits (s : List Nat) : List Nat :=
  ((s.dropWhile isWhitespaceUnit).reverse.dropWhile isWhitespaceUnit).reverse

def isQuote (u : Nat) : Bool :=
  u = 34 || u = 39

/-- `replace(/^["']|["']$/g, "")` -/
def stripQuotes (s : List Nat) : List Nat :=
  let opened := if s.head?.any isQuote then s.tail else s
  if opened.getLast?.any isQuote then opened.dropLast else opened

/-- What follows `\r?\n`. -/
def afterNewline : List Nat -> Option (List Nat)
  | 13 :: 10 :: rest => some rest
  | 10 :: rest => some rest
  | _ => none

def fence : List Nat :=
  [45, 45, 45]

/-- The shortest text before a line break and a fence. -/
def bodyBeforeFence : List Nat -> Option (List Nat)
  | [] => none
  | u :: rest =>
      if (afterNewline (u :: rest)).any fence.isPrefixOf then some []
      else (bodyBeforeFence rest).map (u :: ·)

def frontmatterBody (markdown : List Nat) : Option (List Nat) :=
  if fence.isPrefixOf markdown then
    (afterNewline (markdown.drop fence.length)).bind bodyBeforeFence
  else none

def isLineTerminator (u : Nat) : Bool :=
  u = 10 || u = 13 || u = 0x2028 || u = 0x2029

/-- The value of the first line `key: value` with something behind the
colon. -/
def frontmatterField (markdown : List Nat) (key : String) :
    Option (List Nat) :=
  let start := unitsOf key ++ [58]
  (frontmatterBody markdown).bind fun body =>
    ((body.splitOnP isLineTerminator).findSome? fun line =>
      if start.isPrefixOf line && start.length < line.length then
        some (stripQuotes (trimUnits (line.drop start.length)))
      else none).filter fun value => value ≠ []

/-!
## The phrase
-/

variable (U : Unicode)

def encodePoint (c : Nat) : List Nat :=
  if 0x10000 ≤ c then
    [0xd800 + (c - 0x10000) / 0x400, 0xdc00 + (c - 0x10000) % 0x400]
  else [c]

def isTermPoint (c : Nat) : Bool :=
  wordChar U c || c = 95 || c = 47 || c = 45

/-- Both ends without the characters that no term of a query holds. -/
def trimToTerm (raw : List Nat) : List Nat :=
  let opened := (codePoints raw).dropWhile fun c => !isTermPoint U c
  ((opened.reverse.dropWhile fun c => !isTermPoint U c).reverse).flatMap
    encodePoint

def minPhraseLength : Nat :=
  2

def isPhrase (candidate : List Nat) : Bool :=
  hasWordChar U candidate &&
    (minPhraseLength ≤ candidate.length ||
      match codePoints candidate with
      | [c] => U.noSeparator c
      | _ => false)

def phraseForms (query : List Nat) : List (List Nat) :=
  let raw := trimUnits (U.toLowerCase query)
  let trimmed := trimToTerm U raw
  (if trimmed = raw then [raw] else [raw, trimmed]).filter (isPhrase U)

def phraseScore (query haystack : List Nat) : Nat :=
  if (phraseForms U query).any fun phrase =>
      0 < countWordOccurrences U haystack phrase false defaultMaxCount then 50
  else 0

/-!
## The terms
-/

/-- A lower-case letter, a digit, `_`, `/` or `-`. -/
def isTermUnit (u : Nat) : Bool :=
  isAsciiLowerWordChar u || u = 95 || u = 47 || u = 45

def stopWords : List (List Nat) :=
  ["a", "an", "and", "are", "as", "at", "be", "by", "do", "for", "if", "in",
    "is", "it", "no", "of", "on", "or", "so", "the", "to", "up", "we", "with",
    "you", "can", "how", "what", "where", "which", "who", "why"].map unitsOf

/-- The runs of two or more characters of a term, each once, that hold a
letter or a digit. -/
def queryTokens (query : List Nat) : List (List Nat) :=
  (((U.toLowerCase query).splitOnP fun u => !isTermUnit u).filter
    fun run => 2 ≤ run.length).eraseDups.filter hasAsciiWordChar

def queryTerms (query : List Nat) : List (List Nat) :=
  let tokens := queryTokens U query
  let content := tokens.filter fun token => !stopWords.contains token
  if content ≠ [] then content else tokens

def multiTermThreshold : Nat :=
  8

def multiTermLruLimit : Nat :=
  64

/-- The matchers by their keys, the one used longest ago first. -/
abbrev MatcherCache :=
  List (List Nat × MultiTermMatcher)

def matcherKey (terms : List (List Nat)) : List Nat :=
  [0].intercalate terms

def getMultiTermMatcher (cache : MatcherCache) (terms : List (List Nat)) :
    MultiTermMatcher × MatcherCache :=
  let key := matcherKey terms
  match cache.lookup key with
  | some matcher => (matcher, Dict.erase key cache ++ [(key, matcher)])
  | none =>
      let matcher := MultiTermMatcher.new terms
      let kept := if multiTermLruLimit ≤ cache.length then cache.tail else cache
      (matcher, kept ++ [(key, matcher)])

/-- What a term adds that occurs `count` times, and whether in the title. -/
def termBonus (count : Nat) (inTitle : Bool) : Nat :=
  min count 5 + if inTitle then 3 else 0

def multiTermCount (counts : List Nat) (haystack term : List Nat) :
    TermIndex -> Nat
  | .pattern m => counts.getD m 0
  | .notAscii => countWordOccurrences U haystack term true 5
  | .rejected => 0

def multiTermScore (matcher : MultiTermMatcher) (terms : List (List Nat))
    (haystack titleLower : List Nat) : Nat :=
  let counts := countAll U matcher haystack 5
  ((terms.zip matcher.termToPatIdx).map fun entry =>
    let count := multiTermCount U counts haystack entry.1 entry.2
    if 0 < count then
      termBonus count
        (0 < countWordOccurrences U titleLower entry.1 true 1)
    else 0).sum

def perTermScore (terms : List (List Nat)) (haystack titleLower : List Nat) :
    Nat :=
  (terms.map fun term =>
    let count := countWordOccurrences U haystack term true defaultMaxCount
    (if 0 < count then min count 5 else 0) +
      (if 0 < countWordOccurrences U titleLower term true defaultMaxCount then
        3 else 0)).sum

/-!
## The score
-/

def skipsByStatus (markdown : List Nat) : Bool :=
  (((frontmatterField markdown "status").map U.toLowerCase).any fun status =>
    [unitsOf "superseded", unitsOf "rejected", unitsOf "expired",
      unitsOf "draft"].contains status) ||
    (frontmatterField markdown "superseded_by").isSome

def correctionClassTypes : List (List Nat) :=
  [unitsOf "correction", unitsOf "contradiction", unitsOf "decision",
    unitsOf "fix"]

def correctionSalienceBoost : Rat :=
  1 / 4

def minTermScore : Nat :=
  1

/-- A character of a pattern that ignores case, over ASCII. -/
def sameLetter (c x : Nat) : Bool :=
  c = x || (97 ≤ c && c ≤ 122 && x + 32 = c)

def startsIgnoringCase : List Nat -> List Nat -> Bool
  | [], _ => true
  | _ :: _, [] => false
  | c :: cs, x :: xs => sameLetter c x && startsIgnoringCase cs xs

/-- `/minni_learning:\s*true/i` -/
def marksLearning (markdown : List Nat) : Bool :=
  let mark := unitsOf "minni_learning:"
  markdown.tails.any fun rest =>
    startsIgnoringCase mark rest &&
      startsIgnoringCase (unitsOf "true")
        ((rest.drop mark.length).dropWhile isWhitespaceUnit)

def boosts (relativePath markdown : List Nat) (termScore : Nat) : Rat :=
  if termScore < minTermScore then 0
  else
    let score : Rat := (termScore : Rat)
      + (if (unitsOf "wiki/sessions/").isPrefixOf relativePath then 1 else 0)
      + (if marksLearning markdown then 2 else 0)
    if ((frontmatterField markdown "type").map U.toLowerCase).any
        fun pageType => correctionClassTypes.contains pageType then
      score * (1 + correctionSalienceBoost)
    else score

def haystackOf (relativePath title markdown : List Nat) : List Nat :=
  U.toLowerCase (title ++ 10 :: (relativePath ++ 10 :: markdown))

/-- The score of a note, by the path that the number of terms asks for. -/
def scoreVaultNote (cache : MatcherCache) (query : List Nat)
    (terms : List (List Nat)) (relativePath title markdown : List Nat) :
    Rat × MatcherCache :=
  if skipsByStatus U markdown then (0, cache)
  else
    let haystack := haystackOf U relativePath title markdown
    let titleLower := U.toLowerCase title
    let bonus := phraseScore U query haystack
    if multiTermThreshold < terms.length then
      let found := getMultiTermMatcher cache terms
      (boosts U relativePath markdown
        (bonus + multiTermScore U found.1 terms haystack titleLower), found.2)
    else
      (boosts U relativePath markdown
        (bonus + perTermScore U terms haystack titleLower), cache)

/-- The score of a note by the loop over the terms. -/
def scorePerTerm (query : List Nat) (terms : List (List Nat))
    (relativePath title markdown : List Nat) : Rat :=
  if skipsByStatus U markdown then 0
  else
    let haystack := haystackOf U relativePath title markdown
    let titleLower := U.toLowerCase title
    boosts U relativePath markdown
      (phraseScore U query haystack +
        perTermScore U terms haystack titleLower)

end Vault
end Minni
