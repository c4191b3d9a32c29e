import Minni.Vault.NoteScore

/-!
# The window of a snippet

A snippet shows the text around the first word of a note that a term of the
query meets.  The place of that word is found term by term, or for many terms
by one pass of the automaton over the lower-cased text.
-/

namespace Minni
namespace Vault

open Foundation
open Foundation.Scan

/-!
## The text of a note
-/

/-- What follows the first line break that a fence stands behind. -/
def afterFence : List Nat -> Option (List Nat)
  | [] => none
  | u :: rest =>
      match (afterNewline (u :: rest)).filter fence.isPrefixOf with
      | some closing => some (closing.drop fence.length)
      | none => afterFence rest

/-- `markdown.replace(FRONTMATTER_RE, "")` -/
def dropFrontmatter (markdown : List Nat) : List Nat :=
  let opened := markdown.dropWhile isWhitespaceUnit
  if fence.isPrefixOf opened then
    ((afterNewline (opened.drop fence.length)).bind afterFence).getD markdown
  else markdown

/-- `replace(/^#+\s+/gm, "")`, where `lineStart` says whether a line begins. -/
def dropHeadings : (fuel : Nat) -> (lineStart : Bool) -> List Nat -> List Nat
  | 0, _, text => text
  | _ + 1, _, [] => []
  | fuel + 1, lineStart, u :: rest =>
      let behind := (u :: rest).dropWhile (· == 35)
      let spaces := behind.takeWhile isWhitespaceUnit
      if lineStart && u == 35 && !spaces.isEmpty then
        dropHeadings fuel (spaces.getLast?.any isLineTerminator)
          (behind.dropWhile isWhitespaceUnit)
      else u :: dropHeadings fuel (isLineTerminator u) rest

/-- `replace(/\s+/g, " ")` -/
def collapseSpaces : (inSpaces : Bool) -> List Nat -> List Nat
  | _, [] => []
  | inSpaces, u :: rest =>
      if isWhitespaceUnit u then
        if inSpaces then collapseSpaces true rest
        else 32 :: collapseSpaces true rest
      else u :: collapseSpaces false rest

def plainOf (markdown : List Nat) : List Nat :=
  let body := dropFrontmatter markdown
  trimUnits (collapseSpaces false (dropHeadings body.length true body))

/-!
## The first word by one term
-/

variable (U : Unicode)

/-- Whether a place lies inside of a pair of surrogates. -/
def splitsPair (text : List Nat) (i : Nat) : Bool :=
  (text.take i).getLast?.any isHigh && (text.drop i).head?.any isLow

def regexMeets (regex : Regex Nat) (text : List Nat) (i : Nat) : Bool :=
  !splitsPair text i &&
    (regex.hit (codePoints (text.take i)).reverse
      (codePoints (text.drop i))).isSome

/-- `regex.exec(text)?.index` -/
def execIndex (regex : Regex Nat) (text : List Nat) : Option Nat :=
  (List.range (text.length + 1)).find? (regexMeets regex text)

def firstLongWordIndex (text term : List Nat) (inflect : Bool) : Option Nat :=
  if term = [] then none
  else
    let textLower := lowered U text
    let termLower := lowered U term
    match indexOf textLower termLower 0 with
    | none => none
    | some idx =>
        if rejected U termLower then none
        else
          firstNotPassed (longVerdict U textLower termLower inflect)
            (indexOf textLower termLower) (textLower.length + 1) (some idx)

/-- The first whole-word occurrence of a term. -/
def firstWordIndex (text term : List Nat) : Option Nat :=
  if term = [] then none
  else if maxRegexTermLength < term.length then
    firstLongWordIndex U text term true
  else (wordRegex U term true).bind fun regex => execIndex regex text

/-- `text.indexOf(term)` for any term. -/
def indexIn (text term : List Nat) : Option Nat :=
  if term = [] then some 0 else indexOf text term 0

def earliest (indexes : List (Option Nat)) : Option Nat :=
  (indexes.filterMap id).min?

def perTermHit (plain : List Nat) (terms : List (List Nat)) : Option Nat :=
  match earliest (terms.map (firstWordIndex U plain)) with
  | some hit => some hit
  | none =>
      let lower := U.toLowerCase plain
      earliest (terms.map (indexIn lower))

/-!
## The first word by one pass
-/

variable (matcher : MultiTermMatcher) (plain lower : List Nat)

structure SnippetScan where
  state : Nat
  firstWordHit : Option Nat
  firstSubHit : Option Nat
  needsFallback : List Nat
  deriving DecidableEq, Repr

def SnippetScan.start : SnippetScan :=
  { state := 0, firstWordHit := none, firstSubHit := none, needsFallback := [] }

def lowerHit (hit : Option Nat) (idx : Nat) : Option Nat :=
  match hit with
  | none => some idx
  | some first => if idx < first then some idx else some first

def runFallback (m : Nat) (s : SnippetScan) : SnippetScan :=
  if m ∈ s.needsFallback then s
  else
    { s with
      needsFallback := m :: s.needsFallback
      firstWordHit :=
        match firstWordIndex U plain (matcher.patternStr.getD m []) with
        | none => s.firstWordHit
        | some wIdx => lowerHit s.firstWordHit wIdx }

/-- A pattern that ends before `afterIdx`. -/
def snippetVisit (afterIdx : Nat) (s : SnippetScan) (m : Nat) : SnippetScan :=
  let p := matcher.patternStr.getD m []
  let idx := afterIdx - p.length
  let seen := { s with firstSubHit := lowerHit s.firstSubHit idx }
  if seen.firstWordHit.any (· ≤ idx) then seen
  else
    match termVerdict lower p true idx with
    | .pass => seen
    | .take _ => { seen with firstWordHit := some idx }
    | .giveUp => runFallback U matcher plain m seen

def snippetChain (afterIdx : Nat) :
    (fuel : Nat) -> Option Nat -> SnippetScan -> SnippetScan
  | 0, _, s => s
  | _ + 1, none, s => s
  | fuel + 1, some m, s =>
      snippetChain afterIdx fuel (matcher.nextMatch m)
        (snippetVisit U matcher plain lower afterIdx s m)

def snippetUnit (s : SnippetScan) (i : Nat) : SnippetScan :=
  let code := charCodeAt lower i
  if 128 ≤ code then { s with state := 0 }
  else
    let state := (matcher.gotoTable s.state code).getD 0
    snippetChain U matcher plain lower (i + 1) matcher.patternStr.length
      (matcher.firstMatchAtState state) { s with state := state }

def maxPatLen : Nat :=
  (matcher.patternStr.map List.length).foldl max 0

/-- No pattern that ends here or later begins before the first word. -/
def snippetDone (s : SnippetScan) (i : Nat) : Bool :=
  s.firstWordHit.any fun hit => hit + maxPatLen matcher ≤ i + 1

def snippetScan : SnippetScan -> List Nat -> SnippetScan
  | s, [] => s
  | s, i :: rest =>
      if snippetDone matcher s i then s
      else snippetScan (snippetUnit U matcher plain lower s i) rest

def firstSnippetHit : Option Nat :=
  if matcher.patternStr = [] then none
  else
    let s := snippetScan U matcher plain lower SnippetScan.start
      (List.range lower.length)
    s.firstWordHit.or s.firstSubHit

/-!
## The window
-/

def dots : List Nat :=
  [46, 46, 46]

def snippetAt (plain : List Nat) (firstHit : Option Nat) (maxLength : Nat) :
    List Nat :=
  let start := firstHit.getD 0 - 80
  let stop := min plain.length (start + maxLength)
  (if 0 < start then dots else []) ++
    trimUnits ((plain.take stop).drop start) ++
    if stop < plain.length then dots else []

def hasNonAsciiOrRejected : Bool :=
  matcher.termToPatIdx.any fun index =>
    match index with
    | .pattern _ => false
    | _ => true

/-- The place by the one pass, where the pass may be used. -/
def fastHit (plain : List Nat) : Option (Option Nat) :=
  let lower := U.toLowerCase plain
  if !hasNonAsciiOrRejected matcher ∧ plain.length = lower.length then
    some (firstSnippetHit U matcher plain lower)
  else none

def snippetFor (cache : MatcherCache) (markdown : List Nat)
    (terms : List (List Nat)) (maxLength : Nat) :
    List Nat × MatcherCache :=
  let plain := plainOf markdown
  if multiTermThreshold < terms.length then
    let found := getMultiTermMatcher cache terms
    let firstHit := (fastHit U found.1 plain).getD (perTermHit U plain terms)
    (snippetAt plain firstHit maxLength, found.2)
  else (snippetAt plain (perTermHit U plain terms) maxLength, cache)

/-- The snippet whose place is found term by term. -/
def perTermSnippet (markdown : List Nat) (terms : List (List Nat))
    (maxLength : Nat) : List Nat :=
  let plain := plainOf markdown
  snippetAt plain (perTermHit U plain terms) maxLength

end Vault
end Minni
