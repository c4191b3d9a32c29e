import Mathlib.Logic.Function.Basic
import Minni.Vault.WordCount

/-!
# Counting many terms in one pass

The automaton of the terms of a query that are lower-case ASCII: a trie of
their characters, its failure links resolved into its transitions, and at each
state the chain of the patterns that end there.  Tables are functions, and
`none` is an entry that holds -1.
-/

namespace Minni
namespace Vault

open Foundation
open Foundation.Scan

/-!
## The patterns of a list of terms
-/

/-- Where a term is counted: as a pattern, not at all (-1), or by itself as it
is not lower-case ASCII (-2). -/
inductive TermIndex where
  | pattern (idx : Nat)
  | rejected
  | notAscii
  deriving DecidableEq, Repr

structure Patterns where
  patternStr : List (List Nat)
  termToPatIdx : List TermIndex
  deriving DecidableEq, Repr

/-- `patternStr` is also the map of the patterns that were seen. -/
def addTerm (s : Patterns) (t : List Nat) : Patterns :=
  let index (i : TermIndex) : Patterns :=
    { s with termToPatIdx := s.termToPatIdx ++ [i] }
  if t = [] then index .rejected
  else if !isPureLowerAscii t then index .notAscii
  else
    match s.patternStr.idxOf? t with
    | some existing => index (.pattern existing)
    | none =>
        if asciiRejected t then index .rejected
        else
          { patternStr := s.patternStr ++ [t]
            termToPatIdx :=
              s.termToPatIdx ++ [.pattern s.patternStr.length] }

def patternsOf (terms : List (List Nat)) : Patterns :=
  terms.foldl addTerm { patternStr := [], termToPatIdx := [] }

/-!
## The trie
-/

structure Trie where
  goto : Nat -> Nat -> Option Nat
  firstMatch : Nat -> Option Nat
  numStates : Nat

def Trie.empty : Trie :=
  { goto := fun _ _ => none, firstMatch := fun _ => none, numStates := 1 }

/-- The state that a code leads to, which is made where there is none. -/
def Trie.walk (s : Trie × Nat) (code : Nat) : Trie × Nat :=
  match s.1.goto s.2 code with
  | some next => (s.1, next)
  | none =>
      ({ s.1 with
          goto := Function.update s.1.goto s.2
            (Function.update (s.1.goto s.2) code (some s.1.numStates))
          numStates := s.1.numStates + 1 }, s.1.numStates)

def Trie.insert (t : Trie) (p : List Nat × Nat) : Trie :=
  let s := p.1.foldl Trie.walk (t, 0)
  { s.1 with firstMatch := Function.update s.1.firstMatch s.2 (some p.2) }

def buildTrie (patterns : List (List Nat)) : Trie :=
  patterns.zipIdx.foldl Trie.insert Trie.empty

/-!
## Failure links

States are taken in the order of their depth.  A transition that the trie does
not have is the one of the state that the failure link leads to.
-/

structure Automaton where
  goto : Nat -> Nat -> Option Nat
  firstMatch : Nat -> Option Nat
  nextMatch : Nat -> Option Nat
  failLink : Nat -> Nat
  bfsQueue : List Nat

/-- The transition of `u` by `c`, beside the state `target` that the failure
link of `u` leads to by `c`. -/
def linkChar (u : Nat) (target : Automaton -> Nat -> Nat) (a : Automaton)
    (c : Nat) : Automaton :=
  match a.goto u c with
  | some next =>
      { a with
        failLink := Function.update a.failLink next (target a c)
        bfsQueue := a.bfsQueue ++ [next] }
  | none =>
      { a with
        goto := Function.update a.goto u
          (Function.update (a.goto u) c (some (target a c))) }

def linkRoot (a : Automaton) : Automaton :=
  (List.range 128).foldl (linkChar 0 fun _ _ => 0) a

def linkMatch (u f : Nat) (a : Automaton) : Automaton :=
  match a.firstMatch f with
  | none => a
  | some fMatch =>
      match a.firstMatch u with
      | some uMatch =>
          { a with
            nextMatch := Function.update a.nextMatch uMatch (some fMatch) }
      | none =>
          { a with firstMatch := Function.update a.firstMatch u (some fMatch) }

def linkState (u : Nat) (a : Automaton) : Automaton :=
  let f := a.failLink u
  (List.range 128).foldl (linkChar u fun b c => (b.goto f c).getD 0)
    (linkMatch u f a)

def linkAll : (fuel : Nat) -> Automaton -> Automaton
  | 0, a => a
  | fuel + 1, a =>
      match a.bfsQueue with
      | [] => a
      | u :: rest => linkAll fuel (linkState u { a with bfsQueue := rest })

def startAutomaton (t : Trie) : Automaton :=
  { goto := t.goto
    firstMatch := t.firstMatch
    nextMatch := fun _ => none
    failLink := fun _ => 0
    bfsQueue := [] }

def buildAutomaton (patterns : List (List Nat)) : Automaton :=
  let t := buildTrie patterns
  linkAll t.numStates (linkRoot (startAutomaton t))

structure MultiTermMatcher where
  patternStr : List (List Nat)
  termToPatIdx : List TermIndex
  gotoTable : Nat -> Nat -> Option Nat
  firstMatchAtState : Nat -> Option Nat
  nextMatch : Nat -> Option Nat

def MultiTermMatcher.new (terms : List (List Nat)) : MultiTermMatcher :=
  let p := patternsOf terms
  let a := buildAutomaton p.patternStr
  { patternStr := p.patternStr
    termToPatIdx := p.termToPatIdx
    gotoTable := a.goto
    firstMatchAtState := a.firstMatch
    nextMatch := a.nextMatch }

/-!
## One pass over a text
-/

variable (U : Unicode) (matcher : MultiTermMatcher) (text : List Nat)
  (maxCount : Nat)

/-- `counts`, `nextAllowedPos` and `needsFallback` of every pattern. -/
structure Pass where
  state : Nat
  cursors : Nat -> Cursor

def patternVisit (m afterIdx : Nat) (cursor : Cursor) : Cursor :=
  let t := matcher.patternStr.getD m []
  visit (termVerdict text t true) maxCount cursor (afterIdx - t.length)

def visitChain (afterIdx : Nat) :
    (fuel : Nat) -> Option Nat -> (Nat -> Cursor) -> Nat -> Cursor
  | 0, _, cursors => cursors
  | _ + 1, none, cursors => cursors
  | fuel + 1, some m, cursors =>
      visitChain afterIdx fuel (matcher.nextMatch m)
        (Function.update cursors m
          (patternVisit matcher text maxCount m afterIdx (cursors m)))

def readUnit (s : Pass) (i : Nat) : Pass :=
  let code := charCodeAt text i
  if 128 ≤ code then { s with state := 0 }
  else
    let state := (matcher.gotoTable s.state code).getD 0
    { state := state
      cursors := visitChain matcher text maxCount (i + 1)
        matcher.patternStr.length (matcher.firstMatchAtState state)
        s.cursors }

def pass : Pass :=
  (List.range text.length).foldl (readUnit matcher text maxCount)
    { state := 0, cursors := fun _ => Cursor.start }

/-- The count of each pattern, which a fallback replaces. -/
def countAll : List Nat :=
  (List.range matcher.patternStr.length).map fun m =>
    let cursor := (pass matcher text maxCount).cursors m
    if cursor.fellBack then
      min (countWordOccurrencesRegex U text (matcher.patternStr.getD m []) true
        defaultMaxCount) maxCount
    else cursor.count

end Vault
end Minni
