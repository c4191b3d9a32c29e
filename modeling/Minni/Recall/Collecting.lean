import Minni.Foundation.PyText
import Minni.Foundation.Words
import Minni.Recall.Rerank

/-!
# Collecting eligible rows

A search is asked for a window of rows, of which only the eligible ones count.
Where they are too few the window is doubled, up to a ceiling.  The window is
measured in rows of a search that gives each document once, while the search
itself is cut in chunks.
-/

namespace Minni
namespace Recall

open Foundation
open Foundation.Window

/-!
## Widening the window
-/

structure Collected (K : Type) where
  rows : List (Hit K)
  /-- `candidate_window_exhausted` -/
  exhausted : Bool

section Collect

variable {K : Type} (fetch : Nat -> List (Hit K)) (eligible : Hit K -> Bool)
  (wanted : Int) (sqlWindow : Bool) (ceiling : Nat)

/-- The loop, from a window on. -/
def collectFrom (window : Nat) (hpos : 0 < window) : Collected K :=
  let raw := fetch window
  let rows := raw.filter eligible
  if wanted ≤ rows.length ∨ rows.length = raw.length then
    { rows := rows, exhausted := false }
  else if sqlWindow = true ∧ raw.length < window then
    { rows := rows, exhausted := false }
  else if hceiling : ceiling ≤ window then
    { rows := rows, exhausted := true }
  else
    collectFrom (min ceiling (window * 2)) (by omega)
termination_by ceiling - window

def firstWindow : Nat :=
  (max 1 wanted).toNat

theorem firstWindow_pos : 0 < firstWindow wanted := by
  unfold firstWindow
  omega

def ceilingOf (effectiveFast : Bool) : Nat :=
  if effectiveFast then firstWindow wanted else max (firstWindow wanted) 512

def collectEligible (effectiveFast : Bool) : Collected K :=
  collectFrom fetch eligible wanted sqlWindow (ceilingOf wanted effectiveFast)
    (firstWindow wanted) (firstWindow_pos wanted)

end Collect

/-!
## Rows of the tables
-/

/-- A row of the joined tables; `chunk_text` is the text that the query
selects. -/
structure DocRow (K : Type) where
  doc_id : Nat
  chunk_id : Option Nat
  path : String
  agent : String
  sigil : String
  decay_score : Option K
  page_status : Option String
  privacy_level : Option String
  page_type : Option String
  evidence_refs : Option String
  indexed_at : Option K
  layer : Option String
  chunk_text : Option String
  heading_context : Option String

/-- `value or default` -/
def orElse (value : Option String) (default_ : String) : String :=
  if truthy value then value.getD "" else default_

/-- `_normalize_agent_filter` -/
def normalizeAgentFilter (agentFilter : List String) : List String :=
  ((agentFilter.map PyText.strip).filter fun agent => agent ≠ "").eraseDups

def agentAllowed {K : Type} (scope : List String) (row : DocRow K) : Bool :=
  scope.isEmpty || scope.contains row.agent

variable {K : Type} [LinearOrder K] [Zero K] [One K]

/-!
## The lexical search
-/

structure FtsIndex (K : Type) where
  /-- The rows that match an expression, by rank. -/
  matchesOf : String -> List (DocRow K)
  /-- `\w` -/
  isWordChar : Char -> Bool
  lower : String -> String
  /-- How many documents of the trie have a token. -/
  tokenCount : String -> Nat
  isLargeCorpus : Bool
  stripLeadingFrontmatter : String -> String

namespace FtsIndex

variable (index : FtsIndex K)

def sanitizeFtsQuery (query : String) : String :=
  let cleaned := query.toList.map fun c =>
    if index.isWordChar c || PyText.isSpace c then c else ' '
  String.ofList (Words.join ' ' (Words.split PyText.isSpace cleaned))

def orFallbackStopwords : List String :=
  ["minni", "sovereign", "the", "and", "for", "with", "from", "this",
    "that", "what", "how", "why", "when", "where", "are", "was", "were",
    "is", "in", "on", "to", "of", "by", "at", "as", "or", "not"]

def selectiveOrTerms (loweredTerms : List String) : List String :=
  loweredTerms.filter fun t =>
    !orFallbackStopwords.contains t && index.tokenCount t ≤ 500

def hit (row : DocRow K) : Hit K :=
  { doc_id := row.doc_id
    path := row.path
    agent := row.agent
    sigil := row.sigil
    decay_score := some (orOne row.decay_score)
    similarity := none
    chunk_id := none
    chunk_text :=
      index.stripLeadingFrontmatter (orElse row.chunk_text "")
    heading_context := ""
    page_status := orElse row.page_status "candidate"
    privacy_level := orElse row.privacy_level "safe"
    page_type := row.page_type
    evidence_refs := row.evidence_refs
    indexed_at := row.indexed_at
    layer := orElse row.layer "knowledge" }

/-- The rows that a match selects, before it is cut. -/
def selected (scope skip : List String) (matchExpr : String) :
    List (DocRow K) :=
  (index.matchesOf matchExpr).filter fun row =>
    agentAllowed scope row &&
      !skip.contains (row.page_status.getD "candidate")

def ftsSearch (query : String) (agentFilter excludeStatuses : List String)
    (limit : Nat) : List (Hit K) :=
  let safeQuery := index.sanitizeFtsQuery query
  if safeQuery = "" then []
  else
    let scope := normalizeAgentFilter agentFilter
    let run := fun matchExpr =>
      (index.selected scope excludeStatuses matchExpr).take (limit * 3)
    let terms := (Words.split PyText.isSpace safeQuery.toList).map
      String.ofList
    let lowered := terms.map index.lower
    let selective :=
      if 1 < terms.length then index.selectiveOrTerms lowered else lowered
    let fewer := selective ≠ [] ∧ selective.length < lowered.length
    let strict :=
      if fewer ∧ index.isLargeCorpus = true then " ".intercalate selective
      else safeQuery
    let first := run strict
    let second :=
      if first = [] ∧ 1 < terms.length ∧ fewer then
        run (" OR ".intercalate selective)
      else first
    let third :=
      if second = [] ∧ 1 < terms.length then
        run (" OR ".intercalate lowered)
      else second
    third.map index.hit

end FtsIndex

/-!
## The semantic search
-/

structure VectorIndex (K : Type) where
  /-- The best chunks for the query, as the index stands. -/
  search : Nat -> List (Nat × K)
  /-- The best chunks once the index is loaded. -/
  searchLoaded : Nat -> List (Nat × K)
  /-- The chunks joined with their documents, as the table gives them. -/
  chunkRows : List (DocRow K)

namespace VectorIndex

variable (index : VectorIndex K)

def chunkHits (searchLimit : Nat) : List (Nat × K) :=
  if index.search searchLimit = [] then index.searchLoaded searchLimit
  else index.search searchLimit

def hit (row : DocRow K) (sim : K) : Hit K :=
  { doc_id := row.doc_id
    path := row.path
    agent := row.agent
    sigil := row.sigil
    decay_score := some (orOne row.decay_score)
    similarity := some sim
    chunk_id := row.chunk_id
    chunk_text := row.chunk_text.getD ""
    heading_context := orElse row.heading_context ""
    page_status := orElse row.page_status "candidate"
    privacy_level := orElse row.privacy_level "safe"
    page_type := row.page_type
    evidence_refs := row.evidence_refs
    indexed_at := row.indexed_at
    layer := orElse row.layer "knowledge" }

def similarityOf (h : Hit K) : K :=
  h.similarity.getD 0

/-- `score_map`, whose later entries win. -/
def scoreOf (hits : List (Nat × K)) (chunkId : Nat) : K :=
  (hits.reverse.lookup chunkId).getD 0

/-- The best chunk of each document. -/
def keepBest (hits : List (Nat × K)) (best : List (Nat × Hit K))
    (row : DocRow K) : List (Nat × Hit K) :=
  let sim := scoreOf hits (row.chunk_id.getD 0)
  match best.lookup row.doc_id with
  | some h =>
      if similarityOf h < sim then Dict.set row.doc_id (hit row sim) best
      else best
  | none => Dict.set row.doc_id (hit row sim) best

def semanticSearch (agentFilter : List String) (limit : Nat) :
    List (Hit K) :=
  let hits := index.chunkHits (limit * 5)
  if hits = [] then []
  else
    let chunkIds := hits.map (·.1)
    let scope := normalizeAgentFilter agentFilter
    let rows := index.chunkRows.filter fun row =>
      row.chunk_id.any chunkIds.contains && agentAllowed scope row
    let best := rows.foldl (keepBest hits) []
    (rankBy similarityOf (best.map (·.2))).take (limit * 3)

end VectorIndex

end Recall
end Minni
