import Minni.Foundation.Dict
import Minni.Foundation.ReservedWindow

/-!
# Fusing two searches

Lexical and semantic hits are merged by reciprocal ranks, scored with decay
and the boost for corrections, and cut to a window in which the first lexical
hits keep a place.  The numbers are those of any order with the operations
that the scores use.
-/

namespace Minni
namespace Recall

open Foundation
open Foundation.Window

/-!
## Records
-/

structure Config (K : Type) where
  rrf_k : Nat
  fts_weight : K
  semantic_weight : K
  correction_salience_boost : K
  correction_decay_floor : K
  correction_types : List String
  /-- `str.lower` -/
  lower : String -> String

/-- A row of a search, with the defaults that `get` gives a missing entry. -/
structure Hit (K : Type) where
  doc_id : Nat
  path : String
  agent : String
  sigil : String
  decay_score : Option K
  similarity : Option K
  chunk_id : Option Nat
  chunk_text : String
  heading_context : String
  page_status : String
  privacy_level : String
  page_type : Option String
  evidence_refs : Option String
  indexed_at : Option K
  layer : String
  deriving DecidableEq, Repr

structure MergedDoc (K : Type) where
  doc_id : Nat
  path : String
  agent : String
  sigil : String
  rrf_score : K
  decay_score : Option K
  fts_rank : Option Nat
  sem_rank : Option Nat
  similarity : Option K
  chunk_id : Option Nat
  chunk_text : String
  heading_context : String
  page_status : String
  privacy_level : String
  page_type : Option String
  evidence_refs : Option String
  indexed_at : Option K
  layer : String
  deriving DecidableEq, Repr

structure ScoredDoc (K : Type) extends MergedDoc K where
  salience_boost : K
  decay_applied : K
  final_score : K
  deriving DecidableEq, Repr

variable {K : Type} [LinearOrder K] [Zero K] [One K] [Add K] [Mul K] [Div K]
  [NatCast K] (config : Config K)

/-!
## Scoring
-/

def isCorrection (pageType : Option String) : Bool :=
  config.correction_types.contains (config.lower (pageType.getD ""))

def scoreMergedDoc (d : MergedDoc K) : ScoredDoc K :=
  let stored := d.decay_score.getD 1
  let correction := isCorrection config d.page_type
  let boost := if correction then config.correction_salience_boost else 0
  let raised :=
    if correction then max stored config.correction_decay_floor else stored
  let decay := max 0 (min 1 raised)
  { d with
    salience_boost := boost
    decay_applied := decay
    final_score := d.rrf_score * decay * (1 + boost) }

/-!
## Merging
-/

def newDoc (r : Hit K) (ftsRank semRank : Option Nat) : MergedDoc K :=
  { doc_id := r.doc_id
    path := r.path
    agent := r.agent
    sigil := r.sigil
    rrf_score := 0
    decay_score := r.decay_score
    fts_rank := ftsRank
    sem_rank := semRank
    similarity := none
    chunk_id := none
    chunk_text := r.chunk_text
    heading_context := r.heading_context
    page_status := r.page_status
    privacy_level := r.privacy_level
    page_type := r.page_type
    evidence_refs := r.evidence_refs
    indexed_at := r.indexed_at
    layer := r.layer }

/-- `doc_scores`, in the order in which the documents came up. -/
abbrev DocScores (K : Type) :=
  List (Nat × MergedDoc K)

def rankShare (weight : K) (rank : Nat) : K :=
  weight / ((config.rrf_k + rank : Nat) : K)

def addFts (docs : DocScores K) (r : Hit K × Nat) : DocScores K :=
  let did := r.1.doc_id
  let d := (docs.lookup did).getD (newDoc r.1 (some r.2) none)
  Dict.set did
    { d with
      rrf_score := d.rrf_score + rankShare config config.fts_weight r.2 }
    docs

def truthy (s : Option String) : Bool :=
  s.any (· ≠ "")

/-- What a semantic hit adds to a document that it does not have yet. -/
def fillFrom (r : Hit K) (d : MergedDoc K) : MergedDoc K :=
  { d with
    similarity := d.similarity.or r.similarity
    chunk_text := if r.chunk_text ≠ "" then r.chunk_text else d.chunk_text
    heading_context :=
      if r.chunk_text ≠ "" then r.heading_context else d.heading_context
    chunk_id := if r.chunk_text ≠ "" then r.chunk_id else d.chunk_id
    page_type :=
      if !truthy d.page_type && truthy r.page_type then r.page_type
      else d.page_type
    evidence_refs :=
      if !truthy d.evidence_refs && truthy r.evidence_refs then
        r.evidence_refs
      else d.evidence_refs
    indexed_at :=
      if !d.indexed_at.any (· ≠ 0) && r.indexed_at.any (· ≠ 0) then
        r.indexed_at
      else d.indexed_at
    layer := if d.layer = "" ∧ r.layer ≠ "" then r.layer else d.layer }

def addSemantic (docs : DocScores K) (r : Hit K × Nat) : DocScores K :=
  let did := r.1.doc_id
  let d := (docs.lookup did).getD (newDoc r.1 none (some r.2))
  Dict.set did
    (fillFrom r.1
      { d with
        rrf_score := d.rrf_score + rankShare config config.semantic_weight r.2
        sem_rank := d.sem_rank.or (some r.2) })
    docs

/-- `enumerate(results, start=1)` -/
def enumerated (results : List (Hit K)) : List (Hit K × Nat) :=
  results.zipIdx 1

def mergeDocs (ftsResults semanticResults : List (Hit K)) : DocScores K :=
  (enumerated semanticResults).foldl (addSemantic config)
    ((enumerated ftsResults).foldl (addFts config) [])

def scoreDocs (docs : DocScores K) : List (Nat × ScoredDoc K) :=
  docs.map fun entry => (entry.1, scoreMergedDoc config entry.2)

/-!
## Reserved slots
-/

def ftsQuota (ftsResults : List (Hit K)) (limit : Nat) : Nat :=
  min 10 (min ftsResults.length limit)

omit [LinearOrder K] [Zero K] [One K] [Add K] [Mul K] [Div K] [NatCast K] in
/-- The documents of the first lexical hits that the window does not hold. -/
def missingFts (docScores : List (Nat × ScoredDoc K))
    (topWindow : List (ScoredDoc K)) (hits : List (Hit K)) :
    List (ScoredDoc K) :=
  hits.foldl
    (fun missing r =>
      match docScores.lookup r.doc_id with
      | none => missing
      | some d =>
          if (topWindow.map (·.doc_id)).contains r.doc_id ||
              (missing.map (·.doc_id)).contains r.doc_id then missing
          else missing ++ [d])
    []

/-- `items[:limit]` -/
def sliceTo {item : Type} (items : List item) (limit : Int) : List item :=
  if limit < 0 then items.take (items.length - limit.natAbs)
  else items.take limit.toNat

def reserveTopFtsSlots (ranked : List (ScoredDoc K))
    (ftsResults : List (Hit K)) (docScores : List (Nat × ScoredDoc K))
    (limit : Int) : List (ScoredDoc K) :=
  if ftsResults = [] ∨ limit ≤ 0 then sliceTo ranked limit
  else
    let n := limit.toNat
    let quota := ftsQuota ftsResults n
    reserve (fun d => d.final_score)
      (fun d => d.fts_rank.any fun rank => rank ≤ quota) n ranked
      (missingFts docScores (ranked.take n) (ftsResults.take quota))

def rrfMerge (ftsResults semanticResults : List (Hit K)) (limit : Int) :
    List (ScoredDoc K) :=
  let docScores :=
    scoreDocs config (mergeDocs config ftsResults semanticResults)
  let ranked := rankBy (fun d => d.final_score) (docScores.map (·.2))
  reserveTopFtsSlots ranked ftsResults docScores limit

end Recall
end Minni
