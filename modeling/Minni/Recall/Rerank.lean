import Minni.Recall.Fusion

/-!
# Adjusting reranked scores

The scores of a reranker may have either sign.  The boost of a correction
moves a score up and decay moves it down, so that each has a formula of its
own for positive scores, for negative ones and for zero.
-/

namespace Minni
namespace Recall

/-!
## Reading the stored decay
-/

/-- Where a row comes from. -/
inductive ReadPath where
  | fts
  | semantic
  | trie
  deriving DecidableEq, Repr

variable {K : Type} [LinearOrder K] [Zero K] [One K] [Add K] [Sub K] [Mul K]
  [Div K] [OfNat K 2]

/-- `row["decay_score"] or 1.0` -/
def orOne (stored : Option K) : K :=
  match stored with
  | none => 1
  | some decay => if decay = 0 then 1 else decay

def readDecay (path : ReadPath) (stored : Option K) : K :=
  match path with
  | .fts => orOne stored
  | .semantic => orOne stored
  | .trie => stored.getD 1

/-!
## Adjustments
-/

structure Candidate (K : Type) extends ScoredDoc K where
  rerank_score : Option K
  raw_rerank_score : Option K
  deriving DecidableEq, Repr

/-- A row with the decay that its search reads of it. -/
def Candidate.readFrom (path : ReadPath) (c : Candidate K) : Candidate K :=
  { c with decay_score := some (readDecay path c.decay_score) }

/-- `float(c.get("rerank_score") or 0.0)` -/
def Candidate.rerankScore (c : Candidate K) : K :=
  c.rerank_score.getD 0

def Candidate.keepRaw (c : Candidate K) : Candidate K :=
  { c with raw_rerank_score := some c.rerankScore }

variable (config : Config K)

def Candidate.scored (c : Candidate K) : Candidate K :=
  { c with toScoredDoc := scoreMergedDoc config c.toMergedDoc }

def boosted (boost score : K) : K :=
  if 0 < score then score * (1 + boost)
  else if score < 0 then score / (1 + boost)
  else boost

def boostCorrection (c : Candidate K) : Candidate K :=
  if isCorrection config c.page_type then
    { c with
      rerank_score :=
        some (boosted config.correction_salience_boost c.rerankScore)
      salience_boost := config.correction_salience_boost }
  else c

def applyCorrectionRerankBoost (candidates : List (Candidate K)) :
    List (Candidate K) :=
  if config.correction_salience_boost ≤ 0 then candidates
  else candidates.map (boostCorrection config)

def attenuated (decay score : K) : K :=
  if 0 < score then score * decay
  else if score < 0 then if 0 < decay then score / decay else score * 2
  else decay - 1

def decayApplied (pageType : Option String) (stored : Option K) : K :=
  let decay := stored.getD 1
  let raised :=
    if isCorrection config pageType then
      max decay config.correction_decay_floor
    else decay
  max 0 (min 1 raised)

def attenuate (c : Candidate K) : Candidate K :=
  let decay := decayApplied config c.page_type c.decay_score
  if decay = 1 then { c with decay_applied := decay }
  else
    { c with
      decay_applied := decay
      rerank_score := some (attenuated decay c.rerankScore) }

def applyDecayRerankAttenuation (candidates : List (Candidate K)) :
    List (Candidate K) :=
  candidates.map (attenuate config)

def applyRerankScoreAdjustments (candidates : List (Candidate K)) :
    List (Candidate K) :=
  applyDecayRerankAttenuation config (applyCorrectionRerankBoost config
    (candidates.map Candidate.keepRaw))

/-- The rows of a search, scored as merged documents and then adjusted. -/
def adjustedFrom (path : ReadPath) (rows : List (Candidate K)) :
    List (Candidate K) :=
  applyRerankScoreAdjustments config
    (rows.map fun c => (c.readFrom path).scored config)

end Recall
end Minni
