import Mathlib.Algebra.Order.Field.Basic
import Mathlib.Tactic.Linarith
import Mathlib.Tactic.Ring
import Minni.Recall.Rerank

/-!
# Decay demotes and corrections rise

A decay that is read as it is stored moves no score up, and a correction is
not below the same candidate of another class, except at the seams between the
formulas: at zero, and where the decay itself is zero.
-/

namespace Minni
namespace Recall

variable {K : Type} [Field K] [LinearOrder K] [IsStrictOrderedRing K]

/-!
## Attenuation
-/

omit [IsStrictOrderedRing K] in
theorem attenuated_of_pos {decay score : K} (h : 0 < score) :
    attenuated decay score = score * decay :=
  if_pos h

omit [IsStrictOrderedRing K] in
theorem attenuated_of_neg {decay score : K} (h : score < 0) :
    attenuated decay score =
      if 0 < decay then score / decay else score * 2 := by
  unfold attenuated
  rw [if_neg (not_lt_of_ge (le_of_lt h)), if_pos h]

omit [IsStrictOrderedRing K] in
theorem attenuated_zero (decay : K) : attenuated decay 0 = decay - 1 := by
  unfold attenuated
  rw [if_neg (lt_irrefl 0), if_neg (lt_irrefl 0)]

theorem attenuated_one (score : K) : attenuated 1 score = score := by
  rcases lt_trichotomy score 0 with hneg | hzero | hpos
  · rw [attenuated_of_neg hneg, if_pos one_pos, div_one]
  · rw [hzero, attenuated_zero, sub_self]
  · rw [attenuated_of_pos hpos, mul_one]

/-- A smaller decay lowers a score, unless it is zero and the other one is so
small that it divides further. -/
theorem attenuated_le_iff {low high : K} (hlow : 0 ≤ low) (hlt : low < high)
    (score : K) :
    attenuated low score ≤ attenuated high score <->
      ¬ (score < 0 ∧ low = 0 ∧ high < 1 / 2) := by
  have hhigh : 0 < high := lt_of_le_of_lt hlow hlt
  rcases lt_trichotomy score 0 with hneg | hzero | hpos
  · rw [attenuated_of_neg hneg, attenuated_of_neg hneg, if_pos hhigh]
    rcases eq_or_lt_of_le hlow with heq | hlowPos
    · rw [← heq, if_neg (lt_irrefl 0), le_div_iff₀ hhigh]
      constructor
      · rintro hle ⟨_, _, hhalf⟩
        have hbad : score < score * 2 * high := by nlinarith
        exact absurd hle (not_le_of_gt hbad)
      · intro hnot
        have hhalf : 1 / 2 ≤ high := by
          by_contra hbad
          exact hnot ⟨hneg, rfl, not_le.mp hbad⟩
        nlinarith
    · rw [if_pos hlowPos, div_le_div_iff₀ hlowPos hhigh]
      constructor
      · rintro _ ⟨_, hbad, _⟩
        exact ne_of_gt hlowPos hbad
      · intro _
        exact mul_le_mul_of_nonpos_left (le_of_lt hlt) (le_of_lt hneg)
  · rw [hzero, attenuated_zero, attenuated_zero]
    constructor
    · rintro _ ⟨hbad, _⟩
      exact lt_irrefl 0 hbad
    · intro _
      exact sub_le_sub_right (le_of_lt hlt) 1
  · rw [attenuated_of_pos hpos, attenuated_of_pos hpos]
    constructor
    · rintro _ ⟨hbad, _⟩
      exact lt_asymm hbad hpos
    · intro _
      exact mul_le_mul_of_nonneg_left (le_of_lt hlt) (le_of_lt hpos)

theorem attenuated_lt {low high : K} (hlow : 0 < low) (hlt : low < high)
    (score : K) : attenuated low score < attenuated high score := by
  have hhigh : 0 < high := lt_trans hlow hlt
  rcases lt_trichotomy score 0 with hneg | hzero | hpos
  · rw [attenuated_of_neg hneg, attenuated_of_neg hneg, if_pos hlow,
      if_pos hhigh, div_lt_div_iff₀ hlow hhigh]
    exact mul_lt_mul_of_neg_left hlt hneg
  · rw [hzero, attenuated_zero, attenuated_zero]
    exact sub_lt_sub_right hlt 1
  · rw [attenuated_of_pos hpos, attenuated_of_pos hpos]
    exact mul_lt_mul_of_pos_left hlt hpos

/-- A negative score that decay leaves above what becomes of zero. -/
def AboveDecayedZero (decay score : K) : Prop :=
  if 0 < decay then (decay - 1) * decay < score else decay - 1 < score * 2

theorem aboveDecayedZero_iff {decay score : K} (h : score < 0) :
    AboveDecayedZero decay score <->
      decay - 1 < attenuated decay score := by
  unfold AboveDecayedZero
  rw [attenuated_of_neg h]
  split
  · rename_i hpos
    exact (lt_div_iff₀ hpos).symm
  · exact Iff.rfl

/-- Decay keeps the order of scores, unless the higher one is zero and the
lower one stays above what becomes of zero. -/
theorem attenuated_score_le_iff {decay low high : K} (hdecay : 0 ≤ decay)
    (hone : decay ≤ 1) (hlt : low < high) :
    attenuated decay low ≤ attenuated decay high <->
      ¬ (low < 0 ∧ high = 0 ∧ AboveDecayedZero decay low) := by
  rcases lt_trichotomy high 0 with hneg | hzero | hpos
  · have hlow : low < 0 := lt_trans hlt hneg
    have hle : attenuated decay low ≤ attenuated decay high := by
      rw [attenuated_of_neg hlow, attenuated_of_neg hneg]
      split
      · rename_i hdecayPos
        exact div_le_div_of_nonneg_right (le_of_lt hlt) hdecay
      · exact mul_le_mul_of_nonneg_right (le_of_lt hlt) zero_le_two
    constructor
    · rintro _ ⟨_, hbad, _⟩
      exact ne_of_lt hneg hbad
    · exact fun _ => hle
  · rw [hzero] at hlt ⊢
    rw [attenuated_zero, aboveDecayedZero_iff hlt]
    constructor
    · rintro hle ⟨_, _, hbad⟩
      exact absurd hle (not_le_of_gt hbad)
    · intro hnot
      by_contra hbad
      exact hnot ⟨hlt, rfl, not_le.mp hbad⟩
  · have hle : attenuated decay low ≤ attenuated decay high := by
      rw [attenuated_of_pos hpos]
      have hhigh : 0 ≤ high * decay := mul_nonneg (le_of_lt hpos) hdecay
      rcases lt_trichotomy low 0 with hlow | hlow | hlow
      · rw [attenuated_of_neg hlow]
        split
        · rename_i hdecayPos
          exact le_trans (le_of_lt (div_neg_of_neg_of_pos hlow hdecayPos)) hhigh
        · exact le_trans (le_of_lt (mul_neg_of_neg_of_pos hlow two_pos)) hhigh
      · rw [hlow, attenuated_zero]
        exact le_trans (sub_nonpos_of_le hone) hhigh
      · rw [attenuated_of_pos hlow]
        exact mul_le_mul_of_nonneg_right (le_of_lt hlt) hdecay
    constructor
    · rintro _ ⟨_, hbad, _⟩
      exact ne_of_gt hpos hbad
    · exact fun _ => hle

/-!
## The boost
-/

omit [IsStrictOrderedRing K] in
theorem boosted_of_pos {boost score : K} (h : 0 < score) :
    boosted boost score = score * (1 + boost) :=
  if_pos h

omit [IsStrictOrderedRing K] in
theorem boosted_of_neg {boost score : K} (h : score < 0) :
    boosted boost score = score / (1 + boost) := by
  unfold boosted
  rw [if_neg (not_lt_of_ge (le_of_lt h)), if_pos h]

omit [IsStrictOrderedRing K] in
theorem boosted_zero (boost : K) : boosted boost 0 = boost := by
  unfold boosted
  rw [if_neg (lt_irrefl 0), if_neg (lt_irrefl 0)]

theorem boosted_neg_iff {boost score : K} (hboost : 0 < boost) :
    boosted boost score < 0 <-> score < 0 := by
  have hfactor : 0 < 1 + boost := add_pos one_pos hboost
  rcases lt_trichotomy score 0 with hneg | hzero | hpos
  · rw [boosted_of_neg hneg]
    exact ⟨fun _ => hneg, fun h => div_neg_of_neg_of_pos h hfactor⟩
  · rw [hzero, boosted_zero]
    exact ⟨fun h => absurd h (lt_asymm hboost), fun h => absurd h (lt_irrefl 0)⟩
  · rw [boosted_of_pos hpos]
    exact ⟨fun h => absurd h (lt_asymm (mul_pos hpos hfactor)),
      fun h => absurd h (lt_asymm hpos)⟩

theorem boosted_ne_zero {boost score : K} (hboost : 0 < boost) :
    boosted boost score ≠ 0 := by
  have hfactor : 0 < 1 + boost := add_pos one_pos hboost
  rcases lt_trichotomy score 0 with hneg | hzero | hpos
  · exact ne_of_lt ((boosted_neg_iff hboost).mpr hneg)
  · rw [hzero, boosted_zero]
    exact ne_of_gt hboost
  · rw [boosted_of_pos hpos]
    exact ne_of_gt (mul_pos hpos hfactor)

/-- The boost keeps the order of scores, unless the lower one is zero and the
higher one does not reach the boost. -/
theorem boosted_le_iff {boost low high : K} (hboost : 0 < boost)
    (hlt : low < high) :
    boosted boost low ≤ boosted boost high <->
      ¬ (low = 0 ∧ high * (1 + boost) < boost) := by
  have hfactor : 0 < 1 + boost := add_pos one_pos hboost
  rcases lt_trichotomy low 0 with hneg | hzero | hpos
  · have hle : boosted boost low ≤ boosted boost high := by
      by_cases hhigh : high < 0
      · rw [boosted_of_neg hneg, boosted_of_neg hhigh]
        exact div_le_div_of_nonneg_right (le_of_lt hlt) (le_of_lt hfactor)
      · have hnonneg : 0 ≤ boosted boost high :=
          not_lt.mp fun h => hhigh ((boosted_neg_iff hboost).mp h)
        exact le_trans (le_of_lt ((boosted_neg_iff hboost).mpr hneg)) hnonneg
    exact ⟨fun _ hbad => ne_of_lt hneg hbad.left, fun _ => hle⟩
  · rw [hzero] at hlt ⊢
    rw [boosted_zero, boosted_of_pos hlt]
    constructor
    · rintro hle ⟨_, hbad⟩
      exact absurd hle (not_le_of_gt hbad)
    · intro hnot
      by_contra hbad
      exact hnot ⟨rfl, not_le.mp hbad⟩
  · rw [boosted_of_pos hpos, boosted_of_pos (lt_trans hpos hlt)]
    exact ⟨fun _ hbad => ne_of_gt hpos hbad.left,
      fun _ => mul_le_mul_of_nonneg_right (le_of_lt hlt) (le_of_lt hfactor)⟩

theorem le_boosted {boost : K} (hboost : 0 < boost) (score : K) :
    score ≤ boosted boost score := by
  have hfactor : 0 < 1 + boost := add_pos one_pos hboost
  have hone : 1 ≤ 1 + boost := le_add_of_nonneg_right (le_of_lt hboost)
  rcases lt_trichotomy score 0 with hneg | hzero | hpos
  · rw [boosted_of_neg hneg, le_div_iff₀ hfactor]
    exact mul_le_of_one_le_right (le_of_lt hneg) hone
  · rw [hzero, boosted_zero]
    exact le_of_lt hboost
  · rw [boosted_of_pos hpos]
    exact le_mul_of_one_le_right (le_of_lt hpos) hone

/-!
## The decay that is applied
-/

section Adjusted

variable (config : Config K)

/-- What the decay of a candidate of this class never falls below. -/
def floorOf (pageType : Option String) : K :=
  if isCorrection config pageType then
    max 0 (min 1 config.correction_decay_floor)
  else 0

omit [IsStrictOrderedRing K] in
theorem floorOf_nonneg (pageType : Option String) :
    0 ≤ floorOf config pageType := by
  unfold floorOf
  split
  · exact le_max_left _ _
  · exact le_refl 0

theorem floorOf_le_one (pageType : Option String) :
    floorOf config pageType ≤ 1 := by
  unfold floorOf
  split
  · exact max_le zero_le_one (min_le_left _ _)
  · exact zero_le_one

theorem decayApplied_eq (pageType : Option String) (decay : K) :
    decayApplied config pageType (some decay) =
      min 1 (max (floorOf config pageType) decay) := by
  unfold decayApplied floorOf
  dsimp only [Option.getD_some]
  split
  · have hfloor : max 0 (min 1 config.correction_decay_floor) ≤ 1 :=
      max_le zero_le_one (min_le_left _ _)
    rw [max_comm decay, min_max_distrib_left, min_max_distrib_left,
      ← max_assoc, min_eq_right hfloor]
  · rw [min_max_distrib_left, min_eq_right zero_le_one]

omit [IsStrictOrderedRing K] in

/-- The decays are told apart: the floor is below the second, and the first is
below what counts as undecayed. -/
def Lower (pageType : Option String) (low high : K) : Prop :=
  low < high ∧ low < 1 ∧ floorOf config pageType < 1 ∧
    floorOf config pageType < high

theorem decayApplied_lt_iff {pageType : Option String} {low high : K} :
    decayApplied config pageType (some low) <
        decayApplied config pageType (some high) <->
      Lower config pageType low high := by
  rw [decayApplied_eq, decayApplied_eq]
  unfold Lower
  constructor
  · intro hlt
    rcases lt_min_iff.mp hlt with ⟨hone, hhigh⟩
    have hbelow : max (floorOf config pageType) low < 1 := by
      rcases min_lt_iff.mp hone with hbad | hbelow
      · exact absurd hbad (lt_irrefl 1)
      · exact hbelow
    rw [min_eq_right (le_of_lt hbelow)] at hhigh
    rcases max_lt_iff.mp hbelow with ⟨hfloor, hlow⟩
    rcases max_lt_iff.mp hhigh with ⟨hfloorHigh, hlowHigh⟩
    have hreach : floorOf config pageType < high := by
      rcases lt_max_iff.mp hfloorHigh with hbad | hreach
      · exact absurd hbad (lt_irrefl _)
      · exact hreach
    rw [max_eq_right (le_of_lt hreach)] at hlowHigh
    exact ⟨hlowHigh, hlow, hfloor, hreach⟩
  · rintro ⟨hlowHigh, hlow, hfloor, hreach⟩
    rw [max_eq_right (le_of_lt hreach)]
    exact lt_min (min_lt_of_right_lt (max_lt hfloor hlow))
      (min_lt_of_right_lt (max_lt hreach hlowHigh))

/-!
## What becomes of a candidate
-/

/-- The score after the boost of the candidate's class. -/
def liftedScore (pageType : Option String) (score : K) : K :=
  if isCorrection config pageType = true ∧
      0 < config.correction_salience_boost then
    boosted config.correction_salience_boost score
  else score

def boostOf (pageType : Option String) : K :=
  if isCorrection config pageType then config.correction_salience_boost else 0

/-- The decay of a row, as its search reads it and the scores apply it. -/
def appliedFrom (path : ReadPath) (c : Candidate K) : K :=
  decayApplied config c.page_type (some (readDecay path c.decay_score))

/-- A candidate after the pass that boosts. -/
def lifted (c : Candidate K) : Candidate K :=
  if config.correction_salience_boost ≤ 0 then c else boostCorrection config c

/-- What the two passes make of a row. -/
def adjustedOne (path : ReadPath) (c : Candidate K) : Candidate K :=
  attenuate config
    (lifted config ((c.readFrom path).scored config).keepRaw)

omit [IsStrictOrderedRing K] in
theorem applyCorrectionRerankBoost_eq (candidates : List (Candidate K)) :
    applyCorrectionRerankBoost config candidates =
      candidates.map (lifted config) := by
  unfold applyCorrectionRerankBoost lifted
  split
  · rw [List.map_id']
  · rfl

omit [IsStrictOrderedRing K] in
theorem adjustedFrom_eq (path : ReadPath) (rows : List (Candidate K)) :
    adjustedFrom config path rows = rows.map (adjustedOne config path) := by
  unfold adjustedFrom applyRerankScoreAdjustments applyDecayRerankAttenuation
  rw [applyCorrectionRerankBoost_eq, List.map_map, List.map_map, List.map_map]
  rfl

theorem attenuate_rerankScore (c : Candidate K) :
    (attenuate config c).rerankScore =
      attenuated (decayApplied config c.page_type c.decay_score)
        c.rerankScore := by
  unfold attenuate
  dsimp only
  split
  · rename_i hone
    rw [hone, attenuated_one]
    rfl
  · rfl

omit [IsStrictOrderedRing K] in
theorem lifted_rerankScore (c : Candidate K) :
    (lifted config c).rerankScore =
      liftedScore config c.page_type c.rerankScore := by
  unfold lifted liftedScore boostCorrection
  by_cases hboost : config.correction_salience_boost ≤ 0
  · rw [if_pos hboost, if_neg fun h => not_lt_of_ge hboost h.right]
  · rw [if_neg hboost]
    cases hcorrection : isCorrection config c.page_type with
    | false => rw [if_neg Bool.false_ne_true, if_neg fun h => nomatch h.left]
    | true =>
        rw [if_pos rfl, if_pos ⟨rfl, not_le.mp hboost⟩]
        rfl

omit [IsStrictOrderedRing K] in
theorem lifted_toMergedDoc (c : Candidate K) :
    (lifted config c).toMergedDoc = c.toMergedDoc ∧
      (lifted config c).final_score = c.final_score := by
  unfold lifted boostCorrection
  split
  · exact ⟨rfl, rfl⟩
  · split
    · exact ⟨rfl, rfl⟩
    · exact ⟨rfl, rfl⟩

theorem adjustedOne_rerankScore (path : ReadPath) (c : Candidate K) :
    (adjustedOne config path c).rerankScore =
      attenuated (appliedFrom config path c)
        (liftedScore config c.page_type c.rerankScore) := by
  unfold adjustedOne
  rw [attenuate_rerankScore, lifted_rerankScore,
    (lifted_toMergedDoc config _).left]
  rfl

omit [IsStrictOrderedRing K] in
theorem adjustedOne_final_score (path : ReadPath) (c : Candidate K) :
    (adjustedOne config path c).final_score =
      c.rrf_score * appliedFrom config path c *
        (1 + boostOf config c.page_type) := by
  have hkeep : (attenuate config
      (lifted config ((c.readFrom path).scored config).keepRaw)).final_score =
        ((c.readFrom path).scored config).final_score := by
    unfold attenuate
    dsimp only
    rw [apply_ite (fun d : Candidate K => d.final_score)]
    rw [ite_self]
    exact (lifted_toMergedDoc config _).right
  exact hkeep

/-!
## The law
-/

/-- How the adjusted scores of two rows stand to each other, where the first
row must not come out ahead of the second. -/
structure InOrder (r s adjusted other : Candidate K) : Prop where
  decay : forall low high, r.decay_score = some low ->
    s.decay_score = some high -> low ≤ high ->
      r = { s with decay_score := some low } ->
        adjusted.final_score ≤ other.final_score ∧
          adjusted.rerankScore ≤ other.rerankScore
  rawFinal : r.decay_score = s.decay_score -> r.page_type = s.page_type ->
    r.rrf_score ≤ s.rrf_score -> adjusted.final_score ≤ other.final_score
  rawRerank : r.decay_score = s.decay_score -> r.page_type = s.page_type ->
    r.rerankScore ≤ s.rerankScore ->
      adjusted.rerankScore ≤ other.rerankScore
  correction : isCorrection config s.page_type = true ->
    isCorrection config r.page_type = false ->
      r = { s with page_type := r.page_type } ->
        adjusted.final_score ≤ other.final_score ∧
          adjusted.rerankScore ≤ other.rerankScore

/-- The decay of a row as its search reads it, raised to the floor. -/
def raisedDecay (path : ReadPath) (c : Candidate K) : K :=
  max (floorOf config c.page_type) (readDecay path c.decay_score)

/-- Where the seams between the formulas are not crossed. -/
structure Clear (path : ReadPath) (r s : Candidate K) : Prop where
  decay : forall low high, r.decay_score = some low ->
    s.decay_score = some high -> low < high ->
      r = { s with decay_score := some low } ->
        -- The smaller decay is not read as the larger one.
        ¬ Lower config s.page_type (readDecay path (some high))
          (readDecay path (some low)) ∧
        (s.rrf_score * (1 + boostOf config s.page_type) < 0 ->
          ¬ Lower config s.page_type (readDecay path (some low))
            (readDecay path (some high))) ∧
        -- No negative score is divided by less than a half.
        ¬ (s.rerankScore < 0 ∧ raisedDecay config path r ≤ 0 ∧
          0 < readDecay path (some high) ∧
            readDecay path (some high) < 1 / 2)
  rawFinal : r.decay_score = s.decay_score -> r.page_type = s.page_type ->
    r.rrf_score < s.rrf_score -> 1 + boostOf config s.page_type < 0 ->
      raisedDecay config path s ≤ 0
  -- A score of zero is not moved past small scores of either sign.
  rawDecayed : r.decay_score = s.decay_score -> r.page_type = s.page_type ->
    ¬ (isCorrection config s.page_type = true ∧
      0 < config.correction_salience_boost) ->
      ¬ (r.rerankScore < 0 ∧ s.rerankScore = 0 ∧
        raisedDecay config path s < 1 ∧
          AboveDecayedZero (raisedDecay config path s) r.rerankScore)
  rawBoosted : r.decay_score = s.decay_score -> r.page_type = s.page_type ->
    isCorrection config s.page_type = true ->
      0 < config.correction_salience_boost ->
        ¬ (r.rerankScore = 0 ∧ 0 < s.rerankScore ∧
          s.rerankScore * (1 + config.correction_salience_boost) <
            config.correction_salience_boost ∧
              0 < raisedDecay config path s)
  correction : isCorrection config s.page_type = true ->
    isCorrection config r.page_type = false ->
      r = { s with page_type := r.page_type } ->
        (0 < s.rrf_score -> 0 ≤ config.correction_salience_boost ∨
          max 0 (readDecay path s.decay_score) ≤
            floorOf config s.page_type *
              (1 + config.correction_salience_boost)) ∧
        (s.rrf_score < 0 ->
          floorOf config s.page_type *
              (1 + config.correction_salience_boost) ≤
            max 0 (readDecay path s.decay_score) ∧
          (config.correction_salience_boost ≤ 0 ∨
            readDecay path s.decay_score ≤ 0)) ∧
        ¬ (s.rerankScore < 0 ∧ readDecay path s.decay_score ≤ 0 ∧
          0 < floorOf config s.page_type ∧
            (1 + max 0 config.correction_salience_boost) *
              floorOf config s.page_type < 1 / 2)

/-!
## Decay
-/

omit [IsStrictOrderedRing K] in
theorem appliedFrom_nonneg (path : ReadPath) (c : Candidate K) :
    0 ≤ appliedFrom config path c :=
  le_max_left _ _

theorem appliedFrom_eq (path : ReadPath) (c : Candidate K) :
    appliedFrom config path c = min 1 (raisedDecay config path c) :=
  decayApplied_eq config _ _

theorem appliedFrom_le_one (path : ReadPath) (c : Candidate K) :
    appliedFrom config path c ≤ 1 := by
  rw [appliedFrom_eq]
  exact min_le_left _ _

theorem appliedFrom_pos_iff {path : ReadPath} {c : Candidate K} :
    0 < appliedFrom config path c <-> 0 < raisedDecay config path c := by
  rw [appliedFrom_eq, lt_min_iff]
  exact ⟨fun h => h.right, fun h => ⟨one_pos, h⟩⟩

theorem liftedScore_neg_iff {pageType : Option String} {score : K} :
    liftedScore config pageType score < 0 <-> score < 0 := by
  unfold liftedScore
  split
  · rename_i h
    exact boosted_neg_iff h.right
  · exact Iff.rfl

/-- Only a decay of zero is read as something larger than a larger decay. -/
theorem readDecay_of_lt {path : ReadPath} {low high : K} (hlt : low < high)
    (h : readDecay path (some high) < readDecay path (some low)) :
    low = 0 ∧ 0 < readDecay path (some high) := by
  have horOne : forall stored : K, stored ≠ 0 ->
      orOne (some stored) = stored := fun stored hne => if_neg hne
  have hread : forall stored : K, stored ≠ 0 ->
      readDecay path (some stored) = stored := by
    intro stored hne
    cases path with
    | fts => exact horOne stored hne
    | semantic => exact horOne stored hne
    | trie => rfl
  have hzeroRead : readDecay path (some (0 : K)) = 1 ∨
      readDecay path (some (0 : K)) = 0 := by
    cases path with
    | fts => exact Or.inl (if_pos rfl)
    | semantic => exact Or.inl (if_pos rfl)
    | trie => exact Or.inr rfl
  have hlow : low = 0 := by
    by_contra hne
    rw [hread low hne] at h
    by_cases hhigh : high = 0
    · rw [hhigh] at h hlt
      rcases hzeroRead with hone | hzero
      · rw [hone] at h
        exact lt_asymm (lt_trans h hlt) one_pos
      · rw [hzero] at h
        exact lt_asymm h hlt
    · rw [hread high hhigh] at h
      exact lt_asymm h hlt
  rw [hlow] at hlt
  rw [hread high (ne_of_gt hlt)]
  exact ⟨hlow, hlt⟩

theorem mul_le_mul_left_iff {factor low high : K} :
    factor * low ≤ factor * high <->
      (0 < factor -> ¬ high < low) ∧ (factor < 0 -> ¬ low < high) := by
  rcases lt_trichotomy factor 0 with hneg | hzero | hpos
  · rw [mul_le_mul_left_of_neg hneg]
    exact ⟨fun h => ⟨fun hbad => absurd hbad (lt_asymm hneg),
      fun _ => not_lt_of_ge h⟩, fun h => not_lt.mp (h.right hneg)⟩
  · rw [hzero, zero_mul, zero_mul]
    exact ⟨fun _ => ⟨fun hbad => absurd hbad (lt_irrefl 0),
      fun hbad => absurd hbad (lt_irrefl 0)⟩, fun _ => le_refl 0⟩
  · rw [mul_le_mul_iff_of_pos_left hpos]
    exact ⟨fun h => ⟨fun _ => not_lt_of_ge h,
      fun hbad => absurd hbad (lt_asymm hpos)⟩,
      fun h => not_lt.mp (h.left hpos)⟩

section Pair

variable {config} {path : ReadPath} {r s : Candidate K}

theorem decay_final_iff {low high : K} (hlow : r.decay_score = some low)
    (hhigh : s.decay_score = some high)
    (hsame : r = { s with decay_score := some low }) :
    (adjustedOne config path r).final_score ≤
        (adjustedOne config path s).final_score <->
      (0 < s.rrf_score * (1 + boostOf config s.page_type) ->
        ¬ Lower config s.page_type (readDecay path (some high))
          (readDecay path (some low))) ∧
      (s.rrf_score * (1 + boostOf config s.page_type) < 0 ->
        ¬ Lower config s.page_type (readDecay path (some low))
          (readDecay path (some high))) := by
  have hrrf : r.rrf_score = s.rrf_score := by
    rw [hsame]
  have htype : r.page_type = s.page_type := by
    rw [hsame]
  have hfactor : forall decay : K,
      s.rrf_score * decay * (1 + boostOf config s.page_type) =
        s.rrf_score * (1 + boostOf config s.page_type) * decay :=
    fun decay => mul_right_comm _ _ _
  rw [adjustedOne_final_score, adjustedOne_final_score, hrrf, htype,
    hfactor (appliedFrom config path r), hfactor (appliedFrom config path s),
    mul_le_mul_left_iff]
  unfold appliedFrom
  rw [htype, hlow, hhigh, decayApplied_lt_iff, decayApplied_lt_iff]

/-- Decays at zero and just above it, of two rows of one class. -/
theorem at_zero_iff (htype : r.page_type = s.page_type)
    (hlt : appliedFrom config path r < appliedFrom config path s) :
    raisedDecay config path r ≤ 0 ∧ 0 < readDecay path s.decay_score ∧
        readDecay path s.decay_score < 1 / 2 <->
      appliedFrom config path r = 0 ∧ appliedFrom config path s < 1 / 2 := by
  have hfloor : floorOf config s.page_type ≤ raisedDecay config path r := by
    rw [← htype]
    exact le_max_left _ _
  constructor
  · rintro ⟨hraised, hpos, hhalf⟩
    constructor
    · apply le_antisymm _ (appliedFrom_nonneg config path r)
      exact not_lt.mp fun h =>
        not_lt_of_ge hraised ((appliedFrom_pos_iff config).mp h)
    · rw [appliedFrom_eq]
      apply min_lt_of_right_lt
      exact max_lt (lt_of_le_of_lt (le_trans hfloor hraised)
        (lt_trans hpos hhalf)) hhalf
  · rintro ⟨hzero, hhalf⟩
    have hraised : raisedDecay config path r ≤ 0 := by
      apply not_lt.mp
      intro h
      exact ne_of_gt ((appliedFrom_pos_iff config).mpr h) hzero
    have hpos : 0 < readDecay path s.decay_score := by
      rw [hzero] at hlt
      rcases lt_max_iff.mp ((appliedFrom_pos_iff config).mp hlt) with
        hbad | hpos
      · exact absurd hbad (not_lt_of_ge (le_trans hfloor hraised))
      · exact hpos
    constructor
    · exact hraised
    · constructor
      · exact hpos
      · rw [appliedFrom_eq] at hhalf
        rcases min_lt_iff.mp hhalf with hbad | hraisedHalf
        · exact absurd hbad (not_lt_of_ge (le_of_lt one_half_lt_one))
        · exact lt_of_le_of_lt (le_max_right _ _) hraisedHalf

/-- A decay just above zero is told apart from one at zero. -/
theorem applied_lt_of_at_zero (hraised : raisedDecay config path r ≤ 0)
    (hpos : 0 < readDecay path s.decay_score) :
    appliedFrom config path r < appliedFrom config path s := by
  have hr : appliedFrom config path r ≤ 0 := not_lt.mp fun h =>
    not_lt_of_ge hraised ((appliedFrom_pos_iff config).mp h)
  exact lt_of_le_of_lt hr
    ((appliedFrom_pos_iff config).mpr (lt_max_of_lt_right hpos))

theorem decay_rerank_iff {low high : K} (hlow : r.decay_score = some low)
    (hhigh : s.decay_score = some high) (hlt : low < high)
    (hsame : r = { s with decay_score := some low }) :
    (adjustedOne config path r).rerankScore ≤
        (adjustedOne config path s).rerankScore <->
      ¬ Lower config s.page_type (readDecay path (some high))
          (readDecay path (some low)) ∧
        ¬ (s.rerankScore < 0 ∧ raisedDecay config path r ≤ 0 ∧
          0 < readDecay path (some high) ∧
            readDecay path (some high) < 1 / 2) := by
  have hscore : r.rerankScore = s.rerankScore := by
    rw [hsame]
    rfl
  have htype : r.page_type = s.page_type := by
    rw [hsame]
  have hback : appliedFrom config path s < appliedFrom config path r <->
      Lower config s.page_type (readDecay path (some high))
        (readDecay path (some low)) := by
    unfold appliedFrom
    rw [htype, hlow, hhigh]
    exact decayApplied_lt_iff config
  rw [adjustedOne_rerankScore, adjustedOne_rerankScore, hscore, htype,
    ← hback, ← hhigh]
  rcases lt_trichotomy (appliedFrom config path r)
    (appliedFrom config path s) with hup | heq | hdown
  · rw [attenuated_le_iff (appliedFrom_nonneg config path r) hup,
      liftedScore_neg_iff, at_zero_iff htype hup]
    exact ⟨fun h => ⟨lt_asymm hup, h⟩, fun h => h.right⟩
  · rw [heq]
    constructor
    · intro _
      constructor
      · exact lt_irrefl _
      · rintro ⟨_, hraised, hpos, _⟩
        exact ne_of_lt (applied_lt_of_at_zero hraised hpos) heq
    · exact fun _ => le_refl _
  · have hread := hback.mp hdown
    have hpos : 0 < appliedFrom config path s := by
      apply (appliedFrom_pos_iff config).mpr
      apply lt_max_of_lt_right
      rw [hhigh]
      exact (readDecay_of_lt hlt hread.left).right
    constructor
    · intro hle
      exact absurd hle (not_le_of_gt (attenuated_lt hpos hdown _))
    · intro h
      exact absurd hdown h.left

/-!
## The raw score
-/

theorem raw_final_iff (hdecay : r.decay_score = s.decay_score)
    (htype : r.page_type = s.page_type) (hlt : r.rrf_score < s.rrf_score) :
    (adjustedOne config path r).final_score ≤
        (adjustedOne config path s).final_score <->
      (1 + boostOf config s.page_type < 0 ->
        raisedDecay config path s ≤ 0) := by
  have happlied : appliedFrom config path r = appliedFrom config path s := by
    unfold appliedFrom
    rw [hdecay, htype]
  have hnonneg := appliedFrom_nonneg config path s
  rw [adjustedOne_final_score, adjustedOne_final_score, happlied, htype,
    mul_assoc, mul_assoc, mul_comm r.rrf_score, mul_comm s.rrf_score,
    mul_le_mul_left_iff]
  constructor
  · rintro ⟨_, hneg⟩ hfactor
    apply not_lt.mp
    intro hraised
    exact hneg (mul_neg_of_pos_of_neg
      ((appliedFrom_pos_iff config).mpr hraised) hfactor) hlt
  · intro h
    constructor
    · exact fun _ => lt_asymm hlt
    · intro hneg
      have hfactor : 1 + boostOf config s.page_type < 0 := by
        by_contra hbad
        exact not_le_of_gt hneg (mul_nonneg hnonneg (not_lt.mp hbad))
      have hpos : 0 < appliedFrom config path s := by
        rcases eq_or_lt_of_le hnonneg with hzero | hpos
        · rw [← hzero, zero_mul] at hneg
          exact absurd hneg (lt_irrefl 0)
        · exact hpos
      exact absurd ((appliedFrom_pos_iff config).mp hpos)
        (not_lt_of_ge (h hfactor))

omit [IsStrictOrderedRing K] in
theorem appliedFrom_eq_of_raw (hdecay : r.decay_score = s.decay_score)
    (htype : r.page_type = s.page_type) :
    appliedFrom config path r = appliedFrom config path s := by
  unfold appliedFrom
  rw [hdecay, htype]

/-- Where the class is not boosted, zero is the only score that decay moves
past others. -/
theorem raw_decayed_iff (hdecay : r.decay_score = s.decay_score)
    (htype : r.page_type = s.page_type)
    (hplain : ¬ (isCorrection config s.page_type = true ∧
      0 < config.correction_salience_boost))
    (hlt : r.rerankScore < s.rerankScore) :
    (adjustedOne config path r).rerankScore ≤
        (adjustedOne config path s).rerankScore <->
      ¬ (r.rerankScore < 0 ∧ s.rerankScore = 0 ∧
        raisedDecay config path s < 1 ∧
          AboveDecayedZero (raisedDecay config path s) r.rerankScore) := by
  have hlifted : forall score : K,
      liftedScore config s.page_type score = score :=
    fun score => if_neg hplain
  rw [adjustedOne_rerankScore, adjustedOne_rerankScore,
    appliedFrom_eq_of_raw hdecay htype, htype, hlifted, hlifted,
    attenuated_score_le_iff (appliedFrom_nonneg config path s)
      (appliedFrom_le_one config path s) hlt]
  apply not_congr
  constructor
  · rintro ⟨hneg, hzero, habove⟩
    have hbelow : raisedDecay config path s < 1 := by
      by_contra hbad
      rw [appliedFrom_eq, min_eq_left (not_lt.mp hbad)] at habove
      unfold AboveDecayedZero at habove
      rw [if_pos one_pos, sub_self, zero_mul] at habove
      exact lt_asymm habove hneg
    rw [appliedFrom_eq, min_eq_right (le_of_lt hbelow)] at habove
    exact ⟨hneg, hzero, hbelow, habove⟩
  · rintro ⟨hneg, hzero, hbelow, habove⟩
    rw [appliedFrom_eq, min_eq_right (le_of_lt hbelow)]
    exact ⟨hneg, hzero, habove⟩

/-- Where the class is boosted, zero is boosted past small scores. -/
theorem raw_boosted_iff (hdecay : r.decay_score = s.decay_score)
    (htype : r.page_type = s.page_type)
    (hcorrection : isCorrection config s.page_type = true)
    (hboost : 0 < config.correction_salience_boost)
    (hlt : r.rerankScore < s.rerankScore) :
    (adjustedOne config path r).rerankScore ≤
        (adjustedOne config path s).rerankScore <->
      ¬ (r.rerankScore = 0 ∧ 0 < s.rerankScore ∧
        s.rerankScore * (1 + config.correction_salience_boost) <
          config.correction_salience_boost ∧
            0 < raisedDecay config path s) := by
  have hlifted : forall score : K, liftedScore config s.page_type score =
      boosted config.correction_salience_boost score :=
    fun score => if_pos ⟨hcorrection, hboost⟩
  have hfactor : 0 < 1 + config.correction_salience_boost :=
    add_pos one_pos hboost
  rw [adjustedOne_rerankScore, adjustedOne_rerankScore,
    appliedFrom_eq_of_raw hdecay htype, htype, hlifted, hlifted]
  by_cases hleap : r.rerankScore = 0 ∧
      s.rerankScore * (1 + config.correction_salience_boost) <
        config.correction_salience_boost
  · rcases hleap with ⟨hzero, hsmall⟩
    rw [hzero] at hlt ⊢
    rw [boosted_zero, boosted_of_pos hlt, attenuated_of_pos hboost,
      attenuated_of_pos (mul_pos hlt hfactor)]
    constructor
    · rintro hle ⟨_, _, _, hraised⟩
      have hpos := (appliedFrom_pos_iff config).mpr hraised
      exact absurd hle
        (not_le_of_gt (mul_lt_mul_of_pos_right hsmall hpos))
    · intro hnot
      have hnone : appliedFrom config path s = 0 := by
        apply le_antisymm _ (appliedFrom_nonneg config path s)
        exact not_lt.mp fun hpos => hnot
          ⟨rfl, hlt, hsmall, (appliedFrom_pos_iff config).mp hpos⟩
      rw [hnone, mul_zero, mul_zero]
  · have hle := (boosted_le_iff hboost hlt).mpr hleap
    constructor
    · rintro _ ⟨hzero, _, hsmall, _⟩
      exact hleap ⟨hzero, hsmall⟩
    · intro _
      rcases eq_or_lt_of_le hle with heq | hboosted
      · rw [heq]
      · exact (attenuated_score_le_iff (appliedFrom_nonneg config path s)
          (appliedFrom_le_one config path s) hboosted).mpr
            fun hbad => boosted_ne_zero hboost hbad.right.left

end Pair

/-!
## Corrections
-/

/-- A boosted decay that a floor holds up, against the decay itself. -/
theorem le_boosted_decay_iff {floor decay boost : K} (hfloor : 0 ≤ floor)
    (hone : floor ≤ 1) (hdecay : 0 ≤ decay) :
    min 1 decay ≤ max floor (min 1 decay) * (1 + boost) <->
      0 ≤ boost ∨ decay ≤ floor * (1 + boost) := by
  have happlied : 0 ≤ min 1 decay := le_min zero_le_one hdecay
  have hkept : 0 ≤ max floor (min 1 decay) := le_max_of_le_left hfloor
  constructor
  · intro hle
    by_cases hboost : 0 ≤ boost
    · exact Or.inl hboost
    · apply Or.inr
      have hneg := not_le.mp hboost
      have hshare : floor * (1 + boost) < 1 := by
        rcases eq_or_lt_of_le hfloor with hnone | hsome
        · rw [← hnone, zero_mul]
          exact one_pos
        · have hless : floor * boost < 0 := mul_neg_of_pos_of_neg hsome hneg
          rw [mul_add, mul_one]
          linarith
      rcases le_total floor (min 1 decay) with hbelow | habove
      · rw [max_eq_right hbelow] at hle
        have hzero : min 1 decay = 0 := by nlinarith
        have hdecayZero : decay = 0 := by
          rcases min_choice 1 decay with hbad | hsame
          · rw [hbad] at hzero
            exact absurd hzero one_ne_zero
          · rw [← hsame]
            exact hzero
        rw [hzero] at hbelow
        rw [hdecayZero, le_antisymm hbelow hfloor, zero_mul]
      · rw [max_eq_left habove] at hle
        rcases min_choice 1 decay with hbad | hsame
        · rw [hbad] at hle
          exact absurd hshare (not_lt_of_ge hle)
        · rw [hsame] at hle
          exact hle
  · rintro (hboost | hle)
    · have hkeeps : min 1 decay ≤ max floor (min 1 decay) := le_max_right _ _
      nlinarith
    · rcases le_or_gt 0 (1 + boost) with hfactor | hfactor
      · exact le_trans (min_le_right _ _) (le_trans hle
          (mul_le_mul_of_nonneg_right (le_max_left _ _) hfactor))
      · have hnone : floor = 0 := by nlinarith
        rw [hnone, zero_mul] at hle
        have hdecayZero : decay = 0 := le_antisymm hle hdecay
        rw [hnone, hdecayZero, min_eq_right zero_le_one, max_self, zero_mul]

theorem boosted_decay_le_iff {floor decay boost : K} (hfloor : 0 ≤ floor)
    (hone : floor ≤ 1) (hdecay : 0 ≤ decay) :
    max floor (min 1 decay) * (1 + boost) ≤ min 1 decay <->
      floor * (1 + boost) ≤ decay ∧ (boost ≤ 0 ∨ decay ≤ 0) := by
  have happlied : 0 ≤ min 1 decay := le_min zero_le_one hdecay
  have hkept : 0 ≤ max floor (min 1 decay) := le_max_of_le_left hfloor
  have hunder : min 1 decay ≤ decay := min_le_right _ _
  have hholds : floor ≤ max floor (min 1 decay) := le_max_left _ _
  have hkeeps : min 1 decay ≤ max floor (min 1 decay) := le_max_right _ _
  constructor
  · intro hle
    rcases le_or_gt boost 0 with hboost | hboost
    · refine ⟨?_, Or.inl hboost⟩
      rcases le_or_gt 0 (1 + boost) with hfactor | hfactor
      · exact le_trans (mul_le_mul_of_nonneg_right hholds hfactor)
          (le_trans hle hunder)
      · exact le_trans (mul_nonpos_of_nonneg_of_nonpos hfloor
          (le_of_lt hfactor)) hdecay
    · have hnone : max floor (min 1 decay) = 0 := by nlinarith
      rw [hnone] at hholds hkeeps
      have hfloorZero : floor = 0 := le_antisymm hholds hfloor
      have hdecayZero : decay ≤ 0 := by
        rcases min_choice 1 decay with hbad | hsame
        · rw [hbad] at hkeeps
          exact absurd hkeeps (not_le_of_gt one_pos)
        · rw [hsame] at hkeeps
          exact hkeeps
      rw [hfloorZero, zero_mul]
      exact ⟨hdecay, Or.inr hdecayZero⟩
  · rintro ⟨hle, hboost | hzero⟩
    · rcases le_total floor (min 1 decay) with hbelow | habove
      · rw [max_eq_right hbelow]
        nlinarith
      · rw [max_eq_left habove]
        apply le_min _ hle
        nlinarith
    · have hdecayZero : decay = 0 := le_antisymm hzero hdecay
      rw [hdecayZero] at hle ⊢
      rw [min_eq_right zero_le_one, max_eq_left hfloor]
      exact hle

section Pair

variable {config} {path : ReadPath} {r s : Candidate K}

omit [IsStrictOrderedRing K] in
theorem floorOf_plain (h : isCorrection config r.page_type = false) :
    floorOf config r.page_type = 0 :=
  if_neg (by rw [h]; exact Bool.false_ne_true)

omit [LinearOrder K] [IsStrictOrderedRing K] in
theorem boostOf_plain (h : isCorrection config r.page_type = false) :
    boostOf config r.page_type = 0 :=
  if_neg (by rw [h]; exact Bool.false_ne_true)

theorem applied_plain (hplain : isCorrection config r.page_type = false) :
    appliedFrom config path r =
      min 1 (max 0 (readDecay path r.decay_score)) := by
  rw [appliedFrom_eq]
  unfold raisedDecay
  rw [floorOf_plain hplain]

/-- The decay of a correction is that of another class, held up by the
floor. -/
theorem applied_correction (hdecay : r.decay_score = s.decay_score)
    (hplain : isCorrection config r.page_type = false) :
    appliedFrom config path s =
      max (floorOf config s.page_type) (appliedFrom config path r) := by
  rw [applied_plain hplain, appliedFrom_eq, hdecay]
  unfold raisedDecay
  rw [max_min_distrib_left, max_eq_right (floorOf_le_one config s.page_type),
    ← max_assoc, max_eq_left (floorOf_nonneg config s.page_type)]

theorem correction_final_iff (hdecay : r.decay_score = s.decay_score)
    (hrrf : r.rrf_score = s.rrf_score)
    (hcorrection : isCorrection config s.page_type = true)
    (hplain : isCorrection config r.page_type = false) :
    (adjustedOne config path r).final_score ≤
        (adjustedOne config path s).final_score <->
      (0 < s.rrf_score -> 0 ≤ config.correction_salience_boost ∨
        max 0 (readDecay path s.decay_score) ≤
          floorOf config s.page_type *
            (1 + config.correction_salience_boost)) ∧
      (s.rrf_score < 0 ->
        floorOf config s.page_type *
            (1 + config.correction_salience_boost) ≤
          max 0 (readDecay path s.decay_score) ∧
        (config.correction_salience_boost ≤ 0 ∨
          readDecay path s.decay_score ≤ 0)) := by
  have hboost : boostOf config s.page_type =
      config.correction_salience_boost := if_pos hcorrection
  have hfloor := floorOf_nonneg config s.page_type
  have hone := floorOf_le_one config s.page_type
  have hzero : max 0 (readDecay path s.decay_score) ≤ 0 <->
      readDecay path s.decay_score ≤ 0 :=
    ⟨fun h => le_trans (le_max_right _ _) h,
      fun h => max_le (le_refl 0) h⟩
  rw [adjustedOne_final_score, adjustedOne_final_score, hrrf, hboost,
    boostOf_plain hplain, add_zero, mul_one, mul_assoc, mul_le_mul_left_iff,
    not_lt, not_lt, applied_correction hdecay hplain, applied_plain hplain,
    hdecay, le_boosted_decay_iff hfloor hone (le_max_left _ _),
    boosted_decay_le_iff hfloor hone (le_max_left _ _), hzero]

omit [IsStrictOrderedRing K] in
/-- A negative score of a correction. -/
theorem liftedScore_of_neg {pageType : Option String} {score : K}
    (hcorrection : isCorrection config pageType = true) (hneg : score < 0) :
    liftedScore config pageType score =
      score / (1 + max 0 config.correction_salience_boost) := by
  unfold liftedScore
  split
  · rename_i h
    rw [boosted_of_neg hneg, max_eq_right (le_of_lt h.right)]
  · rename_i h
    have hoff : config.correction_salience_boost ≤ 0 :=
      not_lt.mp fun hbad => h ⟨hcorrection, hbad⟩
    rw [max_eq_left hoff, add_zero, div_one]

theorem le_liftedScore (pageType : Option String) (score : K) :
    score ≤ liftedScore config pageType score := by
  unfold liftedScore
  split
  · rename_i h
    exact le_boosted h.right score
  · exact le_refl score

/-- The lift of a correction is kept by the decay. -/
theorem attenuated_le_lifted (pageType : Option String) {decay : K}
    (hnonneg : 0 ≤ decay) (hone : decay ≤ 1) (score : K) :
    attenuated decay score ≤
      attenuated decay (liftedScore config pageType score) := by
  rcases eq_or_lt_of_le (@le_liftedScore K _ _ _ config pageType score)
    with heq | hlt
  · rw [← heq]
  · apply (attenuated_score_le_iff hnonneg hone hlt).mpr
    rintro ⟨_, hzero, _⟩
    unfold liftedScore at hzero hlt
    split at hzero
    · rename_i h
      exact boosted_ne_zero h.right hzero
    · rename_i h
      rw [if_neg h] at hlt
      exact lt_irrefl _ hlt

theorem correction_rerank_iff (hdecay : r.decay_score = s.decay_score)
    (hscore : r.rerankScore = s.rerankScore)
    (hcorrection : isCorrection config s.page_type = true)
    (hplain : isCorrection config r.page_type = false) :
    (adjustedOne config path r).rerankScore ≤
        (adjustedOne config path s).rerankScore <->
      ¬ (s.rerankScore < 0 ∧ readDecay path s.decay_score ≤ 0 ∧
        0 < floorOf config s.page_type ∧
          (1 + max 0 config.correction_salience_boost) *
            floorOf config s.page_type < 1 / 2) := by
  have hraw : liftedScore config r.page_type r.rerankScore =
      s.rerankScore := by
    unfold liftedScore
    rw [if_neg fun h => by rw [hplain] at h; exact Bool.false_ne_true h.left]
    exact hscore
  have hfactor : 0 < 1 + max 0 config.correction_salience_boost :=
    add_pos_of_pos_of_nonneg one_pos (le_max_left _ _)
  have hnonneg := appliedFrom_nonneg config path r
  have hnone : appliedFrom config path r = 0 <->
      readDecay path s.decay_score ≤ 0 := by
    rw [applied_plain hplain, hdecay]
    constructor
    · intro hmin
      rcases min_choice 1 (max 0 (readDecay path s.decay_score)) with
        hbad | hsame
      · rw [hbad] at hmin
        exact absurd hmin one_ne_zero
      · rw [hsame] at hmin
        rw [← hmin]
        exact le_max_right _ _
    · intro hlow
      rw [max_eq_left hlow, min_eq_right zero_le_one]
  have hheld := @applied_correction K _ _ _ config path _ _ hdecay
    hplain
  rw [adjustedOne_rerankScore, adjustedOne_rerankScore, hraw, ← hnone]
  by_cases hseam : s.rerankScore < 0 ∧ appliedFrom config path r = 0 ∧
      0 < floorOf config s.page_type
  · rcases hseam with ⟨hneg, hzero, hfloor⟩
    rw [hzero, max_eq_left (le_of_lt hfloor)] at hheld
    have hlow := div_neg_of_neg_of_pos hneg hfactor
    rw [hheld, hzero, liftedScore_of_neg hcorrection hneg,
      attenuated_of_neg hneg, attenuated_of_neg hlow, if_pos hfloor,
      if_neg (lt_irrefl 0), div_div, le_div_iff₀ (mul_pos hfactor hfloor)]
    constructor
    · rintro hle ⟨_, _, _, hhalf⟩
      nlinarith
    · intro hnot
      have hhalf := not_lt.mp fun h => hnot ⟨hneg, rfl, hfloor, h⟩
      nlinarith
  · have hkept : attenuated (appliedFrom config path r) s.rerankScore ≤
        attenuated (appliedFrom config path s) s.rerankScore := by
      have hle : appliedFrom config path r ≤ appliedFrom config path s := by
        rw [hheld]
        exact le_max_right _ _
      rcases eq_or_lt_of_le hle with heq | hlt
      · rw [heq]
      · apply (attenuated_le_iff hnonneg hlt _).mpr
        rintro ⟨hneg, hzero, _⟩
        rw [hzero, hheld, hzero] at hlt
        rcases lt_max_iff.mp hlt with hfloor | hbad
        · exact hseam ⟨hneg, hzero, hfloor⟩
        · exact lt_irrefl 0 hbad
    constructor
    · rintro _ ⟨hneg, hzero, hfloor, _⟩
      exact hseam ⟨hneg, hzero, hfloor⟩
    · intro _
      exact le_trans hkept (attenuated_le_lifted s.page_type
        (appliedFrom_nonneg config path s)
        (appliedFrom_le_one config path s) _)

/-- Two rows come out in order exactly where no seam lies between them. -/
theorem inOrder_iff :
    InOrder config r s (adjustedOne config path r)
        (adjustedOne config path s) <-> Clear config path r s := by
  constructor
  · intro h
    constructor
    · intro low high hlow hhigh hlt hsame
      rcases h.decay low high hlow hhigh (le_of_lt hlt) hsame with
        ⟨hfinal, hrerank⟩
      have hread := (decay_rerank_iff hlow hhigh hlt hsame).mp hrerank
      exact ⟨hread.left,
        ((decay_final_iff hlow hhigh hsame).mp hfinal).right, hread.right⟩
    · intro hdecay htype hlt
      exact (raw_final_iff hdecay htype hlt).mp
        (h.rawFinal hdecay htype (le_of_lt hlt))
    · rintro hdecay htype hplain ⟨hneg, hzero, hrest⟩
      have hlt : r.rerankScore < s.rerankScore := by
        rw [hzero]
        exact hneg
      exact (raw_decayed_iff hdecay htype hplain hlt).mp
        (h.rawRerank hdecay htype (le_of_lt hlt)) ⟨hneg, hzero, hrest⟩
    · rintro hdecay htype hcorrection hboost ⟨hzero, hpos, hrest⟩
      have hlt : r.rerankScore < s.rerankScore := by
        rw [hzero]
        exact hpos
      exact (raw_boosted_iff hdecay htype hcorrection hboost hlt).mp
        (h.rawRerank hdecay htype (le_of_lt hlt)) ⟨hzero, hpos, hrest⟩
    · intro hcorrection hplain hsame
      have hdecay : r.decay_score = s.decay_score := by
        rw [hsame]
      have hrrf : r.rrf_score = s.rrf_score := by
        rw [hsame]
      have hscore : r.rerankScore = s.rerankScore := by
        rw [hsame]
        rfl
      rcases h.correction hcorrection hplain hsame with ⟨hfinal, hrerank⟩
      have hkept := (correction_final_iff hdecay hrrf hcorrection hplain).mp
        hfinal
      exact ⟨hkept.left, hkept.right,
        (correction_rerank_iff hdecay hscore hcorrection hplain).mp hrerank⟩
  · intro h
    constructor
    · intro low high hlow hhigh hle hsame
      rcases eq_or_lt_of_le hle with heq | hlt
      · have hrow : r = s := by
          rw [hsame, heq, ← hhigh]
        rw [hrow]
        exact ⟨le_refl _, le_refl _⟩
      · rcases h.decay low high hlow hhigh hlt hsame with
          ⟨hread, hback, hzero⟩
        exact ⟨(decay_final_iff hlow hhigh hsame).mpr
          ⟨fun _ => hread, hback⟩,
          (decay_rerank_iff hlow hhigh hlt hsame).mpr ⟨hread, hzero⟩⟩
    · intro hdecay htype hle
      rcases eq_or_lt_of_le hle with heq | hlt
      · rw [adjustedOne_final_score, adjustedOne_final_score, heq, htype,
          appliedFrom_eq_of_raw hdecay htype]
      · exact (raw_final_iff hdecay htype hlt).mpr
          (h.rawFinal hdecay htype hlt)
    · intro hdecay htype hle
      rcases eq_or_lt_of_le hle with heq | hlt
      · rw [adjustedOne_rerankScore, adjustedOne_rerankScore, heq, htype,
          appliedFrom_eq_of_raw hdecay htype]
      · by_cases hboosted : isCorrection config s.page_type = true ∧
            0 < config.correction_salience_boost
        · exact (raw_boosted_iff hdecay htype hboosted.left hboosted.right
            hlt).mpr
              (h.rawBoosted hdecay htype hboosted.left hboosted.right)
        · exact (raw_decayed_iff hdecay htype hboosted hlt).mpr
            (h.rawDecayed hdecay htype hboosted)
    · intro hcorrection hplain hsame
      have hdecay : r.decay_score = s.decay_score := by
        rw [hsame]
      have hrrf : r.rrf_score = s.rrf_score := by
        rw [hsame]
      have hscore : r.rerankScore = s.rerankScore := by
        rw [hsame]
        rfl
      rcases h.correction hcorrection hplain hsame with
        ⟨hpos, hneg, hrerank⟩
      exact ⟨(correction_final_iff hdecay hrrf hcorrection hplain).mpr
        ⟨hpos, hneg⟩,
        (correction_rerank_iff hdecay hscore hcorrection hplain).mpr hrerank⟩

end Pair

/-- The adjusted scores of all rows of a search stand in order. -/
def RankedInOrder (path : ReadPath) (rows : List (Candidate K)) : Prop :=
  forall r, r ∈ rows.zip (adjustedFrom config path rows) ->
    forall s, s ∈ rows.zip (adjustedFrom config path rows) ->
      InOrder config r.1 s.1 r.2 s.2

/-- The scores stand in order exactly where no two rows have a seam between
them. -/
theorem rankedInOrder_iff (path : ReadPath) (rows : List (Candidate K)) :
    RankedInOrder config path rows <->
      forall r, r ∈ rows -> forall s, s ∈ rows -> Clear config path r s := by
  have hzip : rows.zip (adjustedFrom config path rows) =
      rows.map fun r => (r, adjustedOne config path r) := by
    rw [adjustedFrom_eq]
    induction rows with
    | nil => rfl
    | cons r rest ih =>
        rw [List.map_cons, List.zip_cons_cons, ih]
        rfl
  unfold RankedInOrder
  rw [hzip]
  constructor
  · intro h r hr s hs
    exact inOrder_iff.mp (h _ (List.mem_map_of_mem hr) _
      (List.mem_map_of_mem hs))
  · intro h r hr s hs
    rcases List.mem_map.mp hr with ⟨first, hfirst, hadjusted⟩
    rcases List.mem_map.mp hs with ⟨second, hsecond, hother⟩
    rw [← hadjusted, ← hother]
    exact inOrder_iff.mpr (h first hfirst second hsecond)

end Adjusted

/-!
## A decay of zero
-/

namespace Faded

def config : Config Rat :=
  { rrf_k := 60
    fts_weight := 3 / 5
    semantic_weight := 2 / 5
    correction_salience_boost := 1 / 4
    correction_decay_floor := 1 / 2
    correction_types := ["correction", "contradiction", "decision", "fix"]
    lower := String.toLower }

/-- The only row of a search, with the decay that is stored for it. -/
def row (stored : Rat) : Candidate Rat :=
  { doc_id := 1
    path := "note.md"
    agent := "codex"
    sigil := ""
    rrf_score := 1
    decay_score := some stored
    fts_rank := some 1
    sem_rank := none
    similarity := none
    chunk_id := none
    chunk_text := ""
    heading_context := ""
    page_status := "accepted"
    privacy_level := "safe"
    page_type := some "note"
    evidence_refs := none
    indexed_at := none
    layer := "knowledge"
    salience_boost := 0
    decay_applied := 0
    final_score := 0
    rerank_score := some 1
    raw_rerank_score := none }

/-- A decay of zero is read as no decay at all. -/
theorem faded_first :
    ¬ RankedInOrder config .fts [row 0, row (1 / 2)] := by
  intro h
  have hpairs : [row 0, row (1 / 2)].zip
      (adjustedFrom config .fts [row 0, row (1 / 2)]) =
        [(row 0, adjustedOne config .fts (row 0)),
          (row (1 / 2), adjustedOne config .fts (row (1 / 2)))] := by
    rw [adjustedFrom_eq]
    rfl
  unfold RankedInOrder at h
  rw [hpairs] at h
  have hpair := h _ List.mem_cons_self _
    (List.mem_cons_of_mem _ List.mem_cons_self)
  have hle := (hpair.decay 0 (1 / 2) rfl rfl (by norm_num) rfl).left
  revert hle
  decide +kernel

theorem clear_trie (low high : Rat) :
    Clear config .trie (row low) (row high) := by
  have hrrf : ¬ (1 : Rat) * (1 + boostOf config (some "note")) < 0 := by
    decide +kernel
  have hraw : ¬ (1 : Rat) < 0 := by decide +kernel
  have hplain : ¬ isCorrection config (some "note") = true := by
    decide +kernel
  constructor
  · intro below above hbelow habove hlt _
    cases hbelow
    cases habove
    refine ⟨fun h => lt_asymm hlt h.left, ?_, ?_⟩
    · intro hneg
      exact absurd hneg hrrf
    · intro h
      exact absurd h.left hraw
  · intro _ _ hlt
    exact absurd hlt (lt_irrefl _)
  · intro _ _ _ h
    exact absurd h.left hraw
  · intro _ _ hcorrection
    exact absurd hcorrection hplain
  · intro hcorrection
    exact absurd hcorrection hplain

/-- Where the decay is read as it is stored, the rows stand in order. -/
theorem ranked_by_trie :
    RankedInOrder config .trie ([0, 1 / 4, 1 / 2].map row) := by
  apply (rankedInOrder_iff config .trie ([0, 1 / 4, 1 / 2].map row)).mpr
  intro r hr s hs
  rcases List.mem_map.mp hr with ⟨low, _, rfl⟩
  rcases List.mem_map.mp hs with ⟨high, _, rfl⟩
  exact clear_trie low high

end Faded

end Recall
end Minni
