import Minni.Vault.WordScan

/-!
# The scan beside the reference pattern

When the count of the scan is the number of matches of the pattern that
`wordRegex` builds.  The scan compares code units, and where it meets a letter
that is not ASCII beside an occurrence it falls back without its `maxCount`.
-/

namespace Minni
namespace Vault

open Foundation
open Foundation.Scan

variable (U : Unicode) (text term : List Nat) (inflect : Bool)
  (maxCount : Nat)

/-- The matches of the pattern, and none for a term that has no pattern. -/
def referenceCount : Nat :=
  match wordRegex U term inflect with
  | none => 0
  | some regex => regex.countMatches (codePoints text)

def CountsAsReference : Prop :=
  min maxCount (countWordOccurrences U text term inflect maxCount) =
    min maxCount (referenceCount U text term inflect)

/-- The matches of the same pattern without the flag to ignore case. -/
def casedCount : Nat :=
  (wordPattern U false term inflect).countMatches (codePoints text)

/-- An occurrence beside a letter that is not ASCII, that no earlier match
covers and that comes before `maxCount` matches. -/
def MeetsOtherLetter : Prop :=
  exists before i after,
    occurrences text term = before ++ i :: after ∧
      termVerdict text term inflect i = .giveUp ∧
      (scan (patternVerdict U text term inflect) maxCount Cursor.start
        before).count < maxCount ∧
      (scan (patternVerdict U text term inflect) maxCount Cursor.start
        before).nextAllowed ≤ i

/-- When the two counts are the same: without another letter, if ignoring case
brings no further match; beside one, if the cap of the fallback hides none. -/
structure ReferenceMet : Prop where
  no_term : term = [] -> referenceCount U text term inflect = 0
  in_scan : term ≠ [] -> rejected U term = false ->
    ¬ MeetsOtherLetter U text term inflect maxCount ->
      min maxCount (casedCount U text term inflect) =
        min maxCount (referenceCount U text term inflect)
  in_pattern : MeetsOtherLetter U text term inflect maxCount ->
    term ≠ [] -> rejected U term = false ->
      term.length ≤ maxRegexTermLength ->
        maxCount ≤ defaultMaxCount ∨
          referenceCount U text term inflect ≤ defaultMaxCount
  in_sticky : MeetsOtherLetter U text term inflect maxCount ->
    term ≠ [] -> rejected U term = false ->
      maxRegexTermLength < term.length ->
        min maxCount (min defaultMaxCount (casedCount U text term inflect)) =
          min maxCount (referenceCount U text term inflect)

variable {U text term inflect maxCount}

/-!
## The branches of the count
-/

theorem lower_toLowerCase (raw : List Nat) : Lower (U.toLowerCase raw) :=
  U.toLowerCase_lower raw

theorem lowered_toLowerCase (raw : List Nat) :
    lowered U (U.toLowerCase raw) = U.toLowerCase raw := by
  unfold lowered
  split
  · rfl
  · exact U.toLowerCase_idem raw

theorem lowered_ascii (h : AsciiTerm term) : lowered U term = term := by
  unfold lowered
  rw [if_pos h.pure]

theorem indexOf_isSome_of_mem {i : Nat} (hi : i ∈ occurrences text term) :
    exists first, indexOf text term 0 = some first := by
  rw [finds_occurrences text term 0]
  apply Option.isSome_iff_exists.mp
  rw [List.find?_isSome]
  exact ⟨i, hi, decide_eq_true (Nat.zero_le i)⟩

theorem scanWordOccurrences_eq_none_iff (hlower : Lower text)
    (h : AsciiTerm term) (hmax : 0 < maxCount) :
    scanWordOccurrences text term inflect maxCount = none <->
      MeetsOtherLetter U text term inflect maxCount := by
  rw [scanWordOccurrences_eq h hmax]
  exact scan_outcome_eq_none_iff (termVerdict_agrees hlower h) rfl

theorem casedCount_of_no_occurrence (h : AsciiTerm term)
    (hnone : indexOf text term 0 = none) :
    casedCount U text term inflect = 0 := by
  have hempty : occurrences text term = [] := by
    apply List.eq_nil_iff_forall_not_mem.mpr
    intro i hi
    rcases indexOf_isSome_of_mem hi with ⟨first, hfirst⟩
    rw [hnone] at hfirst
    cases hfirst
  have hscan := @scan_patternVerdict U text _
    inflect 1 h
  rw [hempty] at hscan
  injection hscan with hscan
  have hzero : min 1 (casedCount U text term inflect) = 0 := hscan.symm
  omega

theorem not_meets_of_no_occurrence (hnone : indexOf text term 0 = none) :
    ¬ MeetsOtherLetter U text term inflect maxCount := by
  intro hmeets
  rcases hmeets with ⟨before, i, after, hsplit, _⟩
  have hi : i ∈ occurrences text term := by
    rw [hsplit]
    exact List.mem_append_right _ List.mem_cons_self
  rcases indexOf_isSome_of_mem hi with ⟨first, hfirst⟩
  rw [hnone] at hfirst
  cases hfirst

theorem wordRegex_of_kept (hkept : rejected U term = false) :
    wordRegex U term inflect = some (wordPattern U true term inflect) := by
  unfold wordRegex
  rw [hkept, if_neg Bool.false_ne_true]

theorem countWordOccurrences_ascii (h : AsciiTerm term)
    (hkept : rejected U term = false) :
    countWordOccurrences U text term inflect maxCount =
      if (indexOf text term 0).isNone then 0
      else
        match scanWordOccurrences text term inflect maxCount with
        | some count => count
        | none =>
            countWordOccurrencesRegex U text term inflect defaultMaxCount := by
  unfold countWordOccurrences
  rw [rejected_ascii h] at hkept
  rewrite [if_neg h.nonempty, h.pure, Bool.not_true, if_neg Bool.false_ne_true,
    hkept, if_neg Bool.false_ne_true]
  rfl

theorem countWordOccurrencesRegex_ascii {raw : List Nat} {first : Nat}
    (h : AsciiTerm term) (hkept : rejected U term = false)
    (hmax : 0 < maxCount)
    (hfirst : indexOf (U.toLowerCase raw) term 0 = some first) :
    countWordOccurrencesRegex U (U.toLowerCase raw) term inflect maxCount =
      if maxRegexTermLength < term.length then
        min maxCount (casedCount U (U.toLowerCase raw) term inflect)
      else
        min maxCount (referenceCount U (U.toLowerCase raw) term inflect) := by
  unfold countWordOccurrencesRegex referenceCount
  rw [if_neg h.nonempty, lowered_toLowerCase, lowered_ascii h, hfirst,
    wordRegex_of_kept hkept]
  dsimp only
  split
  · exact countLongWordOccurrences_eq h hmax hkept
  · exact Nat.min_comm _ _

/-- Without another letter, the scan counts the matches of the pattern that
does not ignore case. -/
theorem countWordOccurrences_cased (hlower : Lower text)
    (h : AsciiTerm term) (hkept : rejected U term = false)
    (hmax : 0 < maxCount)
    (hnot : ¬ MeetsOtherLetter U text term inflect maxCount) :
    min maxCount (countWordOccurrences U text term inflect maxCount) =
      min maxCount (casedCount U text term inflect) := by
  rw [countWordOccurrences_ascii h hkept]
  cases hfirst : indexOf text term 0 with
  | none =>
      rw [casedCount_of_no_occurrence h hfirst]
      rfl
  | some first =>
      cases hscan : scanWordOccurrences text term inflect maxCount with
      | none =>
          exact absurd
            ((scanWordOccurrences_eq_none_iff hlower h hmax).mp hscan) hnot
      | some count =>
          have hcount : count = min maxCount
              (casedCount U text term inflect) :=
            scanWordOccurrences_count hlower h hmax hscan
          change min maxCount count = _
          rw [hcount, ← Nat.min_assoc, Nat.min_self]

/-- Beside another letter, the default caps the count of the fallback. -/
theorem countWordOccurrences_fallback {raw : List Nat} (h : AsciiTerm term)
    (hkept : rejected U term = false) (hmax : 0 < maxCount)
    (hmeets : MeetsOtherLetter U (U.toLowerCase raw) term inflect
      maxCount) :
    countWordOccurrences U (U.toLowerCase raw) term inflect maxCount =
      if maxRegexTermLength < term.length then
        min defaultMaxCount (casedCount U (U.toLowerCase raw) term inflect)
      else
        min defaultMaxCount
          (referenceCount U (U.toLowerCase raw) term inflect) := by
  rw [countWordOccurrences_ascii h hkept,
    (scanWordOccurrences_eq_none_iff (lower_toLowerCase raw) h hmax).mpr
      hmeets]
  cases hfirst : indexOf (U.toLowerCase raw) term 0 with
  | none => exact absurd hmeets (not_meets_of_no_occurrence hfirst)
  | some first =>
      exact countWordOccurrencesRegex_ascii h hkept (by decide) hfirst

theorem countWordOccurrences_rejected (h : AsciiTerm term)
    (hkept : rejected U term = true) :
    countWordOccurrences U text term inflect maxCount = 0 := by
  rw [rejected_ascii h] at hkept
  unfold countWordOccurrences
  rw [if_neg h.nonempty, h.pure, Bool.not_true, if_neg Bool.false_ne_true,
    hkept, if_pos rfl]
  split
  · rfl
  · rfl

theorem referenceCount_rejected (hkept : rejected U term = true) :
    referenceCount U text term inflect = 0 := by
  unfold referenceCount wordRegex
  rw [hkept, if_pos rfl]

/-!
## The law
-/

theorem min_min_eq_iff {a b c : Nat} :
    min a (min b c) = min a c <-> a ≤ b ∨ c ≤ b := by
  omega

/-- The scan counts as the reference exactly where `ReferenceMet` holds. -/
theorem countsAsReference_iff {raw : List Nat}
    (hpure : isPureLowerAscii term = true) (hmax : 1 ≤ maxCount) :
    CountsAsReference U (U.toLowerCase raw) term inflect maxCount <->
      ReferenceMet U (U.toLowerCase raw) term inflect maxCount := by
  unfold CountsAsReference
  by_cases hempty : term = []
  · have hzero :
        countWordOccurrences U (U.toLowerCase raw) term inflect maxCount =
          0 := by
      unfold countWordOccurrences
      rw [if_pos hempty]
    rw [hzero, Nat.min_zero]
    constructor
    · intro heq
      exact {
        no_term := fun _ => by omega
        in_scan := fun hne => absurd hempty hne
        in_pattern := fun _ hne => absurd hempty hne
        in_sticky := fun _ hne => absurd hempty hne }
    · intro hmet
      rw [hmet.no_term hempty, Nat.min_zero]
  have h : AsciiTerm term := ⟨hempty, hpure⟩
  cases hkept : rejected U term with
  | true =>
      have hdrop : rejected U term ≠ false := by
        rw [hkept]
        decide
      rw [countWordOccurrences_rejected h hkept,
        referenceCount_rejected hkept]
      constructor
      · intro _
        exact {
          no_term := fun hno => absurd hno hempty
          in_scan := fun _ hno => absurd hno hdrop
          in_pattern := fun _ _ hno => absurd hno hdrop
          in_sticky := fun _ _ hno => absurd hno hdrop }
      · intro _
        rfl
  | false =>
      by_cases hmeets : MeetsOtherLetter U (U.toLowerCase raw) term inflect
          maxCount
      · rw [countWordOccurrences_fallback h hkept hmax hmeets]
        constructor
        · intro heq
          refine {
            no_term := fun hno => absurd hno hempty
            in_scan := fun _ _ hnot => absurd hmeets hnot
            in_pattern := ?_
            in_sticky := ?_ }
          · intro _ _ _ hshort
            rw [if_neg (Nat.not_lt.mpr hshort)] at heq
            exact min_min_eq_iff.mp heq
          · intro _ _ _ hlong
            rw [if_pos hlong] at heq
            exact heq
        · intro hmet
          split
          · rename_i hlong
            exact hmet.in_sticky hmeets hempty hkept hlong
          · rename_i hshort
            exact min_min_eq_iff.mpr
              (hmet.in_pattern hmeets hempty hkept (Nat.le_of_not_lt hshort))
      · rw [countWordOccurrences_cased (lower_toLowerCase raw) h hkept hmax
          hmeets]
        constructor
        · intro heq
          exact {
            no_term := fun hno => absurd hno hempty
            in_scan := fun _ _ _ => heq
            in_pattern := fun hbad => absurd hbad hmeets
            in_sticky := fun hbad => absurd hbad hmeets }
        · intro hmet
          exact hmet.in_scan hempty hkept hmeets

/-!
## Texts of ASCII

In a text of lower-case ASCII, ignoring case changes no class and meets no
further letter.
-/

def AsciiLower (c : Nat) : Prop :=
  c < 128 ∧ isAsciiUpper c = false

theorem fold_of_asciiLower {c : Nat} (h : AsciiLower c) : U.fold c = c := by
  rw [U.fold_ascii c h.left, h.right, if_neg Bool.false_ne_true]

/-- What folds to lower-case ASCII is a word character only with it. -/
theorem word_of_fold {a c : Nat} (hc : AsciiLower c)
    (hword : wordChar U a = true) (hfold : U.fold a = c) :
    wordChar U c = true := by
  rw [wordChar_ascii hc.left hc.right]
  rcases Nat.lt_or_ge a 128 with ha | ha
  · have hascii := U.fold_ascii a ha
    rw [hfold] at hascii
    cases hupper : isAsciiUpper a with
    | true =>
        rw [hupper, if_pos rfl] at hascii
        unfold isAsciiUpper at hupper
        unfold isAsciiLowerWordChar
        simp only [Bool.and_eq_true, Bool.or_eq_true, decide_eq_true_eq]
          at hupper ⊢
        omega
    | false =>
        rw [hupper, if_neg Bool.false_ne_true] at hascii
        rw [hascii, ← wordChar_ascii ha hupper]
        exact hword
  · rcases U.fold_into_ascii a ha (by rw [hfold]; exact hc.left) with hs | hk
    · rw [← hfold, hs.right]
      rfl
    · rw [← hfold, hk.right]
      rfl

theorem wordFolded_ascii {c : Nat} (hc : AsciiLower c) :
    U.wordFolded c = wordChar U c := by
  apply Bool.eq_iff_iff.mpr
  rw [U.wordFolded_iff]
  constructor
  · intro h
    rcases h with ⟨a, hword, hfold⟩
    rw [fold_of_asciiLower hc] at hfold
    exact word_of_fold hc hword hfold
  · intro h
    exact ⟨c, h, rfl⟩

theorem noSeparatorFolded_ascii {c : Nat} (hc : AsciiLower c) :
    U.noSeparatorFolded c = U.noSeparator c := by
  rw [U.noSeparator_latin c (Or.inl hc.left)]
  apply Bool.eq_false_iff.mpr
  intro h
  rcases (U.noSeparatorFolded_iff c).mp h with ⟨a, ha, hfold⟩
  rw [fold_of_asciiLower hc] at hfold
  have hlatin : a < 128 ∨ a = 0x17f ∨ a = 0x212a := by
    rcases Nat.lt_or_ge a 128 with hlow | hhigh
    · exact Or.inl hlow
    · rcases U.fold_into_ascii a hhigh (by rw [hfold]; exact hc.left) with
        hs | hk
      · exact Or.inr (Or.inl hs.left)
      · exact Or.inr (Or.inr hk.left)
  rw [U.noSeparator_latin a hlatin] at ha
  cases ha

theorem sameChar_ascii {c d : Nat} (hc : AsciiLower c) (hd : AsciiLower d) :
    sameChar U true c d = sameChar U false c d := by
  change (U.fold c == U.fold d) = (c == d)
  rw [fold_of_asciiLower hc, fold_of_asciiLower hd]

/-!
## A count beyond the default

Six occurrences of `test` behind a word that ends in it, and begins with an
accented letter.
-/

namespace Accented

def isLetter (c : Nat) : Bool :=
  isAsciiLetter c || c = 0xe9 || c = 0x17f || c = 0x212a

def foldUnit (c : Nat) : Nat :=
  if isAsciiUpper c then c + 32
  else if c = 0x17f then 115
  else if c = 0x212a then 107
  else c

def lowerUnit (c : Nat) : Nat :=
  if isAsciiUpper c then c + 32 else if c = 0x212a then 107 else c

def isWord (c : Nat) : Bool :=
  isLetter c || isAsciiDigit c

theorem isWord_foldUnit (c : Nat) : isWord (foldUnit c) = isWord c := by
  unfold foldUnit
  split
  · rename_i hupper
    unfold isAsciiUpper at hupper
    unfold isWord isLetter isAsciiLetter isAsciiUpper isAsciiDigit
    apply Bool.eq_iff_iff.mpr
    simp only [Bool.and_eq_true, Bool.or_eq_true, decide_eq_true_eq]
      at hupper ⊢
    omega
  · split
    · rename_i hs
      rw [hs]
      rfl
    · split
      · rename_i hk
        rw [hk]
        rfl
      · rfl

theorem lowerUnit_lower (c : Nat) : isAsciiUpper (lowerUnit c) = false := by
  unfold lowerUnit
  split
  · rename_i hupper
    unfold isAsciiUpper at hupper ⊢
    simp only [Bool.and_eq_true, decide_eq_true_eq] at hupper
    rw [decide_eq_false (p := c + 32 ≤ 90) (by omega), Bool.and_false]
  · rename_i hlower
    split
    · rfl
    · exact Bool.eq_false_iff.mpr hlower

theorem lowerUnit_idem (c : Nat) : lowerUnit (lowerUnit c) = lowerUnit c := by
  have hlower := lowerUnit_lower c
  have hkelvin : lowerUnit c ≠ 0x212a := by
    unfold lowerUnit
    split
    · rename_i hupper
      unfold isAsciiUpper at hupper
      simp only [Bool.and_eq_true, decide_eq_true_eq] at hupper
      omega
    · split
      · decide
      · rename_i hother
        exact hother
  rw [lowerUnit, hlower, if_neg Bool.false_ne_true, if_neg hkelvin]

def unicode : Unicode where
  letter := isLetter
  number := isAsciiDigit
  noSeparator := fun _ => false
  fold := foldUnit
  wordFolded := isWord
  noSeparatorFolded := fun _ => false
  toLowerCase := List.map lowerUnit
  letter_ascii := by
    intro c hc
    unfold isLetter
    rw [decide_eq_false (by omega), decide_eq_false (by omega),
      decide_eq_false (by omega), Bool.or_false, Bool.or_false, Bool.or_false]
  number_ascii := fun _ _ => rfl
  noSeparator_latin := fun _ _ => rfl
  fold_ascii := by
    intro c hc
    unfold foldUnit
    rw [if_neg (show ¬ c = 0x17f by omega),
      if_neg (show ¬ c = 0x212a by omega)]
  fold_into_ascii := by
    intro c hc hfold
    have hupper : isAsciiUpper c = false := by
      unfold isAsciiUpper
      rw [decide_eq_false (p := c ≤ 90) (by omega), Bool.and_false]
    by_cases hs : c = 0x17f
    · rw [hs]
      exact Or.inl ⟨rfl, rfl⟩
    · by_cases hk : c = 0x212a
      · rw [hk]
        exact Or.inr ⟨rfl, rfl⟩
      · unfold foldUnit at hfold
        rw [hupper, if_neg Bool.false_ne_true, if_neg hs, if_neg hk] at hfold
        exact absurd hfold (Nat.not_lt.mpr hc)
  wordFolded_iff := by
    intro c
    constructor
    · intro h
      exact ⟨c, h, rfl⟩
    · intro h
      rcases h with ⟨a, ha, hfold⟩
      rw [← isWord_foldUnit c, ← hfold, isWord_foldUnit]
      exact ha
  noSeparatorFolded_iff := by
    intro c
    constructor
    · intro h
      cases h
    · intro h
      rcases h with ⟨a, ha, _⟩
      cases ha
  toLowerCase_lower := by
    intro s c hc
    rcases List.mem_map.mp hc with ⟨a, _, ha⟩
    rw [← ha]
    exact lowerUnit_lower a
  toLowerCase_idem := by
    intro s
    rw [List.map_map]
    apply List.map_congr_left
    intro c _
    exact lowerUnit_idem c
  toLowerCase_line := by
    intro s t
    rw [List.map_append, List.map_cons]
    rfl

def test : List Nat :=
  [116, 101, 115, 116]

def note : List Nat :=
  0xe9 :: (test ++ (List.replicate 6 (32 :: test)).flatten)

theorem fallback_hides_match :
    ¬ CountsAsReference unicode (unicode.toLowerCase note) test true 6 := by
  unfold CountsAsReference
  decide +kernel

end Accented

theorem countsAsReference_iff_plain :
    CountsAsReference Accented.unicode
        (Accented.unicode.toLowerCase Accented.test) Accented.test true 1 <->
      ReferenceMet Accented.unicode
        (Accented.unicode.toLowerCase Accented.test) Accented.test true 1 :=
  countsAsReference_iff rfl (Nat.le_refl 1)

end Vault
end Minni
