import Minni.Vault.NoteScoreLaw
import Minni.Vault.Snippet

/-!
# The first word of a term

Where the pattern of a term first matches, in a text and in the same text in
lower case, beside what the scan of lower-case ASCII says of an occurrence.
-/

namespace Minni
namespace Vault

open Foundation
open Foundation.Scan

/-!
## Lower case in place
-/

def SameFold (U : Unicode) (c d : Nat) : Prop :=
  U.fold c = U.fold d

/-- Lower-casing that keeps the length of a text lowers each code point in its
place, to one that folds alike; a text of lower-case ASCII it keeps. -/
structure LowersInPlace (U : Unicode) : Prop where
  keeps : forall s, isPureLowerAscii s = true -> U.toLowerCase s = s
  splits : forall s, s.length = (U.toLowerCase s).length ->
    forall i, splitsPair s i = splitsPair (U.toLowerCase s) i
  folds : forall s, s.length = (U.toLowerCase s).length ->
    forall i, splitsPair s i = false ->
      List.Forall₂ (SameFold U) (codePoints (s.take i))
          (codePoints ((U.toLowerCase s).take i)) ∧
        List.Forall₂ (SameFold U) (codePoints (s.drop i))
          (codePoints ((U.toLowerCase s).drop i))

variable {U : Unicode}

theorem wordFolded_same {c d : Nat} (h : SameFold U c d) :
    U.wordFolded c = U.wordFolded d := by
  apply Bool.eq_iff_iff.mpr
  rw [U.wordFolded_iff, U.wordFolded_iff, h]

theorem noSeparatorFolded_same {c d : Nat} (h : SameFold U c d) :
    U.noSeparatorFolded c = U.noSeparatorFolded d := by
  apply Bool.eq_iff_iff.mpr
  rw [U.noSeparatorFolded_iff, U.noSeparatorFolded_iff, h]

theorem word_respects (xs : List Nat) :
    (Regex.word (sameChar U true) xs).Respects (SameFold U) := by
  apply Regex.Respects.word
  intro c a b h
  change (U.fold c == U.fold a) = (U.fold c == U.fold b)
  rw [h]

/-- A pattern that ignores case sees of a symbol only what it folds to. -/
theorem wordPattern_respects (term : List Nat) (inflect : Bool) :
    (wordPattern U true term inflect).Respects (SameFold U) := by
  have hword : forall c d, SameFold U c d ->
      U.wordFolded c = U.wordFolded d := fun _ _ => wordFolded_same
  have hscripts : forall c d, SameFold U c d ->
      U.noSeparatorFolded c = U.noSeparatorFolded d :=
    fun _ _ => noSeparatorFolded_same
  refine ⟨?_, word_respects _, ?_, ?_⟩
  · split
    · exact ⟨hword, hscripts⟩
    · exact True.intro
  · split
    · exact ⟨⟨word_respects _, word_respects _, word_respects _,
        word_respects _⟩, True.intro⟩
    · exact True.intro
  · split
    · exact ⟨hword, hscripts⟩
    · exact True.intro

theorem regexMeets_lower (hU : LowersInPlace U) {plain : List Nat}
    (hlength : plain.length = (U.toLowerCase plain).length)
    (term : List Nat) (inflect : Bool) (i : Nat) :
    regexMeets (wordPattern U true term inflect) plain i =
      regexMeets (wordPattern U true term inflect) (U.toLowerCase plain) i := by
  unfold regexMeets
  rw [← hU.splits plain hlength i]
  cases hsplit : splitsPair plain i with
  | true => rfl
  | false =>
      rcases hU.folds plain hlength i hsplit with ⟨hbefore, hafter⟩
      rw [(wordPattern_respects term inflect).hit_isSome
        (List.forall₂_reverse_iff.mpr hbefore) hafter]

theorem lowered_lower (hU : LowersInPlace U) (plain : List Nat) :
    lowered U plain = lowered U (U.toLowerCase plain) := by
  rw [lowered_toLowerCase]
  unfold lowered
  split
  · rename_i hpure
    exact (hU.keeps plain hpure).symm
  · rfl

/-- The first word is at the same place in the text in lower case. -/
theorem firstWordIndex_lower (hU : LowersInPlace U) {plain : List Nat}
    (hlength : plain.length = (U.toLowerCase plain).length)
    (term : List Nat) :
    firstWordIndex U plain term =
      firstWordIndex U (U.toLowerCase plain) term := by
  unfold firstWordIndex
  split
  · rfl
  · split
    · unfold firstLongWordIndex
      rw [lowered_lower hU plain]
    · unfold wordRegex
      split
      · rfl
      · change execIndex _ plain = execIndex _ (U.toLowerCase plain)
        unfold execIndex
        rw [hlength]
        congr 1
        funext i
        exact regexMeets_lower hU hlength term true i

/-!
## The places of a word
-/

/-- Whether a term is met as a whole word at a place. -/
def wordAt (U : Unicode) (text term : List Nat) (i : Nat) : Bool :=
  if maxRegexTermLength < term.length then
    term.isPrefixOf (text.drop i) && longVerdict U text term true i ≠ .pass
  else regexMeets (wordPattern U true term true) text i

theorem find?_filter_range {n : Nat} {p q : Nat -> Bool}
    (hp : forall i, p i = true -> i < n) :
    ((List.range n).filter p).find? q =
      (List.range (n + 1)).find? fun i => p i && q i := by
  rw [List.find?_filter, List.range_succ, List.find?_append]
  have hlast : ([n].find? fun i => p i && q i) = none := by
    rw [List.find?_eq_none]
    intro i hi hbad
    rw [List.mem_singleton.mp hi, Bool.and_eq_true] at hbad
    exact Nat.lt_irrefl n (hp n hbad.left)
  rw [hlast, Option.or_none]
  congr 1
  funext i
  simp

theorem firstWordIndex_eq_find {raw term : List Nat} (h : Accepted term) :
    firstWordIndex U (U.toLowerCase raw) term =
      (List.range ((U.toLowerCase raw).length + 1)).find?
        (wordAt U (U.toLowerCase raw) term) := by
  have hkept : rejected U term = false := by
    rw [rejected_ascii h.toAsciiTerm]
    exact h.kept
  unfold firstWordIndex wordAt
  rw [if_neg h.nonempty]
  split
  · rename_i hlong
    have hplaces := find?_filter_range
      (n := (U.toLowerCase raw).length)
      (p := fun i => term.isPrefixOf ((U.toLowerCase raw).drop i))
      (q := fun i => longVerdict U (U.toLowerCase raw) term true i ≠ .pass)
      (by
        intro i hi
        apply Nat.lt_of_not_le
        intro hend
        rw [List.drop_eq_nil_of_le hend] at hi
        exact h.nonempty (List.prefix_nil.mp (List.isPrefixOf_iff_prefix.mp hi)))
    rw [← hplaces]
    have hloop := @firstNotPassed_eq
      (longVerdict U (U.toLowerCase raw) term true) _ _
      (finds_occurrences (U.toLowerCase raw) term)
      (occurrences_sorted _ term)
      _ _
      (occurrences_fuel (U.toLowerCase raw) term 0)
    have hall : ((occurrences (U.toLowerCase raw) term).dropWhile
        fun place => decide (place < 0)) =
          occurrences (U.toLowerCase raw) term := by
      cases occurrences (U.toLowerCase raw) term with
      | nil => rfl
      | cons place rest => rfl
    rw [hall] at hloop
    unfold firstLongWordIndex
    rw [if_neg h.nonempty]
    dsimp only
    rw [lowered_toLowerCase, lowered_ascii h.toAsciiTerm, hkept]
    change _ = (occurrences (U.toLowerCase raw) term).find? _
    rw [← hloop]
    cases indexOf (U.toLowerCase raw) term 0 with
    | none => rfl
    | some first => rfl
  · rw [wordRegex_of_kept hkept]
    rfl

theorem firstWordIndex_le {raw term : List Nat} (h : Accepted term) {i : Nat}
    (hi : i ≤ (U.toLowerCase raw).length)
    (hword : wordAt U (U.toLowerCase raw) term i = true) :
    exists first, firstWordIndex U (U.toLowerCase raw) term = some first ∧
      first ≤ i := by
  rw [firstWordIndex_eq_find h]
  cases hfind : (List.range ((U.toLowerCase raw).length + 1)).find?
      (wordAt U (U.toLowerCase raw) term) with
  | none =>
      have hnone := List.find?_eq_none.mp hfind i
        (List.mem_range.mpr (Nat.lt_succ_of_le hi))
      exact absurd hword hnone
  | some first =>
      refine ⟨first, rfl, Nat.le_of_not_lt ?_⟩
      intro hlater
      have hbefore := (List.find?_range_eq_some.mp hfind).right.right i hlater
      rw [hword] at hbefore
      cases hbefore

theorem wordAt_firstWordIndex {raw term : List Nat} (h : Accepted term)
    {i : Nat}
    (hfirst : firstWordIndex U (U.toLowerCase raw) term = some i) :
    wordAt U (U.toLowerCase raw) term i = true ∧
      i ≤ (U.toLowerCase raw).length := by
  rw [firstWordIndex_eq_find h] at hfirst
  exact ⟨List.find?_some hfirst,
    Nat.le_of_lt_succ (List.mem_range.mp (List.mem_of_find?_eq_some hfirst))⟩

/-!
## An occurrence that the scan passes
-/

section

variable {text term : List Nat}

theorem suffixVerdict_pass {p : Nat} (h : suffixVerdict text p = .pass) :
    exists c rest, text.drop p = c :: rest ∧ c < 128 ∧
      isAsciiLowerWordChar c = true := by
  unfold suffixVerdict at h
  split at h
  · cases h
  · rename_i hend
    split at h
    · cases h
    · rename_i hascii
      split at h
      · rename_i hword
        have hlt := Nat.lt_of_not_le hend
        have hcode := charCodeAt_drop text p 0
        rw [Nat.add_zero, List.drop_eq_getElem_cons hlt] at hcode
        change charCodeAt text p = text[p] at hcode
        rw [hcode] at hascii hword
        exact ⟨text[p], text.drop (p + 1), List.drop_eq_getElem_cons hlt,
          Nat.lt_of_not_le hascii, hword⟩
      · cases h

/-- No word ends before a letter or digit of lower-case ASCII. -/
theorem not_mem_ends_notWordAfter {c : Nat} {before after : List Nat}
    (hc : AsciiLower c) (hword : isAsciiLowerWordChar c = true)
    (stop : Regex.Place Nat) :
    stop ∉ (notWordAfter U true).ends ⟨before, c :: after⟩ := by
  intro hstop
  rcases tests_notWordAfter_folded (U := U) ⟨before, c :: after⟩ with
    ⟨times, hends, hpos⟩
  have hnext : AsciiNext (c :: after) := by
    intro d hd
    injection hd with hd
    rw [← hd]
    exact hc
  have hedge : edgeOk U (c :: after) = false := by
    rw [edgeOk_ascii hc.left hc.right, hword]
    rfl
  rw [hends] at hstop
  have hsome := hpos.mp (Nat.pos_of_ne_zero (List.mem_replicate.mp hstop).left)
  have hholds := (edgeOk_folded (U := U) hnext).symm.trans hsome
  rw [hedge] at hholds
  cases hholds

theorem mem_ends_word_cons {c : Nat} {w : List Nat}
    {place stop : Regex.Place Nat}
    (h : stop ∈ (Regex.word (sameChar U true) (c :: w)).ends place) :
    exists d after, place.after = d :: after ∧ sameChar U true c d = true ∧
      stop ∈ (Regex.word (sameChar U true) w).ends
        ⟨d :: place.before, after⟩ := by
  rcases place with ⟨before, after⟩
  rw [Regex.word, Regex.ends_seq, List.mem_flatMap] at h
  rcases h with ⟨middle, hmiddle, hstop⟩
  cases after with
  | nil => cases hmiddle
  | cons d after =>
      rw [Regex.ends_one_cons] at hmiddle
      split at hmiddle
      · rename_i hsame
        rw [List.mem_singleton.mp hmiddle] at hstop
        exact ⟨d, after, rfl, hsame, hstop⟩
      · cases hmiddle

theorem eq_of_sameChar {c d : Nat} (hc : AsciiLower c) (hd : AsciiLower d)
    (h : sameChar U true c d = true) : c = d := by
  rw [sameChar_ascii hc hd] at h
  exact beq_iff_eq.mp h

/-- A letter of a suffix that is met at a symbol of ASCII is that symbol. -/
theorem suffix_letter {c d : Nat} {w before rest : List Nat}
    {stop : Regex.Place Nat} (hc : AsciiLower c) (hd : AsciiLower d)
    (h : stop ∈ (Regex.word (sameChar U true) (c :: w)).ends
      ⟨before, codePoints (d :: rest)⟩) :
    c = d ∧ stop ∈ (Regex.word (sameChar U true) w).ends
      ⟨d :: before, codePoints rest⟩ := by
  rcases mem_ends_word_cons h with ⟨e, after, hsplit, hsame, hstop⟩
  change codePoints (d :: rest) = e :: after at hsplit
  rw [codePoints_cons_ascii hd.left] at hsplit
  injection hsplit with he hafter
  rw [← he] at hsame hstop
  rw [← hafter] at hstop
  exact ⟨eq_of_sameChar hc hd hsame, hstop⟩

theorem suffix_letter_nil {c : Nat} {w before : List Nat}
    (stop : Regex.Place Nat) :
    stop ∉ (Regex.word (sameChar U true) (c :: w)).ends
      ⟨before, codePoints []⟩ := by
  intro h
  rcases mem_ends_word_cons h with ⟨_, _, hsplit, _⟩
  cases hsplit

/-- Behind a suffix that the scan refused, no word ends. -/
theorem refused_suffix {p : Nat} {rest before : List Nat}
    {middle stop : Regex.Place Nat} (hlower : Lower text)
    (hverdict : suffixVerdict text p = .pass) (hdrop : text.drop p = rest)
    (hmiddle : middle ∈ (Regex.word (sameChar U true) []).ends
      ⟨before, codePoints rest⟩) :
    stop ∉ (notWordAfter U true).ends middle := by
  rcases suffixVerdict_pass hverdict with ⟨c, more, hcons, hascii, hword⟩
  have hc : AsciiLower c := by
    refine ⟨hascii, hlower.drop p c ?_⟩
    rw [hcons]
    exact List.mem_cons_self
  rw [List.mem_singleton.mp hmiddle, ← hdrop, hcons,
    codePoints_cons_ascii hascii]
  exact not_mem_ends_notWordAfter hc hword stop

theorem asciiLower_of_mem {p c : Nat} {rest : List Nat} (hlower : Lower text)
    (hdrop : text.drop p = rest) (hc : c ∈ rest) (hascii : c < 128) :
    AsciiLower c := by
  refine ⟨hascii, hlower.drop p c ?_⟩
  rw [hdrop]
  exact hc

theorem drop_further {afterIdx k : Nat} {here further : List Nat}
    (hdrop : text.drop afterIdx = here) (hfurther : here.drop k = further) :
    text.drop (afterIdx + k) = further := by
  rw [← List.drop_drop, hdrop, hfurther]

section Suffixes

variable {afterIdx c0 : Nat} {rest before : List Nat}
  {middle stop : Regex.Place Nat} (hlower : Lower text)
  (hdrop : text.drop afterIdx = c0 :: rest) (hc0 : AsciiLower c0)
  (hword : isAsciiLowerWordChar c0 = true)

include hlower hdrop hc0 hword

theorem pass_s (h : tailVerdict text true afterIdx = .pass)
    (hmiddle : middle ∈ (Regex.word (sameChar U true) [115]).ends
      ⟨before, codePoints (c0 :: rest)⟩) :
    stop ∉ (notWordAfter U true).ends middle := by
  rcases suffix_letter ⟨by decide, by decide⟩ hc0 hmiddle with ⟨heq, hend⟩
  rw [tailVerdict_cons true hdrop, if_neg (Nat.not_le.mpr hc0.left), hword,
    ← heq] at h
  exact refused_suffix hlower h
    (drop_further hdrop rfl) hend

/-- A suffix of `e` and one more letter. -/
theorem pass_e {c : Nat} (hletter : c = 115 ∨ c = 100)
    (h : tailVerdict text true afterIdx = .pass)
    (hmiddle : middle ∈ (Regex.word (sameChar U true) [101, c]).ends
      ⟨before, codePoints (c0 :: rest)⟩) :
    stop ∉ (notWordAfter U true).ends middle := by
  have hc : AsciiLower c := by
    rcases hletter with hs | hd
    · rw [hs]
      exact ⟨by decide, by decide⟩
    · rw [hd]
      exact ⟨by decide, by decide⟩
  rcases suffix_letter ⟨by decide, by decide⟩ hc0 hmiddle with ⟨heq, hnext⟩
  rw [tailVerdict_cons true hdrop, if_neg (Nat.not_le.mpr hc0.left), hword,
    ← heq] at h
  cases hrest : rest with
  | nil =>
      rw [hrest] at hnext
      exact absurd hnext (suffix_letter_nil middle)
  | cons c1 more =>
      rw [hrest] at h hnext
      rw [if_neg (by decide), if_neg (by decide), if_neg (by decide),
        if_pos ⟨rfl, Nat.succ_pos _⟩] at h
      change (if 128 ≤ c1 then _ else if c1 = 115 ∨ c1 = 100 then _ else _) =
        _ at h
      split at h
      · cases h
      · rename_i hwide
        have hc1 : AsciiLower c1 := by
          apply asciiLower_of_mem hlower hdrop _ (Nat.lt_of_not_le hwide)
          rw [hrest]
          exact List.mem_cons_of_mem _ List.mem_cons_self
        rcases suffix_letter hc hc1 hnext with ⟨heq1, hend⟩
        rw [heq1] at hletter
        rw [if_pos hletter] at h
        apply refused_suffix hlower h _ hend
        apply drop_further hdrop
        rw [hrest]
        rfl

theorem pass_i (h : tailVerdict text true afterIdx = .pass)
    (hmiddle : middle ∈ (Regex.word (sameChar U true) [105, 110, 103]).ends
      ⟨before, codePoints (c0 :: rest)⟩) :
    stop ∉ (notWordAfter U true).ends middle := by
  rcases suffix_letter ⟨by decide, by decide⟩ hc0 hmiddle with ⟨heq, hnext⟩
  rw [tailVerdict_cons true hdrop, if_neg (Nat.not_le.mpr hc0.left), hword,
    ← heq] at h
  cases hrest : rest with
  | nil =>
      rw [hrest] at hnext
      exact absurd hnext (suffix_letter_nil middle)
  | cons c1 more =>
      rw [hrest] at h hnext
      cases hmore : more with
      | nil =>
          rw [hmore] at hnext
          rcases mem_ends_word_cons hnext with ⟨_, after, hsplit, _, hlast⟩
          have hafter : after = [] := by
            injection hsplit with _ hafter
            exact hafter.symm
          rw [hafter] at hlast
          exact absurd hlast (suffix_letter_nil middle)
      | cons c2 others =>
          rw [hmore] at h hnext
          have hnot : ¬ (105 = 101 ∧ 0 < (c1 :: c2 :: others).length) :=
            fun hbad => absurd hbad.left (by decide)
          rw [if_neg (by decide), if_neg (by decide), if_neg (by decide),
            if_neg hnot,
            if_pos ⟨rfl, Nat.succ_lt_succ (Nat.succ_pos _)⟩] at h
          change (if 128 ≤ c1 ∨ 128 ≤ c2 then _
            else if c1 = 110 ∧ c2 = 103 then _ else _) = _ at h
          split at h
          · cases h
          · rename_i hwide
            rw [not_or, Nat.not_le, Nat.not_le] at hwide
            have hc1 : AsciiLower c1 := by
              apply asciiLower_of_mem hlower hdrop _ hwide.left
              rw [hrest]
              exact List.mem_cons_of_mem _ List.mem_cons_self
            have hc2 : AsciiLower c2 := by
              apply asciiLower_of_mem hlower hdrop _ hwide.right
              rw [hrest, hmore]
              exact List.mem_cons_of_mem _
                (List.mem_cons_of_mem _ List.mem_cons_self)
            rcases suffix_letter ⟨by decide, by decide⟩ hc1 hnext with
              ⟨heq1, hlast⟩
            rcases suffix_letter ⟨by decide, by decide⟩ hc2 hlast with
              ⟨heq2, hend⟩
            rw [if_pos ⟨heq1.symm, heq2.symm⟩] at h
            apply refused_suffix hlower h _ hend
            apply drop_further hdrop
            rw [hrest, hmore]
            rfl

end Suffixes

/-- Where the scan passes the end of an occurrence, the pattern has none. -/
theorem not_mem_ends_tail {suffix : Bool} {afterIdx : Nat}
    (hlower : Lower text)
    (h : tailVerdict text suffix afterIdx = .pass) (before : List Nat)
    (stop : Regex.Place Nat) :
    stop ∉ (Regex.seq
      (if suffix then morphologicalSuffix U true else .empty)
      (notWordAfter U true)).ends
        ⟨before, codePoints (text.drop afterIdx)⟩ := by
  intro hstop
  rw [Regex.ends_seq, List.mem_flatMap] at hstop
  rcases hstop with ⟨middle, hmiddle, hend⟩
  cases hdrop : text.drop afterIdx with
  | nil =>
      unfold tailVerdict at h
      rw [if_pos (List.drop_eq_nil_iff.mp hdrop)] at h
      cases h
  | cons c0 rest =>
      have hfacts : c0 < 128 ∧ isAsciiLowerWordChar c0 = true := by
        rw [tailVerdict_cons suffix hdrop] at h
        split at h
        · cases h
        · rename_i hascii
          refine ⟨Nat.lt_of_not_le hascii, ?_⟩
          split at h
          · cases h
          · rename_i hword
            simpa using hword
      have hc0 : AsciiLower c0 :=
        asciiLower_of_mem hlower hdrop List.mem_cons_self hfacts.left
      rw [hdrop] at hmiddle
      have hnone : middle = ⟨before, codePoints (c0 :: rest)⟩ -> False := by
        intro hplace
        rw [hplace, codePoints_cons_ascii hc0.left] at hend
        exact not_mem_ends_notWordAfter hc0 hfacts.right stop hend
      cases suffix with
      | false => exact hnone (List.mem_singleton.mp hmiddle)
      | true =>
          change middle ∈ (morphologicalSuffix U true).ends _ at hmiddle
          unfold morphologicalSuffix Regex.optional at hmiddle
          simp only [Regex.ends_alt, Regex.ends_empty, List.mem_append,
            List.mem_singleton] at hmiddle
          rcases hmiddle with (hs | hes | hing | hed) | hempty
          · exact pass_s hlower hdrop hc0 hfacts.right h hs hend
          · exact pass_e hlower hdrop hc0 hfacts.right (Or.inl rfl) h hes hend
          · exact pass_i hlower hdrop hc0 hfacts.right h hing hend
          · exact pass_e hlower hdrop hc0 hfacts.right (Or.inr rfl) h hed hend
          · exact hnone hempty

theorem splitsPair_occurrence {i : Nat} (h : AsciiTerm term)
    (hprefixed : term <+: text.drop i) : splitsPair text i = false := by
  rcases hprefixed with ⟨rest, hrest⟩
  unfold splitsPair
  rw [← hrest]
  cases hterm : term with
  | nil => exact absurd hterm h.nonempty
  | cons c cs =>
      have hc : c < 128 := by
        apply (h.mem _).left
        rw [hterm]
        exact List.mem_cons_self
      change (_ && isLow c) = false
      rw [not_low_of_ascii hc, Bool.and_false]

theorem longVerdict_of_going {i : Nat} (hlower : Lower text)
    (h : AsciiTerm term) (hi : i ∈ occurrences text term)
    (hgoing : termVerdict text term true i ≠ .giveUp) :
    longVerdict U text term true i = termVerdict text term true i := by
  rw [longVerdict_eq h hi, termVerdict_eq hlower h hi hgoing]

/-- What the scan takes is a whole word. -/
theorem wordAt_of_take {i after : Nat} (hlower : Lower text)
    (h : AsciiTerm term) (hi : i ∈ occurrences text term)
    (htake : termVerdict text term true i = .take after) :
    wordAt U text term i = true := by
  have hprefixed := (prefix_of_mem_occurrences hi).right
  unfold wordAt
  split
  · have hgoing : termVerdict text term true i ≠ .giveUp := by
      rw [htake]
      intro hbad
      cases hbad
    rw [longVerdict_of_going hlower h hi hgoing, htake,
      List.isPrefixOf_iff_prefix.mpr hprefixed]
    rfl
  · unfold regexMeets
    rw [splitsPair_occurrence h hprefixed]
    rcases mem_ends_of_take (U := U) hlower h hi htake with ⟨stop, hstop⟩
    rcases Regex.exists_hit_of_mem_ends hstop with ⟨n, hn⟩
    rw [hn]
    rfl

/-- What the scan passes is no whole word. -/
theorem not_wordAt_of_pass {i : Nat} (hlower : Lower text)
    (h : AsciiTerm term) (hi : i ∈ occurrences text term)
    (hpass : termVerdict text term true i = .pass) :
    wordAt U text term i = false := by
  rcases prefix_of_mem_occurrences hi with ⟨hlt, hprefixed⟩
  unfold wordAt
  split
  · have hgoing : termVerdict text term true i ≠ .giveUp := by
      rw [hpass]
      intro hbad
      cases hbad
    rw [longVerdict_of_going hlower h hi hgoing, hpass]
    exact Bool.and_false _
  · apply Bool.eq_false_iff.mpr
    intro hmeets
    unfold regexMeets at hmeets
    rw [Bool.and_eq_true] at hmeets
    rcases Option.isSome_iff_exists.mp hmeets.right with ⟨n, hn⟩
    rcases Regex.exists_mem_ends_of_hit hn with ⟨stop, hstop⟩
    unfold wordPattern at hstop
    rw [codePoints_occurrence h hprefixed, h.codePoints_eq, Regex.ends_seq,
      List.mem_flatMap] at hstop
    rcases hstop with ⟨opened, hopened, hstop⟩
    have hplace : opened = ⟨(codePoints (text.take i)).reverse,
        term ++ codePoints (text.drop (i + term.length))⟩ := by
      split at hopened
      · rcases tests_notWordBefore_folded (U := U)
          ⟨(codePoints (text.take i)).reverse,
            term ++ codePoints (text.drop (i + term.length))⟩ with
          ⟨times, hends, _⟩
        rw [hends] at hopened
        exact (List.mem_replicate.mp hopened).right
      · exact List.mem_singleton.mp hopened
    rw [hplace, Regex.ends_seq, ends_word_self, List.flatMap_singleton] at hstop
    unfold termVerdict asciiVerdict at hpass
    split at hpass
    · cases hpass
    · rename_i hwide
      split at hpass
      · rename_i hword
        rcases hword with ⟨hlead, hpos, hword⟩
        have hascii : charCodeAt text (i - 1) < 128 := by
          apply Nat.lt_of_not_le
          intro hbad
          exact hwide ⟨hlead, hpos, hbad⟩
        have hedge := edgeOk_take_ascii (U := U) hlower hpos
          (Nat.le_of_lt hlt) hascii
        rw [hword] at hedge
        rw [leadRequired_ascii h, hlead, if_pos rfl] at hopened
        rcases tests_notWordBefore_folded (U := U)
          ⟨(codePoints (text.take i)).reverse,
            term ++ codePoints (text.drop (i + term.length))⟩ with
          ⟨times, hends, htimes⟩
        rw [hends] at hopened
        have hholds := htimes.mp
          (Nat.pos_of_ne_zero (List.mem_replicate.mp hopened).left)
        have hfolded := (edgeOk_folded (U := U) (asciiNext_before hlower
          (Nat.le_of_lt hlt) fun _ => hascii)).symm.trans hholds
        rw [hedge] at hfolded
        cases hfolded
      · split at hpass
        · cases hpass
        · rename_i htail
          have hrequired : tailRequired U term = true := by
            rw [tailRequired_ascii h]
            simpa using htail
          unfold tailPattern at hstop
          rw [hrequired, if_pos rfl, allowSuffix_ascii h] at hstop
          exact not_mem_ends_tail hlower hpass _ stop hstop

end

end Vault
end Minni
