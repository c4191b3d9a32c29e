import Minni.Vault.WordPattern

/-!
# The scans follow the pattern

Both scans of a text for a term of lower-case ASCII count the matches of the
pattern that does not ignore case, as far as they do not give up.
-/

namespace Minni
namespace Vault

open Foundation
open Foundation.Scan

/-!
## Terms of lower-case ASCII
-/

/-- A term that the scan takes: not empty, and of lower-case ASCII only. -/
structure AsciiTerm (term : List Nat) : Prop where
  nonempty : term ≠ []
  pure : isPureLowerAscii term = true

namespace AsciiTerm

variable {term : List Nat} (h : AsciiTerm term)

include h

theorem mem {c : Nat} (hc : c ∈ term) :
    c < 128 ∧ isAsciiUpper c = false := by
  have hall := List.all_eq_true.mp h.pure c hc
  rw [Bool.not_eq_true', Bool.or_eq_false_iff, decide_eq_false_iff_not,
    Nat.not_le] at hall
  exact hall

theorem codePoints_eq : codePoints term = term :=
  codePoints_ascii fun _ hc => (h.mem hc).left

theorem length_pos : 0 < term.length :=
  List.length_pos_iff.mpr h.nonempty

theorem head : exists c, term.head? = some c ∧ charCodeAt term 0 = c ∧
    c ∈ term := by
  cases term with
  | nil => exact absurd rfl h.nonempty
  | cons c rest => exact ⟨c, rfl, rfl, List.mem_cons_self⟩

theorem last : exists c, term.getLast? = some c ∧
    charCodeAt term (term.length - 1) = c ∧ c ∈ term := by
  refine ⟨term.getLast h.nonempty, ?_, ?_, List.getLast_mem _⟩
  · exact List.getLast?_eq_some_getLast h.nonempty
  · unfold charCodeAt
    rw [List.getD_eq_getElem?_getD, ← List.getLast?_eq_getElem?,
      List.getLast?_eq_some_getLast h.nonempty]
    rfl

end AsciiTerm

variable {U : Unicode}

theorem wordEdgeChar_ascii {c : Nat} (hc : c < 128)
    (hlower : isAsciiUpper c = false) :
    wordEdgeChar U (some c) = isAsciiLowerEdgeChar c := by
  change (wordChar U c || decide (c = 95)) = _
  rw [wordChar_ascii hc hlower]
  rfl

theorem leadRequired_ascii {term : List Nat} (h : AsciiTerm term) :
    leadRequired U term = asciiLeadRequired term := by
  rcases h.head with ⟨c, hhead, hcode, hmem⟩
  unfold leadRequired asciiLeadRequired
  rw [hhead, hcode]
  exact wordEdgeChar_ascii (h.mem hmem).left (h.mem hmem).right

theorem tailRequired_ascii {term : List Nat} (h : AsciiTerm term) :
    tailRequired U term = asciiTailRequired term := by
  rcases h.last with ⟨c, hlast, hcode, hmem⟩
  unfold tailRequired asciiTailRequired
  rw [hlast, hcode]
  exact wordEdgeChar_ascii (h.mem hmem).left (h.mem hmem).right

theorem allowSuffix_ascii {term : List Nat} (h : AsciiTerm term)
    (inflect : Bool) :
    allowSuffix U term inflect = asciiAllowSuffix term inflect := by
  rcases h.last with ⟨c, hlast, hcode, hmem⟩
  unfold allowSuffix asciiAllowSuffix
  rw [hlast, hcode]
  change (_ && U.letter c) = _
  rw [U.letter_ascii c (h.mem hmem).left]
  unfold isAsciiLetter
  rw [(h.mem hmem).right, Bool.false_or]

theorem rejected_ascii {term : List Nat} (h : AsciiTerm term) :
    rejected U term = asciiRejected term := by
  have hword : hasWordChar U term = hasAsciiWordChar term := by
    unfold hasWordChar hasAsciiWordChar
    rw [h.codePoints_eq]
    have hsame : forall xs : List Nat, (forall c, c ∈ xs -> c ∈ term) ->
        xs.any (wordChar U) = xs.any isAsciiLowerWordChar := by
      intro xs
      induction xs with
      | nil => exact fun _ => rfl
      | cons c xs ih =>
          intro hxs
          have hc := h.mem (hxs c List.mem_cons_self)
          rw [List.any_cons, List.any_cons, wordChar_ascii hc.left hc.right,
            ih fun d hd => hxs d (List.mem_cons_of_mem _ hd)]
    exact hsame term fun _ hc => hc
  unfold rejected asciiRejected
  rw [leadRequired_ascii h, tailRequired_ascii h, hword]

/-- A term that takes a suffix ends in a letter, which is an edge. -/
theorem tailRequired_of_allowSuffix {term : List Nat} {inflect : Bool}
    (h : allowSuffix U term inflect = true) : tailRequired U term = true := by
  unfold allowSuffix at h
  rw [Bool.and_eq_true] at h
  unfold tailRequired
  cases hlast : term.getLast? with
  | none => rfl
  | some c =>
      rw [hlast] at h
      have hletter : U.letter c = true := h.right
      change (U.letter c || U.number c || decide (c = 95)) = true
      rw [hletter]
      rfl

/-!
## Matches of the pattern
-/

/-- What a match takes at a place between two runs of code points. -/
def patternEnd (U : Unicode) (term : List Nat) (inflect : Bool)
    (before after : List Nat) : Option Nat :=
  if leadRequired U term = true ∧ edgeOk U before = false then none
  else if term <+: after then
    (if tailRequired U term then
        tailEnd U (allowSuffix U term inflect) (after.drop term.length)
      else some 0).map fun n => term.length + n
  else none

theorem hit_tailPattern (term : List Nat) (inflect : Bool)
    (before after : List Nat) :
    (tailPattern U false term inflect).hit before after =
      if tailRequired U term then
        tailEnd U (allowSuffix U term inflect) after
      else some 0 := by
  unfold tailPattern tailEnd
  cases hsuffix : allowSuffix U term inflect with
  | true =>
      rw [tailRequired_of_allowSuffix hsuffix]
      exact hit_suffix before after
  | false =>
      rw [if_neg Bool.false_ne_true, Regex.tests_empty.hit_seq, if_pos rfl,
        if_neg Bool.false_ne_true]
      split
      · exact hit_notWordAfter before after
      · rw [Regex.tests_empty.hit, if_pos rfl]

theorem hit_wordPattern {term : List Nat} (h : AsciiTerm term)
    (inflect : Bool) (before after : List Nat) :
    (wordPattern U false term inflect).hit before after =
      patternEnd U term inflect before after := by
  have hword : (Regex.seq (.word (sameChar U false) (codePoints term))
      (tailPattern U false term inflect)).hit before after =
      if term <+: after then
        (if tailRequired U term then
            tailEnd U (allowSuffix U term inflect) (after.drop term.length)
          else some 0).map fun n => term.length + n
      else none := by
    rw [sameChar_false, h.codePoints_eq, Regex.hit_word_seq, hit_tailPattern]
  unfold wordPattern patternEnd
  cases leadRequired U term with
  | true =>
      rw [if_pos rfl, tests_notWordBefore.hit_seq, hword]
      cases edgeOk U before with
      | true => rfl
      | false => rfl
  | false =>
      have hlead : ¬ (false = true ∧ edgeOk U before = false) :=
        fun hboth => Bool.false_ne_true hboth.left
      rw [if_neg hlead, if_neg Bool.false_ne_true,
        Regex.tests_empty.hit_seq, if_pos rfl, hword]

theorem takes_word {xs : List Nat} (h : forall c, c ∈ xs -> c < 128) :
    (Regex.word (sameChar U false) xs).Takes fun c => c < 128 := by
  apply Regex.Takes.word
  intro c hc d hd
  have heq : c = d := beq_iff_eq.mp hd
  rw [← heq]
  exact h c hc

theorem takes_suffix :
    (morphologicalSuffix U false).Takes fun c => c < 128 :=
  ⟨⟨takes_word (by decide), takes_word (by decide), takes_word (by decide),
    takes_word (by decide)⟩, True.intro⟩

theorem takes_wordPattern {term : List Nat} (h : AsciiTerm term)
    (inflect : Bool) :
    (wordPattern U false term inflect).Takes fun c => c < 128 := by
  refine ⟨?_, ?_, ?_, ?_⟩
  · split
    · exact ⟨True.intro, True.intro⟩
    · exact True.intro
  · rw [h.codePoints_eq]
    exact takes_word fun c hc => (h.mem hc).left
  · split
    · exact takes_suffix
    · exact True.intro
  · split
    · exact ⟨True.intro, True.intro⟩
    · exact True.intro

theorem takesAscii_wordPattern {term : List Nat} (h : AsciiTerm term)
    (inflect : Bool) :
    TakesAscii (wordPattern U false term inflect).hit := by
  intro before after n hhit
  have htake := Regex.take_of_hit (takes_wordPattern h inflect) hhit
  refine ⟨?_, htake⟩
  rw [hit_wordPattern h] at hhit
  unfold patternEnd at hhit
  split at hhit
  · cases hhit
  · split at hhit
    · rcases Option.map_eq_some_iff.mp hhit with ⟨m, _, hm⟩
      rw [← hm]
      exact Nat.lt_of_lt_of_le h.length_pos (Nat.le_add_right _ _)
    · cases hhit

/-!
## Verdicts at an occurrence
-/

def occurrences (text term : List Nat) : List Nat :=
  (List.range text.length).filter fun i => term.isPrefixOf (text.drop i)

theorem finds_occurrences (text term : List Nat) :
    Finds (indexOf text term) (occurrences text term) := by
  intro position
  unfold indexOf occurrences
  rw [List.find?_filter]
  congr 1
  funext i
  rw [Bool.decide_and, Bool.decide_eq_true, Bool.decide_eq_true]
  exact Bool.and_comm _ _

theorem occurrences_sorted (text term : List Nat) :
    (occurrences text term).Pairwise (· < ·) :=
  List.pairwise_lt_range.sublist List.filter_sublist

theorem prefix_of_mem_occurrences {text term : List Nat} {i : Nat}
    (h : i ∈ occurrences text term) :
    i < text.length ∧ term <+: text.drop i := by
  rcases List.mem_filter.mp h with ⟨hrange, hprefixed⟩
  exact ⟨List.mem_range.mp hrange, List.isPrefixOf_iff_prefix.mp hprefixed⟩

theorem occurrences_fuel (text term : List Nat) (position : Nat) :
    ((occurrences text term).dropWhile
      fun place => decide (place < position)).length < text.length + 1 := by
  have hdrop := (List.dropWhile_suffix
    (fun place => decide (place < position))
    (l := occurrences text term)).sublist.length_le
  have hfilter : (occurrences text term).length ≤
      (List.range text.length).length :=
    List.filter_sublist.length_le
  rw [List.length_range] at hfilter
  exact Nat.lt_succ_of_le (Nat.le_trans hdrop hfilter)

/-- The verdict that the pattern gives at a place. -/
def patternVerdict (U : Unicode) (text term : List Nat) (inflect : Bool)
    (i : Nat) : Verdict :=
  endVerdict i
    (unitHit (wordPattern U false term inflect).hit (text.take i).reverse
      (text.drop i))

theorem codePoints_occurrence {text term : List Nat} {i : Nat}
    (h : AsciiTerm term) (hprefixed : term <+: text.drop i) :
    codePoints (text.drop i) =
      term ++ codePoints (text.drop (i + term.length)) := by
  rcases hprefixed with ⟨rest, hrest⟩
  have hdrop : text.drop (i + term.length) = rest := by
    rw [← List.drop_drop, ← hrest, List.drop_left]
  rw [hdrop, ← hrest,
    codePoints_append_ascii fun c hc => (h.mem hc).left]

/-- At an occurrence the pattern looks at its two edges only. -/
theorem patternVerdict_occurrence {text term : List Nat} {inflect : Bool}
    {i : Nat} (h : AsciiTerm term) (hprefixed : term <+: text.drop i) :
    patternVerdict U text term inflect i =
      if leadRequired U term = true ∧
          edgeOk U (codePoints (text.take i)).reverse = false then .pass
      else if tailRequired U term then
        endVerdict (i + term.length)
          (tailEnd U (allowSuffix U term inflect)
            (codePoints (text.drop (i + term.length))))
      else .take (i + term.length) := by
  unfold patternVerdict unitHit
  rw [hit_wordPattern h, List.reverse_reverse, codePoints_occurrence h hprefixed]
  unfold patternEnd
  split
  · rfl
  · rw [if_pos (List.prefix_append _ _), List.drop_left]
    split
    · rw [endVerdict_add]
      simp only [Nat.add_comm term.length]
    · rfl

theorem edgeOk_take_zero (text : List Nat) :
    edgeOk U (codePoints (text.take 0)).reverse = true :=
  rfl

theorem edgeOk_take_ascii {text : List Nat} (hlower : Lower text) {i : Nat}
    (hi : 0 < i) (hle : i ≤ text.length)
    (hascii : charCodeAt text (i - 1) < 128) :
    edgeOk U (codePoints (text.take i)).reverse =
      !isAsciiLowerWordChar (charCodeAt text (i - 1)) := by
  have hlt : i - 1 < text.length := by omega
  have hcode : charCodeAt text (i - 1) = text[i - 1] := by
    unfold charCodeAt
    rw [List.getD_eq_getElem?_getD, List.getElem?_eq_getElem hlt]
    rfl
  have htake : text.take i = text.take (i - 1) ++ [text[i - 1]] := by
    have hsucc := List.take_succ_eq_append_getElem hlt
    rw [Nat.sub_add_cancel hi] at hsucc
    exact hsucc
  rw [hcode] at hascii ⊢
  rw [htake, codePoints_snoc_ascii _ hascii, List.reverse_append]
  exact edgeOk_ascii hascii (hlower _ (List.getElem_mem hlt))

/-- Where the scan does not give up, it decides as the pattern does. -/
theorem termVerdict_eq {text term : List Nat} {inflect : Bool} {i : Nat}
    (hlower : Lower text) (h : AsciiTerm term)
    (hi : i ∈ occurrences text term)
    (hgoing : termVerdict text term inflect i ≠ .giveUp) :
    termVerdict text term inflect i =
      patternVerdict U text term inflect i := by
  rcases prefix_of_mem_occurrences hi with ⟨hlt, hprefixed⟩
  rw [patternVerdict_occurrence h hprefixed, leadRequired_ascii h,
    tailRequired_ascii h, allowSuffix_ascii h]
  unfold termVerdict asciiVerdict at hgoing ⊢
  have hedge : (asciiLeadRequired term = true ∧ 0 < i ∧
        isAsciiLowerWordChar (charCodeAt text (i - 1)) = true) <->
      (asciiLeadRequired term = true ∧
        edgeOk U (codePoints (text.take i)).reverse = false) := by
    rcases Nat.eq_zero_or_pos i with hzero | hpos
    · rw [hzero, edgeOk_take_zero]
      simp
    · by_cases hlead : asciiLeadRequired term = true
      · have hascii : charCodeAt text (i - 1) < 128 := by
          apply Nat.lt_of_not_le
          intro hwide
          rw [if_pos ⟨hlead, hpos, hwide⟩] at hgoing
          exact hgoing rfl
        rw [edgeOk_take_ascii hlower hpos (Nat.le_of_lt hlt) hascii]
        simp [hpos]
      · simp [hlead]
  split
  · rename_i hwide
    rw [if_pos hwide] at hgoing
    exact absurd rfl hgoing
  · rename_i hwide
    rw [if_neg hwide] at hgoing
    by_cases hword : asciiLeadRequired term = true ∧ 0 < i ∧
        isAsciiLowerWordChar (charCodeAt text (i - 1)) = true
    · rw [if_pos hword, if_pos (hedge.mp hword)]
    · rw [if_neg hword] at hgoing ⊢
      rw [if_neg fun hbad => hword (hedge.mpr hbad)]
      cases htail : asciiTailRequired term with
      | false => rfl
      | true =>
          rw [htail] at hgoing
          exact tailVerdict_eq hlower hgoing

theorem hit_tailSticky (suffix : Bool) (before after : List Nat) :
    (tailSticky U suffix).hit before after = tailEnd U suffix after := by
  cases suffix with
  | true => exact hit_suffix before after
  | false => exact hit_notWordAfter before after

theorem takes_tailSticky (suffix : Bool) :
    (tailSticky U suffix).Takes fun c => c < 128 := by
  cases suffix with
  | true => exact ⟨takes_suffix, True.intro, True.intro⟩
  | false => exact ⟨True.intro, True.intro⟩

theorem stickyEnd_tail (suffix : Bool) (text : List Nat) (afterIdx : Nat) :
    (match stickyEnd (tailSticky U suffix) text afterIdx with
      | some lastIndex => Verdict.take lastIndex
      | none => .pass) =
      endVerdict afterIdx
        (tailEnd U suffix (codePoints (text.drop afterIdx))) := by
  unfold stickyEnd
  dsimp only
  rw [← hit_tailSticky suffix (codePoints (text.take afterIdx)).reverse]
  cases hhit : (tailSticky U suffix).hit
      (codePoints (text.take afterIdx)).reverse
      (codePoints (text.drop afterIdx)) with
  | none => rfl
  | some n =>
      rcases Regex.take_of_hit (takes_tailSticky suffix) hhit with
        ⟨hle, hascii⟩
      change Verdict.take (afterIdx + unitLength _) =
        Verdict.take (afterIdx + n)
      rw [unitLength_ascii hascii, List.length_take, Nat.min_eq_left hle]

/-- The sticky patterns decide as the whole pattern does. -/
theorem longVerdict_eq {text term : List Nat} {inflect : Bool} {i : Nat}
    (h : AsciiTerm term) (hi : i ∈ occurrences text term) :
    longVerdict U text term inflect i =
      patternVerdict U text term inflect i := by
  rcases prefix_of_mem_occurrences hi with ⟨_, hprefixed⟩
  have hlead : (stickyEnd (leadSticky U) text i).isNone =
      !edgeOk U (codePoints (text.take i)).reverse := by
    unfold stickyEnd leadSticky
    dsimp only
    rw [Option.isNone_map, tests_notWordBefore.hit]
    cases edgeOk U (codePoints (text.take i)).reverse with
    | true => rfl
    | false => rfl
  rw [patternVerdict_occurrence h hprefixed]
  unfold longVerdict
  rw [hlead]
  cases hedge : edgeOk U (codePoints (text.take i)).reverse with
  | false =>
      cases hrequired : leadRequired U term with
      | true => rfl
      | false =>
          cases htail : tailRequired U term with
          | true => exact stickyEnd_tail _ _ _
          | false => rfl
  | true =>
      cases hrequired : leadRequired U term with
      | true =>
          cases htail : tailRequired U term with
          | true => exact stickyEnd_tail _ _ _
          | false => rfl
      | false =>
          cases htail : tailRequired U term with
          | true => exact stickyEnd_tail _ _ _
          | false => rfl

/-!
## Whole scans
-/

theorem endVerdict_forward {start place after : Nat} {found : Option Nat}
    (h : endVerdict start found = .take after) (hplace : place < start) :
    place < after := by
  cases found with
  | none => cases h
  | some n =>
      injection h with h
      rw [← h]
      exact Nat.lt_of_lt_of_le hplace (Nat.le_add_right _ _)

/-- A match may end at the end of a text, and otherwise beside ASCII. -/
def EndsBesideAscii (text : List Nat) (p : Nat) : Prop :=
  text.length ≤ p ∨ charCodeAt text p < 128

theorem suffixVerdict_take {text : List Nat} {p after : Nat}
    (h : suffixVerdict text p = .take after) :
    after = p ∧ EndsBesideAscii text after := by
  unfold suffixVerdict at h
  split at h
  · rename_i hend
    injection h with h
    rw [← h]
    exact ⟨rfl, Or.inl hend⟩
  · split at h
    · cases h
    · rename_i hascii
      split at h
      · cases h
      · injection h with h
        rw [← h]
        exact ⟨rfl, Or.inr (Nat.lt_of_not_le hascii)⟩

theorem tailVerdict_take {text : List Nat} {suffix : Bool}
    {afterIdx after : Nat}
    (h : tailVerdict text suffix afterIdx = .take after) :
    afterIdx ≤ after ∧ EndsBesideAscii text after := by
  have hsuffix : forall k, suffixVerdict text (afterIdx + k) = .take after ->
      afterIdx ≤ after ∧ EndsBesideAscii text after := by
    intro k hk
    rcases suffixVerdict_take hk with ⟨heq, hend⟩
    refine ⟨?_, hend⟩
    rw [heq]
    exact Nat.le_add_right _ _
  unfold tailVerdict at h
  split at h
  · rename_i hend
    injection h with h
    rw [← h]
    exact ⟨Nat.le_refl _, Or.inl hend⟩
  · dsimp only at h
    split at h
    · cases h
    · rename_i hascii
      split at h
      · injection h with h
        rw [← h]
        exact ⟨Nat.le_refl _, Or.inr (Nat.lt_of_not_le hascii)⟩
      · split at h
        · cases h
        · split at h
          · exact hsuffix 1 h
          · split at h
            · split at h
              · cases h
              · split at h
                · exact hsuffix 2 h
                · cases h
            · split at h
              · split at h
                · cases h
                · split at h
                  · exact hsuffix 3 h
                  · cases h
              · cases h

theorem asciiVerdict_take {text : List Nat} {lead tail suffix : Bool}
    {termLen idx after : Nat}
    (h : asciiVerdict text lead tail suffix termLen idx = .take after) :
    idx + termLen ≤ after ∧ (tail = true -> EndsBesideAscii text after) ∧
      (lead = true -> 0 < idx -> charCodeAt text (idx - 1) < 128) := by
  unfold asciiVerdict at h
  split at h
  · cases h
  · rename_i hwide
    have hlead : lead = true -> 0 < idx ->
        charCodeAt text (idx - 1) < 128 := by
      intro hlead hidx
      apply Nat.lt_of_not_le
      intro hbad
      exact hwide ⟨hlead, hidx, hbad⟩
    split at h
    · cases h
    · split at h
      · rename_i htail
        injection h with h
        refine ⟨Nat.le_of_eq h, ?_, hlead⟩
        intro hrequired
        rw [hrequired] at htail
        cases htail
      · rcases tailVerdict_take h with ⟨hle, hend⟩
        exact ⟨hle, fun _ => hend, hlead⟩

theorem termVerdict_forward {text term : List Nat} {inflect : Bool}
    (h : AsciiTerm term) :
    forall place after,
      termVerdict text term inflect place = .take after -> place < after := by
  intro place after htake
  exact Nat.lt_of_lt_of_le (Nat.lt_add_of_pos_right h.length_pos)
    (asciiVerdict_take htake).left

theorem prefix_units {xs ys : List Nat} (h : forall c, c ∈ xs -> c < 128)
    (hprefixed : xs <+: codePoints ys) : xs <+: ys := by
  induction xs generalizing ys with
  | nil => exact List.nil_prefix
  | cons c xs ih =>
      cases ys with
      | nil => exact hprefixed
      | cons u ys =>
          rcases Nat.lt_or_ge u 128 with hu | hu
          · rw [codePoints_cons_ascii hu, List.cons_prefix_cons] at hprefixed
            rw [List.cons_prefix_cons]
            exact ⟨hprefixed.left,
              ih (fun d hd => h d (List.mem_cons_of_mem _ hd)) hprefixed.right⟩
          · rcases @codePoints_head_wide _ ys hu with ⟨d, ds, hds, hd⟩
            rw [hds, List.cons_prefix_cons] at hprefixed
            have hc := h c List.mem_cons_self
            rw [hprefixed.left] at hc
            exact absurd hc (Nat.not_lt.mpr hd)

theorem patternVerdict_elsewhere {text term : List Nat} {inflect : Bool}
    {i : Nat} (h : AsciiTerm term) (hprefixed : ¬ term <+: text.drop i) :
    patternVerdict U text term inflect i = .pass := by
  have hpoints : ¬ term <+: codePoints (text.drop i) :=
    fun hbad => hprefixed (prefix_units (fun c hc => (h.mem hc).left) hbad)
  unfold patternVerdict unitHit
  rw [hit_wordPattern h]
  unfold patternEnd
  rw [if_neg hpoints]
  split
  · rfl
  · rfl

/-- The count of all matches by a scan that asks the pattern. -/
theorem scan_patternVerdict {text term : List Nat} {inflect : Bool}
    {maxCount : Nat} (h : AsciiTerm term) :
    (scan (patternVerdict U text term inflect) maxCount Cursor.start
        (occurrences text term)).outcome =
      some (min maxCount
        ((wordPattern U false term inflect).countMatches
          (codePoints text))) := by
  have hascii := takesAscii_wordPattern (U := U) h inflect
  have hverdict : forall passed a rest, text = passed ++ a :: rest ->
      (if term.isPrefixOf (text.drop (([] : List Nat).length + passed.length)) then
          patternVerdict U text term inflect (([] : List Nat).length + passed.length)
        else .pass) =
        endVerdict passed.length
          (unitHit (wordPattern U false term inflect).hit
            (passed.reverse ++ []) (a :: rest)) := by
    intro passed a rest hsplit
    have hplace : patternVerdict U text term inflect passed.length =
        endVerdict passed.length
          (unitHit (wordPattern U false term inflect).hit
            (passed.reverse ++ []) (a :: rest)) := by
      unfold patternVerdict
      rw [hsplit, List.take_left, List.drop_left, List.append_nil]
    rw [List.length_nil, Nat.zero_add, ← hplace]
    split
    · rfl
    · rename_i hprefixed
      rw [patternVerdict_elsewhere h fun hbad =>
        hprefixed (List.isPrefixOf_iff_prefix.mpr hbad)]
  have hcount := @scan_count _
    (fun i =>
      if term.isPrefixOf (text.drop i) then
        patternVerdict U text term inflect i
      else .pass)
    maxCount (unitHit (wordPattern U false term inflect).hit) [] text
    Cursor.start
    (by
      intro passed a rest hsplit hnone
      rw [hverdict passed a rest hsplit, hnone]
      rfl)
    (by
      intro passed a rest n hsplit hsome
      have htake := hascii _ _ n hsome
      refine ⟨htake.left, ?_⟩
      rw [hverdict passed a rest hsplit, hsome, List.length_nil,
        Nat.zero_add]
      rfl)
    (hascii.none_of_nil _) (Nat.zero_le _) rfl
  unfold occurrences
  rw [scan_filter, List.range_eq_range']
  refine Eq.trans hcount ?_
  have hapart : Apart ([] : List Nat).reverse text := by
    intro u v hu
    cases hu
  change some (min maxCount (0 +
    countHits (unitHit (wordPattern U false term inflect).hit) [] 0 text)) = _
  rw [countHits_unitHit hascii hapart (ascii_units_zero text), Nat.zero_add]
  rfl

theorem scanWordOccurrences_eq {text term : List Nat} {inflect : Bool}
    {maxCount : Nat} (h : AsciiTerm term) (hmax : 0 < maxCount) :
    scanWordOccurrences text term inflect maxCount =
      (scan (termVerdict text term inflect) maxCount Cursor.start
        (occurrences text term)).outcome := by
  unfold scanWordOccurrences
  exact loop_eq_scan (finds_occurrences text term)
    (occurrences_sorted text term) (termVerdict_forward h) hmax
    (occurrences_fuel text term 0)

theorem termVerdict_agrees {text term : List Nat} {inflect : Bool}
    (hlower : Lower text) (h : AsciiTerm term) :
    AgreesUntil (termVerdict text term inflect)
      (patternVerdict U text term inflect) (occurrences text term) := by
  intro i hi hgoing
  exact termVerdict_eq hlower h hi hgoing

/-- A scan that does not give up counts the matches of the pattern. -/
theorem scanWordOccurrences_count {text term : List Nat} {inflect : Bool}
    {maxCount n : Nat} (hlower : Lower text) (h : AsciiTerm term)
    (hmax : 0 < maxCount)
    (hscan : scanWordOccurrences text term inflect maxCount = some n) :
    n = min maxCount
      ((wordPattern U false term inflect).countMatches (codePoints text)) := by
  rw [scanWordOccurrences_eq h hmax] at hscan
  have hpattern := scan_outcome_of_agrees
    (termVerdict_agrees (U := U) hlower h) hscan
  rw [scan_patternVerdict h] at hpattern
  injection hpattern with hpattern
  exact hpattern.symm

/-- The scan with sticky patterns counts the matches of the pattern. -/
theorem countLongWordOccurrences_eq {text term : List Nat} {inflect : Bool}
    {maxCount : Nat} (h : AsciiTerm term) (hmax : 0 < maxCount)
    (hkept : rejected U term = false) :
    countLongWordOccurrences U text term inflect maxCount =
      min maxCount
        ((wordPattern U false term inflect).countMatches
          (codePoints text)) := by
  have hforward : forall place after,
      longVerdict U text term inflect place = .take after ->
        place < after := by
    intro place after htake
    have hlater : place < place + term.length :=
      Nat.lt_add_of_pos_right h.length_pos
    unfold longVerdict at htake
    split at htake
    · cases htake
    · dsimp only at htake
      split at htake
      · injection htake with htake
        rw [← htake]
        exact hlater
      · exact endVerdict_forward
          ((stickyEnd_tail _ text _).symm.trans htake) hlater
  have hagree : AgreesUntil (longVerdict U text term inflect)
      (patternVerdict U text term inflect) (occurrences text term) :=
    fun i hi _ => longVerdict_eq h hi
  have hback : AgreesUntil (patternVerdict U text term inflect)
      (longVerdict U text term inflect) (occurrences text term) :=
    fun i hi _ => (longVerdict_eq h hi).symm
  unfold countLongWordOccurrences
  rw [hkept, if_neg Bool.false_ne_true,
    loop_eq_scan (finds_occurrences text term) (occurrences_sorted text term)
      hforward hmax (occurrences_fuel text term 0)]
  change ((scan (longVerdict U text term inflect) maxCount Cursor.start
    (occurrences text term)).outcome).getD 0 = _
  rw [scan_outcome_of_agrees hback (scan_patternVerdict h)]
  rfl

end Vault
end Minni
