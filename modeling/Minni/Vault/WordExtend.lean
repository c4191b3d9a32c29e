import Minni.Vault.WordCountLaw

/-!
# Terms that a longer text still holds

What the scan takes the reference pattern matches as well, and a term that is
counted in a line is counted in every text that begins with that line.
-/

namespace Minni
namespace Vault

open Foundation
open Foundation.Scan

variable {U : Unicode} {text term : List Nat} {inflect : Bool}
  {maxCount : Nat}

/-!
## A match of the reference at what the scan takes
-/

/-- Nothing, or a symbol of lower-case ASCII, is next. -/
def AsciiNext (neighbours : List Nat) : Prop :=
  forall c, neighbours.head? = some c -> AsciiLower c

theorem tests_notWordBefore_folded :
    Regex.Tests (notWordBefore U true) fun place =>
      (place.before.head?.any U.wordFolded == false) ||
        (place.before.head?.any U.noSeparatorFolded == true) :=
  (Regex.tests_behind _ _).alt (Regex.tests_behind _ _)

theorem tests_notWordAfter_folded :
    Regex.Tests (notWordAfter U true) fun place =>
      (place.after.head?.any U.wordFolded == false) ||
        (place.after.head?.any U.noSeparatorFolded == true) :=
  (Regex.tests_ahead _ _).alt (Regex.tests_ahead _ _)

theorem edgeOk_folded {neighbours : List Nat} (h : AsciiNext neighbours) :
    ((neighbours.head?.any U.wordFolded == false) ||
      (neighbours.head?.any U.noSeparatorFolded == true)) =
      edgeOk U neighbours := by
  unfold edgeOk
  cases neighbours with
  | nil => rfl
  | cons c rest =>
      have hc : AsciiLower c := h c rfl
      change ((U.wordFolded c == false) || (U.noSeparatorFolded c == true)) =
        ((wordChar U c == false) || (U.noSeparator c == true))
      rw [wordFolded_ascii hc, noSeparatorFolded_ascii hc]

theorem ends_word_self (xs before rest : List Nat) :
    (Regex.word (sameChar U true) xs).ends ⟨before, xs ++ rest⟩ =
      [⟨xs.reverse ++ before, rest⟩] := by
  induction xs generalizing before with
  | nil => rfl
  | cons c xs ih =>
      have hself : sameChar U true c c = true := beq_self_eq_true (U.fold c)
      rw [Regex.word, Regex.ends_seq, List.cons_append, Regex.ends_one_cons,
        if_pos hself, List.flatMap_singleton, ih, List.reverse_cons,
        List.append_assoc]
      rfl

theorem mem_ends_word_self (xs before rest : List Nat) :
    (⟨xs.reverse ++ before, rest⟩ : Regex.Place Nat) ∈
      (Regex.word (sameChar U true) xs).ends ⟨before, xs ++ rest⟩ := by
  rw [ends_word_self]
  exact List.mem_singleton_self _

/-- The suffixes, with the empty one for none. -/
def suffixes : List (List Nat) :=
  [[115], [101, 115], [105, 110, 103], [101, 100], []]

theorem mem_ends_suffix {w : List Nat} (hw : w ∈ suffixes)
    (before rest : List Nat) :
    (⟨w.reverse ++ before, rest⟩ : Regex.Place Nat) ∈
      (morphologicalSuffix U true).ends ⟨before, w ++ rest⟩ := by
  have hself := mem_ends_word_self (U := U) w before rest
  unfold morphologicalSuffix Regex.optional
  simp only [Regex.ends_alt, List.mem_append]
  unfold suffixes at hw
  rcases List.mem_cons.mp hw with hs | hw
  · rw [hs] at hself ⊢
    exact Or.inl (Or.inl hself)
  · rcases List.mem_cons.mp hw with hes | hw
    · rw [hes] at hself ⊢
      exact Or.inl (Or.inr (Or.inl hself))
    · rcases List.mem_cons.mp hw with hing | hw
      · rw [hing] at hself ⊢
        exact Or.inl (Or.inr (Or.inr (Or.inl hself)))
      · rcases List.mem_cons.mp hw with hed | hw
        · rw [hed] at hself ⊢
          exact Or.inl (Or.inr (Or.inr (Or.inr hself)))
        · rw [List.mem_singleton.mp hw]
          exact Or.inr (List.mem_singleton_self _)

theorem endsWith_some {suffix after : List Nat} {n : Nat}
    (h : endsWith U suffix after = some n) :
    suffix <+: after ∧ edgeOk U (after.drop suffix.length) = true ∧
      n = suffix.length := by
  unfold endsWith at h
  split at h
  · rename_i hboth
    injection h with h
    exact ⟨hboth.left, hboth.right, h.symm⟩
  · cases h

/-- What the end takes is one of the suffixes, if it may be inflected. -/
theorem tailEnd_some {suffix : Bool} {after : List Nat} {n : Nat}
    (h : tailEnd U suffix after = some n) :
    exists w, w ∈ suffixes ∧ (suffix = false -> w = []) ∧ w <+: after ∧
      edgeOk U (after.drop w.length) = true ∧ n = w.length := by
  have hfound : forall w, w ∈ suffixes -> (suffix = false -> w = []) ->
      endsWith U w after = some n ->
        exists w, w ∈ suffixes ∧ (suffix = false -> w = []) ∧ w <+: after ∧
          edgeOk U (after.drop w.length) = true ∧ n = w.length :=
    fun w hw hnone hend => ⟨w, hw, hnone, endsWith_some hend⟩
  unfold tailEnd at h
  split at h
  · rename_i hsuffix
    have hany : forall {w : List Nat}, suffix = false -> w = [] := by
      intro w hfalse
      rw [hfalse] at hsuffix
      cases hsuffix
    rw [Option.or_eq_some_iff, Option.or_eq_some_iff, Option.or_eq_some_iff,
      Option.or_eq_some_iff] at h
    unfold suffixes at hfound ⊢
    rcases h with (hs | ⟨_, hes | ⟨_, hing | ⟨_, hed⟩⟩⟩) | ⟨_, hnone⟩
    · exact hfound [115] (by simp) hany hs
    · exact hfound [101, 115] (by simp) hany hes
    · exact hfound [105, 110, 103] (by simp) hany hing
    · exact hfound [101, 100] (by simp) hany hed
    · exact hfound [] (by simp) hany hnone
  · exact hfound [] (by unfold suffixes; simp) (fun _ => rfl) h

theorem asciiNext_before {i : Nat} (hlower : Lower text)
    (hle : i ≤ text.length)
    (hascii : 0 < i -> charCodeAt text (i - 1) < 128) :
    AsciiNext (codePoints (text.take i)).reverse := by
  intro c hc
  rcases Nat.eq_zero_or_pos i with hzero | hpos
  · rw [hzero] at hc
    cases hc
  · have hlt : i - 1 < text.length := by omega
    have hcode : charCodeAt text (i - 1) = text[i - 1] := by
      unfold charCodeAt
      rw [List.getD_eq_getElem?_getD, List.getElem?_eq_getElem hlt]
      rfl
    have htake : text.take i = text.take (i - 1) ++ [text[i - 1]] := by
      have hsucc := List.take_succ_eq_append_getElem hlt
      rw [Nat.sub_add_cancel hpos] at hsucc
      exact hsucc
    have hlow := hascii hpos
    rw [hcode] at hlow
    rw [htake, codePoints_snoc_ascii _ hlow, List.reverse_append] at hc
    injection hc with hc
    rw [← hc]
    exact ⟨hlow, hlower _ (List.getElem_mem hlt)⟩

theorem asciiNext_after {p : Nat} (hlower : Lower text)
    (hend : EndsBesideAscii text p) :
    AsciiNext (codePoints (text.drop p)) := by
  intro c hc
  cases hdrop : text.drop p with
  | nil =>
      rw [hdrop] at hc
      cases hc
  | cons d rest =>
      have hcode := charCodeAt_drop text p 0
      rw [Nat.add_zero, hdrop] at hcode
      change charCodeAt text p = d at hcode
      have hd : d < 128 := by
        rcases hend with hstop | hascii
        · rw [List.drop_eq_nil_of_le hstop] at hdrop
          cases hdrop
        · rw [hcode] at hascii
          exact hascii
      rw [hdrop, codePoints_cons_ascii hd] at hc
      injection hc with hc
      rw [← hc]
      refine ⟨hd, hlower.drop p d ?_⟩
      rw [hdrop]
      exact List.mem_cons_self

/-- The code points behind a suffix of ASCII are those of the code units
behind it. -/
theorem codePoints_suffix {p : Nat} {w : List Nat}
    (hw : forall c, c ∈ w -> c < 128)
    (hprefixed : w <+: codePoints (text.drop p)) :
    codePoints (text.drop p) =
      w ++ codePoints (text.drop (p + w.length)) := by
  rcases prefix_units hw hprefixed with ⟨rest, hrest⟩
  have hdrop : text.drop (p + w.length) = rest := by
    rw [← List.drop_drop, ← hrest, List.drop_left]
  rw [hdrop, ← hrest, codePoints_append_ascii hw]

theorem suffixes_ascii {w : List Nat} (hw : w ∈ suffixes) :
    forall c, c ∈ w -> c < 128 := by
  revert w
  unfold suffixes
  decide

theorem mem_ends_of_tests {r : Regex Nat}
    {holds : Regex.Place Nat -> Bool} (h : Regex.Tests r holds)
    {place : Regex.Place Nat} (hplace : holds place = true) :
    place ∈ r.ends place := by
  rcases h place with ⟨times, hends, hpos⟩
  rw [hends]
  apply List.mem_replicate.mpr
  exact ⟨Nat.ne_of_gt (hpos.mpr hplace), rfl⟩

/-- The end of the pattern, behind an occurrence that the scan takes. -/
theorem mem_ends_tail {i after : Nat} (hlower : Lower text)
    (h : AsciiTerm term) (hi : i ∈ occurrences text term)
    (htake : termVerdict text term inflect i = .take after)
    (before : List Nat) :
    exists stop, stop ∈ (tailPattern U true term inflect).ends
      ⟨before, codePoints (text.drop (i + term.length))⟩ := by
  have hpattern := termVerdict_eq (U := U) hlower h hi (by
    rw [htake]
    intro hbad
    cases hbad)
  have hbeside := (asciiVerdict_take htake).right.left
  rw [htake, patternVerdict_occurrence h (prefix_of_mem_occurrences hi).right]
    at hpattern
  split at hpattern
  · cases hpattern
  · unfold tailPattern
    simp only [Regex.ends_seq, List.mem_flatMap]
    cases htail : tailRequired U term with
    | false =>
        have hsuffix : allowSuffix U term inflect = false := by
          cases hallow : allowSuffix U term inflect with
          | false => rfl
          | true =>
              rw [tailRequired_of_allowSuffix hallow] at htail
              cases htail
        rw [hsuffix]
        exact ⟨_, _, List.mem_singleton_self _, List.mem_singleton_self _⟩
    | true =>
        rw [htail, if_pos rfl] at hpattern
        cases hend : tailEnd U (allowSuffix U term inflect)
            (codePoints (text.drop (i + term.length))) with
        | none =>
            rw [hend] at hpattern
            cases hpattern
        | some n =>
            rw [hend] at hpattern
            injection hpattern with hafter
            rcases tailEnd_some hend with
              ⟨w, hw, hnone, hprefixed, hedge, hn⟩
            have hsplit := codePoints_suffix (suffixes_ascii hw) hprefixed
            rw [hsplit, List.drop_left] at hedge
            rw [tailRequired_ascii h] at htail
            have hnext := asciiNext_after hlower (hbeside htail)
            rw [hafter, hn] at hnext
            rw [hsplit]
            refine ⟨_, ⟨w.reverse ++ before, _⟩, ?_,
              mem_ends_of_tests tests_notWordAfter_folded
                ((edgeOk_folded hnext).trans hedge)⟩
            cases hallow : allowSuffix U term inflect with
            | true => exact mem_ends_suffix hw before _
            | false =>
                rw [hnone hallow]
                exact List.mem_singleton_self _

theorem apart_occurrence {i : Nat} (h : AsciiTerm term)
    (hprefixed : term <+: text.drop i) : Apart (text.take i) (text.drop i) := by
  rcases hprefixed with ⟨rest, hrest⟩
  rw [← hrest]
  cases hterm : term with
  | nil => exact absurd hterm h.nonempty
  | cons d ds =>
      apply apart_of_ascii_right
      apply (h.mem _).left
      rw [hterm]
      exact List.mem_cons_self

/-- What the scan takes at a place, the reference pattern matches there. -/
theorem mem_ends_of_take {i after : Nat} (hlower : Lower text)
    (h : AsciiTerm term) (hi : i ∈ occurrences text term)
    (htake : termVerdict text term inflect i = .take after) :
    exists stop, stop ∈ (wordPattern U true term inflect).ends
      ⟨(codePoints (text.take i)).reverse, codePoints (text.drop i)⟩ := by
  rcases prefix_of_mem_occurrences hi with ⟨hlt, hprefixed⟩
  have hpattern := termVerdict_eq (U := U) hlower h hi (by
    rw [htake]
    intro hbad
    cases hbad)
  have hlead := (asciiVerdict_take htake).right.right
  rw [htake, patternVerdict_occurrence h hprefixed] at hpattern
  rcases mem_ends_tail (U := U) hlower h hi htake
    (term.reverse ++ (codePoints (text.take i)).reverse) with ⟨stop, hstop⟩
  rw [codePoints_occurrence h hprefixed]
  refine ⟨stop, ?_⟩
  unfold wordPattern
  rw [Regex.ends_seq, List.mem_flatMap]
  refine ⟨⟨(codePoints (text.take i)).reverse,
    term ++ codePoints (text.drop (i + term.length))⟩, ?_, ?_⟩
  · cases hrequired : leadRequired U term with
    | false => exact List.mem_singleton_self _
    | true =>
        apply mem_ends_of_tests tests_notWordBefore_folded
        rw [leadRequired_ascii h] at hrequired
        refine (edgeOk_folded (asciiNext_before hlower (Nat.le_of_lt hlt)
          (hlead hrequired))).trans ?_
        cases hedge : edgeOk U (codePoints (text.take i)).reverse with
        | true => rfl
        | false =>
            rw [leadRequired_ascii h, hrequired,
              if_pos ⟨rfl, hedge⟩] at hpattern
            cases hpattern
  · rw [Regex.ends_seq, List.mem_flatMap, h.codePoints_eq]
    exact ⟨_, mem_ends_word_self term _ _, hstop⟩

theorem countMatches_pos_of_take {i after : Nat} (hlower : Lower text)
    (h : AsciiTerm term) (hi : i ∈ occurrences text term)
    (htake : termVerdict text term inflect i = .take after) :
    0 < (wordPattern U true term inflect).countMatches (codePoints text) := by
  have hsplit : codePoints text =
      codePoints (text.take i) ++ codePoints (text.drop i) := by
    rw [← codePoints_append
      (apart_occurrence h (prefix_of_mem_occurrences hi).right),
      List.take_append_drop]
  exact Regex.countMatches_pos_iff.mpr
    ⟨_, _, hsplit, mem_ends_of_take hlower h hi htake⟩

/-!
## A line and what stands below it
-/

/-- A line, and what stands below it if there is more. -/
def below (line : List Nat) : Option (List Nat) -> List Nat
  | none => line
  | some more => line ++ 10 :: more

variable {line : List Nat} (more : Option (List Nat))

theorem take_below {i : Nat} (hi : i ≤ line.length) :
    (below line more).take i = line.take i := by
  cases more with
  | none => rfl
  | some more => exact List.take_append_of_le_length hi

theorem drop_below {i : Nat} (hi : i ≤ line.length) :
    (below line more).drop i = below (line.drop i) more := by
  cases more with
  | none => rfl
  | some more => exact List.drop_append_of_le_length hi

theorem prefix_below : line <+: below line more := by
  cases more with
  | none => exact List.prefix_refl line
  | some more => exact List.prefix_append line (10 :: more)

theorem length_le_below : line.length ≤ (below line more).length :=
  (prefix_below more).length_le

theorem charCodeAt_below {i : Nat} (hi : i < line.length) :
    charCodeAt (below line more) i = charCodeAt line i := by
  cases more with
  | none => rfl
  | some more =>
      unfold charCodeAt below
      rw [List.getD_eq_getElem?_getD, List.getD_eq_getElem?_getD,
        List.getElem?_append_left hi]

theorem mem_occurrences_below {i : Nat} (hi : i ∈ occurrences line term) :
    i ∈ occurrences (below line more) term := by
  rcases prefix_of_mem_occurrences hi with ⟨hlt, hprefixed⟩
  apply List.mem_filter.mpr
  constructor
  · exact List.mem_range.mpr (Nat.lt_of_lt_of_le hlt (length_le_below more))
  · apply List.isPrefixOf_iff_prefix.mpr
    rw [drop_below more (Nat.le_of_lt hlt)]
    exact List.IsPrefix.trans hprefixed (prefix_below more)

theorem occurrence_fits {i : Nat} (hi : i ∈ occurrences line term) :
    i + term.length ≤ line.length := by
  rcases prefix_of_mem_occurrences hi with ⟨hlt, hprefixed⟩
  have hlength := hprefixed.length_le
  rw [List.length_drop] at hlength
  omega

theorem mem_of_indexOf_eq_some {first : Nat}
    (h : indexOf text term 0 = some first) : first ∈ occurrences text term := by
  rw [finds_occurrences text term 0] at h
  exact List.mem_of_find?_eq_some h

/-!
No look-ahead of a pattern asks for the end of a line.
-/

theorem notWordAfter_stops (ignoreCase : Bool) :
    (notWordAfter U ignoreCase).StopsAt 10 := by
  have hnewline : AsciiLower 10 := ⟨by decide, by decide⟩
  have hword : wordChar U 10 = false := by
    rw [wordChar_ascii hnewline.left hnewline.right]
    rfl
  cases ignoreCase with
  | false => exact ⟨hword, U.noSeparator_latin 10 (Or.inl (by decide))⟩
  | true =>
      constructor
      · change U.wordFolded 10 = false
        rw [wordFolded_ascii hnewline, hword]
      · change U.noSeparatorFolded 10 = false
        rw [noSeparatorFolded_ascii hnewline]
        exact U.noSeparator_latin 10 (Or.inl (by decide))

theorem word_stops (test : Nat -> Nat -> Bool) (xs : List Nat) :
    (Regex.word test xs).StopsAt 10 := by
  induction xs with
  | nil => exact True.intro
  | cons c xs ih => exact ⟨True.intro, ih⟩

theorem suffix_stops (ignoreCase : Bool) :
    (morphologicalSuffix U ignoreCase).StopsAt 10 :=
  ⟨⟨word_stops _ _, word_stops _ _, word_stops _ _, word_stops _ _⟩,
    True.intro⟩

theorem wordPattern_stops (ignoreCase : Bool) (term : List Nat)
    (inflect : Bool) :
    (wordPattern U ignoreCase term inflect).StopsAt 10 := by
  refine ⟨?_, word_stops _ _, ?_, ?_⟩
  · split
    · exact ⟨True.intro, True.intro⟩
    · exact True.intro
  · split
    · exact suffix_stops ignoreCase
    · exact True.intro
  · split
    · exact notWordAfter_stops ignoreCase
    · exact True.intro

theorem leadSticky_stops : (leadSticky U).StopsAt 10 :=
  ⟨True.intro, True.intro⟩

theorem tailSticky_stops (withSuffix : Bool) :
    (tailSticky U withSuffix).StopsAt 10 := by
  cases withSuffix with
  | false => exact notWordAfter_stops false
  | true => exact ⟨suffix_stops false, notWordAfter_stops false⟩

theorem countMatches_below {r : Regex Nat} (hstops : r.StopsAt 10)
    (h : 0 < r.countMatches (codePoints line)) :
    0 < r.countMatches (codePoints (below line more)) := by
  cases more with
  | none => exact h
  | some more =>
      unfold below
      rw [codePoints_append (apart_of_ascii_right (by decide)),
        codePoints_cons_ascii (by decide)]
      exact Regex.countMatches_pos_append hstops (codePoints more) h

/-- A pattern that is met at the start of a line is met in the text as
well. -/
theorem hit_below {r : Regex Nat} (hstops : r.StopsAt 10)
    (before : List Nat) (h : (r.hit before (codePoints line)).isSome = true) :
    (r.hit before (codePoints (below line more))).isSome = true := by
  cases more with
  | none => exact h
  | some more =>
      unfold below
      rw [codePoints_append (apart_of_ascii_right (by decide)),
        codePoints_cons_ascii (by decide)]
      rcases Option.isSome_iff_exists.mp h with ⟨n, hn⟩
      rcases Regex.exists_mem_ends_of_hit hn with ⟨stop, hstop⟩
      have hlonger := Regex.extend_mem_ends hstops (codePoints more) hstop
      rcases Regex.exists_hit_of_mem_ends hlonger with ⟨m, hm⟩
      exact Option.isSome_iff_exists.mpr ⟨m, hm⟩

theorem stickyEnd_below {pattern : Regex Nat} (hstops : pattern.StopsAt 10)
    {idx : Nat} (hidx : idx ≤ line.length)
    (h : (stickyEnd pattern line idx).isSome = true) :
    (stickyEnd pattern (below line more) idx).isSome = true := by
  unfold stickyEnd at h ⊢
  dsimp only at h ⊢
  rw [Option.isSome_map] at h ⊢
  rw [take_below more hidx, drop_below more hidx]
  exact hit_below more hstops _ h

/-!
## Long terms
-/

theorem stickyEnd_forward {pattern : Regex Nat} {idx lastIndex : Nat}
    (h : stickyEnd pattern text idx = some lastIndex) : idx ≤ lastIndex := by
  unfold stickyEnd at h
  rcases Option.map_eq_some_iff.mp h with ⟨n, _, hn⟩
  rw [← hn]
  exact Nat.le_add_right _ _

theorem longVerdict_forward (hterm : term ≠ []) :
    forall place after,
      longVerdict U text term inflect place = .take after -> place < after := by
  intro place after htake
  have hlater : place < place + term.length :=
    Nat.lt_add_of_pos_right (List.length_pos_iff.mpr hterm)
  unfold longVerdict at htake
  split at htake
  · cases htake
  · dsimp only at htake
    split at htake
    · injection htake with htake
      rw [← htake]
      exact hlater
    · split at htake
      · rename_i hsticky
        injection htake with htake
        rw [← htake]
        exact Nat.lt_of_lt_of_le hlater (stickyEnd_forward hsticky)
      · cases htake

theorem longVerdict_going (place : Nat) :
    longVerdict U text term inflect place ≠ .giveUp := by
  intro h
  unfold longVerdict at h
  split at h
  · cases h
  · dsimp only at h
    split at h
    · cases h
    · split at h
      · cases h
      · cases h

theorem stickyEnd_none_of_below {pattern : Regex Nat}
    (hstops : pattern.StopsAt 10) {idx : Nat} (hidx : idx ≤ line.length)
    (h : (stickyEnd pattern (below line more) idx).isNone = true) :
    (stickyEnd pattern line idx).isNone = true := by
  rw [Option.isNone_iff_eq_none] at h ⊢
  cases hline : stickyEnd pattern line idx with
  | none => rfl
  | some n =>
      have hsome := stickyEnd_below more hstops hidx (by rw [hline]; rfl)
      rw [h] at hsome
      cases hsome

theorem longVerdict_below {i after : Nat} (hi : i ∈ occurrences line term)
    (h : longVerdict U line term inflect i = .take after) :
    longVerdict U (below line more) term inflect i ≠ .pass := by
  have hfits := occurrence_fits hi
  unfold longVerdict at h ⊢
  split at h
  · cases h
  · rename_i hlead
    rw [if_neg]
    · dsimp only at h ⊢
      split at h
      · rename_i htail
        rw [if_pos htail]
        intro hbad
        cases hbad
      · rename_i htail
        rw [if_neg htail]
        split at h
        · rename_i hsticky
          have hsome := stickyEnd_below more
            (tailSticky_stops (U := U) (allowSuffix U term inflect)) hfits
            (by rw [hsticky]; rfl)
          rcases Option.isSome_iff_exists.mp hsome with ⟨m, hm⟩
          rw [hm]
          intro hbad
          cases hbad
        · cases h
    · intro hbad
      apply hlead
      rw [Bool.and_eq_true] at hbad ⊢
      exact ⟨hbad.left, stickyEnd_none_of_below more leadSticky_stops
        (Nat.le_trans (Nat.le_add_right _ _) hfits) hbad.right⟩

theorem countLong_below {c c' : Nat} (hterm : term ≠ []) (hc : 0 < c)
    (hc' : 0 < c')
    (h : 0 < countLongWordOccurrences U line term inflect c) :
    0 < countLongWordOccurrences U (below line more) term inflect c' := by
  unfold countLongWordOccurrences at h ⊢
  split at h
  · exact absurd h (Nat.lt_irrefl 0)
  · rename_i hkept
    rw [if_neg hkept]
    rw [loop_eq_scan (finds_occurrences line term)
      (occurrences_sorted line term) (longVerdict_forward hterm) hc
      (occurrences_fuel line term 0)] at h
    rw [loop_eq_scan (finds_occurrences _ term) (occurrences_sorted _ term)
      (longVerdict_forward hterm) hc' (occurrences_fuel _ term 0)]
    change 0 < ((scan (longVerdict U line term inflect) c Cursor.start
      (occurrences line term)).outcome).getD 0 at h
    change 0 < ((scan (longVerdict U (below line more) term inflect) c'
      Cursor.start (occurrences (below line more) term)).outcome).getD 0
    cases hline : (scan (longVerdict U line term inflect) c Cursor.start
        (occurrences line term)).outcome with
    | none =>
        rw [hline] at h
        exact absurd h (Nat.lt_irrefl 0)
    | some n =>
        rw [hline] at h
        rcases exists_take_of_scan_outcome h hline with
          ⟨i, hi, after, htake⟩
        cases hbelow : (scan (longVerdict U (below line more) term inflect) c'
            Cursor.start (occurrences (below line more) term)).outcome with
        | none =>
            have hagree : AgreesUntil
                (longVerdict U (below line more) term inflect)
                (longVerdict U (below line more) term inflect)
                (occurrences (below line more) term) :=
              fun _ _ _ => rfl
            rcases (scan_outcome_eq_none_iff hagree rfl).mp hbelow with
              ⟨_, place, _, _, hgiveUp, _⟩
            exact absurd hgiveUp (longVerdict_going place)
        | some m =>
            cases m with
            | succ m => exact Nat.succ_pos m
            | zero =>
                have hpass := pass_of_scan_outcome hc' hbelow i
                  (mem_occurrences_below more hi)
                exact absurd hpass (longVerdict_below more hi htake)

/-!
## The reference
-/

theorem below_toLowerCase (raw : List Nat) (rest : Option (List Nat)) :
    below (U.toLowerCase raw) (rest.map U.toLowerCase) =
      U.toLowerCase (below raw rest) := by
  cases rest with
  | none => rfl
  | some more => exact (U.toLowerCase_line raw more).symm

theorem regex_below {raw : List Nat} {rest : Option (List Nat)}
    {c c' : Nat} (hc : 0 < c)
    (hc' : 0 < c')
    (h : 0 < countWordOccurrencesRegex U (U.toLowerCase raw) term inflect c) :
    0 < countWordOccurrencesRegex U
      (below (U.toLowerCase raw) (rest.map U.toLowerCase)) term inflect c' := by
  have hlowered :
      lowered U (below (U.toLowerCase raw) (rest.map U.toLowerCase)) =
        below (U.toLowerCase raw) (rest.map U.toLowerCase) := by
    rw [below_toLowerCase]
    exact lowered_toLowerCase _
  unfold countWordOccurrencesRegex at h ⊢
  rw [lowered_toLowerCase] at h
  rw [hlowered]
  split at h
  · exact absurd h (Nat.lt_irrefl 0)
  · rename_i hterm
    rw [if_neg hterm]
    cases hfirst : indexOf (U.toLowerCase raw) (lowered U term) 0 with
    | none =>
        rw [hfirst] at h
        exact absurd h (Nat.lt_irrefl 0)
    | some first =>
        rw [hfirst] at h
        rcases indexOf_isSome_of_mem (mem_occurrences_below
          (rest.map U.toLowerCase) (mem_of_indexOf_eq_some hfirst)) with
          ⟨first', hfirst'⟩
        rw [hfirst']
        dsimp only at h ⊢
        split at h
        · rename_i hlong
          rw [if_pos hlong]
          apply countLong_below _ _ hc hc' h
          intro hempty
          rw [hempty] at hlong
          exact absurd hlong (Nat.not_lt_zero _)
        · rename_i hshort
          rw [if_neg hshort]
          split at h
          · exact absurd h (Nat.lt_irrefl 0)
          · rename_i regex hregex
            have hsome : regex = wordPattern U true term inflect := by
              unfold wordRegex at hregex
              split at hregex
              · cases hregex
              · injection hregex with hregex
                exact hregex.symm
            have hpos : 0 < regex.countMatches
                (codePoints (U.toLowerCase raw)) :=
              Nat.lt_of_lt_of_le h (Nat.min_le_left _ _)
            rw [hsome] at hpos ⊢
            have hlonger := countMatches_below (rest.map U.toLowerCase)
              (wordPattern_stops true term inflect) hpos
            exact Nat.lt_min.mpr ⟨hlonger, hc'⟩

/-!
## The scan
-/

theorem not_at_end {p : Nat} (h : ¬ line.length ≤ p) :
    ¬ (below line more).length ≤ p := by
  have hlonger := @length_le_below line more
  omega

theorem suffixVerdict_below {p : Nat}
    (h : suffixVerdict line p = .giveUp) :
    suffixVerdict (below line more) p = .giveUp := by
  unfold suffixVerdict at h ⊢
  split at h
  · cases h
  · rename_i hend
    rw [if_neg (not_at_end more hend),
      charCodeAt_below more (Nat.lt_of_not_le hend)]
    split at h
    · rename_i hwide
      rw [if_pos hwide]
    · split at h
      · cases h
      · cases h

theorem tailVerdict_below {suffix : Bool} {afterIdx : Nat}
    (h : tailVerdict line suffix afterIdx = .giveUp) :
    tailVerdict (below line more) suffix afterIdx = .giveUp := by
  unfold tailVerdict at h ⊢
  split at h
  · cases h
  · rename_i hend
    have hlonger := @length_le_below line more
    have hcode : charCodeAt (below line more) afterIdx =
        charCodeAt line afterIdx :=
      charCodeAt_below more (Nat.lt_of_not_le hend)
    rw [if_neg (not_at_end more hend)]
    dsimp only at h ⊢
    rw [hcode]
    split at h
    · rename_i hwide
      rw [if_pos hwide]
    · rename_i hwide
      rw [if_neg hwide]
      split at h
      · cases h
      · rename_i hword
        rw [if_neg hword]
        split at h
        · cases h
        · rename_i hsuffix
          rw [if_neg hsuffix]
          split at h
          · rename_i hs
            rw [if_pos hs]
            exact suffixVerdict_below more h
          · rename_i hs
            rw [if_neg hs]
            split at h
            · rename_i he
              rw [if_pos ⟨he.left, Nat.lt_of_lt_of_le he.right hlonger⟩,
                charCodeAt_below more he.right]
              split at h
              · rename_i hnext
                rw [if_pos hnext]
              · rename_i hnext
                rw [if_neg hnext]
                split at h
                · rename_i hletter
                  rw [if_pos hletter]
                  exact suffixVerdict_below more h
                · cases h
            · rename_i he
              split at h
              · rename_i hi
                have hnot : ¬ (charCodeAt line afterIdx = 101 ∧
                    afterIdx + 1 < (below line more).length) := by
                  intro hbad
                  rw [hi.left] at hbad
                  exact absurd hbad.left (by decide)
                rw [if_neg hnot,
                  if_pos ⟨hi.left, Nat.lt_of_lt_of_le hi.right hlonger⟩,
                  charCodeAt_below more (Nat.lt_of_succ_lt hi.right),
                  charCodeAt_below more hi.right]
                split at h
                · rename_i hnext
                  rw [if_pos hnext]
                · rename_i hnext
                  rw [if_neg hnext]
                  split at h
                  · rename_i hletters
                    rw [if_pos hletters]
                    exact suffixVerdict_below more h
                  · cases h
              · cases h

/-- Where the scan gives up in a line, it gives up in the text as well. -/
theorem termVerdict_below {i : Nat} (hi : i ∈ occurrences line term)
    (h : termVerdict line term inflect i = .giveUp) :
    termVerdict (below line more) term inflect i = .giveUp := by
  have hlt := (prefix_of_mem_occurrences hi).left
  have hcode : charCodeAt (below line more) (i - 1) =
      charCodeAt line (i - 1) :=
    charCodeAt_below more (Nat.lt_of_le_of_lt (Nat.sub_le i 1) hlt)
  unfold termVerdict asciiVerdict at h ⊢
  rw [hcode]
  split at h
  · rename_i hwide
    rw [if_pos hwide]
  · rename_i hwide
    rw [if_neg hwide]
    split at h
    · cases h
    · rename_i hword
      rw [if_neg hword]
      split at h
      · cases h
      · rename_i htail
        rw [if_neg htail]
        exact tailVerdict_below more h

theorem scan_giveUp {c : Nat} (h : AsciiTerm term) (hc : 0 < c)
    (hscan : scanWordOccurrences text term inflect c = none) :
    exists i, i ∈ occurrences text term ∧
      termVerdict text term inflect i = .giveUp := by
  rw [scanWordOccurrences_eq h hc] at hscan
  have hagree : AgreesUntil (termVerdict text term inflect)
      (termVerdict text term inflect) (occurrences text term) :=
    fun _ _ _ => rfl
  rcases (scan_outcome_eq_none_iff hagree rfl).mp hscan with
    ⟨before, i, after, hsplit, hgiveUp, _⟩
  refine ⟨i, ?_, hgiveUp⟩
  rw [hsplit]
  exact List.mem_append_right _ List.mem_cons_self

theorem scan_zero {c : Nat} (h : AsciiTerm term) (hc : 0 < c)
    (hscan : scanWordOccurrences text term inflect c = some 0) {i : Nat}
    (hi : i ∈ occurrences text term) :
    termVerdict text term inflect i = .pass := by
  rw [scanWordOccurrences_eq h hc] at hscan
  exact pass_of_scan_outcome hc hscan i hi

theorem scan_take {c n : Nat} (h : AsciiTerm term) (hc : 0 < c)
    (hscan : scanWordOccurrences text term inflect c = some (n + 1)) :
    exists i, i ∈ occurrences text term ∧ exists after,
      termVerdict text term inflect i = .take after := by
  rw [scanWordOccurrences_eq h hc] at hscan
  exact exists_take_of_scan_outcome (Nat.succ_pos n) hscan

theorem scan_below_ne_zero {raw : List Nat} {rest : Option (List Nat)}
    {c c' n : Nat}
    (h : AsciiTerm term) (hc : 0 < c) (hc' : 0 < c')
    (hscan : scanWordOccurrences (U.toLowerCase raw) term inflect c =
      some (n + 1)) :
    scanWordOccurrences (below (U.toLowerCase raw) (rest.map U.toLowerCase))
      term inflect c' ≠ some 0 := by
  intro hzero
  have hline := scanWordOccurrences_count (U := U) (lower_toLowerCase raw) h
    hc hscan
  have hpos : 0 < (wordPattern U false term inflect).countMatches
      (codePoints (U.toLowerCase raw)) := by
    have hle : n + 1 ≤ (wordPattern U false term inflect).countMatches
        (codePoints (U.toLowerCase raw)) := by
      rw [hline]
      exact Nat.min_le_right _ _
    exact Nat.lt_of_lt_of_le (Nat.succ_pos n) hle
  have hlonger := countMatches_below (rest.map U.toLowerCase)
    (wordPattern_stops false term inflect) hpos
  have hlower : Lower (below (U.toLowerCase raw) (rest.map U.toLowerCase)) := by
    rw [below_toLowerCase]
    exact lower_toLowerCase _
  have hwhole := scanWordOccurrences_count (U := U) hlower h hc' hzero
  have hmin := Nat.lt_min.mpr ⟨hc', hlonger⟩
  rw [← hwhole] at hmin
  exact absurd hmin (Nat.lt_irrefl 0)

/-!
## A term in a line
-/

/-- The reference counts, in the text, what the scan took in the line. -/
theorem regex_of_take {raw : List Nat} {rest : Option (List Nat)}
    {c i after : Nat}
    (h : AsciiTerm term) (hkept : rejected U term = false) (hc : 0 < c)
    (hi : i ∈ occurrences (U.toLowerCase raw) term)
    (htake : termVerdict (U.toLowerCase raw) term inflect i = .take after) :
    0 < countWordOccurrencesRegex U
      (below (U.toLowerCase raw) (rest.map U.toLowerCase)) term inflect c := by
  rcases indexOf_isSome_of_mem hi with ⟨first, hfirst⟩
  apply regex_below hc hc
  rw [countWordOccurrencesRegex_ascii h hkept hc hfirst]
  have hlower : Lower (U.toLowerCase raw) := lower_toLowerCase raw
  split
  · have hgoing : termVerdict (U.toLowerCase raw) term inflect i ≠ .giveUp := by
      rw [htake]
      intro hbad
      cases hbad
    have hpattern := termVerdict_eq (U := U) hlower h hi hgoing
    have hscan := @scan_patternVerdict U (U.toLowerCase raw) _
      inflect c h
    cases hcount : min c ((wordPattern U false term inflect).countMatches
        (codePoints (U.toLowerCase raw))) with
    | succ n =>
        unfold casedCount
        rw [hcount]
        exact Nat.succ_pos n
    | zero =>
        rw [hcount] at hscan
        have hpass := pass_of_scan_outcome hc hscan i hi
        rw [← hpattern, htake] at hpass
        cases hpass
  · have hpos := countMatches_pos_of_take (U := U) hlower h hi htake
    unfold referenceCount
    rw [wordRegex_of_kept hkept]
    exact Nat.lt_min.mpr ⟨hc, hpos⟩

/-- A term that is counted in a line is counted in the text that begins with
it, whatever the two counts stop at. -/
theorem countWordOccurrences_below {raw : List Nat}
    {rest : Option (List Nat)} {c c' : Nat}
    (hc : 0 < c) (hc' : 0 < c')
    (h : 0 < countWordOccurrences U (U.toLowerCase raw) term inflect c) :
    0 < countWordOccurrences U
      (below (U.toLowerCase raw) (rest.map U.toLowerCase)) term inflect c' := by
  by_cases hempty : term = []
  · unfold countWordOccurrences at h
    rw [if_pos hempty] at h
    exact absurd h (Nat.lt_irrefl 0)
  by_cases hpure : isPureLowerAscii term = true
  · have hterm : AsciiTerm term := ⟨hempty, hpure⟩
    cases hkept : rejected U term with
    | true =>
        rw [countWordOccurrences_rejected hterm hkept] at h
        exact absurd h (Nat.lt_irrefl 0)
    | false =>
        rw [countWordOccurrences_ascii hterm hkept] at h ⊢
        cases hfirst : indexOf (U.toLowerCase raw) term 0 with
        | none =>
            rw [hfirst] at h
            exact absurd h (Nat.lt_irrefl 0)
        | some first =>
            rw [hfirst] at h
            rcases indexOf_isSome_of_mem (mem_occurrences_below
              (rest.map U.toLowerCase) (mem_of_indexOf_eq_some hfirst)) with
              ⟨first', hfirst'⟩
            rw [hfirst']
            rw [Option.isNone_some, if_neg Bool.false_ne_true] at h ⊢
            cases hline : scanWordOccurrences (U.toLowerCase raw) term inflect
                c with
            | none =>
                rw [hline] at h
                rcases scan_giveUp hterm hc hline with ⟨i, hi, hgiveUp⟩
                split
                · rename_i count hcount
                  cases count with
                  | succ count => exact Nat.succ_pos count
                  | zero =>
                      have hpass := scan_zero hterm hc' hcount
                        (mem_occurrences_below (rest.map U.toLowerCase) hi)
                      rw [termVerdict_below (rest.map U.toLowerCase) hi hgiveUp]
                        at hpass
                      cases hpass
                · exact regex_below (by decide) (by decide) h
            | some n =>
                rw [hline] at h
                cases n with
                | zero => exact absurd h (Nat.lt_irrefl 0)
                | succ n =>
                    rcases scan_take hterm hc hline with
                      ⟨i, hi, after, htake⟩
                    split
                    · rename_i count hcount
                      cases count with
                      | succ count => exact Nat.succ_pos count
                      | zero =>
                          exact absurd hcount
                            (scan_below_ne_zero hterm hc hc' hline)
                    · exact regex_of_take hterm hkept (by decide) hi htake
  · unfold countWordOccurrences at h ⊢
    rw [if_neg hempty, if_pos (by simpa using hpure)] at h
    rw [if_neg hempty, if_pos (by simpa using hpure)]
    exact regex_below hc hc' h

end Vault
end Minni
