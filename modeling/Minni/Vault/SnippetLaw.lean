import Minni.Vault.SnippetWords

/-!
# The window by either path

The one pass over the lower-cased text ends with the first word that the terms
find one by one, where that word is spelled out in the lower-cased text.
-/

namespace Minni
namespace Vault

open Foundation
open Foundation.Scan

/-!
## Hits
-/

/-- A hit at this place or before it. -/
def AtMost (hit : Option Nat) (i : Nat) : Prop :=
  exists first, hit = some first ∧ first ≤ i

theorem lowerHit_atMost (hit : Option Nat) (idx : Nat) :
    AtMost (lowerHit hit idx) idx := by
  unfold lowerHit
  cases hit with
  | none => exact ⟨idx, rfl, Nat.le_refl _⟩
  | some first =>
      dsimp only
      split
      · exact ⟨idx, rfl, Nat.le_refl _⟩
      · rename_i hless
        exact ⟨first, rfl, Nat.le_of_not_lt hless⟩

theorem AtMost.lowerHit {hit : Option Nat} {i : Nat} (h : AtMost hit i)
    (idx : Nat) : AtMost (lowerHit hit idx) i := by
  rcases h with ⟨first, hhit, hle⟩
  rw [hhit, Vault.lowerHit]
  split
  · rename_i hless
    exact ⟨idx, rfl, Nat.le_trans (Nat.le_of_lt hless) hle⟩
  · exact ⟨first, rfl, hle⟩

theorem lowerHit_eq_some {hit : Option Nat} {idx first : Nat}
    (h : lowerHit hit idx = some first) : hit = some first ∨ first = idx := by
  unfold lowerHit at h
  cases hit with
  | none =>
      injection h with h
      exact Or.inr h.symm
  | some old =>
      dsimp only at h
      split at h
      · injection h with h
        exact Or.inr h.symm
      · exact Or.inl h

theorem earliest_eq_some {indexes : List (Option Nat)} {first : Nat} :
    earliest indexes = some first <->
      some first ∈ indexes ∧
        forall other, some other ∈ indexes -> first ≤ other := by
  unfold earliest
  rw [List.min?_eq_some_iff]
  simp only [List.mem_filterMap, id_eq, exists_eq_right]

theorem earliest_eq_none {indexes : List (Option Nat)} :
    earliest indexes = none <-> forall other, some other ∉ indexes := by
  unfold earliest
  rw [List.min?_eq_none_iff, List.eq_nil_iff_forall_not_mem]
  simp only [List.mem_filterMap, id_eq, exists_eq_right]

/-!
## What the pass keeps
-/

section

variable {U : Unicode} {matcher : MultiTermMatcher} {plain lower : List Nat}

/-- No occurrence of a pattern stands beside a letter that is not ASCII. -/
def NoOtherLetter (matcher : MultiTermMatcher) (lower : List Nat) : Prop :=
  forall p, p ∈ matcher.patternStr -> forall i, i ∈ occurrences lower p ->
    termVerdict lower p true i ≠ .giveUp

/-- The hits are no earlier than what they stand for. -/
structure HitsOk (U : Unicode) (matcher : MultiTermMatcher)
    (plain lower : List Nat) (s : SnippetScan) : Prop where
  word_ge : forall x, s.firstWordHit = some x -> exists p,
    p ∈ matcher.patternStr ∧ exists y, firstWordIndex U plain p = some y ∧
      y ≤ x ∧ (NoOtherLetter matcher lower -> x ∈ occurrences lower p)
  fallback_le : forall m, m ∈ s.needsFallback -> forall w,
    firstWordIndex U plain (matcher.patternStr.getD m []) = some w ->
      AtMost s.firstWordHit w
  sub_mem : forall x, s.firstSubHit = some x -> exists p,
    p ∈ matcher.patternStr ∧ x ∈ occurrences lower p

/-- What a further pattern does to the hits. -/
structure Lowers (s t : SnippetScan) : Prop where
  word : forall i, AtMost s.firstWordHit i -> AtMost t.firstWordHit i
  sub : forall i, AtMost s.firstSubHit i -> AtMost t.firstSubHit i
  state : t.state = s.state

theorem Lowers.refl (s : SnippetScan) : Lowers s s :=
  { word := fun _ h => h
    sub := fun _ h => h
    state := rfl }

theorem Lowers.trans {s t u : SnippetScan} (h : Lowers s t)
    (hnext : Lowers t u) : Lowers s u :=
  { word := fun i hi => hnext.word i (h.word i hi)
    sub := fun i hi => hnext.sub i (h.sub i hi)
    state := hnext.state.trans h.state }

theorem runFallback_ok {m : Nat} {p : List Nat} {s : SnippetScan}
    (hm : matcher.patternStr[m]? = some p)
    (h : HitsOk U matcher plain lower s)
    (hother : ¬ NoOtherLetter matcher lower) :
    HitsOk U matcher plain lower (runFallback U matcher plain m s) ∧
      Lowers s (runFallback U matcher plain m s) ∧
      forall w, firstWordIndex U plain p = some w ->
        AtMost (runFallback U matcher plain m s).firstWordHit w := by
  have hp : matcher.patternStr.getD m [] = p := by
    rw [List.getD_eq_getElem?_getD, hm]
    rfl
  unfold runFallback
  rw [hp]
  split
  · rename_i hran
    refine ⟨h, Lowers.refl s, ?_⟩
    intro w hw
    apply h.fallback_le m hran w
    rw [hp]
    exact hw
  · cases hfirst : firstWordIndex U plain p with
    | none =>
        refine ⟨?_, ⟨fun _ hi => hi, fun _ hi => hi, rfl⟩, ?_⟩
        · constructor
          · exact h.word_ge
          · intro n hn w hw
            rcases List.mem_cons.mp hn with hhere | hearlier
            · rw [hhere, hp, hfirst] at hw
              cases hw
            · exact h.fallback_le n hearlier w hw
          · exact h.sub_mem
        · intro w hw
          cases hw
    | some first =>
        have hmono : forall i, AtMost s.firstWordHit i ->
            AtMost (lowerHit s.firstWordHit first) i :=
          fun _ hi => hi.lowerHit first
        refine ⟨?_, ⟨hmono, fun _ hi => hi, rfl⟩, ?_⟩
        · constructor
          · intro x hx
            rcases lowerHit_eq_some hx with hold | hnew
            · exact h.word_ge x hold
            · exact ⟨p, List.mem_of_getElem? hm, first, hfirst,
                Nat.le_of_eq hnew.symm, fun hno => absurd hno hother⟩
          · intro n hn w hw
            rcases List.mem_cons.mp hn with hhere | hearlier
            · rw [hhere, hp, hfirst] at hw
              injection hw with hw
              rw [← hw]
              exact lowerHit_atMost _ _
            · exact hmono w (h.fallback_le n hearlier w hw)
          · exact h.sub_mem
        · intro w hw
          injection hw with hw
          rw [← hw]
          exact lowerHit_atMost _ _

/-- How the verdict of an occurrence bears on the first word of its term. -/
structure WordsOk (U : Unicode) (matcher : MultiTermMatcher)
    (plain lower : List Nat) : Prop where
  take : forall p, p ∈ matcher.patternStr -> forall i,
    i ∈ occurrences lower p -> forall after,
      termVerdict lower p true i = .take after ->
        AtMost (firstWordIndex U plain p) i
  pass : forall p, p ∈ matcher.patternStr -> forall i,
    i ∈ occurrences lower p -> termVerdict lower p true i = .pass ->
      firstWordIndex U plain p ≠ some i

theorem snippetVisit_ok {m afterIdx : Nat} {p : List Nat} {s : SnippetScan}
    (hwords : WordsOk U matcher plain lower)
    (hm : matcher.patternStr[m]? = some p)
    (hi : afterIdx - p.length ∈ occurrences lower p)
    (h : HitsOk U matcher plain lower s) :
    HitsOk U matcher plain lower
        (snippetVisit U matcher plain lower afterIdx s m) ∧
      Lowers s (snippetVisit U matcher plain lower afterIdx s m) ∧
      AtMost (snippetVisit U matcher plain lower afterIdx s m).firstSubHit
        (afterIdx - p.length) ∧
      (firstWordIndex U plain p = some (afterIdx - p.length) ->
        AtMost (snippetVisit U matcher plain lower afterIdx s m).firstWordHit
          (afterIdx - p.length)) := by
  have hp : matcher.patternStr.getD m [] = p := by
    rw [List.getD_eq_getElem?_getD, hm]
    rfl
  have hmem := List.mem_of_getElem? hm
  unfold snippetVisit
  rw [hp]
  dsimp only
  generalize afterIdx - p.length = idx at hi ⊢
  have hseen : HitsOk U matcher plain lower
      { s with firstSubHit := lowerHit s.firstSubHit idx } := by
    constructor
    · exact h.word_ge
    · exact h.fallback_le
    · intro x hx
      rcases lowerHit_eq_some hx with hold | hnew
      · exact h.sub_mem x hold
      · rw [hnew]
        exact ⟨p, hmem, hi⟩
  have hlowers : Lowers s
      { s with firstSubHit := lowerHit s.firstSubHit idx } :=
    { word := fun _ hx => hx
      sub := fun _ hx => hx.lowerHit idx
      state := rfl }
  have hsub := lowerHit_atMost s.firstSubHit idx
  split
  · rename_i hearlier
    refine ⟨hseen, hlowers, hsub, ?_⟩
    intro _
    rcases (Option.any_eq_true _ _).mp hearlier with ⟨first, hhit, hle⟩
    exact ⟨first, hhit, of_decide_eq_true hle⟩
  · rename_i hlater
    split
    · rename_i hpass
      refine ⟨hseen, hlowers, hsub, ?_⟩
      intro hfirst
      exact absurd hfirst (hwords.pass p hmem idx hi hpass)
    · rename_i after htake
      have hmono : forall i, AtMost s.firstWordHit i -> AtMost (some idx) i := by
        intro i hx
        rcases hx with ⟨first, hhit, hle⟩
        rw [hhit] at hlater
        have hless : idx < first := by
          simpa using hlater
        exact ⟨idx, rfl, Nat.le_trans (Nat.le_of_lt hless) hle⟩
      refine ⟨?_, ⟨hmono, hlowers.sub, rfl⟩, hsub, ?_⟩
      · constructor
        · intro x hx
          injection hx with hx
          rcases hwords.take p hmem idx hi after htake with ⟨y, hy, hle⟩
          rw [← hx]
          exact ⟨p, hmem, y, hy, hle, fun _ => hi⟩
        · intro n hn w hw
          exact hmono w (h.fallback_le n hn w hw)
        · exact hseen.sub_mem
      · intro _
        exact ⟨idx, rfl, Nat.le_refl _⟩
    · rename_i hgiveUp
      have hother : ¬ NoOtherLetter matcher lower :=
        fun hno => hno p hmem idx hi hgiveUp
      rcases runFallback_ok hm hseen hother with ⟨hok, hless, hfirst⟩
      have hsame : (runFallback U matcher plain m
          { s with firstSubHit := lowerHit s.firstSubHit idx }).firstSubHit =
            lowerHit s.firstSubHit idx := by
        unfold runFallback
        split
        · rfl
        · rfl
      refine ⟨hok, hlowers.trans hless, ?_, hfirst idx⟩
      rw [hsame]
      exact hsub

theorem snippetChain_eq (afterIdx fuel : Nat) (found : Option Nat)
    (s : SnippetScan) :
    snippetChain U matcher plain lower afterIdx fuel found s =
      (chainOf matcher fuel found).foldl
        (snippetVisit U matcher plain lower afterIdx) s := by
  induction fuel generalizing found s with
  | zero => rfl
  | succ fuel ih =>
      cases found with
      | none => rfl
      | some m =>
          rw [snippetChain, ih]
          rfl

/-- After the patterns that end at a place. -/
theorem foldl_snippetVisit_ok {afterIdx : Nat} {ms : List Nat}
    {s : SnippetScan} (hwords : WordsOk U matcher plain lower)
    (hms : forall m, m ∈ ms -> exists p, matcher.patternStr[m]? = some p ∧
      afterIdx - p.length ∈ occurrences lower p)
    (h : HitsOk U matcher plain lower s) :
    HitsOk U matcher plain lower
        (ms.foldl (snippetVisit U matcher plain lower afterIdx) s) ∧
      Lowers s (ms.foldl (snippetVisit U matcher plain lower afterIdx) s) ∧
      forall m, m ∈ ms -> forall p, matcher.patternStr[m]? = some p ->
        AtMost (ms.foldl (snippetVisit U matcher plain lower afterIdx)
            s).firstSubHit (afterIdx - p.length) ∧
          (firstWordIndex U plain p = some (afterIdx - p.length) ->
            AtMost (ms.foldl (snippetVisit U matcher plain lower afterIdx)
              s).firstWordHit (afterIdx - p.length)) := by
  induction ms generalizing s with
  | nil =>
      refine ⟨h, Lowers.refl s, ?_⟩
      intro m hm
      cases hm
  | cons m ms ih =>
      rcases hms m List.mem_cons_self with ⟨p, hm, hi⟩
      rcases snippetVisit_ok hwords hm hi h with ⟨hok, hless, hsub, hword⟩
      rcases ih (fun n hn => hms n (List.mem_cons_of_mem _ hn)) hok with
        ⟨hlast, hrest, hlater⟩
      refine ⟨hlast, hless.trans hrest, ?_⟩
      intro n hn q hq
      rcases List.mem_cons.mp hn with hhere | htail
      · rw [hhere, hm] at hq
        injection hq with hq
        rw [← hq]
        exact ⟨hrest.sub _ hsub, fun hfirst => hrest.word _ (hword hfirst)⟩
      · exact hlater n htail q hq

/-!
## The whole pass
-/

theorem mem_occurrences_of_suffix {text p : List Nat} {i : Nat} (hp : p ≠ [])
    (hi : i ≤ text.length) (h : p <:+ text.take i) :
    i - p.length ∈ occurrences text p ∧ p.length ≤ i := by
  rcases (suffix_take_iff hi).mp h with ⟨hlength, hprefixed⟩
  have hpos := List.length_pos_iff.mpr hp
  refine ⟨List.mem_filter.mpr ⟨List.mem_range.mpr (by omega), ?_⟩, hlength⟩
  exact List.isPrefixOf_iff_prefix.mpr hprefixed

theorem suffix_of_mem_occurrences {text p : List Nat} {j : Nat}
    (h : j ∈ occurrences text p) : p <:+ text.take (j + p.length) := by
  have hfits := occurrence_fits h
  apply (suffix_take_iff hfits).mpr
  rw [Nat.add_sub_cancel]
  exact ⟨Nat.le_add_left _ _, (prefix_of_mem_occurrences h).right⟩

/-- After `i` code units, every occurrence that has ended was seen. -/
structure SnippetOk (U : Unicode) (matcher : MultiTermMatcher)
    (plain lower : List Nat) (t : Trie) (word : Nat -> List Nat) (i : Nat)
    (s : SnippetScan) : Prop where
  reads : Reads t word lower i s.state
  hits : HitsOk U matcher plain lower s
  seen : forall p, p ∈ matcher.patternStr -> forall j,
    j ∈ occurrences lower p -> j + p.length ≤ i ->
      AtMost s.firstSubHit j ∧
        (firstWordIndex U plain p = some j -> AtMost s.firstWordHit j)

theorem snippetUnit_ok {t : Trie} {word : Nat -> List Nat} {i : Nat}
    {s : SnippetScan} (hmatches : Matches matcher t word)
    (hwords : WordsOk U matcher plain lower) (hi : i < lower.length)
    (h : SnippetOk U matcher plain lower t word i s) :
    SnippetOk U matcher plain lower t word (i + 1)
      (snippetUnit U matcher plain lower s i) := by
  unfold snippetUnit
  dsimp only
  split
  · rename_i hwide
    rcases hmatches.read_wide hi hwide with ⟨hreads, hnone⟩
    refine ⟨hreads, ⟨h.hits.word_ge, h.hits.fallback_le, h.hits.sub_mem⟩, ?_⟩
    intro p hp j hj hend
    rcases Nat.lt_or_eq_of_le hend with hearlier | hhere
    · exact h.seen p hp j hj (Nat.le_of_lt_succ hearlier)
    · have hends := suffix_of_mem_occurrences hj
      rw [hhere] at hends
      exact absurd hends (hnone p hp)
  · rename_i hascii
    rcases hmatches.read_ascii hi h.reads (Nat.lt_of_not_le hascii) with
      ⟨hreads, hends⟩
    rcases chainOf_spec hmatches.toChained hends List.countP_le_length with
      ⟨_, hmem⟩
    generalize hstate :
      (matcher.gotoTable s.state (charCodeAt lower i)).getD 0 = state
        at hreads hends hmem ⊢
    have hstart : HitsOk U matcher plain lower { s with state := state } :=
      ⟨h.hits.word_ge, h.hits.fallback_le, h.hits.sub_mem⟩
    rw [snippetChain_eq]
    rcases @foldl_snippetVisit_ok _ _ _ _ (i + 1) _ _ hwords
      (by
        intro m hm
        rcases (hmem m).mp hm with ⟨p, hp, hsuffix⟩
        have hne := (hmatches.accepted (List.mem_of_getElem? hp)).nonempty
        exact ⟨p, hp, (mem_occurrences_of_suffix hne hi hsuffix).left⟩)
      hstart with ⟨hok, hless, hvisited⟩
    refine ⟨?_, hok, ?_⟩
    · rw [hless.state]
      exact hreads
    · intro p hp j hj hend
      rcases Nat.lt_or_eq_of_le hend with hearlier | hhere
      · rcases h.seen p hp j hj (Nat.le_of_lt_succ hearlier) with
          ⟨hsub, hword⟩
        exact ⟨hless.sub j hsub, fun hfirst => hless.word j (hword hfirst)⟩
      · have hsuffix := suffix_of_mem_occurrences hj
        rw [hhere] at hsuffix
        rcases List.getElem?_of_mem hp with ⟨m, hm⟩
        have hplace : i + 1 - p.length = j := by
          rw [← hhere, Nat.add_sub_cancel]
        have hfound := hvisited m ((hmem m).mpr ⟨p, hm, hsuffix⟩) p hm
        rw [hplace] at hfound
        exact hfound

/-- What the pass has found at its end. -/
structure Found (U : Unicode) (matcher : MultiTermMatcher)
    (plain lower : List Nat) (s : SnippetScan) : Prop where
  hits : HitsOk U matcher plain lower s
  word : forall p, p ∈ matcher.patternStr -> forall j,
    j ∈ occurrences lower p -> firstWordIndex U plain p = some j ->
      AtMost s.firstWordHit j
  sub : s.firstWordHit = none -> forall p, p ∈ matcher.patternStr ->
    forall j, j ∈ occurrences lower p -> AtMost s.firstSubHit j

theorem le_foldl_max (lengths : List Nat) (n : Nat) :
    n ≤ lengths.foldl max n ∧
      forall k, k ∈ lengths -> k ≤ lengths.foldl max n := by
  induction lengths generalizing n with
  | nil => exact ⟨Nat.le_refl n, fun _ hk => absurd hk List.not_mem_nil⟩
  | cons k lengths ih =>
      rw [List.foldl_cons]
      rcases ih (max n k) with ⟨hinit, hall⟩
      refine ⟨Nat.le_trans (Nat.le_max_left n k) hinit, ?_⟩
      intro other hother
      rcases List.mem_cons.mp hother with hhere | hlater
      · rw [hhere]
        exact Nat.le_trans (Nat.le_max_right n k) hinit
      · exact hall other hlater

theorem length_le_maxPatLen {p : List Nat} (hp : p ∈ matcher.patternStr) :
    p.length ≤ maxPatLen matcher :=
  (le_foldl_max _ 0).right _ (List.mem_map_of_mem hp)

theorem snippetScan_found {t : Trie} {word : Nat -> List Nat} {k i : Nat}
    {s : SnippetScan} (hmatches : Matches matcher t word)
    (hwords : WordsOk U matcher plain lower) (hk : i + k = lower.length)
    (h : SnippetOk U matcher plain lower t word i s) :
    Found U matcher plain lower
      (snippetScan U matcher plain lower s (List.range' i k)) := by
  induction k generalizing i s with
  | zero =>
      have hend : forall p, p ∈ matcher.patternStr -> forall j,
          j ∈ occurrences lower p -> j + p.length ≤ i := by
        intro p _ j hj
        have hfits := occurrence_fits hj
        rw [← hk] at hfits
        exact hfits
      exact {
        hits := h.hits
        word := fun p hp j hj =>
          (h.seen p hp j hj (hend p hp j hj)).right
        sub := fun _ p hp j hj =>
          (h.seen p hp j hj (hend p hp j hj)).left }
  | succ k ih =>
      rw [List.range'_succ, snippetScan]
      split
      · rename_i hdone
        rcases (Option.any_eq_true _ _).mp hdone with ⟨first, hhit, hle⟩
        have hstop := of_decide_eq_true hle
        constructor
        · exact h.hits
        · intro p hp j hj hfirst
          rcases Nat.lt_or_ge i (j + p.length) with hlater | hended
          · have hlength := length_le_maxPatLen hp
            exact ⟨first, hhit, by omega⟩
          · exact (h.seen p hp j hj hended).right hfirst
        · intro hnone
          rw [hhit] at hnone
          cases hnone
      · apply ih (by omega)
        exact snippetUnit_ok hmatches hwords (by omega) h

theorem snippetScan_start {t : Trie} {word : Nat -> List Nat}
    (hmatches : Matches matcher t word)
    (hwords : WordsOk U matcher plain lower) :
    Found U matcher plain lower
      (snippetScan U matcher plain lower SnippetScan.start
        (List.range lower.length)) := by
  rw [List.range_eq_range']
  apply snippetScan_found hmatches hwords (Nat.zero_add _)
  refine ⟨hmatches.reads_zero, ⟨?_, ?_, ?_⟩, ?_⟩
  · intro x hx
    cases hx
  · intro m hm
    cases hm
  · intro x hx
    cases hx
  · intro p hp j hj hend
    have hpos := (hmatches.accepted hp).length_pos
    omega

end

/-!
## The terms and the patterns
-/

theorem patternsOf_mem {terms : List (List Nat)} {p : List Nat}
    (hp : p ∈ (patternsOf terms).patternStr) : p ∈ terms := by
  induction terms using List.reverseRecOn with
  | nil => cases hp
  | append_singleton terms t ih =>
      unfold patternsOf at hp
      rw [List.foldl_append] at hp
      change p ∈ (addTerm (patternsOf terms) t).patternStr at hp
      unfold addTerm at hp
      dsimp only at hp
      split at hp
      · exact List.mem_append_left _ (ih hp)
      · split at hp
        · exact List.mem_append_left _ (ih hp)
        · split at hp
          · exact List.mem_append_left _ (ih hp)
          · split at hp
            · exact List.mem_append_left _ (ih hp)
            · rcases List.mem_append.mp hp with hold | hnew
              · exact List.mem_append_left _ (ih hold)
              · rw [List.mem_singleton.mp hnew]
                exact List.mem_append_right _ (List.mem_singleton_self t)

theorem mem_patternsOf {terms : List (List Nat)}
    (haccepted : forall t, t ∈ terms -> Accepted t) {t : List Nat}
    (ht : t ∈ terms) : t ∈ (MultiTermMatcher.new terms).patternStr := by
  rcases List.getElem?_of_mem ht with ⟨i, hi⟩
  rcases pattern_of_accepted hi (haccepted t ht) with ⟨m, _, hm⟩
  exact List.mem_of_getElem? hm

theorem wordsOk {U : Unicode} (hU : LowersInPlace U)
    {terms : List (List Nat)}
    (haccepted : forall t, t ∈ terms -> Accepted t) {plain : List Nat}
    (hlength : plain.length = (U.toLowerCase plain).length) :
    WordsOk U (MultiTermMatcher.new terms) plain (U.toLowerCase plain) := by
  constructor
  · intro p hp i hi after htake
    have h := haccepted p (patternsOf_mem hp)
    rw [firstWordIndex_lower hU hlength]
    exact firstWordIndex_le h
      (Nat.le_of_lt (prefix_of_mem_occurrences hi).left)
      (wordAt_of_take (lower_toLowerCase plain) h.toAsciiTerm hi htake)
  · intro p hp i hi hpass hfirst
    have h := haccepted p (patternsOf_mem hp)
    rw [firstWordIndex_lower hU hlength] at hfirst
    have hword := (wordAt_firstWordIndex h hfirst).left
    rw [not_wordAt_of_pass (lower_toLowerCase plain) h.toAsciiTerm hi hpass]
      at hword
    cases hword

/-!
## The same place
-/

/-- The first word that the terms find is spelled out in the lower-cased text
by a term that finds it. -/
def EarliestSpelled (U : Unicode) (plain : List Nat)
    (terms : List (List Nat)) : Prop :=
  forall first, earliest (terms.map (firstWordIndex U plain)) = some first ->
    exists t, t ∈ terms ∧ firstWordIndex U plain t = some first ∧
      t <+: (U.toLowerCase plain).drop first

theorem mem_occurrences_of_prefixed {text p : List Nat} {i : Nat} (hp : p ≠ [])
    (h : p <+: text.drop i) : i ∈ occurrences text p := by
  apply List.mem_filter.mpr
  refine ⟨List.mem_range.mpr (Nat.lt_of_not_le ?_),
    List.isPrefixOf_iff_prefix.mpr h⟩
  intro hend
  rw [List.drop_eq_nil_of_le hend] at h
  exact hp (List.prefix_nil.mp h)

theorem indexIn_eq_some {text p : List Nat} {first : Nat} (hp : p ≠ [])
    (h : indexIn text p = some first) :
    first ∈ occurrences text p ∧
      forall j, j ∈ occurrences text p -> first ≤ j := by
  unfold indexIn at h
  rw [if_neg hp, finds_occurrences text p 0] at h
  refine ⟨List.mem_of_find?_eq_some h, ?_⟩
  intro j hj
  have hsorted := occurrences_sorted text p
  cases hall : occurrences text p with
  | nil =>
      rw [hall] at hj
      cases hj
  | cons place rest =>
      rw [hall, List.find?_cons] at h
      change some place = some first at h
      injection h with h
      rw [hall] at hj hsorted
      rcases List.mem_cons.mp hj with hhere | hlater
      · rw [hhere, h]
      · rw [← h]
        exact Nat.le_of_lt (List.rel_of_pairwise_cons hsorted hlater)

theorem indexIn_isSome {text p : List Nat} {j : Nat} (hp : p ≠ [])
    (hj : j ∈ occurrences text p) : exists first,
      indexIn text p = some first := by
  unfold indexIn
  rw [if_neg hp]
  exact indexOf_isSome_of_mem hj

section

variable {U : Unicode} (hU : LowersInPlace U) {terms : List (List Nat)}
  (haccepted : forall t, t ∈ terms -> Accepted t) {plain : List Nat}
  (hlength : plain.length = (U.toLowerCase plain).length)

include hU haccepted hlength

theorem scan_found :
    Found U (MultiTermMatcher.new terms) plain (U.toLowerCase plain)
      (snippetScan U (MultiTermMatcher.new terms) plain (U.toLowerCase plain)
        SnippetScan.start (List.range (U.toLowerCase plain).length)) := by
  rcases new_matches terms with ⟨t, word, hmatches⟩
  exact snippetScan_start hmatches (wordsOk hU haccepted hlength)

/-- The pass finds the first word, where that word is spelled out. -/
theorem firstWordHit_eq (hspelled : EarliestSpelled U plain terms) :
    (snippetScan U (MultiTermMatcher.new terms) plain (U.toLowerCase plain)
        SnippetScan.start
        (List.range (U.toLowerCase plain).length)).firstWordHit =
      earliest (terms.map (firstWordIndex U plain)) := by
  have hfound := scan_found hU haccepted hlength
  generalize snippetScan U (MultiTermMatcher.new terms) plain
    (U.toLowerCase plain) SnippetScan.start
    (List.range (U.toLowerCase plain).length) = s at hfound ⊢
  cases hearliest : earliest (terms.map (firstWordIndex U plain)) with
  | some first =>
      rcases hspelled first hearliest with ⟨t, ht, hword, hprefixed⟩
      have hleast := (earliest_eq_some.mp hearliest).right
      rcases hfound.word t (mem_patternsOf haccepted ht) first
        (mem_occurrences_of_prefixed (haccepted t ht).nonempty hprefixed) hword
        with ⟨x, hx, hle⟩
      rcases hfound.hits.word_ge x hx with ⟨p, hp, y, hy, hyx, _⟩
      have hmem : some y ∈ terms.map (firstWordIndex U plain) := by
        rw [← hy]
        exact List.mem_map_of_mem (patternsOf_mem hp)
      rw [hx, Nat.le_antisymm hle (Nat.le_trans (hleast y hmem) hyx)]
  | none =>
      have hnone := earliest_eq_none.mp hearliest
      cases hhit : s.firstWordHit with
      | none => rfl
      | some x =>
          rcases hfound.hits.word_ge x hhit with ⟨p, hp, y, hy, _⟩
          apply absurd _ (hnone y)
          rw [← hy]
          exact List.mem_map_of_mem (patternsOf_mem hp)

/-- Without a whole word, the pass finds the first occurrence. -/
theorem firstSubHit_eq
    (hword : (snippetScan U (MultiTermMatcher.new terms) plain
      (U.toLowerCase plain) SnippetScan.start
      (List.range (U.toLowerCase plain).length)).firstWordHit = none) :
    (snippetScan U (MultiTermMatcher.new terms) plain (U.toLowerCase plain)
        SnippetScan.start
        (List.range (U.toLowerCase plain).length)).firstSubHit =
      earliest (terms.map (indexIn (U.toLowerCase plain))) := by
  have hfound := scan_found hU haccepted hlength
  generalize snippetScan U (MultiTermMatcher.new terms) plain
    (U.toLowerCase plain) SnippetScan.start
    (List.range (U.toLowerCase plain).length) = s at hfound hword ⊢
  have hleast : forall y, some y ∈ terms.map
      (indexIn (U.toLowerCase plain)) -> AtMost s.firstSubHit y := by
    intro y hy
    rcases List.mem_map.mp hy with ⟨t, ht, hindex⟩
    exact hfound.sub hword t (mem_patternsOf haccepted ht) y
      (indexIn_eq_some (haccepted t ht).nonempty hindex).left
  cases hsub : s.firstSubHit with
  | none =>
      symm
      apply earliest_eq_none.mpr
      intro y hy
      rcases hleast y hy with ⟨x, hx, _⟩
      rw [hsub] at hx
      cases hx
  | some x =>
      have hbelow : forall y, some y ∈ terms.map
          (indexIn (U.toLowerCase plain)) -> x ≤ y := by
        intro y hy
        rcases hleast y hy with ⟨z, hz, hle⟩
        rw [hsub] at hz
        injection hz with hz
        rw [hz]
        exact hle
      rcases hfound.hits.sub_mem x hsub with ⟨p, hp, hx⟩
      have hne := (haccepted p (patternsOf_mem hp)).nonempty
      rcases indexIn_isSome hne hx with ⟨first, hfirst⟩
      have hmem : some first ∈ terms.map
          (indexIn (U.toLowerCase plain)) := by
        rw [← hfirst]
        exact List.mem_map_of_mem (patternsOf_mem hp)
      symm
      apply earliest_eq_some.mpr
      rw [Nat.le_antisymm (hbelow first hmem)
        ((indexIn_eq_some hne hfirst).right x hx)]
      refine ⟨hmem, ?_⟩
      intro y hy
      rw [← Nat.le_antisymm (hbelow first hmem)
        ((indexIn_eq_some hne hfirst).right x hx)]
      exact hbelow y hy

/-- The pass finds the place that the terms find one by one. -/
theorem firstSnippetHit_eq (hspelled : EarliestSpelled U plain terms) :
    firstSnippetHit U (MultiTermMatcher.new terms) plain
        (U.toLowerCase plain) = perTermHit U plain terms := by
  have hword := firstWordHit_eq hU haccepted hlength hspelled
  unfold firstSnippetHit
  split
  · rename_i hempty
    have hterms : terms = [] := by
      apply List.eq_nil_iff_forall_not_mem.mpr
      intro t ht
      have hbad := mem_patternsOf haccepted ht
      rw [hempty] at hbad
      cases hbad
    rw [hterms]
    rfl
  · dsimp only
    unfold perTermHit
    cases hearliest : earliest (terms.map (firstWordIndex U plain)) with
    | some first =>
        rw [hword, hearliest]
        rfl
    | none =>
        rw [hearliest] at hword
        rw [firstSubHit_eq hU haccepted hlength hword, hword]
        rfl

/-- Where no occurrence stands beside a letter that is not ASCII, the pass
finds the first word only if it is spelled out. -/
theorem spelled_of_firstWordHit
    (hno : NoOtherLetter (MultiTermMatcher.new terms) (U.toLowerCase plain))
    (heq : (snippetScan U (MultiTermMatcher.new terms) plain
        (U.toLowerCase plain) SnippetScan.start
        (List.range (U.toLowerCase plain).length)).firstWordHit =
      earliest (terms.map (firstWordIndex U plain))) :
    EarliestSpelled U plain terms := by
  intro first hfirst
  rw [hfirst] at heq
  have hfound := scan_found hU haccepted hlength
  rcases hfound.hits.word_ge first heq with ⟨p, hp, y, hy, hle, hoccurs⟩
  have hterm := patternsOf_mem hp
  have hmem : some y ∈ terms.map (firstWordIndex U plain) := by
    rw [← hy]
    exact List.mem_map_of_mem hterm
  have hleast := (earliest_eq_some.mp hfirst).right y hmem
  rw [← Nat.le_antisymm hleast hle] at hy
  exact ⟨p, hterm, hy, (prefix_of_mem_occurrences (hoccurs hno)).right⟩

/-- Terms that do not occur in the lower-cased text have no place in it. -/
theorem firstSnippetHit_eq_none
    (hnone : forall t, t ∈ terms -> occurrences (U.toLowerCase plain) t = []) :
    firstSnippetHit U (MultiTermMatcher.new terms) plain
        (U.toLowerCase plain) = none := by
  have hfound := scan_found hU haccepted hlength
  have hempty : forall p, p ∈ (MultiTermMatcher.new terms).patternStr ->
      forall i, i ∉ occurrences (U.toLowerCase plain) p := by
    intro p hp i hi
    rw [hnone p (patternsOf_mem hp)] at hi
    cases hi
  have hno : NoOtherLetter (MultiTermMatcher.new terms)
      (U.toLowerCase plain) :=
    fun p hp i hi => absurd hi (hempty p hp i)
  unfold firstSnippetHit
  split
  · rfl
  · dsimp only
    rw [Option.or_eq_none_iff]
    constructor
    · cases hhit : (snippetScan U (MultiTermMatcher.new terms) plain
          (U.toLowerCase plain) SnippetScan.start
          (List.range (U.toLowerCase plain).length)).firstWordHit with
      | none => rfl
      | some x =>
          rcases hfound.hits.word_ge x hhit with ⟨p, hp, _, _, _, hoccurs⟩
          exact absurd (hoccurs hno) (hempty p hp x)
    · cases hhit : (snippetScan U (MultiTermMatcher.new terms) plain
          (U.toLowerCase plain) SnippetScan.start
          (List.range (U.toLowerCase plain).length)).firstSubHit with
      | none => rfl
      | some x =>
          rcases hfound.hits.sub_mem x hhit with ⟨p, hp, hoccurs⟩
          exact absurd hoccurs (hempty p hp x)

end

/-!
## The snippet
-/

theorem all_patterns {terms : List (List Nat)}
    (haccepted : forall t, t ∈ terms -> Accepted t) :
    hasNonAsciiOrRejected (MultiTermMatcher.new terms) = false := by
  unfold hasNonAsciiOrRejected
  apply Bool.eq_false_iff.mpr
  intro hany
  rcases List.any_eq_true.mp hany with ⟨index, hindex, hother⟩
  rcases List.getElem?_of_mem hindex with ⟨i, hi⟩
  have hindexed := (patternsOf_ok terms).indexed
  have hlt : i < terms.length := by
    rw [hindexed.length_eq]
    exact (List.getElem?_eq_some_iff.mp hi).1
  have hterm : terms[i]? = some terms[i] := List.getElem?_eq_getElem hlt
  rcases pattern_of_accepted hterm
    (haccepted _ (List.mem_of_getElem? hterm)) with ⟨m, hm, _⟩
  rw [hi] at hm
  injection hm with hm
  rw [hm] at hother
  cases hother

variable {U : Unicode}

/-- The text that is searched is as long in lower case, so that the one pass
is used. -/
def LowersAlike (U : Unicode) (plain : List Nat) : Prop :=
  plain.length = (U.toLowerCase plain).length

theorem snippetFor_eq {earlier : List Scoring} {terms : List (List Nat)}
    (hmany : multiTermThreshold < terms.length)
    (haccepted : forall t, t ∈ terms -> Accepted t ∧ 0 ∉ t)
    (markdown : List Nat) (maxLength : Nat) :
    (snippetFor U (cacheAfter U earlier) markdown terms maxLength).1 =
      snippetAt (plainOf markdown)
        (if (plainOf markdown).length =
            (U.toLowerCase (plainOf markdown)).length then
          firstSnippetHit U (MultiTermMatcher.new terms) (plainOf markdown)
            (U.toLowerCase (plainOf markdown))
        else perTermHit U (plainOf markdown) terms) maxLength := by
  have hterms : terms ≠ [] := by
    intro hempty
    rw [hempty] at hmany
    exact absurd hmany (by decide)
  have hmatcher := (getMultiTermMatcher_honest
    (cacheAfter_honest (U := U) earlier) hterms
    fun t ht => (haccepted t ht).right).left
  unfold snippetFor
  dsimp only
  rw [if_pos hmany, hmatcher]
  unfold fastHit
  dsimp only
  rw [all_patterns fun t ht => (haccepted t ht).left]
  split
  · rename_i hboth
    rw [if_pos hboth.right]
    rfl
  · rename_i hneither
    rw [if_neg fun hlength => hneither ⟨rfl, hlength⟩]
    rfl

/-- Where the first word is spelled out in lower case, the snippet does not
depend on the path.  Beside ASCII only, the pass finds the first word exactly
where it is spelled out. -/
theorem snippetFor_of_spelled (hU : LowersInPlace U)
    (earlier : List Scoring) {terms : List (List Nat)}
    (hmany : multiTermThreshold < terms.length)
    (haccepted : forall t, t ∈ terms -> Accepted t ∧ 0 ∉ t)
    (markdown : List Nat) (maxLength : Nat) :
    ((LowersAlike U (plainOf markdown) ->
        EarliestSpelled U (plainOf markdown) terms) ->
      (snippetFor U (cacheAfter U earlier) markdown terms maxLength).1 =
        perTermSnippet U markdown terms maxLength) ∧
      (LowersAlike U (plainOf markdown) ->
        NoOtherLetter (MultiTermMatcher.new terms)
          (U.toLowerCase (plainOf markdown)) ->
        ((snippetScan U (MultiTermMatcher.new terms) (plainOf markdown)
              (U.toLowerCase (plainOf markdown)) SnippetScan.start
              (List.range
                (U.toLowerCase (plainOf markdown)).length)).firstWordHit =
            earliest (terms.map (firstWordIndex U (plainOf markdown))) <->
          EarliestSpelled U (plainOf markdown) terms)) := by
  have hterms : forall t, t ∈ terms -> Accepted t :=
    fun t ht => (haccepted t ht).left
  constructor
  · intro hspelled
    rw [snippetFor_eq hmany haccepted]
    unfold perTermSnippet
    split
    · rename_i hlength
      rw [firstSnippetHit_eq hU hterms hlength (hspelled hlength)]
    · rfl
  · intro hlength hno
    exact ⟨spelled_of_firstWordHit hU hterms hlength hno,
      firstWordHit_eq hU hterms hlength⟩

/-!
## A long s
-/

namespace Accented

theorem isHigh_lowerUnit (c : Nat) : isHigh (lowerUnit c) = isHigh c := by
  unfold lowerUnit
  split
  · rename_i hupper
    unfold isAsciiUpper at hupper
    simp only [Bool.and_eq_true, decide_eq_true_eq] at hupper
    rw [not_high_of_ascii (by omega), not_high_of_ascii (by omega)]
  · split
    · rename_i hkelvin
      rw [hkelvin]
      rfl
    · rfl

theorem isLow_lowerUnit (c : Nat) : isLow (lowerUnit c) = isLow c := by
  unfold lowerUnit
  split
  · rename_i hupper
    unfold isAsciiUpper at hupper
    simp only [Bool.and_eq_true, decide_eq_true_eq] at hupper
    rw [not_low_of_ascii (by omega), not_low_of_ascii (by omega)]
  · split
    · rename_i hkelvin
      rw [hkelvin]
      rfl
    · rfl

theorem lowerUnit_surrogate {c : Nat} (h : 0xd800 ≤ c) : lowerUnit c = c := by
  unfold lowerUnit isAsciiUpper
  rw [decide_eq_false (p := c ≤ 90) (by omega), Bool.and_false,
    if_neg Bool.false_ne_true, if_neg (by omega)]

theorem foldUnit_lowerUnit (c : Nat) :
    foldUnit c = foldUnit (lowerUnit c) := by
  unfold lowerUnit
  split
  · rename_i hupper
    unfold isAsciiUpper at hupper
    simp only [Bool.and_eq_true, decide_eq_true_eq] at hupper
    unfold foldUnit isAsciiUpper
    rw [decide_eq_true hupper.left, decide_eq_true hupper.right,
      decide_eq_false (p := c + 32 ≤ 90) (by omega), Bool.and_false,
      if_neg Bool.false_ne_true, if_neg (show ¬ c + 32 = 0x17f by omega),
      if_neg (show ¬ c + 32 = 0x212a by omega)]
    rfl
  · split
    · rename_i hkelvin
      rw [hkelvin]
      rfl
    · rfl

theorem codePoints_lower (s : List Nat) :
    List.Forall₂ (SameFold unicode) (codePoints s)
      (codePoints (s.map lowerUnit)) := by
  induction s using codePoints.induct with
  | case1 => exact List.Forall₂.nil
  | case2 u => exact List.Forall₂.cons (foldUnit_lowerUnit u) List.Forall₂.nil
  | case3 u v rest hpair ih =>
      have hsurrogates : 0xd800 ≤ u ∧ 0xd800 ≤ v := by
        unfold isHigh isLow at hpair
        simp only [Bool.and_eq_true, decide_eq_true_eq] at hpair
        omega
      rw [List.map_cons, List.map_cons, lowerUnit_surrogate hsurrogates.left,
        lowerUnit_surrogate hsurrogates.right, codePoints, if_pos hpair,
        codePoints, if_pos hpair]
      exact List.Forall₂.cons rfl ih
  | case4 u v rest hpair ih =>
      rw [List.map_cons] at ih
      rw [List.map_cons, List.map_cons, codePoints, if_neg hpair, codePoints,
        isHigh_lowerUnit, isLow_lowerUnit, if_neg hpair]
      exact List.Forall₂.cons (foldUnit_lowerUnit u) ih

theorem lowersInPlace : LowersInPlace unicode where
  keeps := by
    intro s hpure
    change s.map lowerUnit = s
    refine Eq.trans (List.map_congr_left ?_) (List.map_id s)
    intro c hc
    have hkept := List.all_eq_true.mp hpure c hc
    rw [Bool.not_eq_true', Bool.or_eq_false_iff, decide_eq_false_iff_not]
      at hkept
    have hupper : isAsciiUpper c = false := hkept.right
    unfold lowerUnit
    rw [hupper, if_neg Bool.false_ne_true, if_neg (by omega)]
    rfl
  splits := by
    intro s _ i
    unfold splitsPair
    change _ = (((s.map lowerUnit).take i).getLast?.any isHigh &&
      ((s.map lowerUnit).drop i).head?.any isLow)
    rw [← List.map_take, ← List.map_drop, List.getLast?_map, List.head?_map,
      Option.any_map, Option.any_map]
    congr 2
    · funext c
      exact (isHigh_lowerUnit c).symm
    · funext c
      exact (isLow_lowerUnit c).symm
  folds := by
    intro s _ i _
    change List.Forall₂ _ _ (codePoints ((s.map lowerUnit).take i)) ∧
      List.Forall₂ _ _ (codePoints ((s.map lowerUnit).drop i))
    rw [← List.map_take, ← List.map_drop]
    exact ⟨codePoints_lower _, codePoints_lower _⟩

def stone : List Nat :=
  [115, 116, 111, 110, 101]

/-- Nine terms, of which the first is `stone`. -/
def terms : List (List Nat) :=
  stone :: (List.range 8).map fun i => [97 + i, 97 + i]

/-- A word that a long s begins, behind 81 exclamation marks. -/
def page : List Nat :=
  List.replicate 81 33 ++ 0x17f :: stone.tail

theorem terms_accepted : forall t, t ∈ terms -> Accepted t ∧ 0 ∉ t := by
  have hall : forall t, t ∈ terms -> t ≠ [] ∧ isPureLowerAscii t = true ∧
      asciiRejected t = false ∧ 0 ∉ t := by
    decide
  intro t ht
  rcases hall t ht with ⟨hne, hpure, hkept, hzero⟩
  exact ⟨{ nonempty := hne, pure := hpure, kept := hkept }, hzero⟩

theorem plainOf_page : plainOf page = page := by
  decide +kernel

theorem page_unspelled :
    (snippetFor unicode (cacheAfter unicode []) page terms 280).1 ≠
      perTermSnippet unicode page terms 280 := by
  have hnone : forall t, t ∈ terms ->
      occurrences (unicode.toLowerCase page) t = [] := by
    decide +kernel
  have hlength : page.length = (unicode.toLowerCase page).length := by
    decide +kernel
  rw [snippetFor_eq (by decide) terms_accepted, plainOf_page, if_pos hlength,
    firstSnippetHit_eq_none lowersInPlace
      (fun t ht => (terms_accepted t ht).left) hlength hnone]
  decide +kernel

theorem stone_spelled :
    EarliestSpelled unicode (plainOf stone) terms := by
  have hfound : earliest (terms.map (firstWordIndex unicode (plainOf stone))) =
      some 0 := by
    decide +kernel
  intro first hfirst
  rw [hfound] at hfirst
  injection hfirst with hfirst
  rw [← hfirst]
  exact ⟨stone, List.mem_cons_self, by decide +kernel, by decide +kernel⟩

end Accented

theorem snippetFor_of_spelled_stone :
    (snippetFor Accented.unicode (cacheAfter Accented.unicode [])
        Accented.stone Accented.terms 280).1 =
      perTermSnippet Accented.unicode Accented.stone Accented.terms 280 :=
  (snippetFor_of_spelled Accented.lowersInPlace [] (by decide)
    Accented.terms_accepted Accented.stone 280).left
      fun _ => Accented.stone_spelled

end Vault
end Minni
