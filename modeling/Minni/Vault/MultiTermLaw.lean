import Mathlib.Data.List.Forall2
import Mathlib.Data.List.Sort
import Minni.Vault.TermLinks
import Minni.Vault.WordScan

/-!
# One pass counts as each term alone

The pass visits the occurrences of each pattern in their order, as the scan
for that pattern does, and so ends with the count of that scan.
-/

namespace Minni
namespace Vault

open Foundation
open Foundation.Scan

/-!
## The patterns of a list of terms
-/

/-- A term that is counted as a pattern. -/
structure Accepted (p : List Nat) : Prop extends AsciiTerm p where
  kept : asciiRejected p = false

def IndexOk (patterns : List (List Nat)) (t : List Nat) : TermIndex -> Prop
  | .pattern m => patterns[m]? = some t
  | .rejected =>
      t = [] ∨ (isPureLowerAscii t = true ∧ asciiRejected t = true)
  | .notAscii => t ≠ [] ∧ isPureLowerAscii t = false

theorem IndexOk.append {patterns more : List (List Nat)} {t : List Nat}
    {index : TermIndex} (h : IndexOk patterns t index) :
    IndexOk (patterns ++ more) t index := by
  cases index with
  | pattern m =>
      have hlt : m < patterns.length := (List.getElem?_eq_some_iff.mp h).1
      change (patterns ++ more)[m]? = some t
      rw [List.getElem?_append_left hlt]
      exact h
  | rejected => exact h
  | notAscii => exact h

structure PatternsOk (terms : List (List Nat)) (s : Patterns) : Prop where
  nodup : s.patternStr.Nodup
  accepted : forall {p}, p ∈ s.patternStr -> Accepted p
  indexed : List.Forall₂ (IndexOk s.patternStr) terms s.termToPatIdx

theorem addTerm_ok {terms : List (List Nat)} {s : Patterns} (t : List Nat)
    (h : PatternsOk terms s) : PatternsOk (terms ++ [t]) (addTerm s t) := by
  have hindex : forall {index}, IndexOk s.patternStr t index ->
      PatternsOk (terms ++ [t])
        { s with termToPatIdx := s.termToPatIdx ++ [index] } := by
    intro index hok
    exact {
      nodup := h.nodup
      accepted := h.accepted
      indexed := List.rel_append h.indexed
        (List.Forall₂.cons hok List.Forall₂.nil) }
  unfold addTerm
  dsimp only
  split
  · rename_i hempty
    exact hindex (Or.inl hempty)
  · rename_i hne
    split
    · rename_i hpure
      exact hindex ⟨hne, by simpa using hpure⟩
    · rename_i hpure
      have hascii : AsciiTerm t := ⟨hne, by simpa using hpure⟩
      cases hseen : s.patternStr.idxOf? t with
      | some existing =>
          apply hindex
          rcases List.idxOf?_eq_some_iff.mp hseen with ⟨hlt, heq, _⟩
          change s.patternStr[existing]? = some t
          rw [List.getElem?_eq_getElem hlt, heq]
      | none =>
          have hfresh : t ∉ s.patternStr := by
            rw [List.idxOf?_eq_none_iff] at hseen
            exact hseen
          dsimp only
          split
          · rename_i hrejected
            exact hindex (Or.inr ⟨hascii.pure, hrejected⟩)
          · rename_i hkept
            exact {
              nodup := by
                apply List.nodup_append.mpr
                refine ⟨h.nodup, List.nodup_singleton t, ?_⟩
                intro p hp q hq heq
                rw [heq, List.mem_singleton.mp hq] at hp
                exact hfresh hp
              accepted := by
                intro p hp
                rcases List.mem_append.mp hp with hbefore | hlast
                · exact h.accepted hbefore
                · rw [List.mem_singleton.mp hlast]
                  exact { hascii with kept := by simpa using hkept }
              indexed := by
                apply List.rel_append
                · exact h.indexed.imp fun _ _ hok => hok.append
                · apply List.Forall₂.cons _ List.Forall₂.nil
                  exact List.getElem?_concat_length }

theorem patternsOf_ok (terms : List (List Nat)) :
    PatternsOk terms (patternsOf terms) := by
  induction terms using List.reverseRecOn with
  | nil =>
      exact {
        nodup := List.nodup_nil
        accepted := fun hp => absurd hp List.not_mem_nil
        indexed := List.Forall₂.nil }
  | append_singleton terms t ih =>
      unfold patternsOf
      rw [List.foldl_append]
      exact addTerm_ok t ih

/-!
## The chain of patterns at a state
-/

/-- A matcher whose chains name every pattern that ends at a word. -/
structure Chained (matcher : MultiTermMatcher) : Prop where
  nodup : matcher.patternStr.Nodup
  accepted : forall {p}, p ∈ matcher.patternStr -> Accepted p
  next : forall {m p}, matcher.patternStr[m]? = some p ->
    EndsAt matcher.patternStr p.tail (matcher.nextMatch m)

theorem countP_lt {l : List (List Nat)} {p q : List Nat -> Bool}
    (h : forall w, p w = true -> q w = true) {x : List Nat} (hx : x ∈ l)
    (hq : q x = true) (hp : p x = false) : l.countP p < l.countP q := by
  induction l with
  | nil => cases hx
  | cons y l ih =>
      have hle : l.countP p ≤ l.countP q :=
        List.countP_mono_left fun w _ => h w
      rcases List.mem_cons.mp hx with hhere | hlater
      · rw [← hhere, List.countP_cons, List.countP_cons, hp, hq]
        exact Nat.lt_succ_of_le hle
      · have hrest := ih hlater
        rw [List.countP_cons, List.countP_cons]
        cases hy : p y with
        | true =>
            rw [h y hy]
            exact Nat.succ_lt_succ hrest
        | false =>
            exact Nat.lt_of_lt_of_le hrest (Nat.le_add_right _ _)

theorem not_suffix_tail {p : List Nat} (h : p ≠ []) : ¬ p <:+ p.tail := by
  intro hsuffix
  have hlength := hsuffix.length_le
  rw [List.length_tail] at hlength
  have hpos := List.length_pos_iff.mpr h
  omega

/-- The patterns that the chain from `found` on names. -/
def chainOf (matcher : MultiTermMatcher) :
    (fuel : Nat) -> Option Nat -> List Nat
  | 0, _ => []
  | _ + 1, none => []
  | fuel + 1, some m => m :: chainOf matcher fuel (matcher.nextMatch m)

section

variable {matcher : MultiTermMatcher} (hchained : Chained matcher)

include hchained

/-- The chain names each pattern that ends at the word, once. -/
theorem chainOf_spec {fuel : Nat} {found : Option Nat} {w : List Nat}
    (hfound : EndsAt matcher.patternStr w found)
    (hfuel : matcher.patternStr.countP (fun p => p.isSuffixOf w) ≤ fuel) :
    (chainOf matcher fuel found).Nodup ∧
      forall m, m ∈ chainOf matcher fuel found <->
        exists p, matcher.patternStr[m]? = some p ∧ p <:+ w := by
  induction fuel generalizing found w with
  | zero =>
      refine ⟨List.nodup_nil, fun m => ⟨fun hm => absurd hm List.not_mem_nil, ?_⟩⟩
      intro h
      rcases h with ⟨p, hm, hends⟩
      have hpos : 0 < matcher.patternStr.countP fun p => p.isSuffixOf w :=
        List.countP_pos_iff.mpr
          ⟨p, List.mem_of_getElem? hm, List.isSuffixOf_iff_suffix.mpr hends⟩
      exact absurd hfuel (Nat.not_le.mpr hpos)
  | succ fuel ih =>
      cases found with
      | none =>
          refine ⟨List.nodup_nil,
            fun m => ⟨fun hm => absurd hm List.not_mem_nil, ?_⟩⟩
          intro h
          rcases h with ⟨p, hm, hends⟩
          exact absurd hends (hfound.none rfl p (List.mem_of_getElem? hm))
      | some first =>
          rcases hfound.some rfl with ⟨q, hq, hlongest⟩
          have hqne : q ≠ [] := (hchained.accepted hlongest.isKnown).nonempty
          have hshorter : forall v : List Nat, v.isSuffixOf q.tail = true ->
              v.isSuffixOf w = true := by
            intro v hv
            apply List.isSuffixOf_iff_suffix.mpr
            exact List.IsSuffix.trans (List.isSuffixOf_iff_suffix.mp hv)
              (List.IsSuffix.trans (List.tail_suffix q) hlongest.isSuffix)
          have hless : matcher.patternStr.countP
              (fun p => p.isSuffixOf q.tail) ≤ fuel := by
            apply Nat.le_of_lt_succ
            refine Nat.lt_of_lt_of_le ?_ hfuel
            apply countP_lt hshorter hlongest.isKnown
              (List.isSuffixOf_iff_suffix.mpr hlongest.isSuffix)
            rw [Bool.eq_false_iff]
            intro hbad
            exact not_suffix_tail hqne (List.isSuffixOf_iff_suffix.mp hbad)
          rcases ih (hchained.next hq) hless with ⟨hnodup, hmem⟩
          rw [chainOf]
          constructor
          · apply List.nodup_cons.mpr
            refine ⟨?_, hnodup⟩
            intro hbad
            rcases (hmem first).mp hbad with ⟨p, hp, hends⟩
            rw [hq] at hp
            injection hp with hp
            rw [← hp] at hends
            exact not_suffix_tail hqne hends
          · intro m
            rw [List.mem_cons, hmem]
            constructor
            · intro h
              rcases h with hfirst | ⟨p, hm, hends⟩
              · rw [hfirst]
                exact ⟨q, hq, hlongest.isSuffix⟩
              · exact ⟨p, hm, List.isSuffixOf_iff_suffix.mp
                  (hshorter p (List.isSuffixOf_iff_suffix.mpr hends))⟩
            · intro h
              rcases h with ⟨p, hm, hends⟩
              have hin := hlongest.longest p hends (List.mem_of_getElem? hm)
              rcases List.exists_cons_of_ne_nil hqne with ⟨c, tail, hcons⟩
              rw [hcons] at hin
              rcases List.suffix_cons_iff.mp hin with hwhole | hpart
              · apply Or.inl
                rw [hwhole, ← hcons, ← hq] at hm
                exact (List.getElem?_inj (List.getElem?_eq_some_iff.mp
                  (hm.trans hq)).1 hchained.nodup).mp hm
              · apply Or.inr
                rw [hcons]
                exact ⟨p, hm, hpart⟩

end

theorem foldl_update {f : Nat -> Cursor -> Cursor} {ms : List Nat}
    (hnodup : ms.Nodup) (cursors : Nat -> Cursor) (m : Nat) :
    ms.foldl (fun c n => Function.update c n (f n (c n))) cursors m =
      if m ∈ ms then f m (cursors m) else cursors m := by
  induction ms generalizing cursors with
  | nil => rfl
  | cons n ms ih =>
      have hrest := List.nodup_cons.mp hnodup
      rw [List.foldl_cons, ih hrest.right]
      by_cases hmn : m = n
      · rw [hmn, if_neg hrest.left, if_pos List.mem_cons_self,
          Function.update_self]
      · rw [Function.update_of_ne hmn]
        simp only [List.mem_cons, hmn, false_or]

theorem visitChain_eq (matcher : MultiTermMatcher) (text : List Nat)
    (maxCount afterIdx fuel : Nat) (found : Option Nat)
    (cursors : Nat -> Cursor) :
    visitChain matcher text maxCount afterIdx fuel found cursors =
      (chainOf matcher fuel found).foldl
        (fun c n => Function.update c n
          (patternVisit matcher text maxCount n afterIdx (c n))) cursors := by
  induction fuel generalizing found cursors with
  | zero => rfl
  | succ fuel ih =>
      cases found with
      | none => rfl
      | some first =>
          rw [visitChain, ih]
          rfl

/-- The chain visits each pattern that ends at the word, once. -/
theorem visitChain_apply {matcher : MultiTermMatcher}
    (hchained : Chained matcher) {text : List Nat}
    {maxCount afterIdx fuel : Nat} {found : Option Nat}
    {cursors : Nat -> Cursor} {w : List Nat}
    (hfound : EndsAt matcher.patternStr w found)
    (hfuel : matcher.patternStr.countP (fun p => p.isSuffixOf w) ≤ fuel)
    {m : Nat} {p : List Nat} (hm : matcher.patternStr[m]? = some p) :
    visitChain matcher text maxCount afterIdx fuel found cursors m =
      if p <:+ w then
        patternVisit matcher text maxCount m afterIdx (cursors m)
      else cursors m := by
  rcases chainOf_spec hchained hfound hfuel with ⟨hnodup, hmem⟩
  rw [visitChain_eq, foldl_update hnodup]
  have hnamed : m ∈ chainOf matcher fuel found <-> p <:+ w := by
    rw [hmem]
    constructor
    · intro h
      rcases h with ⟨q, hq, hends⟩
      rw [hm] at hq
      injection hq with hq
      rw [hq]
      exact hends
    · intro hends
      exact ⟨p, hm, hends⟩
  simp only [hnamed]

/-!
## The occurrences that the pass visits
-/

/-- Where the occurrences of `p` begin that end among the first `i` code
units. -/
def endPlaces (text p : List Nat) (i : Nat) : List Nat :=
  ((List.range i).filter fun j => p.isSuffixOf (text.take (j + 1))).map
    fun j => j + 1 - p.length

theorem endPlaces_succ (text p : List Nat) (i : Nat) :
    endPlaces text p (i + 1) =
      endPlaces text p i ++
        if p <:+ text.take (i + 1) then [i + 1 - p.length] else [] := by
  unfold endPlaces
  rw [List.range_succ, List.filter_append, List.map_append]
  simp only [List.filter_cons, List.filter_nil, List.isSuffixOf_iff_suffix]
  split
  · rfl
  · rfl

/-- A word ends at a place exactly where it begins its length before. -/
theorem suffix_take_iff {text p : List Nat} {i : Nat}
    (hi : i ≤ text.length) :
    p <:+ text.take i <->
      p.length ≤ i ∧ p <+: text.drop (i - p.length) := by
  constructor
  · intro h
    have hlength := h.length_le
    rw [List.length_take, Nat.min_eq_left hi] at hlength
    refine ⟨hlength, ?_⟩
    have hdrop := List.suffix_iff_eq_drop.mp h
    rw [List.length_take, Nat.min_eq_left hi, List.drop_take,
      Nat.sub_sub_self hlength] at hdrop
    rw [hdrop]
    have hprefixed := List.take_prefix p.length
      (text.drop (i - p.length))
    rw [← hdrop]
    rw [← hdrop] at hprefixed
    exact hprefixed
  · intro h
    rcases h with ⟨hlength, hprefixed⟩
    have htake := List.prefix_iff_eq_take.mp hprefixed
    apply List.suffix_iff_eq_drop.mpr
    rw [List.length_take, Nat.min_eq_left hi, List.drop_take,
      Nat.sub_sub_self hlength]
    exact htake

theorem endPlaces_eq {text p : List Nat} (hp : p ≠ []) :
    endPlaces text p text.length = occurrences text p := by
  have hpos := List.length_pos_iff.mpr hp
  have hends : forall {j}, j ∈ (List.range text.length).filter
      (fun j => p.isSuffixOf (text.take (j + 1))) ->
        j < text.length ∧ p.length ≤ j + 1 ∧
          p <+: text.drop (j + 1 - p.length) := by
    intro j hj
    rcases List.mem_filter.mp hj with ⟨hrange, hsuffix⟩
    have hlt := List.mem_range.mp hrange
    exact ⟨hlt, (suffix_take_iff hlt).mp
      (List.isSuffixOf_iff_suffix.mp hsuffix)⟩
  have hsorted : (endPlaces text p text.length).Pairwise (· < ·) := by
    unfold endPlaces
    rw [List.pairwise_map]
    have hrange := (List.pairwise_lt_range (n := text.length)).sublist
      (List.filter_sublist
        (p := fun j => p.isSuffixOf (text.take (j + 1))))
    refine hrange.imp_of_mem ?_
    intro j k hj hk hlt
    have hjends := hends hj
    omega
  have hirrefl : Std.Irrefl (fun a b : Nat => a < b) :=
    ⟨fun a => Nat.lt_irrefl a⟩
  apply List.Pairwise.eq_of_mem_iff hsorted (occurrences_sorted text p)
  intro i
  unfold occurrences
  rw [List.mem_filter, List.mem_range, List.isPrefixOf_iff_prefix]
  constructor
  · intro hi
    rcases List.mem_map.mp hi with ⟨j, hj, hplace⟩
    rcases hends hj with ⟨hlt, hlength, hprefixed⟩
    rw [← hplace]
    exact ⟨by omega, hprefixed⟩
  · intro hi
    rcases hi with ⟨hlt, hprefixed⟩
    have hlength := hprefixed.length_le
    rw [List.length_drop] at hlength
    apply List.mem_map.mpr
    refine ⟨i + p.length - 1, ?_, by omega⟩
    have hend : i + p.length - 1 + 1 = i + p.length := by omega
    apply List.mem_filter.mpr
    refine ⟨List.mem_range.mpr (by omega), ?_⟩
    apply List.isSuffixOf_iff_suffix.mpr
    rw [hend]
    apply (suffix_take_iff (by omega)).mpr
    rw [Nat.add_sub_cancel]
    exact ⟨Nat.le_add_left _ _, hprefixed⟩

/-!
## The pass
-/

/-- The tables of a matcher beside the words of its states. -/
structure Matches (matcher : MultiTermMatcher) (t : Trie)
    (word : Nat -> List Nat) : Prop extends Chained matcher where
  grown : Grown t word
  marked : Marked t word matcher.patternStr
  goto : forall {s c}, s < t.numStates -> c < 128 -> exists v,
    matcher.gotoTable s c = some v ∧ v < t.numStates ∧
      LongestSuffix (Known t word) (word s ++ [c]) (word v)
  first : forall {s}, s < t.numStates ->
    EndsAt matcher.patternStr (word s) (matcher.firstMatchAtState s)

theorem new_matches (terms : List (List Nat)) :
    exists t word, Matches (MultiTermMatcher.new terms) t word := by
  have hok := patternsOf_ok terms
  have hnonempty : [] ∉ (patternsOf terms).patternStr :=
    fun hp => (hok.accepted hp).nonempty rfl
  have hascii : forall p, p ∈ (patternsOf terms).patternStr ->
      forall c, c ∈ p -> c < 128 :=
    fun p hp c hc => ((hok.accepted hp).mem hc).left
  rcases buildAutomaton_complete hok.nodup hnonempty hascii with
    ⟨word, hgrown, hmarked, hcomplete⟩
  exact ⟨buildTrie (patternsOf terms).patternStr, word, {
    nodup := hok.nodup
    accepted := hok.accepted
    next := hcomplete.next
    grown := hgrown
    marked := hmarked
    goto := hcomplete.goto
    first := hcomplete.first }⟩

/-- After `i` code units, the state knows the longest word that ends there. -/
structure Reads (t : Trie) (word : Nat -> List Nat) (text : List Nat)
    (i state : Nat) : Prop where
  state_lt : state < t.numStates
  longest : LongestSuffix (Known t word) (text.take i) (word state)

theorem take_succ_charCodeAt {text : List Nat} {i : Nat}
    (hi : i < text.length) :
    text.take (i + 1) = text.take i ++ [charCodeAt text i] := by
  have hcode : charCodeAt text i = text[i] := by
    unfold charCodeAt
    rw [List.getD_eq_getElem?_getD, List.getElem?_eq_getElem hi]
    rfl
  rw [hcode]
  exact List.take_succ_eq_append_getElem hi

section

variable {matcher : MultiTermMatcher} {t : Trie} {word : Nat -> List Nat}
  {text : List Nat} {i state : Nat} (hmatches : Matches matcher t word)

include hmatches

theorem Matches.reads_zero : Reads t word text 0 0 := by
  constructor
  · exact hmatches.grown.pos
  · rw [List.take_zero, hmatches.grown.root]
    exact LongestSuffix.of_nil hmatches.grown.prefixClosed

/-- No word ends at a code unit that is not ASCII. -/
theorem Matches.read_wide (hi : i < text.length)
    (hwide : 128 ≤ charCodeAt text i) :
    Reads t word text (i + 1) 0 ∧
      forall p, p ∈ matcher.patternStr -> ¬ p <:+ text.take (i + 1) := by
  have hunknown : forall init,
      ¬ Known t word (init ++ [charCodeAt text i]) := by
    intro init hknown
    rcases hknown with ⟨v, hv, hword⟩
    have hascii : charCodeAt text i < 128 := by
      apply hmatches.grown.ascii hv
      rw [hword]
      exact List.mem_append_right _ (List.mem_singleton_self _)
    exact absurd hascii (Nat.not_lt.mpr hwide)
  refine ⟨⟨hmatches.grown.pos, ?_⟩, ?_⟩
  · rw [take_succ_charCodeAt hi, hmatches.grown.root]
    exact LongestSuffix.snoc_unknown hmatches.grown.prefixClosed hunknown
  · intro p hp hends
    rw [take_succ_charCodeAt hi] at hends
    rcases LongestSuffix.suffix_snoc_cases hends with hnil | ⟨init, hinit, _⟩
    · exact (hmatches.accepted hp).nonempty hnil
    · apply hunknown init
      rw [← hinit]
      exact hmatches.marked.known hp

/-- Behind a code unit of ASCII, the state begins the chain of the patterns
that end there. -/
theorem Matches.read_ascii (hi : i < text.length)
    (h : Reads t word text i state)
    (hascii : charCodeAt text i < 128) :
    Reads t word text (i + 1)
        ((matcher.gotoTable state (charCodeAt text i)).getD 0) ∧
      EndsAt matcher.patternStr (text.take (i + 1))
        (matcher.firstMatchAtState
          ((matcher.gotoTable state (charCodeAt text i)).getD 0)) := by
  rcases hmatches.goto h.state_lt hascii with ⟨v, hgoto, hv, hnext⟩
  have hlongest : LongestSuffix (Known t word) (text.take (i + 1))
      (word v) := by
    rw [take_succ_charCodeAt hi]
    exact h.longest.snoc hmatches.grown.prefixClosed hnext
  rw [hgoto]
  exact ⟨⟨hv, hlongest⟩, (hmatches.first hv).of_longest
    (fun _ hp => hmatches.marked.known hp) hlongest⟩

end

/-- After `i` code units, each pattern was scanned as far as its occurrences
have ended. -/
structure PassOk (matcher : MultiTermMatcher) (text : List Nat)
    (maxCount : Nat) (t : Trie) (word : Nat -> List Nat) (i : Nat)
    (s : Pass) : Prop where
  reads : Reads t word text i s.state
  cursors : forall {m p}, matcher.patternStr[m]? = some p ->
    s.cursors m = scan (termVerdict text p true) maxCount Cursor.start
      (endPlaces text p i)

theorem patternVisit_eq {matcher : MultiTermMatcher} {text : List Nat}
    {maxCount afterIdx m : Nat} {cursor : Cursor} {p : List Nat}
    (hm : matcher.patternStr[m]? = some p) :
    patternVisit matcher text maxCount m afterIdx cursor =
      visit (termVerdict text p true) maxCount cursor
        (afterIdx - p.length) := by
  unfold patternVisit
  rw [List.getD_eq_getElem?_getD, hm]
  rfl

theorem readUnit_ok {matcher : MultiTermMatcher} {text : List Nat}
    {maxCount : Nat} {t : Trie} {word : Nat -> List Nat} {i : Nat}
    {s : Pass} (hmatches : Matches matcher t word) (hi : i < text.length)
    (h : PassOk matcher text maxCount t word i s) :
    PassOk matcher text maxCount t word (i + 1)
      (readUnit matcher text maxCount s i) := by
  unfold readUnit
  dsimp only
  split
  · rename_i hwide
    rcases hmatches.read_wide hi hwide with ⟨hreads, hnone⟩
    refine ⟨hreads, ?_⟩
    intro m p hm
    rw [endPlaces_succ, if_neg (hnone p (List.mem_of_getElem? hm)),
      List.append_nil]
    exact h.cursors hm
  · rename_i hascii
    rcases hmatches.read_ascii hi h.reads (Nat.lt_of_not_le hascii) with
      ⟨hreads, hends⟩
    refine ⟨hreads, ?_⟩
    intro m p hm
    dsimp only
    rw [visitChain_apply hmatches.toChained hends List.countP_le_length hm,
      endPlaces_succ, patternVisit_eq hm, h.cursors hm]
    split
    · rw [scan_append]
      rfl
    · rw [List.append_nil]

theorem pass_ok {matcher : MultiTermMatcher} {t : Trie}
    {word : Nat -> List Nat} (hmatches : Matches matcher t word)
    (text : List Nat) (maxCount : Nat) :
    PassOk matcher text maxCount t word text.length
      (pass matcher text maxCount) := by
  have hprefixed : forall i, i ≤ text.length ->
      PassOk matcher text maxCount t word i
        ((List.range i).foldl (readUnit matcher text maxCount)
          { state := 0, cursors := fun _ => Cursor.start }) := by
    intro i
    induction i with
    | zero =>
        intro _
        refine ⟨hmatches.reads_zero, ?_⟩
        intro m p _
        rfl
    | succ i ih =>
        intro hi
        rw [List.range_succ, List.foldl_append]
        exact readUnit_ok hmatches hi (ih (Nat.le_of_lt hi))
  exact hprefixed text.length (Nat.le_refl _)

/-!
## The counts
-/

/-- A term that is accepted, counted by the scan for it alone. -/
theorem countWordOccurrences_accepted {U : Unicode} {text p : List Nat}
    {maxCount : Nat} (h : Accepted p) (hmax : 0 < maxCount) :
    countWordOccurrences U text p true maxCount =
      match (scan (termVerdict text p true) maxCount Cursor.start
          (occurrences text p)).outcome with
      | some count => count
      | none => countWordOccurrencesRegex U text p true defaultMaxCount := by
  unfold countWordOccurrences
  rw [if_neg h.nonempty, h.pure, Bool.not_true, if_neg Bool.false_ne_true,
    h.kept, if_neg Bool.false_ne_true,
    scanWordOccurrences_eq h.toAsciiTerm hmax]
  cases hfirst : indexOf text p 0 with
  | some first => rfl
  | none =>
      have hempty : occurrences text p = [] := by
        apply List.eq_nil_iff_forall_not_mem.mpr
        intro i hi
        have hnone := (finds_occurrences text p 0).symm.trans hfirst
        exact absurd (decide_eq_true (Nat.zero_le i))
          (List.find?_eq_none.mp hnone i hi)
      rw [hempty]
      rfl

/-- The pass counts each pattern as the scan for it alone. -/
theorem countAll_getElem? {U : Unicode} {terms : List (List Nat)}
    {text : List Nat} {maxCount : Nat} (hmax : 0 < maxCount) {m : Nat}
    {p : List Nat} (hm : (MultiTermMatcher.new terms).patternStr[m]? = some p) :
    (countAll U (MultiTermMatcher.new terms) text maxCount)[m]? =
      some (min maxCount (countWordOccurrences U text p true maxCount)) := by
  rcases new_matches terms with ⟨t, word, hmatches⟩
  have hp := List.mem_of_getElem? hm
  have haccepted := hmatches.accepted hp
  have hlt : m < (MultiTermMatcher.new terms).patternStr.length :=
    (List.getElem?_eq_some_iff.mp hm).1
  have hcursor := (pass_ok hmatches text maxCount).cursors hm
  rw [endPlaces_eq haccepted.nonempty] at hcursor
  unfold countAll
  rw [List.getElem?_map, List.getElem?_range hlt, Option.map_some,
    countWordOccurrences_accepted haccepted hmax]
  dsimp only
  rw [hcursor, List.getD_eq_getElem?_getD, hm]
  have hle : (scan (termVerdict text p true) maxCount Cursor.start
      (occurrences text p)).count ≤ maxCount :=
    scan_count_le (Nat.zero_le _)
  unfold Cursor.outcome
  cases (scan (termVerdict text p true) maxCount Cursor.start
      (occurrences text p)).fellBack with
  | true =>
      change some (min (countWordOccurrencesRegex U text p true _) maxCount) =
        _
      rw [Nat.min_comm]
      rfl
  | false => exact congrArg some (Nat.min_eq_right hle).symm

end Vault
end Minni
