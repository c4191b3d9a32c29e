import Minni.Vault.WordCount

/-!
# What the pattern of an ASCII term matches

Code points of a text beside its code units, and the place and length of a
match of the pattern that does not ignore case.
-/

namespace Minni
namespace Vault

open Foundation
open Foundation.Scan

/-!
## Code points of a text
-/

theorem not_high_of_ascii {c : Nat} (h : c < 128) : isHigh c = false := by
  unfold isHigh
  rw [decide_eq_false (by omega), Bool.false_and]

theorem not_low_of_ascii {c : Nat} (h : c < 128) : isLow c = false := by
  unfold isLow
  rw [decide_eq_false (by omega), Bool.false_and]

theorem codePoints_cons_of_apart {u : Nat} {rest : List Nat}
    (h : forall v, rest.head? = some v -> (isHigh u && isLow v) = false) :
    codePoints (u :: rest) = u :: codePoints rest := by
  cases rest with
  | nil => rfl
  | cons v rest => rw [codePoints, h v rfl, if_neg (by decide)]

theorem codePoints_cons_ascii {u : Nat} (h : u < 128) (rest : List Nat) :
    codePoints (u :: rest) = u :: codePoints rest := by
  apply codePoints_cons_of_apart
  intro v _
  rw [not_high_of_ascii h, Bool.false_and]

theorem codePoints_append_ascii {xs : List Nat}
    (h : forall c, c ∈ xs -> c < 128) (rest : List Nat) :
    codePoints (xs ++ rest) = xs ++ codePoints rest := by
  induction xs with
  | nil => rfl
  | cons c xs ih =>
      rw [List.cons_append, codePoints_cons_ascii (h c List.mem_cons_self),
        ih fun d hd => h d (List.mem_cons_of_mem _ hd), List.cons_append]

theorem codePoints_ascii {xs : List Nat} (h : forall c, c ∈ xs -> c < 128) :
    codePoints xs = xs := by
  have happend := codePoints_append_ascii h []
  rw [List.append_nil] at happend
  rw [happend]
  exact List.append_nil xs

/-- No pair of surrogates stands across the place between two texts. -/
def Apart (xs ys : List Nat) : Prop :=
  forall u v, xs.getLast? = some u -> ys.head? = some v ->
    (isHigh u && isLow v) = false

theorem codePoints_append {xs ys : List Nat} (h : Apart xs ys) :
    codePoints (xs ++ ys) = codePoints xs ++ codePoints ys := by
  induction xs using codePoints.induct with
  | case1 => rfl
  | case2 u =>
      rw [List.singleton_append, codePoints_cons_of_apart]
      · rfl
      · intro v hv
        exact h u v rfl hv
  | case3 u v rest hpair ih =>
      have hrest : Apart rest ys := by
        intro a b ha hb
        apply h a b _ hb
        rw [List.getLast?_cons, List.getLast?_cons, ha]
        rfl
      rw [List.cons_append, List.cons_append, codePoints, if_pos hpair,
        ih hrest, codePoints, if_pos hpair, List.cons_append]
  | case4 u v rest hpair ih =>
      have hrest : Apart (v :: rest) ys := by
        intro a b ha hb
        apply h a b _ hb
        rw [List.getLast?_cons, ha]
        rfl
      rw [List.cons_append, List.cons_append, codePoints, if_neg hpair,
        ← List.cons_append, ih hrest, codePoints, if_neg hpair,
        List.cons_append]

theorem apart_of_ascii_right {xs ys : List Nat} {c : Nat} (hc : c < 128) :
    Apart xs (c :: ys) := by
  intro u v hu hv
  injection hv with hv
  rw [← hv, not_low_of_ascii hc, Bool.and_false]

theorem codePoints_snoc_ascii (xs : List Nat) {c : Nat} (hc : c < 128) :
    codePoints (xs ++ [c]) = codePoints xs ++ [c] := by
  rw [codePoints_append (apart_of_ascii_right hc)]
  rfl

/-- A code unit that is not ASCII begins or ends no code point that is. -/
theorem codePoints_head_wide {u : Nat} {rest : List Nat} (h : 128 ≤ u) :
    exists c cs, codePoints (u :: rest) = c :: cs ∧ 128 ≤ c := by
  cases rest with
  | nil => exact ⟨u, [], rfl, h⟩
  | cons v rest =>
      rw [codePoints]
      split
      · refine ⟨_, _, rfl, ?_⟩
        omega
      · exact ⟨u, _, rfl, h⟩

theorem ascii_units_zero (xs : List Nat) :
    0 ≤ xs.length ∧ forall c, c ∈ xs.take 0 -> c < 128 :=
  ⟨Nat.zero_le _, fun _ hc => absurd hc List.not_mem_nil⟩

/-- Code points of ASCII at the start of a text are its code units. -/
theorem ascii_units {xs : List Nat} {n : Nat}
    (hlength : n ≤ (codePoints xs).length)
    (hascii : forall c, c ∈ (codePoints xs).take n -> c < 128) :
    n ≤ xs.length ∧ forall c, c ∈ xs.take n -> c < 128 := by
  induction xs generalizing n with
  | nil => exact ⟨hlength, hascii⟩
  | cons u xs ih =>
      cases n with
      | zero => exact ascii_units_zero _
      | succ n =>
          rcases Nat.lt_or_ge u 128 with hu | hu
          · rw [codePoints_cons_ascii hu] at hlength hascii
            rw [List.take_succ_cons] at hascii
            have hrest := ih (Nat.le_of_succ_le_succ hlength)
              fun c hc => hascii c (List.mem_cons_of_mem _ hc)
            constructor
            · exact Nat.succ_le_succ hrest.left
            · intro c hc
              rw [List.take_succ_cons] at hc
              rcases List.mem_cons.mp hc with hhere | hlater
              · rw [hhere]
                exact hu
              · exact hrest.right c hlater
          · rcases @codePoints_head_wide _ xs hu with ⟨c, cs, hcs, hc⟩
            rw [hcs, List.take_succ_cons] at hascii
            exact absurd (hascii c List.mem_cons_self) (Nat.not_lt.mpr hc)

theorem unitLength_ascii {cs : List Nat} (h : forall c, c ∈ cs -> c < 128) :
    unitLength cs = cs.length := by
  unfold unitLength
  induction cs with
  | nil => rfl
  | cons c cs ih =>
      have hc : ¬ 0x10000 ≤ c := by
        have hlt := h c List.mem_cons_self
        omega
      rw [List.map_cons, List.sum_cons, if_neg hc,
        ih fun d hd => h d (List.mem_cons_of_mem _ hd), List.length_cons,
        Nat.add_comm]

/-!
## Counting over code units

A test that takes ASCII only counts the same along the code units of a text as
along its code points.
-/

/-- A match takes at least one symbol, and ASCII only. -/
def TakesAscii (hit : List Nat -> List Nat -> Option Nat) : Prop :=
  forall before after n, hit before after = some n ->
    0 < n ∧ n ≤ after.length ∧ forall c, c ∈ after.take n -> c < 128

/-- The test at the place between two runs of code units. -/
def unitHit (hit : List Nat -> List Nat -> Option Nat)
    (before after : List Nat) : Option Nat :=
  hit (codePoints before.reverse).reverse (codePoints after)

section

variable {hit : List Nat -> List Nat -> Option Nat} (hhit : TakesAscii hit)

include hhit

theorem TakesAscii.none_of_nil (before : List Nat) : hit before [] = none := by
  cases h : hit before [] with
  | none => rfl
  | some n =>
      rcases hhit before [] n h with ⟨hpos, hle, _⟩
      exact absurd (Nat.le_zero.mp hle) (Nat.ne_of_gt hpos)

theorem TakesAscii.none_of_wide (before : List Nat) {c : Nat}
    {after : List Nat} (hc : 128 ≤ c) : hit before (c :: after) = none := by
  cases h : hit before (c :: after) with
  | none => rfl
  | some n =>
      rcases hhit before (c :: after) n h with ⟨hpos, _, hascii⟩
      cases n with
      | zero => exact absurd hpos (Nat.lt_irrefl 0)
      | succ n =>
          have hlt := hascii c (by rw [List.take_succ_cons]
                                   exact List.mem_cons_self)
          exact absurd hlt (Nat.not_lt.mpr hc)

theorem TakesAscii.unitHit_wide (before : List Nat) {u : Nat}
    {after : List Nat} (hu : 128 ≤ u) :
    unitHit hit before (u :: after) = none := by
  rcases @codePoints_head_wide _ after hu with ⟨c, cs, hcs, hc⟩
  unfold unitHit
  rw [hcs]
  exact hhit.none_of_wide _ hc

theorem countHits_unitHit {before after : List Nat} {skip : Nat}
    (hapart : Apart before.reverse after)
    (hskip : skip ≤ after.length ∧ forall c, c ∈ after.take skip -> c < 128) :
    countHits (unitHit hit) before skip after =
      countHits hit (codePoints before.reverse).reverse skip
        (codePoints after) := by
  have hcons : forall {b : List Nat} {u : Nat} {rest : List Nat},
      Apart b.reverse (u :: rest) ->
        (codePoints (u :: b).reverse).reverse =
          u :: (codePoints b.reverse).reverse := by
    intro b u rest hsplit
    have hsingle : Apart b.reverse [u] := by
      intro x y hx hy
      exact hsplit x y hx hy
    rw [List.reverse_cons, codePoints_append hsingle, List.reverse_append]
    rfl
  induction after using codePoints.induct generalizing before skip with
  | case1 =>
      cases skip with
      | zero => rfl
      | succ skip => exact absurd hskip.left (Nat.not_succ_le_zero _)
  | case2 u =>
      have hend : forall k,
          countHits (unitHit hit) (u :: before) k [] =
            countHits hit (u :: (codePoints before.reverse).reverse) k [] := by
        intro k
        cases k with
        | zero =>
            rw [countHits, countHits]
            unfold unitHit
            rw [hcons hapart]
            rfl
        | succ k => rw [countHits, countHits]
      cases skip with
      | zero =>
          cases hfound : hit (codePoints before.reverse).reverse [u] with
          | none =>
              have hunit : unitHit hit before [u] = none := hfound
              change _ = countHits hit _ 0 [u]
              rw [countHits_of_none hfound, countHits_of_none hunit]
              exact hend 0
          | some n =>
              have hunit : unitHit hit before [u] = some n := hfound
              change _ = countHits hit _ 0 [u]
              rw [countHits_of_some hfound, countHits_of_some hunit, hend]
      | succ skip => exact hend skip
  | case3 u v rest hpair ih =>
      have hwide : 128 ≤ u ∧ 128 ≤ v ∧ isHigh v = false := by
        unfold isHigh isLow at hpair
        unfold isHigh
        rw [Bool.and_eq_true, Bool.and_eq_true, Bool.and_eq_true,
          decide_eq_true_eq, decide_eq_true_eq, decide_eq_true_eq,
          decide_eq_true_eq] at hpair
        refine ⟨by omega, by omega, ?_⟩
        rw [decide_eq_false (p := v ≤ 0xdbff) (by omega), Bool.and_false]
      have hzero : skip = 0 := by
        cases skip with
        | zero => rfl
        | succ skip =>
            have hlt := hskip.right u (by rw [List.take_succ_cons]
                                          exact List.mem_cons_self)
            exact absurd hlt (Nat.not_lt.mpr hwide.left)
      have hpoints : forall more, codePoints (u :: v :: more) =
          (0x10000 + (u - 0xd800) * 0x400 + (v - 0xdc00)) ::
            codePoints more := by
        intro more
        rw [codePoints, if_pos hpair]
      have hbefore : codePoints (v :: u :: before).reverse =
          codePoints before.reverse ++ codePoints [u, v] := by
        have hsplit : Apart before.reverse [u, v] := by
          intro x y hx hy
          exact hapart x y hx hy
        rw [List.reverse_cons, List.reverse_cons, List.append_assoc]
        exact codePoints_append hsplit
      have hrest : Apart (v :: u :: before).reverse rest := by
        intro x y hx hy
        rw [List.reverse_cons, List.getLast?_concat] at hx
        injection hx with hx
        rw [← hx, hwide.right.right, Bool.false_and]
      rw [hzero, countHits, hhit.unitHit_wide _ hwide.left]
      change countHits (unitHit hit) (u :: before) 0 (v :: rest) = _
      rw [countHits, hhit.unitHit_wide _ hwide.right.left]
      change countHits (unitHit hit) (v :: u :: before) 0 rest = _
      rw [ih hrest (ascii_units_zero rest), hbefore,
        hpoints, hpoints, List.reverse_append]
      have hnone := @TakesAscii.none_of_wide _ hhit
        (codePoints before.reverse).reverse
        (0x10000 + (u - 0xd800) * 0x400 + (v - 0xdc00))
        (codePoints rest) (by omega)
      rw [countHits_of_none hnone]
      rfl
  | case4 u v rest hpair ih =>
      have hrest : Apart (u :: before).reverse (v :: rest) := by
        intro x y hx hy
        rw [List.reverse_cons, List.getLast?_concat] at hx
        injection hx with hx
        injection hy with hy
        rw [← hx, ← hy]
        exact Bool.eq_false_iff.mpr hpair
      have hstep : forall k,
          (k ≤ (v :: rest).length ∧
            forall c, c ∈ (v :: rest).take k -> c < 128) ->
          countHits (unitHit hit) (u :: before) k (v :: rest) =
            countHits hit (u :: (codePoints before.reverse).reverse) k
              (codePoints (v :: rest)) := by
        intro k hk
        rw [ih hrest hk, hcons hapart]
      have hsplit : codePoints (u :: v :: rest) =
          u :: codePoints (v :: rest) := by
        rw [codePoints, if_neg hpair]
      rw [hsplit]
      cases skip with
      | zero =>
          have hunit : unitHit hit before (u :: v :: rest) =
              hit (codePoints before.reverse).reverse
                (u :: codePoints (v :: rest)) := by
            unfold unitHit
            rw [hsplit]
          cases hfound : hit (codePoints before.reverse).reverse
              (u :: codePoints (v :: rest)) with
          | none =>
              rw [countHits_of_none hfound,
                countHits_of_none (hunit.trans hfound)]
              exact hstep 0 (ascii_units_zero (v :: rest))
          | some n =>
              rcases hhit _ _ n hfound with ⟨hpos, hle, hascii⟩
              rw [countHits_of_some hfound,
                countHits_of_some (hunit.trans hfound)]
              rw [hstep (n - 1)]
              cases n with
              | zero => exact absurd hpos (Nat.lt_irrefl 0)
              | succ n =>
                  apply ascii_units (Nat.le_of_succ_le_succ hle)
                  intro c hc
                  apply hascii
                  rw [List.take_succ_cons]
                  exact List.mem_cons_of_mem _ hc
      | succ skip =>
          rw [countHits, countHits]
          apply hstep
          constructor
          · exact Nat.le_of_succ_le_succ hskip.left
          · intro c hc
            apply hskip.right
            rw [List.take_succ_cons]
            exact List.mem_cons_of_mem _ hc

end

/-!
## Edges and suffixes
-/

variable (U : Unicode)

/-- Whether a word may end beside these symbols, nearest first. -/
def edgeOk (neighbours : List Nat) : Bool :=
  (neighbours.head?.any (wordChar U) == false) ||
    (neighbours.head?.any U.noSeparator == true)

/-- A suffix that stands at the start of what follows and ends there. -/
def endsWith (suffix after : List Nat) : Option Nat :=
  if suffix <+: after ∧ edgeOk U (after.drop suffix.length) = true then
    some suffix.length
  else none

variable {U}

theorem wordChar_ascii {c : Nat} (hc : c < 128)
    (hlower : isAsciiUpper c = false) :
    wordChar U c = isAsciiLowerWordChar c := by
  unfold wordChar
  rw [U.letter_ascii c hc, U.number_ascii c hc]
  unfold isAsciiLetter isAsciiLowerWordChar isAsciiDigit
  rw [hlower, Bool.false_or]

theorem edgeOk_ascii {c : Nat} {rest : List Nat} (hc : c < 128)
    (hlower : isAsciiUpper c = false) :
    edgeOk U (c :: rest) = !isAsciiLowerWordChar c := by
  unfold edgeOk
  change ((wordChar U c == false) || (U.noSeparator c == true)) = _
  rw [wordChar_ascii hc hlower, U.noSeparator_latin c (Or.inl hc)]
  cases isAsciiLowerWordChar c with
  | false => rfl
  | true => rfl

theorem endsWith_nil (after : List Nat) :
    endsWith U [] after = if edgeOk U after = true then some 0 else none := by
  unfold endsWith
  simp only [List.nil_prefix, true_and, List.length_nil, List.drop_zero]

theorem endsWith_cons_nil (c : Nat) (suffix : List Nat) :
    endsWith U (c :: suffix) [] = none := by
  unfold endsWith
  rw [if_neg]
  intro h
  exact absurd (List.prefix_nil.mp h.left) (List.cons_ne_nil _ _)

theorem endsWith_cons (c d : Nat) (suffix after : List Nat) :
    endsWith U (c :: suffix) (d :: after) =
      if c = d then (endsWith U suffix after).map (· + 1) else none := by
  unfold endsWith
  simp only [List.cons_prefix_cons, List.length_cons, List.drop_succ_cons]
  by_cases hcd : c = d
  · simp only [hcd, true_and, if_true]
    split
    · rfl
    · rfl
  · rw [if_neg hcd, if_neg fun h => hcd h.left.left]

theorem tests_notWordBefore :
    Regex.Tests (notWordBefore U false)
      fun place => edgeOk U place.before :=
  (Regex.tests_behind _ _).alt (Regex.tests_behind _ _)

theorem tests_notWordAfter :
    Regex.Tests (notWordAfter U false) fun place => edgeOk U place.after :=
  (Regex.tests_ahead _ _).alt (Regex.tests_ahead _ _)

theorem sameChar_false : sameChar U false = fun c x => c == x := by
  funext c x
  rfl

theorem hit_notWordAfter (before after : List Nat) :
    (notWordAfter U false).hit before after = endsWith U [] after := by
  rw [tests_notWordAfter.hit, endsWith_nil]

theorem hit_word_notWordAfter (suffix before after : List Nat) :
    (Regex.seq (.word (sameChar U false) suffix)
        (notWordAfter U false)).hit before after =
      endsWith U suffix after := by
  rw [sameChar_false, Regex.hit_word_seq, hit_notWordAfter, endsWith_nil]
  unfold endsWith
  by_cases hprefixed : suffix <+: after
  · rw [if_pos hprefixed]
    by_cases hedge : edgeOk U (after.drop suffix.length) = true
    · rw [if_pos hedge, if_pos ⟨hprefixed, hedge⟩]
      rfl
    · rw [if_neg hedge, if_neg fun h => hedge h.right]
      rfl
  · rw [if_neg hprefixed, if_neg fun h => hprefixed h.left]

/-- The suffixes are tried in the order of the pattern, and none at last. -/
theorem hit_suffix (before after : List Nat) :
    (Regex.seq (morphologicalSuffix U false)
        (notWordAfter U false)).hit before after =
      ((endsWith U [115] after).or
        ((endsWith U [101, 115] after).or
          ((endsWith U [105, 110, 103] after).or
            (endsWith U [101, 100] after)))).or (endsWith U [] after) := by
  unfold morphologicalSuffix Regex.optional
  rw [Regex.hit_seq_alt, Regex.hit_seq_alt, Regex.hit_seq_alt,
    Regex.hit_seq_alt, hit_word_notWordAfter, hit_word_notWordAfter,
    hit_word_notWordAfter, hit_word_notWordAfter, Regex.tests_empty.hit_seq,
    if_pos rfl, hit_notWordAfter]

/-!
## The end of an occurrence
-/

def Lower (text : List Nat) : Prop :=
  forall c, c ∈ text -> isAsciiUpper c = false

theorem charCodeAt_drop (text : List Nat) (i k : Nat) :
    charCodeAt text (i + k) = (text.drop i).getD k 0 := by
  unfold charCodeAt
  rw [List.getD_eq_getElem?_getD, List.getD_eq_getElem?_getD,
    List.getElem?_drop]

theorem Lower.drop {text : List Nat} (h : Lower text) (i : Nat) :
    Lower (text.drop i) :=
  fun c hc => h c (List.mem_of_mem_drop hc)

def endVerdict (start : Nat) : Option Nat -> Verdict
  | some n => .take (start + n)
  | none => .pass

theorem suffixVerdict_eq {text : List Nat} (hlower : Lower text) {p : Nat}
    (h : suffixVerdict text p ≠ .giveUp) :
    suffixVerdict text p =
      endVerdict p (endsWith U [] (codePoints (text.drop p))) := by
  have hcode := charCodeAt_drop text p 0
  rw [Nat.add_zero] at hcode
  unfold suffixVerdict at h ⊢
  rw [endsWith_nil]
  cases hrest : text.drop p with
  | nil =>
      rw [if_pos (List.drop_eq_nil_iff.mp hrest)]
      rfl
  | cons c rest =>
      have hp : ¬ text.length ≤ p := by
        intro hle
        rw [List.drop_eq_nil_of_le hle] at hrest
        cases hrest
      rw [hrest] at hcode
      change charCodeAt text p = c at hcode
      rw [if_neg hp, hcode] at h ⊢
      have hc : c < 128 := by
        apply Nat.lt_of_not_le
        intro hwide
        rw [if_pos hwide] at h
        exact h rfl
      have hclower : isAsciiUpper c = false := by
        apply hlower.drop p
        rw [hrest]
        exact List.mem_cons_self
      rw [if_neg (Nat.not_le.mpr hc), codePoints_cons_ascii hc,
        edgeOk_ascii hc hclower]
      cases isAsciiLowerWordChar c with
      | true => rfl
      | false => rfl

/-- What the end of the pattern takes of what follows an occurrence. -/
def tailEnd (U : Unicode) (suffix : Bool) (after : List Nat) : Option Nat :=
  if suffix then
    ((endsWith U [115] after).or
      ((endsWith U [101, 115] after).or
        ((endsWith U [105, 110, 103] after).or
          (endsWith U [101, 100] after)))).or (endsWith U [] after)
  else endsWith U [] after

theorem endVerdict_add (start k : Nat) (found : Option Nat) :
    endVerdict (start + k) found =
      endVerdict start (found.map (· + k)) := by
  cases found with
  | none => rfl
  | some n =>
      change Verdict.take (start + k + n) = Verdict.take (start + (n + k))
      rw [Nat.add_assoc, Nat.add_comm k]

theorem suffixVerdict_add {text : List Nat} (hlower : Lower text)
    {afterIdx k : Nat} (h : suffixVerdict text (afterIdx + k) ≠ .giveUp) :
    suffixVerdict text (afterIdx + k) =
      endVerdict afterIdx
        ((endsWith U [] (codePoints ((text.drop afterIdx).drop k))).map
          (· + k)) := by
  rw [suffixVerdict_eq (U := U) hlower h, endVerdict_add, List.drop_drop]

theorem tailEnd_of_edge {suffix : Bool} {c : Nat} {after : List Nat}
    (hc : c < 128) (hlower : isAsciiUpper c = false)
    (hedge : isAsciiLowerWordChar c = false) :
    tailEnd U suffix (c :: after) = some 0 := by
  have hnot : c ≠ 115 ∧ c ≠ 101 ∧ c ≠ 105 := by
    refine ⟨?_, ?_, ?_⟩
    all_goals
      intro hletter
      rw [hletter] at hedge
      exact absurd hedge (by decide)
  have hend : endsWith U [] (c :: after) = some 0 := by
    rw [endsWith_nil, edgeOk_ascii hc hlower, hedge]
    rfl
  unfold tailEnd
  rw [endsWith_cons, endsWith_cons, endsWith_cons, endsWith_cons,
    if_neg hnot.left.symm, if_neg hnot.right.left.symm,
    if_neg hnot.right.right.symm, if_neg hnot.right.left.symm, hend]
  cases suffix with
  | true => rfl
  | false => rfl

theorem endsWith_nil_word {c : Nat} {after : List Nat} (hc : c < 128)
    (hlower : isAsciiUpper c = false)
    (hword : isAsciiLowerWordChar c = true) :
    endsWith U [] (c :: after) = none := by
  rw [endsWith_nil, edgeOk_ascii hc hlower, hword]
  rfl

/-!
The ways a word goes on behind an occurrence: with a suffix that begins with
`s`, `e` or `i`, or otherwise.
-/

theorem tailEnd_word {c : Nat} {after : List Nat} (hc : c < 128)
    (hlower : isAsciiUpper c = false)
    (hword : isAsciiLowerWordChar c = true) :
    tailEnd U true (c :: after) =
      (if 115 = c then (endsWith U [] after).map (· + 1) else none).or
        ((if 101 = c then (endsWith U [115] after).map (· + 1) else none).or
          ((if 105 = c then (endsWith U [110, 103] after).map (· + 1)
              else none).or
            (if 101 = c then (endsWith U [100] after).map (· + 1)
              else none))) := by
  unfold tailEnd
  rw [if_pos rfl, endsWith_cons, endsWith_cons, endsWith_cons, endsWith_cons,
    endsWith_nil_word hc hlower hword, Option.or_none]

theorem tailEnd_s (after : List Nat) :
    tailEnd U true (115 :: after) = (endsWith U [] after).map (· + 1) := by
  rw [tailEnd_word (by decide) rfl rfl]
  exact Option.or_none

theorem tailEnd_e (after : List Nat) :
    tailEnd U true (101 :: after) =
      ((endsWith U [115] after).map (· + 1)).or
        ((endsWith U [100] after).map (· + 1)) := by
  rw [tailEnd_word (by decide) rfl rfl]
  rfl

theorem tailEnd_i (after : List Nat) :
    tailEnd U true (105 :: after) =
      (endsWith U [110, 103] after).map (· + 1) := by
  rw [tailEnd_word (by decide) rfl rfl]
  exact Option.or_none

theorem tailEnd_letter {c : Nat} {after : List Nat} (hc : c < 128)
    (hlower : isAsciiUpper c = false) (hword : isAsciiLowerWordChar c = true)
    (hother : c ≠ 115 ∧ c ≠ 101 ∧ c ≠ 105) :
    tailEnd U true (c :: after) = none := by
  rw [tailEnd_word hc hlower hword, if_neg hother.left.symm,
    if_neg hother.right.left.symm, if_neg hother.right.right.symm,
    if_neg hother.right.left.symm]
  rfl

/-- The check of the end by what follows the occurrence. -/
theorem tailVerdict_cons {text rest : List Nat} {afterIdx c0 : Nat}
    (suffix : Bool) (hdrop : text.drop afterIdx = c0 :: rest) :
    tailVerdict text suffix afterIdx =
      if 128 ≤ c0 then .giveUp
      else if !isAsciiLowerWordChar c0 then .take afterIdx
      else if !suffix then .pass
      else if c0 = 115 then suffixVerdict text (afterIdx + 1)
      else if c0 = 101 ∧ 0 < rest.length then
        if 128 ≤ rest.getD 0 0 then .giveUp
        else if rest.getD 0 0 = 115 ∨ rest.getD 0 0 = 100 then
          suffixVerdict text (afterIdx + 2)
        else .pass
      else if c0 = 105 ∧ 1 < rest.length then
        if 128 ≤ rest.getD 0 0 ∨ 128 ≤ rest.getD 1 0 then .giveUp
        else if rest.getD 0 0 = 110 ∧ rest.getD 1 0 = 103 then
          suffixVerdict text (afterIdx + 3)
        else .pass
      else .pass := by
  have hcode0 := charCodeAt_drop text afterIdx 0
  have hcode1 := charCodeAt_drop text afterIdx 1
  have hcode2 := charCodeAt_drop text afterIdx 2
  have hlength := List.length_drop (i := afterIdx) (l := text)
  rw [hdrop] at hcode0 hcode1 hcode2 hlength
  change charCodeAt text afterIdx = c0 at hcode0
  change charCodeAt text (afterIdx + 1) = rest.getD 0 0 at hcode1
  change charCodeAt text (afterIdx + 2) = rest.getD 1 0 at hcode2
  rw [List.length_cons] at hlength
  have hone : afterIdx + 1 < text.length <-> 0 < rest.length := by omega
  have htwo : afterIdx + 2 < text.length <-> 1 < rest.length := by omega
  unfold tailVerdict
  rw [if_neg (by omega)]
  simp only [hcode0, hcode1, hcode2, hone, htwo]

section

variable {text rest : List Nat} {afterIdx : Nat} (hlower : Lower text)

include hlower

theorem suffixVerdict_drop {k : Nat} {after : List Nat}
    (hdrop : (text.drop afterIdx).drop k = after)
    (h : suffixVerdict text (afterIdx + k) ≠ .giveUp) :
    suffixVerdict text (afterIdx + k) =
      endVerdict afterIdx ((endsWith U [] (codePoints after)).map (· + k)) := by
  rw [suffixVerdict_add (U := U) hlower h, hdrop]

theorem tailVerdict_e (hdrop : text.drop afterIdx = 101 :: rest)
    (h : tailVerdict text true afterIdx ≠ .giveUp) :
    tailVerdict text true afterIdx =
      endVerdict afterIdx (tailEnd U true (101 :: codePoints rest)) := by
  rw [tailEnd_e]
  rw [tailVerdict_cons true hdrop] at h ⊢
  change (if 101 = 101 ∧ 0 < rest.length then _ else _) ≠ _ at h
  change (if 101 = 101 ∧ 0 < rest.length then _ else _) = _
  cases rest with
  | nil =>
      change Verdict.pass = endVerdict afterIdx
        (((endsWith U [115] []).map _).or ((endsWith U [100] []).map _))
      rw [endsWith_cons_nil, endsWith_cons_nil]
      rfl
  | cons c1 more =>
      rw [if_pos ⟨rfl, Nat.succ_pos _⟩] at h ⊢
      change (if 128 ≤ c1 then _ else if c1 = 115 ∨ c1 = 100 then _ else _) ≠
        _ at h
      change (if 128 ≤ c1 then _ else if c1 = 115 ∨ c1 = 100 then _ else _) = _
      by_cases hwide : 128 ≤ c1
      · rw [if_pos hwide] at h
        exact absurd rfl h
      · rw [if_neg hwide] at h ⊢
        rw [codePoints_cons_ascii (Nat.lt_of_not_le hwide), endsWith_cons,
          endsWith_cons]
        by_cases hletter : c1 = 115 ∨ c1 = 100
        · rw [if_pos hletter] at h ⊢
          rw [@suffixVerdict_drop U _ _ hlower 2 more _ h]
          · rcases hletter with hs | hd
            · rw [hs]
              simp only [if_true, Nat.reduceEqDiff, if_false, Option.map_none,
                Option.or_none, Option.map_map]
              rfl
            · rw [hd]
              simp only [if_true, Nat.reduceEqDiff, if_false, Option.map_none,
                Option.none_or, Option.map_map]
              rfl
          · rw [hdrop]
            rfl
        · rw [if_neg hletter, if_neg fun heq => hletter (Or.inl heq.symm),
            if_neg fun heq => hletter (Or.inr heq.symm)]
          rfl

theorem tailVerdict_i (hdrop : text.drop afterIdx = 105 :: rest)
    (h : tailVerdict text true afterIdx ≠ .giveUp) :
    tailVerdict text true afterIdx =
      endVerdict afterIdx (tailEnd U true (105 :: codePoints rest)) := by
  rw [tailEnd_i]
  rw [tailVerdict_cons true hdrop] at h ⊢
  change (if 105 = 105 ∧ 1 < rest.length then _ else _) ≠ _ at h
  change (if 105 = 105 ∧ 1 < rest.length then _ else _) = _
  cases rest with
  | nil =>
      change Verdict.pass =
        endVerdict afterIdx ((endsWith U [110, 103] []).map _)
      rw [endsWith_cons_nil]
      rfl
  | cons c1 more =>
      cases more with
      | nil =>
          change Verdict.pass =
            endVerdict afterIdx ((endsWith U [110, 103] [c1]).map _)
          rw [endsWith_cons, endsWith_cons_nil]
          split
          · rfl
          · rfl
      | cons c2 more =>
          rw [if_pos ⟨rfl, Nat.succ_lt_succ (Nat.succ_pos _)⟩] at h ⊢
          change (if 128 ≤ c1 ∨ 128 ≤ c2 then _
            else if c1 = 110 ∧ c2 = 103 then _ else _) ≠ _ at h
          change (if 128 ≤ c1 ∨ 128 ≤ c2 then _
            else if c1 = 110 ∧ c2 = 103 then _ else _) = _
          by_cases hwide : 128 ≤ c1 ∨ 128 ≤ c2
          · rw [if_pos hwide] at h
            exact absurd rfl h
          · rw [if_neg hwide] at h ⊢
            rw [not_or, Nat.not_le, Nat.not_le] at hwide
            rw [codePoints_cons_ascii hwide.left,
              codePoints_cons_ascii hwide.right, endsWith_cons, endsWith_cons]
            by_cases hletters : c1 = 110 ∧ c2 = 103
            · rw [if_pos hletters] at h ⊢
              rw [@suffixVerdict_drop U _ _ hlower 3 more _ h]
              · rw [if_pos hletters.left.symm, if_pos hletters.right.symm,
                  Option.map_map, Option.map_map]
                rfl
              · rw [hdrop]
                rfl
            · rw [if_neg hletters]
              split
              · rename_i hfirst
                rw [if_neg fun heq => hletters ⟨hfirst.symm, heq.symm⟩]
                rfl
              · rfl

/-- Where the scan does not give up, it ends an occurrence as the pattern
does. -/
theorem tailVerdict_eq {suffix : Bool}
    (h : tailVerdict text suffix afterIdx ≠ .giveUp) :
    tailVerdict text suffix afterIdx =
      endVerdict afterIdx
        (tailEnd U suffix (codePoints (text.drop afterIdx))) := by
  cases hdrop : text.drop afterIdx with
  | nil =>
      unfold tailVerdict tailEnd
      rw [if_pos (List.drop_eq_nil_iff.mp hdrop), endsWith_nil]
      cases suffix with
      | true => rfl
      | false => rfl
  | cons c0 rest =>
      have hlow : isAsciiUpper c0 = false := by
        apply hlower.drop afterIdx
        rw [hdrop]
        exact List.mem_cons_self
      have hc0 : c0 < 128 := by
        apply Nat.lt_of_not_le
        intro hwide
        rw [tailVerdict_cons suffix hdrop, if_pos hwide] at h
        exact h rfl
      rw [codePoints_cons_ascii hc0]
      cases hword : isAsciiLowerWordChar c0 with
      | false =>
          rw [tailVerdict_cons suffix hdrop, if_neg (Nat.not_le.mpr hc0),
            hword, tailEnd_of_edge hc0 hlow hword]
          rfl
      | true =>
          cases suffix with
          | false =>
              rw [tailVerdict_cons false hdrop, if_neg (Nat.not_le.mpr hc0),
                hword]
              unfold tailEnd
              rw [if_neg (by decide), endsWith_nil_word hc0 hlow hword]
              rfl
          | true =>
              by_cases hs : c0 = 115
              · rw [hs] at hdrop
                have hverdict := tailVerdict_cons true hdrop
                change tailVerdict text true afterIdx =
                  suffixVerdict text (afterIdx + 1) at hverdict
                rw [hverdict] at h ⊢
                rw [hs, tailEnd_s]
                apply suffixVerdict_drop hlower _ h
                rw [hdrop]
                rfl
              · by_cases he : c0 = 101
                · rw [he] at hdrop ⊢
                  exact tailVerdict_e hlower hdrop h
                · by_cases hi : c0 = 105
                  · rw [hi] at hdrop ⊢
                    exact tailVerdict_i hlower hdrop h
                  · rw [tailEnd_letter hc0 hlow hword ⟨hs, he, hi⟩,
                      tailVerdict_cons true hdrop,
                      if_neg (Nat.not_le.mpr hc0), hword,
                      if_neg (by decide), if_neg (by decide), if_neg hs,
                      if_neg fun heq => he heq.left,
                      if_neg fun heq => hi heq.left]
                    rfl

end

end Vault
end Minni
