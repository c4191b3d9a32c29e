import Minni.Foundation.Replace

/-!
# Marks and escaping

Escaping rewrites pieces of a text.  Where neither the pieces nor what takes
their place can hold a part of a mark, the mark occurs after the rewriting
exactly when it did before.  A scanner may take several letters for one, and
finds a mark at the places where the text reads like it.
-/

namespace Minni
namespace Foundation
namespace Escaping

variable {α : Type}

/-!
## Pieces that are rewritten
-/

/-- A piece in which no occurrence of the mark begins, and into which none goes
on. -/
structure Apart (mark piece : List α) : Prop where
  begins : exists x rest, piece = x :: rest ∧ x ∉ mark
  holds : forall first, mark.head? = some first -> first ∉ piece

inductive Rewritten (mark : List α) : List α -> List α -> Prop where
  | nil : Rewritten mark [] []
  | keep (x : α) {text out : List α} (h : Rewritten mark text out) :
      Rewritten mark (x :: text) (x :: out)
  | swap {old new text out : List α} (hold : Apart mark old)
      (hnew : Apart mark new) (h : Rewritten mark text out) :
      Rewritten mark (old ++ text) (new ++ out)

theorem rewritten_symm {mark text out : List α} (h : Rewritten mark text out) :
    Rewritten mark out text := by
  induction h with
  | nil => exact Rewritten.nil
  | keep x _ ih => exact Rewritten.keep x ih
  | swap hold hnew _ ih => exact Rewritten.swap hnew hold ih

/-- A part of the mark that stands at the front stays there. -/
theorem prefix_of_rewritten {mark text out : List α}
    (h : Rewritten mark text out) {wanted : List α} (hpart : wanted ⊆ mark)
    (hwanted : wanted <+: text) :
    wanted <+: out := by
  induction h generalizing wanted with
  | nil =>
      exact hwanted
  | keep x h ih =>
      cases wanted with
      | nil => exact List.nil_prefix
      | cons w wanted =>
          rcases List.cons_prefix_cons.mp hwanted with ⟨hhead, htail⟩
          have hrest : wanted ⊆ mark := fun y hy =>
            hpart (List.mem_cons_of_mem w hy)
          exact List.cons_prefix_cons.mpr ⟨hhead, ih hrest htail⟩
  | swap hold hnew h ih =>
      cases wanted with
      | nil => exact List.nil_prefix
      | cons w wanted =>
          rcases hold.begins with ⟨x, rest, rfl, hx⟩
          have hhead := (List.cons_prefix_cons.mp hwanted).left
          rw [← hhead] at hx
          exact absurd (hpart List.mem_cons_self) hx

theorem infix_of_rewritten {mark text out : List α}
    (h : Rewritten mark text out) (hmark : mark <:+: text) :
    mark <:+: out := by
  induction h with
  | nil =>
      exact hmark
  | keep x h ih =>
      rcases List.infix_cons_iff.mp hmark with hhere | hlater
      · exact (prefix_of_rewritten (Rewritten.keep x h)
          (List.Subset.refl mark) hhere).isInfix
      · exact List.infix_cons (ih hlater)
  | @swap old new text out hold hnew h ih =>
      have hrest : mark <:+: text := by
        have hbefore := hold.holds
        clear hold
        induction old with
        | nil => exact hmark
        | cons x old ih' =>
            rw [List.cons_append] at hmark
            rcases List.infix_cons_iff.mp hmark with hhere | hlater
            · cases mark with
              | nil => exact List.nil_infix
              | cons first tail =>
                  have hfirst := (List.cons_prefix_cons.mp hhere).left
                  have hnot := hbefore first rfl
                  rw [hfirst] at hnot
                  exact absurd List.mem_cons_self hnot
            · apply ih' hlater
              intro first hfirst hmem
              exact hbefore first hfirst (List.mem_cons_of_mem x hmem)
      exact (ih hrest).trans (List.suffix_append new out).isInfix

/-- The mark occurs after the rewriting where it did before, and the other way
round. -/
theorem infix_rewritten_iff {mark text out : List α}
    (h : Rewritten mark text out) :
    mark <:+: text <-> mark <:+: out := by
  constructor
  · exact infix_of_rewritten h
  · exact infix_of_rewritten (rewritten_symm h)

theorem rewritten_flatMap {mark : List α} {piece : α -> List α}
    (h : forall c, piece c = [c] ∨
      (Apart mark [c] ∧ Apart mark (piece c))) (text : List α) :
    Rewritten mark text (text.flatMap piece) := by
  induction text with
  | nil => exact Rewritten.nil
  | cons c text ih =>
      rw [List.flatMap_cons]
      rcases h c with hsame | ⟨hold, hnew⟩
      · rw [hsame]
        exact Rewritten.keep c ih
      · exact Rewritten.swap hold hnew ih

theorem replaceFrom_skip (hits : List α -> Bool) (size : Nat) (new : List α)
    (skip : Nat) (text : List α) :
    Replace.replaceFrom hits size new skip text =
      Replace.replaceFrom hits size new 0 (text.drop skip) := by
  induction text generalizing skip with
  | nil =>
      rw [List.drop_nil]
      cases skip with
      | zero => rfl
      | succ skip => rfl
  | cons c text ih =>
      cases skip with
      | zero => rfl
      | succ skip => exact ih skip

theorem rewritten_replaceHits {mark new : List α} {hits : List α -> Bool}
    {size : Nat} (hnew : Apart mark new) (hsize : 0 < size)
    (hold : forall here, hits here = true -> Apart mark (here.take size))
    (text : List α) :
    Rewritten mark text (Replace.replaceHits hits size new text) := by
  unfold Replace.replaceHits
  generalize hlength : text.length = n
  induction n using Nat.strong_induction_on generalizing text with
  | _ n ih =>
      cases text with
      | nil => exact Rewritten.nil
      | cons c rest =>
          rw [Replace.replaceFrom_cons]
          split
          · rename_i hhit
            have hsplit := List.take_append_drop size (c :: rest)
            have hdrop : (c :: rest).drop size = rest.drop (size - 1) := by
              obtain ⟨k, rfl⟩ := Nat.exists_eq_succ_of_ne_zero hsize.ne'
              rfl
            rw [replaceFrom_skip, ← hdrop]
            nth_rewrite 1 [← hsplit]
            apply Rewritten.swap (hold _ hhit) hnew
            apply ih _ _ _ rfl
            rw [List.length_drop, ← hlength]
            rw [List.length_cons]
            omega
          · apply Rewritten.keep
            apply ih _ _ _ rfl
            rw [← hlength, List.length_cons]
            exact Nat.lt_succ_self _

/-!
## Lists put together
-/

theorem suffix_append_cases {s before after : List α}
    (h : s <:+ before ++ after) :
    s <:+ after ∨ exists front, s = front ++ after ∧ front <:+ before := by
  rcases List.suffix_or_suffix_of_suffix h (List.suffix_append before after)
    with hin | hacross
  · exact Or.inl hin
  · rcases hacross with ⟨front, rfl⟩
    rcases h with ⟨rest, hrest⟩
    right
    exists front
    constructor
    · rfl
    · rw [← List.append_assoc] at hrest
      exact ⟨rest, List.append_cancel_right hrest⟩

/-- No occurrence of the mark can begin in the list and go on after it. -/
def Closed (mark text : List α) : Prop :=
  forall s, s ≠ [] -> s <:+ text -> ¬ s <+: mark

theorem infix_append_iff {mark text rest : List α} (h : Closed mark text) :
    mark <:+: text ++ rest <-> mark <:+: text ∨ mark <:+: rest := by
  constructor
  · intro hmark
    induction text with
    | nil => exact Or.inr hmark
    | cons c text ih =>
        rw [List.cons_append] at hmark
        rcases List.infix_cons_iff.mp hmark with hhere | hlater
        · left
          rw [← List.cons_append] at hhere
          rcases List.prefix_or_prefix_of_prefix hhere
            (List.prefix_append (c :: text) rest) with hin | hout
          · exact hin.isInfix
          · exact absurd hout
              (h (c :: text) (List.cons_ne_nil _ _) (List.suffix_refl _))
        · have hclosed : Closed mark text := fun s hs hsuffix =>
            h s hs (hsuffix.trans (List.suffix_cons c text))
          rcases ih hclosed hlater with hleft | hright
          · exact Or.inl (List.infix_cons hleft)
          · exact Or.inr hright
  · intro hmark
    rcases hmark with hleft | hright
    · exact hleft.trans (List.prefix_append text rest).isInfix
    · exact hright.trans (List.suffix_append text rest).isInfix

theorem closed_append {mark text rest : List α} (htext : Closed mark text)
    (hrest : Closed mark rest) :
    Closed mark (text ++ rest) := by
  intro s hs hsuffix hprefixed
  rcases suffix_append_cases hsuffix with hin | hacross
  · exact hrest s hs hin hprefixed
  · rcases hacross with ⟨front, rfl, hfront⟩
    by_cases hnil : front = []
    · rw [hnil, List.nil_append] at hs hprefixed
      exact hrest rest hs (List.suffix_refl rest) hprefixed
    · exact htext front hnil hfront
        ((List.prefix_append front rest).trans hprefixed)

/-- A list without the head of the mark is closed. -/
theorem closed_of_not_mem {first : α} {tail text : List α}
    (h : first ∉ text) :
    Closed (first :: tail) text := by
  intro s hs hsuffix hprefixed
  cases s with
  | nil => exact hs rfl
  | cons c s =>
      apply h
      rw [← (List.cons_prefix_cons.mp hprefixed).left]
      exact hsuffix.subset List.mem_cons_self

/-- So is one that ends with what the mark does not have. -/
theorem closed_concat {mark : List α} {last : α} (h : last ∉ mark)
    (text : List α) :
    Closed mark (text ++ [last]) := by
  intro s hs hsuffix hprefixed
  apply h
  apply hprefixed.subset
  have hlast := hsuffix.getLast hs
  rw [List.getLast_append_singleton] at hlast
  rw [← hlast]
  exact List.getLast_mem hs

/-!
## Scanners
-/

section Scanners

variable (same : α -> α -> Bool)

/-- The text begins with letters that the pattern takes for its own. -/
def startsLike : List α -> List α -> Bool
  | [], _ => true
  | _ :: _, [] => false
  | p :: pattern, c :: text => same p c && startsLike pattern text

/-- The places where a text is found to begin as wanted. -/
def found (hits : List α -> Bool) : Nat -> List α -> List Nat
  | _, [] => []
  | i, c :: rest =>
      if hits (c :: rest) then i :: found hits (i + 1) rest
      else found hits (i + 1) rest

theorem found_cons {hits : List α -> Bool} (i : Nat) (c : α) (rest : List α) :
    found hits i (c :: rest) =
      if hits (c :: rest) then i :: found hits (i + 1) rest
      else found hits (i + 1) rest :=
  rfl

theorem startsLike_cons (p c : α) (pattern text : List α) :
    startsLike same (p :: pattern) (c :: text) =
      (same p c && startsLike same pattern text) :=
  rfl

theorem found_append {hits : List α -> Bool} {before after : List α}
    (h : forall s, s ≠ [] -> s <:+ before -> hits (s ++ after) = false)
    (i : Nat) :
    found hits i (before ++ after) =
      found hits (i + before.length) after := by
  induction before generalizing i with
  | nil => rfl
  | cons c before ih =>
      have hhere := h (c :: before) (List.cons_ne_nil _ _) (List.suffix_refl _)
      rw [List.cons_append] at hhere
      rw [List.cons_append, found_cons, hhere, if_neg Bool.false_ne_true, ih,
        List.length_cons]
      · congr 1
        omega
      · intro s hs hsuffix
        exact h s hs (hsuffix.trans (List.suffix_cons c before))

theorem found_nil_of {hits : List α -> Bool} {text : List α}
    (h : forall s, s ≠ [] -> s <:+ text -> hits s = false) (i : Nat) :
    found hits i text = [] := by
  have happend := @found_append α hits text [] (by
    intro s hs hsuffix
    rw [List.append_nil]
    exact h s hs hsuffix) i
  rw [List.append_nil] at happend
  rw [happend]
  rfl

theorem mem_found_append {hits : List α -> Bool} {before after : List α}
    (hne : after ≠ []) (hhit : hits after = true) (i : Nat) :
    i + before.length ∈ found hits i (before ++ after) := by
  induction before generalizing i with
  | nil =>
      cases after with
      | nil => exact absurd rfl hne
      | cons c after =>
          rw [List.nil_append, found_cons, if_pos hhit]
          exact List.mem_cons_self
  | cons c before ih =>
      have hlater := ih (i + 1)
      rw [Nat.add_right_comm] at hlater
      rw [List.cons_append, found_cons]
      split
      · exact List.mem_cons_of_mem i hlater
      · exact hlater

variable {same}

theorem startsLike_self (hsame : forall c, same c c = true)
    (pattern text : List α) :
    startsLike same pattern (pattern ++ text) = true := by
  induction pattern with
  | nil => rfl
  | cons p pattern ih =>
      rw [List.cons_append, startsLike_cons, hsame, ih]
      rfl

theorem startsLike_mono {wide : α -> α -> Bool} {pattern : List α}
    (hwide : forall p, p ∈ pattern -> forall c, same p c = true ->
      wide p c = true)
    {text : List α} (h : startsLike same pattern text = true) :
    startsLike wide pattern text = true := by
  induction pattern generalizing text with
  | nil => rfl
  | cons p pattern ih =>
      cases text with
      | nil => cases h
      | cons c text =>
          rw [startsLike_cons, Bool.and_eq_true] at h
          have hrest := ih (fun q hq => hwide q (List.mem_cons_of_mem p hq))
            h.right
          rw [startsLike_cons, hwide p List.mem_cons_self c h.left, hrest]
          rfl

/-- What reads like the pattern lies in front of a letter that the pattern does
not take. -/
theorem startsLike_seam {pattern before after : List α} {c : α}
    (hc : forall p, p ∈ pattern -> same p c = false)
    (h : startsLike same pattern (before ++ c :: after) = true) :
    startsLike same pattern before = true := by
  induction pattern generalizing before with
  | nil => rfl
  | cons p pattern ih =>
      cases before with
      | nil =>
          rw [List.nil_append, startsLike_cons, hc p List.mem_cons_self] at h
          cases h
      | cons x before =>
          rw [List.cons_append, startsLike_cons, Bool.and_eq_true] at h
          have hrest := ih (fun q hq => hc q (List.mem_cons_of_mem p hq))
            h.right
          rw [startsLike_cons, h.left, hrest]
          rfl

theorem startsLike_of_inserted {mark : α} {text out : List α}
    (hins : Replace.Inserted mark text out) {pattern : List α}
    (hmark : forall p, p ∈ pattern -> same p mark = false)
    (h : startsLike same pattern out = true) :
    startsLike same pattern text = true := by
  induction hins generalizing pattern with
  | nil => exact h
  | keep x _ ih =>
      cases pattern with
      | nil => rfl
      | cons p pattern =>
          rw [startsLike_cons, Bool.and_eq_true] at h
          have hrest := ih (fun q hq => hmark q (List.mem_cons_of_mem p hq))
            h.right
          rw [startsLike_cons, h.left, hrest]
          rfl
  | add _ ih =>
      cases pattern with
      | nil => rfl
      | cons p pattern =>
          rw [startsLike_cons, hmark p List.mem_cons_self] at h
          cases h

/-- The length is there, and each letter is taken for one of the pattern. -/
theorem startsLike_eq_all (same : α -> α -> Bool) (pattern text : List α) :
    startsLike same pattern text =
      (decide (pattern.length ≤ text.length) &&
        (pattern.zip text).all fun pair => same pair.1 pair.2) := by
  induction pattern generalizing text with
  | nil => rfl
  | cons p pattern ih =>
      cases text with
      | nil => rfl
      | cons c text =>
          have hlength : decide ((p :: pattern).length ≤ (c :: text).length) =
              decide (pattern.length ≤ text.length) :=
            decide_eq_decide.mpr Nat.succ_le_succ_iff
          rw [startsLike_cons, ih, List.zip_cons_cons, List.all_cons, hlength,
            Bool.and_left_comm]

theorem mem_take_of_startsLike {pattern text : List α}
    (h : startsLike same pattern text = true) {c : α}
    (hc : c ∈ text.take pattern.length) :
    exists p, p ∈ pattern ∧ same p c = true := by
  induction pattern generalizing text with
  | nil => cases hc
  | cons p pattern ih =>
      cases text with
      | nil => cases hc
      | cons x text =>
          rw [startsLike_cons, Bool.and_eq_true] at h
          rcases List.mem_cons.mp hc with rfl | hlater
          · exact ⟨p, List.mem_cons_self, h.left⟩
          · rcases ih h.right hlater with ⟨q, hq, hsame⟩
            exact ⟨q, List.mem_cons_of_mem p hq, hsame⟩

/-- Nothing in the text reads like the pattern. -/
def Unlike (same : α -> α -> Bool) (pattern text : List α) : Prop :=
  forall s, s <:+ text -> startsLike same pattern s = false

theorem unlike_of_inserted {mark : α} {text out : List α}
    (hins : Replace.Inserted mark text out) {pattern : List α}
    (hmark : forall p, p ∈ pattern -> same p mark = false)
    (htext : Unlike same pattern text) :
    Unlike same pattern out := by
  induction hins with
  | nil => exact htext
  | keep x hrest ih =>
      intro s hsuffix
      rcases List.suffix_cons_iff.mp hsuffix with rfl | hlater
      · rw [Bool.eq_false_iff]
        intro h
        have hbefore := startsLike_of_inserted
          (Replace.Inserted.keep x hrest) hmark h
        rw [htext _ (List.suffix_refl _)] at hbefore
        cases hbefore
      · apply ih _ s hlater
        intro t ht
        exact htext t (ht.trans (List.suffix_cons x _))
  | add hrest ih =>
      intro s hsuffix
      rcases List.suffix_cons_iff.mp hsuffix with rfl | hlater
      · cases pattern with
        | nil =>
            have hnil := htext [] List.nil_suffix
            cases hnil
        | cons p pattern =>
            rw [startsLike_cons, hmark p List.mem_cons_self]
            rfl
      · exact ih htext s hlater

theorem startsLike_of_replaceFrom {hits : List α -> Bool} {size : Nat}
    {first : α} {new : List α} {pattern text : List α}
    (hfirst : forall p, p ∈ pattern -> same p first = false)
    (h : startsLike same pattern
      (Replace.replaceFrom hits size (first :: new) 0 text) = true) :
    startsLike same pattern text = true := by
  induction text generalizing pattern with
  | nil => exact h
  | cons c text ih =>
      cases pattern with
      | nil => rfl
      | cons p pattern =>
          rw [Replace.replaceFrom_cons] at h
          split at h
          · rw [List.cons_append, startsLike_cons,
              hfirst p List.mem_cons_self] at h
            cases h
          · rw [startsLike_cons, Bool.and_eq_true] at h
            have hrest := ih (fun q hq => hfirst q (List.mem_cons_of_mem p hq))
              h.right
            rw [startsLike_cons, h.left, hrest]
            rfl

/-- Where all that reads like the pattern is replaced by what does not, nothing
that does is left. -/
theorem unlike_replaceFrom {hits : List α -> Bool} {size : Nat} {first p : α}
    {new pattern : List α}
    (hfirst : forall q, q ∈ pattern -> same q first = false)
    (hnew : forall c, c ∈ first :: new -> same p c = false)
    (hhits : forall here, startsLike same (p :: pattern) here = true ->
      hits here = true)
    (skip : Nat) (text : List α) :
    Unlike same (p :: pattern)
      (Replace.replaceFrom hits size (first :: new) skip text) := by
  induction text generalizing skip with
  | nil =>
      intro s hsuffix
      rw [Replace.replaceFrom_nil] at hsuffix
      rw [List.suffix_nil.mp hsuffix]
      rfl
  | cons c text ih =>
      cases skip with
      | succ skip => exact ih skip
      | zero =>
          intro s hsuffix
          rw [Replace.replaceFrom_cons] at hsuffix
          split at hsuffix
          · rcases suffix_append_cases hsuffix with hin | hacross
            · exact ih _ s hin
            · rcases hacross with ⟨front, rfl, hfront⟩
              cases front with
              | nil => exact ih _ _ (List.suffix_refl _)
              | cons x front =>
                  have hx := hfront.subset List.mem_cons_self
                  rw [List.cons_append, startsLike_cons, hnew x hx]
                  rfl
          · rename_i hno
            rcases List.suffix_cons_iff.mp hsuffix with rfl | hlater
            · rw [Bool.eq_false_iff]
              intro h
              apply hno
              apply hhits
              rw [startsLike_cons, Bool.and_eq_true] at h
              rw [startsLike_cons, h.left,
                startsLike_of_replaceFrom hfirst h.right]
              rfl
            · exact ih 0 s hlater

end Scanners

end Escaping
end Foundation
end Minni
