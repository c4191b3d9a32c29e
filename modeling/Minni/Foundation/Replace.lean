import Mathlib.Data.List.Infix

/-!
# Replacing in lists

Matches are replaced from the left, without overlap.  Where the replacement has
no part in a new match, the pattern does not occur in the result.  An occurrence
that could begin in front of a seam would have to cross it.
-/

namespace Minni
namespace Foundation
namespace Replace

variable {α : Type}

/-!
## Replacement
-/

section Replacement

variable (hits : List α -> Bool) (size : Nat) (new : List α)

/-- What follows a match is skipped as far as the match goes. -/
def replaceFrom : Nat -> List α -> List α
  | _, [] => []
  | skip + 1, _ :: rest => replaceFrom skip rest
  | 0, c :: rest =>
      if hits (c :: rest) then new ++ replaceFrom (size - 1) rest
      else c :: replaceFrom 0 rest

def replaceHits (text : List α) : List α :=
  replaceFrom hits size new 0 text

variable {hits size new}

theorem replaceFrom_nil (skip : Nat) :
    replaceFrom hits size new skip [] = [] := by
  cases skip <;> rfl

theorem replaceFrom_cons (c : α) (rest : List α) :
    replaceFrom hits size new 0 (c :: rest) =
      if hits (c :: rest) then new ++ replaceFrom hits size new (size - 1) rest
      else c :: replaceFrom hits size new 0 rest :=
  rfl

/-- What shares nothing with the head of the replacement was there before. -/
theorem prefix_of_replaceFrom
    {first : α} {rest : List α} (hnew : new = first :: rest)
    {wanted text : List α} (hfirst : first ∉ wanted)
    (h : wanted <+: replaceFrom hits size new 0 text) :
    wanted <+: text := by
  induction text generalizing wanted with
  | nil => exact h
  | cons c text ih =>
      cases wanted with
      | nil => exact List.nil_prefix
      | cons w wanted =>
          rw [List.mem_cons, not_or] at hfirst
          rw [replaceFrom_cons] at h
          split at h
          · rw [hnew, List.cons_append] at h
            have hhead := (List.cons_prefix_cons.mp h).left
            exact absurd hhead.symm hfirst.left
          · rcases List.cons_prefix_cons.mp h with ⟨hhead, htail⟩
            exact List.cons_prefix_cons.mpr ⟨hhead, ih hfirst.right htail⟩

/-- An occurrence begins in the first list or lies in the second. -/
theorem not_infix_append
    {mark before after : List α}
    (hbefore : forall s, s ≠ [] -> s <:+ before -> ¬ mark <+: s ++ after)
    (hafter : ¬ mark <:+: after) :
    ¬ mark <:+: before ++ after := by
  induction before with
  | nil => exact hafter
  | cons c before ih =>
      intro h
      rw [List.cons_append] at h
      rcases List.infix_cons_iff.mp h with hhere | hlater
      · exact hbefore (c :: before) (List.cons_ne_nil _ _) (List.suffix_refl _)
          hhere
      · apply ih _ hlater
        intro s hs hsuffix
        exact hbefore s hs (hsuffix.trans (List.suffix_cons ..))

/-- The pattern does not occur in the result, when no match can begin in the
replacement and none goes on into it. -/
theorem not_infix_replaceFrom
    {c first : α} {tail rest : List α} (hnew : new = first :: rest)
    (htail : first ∉ tail)
    (hapart : forall s, s ≠ [] -> s <:+ new ->
      ¬ s <+: c :: tail ∧ ¬ c :: tail <+: s)
    (hhits : forall text, c :: tail <+: text -> hits text = true)
    (skip : Nat) (text : List α) :
    ¬ c :: tail <:+: replaceFrom hits size new skip text := by
  induction text generalizing skip with
  | nil =>
      intro h
      rw [replaceFrom_nil] at h
      exact absurd (List.infix_nil.mp h) (List.cons_ne_nil _ _)
  | cons x text ih =>
      cases skip with
      | succ skip => exact ih skip
      | zero =>
          rw [replaceFrom_cons]
          split
          · apply not_infix_append
            · intro s hs hsuffix h
              have hor := List.prefix_or_prefix_of_prefix h
                (List.prefix_append s _)
              rcases hapart s hs hsuffix with ⟨hleft, hright⟩
              rcases hor with hmark | hs'
              · exact hright hmark
              · exact hleft hs'
            · exact ih _
          · rename_i hno
            intro h
            rcases List.infix_cons_iff.mp h with hhere | hlater
            · rcases List.cons_prefix_cons.mp hhere with ⟨hx, hrest⟩
              have hwas := prefix_of_replaceFrom hnew htail hrest
              apply hno
              apply hhits
              rw [hx]
              exact List.cons_prefix_cons.mpr ⟨rfl, hwas⟩
            · exact ih 0 hlater

/-- A mark that shares nothing with the replacement does not come up. -/
theorem not_infix_replaceFrom_of
    {first : α} {rest mark : List α} (hnew : new = first :: rest)
    (hfirst : first ∉ mark)
    (hapart : forall s, s ≠ [] -> s <:+ new -> ¬ s <+: mark ∧ ¬ mark <+: s)
    (skip : Nat) {text : List α} (htext : ¬ mark <:+: text) :
    ¬ mark <:+: replaceFrom hits size new skip text := by
  induction text generalizing skip with
  | nil => exact htext
  | cons x text ih =>
      have hrest : ¬ mark <:+: text := by
        intro h
        exact htext (h.trans (List.infix_cons (List.infix_refl _)))
      cases skip with
      | succ skip => exact ih skip hrest
      | zero =>
          have hhere : ¬ mark <+: replaceFrom hits size new 0 (x :: text) := by
            intro h
            exact htext (prefix_of_replaceFrom hnew hfirst h).isInfix
          rw [replaceFrom_cons] at hhere ⊢
          split
          · apply not_infix_append
            · intro s hs hsuffix h
              rcases hapart s hs hsuffix with ⟨hleft, hright⟩
              rcases List.prefix_or_prefix_of_prefix h
                (List.prefix_append s _) with hin | hout
              · exact hright hin
              · exact hleft hout
            · exact ih _ hrest
          · rename_i hno
            rw [if_neg hno] at hhere
            intro h
            rcases List.infix_cons_iff.mp h with hnow | hlater
            · exact hhere hnow
            · exact ih 0 hrest hlater

end Replacement

/-!
## Insertion
-/

/-- A list with a mark put in at some places. -/
inductive Inserted (mark : α) : List α -> List α -> Prop where
  | nil : Inserted mark [] []
  | keep (x : α) {text out : List α} (h : Inserted mark text out) :
      Inserted mark (x :: text) (x :: out)
  | add {text out : List α} (h : Inserted mark text out) :
      Inserted mark text (mark :: out)

theorem prefix_of_inserted
    {mark : α} {text out : List α} (h : Inserted mark text out)
    {wanted : List α} (hmark : mark ∉ wanted) (hwanted : wanted <+: out) :
    wanted <+: text := by
  induction h generalizing wanted with
  | nil => exact hwanted
  | keep x h ih =>
      cases wanted with
      | nil => exact List.nil_prefix
      | cons w wanted =>
          rw [List.mem_cons, not_or] at hmark
          rcases List.cons_prefix_cons.mp hwanted with ⟨hhead, htail⟩
          exact List.cons_prefix_cons.mpr ⟨hhead, ih hmark.right htail⟩
  | add h ih =>
      cases wanted with
      | nil => exact List.nil_prefix
      | cons w wanted =>
          rw [List.mem_cons, not_or] at hmark
          exact absurd (List.cons_prefix_cons.mp hwanted).left.symm hmark.left

theorem infix_of_inserted
    {mark : α} {text out : List α} (h : Inserted mark text out)
    {wanted : List α} (hmark : mark ∉ wanted) (hne : wanted ≠ [])
    (hwanted : wanted <:+: out) :
    wanted <:+: text := by
  induction h with
  | nil => exact hwanted
  | keep x h ih =>
      rcases List.infix_cons_iff.mp hwanted with hhere | hlater
      · exact (prefix_of_inserted (Inserted.keep x h) hmark hhere).isInfix
      · exact List.infix_cons (ih hlater)
  | add h ih =>
      rcases List.infix_cons_iff.mp hwanted with hhere | hlater
      · cases wanted with
        | nil => exact absurd rfl hne
        | cons w wanted =>
            rw [List.mem_cons, not_or] at hmark
            exact absurd (List.cons_prefix_cons.mp hhere).left.symm hmark.left
      · exact ih hlater

/-!
## Seams
-/

theorem not_infix_concat {x : α} {mark text : List α} (hx : x ∉ mark)
    (hmark : mark ≠ []) (h : ¬ mark <:+: text) :
    ¬ mark <:+: text ++ [x] := by
  apply not_infix_append
  · intro s hs hsuffix hprefixed
    rcases hprefixed with ⟨more, hmore⟩
    rcases List.eq_nil_or_concat more with hnil | ⟨more', last, hmore'⟩
    · rw [hnil, List.append_nil] at hmore
      apply hx
      rw [hmore]
      exact List.mem_append_right _ (List.mem_singleton_self x)
    · rw [hmore', List.concat_eq_append, ← List.append_assoc] at hmore
      have hinside := (List.append_inj' hmore rfl).left
      apply h
      exact (List.IsPrefix.isInfix ⟨more', hinside⟩).trans hsuffix.isInfix
  · intro hinfixed
    rcases List.infix_cons_iff.mp hinfixed with hhere | hlater
    · cases mark with
      | nil => exact hmark rfl
      | cons m mark =>
          apply hx
          rw [(List.cons_prefix_cons.mp hhere).left]
          exact List.mem_cons_self ..
    · exact hmark (List.infix_nil.mp hlater)

/-- No occurrence begins in front of a seam that begins like the mark does. -/
theorem not_prefix_seam
    {c : α} {tail : List α} (hmark : c ∉ tail) {before after : List α}
    (hbefore : ¬ c :: tail <:+: before) :
    forall s, s ≠ [] -> s <:+ before -> ¬ c :: tail <+: s ++ c :: after := by
  intro s hs hsuffix h
  rcases List.prefix_or_prefix_of_prefix h (List.prefix_append s (c :: after))
    with hinside | hacross
  · exact hbefore (hinside.isInfix.trans hsuffix.isInfix)
  · rcases hacross with ⟨more, hmore⟩
    cases s with
    | nil => exact hs rfl
    | cons x s =>
        rw [List.cons_append] at hmore
        have htail := (List.cons.inj hmore).right
        rw [← hmore] at h
        have hrest := (List.cons_prefix_cons.mp h).right
        have hseam := List.prefix_append_right_inj s |>.mp hrest
        cases more with
        | nil =>
            apply hbefore
            have hsame : c :: tail = x :: s := by
              rw [← hmore, List.append_nil]
            rw [hsame]
            exact hsuffix.isInfix
        | cons m more =>
            have hm := (List.cons_prefix_cons.mp hseam).left
            apply hmark
            rw [← htail, hm]
            exact List.mem_append_right _ (List.mem_cons_self ..)

/-!
## Occurrences
-/

section Occurrences

variable [DecidableEq α] (mark : List α)

def occurrences : List α -> Nat
  | [] => 0
  | c :: rest =>
      (if mark.isPrefixOf (c :: rest) then 1 else 0) + occurrences rest

variable {mark}

theorem occurrences_append {before after : List α}
    (h : forall s, s ≠ [] -> s <:+ before -> ¬ mark <+: s ++ after) :
    occurrences mark (before ++ after) = occurrences mark after := by
  induction before with
  | nil => rfl
  | cons c before ih =>
      have hhere := h (c :: before) (List.cons_ne_nil _ _) (List.suffix_refl _)
      rw [List.cons_append] at hhere
      rw [List.cons_append, occurrences, if_neg, Nat.zero_add]
      · apply ih
        intro s hs hsuffix
        exact h s hs (hsuffix.trans (List.suffix_cons ..))
      · intro hprefixed
        exact hhere (List.isPrefixOf_iff_prefix.mp hprefixed)

end Occurrences

end Replace
end Foundation
end Minni
