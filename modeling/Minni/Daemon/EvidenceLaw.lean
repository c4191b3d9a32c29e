import Mathlib.Data.Bool.AllAny
import Minni.Daemon.ExpandLaw
import Minni.Foundation.Escaping

/-!
# Untrusted text in its envelope

A scanner that takes no account of case finds the two tags of an envelope and
no other, and the attributes are read back from the tag.  The marks that are
put into a body can be taken out again, but for a text that holds the
placeholder of the recovery, or a part of it in front of a mark.
-/

namespace Minni
namespace Daemon

open Foundation
open Foundation.Escaping

/-!
## Recovery
-/

def nul : Char := Char.ofNat 0

/-- What is between the ends of the placeholder. -/
def placeholderWord : List Char := "MINNI_BOUNDARY".toList

/-- `_INSTRUCTION_BODY_PLACEHOLDER` -/
def instructionBodyPlaceholder : List Char :=
  nul :: (placeholderWord ++ [nul])

/-- `_recover_instruction_like_body` -/
def recoverInstructionLikeBody (perturbed_text : List Char) : List Char :=
  let text := replaceText [instructionBodyBoundary, instructionBodyBoundary]
    instructionBodyPlaceholder perturbed_text
  let text := replaceChar instructionBodyBoundary [] text
  replaceText instructionBodyPlaceholder [instructionBodyBoundary] text

/-- The text with the placeholder for each boundary. -/
def withPlaceholders (text : List Char) : List Char :=
  replaceChar instructionBodyBoundary instructionBodyPlaceholder text

/-- What the recovery takes for a placeholder where none was put in. -/
def placeholderThen (last : Char) : List Char :=
  nul :: (placeholderWord ++ [last])

/-- No placeholder is in the text, and none comes up in front of a boundary. -/
structure Recoverable (text : List Char) : Prop where
  whole : ¬ placeholderThen nul <:+: text
  joined : ¬ placeholderThen instructionBodyBoundary <:+: text

theorem replaceChar_cons (c : Char) (new : List Char) (x : Char)
    (text : List Char) :
    replaceChar c new (x :: text) =
      (if x = c then new else [x]) ++ replaceChar c new text :=
  List.flatMap_cons

theorem replaceChar_single (c : Char) (new : List Char) (x : Char) :
    replaceChar c new [x] = if x = c then new else [x] :=
  List.flatMap_singleton ..

theorem replaceChar_append (c : Char) (new a b : List Char) :
    replaceChar c new (a ++ b) = replaceChar c new a ++ replaceChar c new b :=
  List.flatMap_append

/-- The pairs become placeholders, and the single marks go. -/
theorem unmark_markBoundaries (isWord : Char -> Bool) (before : Option Char)
    (text : List Char) :
    replaceChar instructionBodyBoundary []
        (replaceText [instructionBodyBoundary, instructionBodyBoundary]
          instructionBodyPlaceholder
          (markBoundaries isWord before
            (replaceChar instructionBodyBoundary
              [instructionBodyBoundary, instructionBodyBoundary] text))) =
      withPlaceholders text := by
  have hblank : PyText.isSpace instructionBodyBoundary = false := by
    decide
  have hplaceholder : replaceChar instructionBodyBoundary []
      instructionBodyPlaceholder = instructionBodyPlaceholder := by
    decide
  unfold replaceText Replace.replaceHits withPlaceholders
  induction text generalizing before with
  | nil => rfl
  | cons c text ih =>
      rw [replaceChar_cons, replaceChar_cons]
      by_cases hc : c = instructionBodyBoundary
      · -- the pair is read as one hit, whatever is in front of it
        rw [if_pos hc, if_pos hc, List.cons_append, List.cons_append,
          List.nil_append, markBoundaries, hblank, Bool.false_and,
          Bool.false_and, if_neg Bool.false_ne_true, markBoundaries, hblank,
          Bool.false_and, Bool.false_and, if_neg Bool.false_ne_true,
          Replace.replaceFrom, if_pos, replaceChar_append, hplaceholder]
        · exact congrArg _ (ih _)
        · simp
      · rw [if_neg hc, if_neg hc, List.cons_append, List.nil_append,
          markBoundaries]
        have hother : forall rest : List Char,
            [instructionBodyBoundary, instructionBodyBoundary].isPrefixOf
              (c :: rest) = false := by
          intro rest
          rw [List.isPrefixOf, beq_false_of_ne (Ne.symm hc)]
          rfl
        split
        · rw [Replace.replaceFrom, if_neg, Replace.replaceFrom, hother,
            if_neg Bool.false_ne_true, replaceChar_cons, replaceChar_cons,
            if_pos rfl, if_neg hc, ih]
          · rfl
          · rw [List.isPrefixOf, List.isPrefixOf, beq_false_of_ne (Ne.symm hc),
              Bool.false_and, Bool.and_false]
            exact Bool.false_ne_true
        · rw [Replace.replaceFrom, hother, if_neg Bool.false_ne_true,
            replaceChar_cons, if_neg hc, ih]

theorem prefix_withPlaceholders_iff {word : List Char} (hnul : nul ∉ word)
    (hboundary : instructionBodyBoundary ∉ word) (text : List Char) :
    word ++ [nul] <+: withPlaceholders text <->
      word ++ [nul] <+: text ∨ word ++ [instructionBodyBoundary] <+: text := by
  unfold withPlaceholders
  induction word generalizing text with
  | nil =>
      cases text with
      | nil => decide
      | cons c text =>
          rw [replaceChar_cons]
          by_cases hc : c = instructionBodyBoundary
          · rw [if_pos hc, hc]
            constructor
            · intro _
              exact Or.inr (List.prefix_append [instructionBodyBoundary] text)
            · intro _
              exact List.prefix_append [nul] _
          · rw [if_neg hc]
            constructor
            · intro h
              have hhead := (List.cons_prefix_cons.mp h).left
              rw [← hhead]
              exact Or.inl (List.prefix_append [nul] text)
            · intro h
              rcases h with h | h
              · have hhead := (List.cons_prefix_cons.mp h).left
                rw [← hhead]
                exact List.prefix_append [nul] _
              · exact absurd (List.cons_prefix_cons.mp h).left.symm hc
  | cons x word ih =>
      rw [List.mem_cons, not_or] at hnul hboundary
      cases text with
      | nil =>
          constructor
          · intro h
            exact Or.inl h
          · intro h
            rcases h with h | h
            · exact h
            · exact absurd (List.prefix_nil.mp h) (List.cons_ne_nil _ _)
      | cons c text =>
          rw [replaceChar_cons]
          by_cases hc : c = instructionBodyBoundary
          · rw [if_pos hc, hc]
            constructor
            · intro h
              exact absurd (List.cons_prefix_cons.mp h).left.symm hnul.left
            · intro h
              rcases h with h | h
              · exact absurd (List.cons_prefix_cons.mp h).left.symm
                  hboundary.left
              · exact absurd (List.cons_prefix_cons.mp h).left.symm
                  hboundary.left
          · rw [if_neg hc, List.singleton_append, List.cons_append,
              List.cons_append, List.cons_prefix_cons, List.cons_prefix_cons,
              List.cons_prefix_cons, ih hnul.right hboundary.right,
              and_or_left]

theorem recoverable_cons_iff (c : Char) (text : List Char) :
    Recoverable (c :: text) <->
      ¬ (placeholderThen nul <+: c :: text ∨
        placeholderThen instructionBodyBoundary <+: c :: text) ∧
      Recoverable text := by
  constructor
  · intro h
    constructor
    · intro hhere
      rcases hhere with hhere | hhere
      · exact h.whole hhere.isInfix
      · exact h.joined hhere.isInfix
    · constructor
      · intro hlater
        exact h.whole (List.infix_cons hlater)
      · intro hlater
        exact h.joined (List.infix_cons hlater)
  · intro h
    rcases h with ⟨hhere, hlater⟩
    rw [not_or] at hhere
    constructor
    · intro hinfixed
      rcases List.infix_cons_iff.mp hinfixed with hnow | hthen
      · exact hhere.left hnow
      · exact hlater.whole hthen
    · intro hinfixed
      rcases List.infix_cons_iff.mp hinfixed with hnow | hthen
      · exact hhere.right hnow
      · exact hlater.joined hthen

/-- The placeholders are read back where no other one is found. -/
theorem replaceText_withPlaceholders_iff (text : List Char) :
    replaceText instructionBodyPlaceholder [instructionBodyBoundary]
        (withPlaceholders text) = text <->
      Recoverable text := by
  have hhit : forall (c : Char) (text : List Char),
      instructionBodyPlaceholder <+: c :: withPlaceholders text <->
        placeholderThen nul <+: c :: text ∨
          placeholderThen instructionBodyBoundary <+: c :: text := by
    intro c text
    unfold instructionBodyPlaceholder placeholderThen
    rw [List.cons_prefix_cons, List.cons_prefix_cons, List.cons_prefix_cons,
      prefix_withPlaceholders_iff (by decide) (by decide), and_or_left]
  induction text with
  | nil =>
      constructor
      · intro _
        constructor
        · intro h
          exact absurd (List.infix_nil.mp h) (List.cons_ne_nil _ _)
        · intro h
          exact absurd (List.infix_nil.mp h) (List.cons_ne_nil _ _)
      · intro _
        rfl
  | cons c text ih =>
      have hrest : Recoverable text <->
          replaceText instructionBodyPlaceholder [instructionBodyBoundary]
            (withPlaceholders text) = text := ih.symm
      rw [recoverable_cons_iff, hrest]
      unfold replaceText Replace.replaceHits
      by_cases hc : c = instructionBodyBoundary
      · have hfirst : withPlaceholders (c :: text) =
            nul :: (placeholderWord ++ [nul] ++ withPlaceholders text) := by
          unfold withPlaceholders
          rw [replaceChar_cons, if_pos hc]
          rfl
        have hstart : instructionBodyPlaceholder.isPrefixOf
            (nul :: (placeholderWord ++ [nul] ++ withPlaceholders text)) =
            true :=
          List.isPrefixOf_iff_prefix.mpr
            (List.prefix_append instructionBodyPlaceholder
              (withPlaceholders text))
        have hdrop : (placeholderWord ++ [nul] ++ withPlaceholders text).drop
            (instructionBodyPlaceholder.length - 1) =
            withPlaceholders text :=
          List.drop_left
        rw [hfirst, Replace.replaceFrom, if_pos hstart, replaceFrom_skip,
          hdrop, List.singleton_append, hc]
        constructor
        · intro h
          constructor
          · intro hhere
            rcases hhere with hhere | hhere
            · have hhead := (List.cons_prefix_cons.mp hhere).left
              revert hhead
              decide
            · have hhead := (List.cons_prefix_cons.mp hhere).left
              revert hhead
              decide
          · exact (List.cons.inj h).right
        · intro h
          rw [h.right]
      · have hfirst : withPlaceholders (c :: text) =
            c :: withPlaceholders text := by
          unfold withPlaceholders
          rw [replaceChar_cons, if_neg hc]
          rfl
        rw [hfirst, Replace.replaceFrom, ← hhit c text]
        split
        · rename_i hstart
          have hprefixed := List.isPrefixOf_iff_prefix.mp hstart
          constructor
          · intro h
            exact absurd (List.cons.inj h).left.symm hc
          · intro h
            exact absurd hprefixed h.left
        · rename_i hstart
          have hprefixed := fun h => hstart (List.isPrefixOf_iff_prefix.mpr h)
          constructor
          · intro h
            exact ⟨hprefixed, (List.cons.inj h).right⟩
          · intro h
            rw [h.right]

theorem recover_perturb_iff (isWord : Char -> Bool) (text : List Char) :
    recoverInstructionLikeBody (perturbInstructionLikeBody isWord text) =
        text <->
      Recoverable text := by
  unfold recoverInstructionLikeBody perturbInstructionLikeBody
  dsimp only
  rw [unmark_markBoundaries]
  exact replaceText_withPlaceholders_iff text

/-!
## What the escape leaves alone
-/

theorem opensEvidence_eq (here : List Char) :
    opensEvidence here = startsLike sameLetter openMark here :=
  (startsLike_eq_all sameLetter openMark here).symm

theorem sameLetter_bracket {c : Char} (h : sameLetter '<' c = true) :
    c = '<' := by
  have hletter : decide ('<' = 'I') = false := by
    decide
  have hlower : '<'.toLower = '<' := by
    decide
  unfold sameLetter at h
  rw [hlower, hletter, Bool.or_self, Bool.false_and, Bool.or_false] at h
  exact of_decide_eq_true h

theorem sameLetter_slash {c : Char} (h : sameLetter '/' c = true) :
    c = '/' := by
  have hletter : decide ('/' = 'I') = false := by
    decide
  have hlower : '/'.toLower = '/' := by
    decide
  unfold sameLetter at h
  rw [hlower, hletter, Bool.or_self, Bool.false_and, Bool.or_false] at h
  exact of_decide_eq_true h

section Untouched

variable {mark : List Char} (hhead : mark.head? = some nul)
  (hsafe : forall c, c ∈ ['`', '\\', '\n', '<', '&'] -> c ∉ mark)

include hhead hsafe

theorem apart_of_safe {c : Char} (hc : c ∈ ['`', '\\', '\n', '<', '&'])
    {rest : List Char} (hrest : nul ∉ c :: rest) :
    Apart mark (c :: rest) := by
  constructor
  · exact ⟨c, rest, rfl, hsafe c hc⟩
  · intro first hfirst
    rw [hhead] at hfirst
    cases hfirst
    exact hrest

theorem rewritten_replaceChar {c d : Char} {new : List Char}
    (hc : c ∈ ['`', '\\', '\n', '<', '&']) (hnul : nul ≠ c)
    (hd : d ∈ ['`', '\\', '\n', '<', '&']) (hnew : nul ∉ d :: new)
    (text : List Char) :
    Rewritten mark text (replaceChar c (d :: new) text) := by
  apply rewritten_flatMap
  intro x
  by_cases hx : x = c
  · rw [if_pos hx, hx]
    right
    constructor
    · exact apart_of_safe hhead hsafe hc (List.mem_singleton.not.mpr hnul)
    · exact apart_of_safe hhead hsafe hd hnew
  · rw [if_neg hx]
    exact Or.inl rfl

theorem rewritten_replaceText {c d : Char} {old new : List Char}
    (hc : c ∈ ['`', '\\', '\n', '<', '&']) (hold : nul ∉ c :: old)
    (hd : d ∈ ['`', '\\', '\n', '<', '&']) (hnew : nul ∉ d :: new)
    (text : List Char) :
    Rewritten mark text (replaceText (c :: old) (d :: new) text) := by
  have hsize : 0 < (c :: old).length := Nat.succ_pos _
  apply rewritten_replaceHits (apart_of_safe hhead hsafe hd hnew) hsize
  intro here hhit
  rcases List.isPrefixOf_iff_prefix.mp hhit with ⟨rest, hrest⟩
  rw [← hrest, List.take_left]
  exact apart_of_safe hhead hsafe hc hold

theorem rewritten_opens (text : List Char) :
    Rewritten mark text
      (Replace.replaceHits opensEvidence 9 "&#60;EVIDENCE".toList text) := by
  apply rewritten_replaceHits _ (by decide)
  · intro here hhit
    rw [opensEvidence_eq] at hhit
    have hnul : nul ∉ here.take 9 := by
      intro hmem
      rcases mem_take_of_startsLike hhit hmem with ⟨p, hp, hsame⟩
      revert hsame
      revert p
      exact List.all_iff_forall_prop.mp (by decide)
    cases here with
    | nil => cases hhit
    | cons c rest =>
        have hfirst : c = '<' := by
          have hboth : (sameLetter '<' c && startsLike sameLetter
              "EVIDENCE".toList rest) = true := hhit
          rw [Bool.and_eq_true] at hboth
          exact sameLetter_bracket hboth.left
        rw [List.take_succ_cons] at hnul ⊢
        apply apart_of_safe hhead hsafe _ hnul
        rw [hfirst]
        decide
  · exact apart_of_safe hhead hsafe (by decide) (by decide)

theorem infix_evidenceBodyEscape_iff (text : List Char) :
    mark <:+: evidenceBodyEscape text <-> mark <:+: text := by
  unfold evidenceBodyEscape
  dsimp only
  rw [← infix_rewritten_iff (rewritten_opens hhead hsafe _),
    ← infix_rewritten_iff (rewritten_replaceText hhead hsafe (by decide)
      (by decide) (by decide) (by decide) _),
    ← infix_rewritten_iff (rewritten_replaceText hhead hsafe (by decide)
      (by decide) (by decide) (by decide) _),
    ← infix_rewritten_iff (rewritten_replaceChar hhead hsafe (by decide)
      (by decide) (by decide) (by decide) _)]

end Untouched

theorem recoverable_evidenceBodyEscape_iff (text : List Char) :
    Recoverable (evidenceBodyEscape text) <-> Recoverable text := by
  have hwhole := @infix_evidenceBodyEscape_iff (placeholderThen nul) rfl
    (List.all_iff_forall_prop.mp (by decide)) text
  have hjoined := @infix_evidenceBodyEscape_iff
    (placeholderThen instructionBodyBoundary) rfl
    (List.all_iff_forall_prop.mp (by decide)) text
  constructor
  · intro h
    constructor
    · intro hmark
      exact h.whole (hwhole.mpr hmark)
    · intro hmark
      exact h.joined (hjoined.mpr hmark)
  · intro h
    constructor
    · intro hmark
      exact h.whole (hwhole.mp hmark)
    · intro hmark
      exact h.joined (hjoined.mp hmark)

/-!
## Scanners
-/

/-- A scanner takes a letter for itself, and takes for a letter of a tag only
what the escape does. -/
structure Scanner where
  same : Char -> Char -> Bool
  reads : forall c, same c c = true
  folds : forall p, p ∈ closeTag -> forall c, same p c = true ->
    sameLetter p c = true

namespace Scanner

variable (scanner : Scanner)

def opens (text : List Char) : List Nat :=
  found (startsLike scanner.same openMark) 0 text

def closes (text : List Char) : List Nat :=
  found (startsLike scanner.same closeTag) 0 text

end Scanner

/-- In any case of its letters, no tag of an envelope is inside. -/
structure Sealed (text : List Char) : Prop where
  opens : Unlike sameLetter openMark text
  closes : ¬ ['<', '/'] <:+: text

theorem sealed_evidenceBody (host : ExpandHost) (instruction_like : Bool)
    (text : String) :
    Sealed (evidenceBody host instruction_like text) := by
  constructor
  · have hescaped : Unlike sameLetter openMark
        (evidenceBodyEscape text.toList) := by
      unfold evidenceBodyEscape
      apply unlike_replaceFrom
      · exact List.all_iff_forall_prop.mp (by decide)
      · exact List.all_iff_forall_prop.mp (by decide)
      · intro here h
        rw [opensEvidence_eq]
        exact h
    have hmark : forall p, p ∈ openMark ->
        sameLetter p instructionBodyBoundary = false :=
      List.all_iff_forall_prop.mp (by decide)
    unfold evidenceBody
    dsimp only
    split
    · unfold perturbInstructionLikeBody
      exact unlike_of_inserted (inserted_markBoundaries ..) hmark
        (unlike_of_inserted (inserted_replaceChar ..) hmark hescaped)
    · exact hescaped
  · exact (tagless_evidenceBody host instruction_like text).closes

section Scanned

variable (scanner : Scanner) {host : ExpandHost} {evidence : Evidence}
  {inner : List Char}

theorem Scanner.same_bracket {c : Char} (h : scanner.same '<' c = true) :
    c = '<' :=
  sameLetter_bracket (scanner.folds '<' (by decide) c h)

theorem Scanner.unlike_of_not_mem {tail text : List Char} (h : '<' ∉ text)
    {s : List Char} (hs : s ≠ []) (hsuffix : s <:+ text) (after : List Char) :
    startsLike scanner.same ('<' :: tail) (s ++ after) = false := by
  cases s with
  | nil => exact absurd rfl hs
  | cons c s =>
      rw [Bool.eq_false_iff]
      intro hlike
      rw [List.cons_append, startsLike_cons, Bool.and_eq_true] at hlike
      apply h
      rw [← scanner.same_bracket hlike.left]
      exact hsuffix.subset List.mem_cons_self

theorem Scanner.same_letter_bracket {p : Char}
    (hp : p ∈ "EVIDENCE/>".toList) :
    scanner.same p '<' = false := by
  rw [Bool.eq_false_iff]
  intro h
  have hall : forall p, p ∈ "EVIDENCE/>".toList ->
      p ∈ closeTag ∧ sameLetter p '<' = false :=
    List.all_iff_forall_prop.mp (by decide)
  rcases hall p hp with ⟨hmem, hnot⟩
  rw [scanner.folds p hmem '<' h] at hnot
  cases hnot

/-- A pattern is found where it stands at the front or at the end. -/
theorem Scanner.found_enveloped {tail : List Char}
    (htail : tail ⊆ "EVIDENCE/>".toList)
    (hinner : Unlike scanner.same ('<' :: tail) inner) :
    found (startsLike scanner.same ('<' :: tail)) 0
        (enveloped host evidence inner) =
      (if startsLike scanner.same ('<' :: tail)
          (enveloped host evidence inner) then [0] else []) ++
        found (startsLike scanner.same ('<' :: tail))
          ((enveloped host evidence inner).length - closeTag.length)
          closeTag := by
  rcases plain_evidenceAttributes host evidence with ⟨hattributes, _⟩
  have hsplit : enveloped host evidence inner =
      '<' :: (("EVIDENCE".toList ++ evidenceAttributes host evidence ++
        ['>']) ++ (inner ++ closeTag)) := by
    unfold enveloped openTag
    simp
  have hplain : '<' ∉ "EVIDENCE".toList ++ evidenceAttributes host evidence ++
      ['>'] := by
    intro hmem
    rcases List.mem_append.mp hmem with hleft | hright
    · rcases List.mem_append.mp hleft with hword | hattr
      · revert hword
        decide
      · exact hattributes hattr
    · revert hright
      decide
  have hclose : closeTag = '<' :: "/EVIDENCE>".toList := by
    decide
  have hbody : forall s, s ≠ [] -> s <:+ inner ->
      startsLike scanner.same ('<' :: tail) (s ++ closeTag) = false := by
    intro s hs hsuffix
    cases s with
    | nil => exact absurd rfl hs
    | cons c s =>
        rw [Bool.eq_false_iff]
        intro hlike
        rw [hclose, List.cons_append, startsLike_cons, Bool.and_eq_true]
          at hlike
        have hin := startsLike_seam
          (fun p hp => scanner.same_letter_bracket (htail hp)) hlike.right
        have hwhole : startsLike scanner.same ('<' :: tail) (c :: s) =
            true := by
          rw [startsLike_cons, hlike.left, hin]
          rfl
        rw [hinner _ hsuffix] at hwhole
        cases hwhole
  generalize "EVIDENCE".toList ++ evidenceAttributes host evidence ++ ['>'] =
    front at hsplit hplain
  have hlength : (enveloped host evidence inner).length - closeTag.length =
      0 + 1 + front.length + inner.length := by
    rw [hsplit, List.length_cons, List.length_append, List.length_append]
    omega
  rw [hlength]
  nth_rewrite 1 [hsplit]
  rw [found_cons, ← hsplit, found_append, found_append hbody]
  · split
    · rfl
    · rfl
  · intro s hs hsuffix
    exact scanner.unlike_of_not_mem hplain hs hsuffix _

theorem Scanner.found_closeTag {tail : List Char} (i : Nat) :
    found (startsLike scanner.same ('<' :: tail)) i closeTag =
      if startsLike scanner.same ('<' :: tail) closeTag then [i] else [] := by
  have hclose : closeTag = '<' :: "/EVIDENCE>".toList := by
    decide
  have hrest : found (startsLike scanner.same ('<' :: tail)) (i + 1)
      "/EVIDENCE>".toList = [] := by
    apply found_nil_of
    intro s hs hsuffix
    have hplain : '<' ∉ "/EVIDENCE>".toList := by
      decide
    have hnone := @Scanner.unlike_of_not_mem scanner tail _ hplain s hs
      hsuffix []
    rw [List.append_nil] at hnone
    exact hnone
  rw [hclose, found_cons, hrest]

theorem Scanner.opens_enveloped (h : Sealed inner) :
    scanner.opens (enveloped host evidence inner) = [0] := by
  have hmark : openMark = '<' :: "EVIDENCE".toList := by
    decide
  have hletters : openMark ⊆ closeTag := by
    decide
  have hunlike : Unlike scanner.same openMark inner := by
    intro s hsuffix
    rw [Bool.eq_false_iff]
    intro hlike
    have hwide := startsLike_mono
      (fun p hp => scanner.folds p (hletters hp)) hlike
    rw [h.opens s hsuffix] at hwide
    cases hwide
  have hfirst : startsLike scanner.same openMark
      (enveloped host evidence inner) = true := by
    unfold enveloped openTag
    rw [List.append_assoc, List.append_assoc, List.append_assoc]
    exact startsLike_self scanner.reads openMark _
  have hlast : startsLike scanner.same openMark closeTag = false := by
    rw [Bool.eq_false_iff]
    intro hlike
    have hwide := startsLike_mono
      (fun p hp => scanner.folds p (hletters hp)) hlike
    revert hwide
    decide
  unfold Scanner.opens
  rw [hmark] at hunlike hfirst hlast ⊢
  rw [scanner.found_enveloped (by decide) hunlike, scanner.found_closeTag,
    hfirst, hlast]
  rfl

theorem Scanner.closes_enveloped (h : Sealed inner) :
    scanner.closes (enveloped host evidence inner) =
      [(enveloped host evidence inner).length - closeTag.length] := by
  have hmark : closeTag = '<' :: "/EVIDENCE>".toList := by
    decide
  have hunlike : Unlike scanner.same closeTag inner := by
    intro s hsuffix
    rw [Bool.eq_false_iff]
    intro hlike
    apply h.closes
    have hwide := startsLike_mono scanner.folds hlike
    cases s with
    | nil => cases hwide
    | cons c s =>
        have hboth : (sameLetter '<' c && startsLike sameLetter
            "/EVIDENCE>".toList s) = true := hwide
        rw [Bool.and_eq_true] at hboth
        cases s with
        | nil => cases hboth.right
        | cons d s =>
            have hnext : (sameLetter '/' d && startsLike sameLetter
                "EVIDENCE>".toList s) = true := hboth.right
            rw [Bool.and_eq_true] at hnext
            have hd : d = '/' := sameLetter_slash hnext.left
            rw [sameLetter_bracket hboth.left, hd] at hsuffix
            have hprefixed : ['<', '/'] <+: '<' :: '/' :: s :=
              List.prefix_append _ s
            exact hprefixed.isInfix.trans hsuffix.isInfix
  have hfirst : startsLike scanner.same closeTag
      (enveloped host evidence inner) = false := by
    rw [Bool.eq_false_iff]
    intro hlike
    have hwide := startsLike_mono scanner.folds hlike
    have hstart : enveloped host evidence inner =
        '<' :: 'E' :: ("VIDENCE".toList ++ evidenceAttributes host evidence ++
          ['>'] ++ inner ++ closeTag) := rfl
    rw [hstart] at hwide
    have hboth : (sameLetter '<' '<' && (sameLetter '/' 'E' && _)) = true :=
      hwide
    rw [Bool.and_eq_true, Bool.and_eq_true] at hboth
    have hletter := hboth.right.left
    revert hletter
    decide
  have hlast : startsLike scanner.same closeTag closeTag = true := by
    have hself := startsLike_self scanner.reads closeTag []
    rw [List.append_nil] at hself
    exact hself
  unfold Scanner.closes
  nth_rewrite 1 [hmark] at hunlike
  nth_rewrite 1 [hmark] at hfirst
  nth_rewrite 1 [hmark] at hlast
  nth_rewrite 1 [hmark]
  rw [scanner.found_enveloped (by decide) hunlike, scanner.found_closeTag,
    hfirst, hlast]
  rfl

end Scanned

/-!
## Attributes
-/

/-- The text of a float has no quote and no entity. -/
structure EnvelopeHost extends ExpandHost where
  format3_bare : forall value, '"' ∉ (format3 value).toList ∧
    '&' ∉ (format3 value).toList

/-- The text that stands for a character of an attribute. -/
def entity (c : Char) : List Char :=
  if c = '&' then "&amp;".toList
  else if c = '"' then "&quot;".toList
  else if c = '<' then "&lt;".toList
  else if c = '>' then "&gt;".toList
  else [c]

def unescape : List Char -> List Char
  | [] => []
  | '&' :: 'a' :: 'm' :: 'p' :: ';' :: rest => '&' :: unescape rest
  | '&' :: 'q' :: 'u' :: 'o' :: 't' :: ';' :: rest => '"' :: unescape rest
  | '&' :: 'l' :: 't' :: ';' :: rest => '<' :: unescape rest
  | '&' :: 'g' :: 't' :: ';' :: rest => '>' :: unescape rest
  | c :: rest => c :: unescape rest

/-- The attributes of a tag: a name up to its quote, and the text up to the next
quote, with what the entities in it stand for. -/
def readAttributes :
    List Char -> Option (List Char) -> List Char ->
      List (List Char × List Char)
  | _, _, [] => []
  | name, none, c :: rest =>
      if c = '>' then []
      else if c = '"' then readAttributes name (some []) rest
      else if c = ' ' || c = '=' then readAttributes name none rest
      else readAttributes (name ++ [c]) none rest
  | name, some value, c :: rest =>
      if c = '"' then
        (name, unescape value) :: readAttributes [] none rest
      else readAttributes name (some (value ++ [c])) rest

def attributesOf (envelope : List Char) : List (List Char × List Char) :=
  readAttributes [] none (envelope.drop openMark.length)

theorem unescape_cons {c : Char} (h : c ≠ '&') (rest : List Char) :
    unescape (c :: rest) = c :: unescape rest := by
  rw [unescape]
  all_goals
    intros
    simp_all

theorem unescape_entity (c : Char) (rest : List Char) :
    unescape (entity c ++ rest) = c :: unescape rest := by
  unfold entity
  by_cases hamp : c = '&'
  · rw [if_pos hamp, hamp]
    rfl
  · rw [if_neg hamp]
    by_cases hquote : c = '"'
    · rw [if_pos hquote, hquote]
      rfl
    · rw [if_neg hquote]
      by_cases hless : c = '<'
      · rw [if_pos hless, hless]
        rfl
      · rw [if_neg hless]
        by_cases hgreater : c = '>'
        · rw [if_pos hgreater, hgreater]
          rfl
        · rw [if_neg hgreater]
          exact unescape_cons hamp rest

theorem unescape_of_not_mem {text : List Char} (h : '&' ∉ text) :
    unescape text = text := by
  induction text with
  | nil => rfl
  | cons c text ih =>
      rw [List.mem_cons, not_or] at h
      rw [unescape_cons (Ne.symm h.left), ih h.right]

theorem xmlAttrEscape_eq (value : Json) :
    xmlAttrEscape value = (strOf value).toList.flatMap entity := by
  unfold xmlAttrEscape
  dsimp only
  induction (strOf value).toList with
  | nil => rfl
  | cons c text ih =>
      rw [List.flatMap_cons, ← ih, replaceChar_cons, replaceChar_append,
        replaceChar_append, replaceChar_append]
      congr 1
      unfold entity
      by_cases hamp : c = '&'
      · rw [if_pos hamp, if_pos hamp]
        rfl
      · rw [if_neg hamp, if_neg hamp]
        by_cases hquote : c = '"'
        · rw [if_pos hquote, hquote]
          rfl
        · rw [if_neg hquote, replaceChar_single, if_neg hquote]
          by_cases hless : c = '<'
          · rw [if_pos hless, hless]
            rfl
          · rw [if_neg hless, replaceChar_single, if_neg hless,
              replaceChar_single]

theorem unescape_xmlAttrEscape (value : Json) :
    unescape (xmlAttrEscape value) = (strOf value).toList := by
  rw [xmlAttrEscape_eq]
  induction (strOf value).toList with
  | nil => rfl
  | cons c text ih =>
      rw [List.flatMap_cons, unescape_entity, ih]

theorem quote_not_mem_xmlAttrEscape (value : Json) :
    '"' ∉ xmlAttrEscape value := by
  rw [xmlAttrEscape_eq]
  intro h
  rcases List.mem_flatMap.mp h with ⟨c, _, hc⟩
  unfold entity at hc
  split at hc
  · revert hc
    decide
  · split at hc
    · revert hc
      decide
    · rename_i hquote
      split at hc
      · revert hc
        decide
      · split at hc
        · revert hc
          decide
        · exact hquote (List.mem_singleton.mp hc).symm

theorem readAttributes_value {value : List Char} (h : '"' ∉ value)
    (name before rest : List Char) :
    readAttributes name (some before) (value ++ '"' :: rest) =
      (name, unescape (before ++ value)) :: readAttributes [] none rest := by
  induction value generalizing before with
  | nil =>
      rw [List.nil_append, List.append_nil, readAttributes, if_pos rfl]
  | cons c value ih =>
      rw [List.mem_cons, not_or] at h
      rw [List.cons_append, readAttributes, if_neg (Ne.symm h.left),
        ih h.right, List.append_assoc, List.singleton_append]

/-- A name without a character that means something in a tag. -/
def IsName (name : List Char) : Prop :=
  forall c, c ∈ name -> c ∉ ['>', '"', ' ', '=']

instance (name : List Char) : Decidable (IsName name) :=
  List.decidableBAll (fun c => c ∉ ['>', '"', ' ', '=']) name

theorem readAttributes_name {name : List Char} (h : IsName name)
    (before rest : List Char) :
    readAttributes before none (name ++ rest) =
      readAttributes (before ++ name) none rest := by
  induction name generalizing before with
  | nil =>
      rw [List.nil_append, List.append_nil]
  | cons c name ih =>
      have hc := h c List.mem_cons_self
      rw [List.mem_cons, List.mem_cons, List.mem_cons, List.mem_singleton,
        not_or, not_or, not_or] at hc
      have hblank : ¬ (decide (c = ' ') || decide (c = '=')) = true := by
        rw [Bool.or_eq_true, not_or]
        constructor
        · intro hdec
          exact hc.right.right.left (of_decide_eq_true hdec)
        · intro hdec
          exact hc.right.right.right (of_decide_eq_true hdec)
      rw [List.cons_append, readAttributes, if_neg hc.left,
        if_neg hc.right.left, if_neg hblank,
        ih fun d hd => h d (List.mem_cons_of_mem c hd), List.append_assoc,
        List.singleton_append]

def attributeText (name value : List Char) : List Char :=
  ' ' :: (name ++ '=' :: '"' :: (value ++ ['"']))

theorem readAttributes_attr {name value : List Char} (hname : IsName name)
    (hvalue : '"' ∉ value) (rest : List Char) :
    readAttributes [] none (attributeText name value ++ rest) =
      (name, unescape value) :: readAttributes [] none rest := by
  have hshape : attributeText name value ++ rest =
      ' ' :: (name ++ '=' :: '"' :: (value ++ '"' :: rest)) := by
    unfold attributeText
    simp
  have hblank : readAttributes [] none
      (' ' :: (name ++ '=' :: '"' :: (value ++ '"' :: rest))) =
      readAttributes [] none (name ++ '=' :: '"' :: (value ++ '"' :: rest)) :=
    rfl
  have hequal : readAttributes name none
      ('=' :: '"' :: (value ++ '"' :: rest)) =
      readAttributes name (some []) (value ++ '"' :: rest) :=
    rfl
  rw [hshape, hblank, readAttributes_name hname, List.nil_append, hequal,
    readAttributes_value hvalue, List.nil_append]

theorem readAttributes_json {name : List Char} (hname : IsName name)
    (value : Json) (rest : List Char) :
    readAttributes [] none
        (attributeText name (xmlAttrEscape value) ++ rest) =
      (name, (strOf value).toList) :: readAttributes [] none rest := by
  rw [readAttributes_attr hname (quote_not_mem_xmlAttrEscape value),
    unescape_xmlAttrEscape]

theorem readAttributes_bare {name value : List Char} (hname : IsName name)
    (hquote : '"' ∉ value) (hamp : '&' ∉ value) (rest : List Char) :
    readAttributes [] none (attributeText name value ++ rest) =
      (name, value) :: readAttributes [] none rest := by
  rw [readAttributes_attr hname hquote, unescape_of_not_mem hamp]

/-- What the attributes of an envelope say. -/
def attributeTexts (host : ExpandHost) (evidence : Evidence) :
    List (List Char × List Char) :=
  [("source".toList, (strOf evidence.source).toList),
    ("agent".toList, (strOf evidence.agent).toList),
    ("status".toList, (strOf evidence.status).toList),
    ("privacy".toList, (strOf evidence.privacy).toList),
    ("score".toList, (host.format3 evidence.score).toList),
    ("instruction_like".toList,
      (if evidence.instruction_like then "true" else "false").toList)] ++
  (match normalizeAttributionLabel host evidence.attribution with
    | none => []
    | some label => [("attribution".toList, label.toList)]) ++
  [("visibility".toList, (strOf evidence.visibility).toList)]

/-- The attributes one after the other. -/
theorem evidenceAttributes_eq (host : ExpandHost) (evidence : Evidence) :
    evidenceAttributes host evidence =
      attributeText "source".toList (xmlAttrEscape evidence.source) ++
      (attributeText "agent".toList (xmlAttrEscape evidence.agent) ++
      (attributeText "status".toList (xmlAttrEscape evidence.status) ++
      (attributeText "privacy".toList (xmlAttrEscape evidence.privacy) ++
      (attributeText "score".toList (host.format3 evidence.score).toList ++
      (attributeText "instruction_like".toList
        (if evidence.instruction_like then "true" else "false").toList ++
      ((match normalizeAttributionLabel host evidence.attribution with
        | none => []
        | some label =>
            attributeText "attribution".toList
              (xmlAttrEscape (Json.str label))) ++
      attributeText "visibility".toList
        (xmlAttrEscape evidence.visibility))))))) := by
  unfold evidenceAttributes attributeText
  cases normalizeAttributionLabel host evidence.attribution with
  | none => simp
  | some label => simp

theorem attributesOf_enveloped (host : EnvelopeHost) (evidence : Evidence)
    (inner : List Char) :
    attributesOf (enveloped host.toExpandHost evidence inner) =
      attributeTexts host.toExpandHost evidence := by
  have hdrop : (enveloped host.toExpandHost evidence inner).drop
      openMark.length =
      evidenceAttributes host.toExpandHost evidence ++
        ('>' :: (inner ++ closeTag)) := by
    unfold enveloped openTag
    rw [List.append_assoc, List.append_assoc, List.append_assoc]
    exact List.drop_left
  have hbool : '"' ∉
      (if evidence.instruction_like then "true" else "false").toList ∧
      '&' ∉ (if evidence.instruction_like then "true" else "false").toList := by
    cases evidence.instruction_like
    · decide
    · decide
  have hscore := host.format3_bare evidence.score
  have hnames : forall name,
      name ∈ ["source", "agent", "status", "privacy", "score",
        "instruction_like", "attribution", "visibility"] ->
      IsName name.toList :=
    List.all_iff_forall_prop.mp (by decide)
  have hend : readAttributes [] none ('>' :: (inner ++ closeTag)) = [] :=
    rfl
  unfold attributesOf attributeTexts
  rw [hdrop, evidenceAttributes_eq, List.append_assoc, List.append_assoc,
    List.append_assoc, List.append_assoc, List.append_assoc,
    List.append_assoc, List.append_assoc,
    readAttributes_json (hnames "source" (by decide)),
    readAttributes_json (hnames "agent" (by decide)),
    readAttributes_json (hnames "status" (by decide)),
    readAttributes_json (hnames "privacy" (by decide)),
    readAttributes_bare (hnames "score" (by decide)) hscore.left hscore.right,
    readAttributes_bare (hnames "instruction_like" (by decide)) hbool.left
      hbool.right]
  cases normalizeAttributionLabel host.toExpandHost evidence.attribution with
  | none =>
      rw [List.nil_append,
        readAttributes_json (hnames "visibility" (by decide)), hend]
      rfl
  | some label =>
      dsimp only
      rw [readAttributes_json (hnames "attribution" (by decide)),
        readAttributes_json (hnames "visibility" (by decide)), hend]
      rfl

end Daemon
end Minni
