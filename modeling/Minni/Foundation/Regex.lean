import Mathlib.Data.List.Forall2
import Minni.Foundation.Scan

/-!
# Patterns with a backtracking match

Patterns over any symbols, with the order in which a backtracking matcher
tries their alternatives.  A test looks at one symbol before or behind a place
and takes nothing.
-/

namespace Minni
namespace Foundation

inductive Regex (α : Type) where
  | empty
  | one (holds : α -> Bool)
  | seq (first second : Regex α)
  | alt (first second : Regex α)
  | behind (expected : Bool) (holds : α -> Bool)
  | ahead (expected : Bool) (holds : α -> Bool)

namespace Regex

variable {α : Type}

/-- What lies before a place, nearest first, and what lies after it. -/
structure Place (α : Type) where
  before : List α
  after : List α

def ends : Regex α -> Place α -> List (Place α)
  | empty, place => [place]
  | one holds, place =>
      match place.after with
      | [] => []
      | a :: rest =>
          if holds a then [{ before := a :: place.before, after := rest }]
          else []
  | seq first second, place => (first.ends place).flatMap second.ends
  | alt first second, place => first.ends place ++ second.ends place
  | behind expected holds, place =>
      if place.before.head?.any holds = expected then [place] else []
  | ahead expected holds, place =>
      if place.after.head?.any holds = expected then [place] else []

/-- How much the preferred match at a place takes. -/
def hit (r : Regex α) (before after : List α) : Option Nat :=
  (r.ends { before := before, after := after }).head?.map fun stop =>
    after.length - stop.after.length

/-- The number of matches that a global search finds. -/
def countMatches (r : Regex α) (xs : List α) : Nat :=
  Scan.countHits r.hit [] 0 xs

def optional (r : Regex α) : Regex α :=
  alt r empty

/-- The symbols of a list, each met by its own test. -/
def word (test : α -> α -> Bool) : List α -> Regex α
  | [] => empty
  | a :: rest => seq (one (test a)) (word test rest)

/-!
## The ends of each kind of pattern
-/

theorem ends_empty (place : Place α) :
    (empty : Regex α).ends place = [place] :=
  rfl

theorem ends_one_cons (holds : α -> Bool) (before rest : List α) (a : α) :
    (one holds).ends ⟨before, a :: rest⟩ =
      if holds a then [⟨a :: before, rest⟩] else [] :=
  rfl

theorem ends_seq (first second : Regex α) (place : Place α) :
    (seq first second).ends place =
      (first.ends place).flatMap second.ends :=
  rfl

theorem ends_alt (first second : Regex α) (place : Place α) :
    (alt first second).ends place = first.ends place ++ second.ends place :=
  rfl

theorem ends_behind (expected : Bool) (holds : α -> Bool) (place : Place α) :
    (behind expected holds).ends place =
      if place.before.head?.any holds = expected then [place] else [] :=
  rfl

theorem ends_ahead (expected : Bool) (holds : α -> Bool) (place : Place α) :
    (ahead expected holds).ends place =
      if place.after.head?.any holds = expected then [place] else [] :=
  rfl

/-!
## What a match takes
-/

theorem hit_eq_none_iff {r : Regex α} {before after : List α} :
    r.hit before after = none <->
      r.ends { before := before, after := after } = [] := by
  rw [hit, Option.map_eq_none_iff, List.head?_eq_none_iff]

theorem exists_mem_ends_of_hit {r : Regex α} {before after : List α} {n : Nat}
    (h : r.hit before after = some n) :
    exists stop, stop ∈ r.ends { before := before, after := after } := by
  cases hends : r.ends { before := before, after := after } with
  | nil =>
      rw [hit_eq_none_iff.mpr hends] at h
      cases h
  | cons stop rest => exact ⟨stop, List.mem_cons_self⟩

theorem exists_hit_of_mem_ends {r : Regex α} {before after : List α}
    {stop : Place α}
    (h : stop ∈ r.ends { before := before, after := after }) :
    exists n, r.hit before after = some n := by
  cases hhit : r.hit before after with
  | none =>
      rw [hit_eq_none_iff.mp hhit] at h
      cases h
  | some n => exact ⟨n, rfl⟩

/-- A global search finds something exactly where some place has a match. -/
theorem countMatches_pos_iff {r : Regex α} {xs : List α} :
    0 < r.countMatches xs <->
      exists passed rest,
        xs = passed ++ rest ∧
          exists stop,
            stop ∈ r.ends { before := passed.reverse, after := rest } := by
  constructor
  · intro h
    rcases Scan.exists_hit_of_countHits_pos h with
      ⟨passed, rest, n, hsplit, hhit⟩
    rw [List.append_nil] at hhit
    exact ⟨passed, rest, hsplit, exists_mem_ends_of_hit hhit⟩
  · intro h
    rcases h with ⟨passed, rest, hsplit, stop, hstop⟩
    rcases exists_hit_of_mem_ends hstop with ⟨n, hn⟩
    unfold countMatches
    rw [hsplit]
    apply Scan.countHits_pos (n := n)
    rw [List.append_nil]
    exact hn

/-!
## Tests and words
-/

/-- A pattern that takes nothing, and matches where a test holds. -/
def Tests (r : Regex α) (holds : Place α -> Bool) : Prop :=
  forall place, exists times,
    r.ends place = List.replicate times place ∧
      (0 < times <-> holds place = true)

theorem tests_empty : Tests (empty : Regex α) fun _ => true := by
  intro place
  exact ⟨1, rfl, by simp⟩

theorem tests_of_ite {r : Regex α} {holds : Place α -> Bool}
    (h : forall place, r.ends place =
      if holds place = true then [place] else []) :
    Tests r holds := by
  intro place
  rw [h place]
  split
  · rename_i hholds
    exact ⟨1, rfl, by simp [hholds]⟩
  · rename_i hholds
    exact ⟨0, rfl, by simp [hholds]⟩

theorem tests_behind (expected : Bool) (p : α -> Bool) :
    Tests (behind expected p)
      fun place => place.before.head?.any p == expected := by
  apply tests_of_ite
  intro place
  rw [ends_behind]
  simp only [beq_iff_eq]

theorem tests_ahead (expected : Bool) (p : α -> Bool) :
    Tests (ahead expected p)
      fun place => place.after.head?.any p == expected := by
  apply tests_of_ite
  intro place
  rw [ends_ahead]
  simp only [beq_iff_eq]

theorem Tests.alt {r s : Regex α} {p q : Place α -> Bool} (hr : Tests r p)
    (hs : Tests s q) : Tests (alt r s) fun place => p place || q place := by
  intro place
  rcases hr place with ⟨m, hm, hp⟩
  rcases hs place with ⟨n, hn, hq⟩
  refine ⟨m + n, ?_, ?_⟩
  · rw [ends_alt, hm, hn, List.replicate_append_replicate]
  · rw [Bool.or_eq_true, ← hp, ← hq]
    exact Nat.add_pos_iff_pos_or_pos

theorem Tests.hit_seq {r s : Regex α} {holds : Place α -> Bool}
    (hr : Tests r holds) (before after : List α) :
    (seq r s).hit before after =
      if holds ⟨before, after⟩ = true then s.hit before after else none := by
  rcases hr ⟨before, after⟩ with ⟨times, htimes, hholds⟩
  unfold hit
  rw [ends_seq, htimes]
  cases times with
  | zero =>
      rw [if_neg fun h => absurd (hholds.mpr h) (Nat.lt_irrefl 0)]
      rfl
  | succ times =>
      rw [if_pos (hholds.mp (Nat.succ_pos _))]
      rw [List.replicate_succ, List.flatMap_cons]
      cases hends : s.ends ⟨before, after⟩ with
      | nil =>
          rw [List.nil_append, List.flatMap_eq_nil_iff.mpr]
          intro place hplace
          rw [List.eq_of_mem_replicate hplace, hends]
      | cons stop rest => rfl

theorem Tests.hit {r : Regex α} {holds : Place α -> Bool}
    (hr : Tests r holds) (before after : List α) :
    r.hit before after =
      if holds ⟨before, after⟩ = true then some 0 else none := by
  rcases hr ⟨before, after⟩ with ⟨times, htimes, hholds⟩
  unfold Regex.hit
  rw [htimes]
  cases times with
  | zero =>
      rw [if_neg fun h => absurd (hholds.mpr h) (Nat.lt_irrefl 0)]
      rfl
  | succ times =>
      rw [if_pos (hholds.mp (Nat.succ_pos _)), List.replicate_succ]
      change some (after.length - after.length) = some 0
      rw [Nat.sub_self]

/-- A word of symbols that are met by themselves. -/
theorem ends_word [DecidableEq α] (xs : List α) (place : Place α) :
    (word (fun a b => a == b) xs).ends place =
      if xs <+: place.after then
        [⟨xs.reverse ++ place.before, place.after.drop xs.length⟩]
      else [] := by
  induction xs generalizing place with
  | nil =>
      rw [if_pos (List.nil_prefix)]
      rfl
  | cons a rest ih =>
      rcases place with ⟨before, after⟩
      cases after with
      | nil =>
          rw [if_neg (by simp)]
          rfl
      | cons b after =>
          rw [word, ends_seq, ends_one_cons]
          by_cases hab : a = b
          · rw [if_pos (beq_iff_eq.mpr hab), List.flatMap_singleton, ih]
            simp only [List.cons_prefix_cons, hab, true_and,
              List.reverse_cons, List.append_assoc, List.cons_append,
              List.nil_append, List.length_cons, List.drop_succ_cons]
          · rw [if_neg (by simpa using hab), if_neg]
            · rfl
            · rw [List.cons_prefix_cons]
              exact fun h => hab h.left

/-- A pattern that takes only symbols of one kind. -/
def Takes (kind : α -> Prop) : Regex α -> Prop
  | empty => True
  | one holds => forall a, holds a = true -> kind a
  | seq first second => first.Takes kind ∧ second.Takes kind
  | alt first second => first.Takes kind ∧ second.Takes kind
  | behind _ _ => True
  | ahead _ _ => True

theorem Takes.word {kind : α -> Prop} {test : α -> α -> Bool} {xs : List α}
    (h : forall a, a ∈ xs -> forall b, test a b = true -> kind b) :
    (word test xs).Takes kind := by
  induction xs with
  | nil => exact True.intro
  | cons a rest ih =>
      exact ⟨h a List.mem_cons_self,
        ih fun b hb => h b (List.mem_cons_of_mem _ hb)⟩

theorem takes_any (r : Regex α) : r.Takes fun _ => True := by
  induction r with
  | empty => exact True.intro
  | one holds => exact fun _ _ => True.intro
  | seq first second ihfirst ihsecond => exact ⟨ihfirst, ihsecond⟩
  | alt first second ihfirst ihsecond => exact ⟨ihfirst, ihsecond⟩
  | behind expected holds => exact True.intro
  | ahead expected holds => exact True.intro

/-- A match only moves symbols from behind its place to before it. -/
def Moves (kind : α -> Prop) (place target : Place α) : Prop :=
  exists taken,
    place.after = taken ++ target.after ∧
      target.before = taken.reverse ++ place.before ∧
      forall a, a ∈ taken -> kind a

theorem moves_refl (kind : α -> Prop) (place : Place α) :
    Moves kind place place :=
  ⟨[], rfl, rfl, fun _ ha => absurd ha List.not_mem_nil⟩

theorem moves_of_mem_ends {kind : α -> Prop} {r : Regex α}
    (hr : r.Takes kind) {place target : Place α} (h : target ∈ r.ends place) :
    Moves kind place target := by
  induction r generalizing place target with
  | empty =>
      rw [ends_empty, List.mem_singleton] at h
      rw [h]
      exact moves_refl kind place
  | one holds =>
      rcases place with ⟨before, after⟩
      cases after with
      | nil => cases h
      | cons a rest =>
          rw [ends_one_cons] at h
          split at h
          · rename_i hholds
            rw [List.mem_singleton.mp h]
            refine ⟨[a], rfl, rfl, ?_⟩
            intro b hb
            rw [List.mem_singleton.mp hb]
            exact hr a hholds
          · cases h
  | seq first second ihfirst ihsecond =>
      rw [ends_seq, List.mem_flatMap] at h
      rcases h with ⟨middle, hmiddle, htarget⟩
      rcases ihfirst hr.left hmiddle with ⟨taken, hafter, hbefore, htaken⟩
      rcases ihsecond hr.right htarget with ⟨more, hmore, hahead, hkind⟩
      refine ⟨taken ++ more, ?_, ?_, ?_⟩
      · rw [hafter, hmore, List.append_assoc]
      · rw [hahead, hbefore, List.reverse_append, List.append_assoc]
      · intro a ha
        rcases List.mem_append.mp ha with hfirst | hsecond
        · exact htaken a hfirst
        · exact hkind a hsecond
  | alt first second ihfirst ihsecond =>
      rw [ends_alt, List.mem_append] at h
      rcases h with hfirst | hsecond
      · exact ihfirst hr.left hfirst
      · exact ihsecond hr.right hsecond
  | behind expected holds =>
      rw [ends_behind] at h
      split at h
      · rw [List.mem_singleton.mp h]
        exact moves_refl kind place
      · cases h
  | ahead expected holds =>
      rw [ends_ahead] at h
      split at h
      · rw [List.mem_singleton.mp h]
        exact moves_refl kind place
      · cases h

theorem take_of_hit {kind : α -> Prop} {r : Regex α} (hr : r.Takes kind)
    {before after : List α} {n : Nat} (h : r.hit before after = some n) :
    n ≤ after.length ∧ forall a, a ∈ after.take n -> kind a := by
  cases hends : r.ends { before := before, after := after } with
  | nil =>
      rw [hit_eq_none_iff.mpr hends] at h
      cases h
  | cons stop rest =>
      have hstop : stop ∈ r.ends { before := before, after := after } := by
        rw [hends]
        exact List.mem_cons_self
      rcases moves_of_mem_ends hr hstop with ⟨taken, hafter, _, htaken⟩
      change after = taken ++ stop.after at hafter
      rw [hit, hends] at h
      injection h with h
      have hn : n = taken.length := by
        rw [← h]
        change after.length - stop.after.length = taken.length
        rw [hafter, List.length_append, Nat.add_sub_cancel]
      constructor
      · rw [hn, hafter, List.length_append]
        exact Nat.le_add_right _ _
      · rw [hn, hafter, List.take_left]
        exact htaken

/-- A match that begins with a word takes the word and what follows it. -/
theorem hit_word_seq [DecidableEq α] (xs : List α) (r : Regex α)
    (before after : List α) :
    (seq (word (fun a b => a == b) xs) r).hit before after =
      if xs <+: after then
        (r.hit (xs.reverse ++ before) (after.drop xs.length)).map
          fun n => xs.length + n
      else none := by
  unfold hit
  rw [ends_seq, ends_word]
  by_cases hprefixed : xs <+: after
  · rw [if_pos hprefixed, if_pos hprefixed, List.flatMap_singleton]
    have hlength : xs.length ≤ after.length := hprefixed.length_le
    cases hends : r.ends ⟨xs.reverse ++ before, after.drop xs.length⟩ with
    | nil => rfl
    | cons stop rest =>
        have hstop : stop ∈
            r.ends ⟨xs.reverse ++ before, after.drop xs.length⟩ := by
          rw [hends]
          exact List.mem_cons_self
        rcases moves_of_mem_ends (takes_any r) hstop with ⟨taken, hafter, _⟩
        change after.drop xs.length = taken ++ stop.after at hafter
        have hshorter : stop.after.length ≤ after.length - xs.length := by
          rw [← List.length_drop, hafter, List.length_append]
          exact Nat.le_add_left _ _
        change some (after.length - stop.after.length) =
          some (xs.length +
            ((after.drop xs.length).length - stop.after.length))
        rw [List.length_drop, ← Nat.add_sub_assoc hshorter,
          Nat.add_sub_cancel' hlength]
  · rw [if_neg hprefixed, if_neg hprefixed]
    rfl

/-- The first of two patterns that matches is the preferred one. -/
theorem hit_seq_alt (r s t : Regex α) (before after : List α) :
    (seq (alt r s) t).hit before after =
      ((seq r t).hit before after).or ((seq s t).hit before after) := by
  unfold hit
  rw [ends_seq, ends_alt, ends_seq, ends_seq, List.flatMap_append,
    List.head?_append, Option.map_or]

/-!
## More text behind a match

A symbol that no look-ahead asks for ends a text as its end does.
-/

def StopsAt (stop : α) : Regex α -> Prop
  | empty => True
  | one _ => True
  | seq first second => first.StopsAt stop ∧ second.StopsAt stop
  | alt first second => first.StopsAt stop ∧ second.StopsAt stop
  | behind _ _ => True
  | ahead _ holds => holds stop = false

namespace Place

def extend (place : Place α) (more : List α) : Place α :=
  { place with after := place.after ++ more }

end Place

theorem extend_mem_ends {r : Regex α} {stop : α} (hstop : r.StopsAt stop)
    {place target : Place α} (more : List α) (h : target ∈ r.ends place) :
    target.extend (stop :: more) ∈ r.ends (place.extend (stop :: more)) := by
  induction r generalizing place target with
  | empty =>
      rw [ends_empty, List.mem_singleton] at h ⊢
      rw [h]
  | one holds =>
      rcases place with ⟨before, after⟩
      cases after with
      | nil => cases h
      | cons a rest =>
          rw [ends_one_cons] at h
          change _ ∈ (one holds).ends ⟨before, a :: (rest ++ stop :: more)⟩
          rw [ends_one_cons]
          split at h
          · rename_i hholds
            rw [if_pos hholds, List.mem_singleton]
            rw [List.mem_singleton.mp h]
            rfl
          · cases h
  | seq first second ihfirst ihsecond =>
      rw [ends_seq, List.mem_flatMap] at h ⊢
      rcases h with ⟨middle, hmiddle, htarget⟩
      exact ⟨middle.extend (stop :: more), ihfirst hstop.left hmiddle,
        ihsecond hstop.right htarget⟩
  | alt first second ihfirst ihsecond =>
      rw [ends_alt, List.mem_append] at h ⊢
      rcases h with hfirst | hsecond
      · exact Or.inl (ihfirst hstop.left hfirst)
      · exact Or.inr (ihsecond hstop.right hsecond)
  | behind expected holds =>
      rw [ends_behind] at h ⊢
      change _ ∈ (if place.before.head?.any holds = expected then _ else _)
      split at h
      · rename_i hexpected
        rw [if_pos hexpected, List.mem_singleton]
        rw [List.mem_singleton.mp h]
      · cases h
  | ahead expected holds =>
      have hsame : (place.extend (stop :: more)).after.head?.any holds =
          place.after.head?.any holds := by
        rcases place with ⟨before, after⟩
        cases after with
        | nil => exact hstop
        | cons a rest => rfl
      rw [ends_ahead] at h ⊢
      rw [hsame]
      split at h
      · rename_i hexpected
        rw [if_pos hexpected, List.mem_singleton]
        rw [List.mem_singleton.mp h]
      · cases h

/-- What matches in a text also matches in the text before a stop. -/
theorem countMatches_pos_append {r : Regex α} {stop : α}
    (hstop : r.StopsAt stop) {xs : List α} (more : List α)
    (h : 0 < r.countMatches xs) :
    0 < r.countMatches (xs ++ stop :: more) := by
  rcases countMatches_pos_iff.mp h with ⟨passed, rest, hsplit, target, htarget⟩
  apply countMatches_pos_iff.mpr
  refine ⟨passed, rest ++ stop :: more, ?_, target.extend (stop :: more), ?_⟩
  · rw [hsplit, List.append_assoc]
  · exact extend_mem_ends hstop more htarget

/-!
## Symbols that no test tells apart
-/

def Respects (same : α -> α -> Prop) : Regex α -> Prop
  | empty => True
  | one holds => forall a b, same a b -> holds a = holds b
  | seq first second => first.Respects same ∧ second.Respects same
  | alt first second => first.Respects same ∧ second.Respects same
  | behind _ holds => forall a b, same a b -> holds a = holds b
  | ahead _ holds => forall a b, same a b -> holds a = holds b

theorem Respects.word {same : α -> α -> Prop} {test : α -> α -> Bool}
    (h : forall c a b, same a b -> test c a = test c b) (xs : List α) :
    (word test xs).Respects same := by
  induction xs with
  | nil => exact True.intro
  | cons c rest ih => exact ⟨h c, ih⟩

namespace Place

structure Alike (same : α -> α -> Prop) (place other : Place α) : Prop where
  before : List.Forall₂ same place.before other.before
  after : List.Forall₂ same place.after other.after

end Place

theorem any_head_alike {same : α -> α -> Prop} {p : α -> Bool}
    (h : forall a b, same a b -> p a = p b) {xs ys : List α}
    (hsame : List.Forall₂ same xs ys) : xs.head?.any p = ys.head?.any p := by
  cases hsame with
  | nil => rfl
  | cons hhead _ => exact h _ _ hhead

theorem Respects.ends {same : α -> α -> Prop} {r : Regex α}
    (hr : r.Respects same) {place other : Place α}
    (h : place.Alike same other) :
    List.Forall₂ (Place.Alike same) (r.ends place) (r.ends other) := by
  induction r generalizing place other with
  | empty => exact List.Forall₂.cons h List.Forall₂.nil
  | one holds =>
      rcases place with ⟨before, after⟩
      rcases other with ⟨before', after'⟩
      have hbefore : List.Forall₂ same before before' := h.before
      have hafter : List.Forall₂ same after after' := h.after
      cases hafter with
      | nil => exact List.Forall₂.nil
      | cons hhead htail =>
          rename_i a b rest rest'
          rw [ends_one_cons, ends_one_cons, hr a b hhead]
          split
          · exact List.Forall₂.cons
              ⟨List.Forall₂.cons hhead hbefore, htail⟩ List.Forall₂.nil
          · exact List.Forall₂.nil
  | seq first second ihfirst ihsecond =>
      rw [ends_seq, ends_seq]
      exact List.rel_flatMap (ihfirst hr.left h)
        fun _ _ hmiddle => ihsecond hr.right hmiddle
  | alt first second ihfirst ihsecond =>
      rw [ends_alt, ends_alt]
      exact List.rel_append (ihfirst hr.left h) (ihsecond hr.right h)
  | behind expected holds =>
      rw [ends_behind, ends_behind, any_head_alike hr h.before]
      split
      · exact List.Forall₂.cons h List.Forall₂.nil
      · exact List.Forall₂.nil
  | ahead expected holds =>
      rw [ends_ahead, ends_ahead, any_head_alike hr h.after]
      split
      · exact List.Forall₂.cons h List.Forall₂.nil
      · exact List.Forall₂.nil

/-- A pattern matches at places that no test tells apart alike. -/
theorem Respects.hit_isSome {same : α -> α -> Prop} {r : Regex α}
    (hr : r.Respects same) {before before' after after' : List α}
    (hbefore : List.Forall₂ same before before')
    (hafter : List.Forall₂ same after after') :
    (r.hit before after).isSome = (r.hit before' after').isSome := by
  have halike : Place.Alike same ⟨before, after⟩ ⟨before', after'⟩ :=
    ⟨hbefore, hafter⟩
  have hends := hr.ends halike
  unfold hit
  rw [Option.isSome_map, Option.isSome_map]
  generalize r.ends ⟨before, after⟩ = stops at hends ⊢
  generalize r.ends ⟨before', after'⟩ = stops' at hends ⊢
  cases hends with
  | nil => rfl
  | cons _ _ => rfl

end Regex
end Foundation
end Minni
