import Mathlib.Data.List.Nodup
import Mathlib.Data.List.Perm.Subperm
import Minni.Vault.TermTrie

/-!
# The failure links of the trie

States are linked in the order of their depth.  A state that is linked has a
transition for every code of ASCII, to the longest suffix that is a state, and
names the longest pattern that ends at it.
-/

namespace Minni
namespace Vault

open Foundation

/-!
## The transitions of one state
-/

/-- What becomes of an automaton when the transitions of `u` by the codes `cs`
are linked. -/
structure CharsLinked (u : Nat) (target : Nat -> Nat) (a : Automaton)
    (cs : List Nat) (b : Automaton) : Prop where
  firstMatch : b.firstMatch = a.firstMatch
  nextMatch : b.nextMatch = a.nextMatch
  elsewhere : forall {s}, s ≠ u -> b.goto s = a.goto s
  linked : forall {c}, c ∈ cs ->
    b.goto u c = some ((a.goto u c).getD (target c))
  waiting : forall {c}, c ∉ cs -> b.goto u c = a.goto u c
  queue : b.bfsQueue = a.bfsQueue ++ cs.filterMap (a.goto u)
  kept : forall {v}, (forall c, c ∈ cs -> a.goto u c ≠ some v) ->
    b.failLink v = a.failLink v
  link : forall {c v}, c ∈ cs -> a.goto u c = some v ->
    (forall d, a.goto u d = some v -> d = c) -> b.failLink v = target c

/-- A target that does not look at the transitions of `u`. -/
def Stable (u : Nat) (target : Automaton -> Nat -> Nat) : Prop :=
  forall a b, (forall s, s ≠ u -> b.goto s = a.goto s) -> target b = target a

theorem charsLinked_fold {u : Nat} {target : Automaton -> Nat -> Nat}
    (hstable : Stable u target) (a : Automaton) {cs : List Nat}
    (hnodup : cs.Nodup) :
    CharsLinked u (target a) a cs (cs.foldl (linkChar u target) a) := by
  induction cs using List.reverseRecOn with
  | nil =>
      exact {
        firstMatch := rfl
        nextMatch := rfl
        elsewhere := fun _ => rfl
        linked := fun hc => absurd hc List.not_mem_nil
        waiting := fun _ => rfl
        queue := (List.append_nil _).symm
        kept := fun _ => rfl
        link := fun hc => absurd hc List.not_mem_nil }
  | append_singleton cs c ih =>
      rcases List.nodup_append.mp hnodup with ⟨hbefore, _, hdisjoint⟩
      have hfresh : c ∉ cs :=
        fun hc => hdisjoint c hc c (List.mem_singleton_self c) rfl
      have h := ih hbefore
      rw [List.foldl_append]
      generalize cs.foldl (linkChar u target) a = b at h
      change CharsLinked u (target a) a (cs ++ [c]) (linkChar u target b c)
      have hgoto : b.goto u c = a.goto u c := h.waiting hfresh
      have htarget : target b c = target a c := by
        rw [hstable a b fun s hs => h.elsewhere hs]
      have hcases : forall {d}, d ∈ cs ++ [c] -> d ∈ cs ∨ d = c := by
        intro d hd
        rcases List.mem_append.mp hd with hearlier | hlast
        · exact Or.inl hearlier
        · exact Or.inr (List.mem_singleton.mp hlast)
      unfold linkChar
      cases hnext : a.goto u c with
      | some next =>
          rw [hgoto, hnext]
          dsimp only
          constructor
          · exact h.firstMatch
          · exact h.nextMatch
          · exact h.elsewhere
          · intro d hd
            rcases hcases hd with hearlier | hlast
            · exact h.linked hearlier
            · rw [hlast]
              change b.goto u c = _
              rw [hgoto, hnext]
              rfl
          · intro d hd
            exact h.waiting fun hearlier =>
              hd (List.mem_append_left _ hearlier)
          · rw [h.queue, List.filterMap_append, List.append_assoc]
            simp [hnext]
          · intro v hv
            have hne : v ≠ next := by
              intro heq
              apply hv c (List.mem_append_right _ (List.mem_singleton_self c))
              rw [hnext, heq]
            dsimp only
            rw [Function.update_of_ne hne]
            exact h.kept fun d hd => hv d (List.mem_append_left _ hd)
          · intro d v hd hv honly
            rcases hcases hd with hearlier | hlast
            · have hne : v ≠ next := by
                intro heq
                apply hfresh
                rw [honly c (by rw [hnext, heq])]
                exact hearlier
              dsimp only
              rw [Function.update_of_ne hne]
              exact h.link hearlier hv honly
            · rw [hlast, hnext] at hv
              injection hv with hv
              dsimp only
              rw [← hv, Function.update_self, hlast]
              exact htarget
      | none =>
          rw [hgoto, hnext]
          dsimp only
          constructor
          · exact h.firstMatch
          · exact h.nextMatch
          · intro s hs
            dsimp only
            rw [Function.update_of_ne hs]
            exact h.elsewhere hs
          · intro d hd
            dsimp only
            rw [Function.update_self]
            by_cases hdc : d = c
            · rw [hdc, Function.update_self, hnext, htarget]
              rfl
            · rw [Function.update_of_ne hdc]
              rcases hcases hd with hearlier | hlast
              · exact h.linked hearlier
              · exact absurd hlast hdc
          · intro d hd
            have hdc : d ≠ c := by
              intro heq
              apply hd
              rw [heq]
              exact List.mem_append_right _ (List.mem_singleton_self c)
            dsimp only
            rw [Function.update_self, Function.update_of_ne hdc]
            exact h.waiting fun hearlier =>
              hd (List.mem_append_left _ hearlier)
          · rw [h.queue, List.filterMap_append]
            simp [hnext]
          · intro v hv
            exact h.kept fun d hd => hv d (List.mem_append_left _ hd)
          · intro d v hd hv honly
            rcases hcases hd with hearlier | hlast
            · exact h.link hearlier hv honly
            · rw [hlast, hnext] at hv
              cases hv

/-!
## The patterns that end at a word
-/

/-- The longest pattern that ends a word, or that none does. -/
structure EndsAt (patterns : List (List Nat)) (w : List Nat)
    (found : Option Nat) : Prop where
  some : forall {m}, found = some m -> exists p,
    patterns[m]? = some p ∧ LongestSuffix (fun q => q ∈ patterns) w p
  none : found = none -> forall p, p ∈ patterns -> ¬ p <:+ w

namespace EndsAt

variable {patterns : List (List Nat)} {w : List Nat} {found : Option Nat}

theorem self {m : Nat} (h : patterns[m]? = Option.some w) :
    EndsAt patterns w (Option.some m) where
  some := by
    intro n hn
    injection hn with hn
    rw [← hn]
    exact ⟨w, h, LongestSuffix.self (List.mem_of_getElem? h)⟩
  none := fun hn => by cases hn

/-- Patterns that are known end a word as they end its longest suffix. -/
theorem of_longest {known : List Nat -> Prop} {suffix : List Nat}
    (hknown : forall p, p ∈ patterns -> known p)
    (hsuffix : LongestSuffix known w suffix)
    (h : EndsAt patterns suffix found) : EndsAt patterns w found where
  some := by
    intro m hm
    rcases h.some hm with ⟨p, hp, hlongest⟩
    refine ⟨p, hp, ?_⟩
    constructor
    · exact List.IsSuffix.trans hlongest.isSuffix hsuffix.isSuffix
    · exact hlongest.isKnown
    · intro other hother hpattern
      exact hlongest.longest other
        (hsuffix.longest other hother (hknown other hpattern)) hpattern
  none := by
    intro hnone p hp hends
    exact h.none hnone p hp (hsuffix.longest p hends (hknown p hp))

/-- A word that is no pattern ends as its tail does. -/
theorem cons {c : Nat} (h : EndsAt patterns w found)
    (hpattern : c :: w ∉ patterns) : EndsAt patterns (c :: w) found where
  some := by
    intro m hm
    rcases h.some hm with ⟨p, hp, hlongest⟩
    exact ⟨p, hp, hlongest.cons_of_unknown hpattern⟩
  none := by
    intro hnone p hp hends
    rcases List.suffix_cons_iff.mp hends with hwhole | hshorter
    · rw [hwhole] at hp
      exact hpattern hp
    · exact h.none hnone p hp hshorter

end EndsAt

/-!
## What holds while states are linked
-/

section

variable (t : Trie) (word : Nat -> List Nat) (patterns : List (List Nat))

/-- The words of the trie. -/
def Known (w : List Nat) : Prop :=
  exists s, s < t.numStates ∧ word s = w

structure Linked (done : List Nat) (a : Automaton) : Prop where
  root : 0 ∈ done
  done_nodup : done.Nodup
  done_lt : forall {u}, u ∈ done -> u < t.numStates
  queue_nodup : a.bfsQueue.Nodup
  queue_new : forall {v}, v ∈ a.bfsQueue -> v < t.numStates ∧ v ∉ done
  queue_sorted : a.bfsQueue.Pairwise fun u v =>
    (word u).length ≤ (word v).length
  queue_near : forall {u v}, u ∈ a.bfsQueue -> v ∈ a.bfsQueue ->
    (word v).length ≤ (word u).length + 1
  closed : forall {u c v}, u ∈ done -> t.goto u c = some v ->
    v ∈ done ∨ v ∈ a.bfsQueue
  parent : forall {u c v}, t.goto u c = some v ->
    v ∈ done ∨ v ∈ a.bfsQueue -> u ∈ done
  goto_done : forall {u c}, u ∈ done -> c < 128 -> exists v,
    a.goto u c = some v ∧ v < t.numStates ∧
      LongestSuffix (Known t word) (word u ++ [c]) (word v)
  goto_raw : forall {u}, u ∉ done -> a.goto u = t.goto u
  fail : forall {v}, v ∈ done ∨ v ∈ a.bfsQueue -> v ≠ 0 ->
    a.failLink v < t.numStates ∧
      LongestSuffix (Known t word) (word v).tail (word (a.failLink v))
  first_done : forall {u}, u ∈ done ->
    EndsAt patterns (word u) (a.firstMatch u)
  first_raw : forall {u}, u ∉ done -> a.firstMatch u = t.firstMatch u
  next_done : forall {u m}, u ∈ done -> patterns[m]? = some (word u) ->
    EndsAt patterns (word u).tail (a.nextMatch m)
  next_raw : forall {u m}, u < t.numStates -> u ∉ done ->
    patterns[m]? = some (word u) -> a.nextMatch m = none

end

/-!
## Linking the next state
-/

theorem linkMatch_goto (u f : Nat) (b : Automaton) :
    (linkMatch u f b).goto = b.goto ∧
      (linkMatch u f b).failLink = b.failLink ∧
      (linkMatch u f b).bfsQueue = b.bfsQueue := by
  unfold linkMatch
  split
  · exact ⟨rfl, rfl, rfl⟩
  · split
    · exact ⟨rfl, rfl, rfl⟩
    · exact ⟨rfl, rfl, rfl⟩

section

variable {t : Trie} {word : Nat -> List Nat} {patterns : List (List Nat)}
  (hgrown : Grown t word) (hmarked : Marked t word patterns)
  (hpatterns : patterns.Nodup) {done : List Nat} {a : Automaton}

include hgrown

theorem word_ne_nil {u : Nat} (hu : u < t.numStates) (hne : u ≠ 0) :
    word u ≠ [] := by
  intro hnil
  exact hne (hgrown.inj hu hgrown.pos (hnil.trans hgrown.root.symm))

/-- States that are less deep than the next one are linked. -/
theorem done_of_shallow (h : Linked t word patterns done a) {u : Nat}
    {rest : List Nat} (hqueue : a.bfsQueue = u :: rest) {v : Nat}
    (hv : v < t.numStates)
    (hshallow : (word v).length < (word u).length) : v ∈ done := by
  induction hlength : (word v).length generalizing v with
  | zero =>
      have hzero : v = 0 := by
        apply hgrown.inj hv hgrown.pos
        rw [hgrown.root, List.length_eq_zero_iff.mp hlength]
      rw [hzero]
      exact h.root
  | succ depth ih =>
      have hne : v ≠ 0 := by
        intro hzero
        rw [hzero, hgrown.root] at hlength
        cases hlength
      rcases hgrown.parent hv hne with ⟨s, c, hs, hparent⟩
      have hdepth : (word s).length = depth := by
        rw [hparent, List.length_append, List.length_singleton] at hlength
        exact Nat.succ_inj.mp hlength
      have hsdone : s ∈ done := by
        apply ih hs _ hdepth
        rw [hdepth]
        rw [hlength] at hshallow
        exact Nat.lt_of_succ_lt hshallow
      rcases h.closed hsdone (hgrown.back hs hv hparent) with hdone | hwaits
      · exact hdone
      · rw [hqueue] at hwaits
        rcases List.mem_cons.mp hwaits with hhead | hlater
        · rw [hhead] at hshallow
          exact absurd hshallow (Nat.lt_irrefl _)
        · have hsorted := h.queue_sorted
          rw [hqueue] at hsorted
          exact absurd hshallow
            (Nat.not_lt.mpr (List.rel_of_pairwise_cons hsorted hlater))

theorem fail_facts (h : Linked t word patterns done a) {u : Nat}
    {rest : List Nat} (hqueue : a.bfsQueue = u :: rest) :
    u < t.numStates ∧ u ∉ done ∧ u ≠ 0 ∧ a.failLink u ∈ done ∧
      LongestSuffix (Known t word) (word u).tail (word (a.failLink u)) := by
  have hmem : u ∈ a.bfsQueue := by
    rw [hqueue]
    exact List.mem_cons_self
  rcases h.queue_new hmem with ⟨hlt, hnew⟩
  have hne : u ≠ 0 := fun hzero => hnew (by rw [hzero]; exact h.root)
  rcases h.fail (Or.inr hmem) hne with ⟨hfail, hlongest⟩
  refine ⟨hlt, hnew, hne, ?_, hlongest⟩
  apply done_of_shallow hgrown h hqueue hfail
  have hshort := hlongest.isSuffix.length_le
  rw [List.length_tail] at hshort
  have hpos := List.length_pos_iff.mpr (word_ne_nil hgrown hlt hne)
  omega

/-- When nothing waits, every state is linked. -/
theorem done_of_empty (h : Linked t word patterns done a)
    (hempty : a.bfsQueue = []) {v : Nat} (hv : v < t.numStates) :
    v ∈ done := by
  induction hlength : (word v).length generalizing v with
  | zero =>
      have hzero : v = 0 := by
        apply hgrown.inj hv hgrown.pos
        rw [hgrown.root, List.length_eq_zero_iff.mp hlength]
      rw [hzero]
      exact h.root
  | succ depth ih =>
      have hne : v ≠ 0 := by
        intro hzero
        rw [hzero, hgrown.root] at hlength
        cases hlength
      rcases hgrown.parent hv hne with ⟨s, c, hs, hparent⟩
      have hdepth : (word s).length = depth := by
        rw [hparent, List.length_append, List.length_singleton] at hlength
        exact Nat.succ_inj.mp hlength
      rcases h.closed (ih hs hdepth) (hgrown.back hs hv hparent) with
        hdone | hwaits
      · exact hdone
      · rw [hempty] at hwaits
        cases hwaits

include hmarked

/-- After the root was linked, its children wait. -/
theorem linkRoot_linked (hnonempty : [] ∉ patterns) :
    Linked t word patterns [0] (linkRoot (startAutomaton t)) := by
  have hchars := @charsLinked_fold 0 (fun _ _ => 0)
    (fun _ _ _ => rfl) (startAutomaton t) _ (List.nodup_range (n := 128))
  change CharsLinked 0 _ _ _ (linkRoot (startAutomaton t)) at hchars
  generalize linkRoot (startAutomaton t) = b at hchars
  have hchild : forall {c v}, t.goto 0 c = some v ->
      c ∈ List.range 128 ∧ v < t.numStates ∧ word v = [c] ∧ v ≠ 0 := by
    intro c v hv
    rcases hgrown.child hv with ⟨_, hvlt, hvword⟩
    rw [hgrown.root, List.nil_append] at hvword
    have hc : c < 128 := by
      apply hgrown.ascii hvlt
      rw [hvword]
      exact List.mem_singleton_self c
    refine ⟨List.mem_range.mpr hc, hvlt, hvword, ?_⟩
    intro hzero
    rw [hzero, hgrown.root] at hvword
    cases hvword
  have honly : forall {c v}, t.goto 0 c = some v ->
      forall d, t.goto 0 d = some v -> d = c := by
    intro c v hv d hd
    have hwords :=
      (hchild hv).right.right.left.symm.trans (hchild hd).right.right.left
    injection hwords with hcd
    exact hcd.symm
  have hqueue : b.bfsQueue = (List.range 128).filterMap (t.goto 0) := by
    rw [hchars.queue]
    rfl
  have hmem : forall {v}, v ∈ b.bfsQueue <-> exists c, t.goto 0 c = some v := by
    intro v
    rw [hqueue, List.mem_filterMap]
    constructor
    · intro hv
      rcases hv with ⟨c, _, hc⟩
      exact ⟨c, hc⟩
    · intro hv
      rcases hv with ⟨c, hc⟩
      exact ⟨c, (hchild hc).left, hc⟩
  have hdepth : forall {v}, v ∈ b.bfsQueue -> (word v).length = 1 := by
    intro v hv
    rcases hmem.mp hv with ⟨c, hc⟩
    rw [(hchild hc).right.right.left]
    rfl
  have hmark : forall m : Nat, patterns[m]? ≠ some (word 0) := by
    intro m hm
    rw [hgrown.root] at hm
    exact hnonempty (List.mem_of_getElem? hm)
  constructor
  case root => exact List.mem_singleton_self 0
  case done_nodup => exact List.nodup_singleton 0
  case done_lt =>
      intro u hu
      rw [List.mem_singleton.mp hu]
      exact hgrown.pos
  case queue_nodup =>
      rw [hqueue]
      apply List.Nodup.filterMap _ List.nodup_range
      intro c d v hc hd
      exact honly hd c hc
  case queue_new =>
      intro v hv
      rcases hmem.mp hv with ⟨c, hc⟩
      refine ⟨(hchild hc).right.left, ?_⟩
      intro hbad
      exact (hchild hc).right.right.right (List.mem_singleton.mp hbad)
  case queue_sorted =>
      apply List.pairwise_of_forall_mem_list
      intro v hv w hw
      rw [hdepth hv, hdepth hw]
  case queue_near =>
      intro v w hv hw
      rw [hdepth hv, hdepth hw]
      exact Nat.le_succ 1
  case closed =>
      intro u c v hu hv
      rw [List.mem_singleton.mp hu] at hv
      exact Or.inr (hmem.mpr ⟨c, hv⟩)
  case parent =>
      intro u c v hgo hv
      rcases hgrown.child hgo with ⟨hu, _, hword⟩
      have hroot : word u = [] := by
        rcases hv with hdone | hwaits
        · rw [List.mem_singleton.mp hdone, hgrown.root] at hword
          simp at hword
        · have hlength := hdepth hwaits
          rw [hword, List.length_append, List.length_singleton] at hlength
          exact List.length_eq_zero_iff.mp (Nat.succ_inj.mp hlength)
      rw [hgrown.inj hu hgrown.pos (hroot.trans hgrown.root.symm)]
      exact List.mem_singleton_self 0
  case goto_done =>
      intro u c hu hc
      rw [List.mem_singleton.mp hu, hgrown.root]
      have hlinked := hchars.linked (List.mem_range.mpr hc)
      change b.goto 0 c = some ((t.goto 0 c).getD 0) at hlinked
      cases hgo : t.goto 0 c with
      | some w =>
          rw [hgo] at hlinked
          refine ⟨w, hlinked, (hchild hgo).right.left, ?_⟩
          rw [(hchild hgo).right.right.left]
          exact LongestSuffix.self
            ⟨w, (hchild hgo).right.left, (hchild hgo).right.right.left⟩
      | none =>
          rw [hgo] at hlinked
          refine ⟨0, hlinked, hgrown.pos, ?_⟩
          rw [hgrown.root]
          apply (LongestSuffix.of_nil hgrown.prefixClosed).cons_of_unknown
          intro hknown
          rcases hknown with ⟨x, hx, hxword⟩
          have hback := hgrown.back hgrown.pos hx (c := c) (by
            rw [hxword, hgrown.root]
            rfl)
          rw [hgo] at hback
          cases hback
  case goto_raw =>
      intro u hu
      rw [hchars.elsewhere fun hzero => hu (List.mem_singleton.mpr hzero)]
      rfl
  case fail =>
      intro v hv hvne
      rcases hv with hdone | hwaits
      · exact absurd (List.mem_singleton.mp hdone) hvne
      · rcases hmem.mp hwaits with ⟨c, hc⟩
        have hlink : b.failLink v = 0 :=
          hchars.link (hchild hc).left hc (honly hc)
        rw [hlink, (hchild hc).right.right.left, hgrown.root]
        exact ⟨hgrown.pos, LongestSuffix.of_nil hgrown.prefixClosed⟩
  case first_done =>
      intro u hu
      rw [hchars.firstMatch, List.mem_singleton.mp hu, hgrown.root]
      change EndsAt patterns [] (t.firstMatch 0)
      constructor
      · intro m hm
        exact absurd (hmarked.marks.mp hm).right (hmark m)
      · intro _ p hp hends
        rw [List.suffix_nil.mp hends] at hp
        exact hnonempty hp
  case first_raw =>
      intro u _
      rw [hchars.firstMatch]
      rfl
  case next_done =>
      intro u m hu hm
      rw [List.mem_singleton.mp hu] at hm
      exact absurd hm (hmark m)
  case next_raw =>
      intro u m _ _ _
      rw [hchars.nextMatch]
      rfl

include hpatterns

/-- The chain of the patterns that end at the next state. -/
theorem linkMatch_spec (h : Linked t word patterns done a) {u : Nat}
    {rest : List Nat} (hqueue : a.bfsQueue = u :: rest) :
    EndsAt patterns (word u)
        ((linkMatch u (a.failLink u) { a with bfsQueue := rest }).firstMatch
          u) ∧
      (forall m, patterns[m]? = some (word u) ->
        EndsAt patterns (word u).tail
          ((linkMatch u (a.failLink u)
            { a with bfsQueue := rest }).nextMatch m)) ∧
      (forall s, s ≠ u ->
        (linkMatch u (a.failLink u) { a with bfsQueue := rest }).firstMatch
          s = a.firstMatch s) ∧
      (forall m, patterns[m]? ≠ some (word u) ->
        (linkMatch u (a.failLink u) { a with bfsQueue := rest }).nextMatch
          m = a.nextMatch m) := by
  rcases fail_facts hgrown h hqueue with ⟨hlt, hnew, hne, hfail, hlongest⟩
  have htail : EndsAt patterns (word u).tail
      (a.firstMatch (a.failLink u)) :=
    (h.first_done hfail).of_longest (fun p hp => hmarked.known hp) hlongest
  have hraw := h.first_raw hnew
  have hnextRaw : forall m, patterns[m]? = some (word u) ->
      a.nextMatch m = none := fun m hm => h.next_raw hlt hnew hm
  rcases List.exists_cons_of_ne_nil (word_ne_nil hgrown hlt hne) with
    ⟨c, tail, hword⟩
  have hself : forall m, a.firstMatch u = some m ->
      patterns[m]? = some (word u) := by
    intro m hm
    rw [hraw] at hm
    exact (hmarked.marks.mp hm).right
  have hnot : a.firstMatch u = none -> c :: tail ∉ patterns := by
    intro hnone hmem
    rcases List.getElem?_of_mem hmem with ⟨m, hm⟩
    rw [← hword] at hm
    rw [hraw, hmarked.marks.mpr ⟨hlt, hm⟩] at hnone
    cases hnone
  have hlink : EndsAt patterns (word u)
      ((a.firstMatch u).or (a.firstMatch (a.failLink u))) := by
    cases hfirst : a.firstMatch u with
    | some m => exact EndsAt.self (hself m hfirst)
    | none =>
        rw [hword] at htail ⊢
        exact htail.cons (hnot hfirst)
  unfold linkMatch
  dsimp only
  cases hfMatch : a.firstMatch (a.failLink u) with
  | none =>
      rw [hfMatch, Option.or_none] at hlink
      rw [hfMatch] at htail
      refine ⟨hlink, ?_, fun _ _ => rfl, fun _ _ => rfl⟩
      intro m hm
      change EndsAt patterns (word u).tail (a.nextMatch m)
      rw [hnextRaw m hm]
      exact htail
  | some fMatch =>
      rw [hfMatch] at hlink htail
      cases huMatch : a.firstMatch u with
      | some uMatch =>
          rw [huMatch] at hlink
          dsimp only
          rw [huMatch]
          refine ⟨hlink, ?_, fun _ _ => rfl, ?_⟩
          · intro m hm
            have hsame : m = uMatch :=
              (List.getElem?_inj (List.getElem?_eq_some_iff.mp hm).1
                hpatterns).mp (hm.trans (hself uMatch huMatch).symm)
            rw [hsame, Function.update_self]
            exact htail
          · intro m hm
            rw [Function.update_of_ne]
            intro heq
            rw [heq] at hm
            exact hm (hself uMatch huMatch)
      | none =>
          rw [huMatch] at hlink
          dsimp only
          rw [Function.update_self]
          refine ⟨hlink, ?_, ?_, fun _ _ => rfl⟩
          · intro m hm
            have hmark := hmarked.marks.mpr ⟨hlt, hm⟩
            rw [← hraw, huMatch] at hmark
            cases hmark
          · intro s hs
            rw [Function.update_of_ne hs]

/-- Linking the next state keeps what holds, with that state linked too. -/
theorem linkState_linked (h : Linked t word patterns done a) {u : Nat}
    {rest : List Nat} (hqueue : a.bfsQueue = u :: rest) :
    Linked t word patterns (u :: done)
      (linkState u { a with bfsQueue := rest }) := by
  rcases fail_facts hgrown h hqueue with ⟨hlt, hnew, hne, hfail, hlongest⟩
  rcases linkMatch_spec hgrown hmarked hpatterns h hqueue with
    ⟨hfirst, hnext, hfirstElse, hnextElse⟩
  rcases linkMatch_goto u (a.failLink u) { a with bfsQueue := rest } with ⟨hgoto, hlinks, hwaiting⟩
  have hfu : a.failLink u ≠ u := by
    intro heq
    rw [heq] at hfail
    exact hnew hfail
  have hstable : Stable u fun b c => (b.goto (a.failLink u) c).getD 0 := by
    intro b d hsame
    funext c
    dsimp only
    rw [hsame _ hfu]
  have hchars := charsLinked_fold hstable
    (linkMatch u (a.failLink u) { a with bfsQueue := rest })
    (List.nodup_range (n := 128))
  change CharsLinked u _ _ _ (linkState u { a with bfsQueue := rest })
    at hchars
  generalize linkState u { a with bfsQueue := rest } = b at hchars ⊢
  generalize linkMatch u (a.failLink u) { a with bfsQueue := rest } = middle
    at hchars hfirst hnext hfirstElse hnextElse hgoto hlinks hwaiting
  change middle.goto = a.goto at hgoto
  change middle.failLink = a.failLink at hlinks
  change middle.bfsQueue = rest at hwaiting
  have hmem : u ∈ a.bfsQueue := by
    rw [hqueue]
    exact List.mem_cons_self
  have hrow : middle.goto u = t.goto u := by
    rw [hgoto, h.goto_raw hnew]
  have htarget : forall {c}, c < 128 -> exists v,
      (middle.goto (a.failLink u) c).getD 0 = v ∧ v < t.numStates ∧
        LongestSuffix (Known t word) ((word u).tail ++ [c]) (word v) := by
    intro c hc
    rcases h.goto_done hfail hc with ⟨v, hv, hvlt, hvlongest⟩
    refine ⟨v, ?_, hvlt, hlongest.snoc hgrown.prefixClosed hvlongest⟩
    rw [hgoto, hv]
    rfl
  have hchild : forall {c v}, t.goto u c = some v ->
      c ∈ List.range 128 ∧ v < t.numStates ∧ word v = word u ++ [c] ∧
        v ∉ done ∧ v ∉ a.bfsQueue := by
    intro c v hv
    rcases hgrown.child hv with ⟨_, hvlt, hvword⟩
    have hc : c < 128 := by
      apply hgrown.ascii hvlt
      rw [hvword]
      exact List.mem_append_right _ (List.mem_singleton_self c)
    exact ⟨List.mem_range.mpr hc, hvlt, hvword,
      fun hdone => hnew (h.parent hv (Or.inl hdone)),
      fun hwaits => hnew (h.parent hv (Or.inr hwaits))⟩
  have honly : forall {c v}, t.goto u c = some v ->
      forall d, t.goto u d = some v -> d = c := by
    intro c v hv d hd
    have hwords := (hchild hv).right.right.left.symm.trans
      (hchild hd).right.right.left
    injection (List.append_inj' hwords rfl).right with hcd
    exact hcd.symm
  have hchildren : forall {v}, v ∈ (List.range 128).filterMap (t.goto u) <->
      exists c, t.goto u c = some v := by
    intro v
    rw [List.mem_filterMap]
    constructor
    · intro hv
      rcases hv with ⟨c, _, hc⟩
      exact ⟨c, hc⟩
    · intro hv
      rcases hv with ⟨c, hc⟩
      exact ⟨c, (hchild hc).left, hc⟩
  have hbqueue : b.bfsQueue =
      rest ++ (List.range 128).filterMap (t.goto u) := by
    rw [hchars.queue, hwaiting, hrow]
  have hbmem : forall {v}, v ∈ b.bfsQueue ->
      v ∈ rest ∨ exists c, t.goto u c = some v := by
    intro v hv
    rw [hbqueue] at hv
    rcases List.mem_append.mp hv with hwaits | hmade
    · exact Or.inl hwaits
    · exact Or.inr (hchildren.mp hmade)
  have hrest : forall {v}, v ∈ rest -> v ∈ a.bfsQueue := by
    intro v hv
    rw [hqueue]
    exact List.mem_cons_of_mem _ hv
  have hnodup := h.queue_nodup
  have hsorted := h.queue_sorted
  rw [hqueue] at hnodup hsorted
  have hurest : u ∉ rest := (List.nodup_cons.mp hnodup).left
  have holdcases : forall {v}, v ∈ u :: done ∨ v ∈ b.bfsQueue ->
      (v ∈ done ∨ v ∈ a.bfsQueue) ∨ exists c, t.goto u c = some v := by
    intro v hv
    rcases hv with hdone | hwaits
    · rcases List.mem_cons.mp hdone with hhere | hearlier
      · rw [hhere]
        exact Or.inl (Or.inr hmem)
      · exact Or.inl (Or.inl hearlier)
    · rcases hbmem hwaits with hwaits | hmade
      · exact Or.inl (Or.inr (hrest hwaits))
      · exact Or.inr hmade
  have helse : forall {v}, v ∈ done -> v ≠ u := by
    intro v hv heq
    rw [heq] at hv
    exact hnew hv
  have hdepth : forall {v c}, t.goto u c = some v ->
      (word v).length = (word u).length + 1 := by
    intro v c hv
    rw [(hchild hv).right.right.left, List.length_append,
      List.length_singleton]
  have hdeeper : forall {v}, v ∈ b.bfsQueue ->
      (word u).length ≤ (word v).length ∧
        (word v).length ≤ (word u).length + 1 := by
    intro v hv
    rcases hbmem hv with hwaits | ⟨c, hc⟩
    · exact ⟨List.rel_of_pairwise_cons hsorted hwaits,
        h.queue_near hmem (hrest hwaits)⟩
    · rw [hdepth hc]
      exact ⟨Nat.le_succ _, Nat.le_refl _⟩
  constructor
  case root => exact List.mem_cons_of_mem _ h.root
  case done_nodup => exact List.nodup_cons.mpr ⟨hnew, h.done_nodup⟩
  case done_lt =>
      intro v hv
      rcases List.mem_cons.mp hv with hhere | hearlier
      · rw [hhere]
        exact hlt
      · exact h.done_lt hearlier
  case queue_nodup =>
      rw [hbqueue]
      apply List.nodup_append.mpr
      refine ⟨(List.nodup_cons.mp hnodup).right, ?_, ?_⟩
      · apply List.Nodup.filterMap _ List.nodup_range
        intro c d v hc hd
        exact honly hd c hc
      · intro v hwaits w hmade heq
        rcases hchildren.mp hmade with ⟨c, hc⟩
        rw [← heq] at hc
        exact (hchild hc).right.right.right.right (hrest hwaits)
  case queue_new =>
      intro v hv
      rcases hbmem hv with hwaits | ⟨c, hc⟩
      · rcases h.queue_new (hrest hwaits) with ⟨hvlt, hvnew⟩
        refine ⟨hvlt, ?_⟩
        intro hbad
        rcases List.mem_cons.mp hbad with hhere | hearlier
        · rw [hhere] at hwaits
          exact hurest hwaits
        · exact hvnew hearlier
      · refine ⟨(hchild hc).right.left, ?_⟩
        intro hbad
        rcases List.mem_cons.mp hbad with hhere | hearlier
        · have hlonger := hdepth hc
          rw [hhere] at hlonger
          exact absurd hlonger (Nat.ne_of_lt (Nat.lt_succ_self _))
        · exact (hchild hc).right.right.right.left hearlier
  case queue_sorted =>
      rw [hbqueue]
      apply List.pairwise_append.mpr
      refine ⟨(List.pairwise_cons.mp hsorted).right, ?_, ?_⟩
      · apply List.pairwise_of_forall_mem_list
        intro v hv w hw
        rcases hchildren.mp hv with ⟨c, hc⟩
        rcases hchildren.mp hw with ⟨d, hd⟩
        rw [hdepth hc, hdepth hd]
      · intro v hv w hw
        rcases hchildren.mp hw with ⟨d, hd⟩
        rw [hdepth hd]
        exact h.queue_near hmem (hrest hv)
  case queue_near =>
      intro v w hv hw
      have hvdeep := hdeeper hv
      have hwdeep := hdeeper hw
      exact Nat.le_trans hwdeep.right (Nat.succ_le_succ hvdeep.left)
  case closed =>
      intro v c w hv hw
      rcases List.mem_cons.mp hv with hhere | hearlier
      · apply Or.inr
        rw [hhere] at hw
        rw [hbqueue]
        exact List.mem_append_right _ (hchildren.mpr ⟨c, hw⟩)
      · rcases h.closed hearlier hw with hdone | hwaits
        · exact Or.inl (List.mem_cons_of_mem _ hdone)
        · rw [hqueue] at hwaits
          rcases List.mem_cons.mp hwaits with hhead | hlater
          · rw [hhead]
            exact Or.inl List.mem_cons_self
          · apply Or.inr
            rw [hbqueue]
            exact List.mem_append_left _ hlater
  case parent =>
      intro s c v hgo hv
      rcases holdcases hv with hold | ⟨d, hd⟩
      · exact List.mem_cons_of_mem _ (h.parent hgo hold)
      · rcases hgrown.child hgo with ⟨hs, _, hword⟩
        have hwords := hword.symm.trans (hchild hd).right.right.left
        rw [hgrown.inj hs hlt (List.append_inj' hwords rfl).left]
        exact List.mem_cons_self
  case goto_done =>
      intro v c hv hc
      rcases List.mem_cons.mp hv with hhere | hearlier
      · rw [hhere]
        have hlinked := hchars.linked (List.mem_range.mpr hc)
        rw [hrow] at hlinked
        cases hgo : t.goto u c with
        | some w =>
            rw [hgo] at hlinked
            refine ⟨w, hlinked, (hchild hgo).right.left, ?_⟩
            rw [← (hchild hgo).right.right.left]
            exact LongestSuffix.self ⟨w, (hchild hgo).right.left, rfl⟩
        | none =>
            rw [hgo] at hlinked
            rcases htarget hc with ⟨w, hw, hwlt, hwlongest⟩
            refine ⟨w, hlinked.trans (congrArg some hw), hwlt, ?_⟩
            rcases List.exists_cons_of_ne_nil
              (word_ne_nil hgrown hlt hne) with ⟨first, tail, hword⟩
            rw [hword] at hwlongest ⊢
            apply hwlongest.cons_of_unknown
            intro hknown
            rcases hknown with ⟨x, hx, hxword⟩
            have hback := hgrown.back hlt hx (c := c) (by
              rw [hxword, hword]
              rfl)
            rw [hgo] at hback
            cases hback
      · rw [hchars.elsewhere (helse hearlier), hgoto]
        exact h.goto_done hearlier hc
  case goto_raw =>
      intro v hv
      rw [List.mem_cons, not_or] at hv
      rw [hchars.elsewhere hv.left, hgoto]
      exact h.goto_raw hv.right
  case fail =>
      intro v hv hvne
      rcases holdcases hv with hold | ⟨c, hc⟩
      · have hkept : b.failLink v = a.failLink v := by
          rw [hchars.kept, hlinks]
          intro c _ hc
          rw [hrow] at hc
          rcases hold with hdone | hwaits
          · exact (hchild hc).right.right.right.left hdone
          · exact (hchild hc).right.right.right.right hwaits
        rw [hkept]
        exact h.fail hold hvne
      · have hlink := hchars.link (v := v) (hchild hc).left
          (by rw [hrow]; exact hc)
          (by
            intro d hd
            rw [hrow] at hd
            exact honly hc d hd)
        rcases htarget (List.mem_range.mp (hchild hc).left) with
          ⟨w, hw, hwlt, hwlongest⟩
        have hfailEq : b.failLink v = w := hlink.trans hw
        rw [hfailEq, (hchild hc).right.right.left]
        refine ⟨hwlt, ?_⟩
        rcases List.exists_cons_of_ne_nil
          (word_ne_nil hgrown hlt hne) with ⟨first, tail, hword⟩
        rw [hword] at hwlongest ⊢
        exact hwlongest
  case first_done =>
      intro v hv
      rw [hchars.firstMatch]
      rcases List.mem_cons.mp hv with hhere | hearlier
      · rw [hhere]
        exact hfirst
      · rw [hfirstElse v (helse hearlier)]
        exact h.first_done hearlier
  case first_raw =>
      intro v hv
      rw [List.mem_cons, not_or] at hv
      rw [hchars.firstMatch, hfirstElse v hv.left]
      exact h.first_raw hv.right
  case next_done =>
      intro v m hv hm
      rw [hchars.nextMatch]
      rcases List.mem_cons.mp hv with hhere | hearlier
      · rw [hhere] at hm ⊢
        exact hnext m hm
      · rw [hnextElse m]
        · exact h.next_done hearlier hm
        · intro hbad
          rw [hm] at hbad
          injection hbad with hbad
          exact helse hearlier (hgrown.inj (h.done_lt hearlier) hlt hbad)
  case next_raw =>
      intro v m hvlt hv hm
      rw [List.mem_cons, not_or] at hv
      rw [hchars.nextMatch, hnextElse m]
      · exact h.next_raw hvlt hv.right hm
      · intro hbad
        rw [hm] at hbad
        injection hbad with hbad
        exact hv.left (hgrown.inj hvlt hlt hbad)

/-- With fuel for every state, none is left waiting. -/
theorem linkAll_linked {fuel : Nat} (h : Linked t word patterns done a)
    (hfuel : t.numStates ≤ done.length + fuel) :
    exists all, Linked t word patterns all (linkAll fuel a) ∧
      (linkAll fuel a).bfsQueue = [] := by
  induction fuel generalizing done a with
  | zero =>
      refine ⟨done, h, ?_⟩
      change a.bfsQueue = []
      apply List.eq_nil_iff_forall_not_mem.mpr
      intro v hv
      rcases h.queue_new hv with ⟨hvlt, hvnew⟩
      have hsubset : done ⊆ List.range t.numStates :=
        fun u hu => List.mem_range.mpr (h.done_lt hu)
      have hperm := (List.subperm_of_subset h.done_nodup hsubset).perm_of_length_le
        (by rw [List.length_range]; exact hfuel)
      exact hvnew (hperm.mem_iff.mpr (List.mem_range.mpr hvlt))
  | succ fuel ih =>
      unfold linkAll
      cases hqueue : a.bfsQueue with
      | nil => exact ⟨done, h, hqueue⟩
      | cons u rest =>
          apply ih (linkState_linked hgrown hmarked hpatterns h hqueue)
          rw [List.length_cons, Nat.succ_add_eq_add_succ]
          exact hfuel

end

/-!
## The whole automaton
-/

/-- An automaton whose states know the longest suffix of what was read that is
a word, and the patterns that end there. -/
structure Complete (t : Trie) (word : Nat -> List Nat)
    (patterns : List (List Nat)) (a : Automaton) : Prop where
  goto : forall {s c}, s < t.numStates -> c < 128 -> exists v,
    a.goto s c = some v ∧ v < t.numStates ∧
      LongestSuffix (Known t word) (word s ++ [c]) (word v)
  first : forall {s}, s < t.numStates ->
    EndsAt patterns (word s) (a.firstMatch s)
  next : forall {m p}, patterns[m]? = some p ->
    EndsAt patterns p.tail (a.nextMatch m)

theorem buildAutomaton_complete {patterns : List (List Nat)}
    (hnodup : patterns.Nodup) (hnonempty : [] ∉ patterns)
    (hascii : forall p, p ∈ patterns -> forall c, c ∈ p -> c < 128) :
    exists word,
      Grown (buildTrie patterns) word ∧
        Marked (buildTrie patterns) word patterns ∧
        Complete (buildTrie patterns) word patterns
          (buildAutomaton patterns) := by
  rcases buildTrie_spec hnodup hascii with ⟨word, hgrown, hmarked⟩
  refine ⟨word, hgrown, hmarked, ?_⟩
  have hroot := linkRoot_linked hgrown hmarked hnonempty
  rcases @linkAll_linked _ _ _ hgrown hmarked hnodup _ _
    (buildTrie patterns).numStates hroot (Nat.le_add_left _ _) with ⟨all, hall, hempty⟩
  change Linked _ _ _ _ (buildAutomaton patterns) at hall
  change (buildAutomaton patterns).bfsQueue = [] at hempty
  have hdone : forall {s}, s < (buildTrie patterns).numStates -> s ∈ all :=
    fun hs => done_of_empty hgrown hall hempty hs
  constructor
  · intro s c hs hc
    exact hall.goto_done (hdone hs) hc
  · intro s hs
    exact hall.first_done (hdone hs)
  · intro m p hm
    rcases hmarked.known (List.mem_of_getElem? hm) with ⟨s, hs, hword⟩
    rw [← hword] at hm ⊢
    exact hall.next_done (hdone hs) hm

end Vault
end Minni
