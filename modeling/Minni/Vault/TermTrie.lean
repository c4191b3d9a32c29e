import Mathlib.Data.List.Induction
import Minni.Foundation.LongestSuffix
import Minni.Vault.MultiTerm

/-!
# The trie of the patterns

Every state of the trie stands for one word, and the words are the prefixes of
the patterns.  A state is marked with the pattern that is its word.
-/

namespace Minni
namespace Vault

/-- A trie whose states stand for the words that `word` gives them. -/
structure Grown (t : Trie) (word : Nat -> List Nat) : Prop where
  root : word 0 = []
  pos : 0 < t.numStates
  child : forall {s c v}, t.goto s c = some v ->
    s < t.numStates ∧ v < t.numStates ∧ word v = word s ++ [c]
  back : forall {s c v}, s < t.numStates -> v < t.numStates ->
    word v = word s ++ [c] -> t.goto s c = some v
  inj : forall {s v}, s < t.numStates -> v < t.numStates ->
    word s = word v -> s = v
  parent : forall {v}, v < t.numStates -> v ≠ 0 ->
    exists s c, s < t.numStates ∧ word v = word s ++ [c]
  ascii : forall {v c}, v < t.numStates -> c ∈ word v -> c < 128

/-- A trie in which each pattern marks its state. -/
structure Marked (t : Trie) (word : Nat -> List Nat)
    (patterns : List (List Nat)) : Prop where
  marks : forall {s m}, t.firstMatch s = some m <->
    s < t.numStates ∧ patterns[m]? = some (word s)
  known : forall {p}, p ∈ patterns ->
    exists s, s < t.numStates ∧ word s = p

/-- A trie that only gained states. -/
structure Extends (t u : Trie) (word later : Nat -> List Nat) : Prop where
  states : t.numStates ≤ u.numStates
  words : forall {s}, s < t.numStates -> later s = word s
  matches_eq : u.firstMatch = t.firstMatch

namespace Extends

theorem refl (t : Trie) (word : Nat -> List Nat) : Extends t t word word :=
  { states := Nat.le_refl _
    words := fun _ => rfl
    matches_eq := rfl }

theorem trans {t u v : Trie} {word later last : Nat -> List Nat}
    (h : Extends t u word later) (hnext : Extends u v later last) :
    Extends t v word last :=
  { states := Nat.le_trans h.states hnext.states
    words := fun hs =>
      (hnext.words (Nat.lt_of_lt_of_le hs h.states)).trans (h.words hs)
    matches_eq := hnext.matches_eq.trans h.matches_eq }

end Extends

namespace Grown

theorem empty : Grown Trie.empty fun _ => [] where
  root := rfl
  pos := Nat.one_pos
  child := fun h => by cases h
  back := fun _ _ h => by simp at h
  inj := fun hs hv _ => by
    rw [Nat.lt_one_iff.mp hs, Nat.lt_one_iff.mp hv]
  parent := fun hv hne => absurd (Nat.lt_one_iff.mp hv) hne
  ascii := fun _ hc => absurd hc List.not_mem_nil

variable {t : Trie} {word : Nat -> List Nat}

theorem prefixClosed (h : Grown t word) :
    Foundation.PrefixClosed fun w =>
      exists s, s < t.numStates ∧ word s = w := by
  constructor
  · exact ⟨0, h.pos, h.root⟩
  · intro w a hknown
    rcases hknown with ⟨v, hv, hword⟩
    have hne : v ≠ 0 := by
      intro hzero
      rw [hzero, h.root] at hword
      simp at hword
    rcases h.parent hv hne with ⟨s, c, hs, hparent⟩
    rw [hparent] at hword
    exact ⟨s, hs, (List.append_inj' hword rfl).left⟩

/-- The trie after a state was made for a new child. -/
theorem make (h : Grown t word) {s c : Nat} (hs : s < t.numStates)
    (hc : c < 128) (hnone : t.goto s c = none) :
    Grown
      { t with
        goto := Function.update t.goto s
          (Function.update (t.goto s) c (some t.numStates))
        numStates := t.numStates + 1 }
      (Function.update word t.numStates (word s ++ [c])) := by
  have hold : forall {x}, x < t.numStates ->
      Function.update word t.numStates (word s ++ [c]) x = word x := by
    intro x hx
    exact Function.update_of_ne (Nat.ne_of_lt hx) _ _
  have hnew : Function.update word t.numStates (word s ++ [c]) t.numStates =
      word s ++ [c] :=
    Function.update_self _ _ _
  have hother : forall {x d}, ¬ (x = s ∧ d = c) ->
      Function.update t.goto s
        (Function.update (t.goto s) c (some t.numStates)) x d =
        t.goto x d := by
    intro x d hne
    by_cases hx : x = s
    · rw [hx, Function.update_self, Function.update_of_ne]
      exact fun hd => hne ⟨hx, hd⟩
    · rw [Function.update_of_ne hx]
  have hmade : Function.update t.goto s
      (Function.update (t.goto s) c (some t.numStates)) s c =
      some t.numStates := by
    rw [Function.update_self, Function.update_self]
  have hunknown : forall {v}, v < t.numStates -> word v ≠ word s ++ [c] := by
    intro v hv hword
    rw [h.back hs hv hword] at hnone
    cases hnone
  have hsplit : forall {x}, x < t.numStates + 1 ->
      x < t.numStates ∨ x = t.numStates := by
    intro x hx
    exact Nat.lt_or_eq_of_le (Nat.le_of_lt_succ hx)
  constructor
  · rw [hold h.pos]
    exact h.root
  · exact Nat.succ_pos _
  · intro x d v hgoto
    change Function.update t.goto s
      (Function.update (t.goto s) c (some t.numStates)) x d = some v at hgoto
    by_cases hedge : x = s ∧ d = c
    · rw [hedge.left, hedge.right, hmade] at hgoto
      injection hgoto with hgoto
      rw [hedge.left, hedge.right, ← hgoto, hold hs, hnew]
      exact ⟨Nat.lt_succ_of_lt hs, Nat.lt_succ_self _, rfl⟩
    · rw [hother hedge] at hgoto
      rcases h.child hgoto with ⟨hx, hv, hword⟩
      rw [hold hx, hold hv]
      exact ⟨Nat.lt_succ_of_lt hx, Nat.lt_succ_of_lt hv, hword⟩
  · intro x d v hx hv hword
    change Function.update t.goto s
      (Function.update (t.goto s) c (some t.numStates)) x d = some v
    rcases hsplit hv with hv | hv
    · rw [hold hv] at hword
      rcases hsplit hx with hx | hx
      · rw [hold hx] at hword
        have hgoto := h.back hx hv hword
        rw [hother, hgoto]
        intro hedge
        rw [hedge.left, hedge.right, hnone] at hgoto
        cases hgoto
      · rw [hx, hnew] at hword
        exfalso
        have hne : v ≠ 0 := by
          intro hzero
          rw [hzero, h.root] at hword
          simp at hword
        rcases h.parent hv hne with ⟨y, e, hy, hparent⟩
        rw [hparent] at hword
        exact hunknown hy (List.append_inj' hword rfl).left
    · rw [hv, hnew] at hword
      rcases List.append_inj' hword rfl with ⟨hwords, hcodes⟩
      injection hcodes with hcode
      rcases hsplit hx with hx | hx
      · rw [hold hx] at hwords
        rw [← h.inj hs hx hwords, ← hcode, hmade, hv]
      · rw [hx, hnew] at hwords
        have hlength := congrArg List.length hwords
        simp at hlength
  · intro x v hx hv hword
    rcases hsplit hx with hx | hx
    · rcases hsplit hv with hv | hv
      · rw [hold hx, hold hv] at hword
        exact h.inj hx hv hword
      · rw [hold hx, hv, hnew] at hword
        exact absurd hword (hunknown hx)
    · rcases hsplit hv with hv | hv
      · rw [hold hv, hx, hnew] at hword
        exact absurd hword.symm (hunknown hv)
      · rw [hx, hv]
  · intro v hv hne
    rcases hsplit hv with hv | hv
    · rcases h.parent hv hne with ⟨y, e, hy, hparent⟩
      refine ⟨y, e, Nat.lt_succ_of_lt hy, ?_⟩
      rw [hold hv, hold hy]
      exact hparent
    · refine ⟨s, c, Nat.lt_succ_of_lt hs, ?_⟩
      rw [hv, hnew, hold hs]
  · intro v d hv hd
    rcases hsplit hv with hv | hv
    · rw [hold hv] at hd
      exact h.ascii hv hd
    · rw [hv, hnew] at hd
      rcases List.mem_append.mp hd with hbefore | hlast
      · exact h.ascii hs hbefore
      · rw [List.mem_singleton.mp hlast]
        exact hc

/-- A walk reaches the state of a word, which it makes where there is none. -/
theorem walk (h : Grown t word) {s : Nat} (hs : s < t.numStates)
    {p : List Nat} (hp : forall c, c ∈ p -> c < 128) :
    exists later,
      Grown (p.foldl Trie.walk (t, s)).1 later ∧
        Extends t (p.foldl Trie.walk (t, s)).1 word later ∧
        (p.foldl Trie.walk (t, s)).2 <
          (p.foldl Trie.walk (t, s)).1.numStates ∧
        later (p.foldl Trie.walk (t, s)).2 = word s ++ p := by
  induction p generalizing t word s with
  | nil =>
      refine ⟨word, h, Extends.refl t word, hs, ?_⟩
      rw [List.append_nil]
      rfl
  | cons c p ih =>
      have htail : forall d, d ∈ p -> d < 128 :=
        fun d hd => hp d (List.mem_cons_of_mem _ hd)
      rw [List.foldl_cons]
      cases hgoto : t.goto s c with
      | some v =>
          rcases h.child hgoto with ⟨_, hv, hword⟩
          have hstep : Trie.walk (t, s) c = (t, v) := by
            unfold Trie.walk
            rw [hgoto]
          rw [hstep]
          rcases ih h hv htail with ⟨later, hgrown, hextends, hlt, hend⟩
          refine ⟨later, hgrown, hextends, hlt, ?_⟩
          rw [hend, hword, List.append_assoc]
          rfl
      | none =>
          have hmake := h.make hs (hp c List.mem_cons_self) hgoto
          have hstep : Trie.walk (t, s) c =
              ({ t with
                  goto := Function.update t.goto s
                    (Function.update (t.goto s) c (some t.numStates))
                  numStates := t.numStates + 1 }, t.numStates) := by
            unfold Trie.walk
            rw [hgoto]
          rw [hstep]
          rcases ih hmake (Nat.lt_succ_self _) htail with
            ⟨later, hgrown, hextends, hlt, hend⟩
          refine ⟨later, hgrown, ?_, hlt, ?_⟩
          · apply Extends.trans _ hextends
            exact {
              states := Nat.le_succ _
              words := fun hx => Function.update_of_ne (Nat.ne_of_lt hx) _ _
              matches_eq := rfl }
          · rw [hend, Function.update_self, List.append_assoc]
            rfl

end Grown

namespace Marked

variable {t u : Trie} {word later : Nat -> List Nat}
  {patterns : List (List Nat)}

theorem empty : Marked Trie.empty (fun _ => []) [] where
  marks := by
    intro s m
    constructor
    · intro h
      cases h
    · intro h
      cases h.right
  known := fun hp => absurd hp List.not_mem_nil

/-- States that were made since stand for no pattern. -/
theorem extend (h : Marked t word patterns) (hgrown : Grown u later)
    (hextends : Extends t u word later) : Marked u later patterns := by
  constructor
  · intro s m
    rw [hextends.matches_eq, h.marks]
    constructor
    · intro hmark
      refine ⟨Nat.lt_of_lt_of_le hmark.left hextends.states, ?_⟩
      rw [hextends.words hmark.left]
      exact hmark.right
    · intro hmark
      rcases h.known (List.mem_of_getElem? hmark.right) with ⟨x, hx, hword⟩
      have hsame : x = s := by
        apply hgrown.inj (Nat.lt_of_lt_of_le hx hextends.states) hmark.left
        rw [hextends.words hx]
        exact hword
      rw [← hsame] at hmark ⊢
      rw [← hextends.words hx]
      exact ⟨hx, hmark.right⟩
  · intro p hp
    rcases h.known hp with ⟨x, hx, hword⟩
    refine ⟨x, Nat.lt_of_lt_of_le hx hextends.states, ?_⟩
    rw [hextends.words hx]
    exact hword

/-- The state of a new pattern is marked with it. -/
theorem mark (h : Marked t word patterns) (hgrown : Grown t word)
    {s : Nat} (hs : s < t.numStates) (hfresh : word s ∉ patterns) :
    Marked
      { t with
        firstMatch := Function.update t.firstMatch s (some patterns.length) }
      word (patterns ++ [word s]) := by
  constructor
  · intro x m
    change Function.update t.firstMatch s (some patterns.length) x = some m <->
      _
    by_cases hx : x = s
    · rw [hx, Function.update_self]
      constructor
      · intro hm
        injection hm with hm
        rw [← hm, List.getElem?_concat_length]
        exact ⟨hs, rfl⟩
      · intro hm
        rcases Nat.lt_or_ge m patterns.length with hlt | hge
        · have hget := hm.right
          rw [List.getElem?_append_left hlt] at hget
          exact absurd (List.mem_of_getElem? hget) hfresh
        · have hlt : m < (patterns ++ [word s]).length :=
            (List.getElem?_eq_some_iff.mp hm.right).1
          rw [List.length_append, List.length_singleton] at hlt
          rw [Nat.le_antisymm hge (Nat.le_of_lt_succ hlt)]
    · rw [Function.update_of_ne hx, h.marks]
      constructor
      · intro hm
        have hlt : m < patterns.length :=
          (List.getElem?_eq_some_iff.mp hm.right).1
        rw [List.getElem?_append_left hlt]
        exact hm
      · intro hm
        refine ⟨hm.left, ?_⟩
        rcases Nat.lt_or_ge m patterns.length with hlt | hge
        · have hget := hm.right
          rw [List.getElem?_append_left hlt] at hget
          exact hget
        · have hget := hm.right
          rw [List.getElem?_append_right hge] at hget
          have hword : word s = word x := by
            have hmem := List.mem_of_getElem? hget
            exact (List.mem_singleton.mp hmem).symm
          exact absurd (hgrown.inj hs hm.left hword).symm hx
  · intro p hp
    rcases List.mem_append.mp hp with hbefore | hlast
    · exact h.known hbefore
    · exact ⟨s, hs, (List.mem_singleton.mp hlast).symm⟩

end Marked

/-- The trie of a list of patterns that are ASCII and all different. -/
theorem buildTrie_spec {patterns : List (List Nat)}
    (hnodup : patterns.Nodup)
    (hascii : forall p, p ∈ patterns -> forall c, c ∈ p -> c < 128) :
    exists word,
      Grown (buildTrie patterns) word ∧
        Marked (buildTrie patterns) word patterns := by
  induction patterns using List.reverseRecOn with
  | nil => exact ⟨fun _ => [], Grown.empty, Marked.empty⟩
  | append_singleton patterns p ih =>
      rcases List.nodup_append.mp hnodup with ⟨hbefore, _, hdisjoint⟩
      have hfresh : p ∉ patterns :=
        fun hp => hdisjoint p hp p (List.mem_singleton_self p) rfl
      rcases ih hbefore
        (fun q hq => hascii q (List.mem_append_left _ hq)) with
        ⟨word, hgrown, hmarked⟩
      have hp := hascii p (List.mem_append_right _ (List.mem_singleton_self p))
      rcases hgrown.walk hgrown.pos hp with
        ⟨later, hwalked, hextends, hlt, hend⟩
      rw [hgrown.root, List.nil_append] at hend
      have hbuild : buildTrie (patterns ++ [p]) =
          (buildTrie patterns).insert (p, patterns.length) := by
        unfold buildTrie
        rw [List.zipIdx_append, List.foldl_append]
        simp
      rw [hbuild]
      refine ⟨later, ?_, ?_⟩
      · exact {
          root := hwalked.root
          pos := hwalked.pos
          child := hwalked.child
          back := hwalked.back
          inj := hwalked.inj
          parent := hwalked.parent
          ascii := hwalked.ascii }
      · have hmark := (hmarked.extend hwalked hextends).mark hwalked hlt
          (by rw [hend]; exact hfresh)
        rw [hend] at hmark
        exact hmark

end Vault
end Minni
