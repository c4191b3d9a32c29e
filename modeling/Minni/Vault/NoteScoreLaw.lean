import Minni.Vault.MultiTermLaw
import Minni.Vault.NoteScore
import Minni.Vault.WordExtend

/-!
# The same score by both paths

The bonus of a term is the same by the one pass over the text and by the loop
over the terms, and the matcher that a query gets from the cache is the one
that its own terms build.
-/

namespace Minni
namespace Vault

open Foundation
open Foundation.Scan

variable {U : Unicode}

/-!
## The bonus of a term
-/

theorem countWordOccurrences_nil (text : List Nat) (inflect : Bool)
    (maxCount : Nat) : countWordOccurrences U text [] inflect maxCount = 0 := by
  unfold countWordOccurrences
  rw [if_pos rfl]

/-- The count that the one pass has for a term, up to its cap. -/
theorem multiTermCount_min {terms : List (List Nat)}
    {text term : List Nat} {index : TermIndex}
    (hindex : IndexOk (MultiTermMatcher.new terms).patternStr term index) :
    min 5 (multiTermCount U (countAll U (MultiTermMatcher.new terms) text 5)
      text term index) =
      min 5 (countWordOccurrences U text term true 5) := by
  cases index with
  | pattern m =>
      have hcount := @countAll_getElem? U _ text _
        (Nat.succ_pos 4) _ _ hindex
      change min 5 (List.getD _ m 0) = _
      rw [List.getD_eq_getElem?_getD, hcount]
      change min 5 (min 5 _) = _
      rw [← Nat.min_assoc, Nat.min_self]
  | notAscii => rfl
  | rejected =>
      have hzero : countWordOccurrences U text term true 5 = 0 := by
        by_cases hempty : term = []
        · rw [hempty]
          exact countWordOccurrences_nil _ _ _
        · rcases hindex with hnone | ⟨hpure, hrejected⟩
          · exact absurd hnone hempty
          · have hterm : AsciiTerm term := ⟨hempty, hpure⟩
            apply countWordOccurrences_rejected hterm
            rw [rejected_ascii hterm]
            exact hrejected
      rw [hzero]
      rfl

/-- Whether a term is counted does not depend on where the count stops. -/
theorem count_pos_cap {raw term : List Nat} {c c' : Nat} (hc : 0 < c)
    (hc' : 0 < c')
    (h : 0 < countWordOccurrences U (U.toLowerCase raw) term true c) :
    0 < countWordOccurrences U (U.toLowerCase raw) term true c' :=
  @countWordOccurrences_below U term true raw none c c' hc hc' h

/-- A term of the title is in the text that begins with the title. -/
theorem count_pos_title {title rest term : List Nat} {c c' : Nat}
    (hc : 0 < c) (hc' : 0 < c')
    (h : 0 < countWordOccurrences U (U.toLowerCase title) term true c) :
    0 < countWordOccurrences U (U.toLowerCase (title ++ 10 :: rest)) term true
      c' := by
  have hbelow := @countWordOccurrences_below U term true title (some rest) c c'
    hc hc' h
  rw [below_toLowerCase] at hbelow
  exact hbelow

/-- Both paths add the same for a term. -/
theorem bonus_eq {terms : List (List Nat)} {title rest term : List Nat}
    {index : TermIndex}
    (hindex : IndexOk (MultiTermMatcher.new terms).patternStr term index) :
    (let count := multiTermCount U
        (countAll U (MultiTermMatcher.new terms)
          (U.toLowerCase (title ++ 10 :: rest)) 5)
        (U.toLowerCase (title ++ 10 :: rest)) term index
      if 0 < count then
        termBonus count
          (0 < countWordOccurrences U (U.toLowerCase title) term true 1)
      else 0) =
      (if 0 < countWordOccurrences U (U.toLowerCase (title ++ 10 :: rest))
            term true defaultMaxCount then
          min (countWordOccurrences U (U.toLowerCase (title ++ 10 :: rest))
            term true defaultMaxCount) 5
        else 0) +
        (if 0 < countWordOccurrences U (U.toLowerCase title) term true
            defaultMaxCount then 3 else 0) := by
  have hcount := @multiTermCount_min U _
    (U.toLowerCase (title ++ 10 :: rest)) _ _ hindex
  have hone : 0 < countWordOccurrences U (U.toLowerCase title) term true 1 <->
      0 < countWordOccurrences U (U.toLowerCase title) term true
        defaultMaxCount :=
    ⟨count_pos_cap (by decide) (by decide),
      count_pos_cap (by decide) (by decide)⟩
  have htitle : 0 < countWordOccurrences U (U.toLowerCase title) term true
        defaultMaxCount ->
      0 < countWordOccurrences U (U.toLowerCase (title ++ 10 :: rest)) term
        true 5 :=
    count_pos_title (by decide) (by decide)
  dsimp only
  change min 5 _ = min 5 (countWordOccurrences U _ term true 5) at hcount
  change _ = (if 0 < countWordOccurrences U (U.toLowerCase
      (title ++ 10 :: rest)) term true 5 then
    min (countWordOccurrences U (U.toLowerCase (title ++ 10 :: rest)) term
      true 5) 5 else 0) + _
  generalize multiTermCount U _ _ term index = found at hcount ⊢
  generalize countWordOccurrences U (U.toLowerCase (title ++ 10 :: rest)) term
    true 5 = counted at hcount htitle ⊢
  unfold termBonus
  simp only [hone, decide_eq_true_eq]
  by_cases hcounted : 0 < counted
  · have hfound : 0 < found := by omega
    rw [if_pos hfound, if_pos hcounted, Nat.min_comm found,
      Nat.min_comm counted, hcount]
  · have hfound : ¬ 0 < found := by omega
    rw [if_neg hfound, if_neg hcounted,
      if_neg fun hbad => hcounted (htitle hbad)]

/-- The one pass and the loop give the terms the same score. -/
theorem multiTermScore_eq (terms : List (List Nat)) (title rest : List Nat) :
    multiTermScore U (MultiTermMatcher.new terms) terms
        (U.toLowerCase (title ++ 10 :: rest)) (U.toLowerCase title) =
      perTermScore U terms (U.toLowerCase (title ++ 10 :: rest))
        (U.toLowerCase title) := by
  have hpaths : forall {some : List (List Nat)} {indexes : List TermIndex},
      List.Forall₂ (IndexOk (MultiTermMatcher.new terms).patternStr) some
        indexes ->
      ((some.zip indexes).map fun entry =>
        let count := multiTermCount U
          (countAll U (MultiTermMatcher.new terms)
            (U.toLowerCase (title ++ 10 :: rest)) 5)
          (U.toLowerCase (title ++ 10 :: rest)) entry.1 entry.2
        if 0 < count then
          termBonus count
            (0 < countWordOccurrences U (U.toLowerCase title) entry.1 true 1)
        else 0).sum =
        perTermScore U some (U.toLowerCase (title ++ 10 :: rest))
          (U.toLowerCase title) := by
    intro some indexes hindexed
    unfold perTermScore
    induction hindexed with
    | nil => rfl
    | cons hindex _ ih =>
        rw [List.zip_cons_cons, List.map_cons, List.sum_cons, List.map_cons,
          List.sum_cons, ih]
        congr 1
        exact bonus_eq hindex
  exact hpaths (patternsOf_ok terms).indexed

/-!
## The cache of matchers
-/

/-- Every matcher is the one of the terms that its key joins. -/
def Honest (cache : MatcherCache) : Prop :=
  forall entry, entry ∈ cache -> exists terms : List (List Nat),
    terms ≠ [] ∧ (forall t, t ∈ terms -> 0 ∉ t) ∧
      entry.1 = matcherKey terms ∧ entry.2 = MultiTermMatcher.new terms

theorem matcherKey_injective {terms other : List (List Nat)}
    (hterms : terms ≠ []) (hother : other ≠ [])
    (hfree : forall t, t ∈ terms -> 0 ∉ t)
    (hfree' : forall t, t ∈ other -> 0 ∉ t)
    (h : matcherKey terms = matcherKey other) : terms = other := by
  unfold matcherKey at h
  rw [← List.splitOn_intercalate 0 hfree hterms, h,
    List.splitOn_intercalate 0 hfree' hother]

theorem getMultiTermMatcher_honest {cache : MatcherCache}
    {terms : List (List Nat)} (hcache : Honest cache) (hterms : terms ≠ [])
    (hfree : forall t, t ∈ terms -> 0 ∉ t) :
    (getMultiTermMatcher cache terms).1 = MultiTermMatcher.new terms ∧
      Honest (getMultiTermMatcher cache terms).2 := by
  have hadd : forall {kept : MatcherCache} {matcher : MultiTermMatcher},
      matcher = MultiTermMatcher.new terms ->
      (forall entry, entry ∈ kept -> entry ∈ cache) ->
        Honest (kept ++ [(matcherKey terms, matcher)]) := by
    intro kept matcher hmatcher hkept entry hentry
    rcases List.mem_append.mp hentry with hold | hnew
    · exact hcache entry (hkept entry hold)
    · rw [List.mem_singleton.mp hnew]
      exact ⟨terms, hterms, hfree, rfl, hmatcher⟩
  unfold getMultiTermMatcher
  dsimp only
  cases hlookup : cache.lookup (matcherKey terms) with
  | some matcher =>
      rcases List.lookup_eq_some_iff.mp hlookup with ⟨before, after, hsplit, _⟩
      have hmem : (matcherKey terms, matcher) ∈ cache := by
        rw [hsplit]
        exact List.mem_append_right _ List.mem_cons_self
      rcases hcache _ hmem with ⟨other, hother, hfree', hkey, hmatcher⟩
      have hsame := matcherKey_injective hterms hother hfree hfree' hkey
      rw [← hsame] at hmatcher
      constructor
      · exact hmatcher
      · apply hadd hmatcher
        intro entry hentry
        exact (List.mem_filter.mp hentry).left
  | none =>
      constructor
      · rfl
      · apply hadd rfl
        intro entry hentry
        split at hentry
        · exact List.mem_of_mem_tail hentry
        · exact hentry

/-!
## The terms of a query
-/

theorem mem_splitOnP {p : Nat -> Bool} {s run : List Nat}
    (hrun : run ∈ s.splitOnP p) : forall u, u ∈ run -> p u = false := by
  induction s generalizing run with
  | nil =>
      rw [List.splitOnP_nil, List.mem_singleton] at hrun
      rw [hrun]
      intro u hu
      cases hu
  | cons u s ih =>
      rw [List.splitOnP_cons_eq_if_modifyHead] at hrun
      split at hrun
      · rcases List.mem_cons.mp hrun with hnil | hlater
        · rw [hnil]
          intro v hv
          cases hv
        · exact ih hlater
      · rename_i hu
        cases hsplit : s.splitOnP p with
        | nil => exact absurd hsplit (List.splitOnP_ne_nil p s)
        | cons first rest =>
            rw [hsplit] at hrun
            rcases List.mem_cons.mp hrun with hhere | hlater
            · rw [hhere]
              intro v hv
              rcases List.mem_cons.mp hv with hhead | htail
              · rw [hhead]
                exact Bool.not_eq_true _ ▸ hu
              · apply ih _ v htail
                rw [hsplit]
                exact List.mem_cons_self
            · apply ih
              rw [hsplit]
              exact List.mem_cons_of_mem _ hlater

theorem queryTokens_unit {query t : List Nat} (ht : t ∈ queryTokens U query)
    {u : Nat} (hu : u ∈ t) : isTermUnit u = true := by
  have hkept := (List.mem_filter.mp ht).left
  rw [List.mem_eraseDups] at hkept
  have hrun := (List.mem_filter.mp hkept).left
  have hnot := mem_splitOnP hrun u hu
  rw [Bool.not_eq_false'] at hnot
  exact hnot

theorem queryTerms_unit {query t : List Nat} (ht : t ∈ queryTerms U query)
    {u : Nat} (hu : u ∈ t) : isTermUnit u = true := by
  unfold queryTerms at ht
  dsimp only at ht
  split at ht
  · exact queryTokens_unit (List.mem_filter.mp ht).left hu
  · exact queryTokens_unit ht hu

theorem queryTerms_free {query t : List Nat} (ht : t ∈ queryTerms U query) :
    0 ∉ t := by
  intro hzero
  exact absurd (queryTerms_unit ht hzero) (by decide)

/-!
## The score
-/

/-- A note, and the query that it is scored for. -/
structure Scoring where
  query : List Nat
  relativePath : List Nat
  title : List Nat
  markdown : List Nat

variable (U) in
def score (cache : MatcherCache) (s : Scoring) : Rat × MatcherCache :=
  scoreVaultNote U cache s.query (queryTerms U s.query) s.relativePath s.title
    s.markdown

/-- The cache that is left by the notes that were scored so far. -/
def cacheAfter (U : Unicode) (earlier : List Scoring) : MatcherCache :=
  earlier.foldl (fun cache s => (score U cache s).2) []

theorem score_honest {cache : MatcherCache} (hcache : Honest cache)
    (s : Scoring) :
    (score U cache s).1 =
        scorePerTerm U s.query (queryTerms U s.query) s.relativePath s.title
          s.markdown ∧
      Honest (score U cache s).2 := by
  unfold score scoreVaultNote scorePerTerm
  split
  · exact ⟨rfl, hcache⟩
  · dsimp only
    split
    · rename_i hmany
      have hterms : queryTerms U s.query ≠ [] := by
        intro hempty
        rw [hempty] at hmany
        exact absurd hmany (by decide)
      have hfound := getMultiTermMatcher_honest hcache hterms
        fun _ ht => queryTerms_free ht
      constructor
      · rw [hfound.left]
        unfold haystackOf
        rw [multiTermScore_eq]
      · exact hfound.right
    · exact ⟨rfl, hcache⟩

theorem cacheAfter_honest (earlier : List Scoring) :
    Honest (cacheAfter U earlier) := by
  induction earlier using List.reverseRecOn with
  | nil => exact fun entry hentry => absurd hentry List.not_mem_nil
  | append_singleton earlier s ih =>
      unfold cacheAfter
      rw [List.foldl_append]
      exact (score_honest ih s).right

theorem pattern_of_accepted {terms : List (List Nat)} {i : Nat}
    {term : List Nat} (hi : terms[i]? = some term) (h : Accepted term) :
    exists m, (MultiTermMatcher.new terms).termToPatIdx[i]? =
        some (.pattern m) ∧
      (MultiTermMatcher.new terms).patternStr[m]? = some term := by
  have hindexed := (patternsOf_ok terms).indexed
  have hlt : i < terms.length := (List.getElem?_eq_some_iff.mp hi).1
  have hlt' : i < (patternsOf terms).termToPatIdx.length := by
    rw [← hindexed.length_eq]
    exact hlt
  have hok := hindexed.get hlt hlt'
  rw [List.get_eq_getElem, List.get_eq_getElem,
    (List.getElem?_eq_some_iff.mp hi).2] at hok
  cases hindex : (patternsOf terms).termToPatIdx[i] with
  | pattern m =>
      rw [hindex] at hok
      refine ⟨m, ?_, hok⟩
      change (patternsOf terms).termToPatIdx[i]? = _
      rw [List.getElem?_eq_getElem hlt', hindex]
  | rejected =>
      rw [hindex] at hok
      rcases hok with hempty | ⟨_, hrejected⟩
      · exact absurd hempty h.nonempty
      · rw [h.kept] at hrejected
        cases hrejected
  | notAscii =>
      rw [hindex] at hok
      have hpure := hok.right
      rw [h.pure] at hpure
      cases hpure

/-- The one pass counts each accepted term as the scan for it alone does, and
a note scores the same by either path, whatever notes were scored before. -/
theorem multiTerm_counts_and_scores (U : Unicode) :
    (forall (terms : List (List Nat)) (haystack : List Nat) (c : Nat),
      1 ≤ c -> forall (i : Nat) (term : List Nat), terms[i]? = some term ->
        Accepted term ->
          exists m, (MultiTermMatcher.new terms).termToPatIdx[i]? =
              some (.pattern m) ∧
            (countAll U (MultiTermMatcher.new terms) haystack c)[m]? =
              some (min c
                (countWordOccurrences U haystack term true c))) ∧
      (forall (terms : List (List Nat)) (title rest : List Nat),
        multiTermScore U (MultiTermMatcher.new terms) terms
            (U.toLowerCase (title ++ 10 :: rest)) (U.toLowerCase title) =
          perTermScore U terms (U.toLowerCase (title ++ 10 :: rest))
            (U.toLowerCase title)) ∧
      forall (earlier : List Scoring) (s : Scoring),
        (score U (cacheAfter U earlier) s).1 =
          scorePerTerm U s.query (queryTerms U s.query) s.relativePath s.title
            s.markdown := by
  refine ⟨?_, multiTermScore_eq, ?_⟩
  · intro terms haystack c hc i term hi hterm
    rcases pattern_of_accepted hi hterm with ⟨m, hindex, hm⟩
    exact ⟨m, hindex, countAll_getElem? hc hm⟩
  · intro earlier s
    exact (score_honest (cacheAfter_honest earlier) s).left

theorem multiTerm_counts_and_scores_twice :
    exists m, (MultiTermMatcher.new [[97, 98]]).termToPatIdx[0]? =
        some (.pattern m) ∧
      (countAll Accented.unicode (MultiTermMatcher.new [[97, 98]])
          [97, 98, 32, 97, 98] 5)[m]? =
        some (min 5 (countWordOccurrences Accented.unicode
          [97, 98, 32, 97, 98] [97, 98] true 5)) :=
  (multiTerm_counts_and_scores Accented.unicode).left [[97, 98]]
    [97, 98, 32, 97, 98] 5 (by decide) 0 [97, 98] rfl
    { nonempty := by decide
      pure := by decide
      kept := by decide }

end Vault
end Minni
