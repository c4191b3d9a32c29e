import Minni.Daemon.VectorIndex

/-!
# What the vector index serves

The live set is what was added or built and not removed since.  A search gives
live ids only, each once and best first; it gives the best of them as long as
enough of the entries it asks for are live.
-/

namespace Minni
namespace Daemon

open Foundation

section Law

variable {vec score : Type} [LinearOrder score]

/-!
## The live set
-/

/-- The ids with the vector that each was added with last. -/
abbrev LiveSet (vec : Type) := List (Nat × vec)

def LiveSet.ids (live : LiveSet vec) : List Nat :=
  live.map Prod.fst

def LiveSet.put (live : LiveSet vec) (pair : Nat × vec) : LiveSet vec :=
  live.filter (fun old => old.1 ≠ pair.1) ++ [pair]

def LiveSet.erase (live : LiveSet vec) (chunk_id : Nat) : LiveSet vec :=
  live.filter fun old => old.1 ≠ chunk_id

/-- Every result is live, with its similarity, once, best first. -/
structure ServesLive (metric : Metric vec score) (live : LiveSet vec)
    (query : vec) (results : List (Nat × score)) : Prop where
  live : forall result, result ∈ results -> exists v,
    (result.1, v) ∈ live ∧
      result.2 = metric.inner (metric.normalize query) (metric.normalize v)
  once : (results.map Prod.fst).Nodup
  descending : results.Pairwise fun first later => later.2 ≤ first.2

/-- The results are as many as there can be, and the best. -/
structure ServesBest (metric : Metric vec score) (live : LiveSet vec)
    (query : vec) (top_k : Nat) (results : List (Nat × score)) : Prop where
  length : results.length = min top_k live.length
  best : forall pair, pair ∈ live -> pair.1 ∉ results.map Prod.fst ->
    forall result, result ∈ results ->
      metric.inner (metric.normalize query) (metric.normalize pair.2) ≤
        result.2

/-!
## The invariant
-/

variable {host : IndexHost vec score}

/-- The two maps are those of the live set and lead to its vectors.  There may
be other entries: those of removed ids, and older ones of ids that were added
again. -/
structure Tracks (host : IndexHost vec score) (st : FaissState vec)
    (live : LiveSet vec) : Prop where
  ids : live.ids.Nodup
  removed : forall chunk_id, (st.reverse_map chunk_id).isSome = true <->
    chunk_id ∈ live.ids
  entry : forall chunk_id i, st.reverse_map chunk_id = some i ->
    st.chunk_ids[i]? = some chunk_id
  position : forall i chunk_id, st.id_map i = some chunk_id <->
    st.reverse_map chunk_id = some i
  ranked : (rankedVectors host st).length = st.chunk_ids.length
  vector : forall (i : Nat) (pair : Nat × vec),
    st.reverse_map pair.1 = some i -> pair ∈ live ->
      (rankedVectors host st)[i]? = some (host.metric.normalize pair.2)
  normal : forall v, v ∈ rankedVectors host st -> host.metric.normalize v = v
  raw : st.vectors = [] ∨
    st.vectors.map host.metric.normalize = rankedVectors host st
  plain : host.faiss = false -> st.index = none

theorem Tracks.place
    {st : FaissState vec} {live : LiveSet vec} (h : Tracks host st live)
    {chunk_id : Nat} (hlive : chunk_id ∈ live.ids) :
    exists i, st.reverse_map chunk_id = some i :=
  Option.isSome_iff_exists.mp ((h.removed chunk_id).mpr hlive)

theorem Tracks.chunkAt_some
    {st : FaissState vec} {live : LiveSet vec} (h : Tracks host st live)
    {i chunk_id : Nat} :
    chunkAt st i = some chunk_id <-> st.reverse_map chunk_id = some i := by
  unfold chunkAt
  cases hmap : st.id_map i with
  | none =>
      constructor
      · intro hnone
        cases hnone
      · intro hplace
        rw [(h.position i chunk_id).mpr hplace] at hmap
        cases hmap
  | some found =>
      have hfound := (h.position i found).mp hmap
      dsimp only
      rw [hfound, ← h.position, hmap]
      rfl

/-- The invariant does not tell equal live sets apart. -/
theorem Tracks.congr
    {st : FaissState vec} {live live' : LiveSet vec} (h : Tracks host st live)
    (hids : live'.ids.Nodup)
    (hsame : forall chunk_id, chunk_id ∈ live'.ids <-> chunk_id ∈ live.ids)
    (hvectors : forall pair, pair ∈ live' -> exists v,
      (pair.1, v) ∈ live ∧
        host.metric.normalize v = host.metric.normalize pair.2) :
    Tracks host st live' where
  ids := hids
  removed := by
    intro chunk_id
    rw [h.removed, hsame]
  entry := h.entry
  position := h.position
  ranked := h.ranked
  vector := by
    intro i pair hi hpair
    rcases hvectors pair hpair with ⟨v, hv, hnormal⟩
    rw [← hnormal]
    exact h.vector i (pair.1, v) hi hv
  normal := h.normal
  raw := h.raw
  plain := h.plain

theorem tracks_empty (host : IndexHost vec score) :
    Tracks host (FaissState.empty : FaissState vec) [] where
  ids := List.nodup_nil
  removed := by
    intro chunk_id
    simp [FaissState.empty, LiveSet.ids]
  entry := by
    intro chunk_id i hnone
    cases hnone
  position := by
    intro i chunk_id
    simp [FaissState.empty]
  ranked := by
    unfold rankedVectors liveIndex FaissState.empty
    simp
  vector := by
    intro i pair _ hpair
    cases hpair
  normal := by
    unfold rankedVectors liveIndex FaissState.empty
    simp
  raw := Or.inl rfl
  plain := fun _ => rfl

/-!
## Building keeps the invariant
-/

theorem foldl_update
    {ids : List Nat} (hids : ids.Nodup) (map : Nat -> Option Nat) (start : Nat)
    (chunk_id i : Nat) :
    (ids.zipIdx start).foldl
        (fun (map : Nat -> Option Nat) (entry : Nat × Nat) =>
          Function.update map entry.1 (some entry.2)) map chunk_id = some i <->
      (start ≤ i ∧ ids[i - start]? = some chunk_id) ∨
        (chunk_id ∉ ids ∧ map chunk_id = some i) := by
  induction ids generalizing map start with
  | nil =>
      simp
  | cons first rest ih =>
      have hrest := List.nodup_cons.mp hids
      rw [List.zipIdx_cons, List.foldl_cons, ih hrest.right]
      by_cases hfirst : chunk_id = first
      · rw [hfirst, Function.update_self]
        constructor
        · intro h
          rcases h with ⟨hle, hi⟩ | ⟨_, hi⟩
          · exact absurd (List.mem_of_getElem? hi) hrest.left
          · rw [← Option.some.inj hi]
            apply Or.inl
            simp
        · intro h
          rcases h with ⟨hle, hi⟩ | ⟨hnot, _⟩
          · apply Or.inr
            refine ⟨hrest.left, ?_⟩
            cases hpos : i - start with
            | zero =>
                have heq : start = i := by omega
                rw [heq]
            | succ j =>
                rw [hpos, List.getElem?_cons_succ] at hi
                exact absurd (List.mem_of_getElem? hi) hrest.left
          · exact absurd (List.mem_cons_self ..) hnot
      · rw [Function.update_of_ne hfirst]
        constructor
        · intro h
          rcases h with ⟨hle, hi⟩ | ⟨hnot, hmap⟩
          · apply Or.inl
            have hpos : i - start = (i - (start + 1)) + 1 := by omega
            rw [hpos, List.getElem?_cons_succ]
            exact ⟨by omega, hi⟩
          · apply Or.inr
            refine ⟨?_, hmap⟩
            intro hmem
            rcases List.mem_cons.mp hmem with heq | htail
            · exact hfirst heq
            · exact hnot htail
        · intro h
          rcases h with ⟨hle, hi⟩ | ⟨hnot, hmap⟩
          · apply Or.inl
            cases hpos : i - start with
            | zero =>
                rw [hpos, List.getElem?_cons_zero] at hi
                exact absurd (Option.some.inj hi).symm hfirst
            | succ j =>
                rw [hpos, List.getElem?_cons_succ] at hi
                have hprev : i - (start + 1) = j := by omega
                rw [hprev]
                exact ⟨by omega, hi⟩
          · exact Or.inr ⟨fun hmem => hnot (List.mem_cons_of_mem _ hmem), hmap⟩

theorem reverseMap_some
    {ids : List Nat} (hids : ids.Nodup) {chunk_id i : Nat} :
    reverseMap ids chunk_id = some i <-> ids[i]? = some chunk_id := by
  unfold reverseMap
  rw [foldl_update hids]
  simp

theorem pair_eq_of_ids
    {live : LiveSet vec} (hids : live.ids.Nodup) {pair other : Nat × vec}
    (hpair : pair ∈ live) (hother : other ∈ live) (h : pair.1 = other.1) :
    pair = other :=
  List.inj_on_of_nodup_map hids hpair hother h

/-- A full build tracks exactly what it was given. -/
theorem tracks_construct
    {pairs : List (Nat × vec)} (hids : (LiveSet.ids pairs).Nodup)
    (st : FaissState vec) : Tracks host (constructState host pairs st) pairs := by
  have hranked : rankedVectors host (constructState host pairs st) =
      (pairs.map Prod.snd).map host.metric.normalize := by
    unfold rankedVectors liveIndex constructState
    cases host.faiss with
    | false =>
        rfl
    | true =>
        rfl
  have hplace : forall chunk_id i,
      (constructState host pairs st).reverse_map chunk_id = some i <->
        (LiveSet.ids pairs)[i]? = some chunk_id := by
    intro chunk_id i
    exact reverseMap_some hids
  constructor
  · exact hids
  · intro chunk_id
    constructor
    · intro hsome
      rcases Option.isSome_iff_exists.mp hsome with ⟨i, hi⟩
      exact List.mem_of_getElem? ((hplace chunk_id i).mp hi)
    · intro hlive
      rcases List.getElem?_of_mem hlive with ⟨i, hi⟩
      rw [(hplace chunk_id i).mpr hi]
      rfl
  · exact fun chunk_id i hi => (hplace chunk_id i).mp hi
  · exact fun i chunk_id => (hplace chunk_id i).symm
  · rw [hranked]
    show _ = (pairs.map Prod.fst).length
    simp
  · intro i pair hi hpair
    rw [hranked]
    have hpair_at : pairs[i]? = some pair := by
      have hfst : (pairs.map Prod.fst)[i]? = some pair.1 :=
        (hplace pair.1 i).mp hi
      rw [List.getElem?_map, Option.map_eq_some_iff] at hfst
      rcases hfst with ⟨found, hfound, heq⟩
      rw [hfound, pair_eq_of_ids hids (List.mem_of_getElem? hfound) hpair heq]
    simp [hpair_at]
  · rw [hranked]
    intro v hv
    rcases List.mem_map.mp hv with ⟨w, _, heq⟩
    rw [← heq, host.metric.normalize_idem]
  · rw [hranked]
    exact Or.inr rfl
  · intro hfaiss
    show (if host.faiss then _ else none) = none
    rw [hfaiss]
    rfl

theorem tracks_clear
    {st : FaissState vec} : Tracks host (clearIndex st) [] where
  ids := List.nodup_nil
  removed := by
    intro chunk_id
    simp [clearIndex, LiveSet.ids]
  entry := by
    intro chunk_id i hnone
    cases hnone
  position := by
    intro i chunk_id
    simp [clearIndex]
  ranked := by
    unfold rankedVectors liveIndex clearIndex
    simp
  vector := by
    intro i pair _ hpair
    cases hpair
  normal := by
    unfold rankedVectors liveIndex clearIndex
    simp
  raw := Or.inl rfl
  plain := fun _ => rfl

/-!
## Adding
-/

theorem mem_ids {live : LiveSet vec} {chunk_id : Nat} :
    chunk_id ∈ live.ids <-> exists v, (chunk_id, v) ∈ live := by
  constructor
  · intro h
    rcases List.mem_map.mp h with ⟨pair, hpair, heq⟩
    rw [← heq]
    exact ⟨pair.2, hpair⟩
  · intro h
    rcases h with ⟨v, hv⟩
    exact List.mem_map.mpr ⟨(chunk_id, v), hv, rfl⟩

/-- Raw vectors, where there are as many as entries, are the ranked ones. -/
theorem Tracks.aligned
    {st : FaissState vec} {live : LiveSet vec} (h : Tracks host st live)
    (hlength : st.vectors.length = st.chunk_ids.length) :
    st.vectors.map host.metric.normalize = rankedVectors host st := by
  rcases h.raw with hnone | hsame
  · rw [hnone] at hlength
    have hranked := h.ranked
    rw [← hlength] at hranked
    rw [hnone, List.map_nil]
    exact (List.eq_nil_of_length_eq_zero hranked).symm
  · exact hsame

theorem Tracks.aligned_nil
    {st : FaissState vec} {live : LiveSet vec} (h : Tracks host st live)
    (hempty : st.chunk_ids = []) :
    st.vectors.map host.metric.normalize = rankedVectors host st := by
  have hranked := h.ranked
  rw [hempty] at hranked
  have hnil := List.eq_nil_of_length_eq_zero hranked
  rcases h.raw with hnone | hsame
  · rw [hnone, List.map_nil, hnil]
  · exact hsame

theorem reconstruct_some
    {st : FaissState vec} {live : LiveSet vec} (h : Tracks host st live)
    {vectors : List vec} (hvectors : reconstructVectors host st = some vectors) :
    vectors = rankedVectors host st ∧ st.index = some vectors := by
  unfold reconstructVectors at hvectors
  cases hindex : st.index with
  | none =>
      rw [hindex] at hvectors
      cases hvectors
  | some vecs =>
      rw [hindex] at hvectors
      dsimp only at hvectors
      split at hvectors
      · cases hfaiss : host.faiss with
        | false =>
            rw [h.plain hfaiss] at hindex
            cases hindex
        | true =>
            rw [← Option.some.inj hvectors]
            unfold rankedVectors liveIndex
            rw [hfaiss, if_pos rfl, hindex]
            exact ⟨rfl, rfl⟩
      · cases hvectors

/-- Recovered vectors are as good as the ranked ones. -/
theorem Tracks.recovered
    {st : FaissState vec} {live : LiveSet vec} (h : Tracks host st live)
    {vectors : List vec} (hvectors : reconstructVectors host st = some vectors) :
    Tracks host { st with vectors := vectors } live ∧
      rankedVectors host { st with vectors := vectors } =
        rankedVectors host st ∧
      vectors.map host.metric.normalize = rankedVectors host st := by
  rcases reconstruct_some h hvectors with ⟨hranked, hindex⟩
  have hsame : rankedVectors host { st with vectors := vectors } =
      rankedVectors host st := by
    rw [← hranked]
    unfold rankedVectors liveIndex
    dsimp only
    cases hfaiss : host.faiss with
    | false =>
        rw [h.plain hfaiss] at hindex
        cases hindex
    | true =>
        rw [if_pos rfl, hindex]
  have hnormal : vectors.map host.metric.normalize = rankedVectors host st := by
    rw [hranked]
    exact (List.map_congr_left (g := id) h.normal).trans (List.map_id _)
  constructor
  · exact
      { h with
        ranked := by
          rw [hsame]
          exact h.ranked
        vector := by
          rw [hsame]
          exact h.vector
        normal := by
          rw [hsame]
          exact h.normal
        raw := by
          rw [hsame]
          exact Or.inr hnormal }
  · exact ⟨hsame, hnormal⟩

theorem ranked_append
    {st : FaissState vec} {chunk_id : Nat} {v : vec} {vectors : List vec}
    (hvectors : (liveIndex host st).isSome = true ∨
      vectors.map host.metric.normalize =
        rankedVectors host st ++ [host.metric.normalize v]) :
    rankedVectors host (appendEntry host chunk_id v vectors st) =
      rankedVectors host st ++ [host.metric.normalize v] := by
  unfold rankedVectors liveIndex appendEntry indexAdd at *
  dsimp only at *
  cases hfaiss : host.faiss with
  | false =>
      rw [hfaiss] at hvectors
      simp at hvectors ⊢
      exact hvectors
  | true =>
      rw [hfaiss] at hvectors
      cases hindex : st.index with
      | none =>
          rw [hindex] at hvectors
          simp at hvectors ⊢
          exact hvectors
      | some vecs =>
          simp

theorem tracks_append
    {st : FaissState vec} {live : LiveSet vec} (h : Tracks host st live)
    {chunk_id : Nat} {v : vec} (hnew : chunk_id ∉ live.ids)
    {vectors : List vec}
    (hvectors : (vectors = [] ∧ (liveIndex host st).isSome = true) ∨
      vectors.map host.metric.normalize =
        rankedVectors host st ++ [host.metric.normalize v]) :
    Tracks host (appendEntry host chunk_id v vectors st)
      (live ++ [(chunk_id, v)]) := by
  have hranked : rankedVectors host (appendEntry host chunk_id v vectors st) =
      rankedVectors host st ++ [host.metric.normalize v] := by
    apply ranked_append
    rcases hvectors with hindex | hraw
    · exact Or.inl hindex.right
    · exact Or.inr hraw
  have hids : LiveSet.ids (live ++ [(chunk_id, v)]) = live.ids ++ [chunk_id] := by
    unfold LiveSet.ids
    rw [List.map_append]
    rfl
  have hmap : forall c, (appendEntry host chunk_id v vectors st).reverse_map c =
      Function.update st.reverse_map chunk_id (some st.chunk_ids.length) c :=
    fun _ => rfl
  constructor
  · rw [hids]
    exact List.Nodup.append h.ids (List.nodup_singleton _) (by
      intro c hc hlast
      rw [List.mem_singleton.mp hlast] at hc
      exact hnew hc)
  · intro c
    rw [hmap, hids, List.mem_append, List.mem_singleton]
    by_cases hc : c = chunk_id
    · rw [hc, Function.update_self]
      simp
    · rw [Function.update_of_ne hc, h.removed]
      simp [hc]
  · intro c i hi
    show (st.chunk_ids ++ [chunk_id])[i]? = some c
    rw [hmap] at hi
    by_cases hc : c = chunk_id
    · rw [hc, Function.update_self] at hi
      rw [← Option.some.inj hi, hc]
      simp
    · rw [Function.update_of_ne hc] at hi
      have hentry := h.entry c i hi
      rw [List.getElem?_append_left (List.getElem?_eq_some_iff.mp hentry).fst]
      exact hentry
  · intro i c
    show Function.update st.id_map st.chunk_ids.length (some chunk_id) i =
      some c <-> _
    rw [hmap]
    by_cases hi : i = st.chunk_ids.length
    · rw [hi, Function.update_self]
      by_cases hc : c = chunk_id
      · rw [hc, Function.update_self]
        simp
      · rw [Function.update_of_ne hc]
        constructor
        · intro heq
          exact absurd (Option.some.inj heq).symm hc
        · intro hplace
          have hentry := h.entry c _ hplace
          rw [List.getElem?_eq_none (Nat.le_refl _)] at hentry
          cases hentry
    · rw [Function.update_of_ne hi]
      by_cases hc : c = chunk_id
      · rw [hc, Function.update_self, h.position]
        constructor
        · intro hplace
          exact absurd ((h.removed chunk_id).mp (by rw [hplace]; rfl)) hnew
        · intro heq
          exact absurd (Option.some.inj heq).symm hi
      · rw [Function.update_of_ne hc, h.position]
  · rw [hranked]
    show _ = (st.chunk_ids ++ [chunk_id]).length
    rw [List.length_append, List.length_append, h.ranked]
    rfl
  · intro i pair hi hpair
    rw [hranked]
    rw [hmap] at hi
    rcases List.mem_append.mp hpair with hmem | hsame
    · have hne : pair.1 ≠ chunk_id := by
        intro heq
        apply hnew
        rw [← heq]
        exact mem_ids.mpr ⟨pair.2, hmem⟩
      rw [Function.update_of_ne hne] at hi
      have hlt := (List.getElem?_eq_some_iff.mp (h.entry pair.1 i hi)).fst
      rw [List.getElem?_append_left (by rw [h.ranked]; exact hlt)]
      exact h.vector i pair hi hmem
    · rw [List.mem_singleton.mp hsame, Function.update_self] at hi
      rw [List.mem_singleton.mp hsame, ← Option.some.inj hi, ← h.ranked]
      simp
  · rw [hranked]
    intro w hw
    rcases List.mem_append.mp hw with hold | hlast
    · exact h.normal w hold
    · rw [List.mem_singleton.mp hlast, host.metric.normalize_idem]
  · rw [hranked]
    rcases hvectors with hindex | hraw
    · exact Or.inl hindex.left
    · exact Or.inr hraw
  · intro hfaiss
    show indexAdd host v st.index = none
    unfold indexAdd
    rw [hfaiss, if_neg Bool.false_ne_true]
    exact h.plain hfaiss

/-- An id that is not removed has one entry only. -/
def Fresh (st : FaissState vec) : Prop :=
  forall chunk_id i j, st.chunk_ids[i]? = some chunk_id ->
    st.reverse_map chunk_id = some j -> i = j

omit [LinearOrder score] in
theorem liveEntries_nodup
    {st : FaissState vec} (hfresh : Fresh st) {vectors : List vec}
    (hlength : vectors.length = st.chunk_ids.length) :
    (LiveSet.ids (liveEntries st vectors)).Nodup := by
  unfold LiveSet.ids liveEntries List.Nodup
  rw [List.pairwise_map, List.pairwise_filter, List.pairwise_iff_getElem]
  intro i j hi hj hlt hfirst _ heq
  have hat : forall (n : Nat) (hn : n < (st.chunk_ids.zip vectors).length),
      st.chunk_ids[n]? = some (st.chunk_ids.zip vectors)[n].1 := by
    intro n hn
    rw [List.length_zip] at hn
    rw [List.getElem_zip, List.getElem?_eq_getElem (by omega)]
  rcases Option.isSome_iff_exists.mp hfirst with ⟨place, hplace⟩
  have hleft := hfresh _ i place (hat i hi) hplace
  rw [heq] at hplace
  have hright := hfresh _ j place (hat j hj) hplace
  omega

/-- Building again from the entries that are live. -/
theorem tracks_rebuilt
    {st : FaissState vec} {live : LiveSet vec} (h : Tracks host st live)
    (hfresh : Fresh st) {vectors : List vec}
    (hvectors : vectors.map host.metric.normalize = rankedVectors host st)
    (st' : FaissState vec) :
    Tracks host (constructState host (liveEntries st vectors) st') live := by
  have hlength : vectors.length = st.chunk_ids.length := by
    rw [← h.ranked, ← hvectors, List.length_map]
  have hids := liveEntries_nodup hfresh hlength
  -- each live id has its entry, with a vector in the same direction
  have hentry : forall pair, pair ∈ live -> exists v,
      (pair.1, v) ∈ liveEntries st vectors ∧
        host.metric.normalize v = host.metric.normalize pair.2 := by
    intro pair hpair
    have hlive : pair.1 ∈ live.ids := mem_ids.mpr ⟨pair.2, hpair⟩
    rcases h.place hlive with ⟨i, hi⟩
    have hranked := h.vector i pair hi hpair
    rw [← hvectors, List.getElem?_map, Option.map_eq_some_iff] at hranked
    rcases hranked with ⟨v, hv, hnormal⟩
    refine ⟨v, ?_, hnormal⟩
    apply List.mem_filter.mpr
    constructor
    · apply List.mem_of_getElem? (i := i)
      rw [List.getElem?_zip_eq_some]
      exact ⟨h.entry pair.1 i hi, hv⟩
    · exact (h.removed pair.1).mpr hlive
  apply (tracks_construct hids st').congr h.ids
  · intro chunk_id
    constructor
    · intro hlive
      rcases mem_ids.mp hlive with ⟨v, hv⟩
      rcases hentry _ hv with ⟨w, hw, _⟩
      exact mem_ids.mpr ⟨w, hw⟩
    · intro hmem
      rcases mem_ids.mp hmem with ⟨w, hw⟩
      exact (h.removed chunk_id).mp (List.mem_filter.mp hw).right
  · intro pair hpair
    exact hentry pair hpair

/-- No entry is that of a removed id, or an older one. -/
def Compact (st : FaissState vec) : Prop :=
  st.chunk_ids.Nodup ∧ forall chunk_id, chunk_id ∈ st.chunk_ids ->
    (st.reverse_map chunk_id).isSome = true

theorem Tracks.fresh
    {st : FaissState vec} {live : LiveSet vec} (h : Tracks host st live)
    (hnodup : st.chunk_ids.Nodup) : Fresh st := by
  intro chunk_id i j hi hj
  have hj' := h.entry chunk_id j hj
  exact (List.getElem?_inj (List.getElem?_eq_some_iff.mp hi).fst hnodup).mp
    (hi.trans hj'.symm)

theorem liveEntries_compact
    {st : FaissState vec} (h : Compact st) (vectors : List vec) :
    liveEntries st vectors = st.chunk_ids.zip vectors := by
  apply List.filter_eq_self.mpr
  intro entry hentry
  exact h.right entry.1 (List.of_mem_zip hentry).left

/-- An id that is not there; and where the index is about to change its kind,
no removed entry is either. -/
structure AddsWell (host : IndexHost vec score) (chunk_id : Nat)
    (st : FaissState vec) : Prop where
  new : (st.reverse_map chunk_id).isSome = false
  compact : host.faiss = true -> st.current_type = IndexType.flat ->
    host.faiss_index_type = FaissIndexType.auto ->
    host.hnsw_threshold ≤ st.count + 1 ->
      Compact st ∧ chunk_id ∉ st.chunk_ids

theorem compact_append
    {st : FaissState vec} (h : Compact st) {chunk_id : Nat}
    (hnew : chunk_id ∉ st.chunk_ids) (v : vec) (vectors : List vec) :
    Compact (appendEntry host chunk_id v vectors st) := by
  constructor
  · exact List.Nodup.append h.left (List.nodup_singleton _) (by
      intro c hc hlast
      rw [List.mem_singleton.mp hlast] at hc
      exact hnew hc)
  · intro c hc
    show (Function.update st.reverse_map chunk_id (some st.chunk_ids.length)
      c).isSome = true
    by_cases heq : c = chunk_id
    · rw [heq, Function.update_self]
      rfl
    · rw [Function.update_of_ne heq]
      rcases List.mem_append.mp hc with hold | hlast
      · exact h.right c hold
      · exact absurd (List.mem_singleton.mp hlast) heq

theorem AddsWell.gone
    {st : FaissState vec} {live : LiveSet vec} {chunk_id : Nat}
    (hwell : AddsWell host chunk_id st) (h : Tracks host st live) :
    chunk_id ∉ live.ids := by
  intro hlive
  have hsome := (h.removed chunk_id).mpr hlive
  rw [hwell.new] at hsome
  cases hsome

theorem tracks_addPaired
    {st : FaissState vec} {live : LiveSet vec} (h : Tracks host st live)
    {chunk_id : Nat} {v : vec} (hwell : AddsWell host chunk_id st)
    (hraw : st.vectors.map host.metric.normalize = rankedVectors host st) :
    Tracks host (addPaired host chunk_id v st) (live ++ [(chunk_id, v)]) := by
  have hraw' : (st.vectors ++ [v]).map host.metric.normalize =
      rankedVectors host st ++ [host.metric.normalize v] := by
    rw [List.map_append, hraw]
    rfl
  have hadded := tracks_append h (hwell.gone h) (Or.inr hraw')
  unfold addPaired
  dsimp only
  split
  · rename_i hcrosses
    unfold crossesThreshold at hcrosses
    simp only [Bool.and_eq_true, decide_eq_true_eq] at hcrosses
    have hcount : (appendEntry host chunk_id v (st.vectors ++ [v]) st).count =
        st.count + 1 := by
      show (st.chunk_ids ++ [chunk_id]).length = _
      rw [List.length_append]
      rfl
    rw [hcount] at hcrosses
    have hbefore := hwell.compact hcrosses.left.left.left.left
      hcrosses.left.left.right hcrosses.left.right hcrosses.right
    have hcompact : Compact
        (appendEntry host chunk_id v (st.vectors ++ [v]) st) :=
      compact_append hbefore.left hbefore.right v (st.vectors ++ [v])
    have hrebuilt := tracks_rebuilt hadded (hadded.fresh hcompact.left)
      (hraw'.trans (ranked_append (Or.inr hraw')).symm)
      (appendEntry host chunk_id v (st.vectors ++ [v]) st)
    rw [liveEntries_compact hcompact] at hrebuilt
    unfold buildFromVectors
    split
    · exact hadded
    · exact hrebuilt
  · exact hadded

theorem tracks_addVector
    {st : FaissState vec} {live : LiveSet vec} (h : Tracks host st live)
    (hwarm : st.invalidated = false) {chunk_id : Nat} {v : vec}
    (hwell : AddsWell host chunk_id st) :
    Tracks host (addVector host chunk_id v st) (live ++ [(chunk_id, v)]) := by
  unfold addVector
  rw [if_neg (by rw [hwarm]; exact Bool.false_ne_true)]
  split
  · rename_i hshort
    rw [Bool.and_eq_true, decide_eq_true_eq] at hshort
    split
    · rename_i hnone
      apply tracks_append h (hwell.gone h)
      refine Or.inl ⟨rfl, ?_⟩
      -- without an index the raw vectors would be there
      rw [← Bool.not_eq_false]
      intro hindex
      apply hshort.right
      have hranked := h.ranked
      unfold rankedVectors at hranked
      cases hlive : liveIndex host st with
      | none =>
          rw [hlive] at hranked
          simpa using hranked
      | some vecs =>
          rw [hlive] at hindex
          cases hindex
    · rename_i vectors hsome
      rcases h.recovered hsome with ⟨htracks, hsame, hraw⟩
      exact tracks_addPaired htracks ⟨hwell.new, hwell.compact⟩
        (hraw.trans hsame.symm)
  · rename_i hpaired
    apply tracks_addPaired h hwell
    cases hids : st.chunk_ids with
    | nil =>
        exact h.aligned_nil hids
    | cons first rest =>
        apply h.aligned
        rw [hids] at hpaired ⊢
        simpa using hpaired

/-!
## Removing and rebuilding
-/

theorem mem_erase_ids {live : LiveSet vec} {chunk_id c : Nat} :
    c ∈ (live.erase chunk_id).ids <-> c ≠ chunk_id ∧ c ∈ live.ids := by
  constructor
  · intro h
    rcases mem_ids.mp h with ⟨v, hv⟩
    rcases List.mem_filter.mp hv with ⟨hmem, hne⟩
    exact ⟨of_decide_eq_true hne, mem_ids.mpr ⟨v, hmem⟩⟩
  · intro h
    rcases mem_ids.mp h.right with ⟨v, hv⟩
    exact mem_ids.mpr ⟨v, List.mem_filter.mpr ⟨hv, decide_eq_true h.left⟩⟩

theorem erase_ids_nodup
    {live : LiveSet vec} (h : live.ids.Nodup) (chunk_id : Nat) :
    (live.erase chunk_id).ids.Nodup :=
  h.sublist (List.filter_sublist.map _)

theorem tracks_remove
    {st : FaissState vec} {live : LiveSet vec} (h : Tracks host st live)
    (chunk_id : Nat) :
    Tracks host (removeVector chunk_id st) (live.erase chunk_id) := by
  unfold removeVector
  cases hpos : st.reverse_map chunk_id with
  | none =>
      have hgone : chunk_id ∉ live.ids := by
        intro hmem
        have hsome := (h.removed chunk_id).mpr hmem
        rw [hpos] at hsome
        cases hsome
      apply h.congr (erase_ids_nodup h.ids chunk_id)
      · intro c
        rw [mem_erase_ids]
        constructor
        · exact fun hc => hc.right
        · intro hc
          refine ⟨?_, hc⟩
          intro heq
          rw [heq] at hc
          exact hgone hc
      · intro pair hpair
        exact ⟨pair.2, (List.mem_filter.mp hpair).left, rfl⟩
  | some idx =>
      -- what is left in the map of positions
      have hleft : forall c i,
          Function.update st.reverse_map chunk_id none c = some i <->
            c ≠ chunk_id ∧ st.reverse_map c = some i := by
        intro c i
        by_cases hc : c = chunk_id
        · rw [hc, Function.update_self]
          simp
        · rw [Function.update_of_ne hc]
          simp [hc]
      constructor
      · exact erase_ids_nodup h.ids chunk_id
      · intro c
        show (Function.update st.reverse_map chunk_id none c).isSome = true <-> _
        rw [mem_erase_ids, ← h.removed, Option.isSome_iff_exists,
          Option.isSome_iff_exists]
        constructor
        · intro hsome
          rcases hsome with ⟨i, hi⟩
          exact ⟨((hleft c i).mp hi).left, i, ((hleft c i).mp hi).right⟩
        · intro hsome
          rcases hsome with ⟨hc, i, hi⟩
          exact ⟨i, (hleft c i).mpr ⟨hc, hi⟩⟩
      · intro c i hi
        exact h.entry c i ((hleft c i).mp hi).right
      · intro i c
        show Function.update st.id_map idx none i = some c <->
          Function.update st.reverse_map chunk_id none c = some i
        rw [hleft]
        by_cases hi : i = idx
        · rw [hi, Function.update_self]
          constructor
          · intro hnone
            cases hnone
          · intro hplace
            have hone := h.entry c idx hplace.right
            rw [h.entry chunk_id idx hpos] at hone
            exact absurd (Option.some.inj hone).symm hplace.left
        · rw [Function.update_of_ne hi, h.position]
          constructor
          · intro hplace
            refine ⟨?_, hplace⟩
            intro heq
            rw [heq, hpos] at hplace
            exact hi (Option.some.inj hplace).symm
          · exact fun hplace => hplace.right
      · exact h.ranked
      · intro i pair hi hpair
        exact h.vector i pair ((hleft pair.1 i).mp hi).right
          (List.mem_filter.mp hpair).left
      · exact h.normal
      · exact h.raw
      · exact h.plain

theorem Tracks.of_empty
    {st : FaissState vec} {live : LiveSet vec} (h : Tracks host st live)
    (hempty : st.chunk_ids = []) : live = [] := by
  cases live with
  | nil =>
      rfl
  | cons pair rest =>
      rcases h.place (mem_ids.mpr ⟨pair.2, List.mem_cons_self ..⟩) with ⟨i, hi⟩
      have hentry := h.entry pair.1 i hi
      rw [hempty] at hentry
      cases hentry

theorem tracks_rebuildWith
    {st : FaissState vec} {live : LiveSet vec} (h : Tracks host st live)
    (hfresh : Fresh st) {vectors : List vec}
    (hvectors : vectors.map host.metric.normalize = rankedVectors host st) :
    Tracks host (rebuildWith host vectors st) live := by
  have hrebuilt := tracks_rebuilt h hfresh hvectors st
  unfold rebuildWith
  dsimp only
  split
  · rename_i hempty
    rw [List.isEmpty_iff] at hempty
    rw [hempty] at hrebuilt
    rw [hrebuilt.of_empty rfl]
    exact tracks_clear
  · exact hrebuilt

theorem tracks_rebuild
    {st : FaissState vec} {live : LiveSet vec} (h : Tracks host st live)
    (hfresh : Fresh st) : Tracks host (rebuild host st) live := by
  unfold rebuild
  split
  · exact h
  · split
    · split
      · exact h
      · rename_i vectors hsome
        exact tracks_rebuildWith h hfresh (h.recovered hsome).right.right
    · rename_i hsome
      apply tracks_rebuildWith h hfresh
      rcases h.raw with hnone | hsame
      · rw [hnone] at hsome
        exact absurd rfl hsome
      · exact hsame

/-!
## Restoring
-/

/-- A restore of a state in which no removed id has an entry. -/
theorem tracks_load
    {old st : FaissState vec} {live : LiveSet vec} (h : Tracks host old live)
    {saved : SavedIndex vec} (hindex : saved.index = old.index)
    (hvectors : saved.vectors = old.vectors)
    (hids : saved.chunk_ids = old.chunk_ids)
    (hnodup : saved.chunk_ids.Nodup)
    (hcompact : forall chunk_id, chunk_id ∈ saved.chunk_ids ->
      chunk_id ∈ live.ids)
    {checksum : String}
    (hload : (tryLoadFromDisk host (some saved) checksum st).1 = true) :
    Tracks host (tryLoadFromDisk host (some saved) checksum st).2 live := by
  unfold tryLoadFromDisk at hload ⊢
  dsimp only at hload ⊢
  split at hload
  · cases hload
  · rename_i hchecksum
    rw [if_neg hchecksum]
    cases hvecs : saved.index with
    | some vecs =>
        dsimp only
        have hfaiss : host.faiss = true := by
          rw [← Bool.not_eq_false]
          intro hfalse
          rw [hindex, h.plain hfalse] at hvecs
          cases hvecs
        have hranked : rankedVectors host (restoredState saved vecs st) =
            rankedVectors host old := by
          unfold rankedVectors liveIndex restoredState
          rw [hfaiss, if_pos rfl, if_pos rfl, ← hindex, hvecs]
        have hplace : forall c i,
            reverseMap saved.chunk_ids c = some i <->
              saved.chunk_ids[i]? = some c :=
          fun c i => reverseMap_some hnodup
        have hentries : forall c, c ∈ saved.chunk_ids <-> c ∈ live.ids := by
          intro c
          constructor
          · exact hcompact c
          · intro hc
            rcases h.place hc with ⟨i, hi⟩
            rw [hids]
            exact List.mem_of_getElem? (h.entry c i hi)
        have hrestored : Tracks host (restoredState saved vecs st) live := by
          constructor
          · exact h.ids
          · intro c
            show (reverseMap saved.chunk_ids c).isSome = true <-> _
            rw [← hentries, Option.isSome_iff_exists,
              List.mem_iff_getElem?]
            constructor
            · intro hsome
              rcases hsome with ⟨i, hi⟩
              exact ⟨i, (hplace c i).mp hi⟩
            · intro hmem
              rcases hmem with ⟨i, hi⟩
              exact ⟨i, (hplace c i).mpr hi⟩
          · exact fun c i hi => (hplace c i).mp hi
          · exact fun i c => (hplace c i).symm
          · rw [hranked]
            show _ = saved.chunk_ids.length
            rw [hids]
            exact h.ranked
          · intro i pair hi hpair
            rw [hranked]
            have hat := (hplace pair.1 i).mp hi
            rw [hids] at hat hnodup
            rcases h.place (mem_ids.mpr ⟨pair.2, hpair⟩) with ⟨j, hj⟩
            rw [h.fresh hnodup pair.1 i j hat hj]
            exact h.vector j pair hj hpair
          · rw [hranked]
            exact h.normal
          · exact Or.inl rfl
          · intro hfalse
            rw [hfaiss] at hfalse
            cases hfalse
        cases hrecovered : reconstructVectors host
            (restoredState saved vecs st) with
        | none =>
            exact hrestored
        | some vectors =>
            exact (hrestored.recovered hrecovered).left
    | none =>
        rw [hvecs] at hload
        dsimp only at hload ⊢
        split at hload
        · cases hload
        · rename_i hnonempty
          rw [if_neg hnonempty]
          have hraw : old.vectors.map host.metric.normalize =
              rankedVectors host old := by
            rcases h.raw with hnone | hsame
            · rw [hvectors, hnone] at hnonempty
              exact absurd rfl hnonempty
            · exact hsame
          rw [hids] at hnodup hcompact
          have hold : Compact old :=
            ⟨hnodup, fun c hc => (h.removed c).mpr (hcompact c hc)⟩
          have hrebuilt := tracks_rebuilt h (h.fresh hnodup) hraw st
          rw [liveEntries_compact hold, ← hids, ← hvectors] at hrebuilt
          dsimp only
          unfold buildFromVectors
          split
          · rename_i hempty
            rw [List.isEmpty_iff] at hempty
            have hlengths : saved.vectors.length = saved.chunk_ids.length := by
              rw [hvectors, hids, ← h.ranked, ← hraw, List.length_map]
            have hnil : saved.vectors = [] := by
              rcases List.zip_eq_nil_iff.mp hempty with hnone | hnone
              · rw [hnone] at hlengths
                exact List.eq_nil_of_length_eq_zero hlengths
              · exact hnone
            rw [hnil] at hnonempty
            exact absurd rfl hnonempty
          · exact hrebuilt

/-!
## Searching
-/

def liveAt (st : FaissState vec) (i : Nat) : Bool :=
  (chunkAt st i).isSome

omit [LinearOrder score] in
theorem collectHits_eq
    (st : FaissState vec) {top_k : Nat} (hits : List (score × Nat))
    (results : List (Nat × score)) (h : results.length < top_k) :
    collectHits st top_k hits results = results ++
      ((countedHits (liveAt st) (top_k - results.length) hits).map fun hit =>
        ((chunkAt st hit.2).getD 0, hit.1)) := by
  induction hits generalizing results with
  | nil =>
      unfold collectHits countedHits
      simp
  | cons hit rest ih =>
      rcases hit with ⟨s, idx⟩
      unfold collectHits
      cases hchunk : chunkAt st idx with
      | none =>
          have hdead : liveAt st idx = false := by
            unfold liveAt
            rw [hchunk]
            rfl
          dsimp only
          rw [if_neg (by omega), ih results h]
          unfold countedHits
          rw [List.filter_cons_of_neg (by rw [hdead]; exact Bool.false_ne_true)]
      | some chunk_id =>
          have hlive : liveAt st idx = true := by
            unfold liveAt
            rw [hchunk]
            rfl
          have hcounted : countedHits (liveAt st) (top_k - results.length)
              ((s, idx) :: rest) =
              (s, idx) :: countedHits (liveAt st)
                (top_k - results.length - 1) rest := by
            unfold countedHits
            rw [List.filter_cons_of_pos
              (p := fun hit : score × Nat => liveAt st hit.2) hlive]
            have hsucc : top_k - results.length =
                (top_k - results.length - 1) + 1 := by omega
            rw [hsucc, List.take_succ_cons]
            rfl
          rw [hcounted, List.map_cons, hchunk]
          dsimp only [Option.getD]
          split
          · rename_i hfull
            rw [List.length_append] at hfull
            have hlast : top_k - results.length - 1 = 0 := by
              have hone : [(chunk_id, s)].length = 1 := rfl
              omega
            rw [hlast]
            unfold countedHits
            rw [List.take_zero]
            rfl
          · rename_i hmore
            rw [ih _ (by omega), List.append_assoc, List.length_append]
            have hrest : top_k - (results.length + [(chunk_id, s)].length) =
                top_k - results.length - 1 := by
              have hone : [(chunk_id, s)].length = 1 := rfl
              omega
            rw [hrest]
            rfl

theorem Tracks.rankedHits
    {st : FaissState vec} {live : LiveSet vec} (h : Tracks host st live)
    (query : vec) (top_k : Nat) :
    exists m, min (2 * top_k) st.count ≤ m ∧
      IsTopK (similarities host query st) m (rankedHits host query top_k st) ∧
      (similarities host query st).length = st.count := by
  refine ⟨_, ?_, host.topK.exact _ _, ?_⟩
  · split
    · omega
    · omega
  · unfold similarities
    rw [List.length_map]
    exact h.ranked

theorem search_eq
    {st : FaissState vec} {live : LiveSet vec} (h : Tracks host st live)
    (query : vec) (top_k : Nat) :
    search host query top_k st =
      (countedHits (liveAt st) top_k (rankedHits host query top_k st)).map
        fun hit => ((chunkAt st hit.2).getD 0, hit.1) := by
  rcases h.rankedHits query top_k with ⟨m, _, htop, hlength⟩
  have hno : top_k = 0 ∨ st.count = 0 ->
      (countedHits (liveAt st) top_k (rankedHits host query top_k st)).map
        (fun hit => ((chunkAt st hit.2).getD 0, hit.1)) = [] := by
    intro hzero
    rcases hzero with hzero | hzero
    · unfold countedHits
      rw [hzero, List.take_zero]
      rfl
    · have hnil : rankedHits host query top_k st = [] := by
        apply List.eq_nil_of_length_eq_zero
        rw [htop.length, hlength, hzero]
        exact Nat.min_zero _
      rw [hnil, countedHits_nil]
      rfl
  unfold search
  split
  · rename_i hzero
    exact (hno (Or.inr hzero)).symm
  · cases top_k with
    | zero =>
        have hnil : rankedHits host query 0 st = [] := by
          apply List.eq_nil_of_length_eq_zero
          unfold rankedHits
          rw [(host.topK.exact _ _).length]
          simp
        rw [hnil, countedHits_nil]
        rfl
    | succ k =>
        rw [collectHits_eq st _ [] (Nat.succ_pos k)]
        simp

/-- As many positions are live as there are live ids. -/
theorem Tracks.live_length
    {st : FaissState vec} {live : LiveSet vec} (h : Tracks host st live) :
    (countedPositions st.count (liveAt st)).length = live.length := by
  have hnodup : ((countedPositions st.count (liveAt st)).map fun i =>
      (chunkAt st i).getD 0).Nodup := by
    apply List.Nodup.map_on _ (List.nodup_range.filter _)
    intro i hi j hj heq
    rcases Option.isSome_iff_exists.mp (List.mem_filter.mp hi).right with
      ⟨a, ha⟩
    rcases Option.isSome_iff_exists.mp (List.mem_filter.mp hj).right with
      ⟨b, hb⟩
    rw [ha, hb] at heq
    have hsame : a = b := heq
    rw [← hsame] at hb
    have hj' := h.chunkAt_some.mp hb
    rw [h.chunkAt_some.mp ha] at hj'
    exact Option.some.inj hj'
  have hmem : forall c, c ∈ ((countedPositions st.count (liveAt st)).map
      fun i => (chunkAt st i).getD 0) <-> c ∈ live.ids := by
    intro c
    constructor
    · intro hc
      rcases List.mem_map.mp hc with ⟨i, hi, heq⟩
      rcases Option.isSome_iff_exists.mp (List.mem_filter.mp hi).right with
        ⟨a, ha⟩
      rw [ha] at heq
      have hsame : a = c := heq
      rw [← hsame, ← h.removed, h.chunkAt_some.mp ha]
      rfl
    · intro hc
      rcases h.place hc with ⟨i, hplace⟩
      have hi := h.entry c i hplace
      have hchunk := h.chunkAt_some.mpr hplace
      apply List.mem_map.mpr
      refine ⟨i, List.mem_filter.mpr ⟨?_, ?_⟩, ?_⟩
      · exact List.mem_range.mpr (List.getElem?_eq_some_iff.mp hi).fst
      · unfold liveAt
        rw [hchunk]
        rfl
      · rw [hchunk]
        rfl
  have hperm := (List.perm_ext_iff_of_nodup hnodup h.ids).mpr hmem
  have hlength := hperm.length_eq
  unfold LiveSet.ids at hlength
  rw [List.length_map, List.length_map] at hlength
  exact hlength

/-- The similarity at a live position is that of its id. -/
theorem Tracks.similarity
    {st : FaissState vec} {live : LiveSet vec} (h : Tracks host st live)
    (query : vec) {i : Nat} {pair : Nat × vec}
    (hi : st.reverse_map pair.1 = some i) (hpair : pair ∈ live) :
    (similarities host query st)[i]? = some
      (host.metric.inner (host.metric.normalize query)
        (host.metric.normalize pair.2)) := by
  unfold similarities
  rw [List.getElem?_map, h.vector i pair hi hpair]
  rfl

theorem serves_live
    {st : FaissState vec} {live : LiveSet vec} (h : Tracks host st live)
    (query : vec) (top_k : Nat) :
    ServesLive host.metric live query (search host query top_k st) := by
  rcases h.rankedHits query top_k with ⟨m, _, htop, hlength⟩
  rw [search_eq h]
  have hsub := countedHits_sublist (liveAt st) top_k
    (rankedHits host query top_k st)
  have hchunk : forall hit, hit ∈ countedHits (liveAt st) top_k
      (rankedHits host query top_k st) -> exists chunk_id,
      chunkAt st hit.2 = some chunk_id := by
    intro hit hhit
    exact Option.isSome_iff_exists.mp (mem_countedHits hhit).right
  constructor
  · intro result hresult
    rcases List.mem_map.mp hresult with ⟨hit, hhit, heq⟩
    rcases hchunk hit hhit with ⟨chunk_id, hid⟩
    have hplace := h.chunkAt_some.mp hid
    have hlive : chunk_id ∈ live.ids :=
      (h.removed chunk_id).mp (by rw [hplace]; rfl)
    rcases mem_ids.mp hlive with ⟨v, hv⟩
    have hs := htop.score hit (mem_countedHits hhit).left
    rw [h.similarity query hplace hv] at hs
    rw [← heq, hid]
    exact ⟨v, hv, (Option.some.inj hs).symm⟩
  · rw [List.map_map]
    have hnodup : ((countedHits (liveAt st) top_k
        (rankedHits host query top_k st)).map Prod.snd).Nodup :=
      htop.nodup.sublist (hsub.map _)
    apply List.Nodup.map_on _ (List.Nodup.of_map _ hnodup)
    intro hit hhit other hother heq
    rcases hchunk hit hhit with ⟨a, ha⟩
    rcases hchunk other hother with ⟨b, hb⟩
    have hsame : (chunkAt st hit.2).getD 0 = (chunkAt st other.2).getD 0 := heq
    rw [ha, hb] at hsame
    have hab : a = b := hsame
    rw [← hab] at hb
    have hj := h.chunkAt_some.mp hb
    rw [h.chunkAt_some.mp ha] at hj
    exact List.inj_on_of_nodup_map hnodup hhit hother (Option.some.inj hj)
  · rw [List.pairwise_map]
    exact htop.descending.sublist hsub

/-- Among the entries that the search asks for, enough are live. -/
def EnoughLive (host : IndexHost vec score) (query : vec) (top_k : Nat)
    (st : FaissState vec) : Prop :=
  Covers (similarities host query st) (liveAt st) top_k
    (rankedHits host query top_k st)

theorem serves_best
    {st : FaissState vec} {live : LiveSet vec} (h : Tracks host st live)
    {query : vec} {top_k : Nat} (henough : EnoughLive host query top_k st) :
    ServesBest host.metric live query top_k
      (search host query top_k st) := by
  rcases h.rankedHits query top_k with ⟨m, _, htop, hlength⟩
  rw [search_eq h]
  constructor
  · rw [List.length_map, htop.counted_length henough, hlength, h.live_length]
  · intro pair hpair hnot result hresult
    rcases List.mem_map.mp hresult with ⟨hit, hhit, heq⟩
    have hlive : pair.1 ∈ live.ids := mem_ids.mpr ⟨pair.2, hpair⟩
    rcases h.place hlive with ⟨i, hi⟩
    have hchunk := h.chunkAt_some.mpr hi
    have hcounts : liveAt st i = true := by
      unfold liveAt
      rw [hchunk]
      rfl
    rw [← heq]
    apply htop.counted_best (h.similarity query hi hpair) hcounts _ hit hhit
    intro hmem
    rcases List.mem_map.mp hmem with ⟨other, hother, hpos⟩
    apply hnot
    apply List.mem_map.mpr
    refine ⟨_, List.mem_map.mpr ⟨other, hother, rfl⟩, ?_⟩
    rw [hpos, hchunk]
    rfl

theorem enoughLive_of_length
    {st : FaissState vec} {live : LiveSet vec} (h : Tracks host st live)
    {query : vec} {top_k : Nat}
    (hlength : (search host query top_k st).length = min top_k live.length) :
    EnoughLive host query top_k st := by
  rcases h.rankedHits query top_k with ⟨m, _, _, hcount⟩
  rw [search_eq h, List.length_map] at hlength
  unfold countedHits at hlength
  rw [List.length_take] at hlength
  unfold EnoughLive Covers
  rw [hcount, h.live_length, ← hlength]
  exact Nat.min_le_right _ _

/-- With at most `k` removed entries, a search for `k` is exact. -/
theorem enoughLive_of_few
    {st : FaissState vec} {live : LiveSet vec} (h : Tracks host st live)
    {query : vec} {top_k : Nat} (hfew : st.count ≤ live.length + top_k) :
    EnoughLive host query top_k st := by
  rcases h.rankedHits query top_k with ⟨m, hm, htop, hlength⟩
  apply htop.covers
  · rw [hlength]
    exact hm
  · rw [hlength, h.live_length]
    exact hfew

end Law

end Daemon
end Minni
