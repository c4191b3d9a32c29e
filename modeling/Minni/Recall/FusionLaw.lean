import Mathlib.Data.List.Induction
import Minni.Recall.Fusion

/-!
# Fusion keeps lexical hits and never duplicates

The merged documents stand under their own ids, one entry for each document
that a search found.  The rank that a document keeps is the place of its first
lexical hit, so that the documents of the first lexical hits are those that the
window reserves a place for.
-/

namespace Minni
namespace Recall

open Foundation
open Foundation.Window

variable {K : Type} [Zero K] [Add K] [Div K] [NatCast K] {config : Config K}

/-!
## One entry for each document
-/

/-- Entries stand under the ids of their documents, one for each id. -/
structure Keyed {doc : Type} (idOf : doc -> Nat)
    (docs : List (Nat × doc)) : Prop where
  nodup : (docs.map (·.1)).Nodup
  key : forall entry, entry ∈ docs -> entry.1 = idOf entry.2

theorem Keyed.set {doc : Type} {idOf : doc -> Nat} {docs : List (Nat × doc)}
    (h : Keyed idOf docs) {k : Nat} {d : doc} (hd : idOf d = k) :
    Keyed idOf (Dict.set k d docs) := by
  constructor
  · exact Dict.nodup_keys_set h.nodup
  · intro entry hentry
    rcases Dict.mem_of_mem_set hentry with hnew | hold
    · rw [hnew]
      exact hd.symm
    · exact h.key entry hold

theorem Keyed.lookup {doc : Type} {idOf : doc -> Nat}
    {docs : List (Nat × doc)} (h : Keyed idOf docs) {k : Nat} {d : doc}
    (hd : docs.lookup k = some d) : idOf d = k :=
  (h.key _ (Dict.mem_of_lookup hd)).symm

theorem Keyed.getD {doc : Type} {idOf : doc -> Nat} {docs : List (Nat × doc)}
    (h : Keyed idOf docs) {k : Nat} (new : doc) (hnew : idOf new = k) :
    idOf ((docs.lookup k).getD new) = k := by
  cases hd : docs.lookup k with
  | none => exact hnew
  | some d => exact h.lookup hd

theorem Keyed.lookup_of_mem {doc : Type} {idOf : doc -> Nat}
    {docs : List (Nat × doc)} (h : Keyed idOf docs) {entry : Nat × doc}
    (hentry : entry ∈ docs) : docs.lookup entry.1 = some entry.2 := by
  cases hd : docs.lookup entry.1 with
  | none =>
      exact absurd (List.mem_map_of_mem hentry)
        (Dict.lookup_eq_none_iff.mp hd)
  | some d =>
      have hsame := List.inj_on_of_nodup_map h.nodup
        (Dict.mem_of_lookup hd) hentry rfl
      rw [← hsame]

theorem Keyed.mem_iff {doc : Type} {idOf : doc -> Nat}
    {docs : List (Nat × doc)} (h : Keyed idOf docs) {d : doc} :
    d ∈ docs.map (·.2) <-> docs.lookup (idOf d) = some d := by
  constructor
  · intro hd
    rcases List.mem_map.mp hd with ⟨entry, hentry, heq⟩
    rw [← heq, ← h.key entry hentry]
    exact h.lookup_of_mem hentry
  · intro hd
    exact List.mem_map.mpr ⟨_, Dict.mem_of_lookup hd, rfl⟩

theorem Keyed.ids {doc : Type} {idOf : doc -> Nat}
    {docs : List (Nat × doc)} (h : Keyed idOf docs) :
    (docs.map (·.2)).map idOf = docs.map (·.1) := by
  rw [List.map_map]
  exact List.map_congr_left fun entry hentry => (h.key entry hentry).symm

theorem addFts_keyed {docs : DocScores K} (h : Keyed (·.doc_id) docs)
    (r : Hit K × Nat) : Keyed (·.doc_id) (addFts config docs r) :=
  h.set (h.getD (newDoc r.1 (some r.2) none) rfl)

/-!
## Ranks
-/

/-- The rank that the document of an id has from the lexical search. -/
def rankOf (docs : DocScores K) (did : Nat) : Option Nat :=
  (docs.lookup did).bind (·.fts_rank)

theorem lookup_addFts (docs : DocScores K) (r : Hit K × Nat) (did : Nat) :
    ((addFts config docs r).lookup did).isSome =
      ((docs.lookup did).isSome || did == r.1.doc_id) := by
  unfold addFts
  rw [Dict.lookup_set]
  by_cases hdid : did = r.1.doc_id
  · rw [if_pos hdid, beq_iff_eq.mpr hdid, Bool.or_true]
    rfl
  · rw [if_neg hdid, beq_eq_false_iff_ne.mpr hdid, Bool.or_false]

theorem rankOf_addFts (docs : DocScores K) (r : Hit K × Nat) (did : Nat) :
    rankOf (addFts config docs r) did =
      if did = r.1.doc_id then
        ((docs.lookup did).getD (newDoc r.1 (some r.2) none)).fts_rank
      else rankOf docs did := by
  unfold rankOf addFts
  rw [Dict.lookup_set]
  by_cases hdid : did = r.1.doc_id
  · rw [if_pos hdid, if_pos hdid, hdid]
    rfl
  · rw [if_neg hdid, if_neg hdid]

theorem mem_take_concat {item : Type} {items : List item} {last x : item}
    {n : Nat} :
    x ∈ (items ++ [last]).take n <->
      x ∈ items.take n ∨ (items.length < n ∧ x = last) := by
  rw [List.take_append, List.mem_append]
  by_cases hn : items.length < n
  · have hone : ([last] : List item).take (n - items.length) = [last] :=
      List.take_of_length_le (Nat.sub_pos_of_lt hn)
    rw [hone, List.mem_singleton]
    simp only [hn, true_and]
  · rw [Nat.sub_eq_zero_of_le (Nat.le_of_not_lt hn)]
    simp only [hn, List.take_zero, List.not_mem_nil, false_and]

/-- What the lexical hits leave: the documents found, each with the place of
its first hit. -/
structure FtsMerged (hits : List (Hit K)) (docs : DocScores K) : Prop where
  keyed : Keyed (·.doc_id) docs
  found : forall did, (docs.lookup did).isSome = true <->
    did ∈ hits.map (·.doc_id)
  first : forall did n, (rankOf docs did).any (· ≤ n) = true <->
    did ∈ (hits.map (·.doc_id)).take n

theorem FtsMerged.add {hits : List (Hit K)} {docs : DocScores K}
    (h : FtsMerged hits docs) (r : Hit K) :
    FtsMerged (hits ++ [r])
      (addFts config docs (r, hits.length + 1)) := by
  constructor
  · exact addFts_keyed h.keyed _
  · intro did
    rw [lookup_addFts, Bool.or_eq_true, h.found did, beq_iff_eq,
      List.map_append, List.mem_append]
    rw [List.map_singleton, List.mem_singleton]
  · intro did n
    rw [List.map_append, List.map_singleton, mem_take_concat,
      List.length_map, rankOf_addFts, ← h.first did n]
    by_cases hdid : did = r.doc_id
    · rw [if_pos hdid]
      cases hold : docs.lookup did with
      | none =>
          have hnone : rankOf docs did = none := by
            unfold rankOf
            rw [hold]
            rfl
          rw [hnone]
          simp only [Option.getD_none, newDoc, Option.any_some,
            decide_eq_true_eq, Option.any_none, Bool.false_eq_true, false_or]
          exact ⟨fun hle => ⟨hle, hdid⟩, fun hle => hle.left⟩
      | some d =>
          have hsame : rankOf docs did = d.fts_rank := by
            unfold rankOf
            rw [hold]
            rfl
          rw [Option.getD_some, ← hsame]
          constructor
          · exact fun hany => Or.inl hany
          · rintro (hany | ⟨hn, _⟩)
            · exact hany
            · apply (h.first did n).mpr
              rw [List.take_of_length_le]
              · exact (h.found did).mp (by rw [hold]; rfl)
              · rw [List.length_map]
                exact Nat.le_of_lt hn
    · rw [if_neg hdid]
      simp only [hdid, and_false, or_false]

omit [Zero K] [Add K] [Div K] [NatCast K] in
theorem enumerated_concat (hits : List (Hit K)) (r : Hit K) :
    enumerated (hits ++ [r]) = enumerated hits ++ [(r, hits.length + 1)] := by
  unfold enumerated
  rw [List.zipIdx_append, Nat.add_comm]
  rfl

theorem ftsMerged (hits : List (Hit K)) :
    FtsMerged hits ((enumerated hits).foldl (addFts config) []) := by
  induction hits using List.reverseRecOn with
  | nil =>
      constructor
      · exact ⟨List.nodup_nil, fun _ hmem => absurd hmem List.not_mem_nil⟩
      · intro did
        constructor
        · intro h
          cases h
        · intro h
          cases h
      · intro did n
        simp [rankOf, enumerated]
  | append_singleton hits r ih =>
      rw [enumerated_concat, List.foldl_append]
      exact ih.add r

/-!
## Semantic hits
-/

variable [LinearOrder K]

theorem addSemantic_keyed {docs : DocScores K} (h : Keyed (·.doc_id) docs)
    (r : Hit K × Nat) : Keyed (·.doc_id) (addSemantic config docs r) :=
  h.set (h.getD (newDoc r.1 none (some r.2)) rfl)

theorem lookup_addSemantic (docs : DocScores K) (r : Hit K × Nat)
    (did : Nat) :
    ((addSemantic config docs r).lookup did).isSome =
      ((docs.lookup did).isSome || did == r.1.doc_id) := by
  unfold addSemantic
  rw [Dict.lookup_set]
  by_cases hdid : did = r.1.doc_id
  · rw [if_pos hdid, beq_iff_eq.mpr hdid, Bool.or_true]
    rfl
  · rw [if_neg hdid, beq_eq_false_iff_ne.mpr hdid, Bool.or_false]

theorem rankOf_addSemantic (docs : DocScores K) (r : Hit K × Nat)
    (did : Nat) : rankOf (addSemantic config docs r) did = rankOf docs did := by
  unfold rankOf addSemantic
  rw [Dict.lookup_set]
  by_cases hdid : did = r.1.doc_id
  · rw [if_pos hdid, hdid]
    cases docs.lookup r.1.doc_id with
    | none => rfl
    | some d => rfl
  · rw [if_neg hdid]

/-- What both searches leave. -/
structure Merged (ftsHits semanticHits : List (Hit K))
    (docs : DocScores K) : Prop where
  keyed : Keyed (·.doc_id) docs
  found : forall did, (docs.lookup did).isSome = true <->
    did ∈ (ftsHits ++ semanticHits).map (·.doc_id)
  first : forall did n, (rankOf docs did).any (· ≤ n) = true <->
    did ∈ (ftsHits.map (·.doc_id)).take n

theorem merged (ftsHits semanticHits : List (Hit K)) :
    Merged ftsHits semanticHits
      (mergeDocs config ftsHits semanticHits) := by
  unfold mergeDocs
  induction semanticHits using List.reverseRecOn with
  | nil =>
      have h : FtsMerged ftsHits
          ((enumerated ftsHits).foldl (addFts config) []) :=
        ftsMerged ftsHits
      constructor
      · exact h.keyed
      · intro did
        rw [List.append_nil]
        exact h.found did
      · exact h.first
  | append_singleton hits r ih =>
      rw [enumerated_concat, List.foldl_append]
      constructor
      · exact addSemantic_keyed ih.keyed _
      · intro did
        change ((addSemantic config _ _).lookup did).isSome = true <-> _
        rw [lookup_addSemantic, Bool.or_eq_true, ih.found did, beq_iff_eq]
        simp only [List.map_append, List.mem_append, List.map_cons,
          List.map_nil, List.mem_singleton, or_assoc]
      · intro did n
        change (rankOf (addSemantic config _ _) did).any _ = true <-> _
        rw [rankOf_addSemantic]
        exact ih.first did n

/-!
## Scored documents
-/

variable [One K] [Mul K]

variable (config) in
def scoresOf (ftsHits semanticHits : List (Hit K)) :
    List (Nat × ScoredDoc K) :=
  scoreDocs config (mergeDocs config ftsHits semanticHits)

variable (config) in
/-- The documents that the searches found, with their scores. -/
def scoredDocs (ftsHits semanticHits : List (Hit K)) : List (ScoredDoc K) :=
  (scoresOf config ftsHits semanticHits).map (·.2)

theorem scoresOf_keyed (ftsHits semanticHits : List (Hit K)) :
    Keyed (·.doc_id) (scoresOf config ftsHits semanticHits) := by
  have h : Merged ftsHits semanticHits
      (mergeDocs config ftsHits semanticHits) := merged ftsHits semanticHits
  unfold scoresOf scoreDocs
  constructor
  · rw [List.map_map]
    exact h.keyed.nodup
  · intro entry hentry
    rcases List.mem_map.mp hentry with ⟨old, hold, heq⟩
    rw [← heq]
    exact h.keyed.key old hold

theorem lookup_scoresOf (ftsHits semanticHits : List (Hit K)) (did : Nat) :
    (scoresOf config ftsHits semanticHits).lookup did =
      ((mergeDocs config ftsHits semanticHits).lookup did).map
        (scoreMergedDoc config) :=
  Dict.lookup_map (fun _ d => scoreMergedDoc config d) _ did

/-- A scored document keeps a place among `n` exactly where one of the first
`n` lexical hits is its. -/
theorem reserved_iff {ftsHits semanticHits : List (Hit K)} {n : Nat}
    {d : ScoredDoc K} (hd : d ∈ scoredDocs config ftsHits semanticHits) :
    (d.fts_rank.any (· ≤ n)) = true <->
      d.doc_id ∈ (ftsHits.map (·.doc_id)).take n := by
  have h : Merged ftsHits semanticHits
      (mergeDocs config ftsHits semanticHits) := merged ftsHits semanticHits
  have hlookup := (scoresOf_keyed ftsHits semanticHits).mem_iff.mp hd
  rw [lookup_scoresOf, Option.map_eq_some_iff] at hlookup
  rcases hlookup with ⟨old, hold, heq⟩
  rw [← h.first d.doc_id n]
  unfold rankOf
  rw [hold, ← heq]
  rfl

theorem found_iff {ftsHits semanticHits : List (Hit K)} {did : Nat} :
    did ∈ (scoredDocs config ftsHits semanticHits).map (·.doc_id) <->
      did ∈ (ftsHits ++ semanticHits).map (·.doc_id) := by
  have h : Merged ftsHits semanticHits
      (mergeDocs config ftsHits semanticHits) := merged ftsHits semanticHits
  have hsome := h.found did
  rw [← hsome, ← Option.isSome_map (f := scoreMergedDoc config),
    ← lookup_scoresOf, Option.isSome_iff_ne_none, ne_eq,
    Dict.lookup_eq_none_iff, not_not]
  exact iff_of_eq
    (congrArg (did ∈ ·) (scoresOf_keyed ftsHits semanticHits).ids)

/-!
## Missing hits
-/

omit [Zero K] [Add K] [Div K] [NatCast K] [LinearOrder K] [One K] [Mul K] in
theorem missingFts_concat (docScores : List (Nat × ScoredDoc K))
    (topWindow : List (ScoredDoc K)) (hits : List (Hit K)) (r : Hit K) :
    missingFts docScores topWindow (hits ++ [r]) =
      match docScores.lookup r.doc_id with
      | none => missingFts docScores topWindow hits
      | some d =>
          if (topWindow.map (·.doc_id)).contains r.doc_id ||
              ((missingFts docScores topWindow hits).map
                (·.doc_id)).contains r.doc_id then
            missingFts docScores topWindow hits
          else missingFts docScores topWindow hits ++ [d] := by
  unfold missingFts
  rw [List.foldl_append]
  rfl

/-- The documents of the hits that the window does not hold, each once. -/
structure Missing (docScores : List (Nat × ScoredDoc K))
    (topWindow : List (ScoredDoc K)) (hits : List (Hit K))
    (missing : List (ScoredDoc K)) : Prop where
  nodup : (missing.map (·.doc_id)).Nodup
  mem : forall d, d ∈ missing <->
    d.doc_id ∈ hits.map (·.doc_id) ∧
      docScores.lookup d.doc_id = some d ∧
        d.doc_id ∉ topWindow.map (·.doc_id)

omit [Zero K] [Add K] [Div K] [NatCast K] [LinearOrder K] [One K] [Mul K] in
theorem missingFts_missing {docScores : List (Nat × ScoredDoc K)}
    (hkeyed : Keyed (·.doc_id) docScores) (topWindow : List (ScoredDoc K))
    (hits : List (Hit K)) :
    Missing docScores topWindow hits
      (missingFts docScores topWindow hits) := by
  induction hits using List.reverseRecOn with
  | nil =>
      constructor
      · exact List.nodup_nil
      · intro d
        constructor
        · intro h
          cases h
        · rintro ⟨h, _⟩
          cases h
  | append_singleton hits r ih =>
      rw [missingFts_concat]
      generalize missingFts docScores topWindow hits = missing at ih
      -- A hit changes nothing where its document is unknown, held or listed.
      have hskip : (forall d, docScores.lookup d.doc_id = some d ->
          d.doc_id ∉ topWindow.map (·.doc_id) -> d.doc_id = r.doc_id ->
          d ∈ missing) -> Missing docScores topWindow (hits ++ [r])
            missing := by
        intro hold
        constructor
        · exact ih.nodup
        · intro d
          rw [ih.mem d, List.map_append, List.mem_append, List.map_singleton,
            List.mem_singleton]
          constructor
          · rintro ⟨hhit, hrest⟩
            exact ⟨Or.inl hhit, hrest⟩
          · rintro ⟨hhit | hlast, hrest⟩
            · exact ⟨hhit, hrest⟩
            · exact (ih.mem d).mp (hold d hrest.left hrest.right hlast)
      cases hr : docScores.lookup r.doc_id with
      | none =>
          apply hskip
          intro d hd _ heq
          rw [heq, hr] at hd
          cases hd
      | some found =>
          have hid : found.doc_id = r.doc_id := hkeyed.lookup hr
          by_cases hwindow : r.doc_id ∈ topWindow.map (·.doc_id)
          · have hcond : ((topWindow.map (·.doc_id)).contains r.doc_id ||
                (missing.map (·.doc_id)).contains r.doc_id) = true := by
              rw [List.contains_iff_mem.mpr hwindow, Bool.true_or]
            dsimp only
            rw [if_pos hcond]
            apply hskip
            intro d _ hout heq
            rw [heq] at hout
            exact absurd hwindow hout
          · by_cases hlisted : r.doc_id ∈ missing.map (·.doc_id)
            · have hcond : ((topWindow.map (·.doc_id)).contains r.doc_id ||
                  (missing.map (·.doc_id)).contains r.doc_id) = true := by
                rw [List.contains_iff_mem.mpr hlisted, Bool.or_true]
              dsimp only
              rw [if_pos hcond]
              apply hskip
              intro d hd _ heq
              rcases List.mem_map.mp hlisted with ⟨other, hother, hsame⟩
              have hlookup := ((ih.mem other).mp hother).right.left
              rw [hsame, ← heq, hd] at hlookup
              rw [Option.some.inj hlookup]
              exact hother
            · have hcond : ¬ ((topWindow.map (·.doc_id)).contains r.doc_id ||
                  (missing.map (·.doc_id)).contains r.doc_id) = true := by
                rw [Bool.or_eq_true, List.contains_iff_mem,
                  List.contains_iff_mem]
                rintro (hbad | hbad)
                · exact hwindow hbad
                · exact hlisted hbad
              dsimp only
              rw [if_neg hcond]
              constructor
              · rw [List.map_append, List.map_singleton, hid,
                  ← List.concat_eq_append]
                exact ih.nodup.concat hlisted
              · intro d
                rw [List.mem_append, List.mem_singleton, ih.mem d,
                  List.map_append, List.mem_append, List.map_singleton,
                  List.mem_singleton]
                constructor
                · rintro (⟨hhit, hrest⟩ | hnew)
                  · exact ⟨Or.inl hhit, hrest⟩
                  · rw [hnew, hid]
                    exact ⟨Or.inr rfl, hr, hwindow⟩
                · rintro ⟨hhit | hlast, hrest⟩
                  · exact Or.inl ⟨hhit, hrest⟩
                  · apply Or.inr
                    rw [hlast, hr] at hrest
                    exact (Option.some.inj hrest.left).symm

/-!
## The window
-/

/-- The ids of the lexical hits that have a place reserved. -/
def reservedIds (ftsHits : List (Hit K)) (limit : Int) : List Nat :=
  (ftsHits.map (·.doc_id)).take (ftsQuota ftsHits limit.toNat)

variable (config) in
/-- What fusion returns of the documents that the searches found. -/
structure Fuses (ftsHits semanticHits : List (Hit K)) (limit : Int)
    (window : List (ScoredDoc K)) : Prop where
  nodup : (window.map (·.doc_id)).Nodup
  subset : forall r, r ∈ window -> r ∈ scoredDocs config ftsHits semanticHits
  descending : window.Pairwise fun first later =>
    later.final_score ≤ first.final_score
  holds : forall did, did ∈ reservedIds ftsHits limit ->
    did ∈ window.map (·.doc_id)
  length_le : 0 ≤ limit -> (window.length : Int) ≤ limit
  omits : 0 ≤ limit -> forall d, d ∈ scoredDocs config ftsHits semanticHits ->
    d ∉ window -> (window.length : Int) = limit ∧
      forall r, r ∈ window -> d.final_score ≤ r.final_score ∨
        r.doc_id ∈ reservedIds ftsHits limit

variable (config) in
/-- The documents, best first. -/
def ranking (ftsHits semanticHits : List (Hit K)) : List (ScoredDoc K) :=
  rankBy (fun d => d.final_score) (scoredDocs config ftsHits semanticHits)

section Window

variable {ftsHits semanticHits : List (Hit K)} {limit : Int}

theorem mem_ranking {d : ScoredDoc K} :
    d ∈ ranking config ftsHits semanticHits <->
      d ∈ scoredDocs config ftsHits semanticHits :=
  (rankBy_perm _).mem_iff

theorem scoredDocs_nodup :
    ((scoredDocs config ftsHits semanticHits).map (·.doc_id)).Nodup := by
  have h : Keyed (·.doc_id) (scoresOf config ftsHits semanticHits) :=
    scoresOf_keyed ftsHits semanticHits
  unfold scoredDocs
  rw [h.ids]
  exact h.nodup

theorem ranking_nodup : (ranking config ftsHits semanticHits).Nodup :=
  (rankBy_perm _).nodup_iff.mpr (scoredDocs_nodup.of_map _)

theorem eq_of_doc_id {d other : ScoredDoc K}
    (hd : d ∈ scoredDocs config ftsHits semanticHits)
    (hother : other ∈ scoredDocs config ftsHits semanticHits)
    (h : d.doc_id = other.doc_id) : d = other :=
  List.inj_on_of_nodup_map scoredDocs_nodup hd hother h

theorem nodup_of_subset {window : List (ScoredDoc K)}
    (hnodup : window.Nodup)
    (hsubset : forall r, r ∈ window ->
      r ∈ scoredDocs config ftsHits semanticHits) :
    (window.map (·.doc_id)).Nodup :=
  hnodup.map_on fun r hr s hs h =>
    eq_of_doc_id (hsubset r hr) (hsubset s hs) h

omit [Zero K] [Add K] [Div K] [NatCast K] [LinearOrder K] [One K] [Mul K] in
/-- Where no place is reserved, none of the hits needs one. -/
theorem reservedIds_eq_nil (h : ftsHits = [] ∨ limit ≤ 0) :
    reservedIds ftsHits limit = [] := by
  unfold reservedIds ftsQuota
  rcases h with hnil | hlow
  · rw [hnil]
    rfl
  · rw [Int.toNat_of_nonpos hlow, Nat.min_zero, Nat.min_zero, List.take_zero]

/-- A window that reserves the places of the first lexical hits. -/
theorem Fuses.of_reserves {reserved : ScoredDoc K -> Bool}
    {window : List (ScoredDoc K)} (hlimit : 0 ≤ limit)
    (hreserved : forall d, d ∈ scoredDocs config ftsHits semanticHits ->
      (reserved d = true <-> d.doc_id ∈ reservedIds ftsHits limit))
    (h : Reserves (fun d => d.final_score) reserved limit.toNat
      (ranking config ftsHits semanticHits) window) :
    Fuses config ftsHits semanticHits limit window := by
  have hsubset : forall r, r ∈ window ->
      r ∈ scoredDocs config ftsHits semanticHits :=
    fun r hr => mem_ranking.mp (h.subset r hr)
  have hcast : ((limit.toNat : Nat) : Int) = limit := Int.toNat_of_nonneg hlimit
  constructor
  · exact nodup_of_subset h.nodup hsubset
  · exact hsubset
  · exact h.descending
  · intro did hdid
    have hhit : did ∈ (ftsHits ++ semanticHits).map (·.doc_id) := by
      rw [List.map_append]
      exact List.mem_append_left _ (List.mem_of_mem_take hdid)
    have hfound : did ∈ (scoredDocs config ftsHits semanticHits).map
        (·.doc_id) := found_iff.mpr hhit
    rcases List.mem_map.mp hfound with ⟨d, hd, heq⟩
    rw [← heq] at hdid ⊢
    exact List.mem_map_of_mem
      (h.holds d (mem_ranking.mpr hd) ((hreserved d hd).mpr hdid))
  · intro _
    rw [← hcast]
    exact Int.ofNat_le.mpr h.length_le
  · intro _ d hd hout
    rcases h.omits d (mem_ranking.mpr hd) hout with ⟨hlength, hbehind⟩
    constructor
    · rw [hlength, hcast]
    · intro r hr
      rcases hbehind r hr with hscore | hkept
      · exact Or.inl hscore
      · exact Or.inr ((hreserved r (hsubset r hr)).mp hkept)

/-- The ranking, cut where no place is reserved. -/
theorem sliceTo_fuses (hnone : reservedIds ftsHits limit = []) :
    Fuses config ftsHits semanticHits limit
      (sliceTo (ranking config ftsHits semanticHits) limit) := by
  unfold sliceTo
  split
  · rename_i hneg
    generalize hn : (ranking config ftsHits semanticHits).length -
      limit.natAbs = n
    have hsub := List.take_sublist n (ranking config ftsHits semanticHits)
    have hsubset : forall r,
        r ∈ (ranking config ftsHits semanticHits).take n ->
          r ∈ scoredDocs config ftsHits semanticHits :=
      fun r hr => mem_ranking.mp (List.mem_of_mem_take hr)
    constructor
    · exact nodup_of_subset (ranking_nodup.sublist hsub) hsubset
    · exact hsubset
    · exact (rankBy_pairwise _).sublist hsub
    · intro did hdid
      rw [hnone] at hdid
      cases hdid
    · intro hbad
      exact absurd hneg (Int.not_lt.mpr hbad)
    · intro hbad
      exact absurd hneg (Int.not_lt.mpr hbad)
  · rename_i hnonneg
    have hreserved : forall d,
        d ∈ scoredDocs config ftsHits semanticHits ->
          (false = true <-> d.doc_id ∈ reservedIds ftsHits limit) := by
      intro d _
      rw [hnone]
      exact ⟨fun h => Bool.noConfusion h, fun h => absurd h List.not_mem_nil⟩
    exact Fuses.of_reserves (Int.not_lt.mp hnonneg) hreserved
      (take_reserves ranking_nodup (rankBy_pairwise _)
        fun r _ h => Bool.noConfusion h)

/-- The documents that the window lacks are those of the reserved hits. -/
theorem missing_reserved {n : Nat} {missing : List (ScoredDoc K)}
    (h : Missing (scoresOf config ftsHits semanticHits)
      ((ranking config ftsHits semanticHits).take n)
      (ftsHits.take (ftsQuota ftsHits n)) missing) (r : ScoredDoc K) :
    r ∈ missing <-> r ∈ ranking config ftsHits semanticHits ∧
      (r.fts_rank.any (· ≤ ftsQuota ftsHits n)) = true ∧
        r ∉ (ranking config ftsHits semanticHits).take n := by
  have hkeyed : Keyed (·.doc_id) (scoresOf config ftsHits semanticHits) :=
    scoresOf_keyed ftsHits semanticHits
  have hscored : r ∈ ranking config ftsHits semanticHits <->
      (scoresOf config ftsHits semanticHits).lookup r.doc_id = some r :=
    mem_ranking.trans hkeyed.mem_iff
  rw [h.mem r, ← hscored, List.map_take]
  constructor
  · rintro ⟨hhit, hr, hout⟩
    exact ⟨hr, (reserved_iff (mem_ranking.mp hr)).mpr hhit,
      fun hin => hout (List.mem_map_of_mem hin)⟩
  · rintro ⟨hr, hreserved, hout⟩
    refine ⟨(reserved_iff (mem_ranking.mp hr)).mp hreserved, hr, ?_⟩
    intro hin
    rcases List.mem_map.mp hin with ⟨other, hother, hid⟩
    have hsame := eq_of_doc_id
      (mem_ranking.mp (List.mem_of_mem_take hother)) (mem_ranking.mp hr) hid
    rw [hsame] at hother
    exact hout hother

/-- There are no more documents to reserve for than places. -/
theorem reserved_few (n : Nat) :
    ((ranking config ftsHits semanticHits).filter fun d =>
      d.fts_rank.any (· ≤ ftsQuota ftsHits n)).length ≤ n := by
  have hnodup : (((ranking config ftsHits semanticHits).filter fun d =>
      d.fts_rank.any (· ≤ ftsQuota ftsHits n)).map (·.doc_id)).Nodup := by
    apply nodup_of_subset (ranking_nodup.filter _)
    intro r hr
    exact mem_ranking.mp (List.mem_filter.mp hr).left
  have hsubset : ((ranking config ftsHits semanticHits).filter fun d =>
      d.fts_rank.any (· ≤ ftsQuota ftsHits n)).map (·.doc_id) ⊆
        (ftsHits.map (·.doc_id)).take (ftsQuota ftsHits n) := by
    intro did hdid
    rcases List.mem_map.mp hdid with ⟨d, hd, heq⟩
    rcases List.mem_filter.mp hd with ⟨hin, hreserved⟩
    rw [← heq]
    exact (reserved_iff (mem_ranking.mp hin)).mp hreserved
  have hle := (List.subperm_of_subset hnodup hsubset).length_le
  rw [List.length_map, List.length_take] at hle
  have hquota : ftsQuota ftsHits n ≤ n :=
    Nat.le_trans (Nat.min_le_right _ _) (Nat.min_le_right _ _)
  exact Nat.le_trans hle (Nat.le_trans (Nat.min_le_left _ _) hquota)

end Window

/-- Fusion returns each document at most once and no more of them than asked
for, best first.  It holds the documents of the first lexical hits, and leaves
out only what scores no better than all the others that it returns. -/
theorem rrfMerge_fuses (config : Config K)
    (ftsHits semanticHits : List (Hit K)) (limit : Int) :
    Fuses config ftsHits semanticHits limit
        (rrfMerge config ftsHits semanticHits limit) ∧
      forall did, did ∈ (scoredDocs config ftsHits semanticHits).map
          (·.doc_id) <->
        did ∈ (ftsHits ++ semanticHits).map (·.doc_id) := by
  constructor
  · change Fuses config ftsHits semanticHits limit (reserveTopFtsSlots
      (ranking config ftsHits semanticHits) ftsHits
        (scoresOf config ftsHits semanticHits) limit)
    unfold reserveTopFtsSlots
    split
    · rename_i hplain
      exact sliceTo_fuses (reservedIds_eq_nil hplain)
    · rename_i hreal
      have hpos : 0 < limit := by
        by_contra hbad
        exact hreal (Or.inr (Int.not_lt.mp hbad))
      have hkeyed : Keyed (·.doc_id)
          (scoresOf config ftsHits semanticHits) :=
        scoresOf_keyed ftsHits semanticHits
      have hmissing := missingFts_missing hkeyed
        ((ranking config ftsHits semanticHits).take limit.toNat)
        (ftsHits.take (ftsQuota ftsHits limit.toNat))
      apply Fuses.of_reserves (Int.le_of_lt hpos)
      · intro d hd
        exact reserved_iff hd
      · exact reserve_reserves ranking_nodup (rankBy_pairwise _)
          (missing_reserved hmissing) (hmissing.nodup.of_map _)
          (reserved_few limit.toNat)
  · intro did
    exact found_iff

end Recall
end Minni
