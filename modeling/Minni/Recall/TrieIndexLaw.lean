import Mathlib.Algebra.Field.Rat
import Minni.Recall.TrieIndex

/-!
# When the index in memory is a fresh one

A check that builds the index again gives the index of the tables as they are.
One that adds gives it exactly when the entries up to the last largest id are
those that the tables still have, and when the load takes in every row.  A
document that was entered at its write is never as a load would enter it.
-/

namespace Minni
namespace Recall

open Foundation
open Foundation.TransitionSystem

/-!
## The rows of a load
-/

namespace Tables

variable {K : Type} (tables : Tables K)

/-- The row of a document. -/
def rowOf (doc : StoredDoc K) : LoadRow K :=
  if tables.docCount < 50 then tables.firstRow doc
  else
    match (tables.chunksOf doc.doc_id).find? fun chunk =>
        chunk.chunk_index = 0 with
    | none => { doc := doc, chunk_text := "", heading_context := "" }
    | some chunk =>
        { doc := doc
          chunk_text := chunk.chunk_text.getD ""
          heading_context := chunk.heading_context.getD "" }

theorem rowOf_doc_id (doc : StoredDoc K) :
    (tables.rowOf doc).doc_id = doc.doc_id := by
  unfold rowOf
  split
  · rfl
  · split
    · rfl
    · rfl

/-- A document has at most one chunk of index zero. -/
theorem joinedRows_eq (doc : StoredDoc K) (hmany : ¬ tables.docCount < 50) :
    tables.joinedRows doc = [tables.rowOf doc] := by
  unfold joinedRows rowOf
  rw [if_neg hmany, ← List.head?_filter]
  have hone : ((tables.chunksOf doc.doc_id).filter fun chunk =>
      chunk.chunk_index = 0).Pairwise fun a b => ¬ SameChunk a b :=
    (tables.oneChunk.filter _).filter _
  have hzero : forall chunk,
      chunk ∈ ((tables.chunksOf doc.doc_id).filter fun chunk =>
        chunk.chunk_index = 0) ->
      chunk.doc_id = doc.doc_id ∧ chunk.chunk_index = 0 := by
    intro chunk hchunk
    rcases List.mem_filter.mp hchunk with ⟨hof, hindex⟩
    exact ⟨of_decide_eq_true (List.mem_filter.mp hof).right,
      of_decide_eq_true hindex⟩
  revert hone hzero
  generalize ((tables.chunksOf doc.doc_id).filter fun chunk =>
    chunk.chunk_index = 0) = chunks
  intro hone hzero
  cases chunks with
  | nil =>
      rfl
  | cons chunk rest =>
      cases rest with
      | nil =>
          rfl
      | cons other rest =>
          have hfirst := hzero chunk List.mem_cons_self
          have hsecond := hzero other
            (List.mem_cons_of_mem _ List.mem_cons_self)
          have happart := (List.pairwise_cons.mp hone).left other
            List.mem_cons_self
          exfalso
          apply happart
          exact ⟨hfirst.left.trans hsecond.left.symm,
            hfirst.right.trans hsecond.right.symm⟩

theorem rowsAbove_eq_map (prevMax : Nat) :
    tables.rowsAbove prevMax =
      (tables.documents.filter (loadedAbove prevMax)).map tables.rowOf := by
  unfold rowsAbove
  by_cases hfew : tables.docCount < 50
  · have hrow : tables.rowOf = tables.firstRow := by
      funext doc
      unfold rowOf
      rw [if_pos hfew]
    rw [if_pos hfew, hrow]
  · have hrows : tables.joinedRows = fun doc => [tables.rowOf doc] := by
      funext doc
      exact tables.joinedRows_eq doc hfew
    rw [if_neg hfew, hrows, List.map_eq_flatMap]

theorem mem_rowsAbove {prevMax : Nat} {r : LoadRow K}
    (h : r ∈ tables.rowsAbove prevMax) :
    exists doc, doc ∈ tables.documents ∧ loadedAbove prevMax doc = true ∧
      tables.rowOf doc = r := by
  rw [rowsAbove_eq_map] at h
  rcases List.mem_map.mp h with ⟨doc, hdoc, hrow⟩
  rcases List.mem_filter.mp hdoc with ⟨hmem, habove⟩
  exact ⟨doc, hmem, habove, hrow⟩

theorem le_maxDocId {doc : StoredDoc K} (h : doc ∈ tables.documents) :
    doc.doc_id ≤ tables.maxDocId := by
  unfold maxDocId
  generalize tables.documents = documents at h
  induction documents with
  | nil =>
      exact absurd h List.not_mem_nil
  | cons first rest ih =>
      rw [List.map_cons, List.foldr_cons]
      rcases List.mem_cons.mp h with rfl | hrest
      · exact Nat.le_max_left _ _
      · exact le_trans (ih hrest) (Nat.le_max_right _ _)

theorem rowsAbove_bounds {prevMax : Nat} {r : LoadRow K}
    (h : r ∈ tables.rowsAbove prevMax) :
    prevMax < r.doc_id ∧ r.doc_id ≤ tables.maxDocId := by
  rcases tables.mem_rowsAbove h with ⟨doc, hdoc, habove, rfl⟩
  rw [rowOf_doc_id]
  unfold loadedAbove at habove
  rw [Bool.and_eq_true] at habove
  exact ⟨of_decide_eq_true habove.left, tables.le_maxDocId hdoc⟩

theorem rowsAbove_nodup (prevMax : Nat) :
    ((tables.rowsAbove prevMax).map LoadRow.doc_id).Nodup := by
  rw [rowsAbove_eq_map, List.map_map]
  have hid : LoadRow.doc_id ∘ tables.rowOf = StoredDoc.doc_id := by
    funext doc
    exact tables.rowOf_doc_id doc
  rw [hid]
  exact tables.oneDocument.sublist (List.filter_sublist.map _)

/-- The rows above a bound are those of a full load that lie above it. -/
theorem rowsAbove_eq_filter (prevMax : Nat) :
    tables.rowsAbove prevMax =
      (tables.rowsAbove 0).filter fun r => decide (prevMax < r.doc_id) := by
  rw [rowsAbove_eq_map, rowsAbove_eq_map, List.filter_map, List.filter_filter]
  congr 1
  apply List.filter_congr
  intro doc _
  unfold loadedAbove
  rw [Function.comp_apply, rowOf_doc_id]
  by_cases habove : prevMax < doc.doc_id
  · rw [decide_eq_true habove, decide_eq_true (by omega : 0 < doc.doc_id)]
    rfl
  · rw [decide_eq_false habove]
    rfl

theorem rowsAbove_of_max {prevMax : Nat} (h : tables.maxDocId ≤ prevMax) :
    tables.rowsAbove prevMax = [] := by
  apply List.eq_nil_iff_forall_not_mem.mpr
  intro r hr
  have hbounds := tables.rowsAbove_bounds hr
  omega

theorem rowsAbove_of_empty (prevMax : Nat) (h : tables.docCount = 0) :
    tables.rowsAbove prevMax = [] := by
  have hnil : tables.documents = [] := List.length_eq_zero_iff.mp h
  rw [rowsAbove_eq_map, hnil]
  rfl

end Tables

/-!
## What a load leaves
-/

section Loading

variable {K : Type} [One K] (lower : String -> String)

omit [One K] in
def TrieIndex.stored (trie : TrieIndex K) (doc_id : Nat) :
    Option (TrieDoc K) :=
  trie.docs.bind fun docs => docs.lookup doc_id

/-- The entry that the tables give for a document, if it is to have one. -/
def shownEntry (tables : Tables K) (doc_id : Nat) : Option (TrieDoc K) :=
  ((tables.rowsAbove 0).find? fun r => r.doc_id = doc_id).map
    (loadedEntry lower)

/-- The entries are those of loads, none above the watermark, and the postings
are theirs. -/
structure Clean (trie : TrieIndex K) (docs : List (Nat × TrieDoc K)) :
    Prop where
  holds : trie.docs = some docs
  lowered : forall doc_id entry, docs.lookup doc_id = some entry ->
    entry.path_lower ≠ none
  bounded : forall doc_id entry, docs.lookup doc_id = some entry ->
    (doc_id : Int) ≤ trie.max_doc_id
  tokens : Postings.Exact (loadedTokens lower) docs trie.token_map
  prefixes : Postings.Exact (loadedPrefixes lower) docs trie.prefix_map

/-- An entry below the watermark is one that was made at its write. -/
def HoldsLive (trie : TrieIndex K) : Prop :=
  exists doc_id entry, trie.stored doc_id = some entry ∧
    entry.path_lower = none ∧ (doc_id : Int) ≤ trie.max_doc_id

omit [One K] in
theorem stored_of_docs {trie : TrieIndex K} {docs : List (Nat × TrieDoc K)}
    (h : trie.docs = some docs) (doc_id : Nat) :
    trie.stored doc_id = docs.lookup doc_id := by
  unfold TrieIndex.stored
  rw [h]
  rfl

theorem shownEntry_lowered {tables : Tables K} {doc_id : Nat}
    {entry : TrieDoc K} (h : shownEntry lower tables doc_id = some entry) :
    entry.path_lower ≠ none := by
  unfold shownEntry at h
  rcases Option.map_eq_some_iff.mp h with ⟨r, _, rfl⟩
  exact Option.some_ne_none _

theorem shownEntry_pos {tables : Tables K} {doc_id : Nat}
    {entry : TrieDoc K} (h : shownEntry lower tables doc_id = some entry) :
    0 < doc_id := by
  unfold shownEntry at h
  rcases Option.map_eq_some_iff.mp h with ⟨r, hfind, _⟩
  have hid := List.find?_some hfind
  rw [← of_decide_eq_true hid]
  exact (tables.rowsAbove_bounds (List.mem_of_find?_eq_some hfind)).left

/-- The rows above a bound give the entries of the documents above it. -/
theorem find_rowsAbove (tables : Tables K) (prevMax doc_id : Nat) :
    ((tables.rowsAbove prevMax).find? fun r => r.doc_id = doc_id).map
        (loadedEntry lower) =
      if prevMax < doc_id then shownEntry lower tables doc_id else none := by
  unfold shownEntry
  rw [tables.rowsAbove_eq_filter, List.find?_filter]
  by_cases habove : prevMax < doc_id
  · rw [if_pos habove]
    congr 2
    funext r
    by_cases hid : r.doc_id = doc_id
    · simp [hid, habove]
    · simp [hid]
  · rw [if_neg habove, Option.map_eq_none_iff]
    apply List.find?_eq_none.mpr
    intro r _ hr
    have hboth := of_decide_eq_true hr
    have hid := of_decide_eq_true hboth.right
    have hlow := of_decide_eq_true hboth.left
    rw [hid] at hlow
    exact habove hlow

/-- The loop sets the entries of its rows. -/
theorem foldl_loadRow_docs (rows : List (LoadRow K)) (trie : TrieIndex K) :
    (rows.foldl (loadRow lower) trie).docs =
      trie.docs.map
        (Postings.setAll (loadedEntry lower) LoadRow.doc_id rows) := by
  induction rows generalizing trie with
  | nil =>
      rw [List.foldl_nil]
      cases trie.docs with
      | none => rfl
      | some docs => rfl
  | cons r rows ih =>
      rw [List.foldl_cons, ih]
      unfold loadRow
      cases trie.docs with
      | none => rfl
      | some docs => rfl

/-- The loop neither reads nor changes the watermarks. -/
theorem foldl_loadRow_marks (rows : List (LoadRow K)) (trie : TrieIndex K)
    (m c : Int) (k : Nat) :
    rows.foldl (loadRow lower)
        { trie with max_doc_id := m, doc_count := c, checked_at := k } =
      { rows.foldl (loadRow lower) trie with
        max_doc_id := m, doc_count := c, checked_at := k } := by
  induction rows generalizing trie with
  | nil =>
      rfl
  | cons r rows ih =>
      rw [List.foldl_cons, List.foldl_cons, ← ih]
      rfl

/-- What is stored after the loop comes from its rows, or was there. -/
theorem stored_foldl {rows : List (LoadRow K)} {trie : TrieIndex K}
    (hnodup : (rows.map LoadRow.doc_id).Nodup) (hdocs : trie.docs ≠ none)
    (doc_id : Nat) :
    (rows.foldl (loadRow lower) trie).stored doc_id =
      ((rows.find? fun r => r.doc_id = doc_id).map (loadedEntry lower)).or
        (trie.stored doc_id) := by
  rcases Option.ne_none_iff_exists'.mp hdocs with ⟨docs, hdocs⟩
  have hafter := foldl_loadRow_docs lower rows trie
  rw [hdocs, Option.map_some] at hafter
  rw [stored_of_docs hafter, stored_of_docs hdocs,
    Postings.lookup_setAll hnodup]

theorem clean_loadRow {trie : TrieIndex K} {docs : List (Nat × TrieDoc K)}
    {r : LoadRow K} (h : Clean lower trie docs)
    (hnew : docs.lookup r.doc_id = none)
    (hbound : (r.doc_id : Int) ≤ trie.max_doc_id) :
    Clean lower (loadRow lower trie r)
      (Dict.set r.doc_id (loadedEntry lower r) docs) := by
  constructor
  · show trie.docs.map _ = _
    rw [h.holds]
    rfl
  · intro doc_id entry hentry
    rw [Dict.lookup_set] at hentry
    split at hentry
    · cases hentry
      exact Option.some_ne_none _
    · exact h.lowered doc_id entry hentry
  · intro doc_id entry hentry
    rw [Dict.lookup_set] at hentry
    split at hentry
    · rename_i hid
      rw [hid]
      exact hbound
    · exact h.bounded doc_id entry hentry
  · exact Postings.exact_set hnew h.tokens
  · exact Postings.exact_set hnew h.prefixes

theorem clean_foldl {rows : List (LoadRow K)} {trie : TrieIndex K}
    {docs : List (Nat × TrieDoc K)} (h : Clean lower trie docs)
    (hnodup : (rows.map LoadRow.doc_id).Nodup)
    (hnew : forall r, r ∈ rows -> docs.lookup r.doc_id = none)
    (hbound : forall r, r ∈ rows -> (r.doc_id : Int) ≤ trie.max_doc_id) :
    Clean lower (rows.foldl (loadRow lower) trie)
      (Postings.setAll (loadedEntry lower) LoadRow.doc_id rows docs) := by
  induction rows generalizing trie docs with
  | nil =>
      exact h
  | cons r rows ih =>
      rw [List.map_cons, List.nodup_cons] at hnodup
      rw [List.foldl_cons, Postings.setAll]
      have hstep := clean_loadRow lower h (hnew r List.mem_cons_self)
        (hbound r List.mem_cons_self)
      apply ih hstep hnodup.right
      · intro other hother
        rw [Dict.lookup_set]
        split
        · rename_i hid
          exfalso
          apply hnodup.left
          rw [← hid]
          exact List.mem_map_of_mem hother
        · exact hnew other (List.mem_cons_of_mem _ hother)
      · intro other hother
        exact hbound other (List.mem_cons_of_mem _ hother)

end Loading

/-!
## A check
-/

section Checking

variable {K : Type} [One K] (lower : String -> String)

/-- A load builds everything again. -/
def Rebuilds (tables : Tables K) (trie : TrieIndex K) : Prop :=
  trie.docs = none ∨ trie.max_doc_id < 0 ∨
    (tables.docCount : Int) < trie.doc_count ∨
    (tables.maxDocId : Int) < trie.max_doc_id

/-- The entries up to the watermark are those that the tables give. -/
def AgreesToWatermark (tables : Tables K) (trie : TrieIndex K) : Prop :=
  forall doc_id : Nat, (doc_id : Int) ≤ trie.max_doc_id ->
    trie.stored doc_id = shownEntry lower tables doc_id

/-- The rows that a check of the tables reads. -/
def missingRows (tables : Tables K) (trie : TrieIndex K) : List (LoadRow K) :=
  tables.rowsAbove (trie.start tables).1

/-- The documents, their fields and the postings are those of a full load. -/
structure EqualsRebuilt (tables : Tables K) (trie : TrieIndex K) : Prop where
  loaded : trie.docs ≠ none
  documents : forall doc_id,
    trie.stored doc_id = (rebuiltTrie lower tables).stored doc_id
  tokens : forall p,
    p ∈ trie.token_map <-> p ∈ (rebuiltTrie lower tables).token_map
  prefixes : forall p,
    p ∈ trie.prefix_map <-> p ∈ (rebuiltTrie lower tables).prefix_map

omit [One K] in
theorem rebuilds_iff (tables : Tables K) (trie : TrieIndex K) :
    Rebuilds tables trie <-> ¬ Incremental tables trie := by
  unfold Rebuilds Incremental
  constructor
  · intro h hinc
    rcases hinc with ⟨hdocs, hmax, hcount, hle⟩
    rcases h with h | h | h | h
    · exact hdocs h
    · omega
    · omega
    · omega
  · intro h
    by_cases hdocs : trie.docs = none
    · exact Or.inl hdocs
    · right
      by_contra hnot
      rw [not_or, not_or, not_lt, not_lt, not_lt] at hnot
      exact h ⟨hdocs, hnot.left, hnot.right.left, hnot.right.right⟩

omit [One K] in
theorem start_docs (tables : Tables K) (trie : TrieIndex K) :
    (trie.start tables).2.docs ≠ none := by
  unfold TrieIndex.start
  split
  · rename_i hinc
    exact hinc.left
  · exact Option.some_ne_none _

/-- A check adds the rows that it takes in, and moves the watermarks. -/
theorem ensure_eq (tables : Tables K) {trie : TrieIndex K} {now : Nat}
    {outcome : LoadOutcome} (hcheck : PerformsCheck now trie)
    (hcount : outcome ≠ .countFails) :
    exists m c,
      ensureTrieLoaded lower tables now outcome trie =
        { (outcome.taken (missingRows tables trie)).foldl (loadRow lower)
            (trie.start tables).2 with
          max_doc_id := m, doc_count := c, checked_at := now } ∧
      (m = -1 ∨ (m = tables.maxDocId ∧
        (outcome = .selectFails -> missingRows tables trie = []))) := by
  have htaken : missingRows tables trie = [] ->
      outcome.taken (missingRows tables trie) = [] := by
    intro hnil
    rw [hnil]
    cases outcome with
    | done => rfl
    | countFails => rfl
    | selectFails => rfl
    | loopFails n => exact List.take_nil
  unfold ensureTrieLoaded
  rw [if_pos hcheck, if_neg hcount]
  by_cases hcurrent : Current tables trie
  · have hinc : Incremental tables trie := by
      rcases hcurrent with ⟨hdocs, hmax, hdocCount⟩
      exact ⟨hdocs, by omega, by omega, by omega⟩
    have hstart : trie.start tables = (trie.max_doc_id.toNat, trie) := by
      unfold TrieIndex.start
      rw [if_pos hinc]
    have hnil : missingRows tables trie = [] := by
      unfold missingRows
      rw [hstart]
      apply tables.rowsAbove_of_max
      show tables.maxDocId ≤ trie.max_doc_id.toNat
      rw [← hcurrent.right.left]
      exact le_refl _
    rw [if_pos hcurrent, htaken hnil, hstart]
    exact ⟨trie.max_doc_id, trie.doc_count, rfl,
      Or.inr ⟨hcurrent.right.left.symm, fun _ => hnil⟩⟩
  · rw [if_neg hcurrent]
    by_cases hempty : tables.docCount = 0
    · have hnil : missingRows tables trie = [] :=
        tables.rowsAbove_of_empty _ hempty
      rw [if_pos hempty, htaken hnil]
      exact ⟨tables.maxDocId, tables.docCount, rfl,
        Or.inr ⟨rfl, fun _ => hnil⟩⟩
    · rw [if_neg hempty]
      by_cases hselect : outcome = .selectFails
      · rw [if_pos hselect, hselect]
        exact ⟨-1, -1, rfl, Or.inl rfl⟩
      · rw [if_neg hselect, foldl_loadRow_marks]
        exact ⟨tables.maxDocId, tables.docCount, rfl,
          Or.inr ⟨rfl, fun h => absurd h hselect⟩⟩

omit [One K] in
theorem taken_prefixed (outcome : LoadOutcome) (rows : List (LoadRow K)) :
    outcome.taken rows <+: rows := by
  cases outcome with
  | done => exact List.prefix_refl rows
  | countFails => exact List.nil_prefix
  | selectFails => exact List.nil_prefix
  | loopFails n => exact List.take_prefix n rows

omit [One K] in
theorem taken_nodup (outcome : LoadOutcome) (tables : Tables K)
    (trie : TrieIndex K) :
    ((outcome.taken (missingRows tables trie)).map LoadRow.doc_id).Nodup :=
  (tables.rowsAbove_nodup _).sublist
    ((taken_prefixed outcome _).sublist.map _)

/-- What a check leaves in the index. -/
theorem stored_ensure {tables : Tables K} {trie : TrieIndex K} {now : Nat}
    {outcome : LoadOutcome} (hcheck : PerformsCheck now trie)
    (hcount : outcome ≠ .countFails) (doc_id : Nat) :
    (ensureTrieLoaded lower tables now outcome trie).stored doc_id =
      (((outcome.taken (missingRows tables trie)).find? fun r =>
        r.doc_id = doc_id).map (loadedEntry lower)).or
        ((trie.start tables).2.stored doc_id) := by
  rcases ensure_eq lower tables hcheck hcount with
    ⟨m, c, heq, _⟩
  rw [heq, ← stored_foldl lower (taken_nodup outcome tables trie)
    (start_docs tables trie) doc_id]
  rfl

theorem ensure_docs {tables : Tables K} {trie : TrieIndex K} {now : Nat}
    {outcome : LoadOutcome} (hcheck : PerformsCheck now trie)
    (hcount : outcome ≠ .countFails) :
    (ensureTrieLoaded lower tables now outcome trie).docs ≠ none := by
  rcases ensure_eq lower tables hcheck hcount with
    ⟨m, c, heq, _⟩
  rw [heq]
  show ((outcome.taken (missingRows tables trie)).foldl (loadRow lower)
    (trie.start tables).2).docs ≠ none
  rw [foldl_loadRow_docs]
  intro hnone
  exact start_docs tables trie (Option.map_eq_none_iff.mp hnone)

omit [One K] in
theorem clean_nil (m c : Int) (k : Nat) :
    Clean (K := K) lower
      { docs := some [], token_map := [], prefix_map := [],
        max_doc_id := m, doc_count := c, checked_at := k } [] := by
  constructor
  · rfl
  · intro doc_id entry hentry
    cases hentry
  · intro doc_id entry hentry
    cases hentry
  · exact Postings.exact_nil _
  · exact Postings.exact_nil _

/-- A clean index stays clean in a check, whatever it takes in. -/
theorem clean_ensure {tables : Tables K} {trie : TrieIndex K} {now : Nat}
    {outcome : LoadOutcome} (hcheck : PerformsCheck now trie)
    (hcount : outcome ≠ .countFails)
    (hclean : Rebuilds tables trie ∨ exists docs, Clean lower trie docs) :
    exists docs, Clean lower
      { ensureTrieLoaded lower tables now outcome trie with
        max_doc_id := tables.maxDocId } docs := by
  rcases ensure_eq lower tables hcheck hcount with
    ⟨m, c, heq, _⟩
  have hstart : exists docs,
      Clean lower
        { (trie.start tables).2 with
          max_doc_id := tables.maxDocId, doc_count := c, checked_at := now }
        docs ∧
      forall r, r ∈ missingRows tables trie ->
        docs.lookup r.doc_id = none := by
    by_cases hinc : Incremental tables trie
    · have hboth := hclean.resolve_left fun hrebuilds =>
        (rebuilds_iff tables trie).mp hrebuilds hinc
      rcases hboth with ⟨docs, hdocs⟩
      have heqStart : trie.start tables = (trie.max_doc_id.toNat, trie) := by
        unfold TrieIndex.start
        rw [if_pos hinc]
      exists docs
      rw [heqStart]
      constructor
      · constructor
        · exact hdocs.holds
        · exact hdocs.lowered
        · intro doc_id entry hentry
          exact le_trans (hdocs.bounded doc_id entry hentry)
            hinc.right.right.right
        · exact hdocs.tokens
        · exact hdocs.prefixes
      · intro r hr
        unfold missingRows at hr
        rw [heqStart] at hr
        have habove := (tables.rowsAbove_bounds hr).left
        cases hfound : docs.lookup r.doc_id with
        | none => rfl
        | some entry =>
            have hbound := hdocs.bounded r.doc_id entry hfound
            omega
    · have heqStart : trie.start tables =
          (0, { trie with
            docs := some [], token_map := [], prefix_map := [] }) := by
        unfold TrieIndex.start
        rw [if_neg hinc]
      exists []
      rw [heqStart]
      constructor
      · exact clean_nil lower _ _ _
      · intro r _
        rfl
  rcases hstart with ⟨docs, hdocs, hnew⟩
  rw [heq]
  have hfolded := clean_foldl lower hdocs (taken_nodup outcome tables trie)
    (fun r hr => hnew r ((taken_prefixed outcome _).subset hr))
    (fun r hr => by
      have hrow := (taken_prefixed outcome _).subset hr
      exact Int.ofNat_le.mpr (tables.rowsAbove_bounds hrow).right)
  rw [foldl_loadRow_marks] at hfolded
  exact ⟨_, hfolded⟩

omit [One K] in
theorem performsCheck_empty (now : Nat) :
    PerformsCheck now (emptyTrie K) :=
  Or.inl rfl

omit [One K] in
theorem start_of_rebuilds {tables : Tables K} {trie : TrieIndex K}
    (h : Rebuilds tables trie) :
    trie.start tables =
      (0, { trie with
        docs := some [], token_map := [], prefix_map := [] }) := by
  unfold TrieIndex.start
  rw [if_neg ((rebuilds_iff tables trie).mp h)]

/-- A full load enters what the tables give. -/
theorem stored_rebuilt (tables : Tables K) (doc_id : Nat) :
    (rebuiltTrie lower tables).stored doc_id =
      shownEntry lower tables doc_id := by
  have hrebuilds : Rebuilds tables (emptyTrie K) := Or.inl rfl
  unfold rebuiltTrie
  rw [stored_ensure lower (performsCheck_empty 0) (by decide)]
  unfold missingRows
  rw [start_of_rebuilds hrebuilds]
  exact Option.or_none

theorem clean_rebuilt (tables : Tables K) :
    exists docs, Clean lower
      { rebuiltTrie lower tables with max_doc_id := tables.maxDocId } docs :=
  clean_ensure lower (performsCheck_empty 0) (by decide)
    (Or.inl (Or.inl rfl))

/-- What an incremental load leaves below the watermark is what was there. -/
theorem stored_ensure_below {tables : Tables K} {trie : TrieIndex K}
    {now : Nat} {outcome : LoadOutcome} (hcheck : PerformsCheck now trie)
    (hcount : outcome ≠ .countFails) (hinc : Incremental tables trie)
    {doc_id : Nat} (hle : (doc_id : Int) ≤ trie.max_doc_id) :
    (ensureTrieLoaded lower tables now outcome trie).stored doc_id =
      trie.stored doc_id := by
  have hstart : trie.start tables = (trie.max_doc_id.toNat, trie) := by
    unfold TrieIndex.start
    rw [if_pos hinc]
  have hnone : ((outcome.taken (missingRows tables trie)).find? fun r =>
      r.doc_id = doc_id) = none := by
    apply List.find?_eq_none.mpr
    intro r hr hid
    have hrow := (taken_prefixed outcome _).subset hr
    unfold missingRows at hrow
    rw [hstart] at hrow
    have habove := (tables.rowsAbove_bounds hrow).left
    rw [of_decide_eq_true hid] at habove
    omega
  rw [stored_ensure lower hcheck hcount, hnone, hstart]
  rfl

/-!
## Every run
-/

/-- Nothing that counts is loaded, an entry was made at its write, or all are
those of loads. -/
def TrieInv (trie : TrieIndex K) : Prop :=
  trie.docs = none ∨ trie.max_doc_id < 0 ∨ HoldsLive trie ∨
    exists docs, Clean lower trie docs

theorem indexDocInTrie_live {trie : TrieIndex K} {mono : Nat}
    {live : LiveDoc K} (hdocs : trie.docs ≠ none)
    (hindexed : live.indexed_at.isSome = true) :
    HoldsLive (indexDocInTrie lower mono live trie) := by
  rcases Option.ne_none_iff_exists'.mp hdocs with ⟨docs, hsome⟩
  exists live.doc_id, liveEntry live
  unfold indexDocInTrie
  rw [hsome]
  dsimp only
  rw [if_pos hindexed]
  constructor
  · rw [stored_of_docs rfl, Dict.lookup_set, if_pos rfl]
  · constructor
    · rfl
    · exact Int.le_max_right _ _

theorem trieInv_ensure {tables : Tables K} {trie : TrieIndex K} {now : Nat}
    {outcome : LoadOutcome} (h : TrieInv lower trie) :
    TrieInv lower (ensureTrieLoaded lower tables now outcome trie) := by
  by_cases hcheck : PerformsCheck now trie
  · by_cases hcount : outcome = .countFails
    · unfold ensureTrieLoaded
      rw [if_pos hcheck, if_pos hcount]
      right
      left
      exact Int.negSucc_lt_zero 0
    · rcases ensure_eq lower tables hcheck hcount with
        ⟨m, c, heq, hm⟩
      rcases hm with rfl | ⟨rfl, _⟩
      · right
        left
        rw [heq]
        exact Int.negSucc_lt_zero 0
      · have hclean : Rebuilds tables trie ∨
            (exists docs, Clean lower trie docs) ->
            TrieInv lower
              (ensureTrieLoaded lower tables now outcome trie) := by
          intro hcase
          rcases clean_ensure lower hcheck hcount hcase with ⟨docs, hdocs⟩
          right
          right
          right
          exists docs
          rw [heq] at hdocs ⊢
          exact hdocs
        by_cases hinc : Incremental tables trie
        · rcases h with h | h | h | h
          · exact absurd h hinc.left
          · exact absurd hinc.right.left (not_le.mpr h)
          · rcases h with ⟨doc_id, entry, hentry, hlive, hle⟩
            right
            right
            left
            exists doc_id, entry
            rw [stored_ensure_below lower hcheck hcount hinc hle, heq]
            exact ⟨hentry, hlive, le_trans hle hinc.right.right.right⟩
          · exact hclean (Or.inr h)
        · exact hclean (Or.inl ((rebuilds_iff tables trie).mpr hinc))
  · unfold ensureTrieLoaded
    rw [if_neg hcheck]
    exact h

theorem trieInv_next {w : TrieWorld K} {event : TrieEvent K}
    (h : TrieInv lower w.trie) : TrieInv lower (w.next lower event).trie := by
  cases event with
  | change tables =>
      exact h
  | indexDurable tables call mono =>
      show TrieInv lower (indexDocInTrie lower mono call.live w.trie)
      by_cases hdocs : w.trie.docs = none
      · left
        unfold indexDocInTrie
        rw [hdocs]
        exact hdocs
      · right
        right
        left
        exact indexDocInTrie_live lower hdocs rfl
  | purge tables =>
      exact Or.inl rfl
  | ensure now outcome =>
      exact trieInv_ensure lower h

theorem trieInv_reachable {w : TrieWorld K}
    (h : Reachable (trieSystem lower) w) : TrieInv lower w.trie := by
  apply reachable_induction (P := fun w => TrieInv lower w.trie) _ _ h
  · intro w hinit
    left
    rw [show w.trie = emptyTrie K from hinit]
    rfl
  · intro w event w' _ hw hstep
    cases hstep
    exact trieInv_next lower hw

/-!
## A check in a run
-/

/-- Where the part below the watermark agrees, the index is one of loads. -/
theorem clean_of_agrees {tables : Tables K} {trie : TrieIndex K}
    (hinv : TrieInv lower trie) (hinc : Incremental tables trie)
    (hagrees : forall doc_id : Nat, (doc_id : Int) ≤ trie.max_doc_id ->
      trie.stored doc_id = shownEntry lower tables doc_id) :
    exists docs, Clean lower trie docs := by
  rcases hinv with h | h | h | h
  · exact absurd h hinc.left
  · exact absurd hinc.right.left (not_le.mpr h)
  · rcases h with ⟨doc_id, entry, hentry, hlive, hle⟩
    rw [hagrees doc_id hle] at hentry
    exact absurd hlive (shownEntry_lowered lower hentry)
  · exact h

omit [One K] in
theorem stored_above_of_clean {trie : TrieIndex K}
    {docs : List (Nat × TrieDoc K)} (h : Clean lower trie docs) (doc_id : Nat)
    (habove : ¬ (doc_id : Int) ≤ trie.max_doc_id) :
    trie.stored doc_id = none := by
  rw [stored_of_docs h.holds]
  cases hfound : docs.lookup doc_id with
  | none => rfl
  | some entry => exact absurd (h.bounded doc_id entry hfound) habove

/-- What is stored after a check that takes in all its rows. -/
theorem stored_ensure_all {tables : Tables K} {trie : TrieIndex K} {now : Nat}
    {outcome : LoadOutcome} (hinv : TrieInv lower trie)
    (hcheck : PerformsCheck now trie) (hcount : outcome ≠ .countFails)
    (hagrees : Rebuilds tables trie ∨ AgreesToWatermark lower tables trie)
    (hall : outcome.taken (missingRows tables trie) =
      missingRows tables trie) (doc_id : Nat) :
    (ensureTrieLoaded lower tables now outcome trie).stored doc_id =
      shownEntry lower tables doc_id := by
  rw [stored_ensure lower hcheck hcount, hall]
  unfold missingRows
  rw [find_rowsAbove]
  by_cases hinc : Incremental tables trie
  · have hbelow := hagrees.resolve_left fun hrebuilds =>
      (rebuilds_iff tables trie).mp hrebuilds hinc
    have hstart : trie.start tables = (trie.max_doc_id.toNat, trie) := by
      unfold TrieIndex.start
      rw [if_pos hinc]
    have hzero := hinc.right.left
    rw [hstart]
    split
    · rename_i habove
      rcases clean_of_agrees lower hinv hinc hbelow with ⟨docs, hdocs⟩
      have hnone := stored_above_of_clean lower hdocs doc_id (by omega)
      rw [hnone]
      exact Option.or_none
    · rename_i hnot
      exact hbelow doc_id (by omega)
  · rw [start_of_rebuilds ((rebuilds_iff tables trie).mpr hinc)]
    split
    · exact Option.or_none
    · rename_i hnot
      cases hshown : shownEntry lower tables doc_id with
      | none => rfl
      | some entry => exact absurd (shownEntry_pos lower hshown) hnot

/-- A check that finds the part below the watermark as it should be, and takes
in all its rows, ends with the index of a full load. -/
theorem equalsRebuilt_ensure {tables : Tables K} {trie : TrieIndex K}
    {now : Nat} {outcome : LoadOutcome} (hinv : TrieInv lower trie)
    (hcheck : PerformsCheck now trie) (hcount : outcome ≠ .countFails)
    (hagrees : Rebuilds tables trie ∨ AgreesToWatermark lower tables trie)
    (hall : outcome.taken (missingRows tables trie) =
      missingRows tables trie) :
    EqualsRebuilt lower tables
      (ensureTrieLoaded lower tables now outcome trie) := by
  have hstored := stored_ensure_all lower hinv hcheck hcount hagrees hall
  have hclean : Rebuilds tables trie ∨ exists docs, Clean lower trie docs := by
    by_cases hinc : Incremental tables trie
    · have hbelow := hagrees.resolve_left fun hrebuilds =>
        (rebuilds_iff tables trie).mp hrebuilds hinc
      exact Or.inr (clean_of_agrees lower hinv hinc hbelow)
    · exact Or.inl ((rebuilds_iff tables trie).mpr hinc)
  rcases clean_ensure lower hcheck hcount hclean with ⟨docs, hdocs⟩
  rcases clean_rebuilt lower tables with ⟨full, hfull⟩
  have hlookup : forall doc_id, docs.lookup doc_id = full.lookup doc_id := by
    intro doc_id
    rw [← stored_of_docs hdocs.holds, ← stored_of_docs hfull.holds]
    exact (hstored doc_id).trans (stored_rebuilt lower tables doc_id).symm
  constructor
  · exact ensure_docs lower hcheck hcount
  · intro doc_id
    rw [hstored, stored_rebuilt]
  · exact Postings.exact_unique hdocs.tokens hfull.tokens hlookup
  · exact Postings.exact_unique hdocs.prefixes hfull.prefixes hlookup

/-- An incremental check that ends with the entries of a full load has found
those below the watermark. -/
theorem agrees_of_stored {tables : Tables K} {trie : TrieIndex K} {now : Nat}
    {outcome : LoadOutcome} (hcheck : PerformsCheck now trie)
    (hcount : outcome ≠ .countFails) (hinc : Incremental tables trie)
    (h : forall doc_id,
      (ensureTrieLoaded lower tables now outcome trie).stored doc_id =
        shownEntry lower tables doc_id) :
    AgreesToWatermark lower tables trie := by
  intro doc_id hle
  rw [← stored_ensure_below lower hcheck hcount hinc hle]
  exact h doc_id

/-- It has taken in every row. -/
theorem all_taken_of_stored {tables : Tables K} {trie : TrieIndex K}
    {now : Nat} {outcome : LoadOutcome} (hinv : TrieInv lower trie)
    (hcheck : PerformsCheck now trie) (hcount : outcome ≠ .countFails)
    (h : forall doc_id,
      (ensureTrieLoaded lower tables now outcome trie).stored doc_id =
        shownEntry lower tables doc_id) :
    outcome.taken (missingRows tables trie) = missingRows tables trie := by
  rcases taken_prefixed outcome (missingRows tables trie) with ⟨rest, hrest⟩
  cases rest with
  | nil =>
      rw [List.append_nil] at hrest
      exact hrest
  | cons r rest =>
      exfalso
      have hrow : r ∈ missingRows tables trie := by
        rw [← hrest]
        exact List.mem_append_right _ List.mem_cons_self
      have hnodup := tables.rowsAbove_nodup (trie.start tables).1
      have hfind : ((outcome.taken (missingRows tables trie)).find? fun other =>
          other.doc_id = r.doc_id) = none := by
        apply List.find?_eq_none.mpr
        intro other hother hid
        rw [show tables.rowsAbove (trie.start tables).1 = _ from hrest.symm,
          List.map_append, List.nodup_append] at hnodup
        exact hnodup.right.right other.doc_id (List.mem_map_of_mem hother)
          r.doc_id (List.mem_map_of_mem List.mem_cons_self)
          (of_decide_eq_true hid)
      have hstored := h r.doc_id
      rw [stored_ensure lower hcheck hcount, hfind] at hstored
      have hbefore : (trie.start tables).2.stored r.doc_id = none := by
        by_cases hinc : Incremental tables trie
        · have hstart : trie.start tables =
              (trie.max_doc_id.toNat, trie) := by
            unfold TrieIndex.start
            rw [if_pos hinc]
          rcases clean_of_agrees lower hinv hinc
            (agrees_of_stored lower hcheck hcount hinc h) with ⟨docs, hdocs⟩
          rw [hstart]
          apply stored_above_of_clean lower hdocs r.doc_id
          unfold missingRows at hrow
          rw [hstart] at hrow
          have habove := (tables.rowsAbove_bounds hrow).left
          omega
        · rw [start_of_rebuilds ((rebuilds_iff tables trie).mpr hinc)]
          rfl
      rw [hbefore] at hstored
      have hshown := find_rowsAbove lower tables (trie.start tables).1 r.doc_id
      rw [if_pos (tables.rowsAbove_bounds hrow).left, ← hstored] at hshown
      have hnone := List.find?_eq_none.mp (Option.map_eq_none_iff.mp hshown)
      exact hnone r hrow (decide_eq_true rfl)

/-!
## Runs that keep what is loaded
-/

/-- A step leaves the entries up to the watermark as they are, enters nothing
itself, and does not end a load among its rows. -/
def KeepsLoaded (w : TrieWorld K) : TrieEvent K -> Prop
  | .change tables =>
      forall doc_id : Nat, (doc_id : Int) ≤ w.trie.max_doc_id ->
        shownEntry lower tables doc_id = shownEntry lower w.tables doc_id
  | .indexDurable _ _ _ => w.trie.docs = none
  | .purge _ => True
  | .ensure _ outcome =>
      forall n, outcome = .loopFails n ->
        (missingRows w.tables w.trie).length ≤ n

/-- Nothing that counts is loaded, or what is loaded is what the tables
have. -/
def KeptInv (w : TrieWorld K) : Prop :=
  w.trie.docs = none ∨ w.trie.max_doc_id < 0 ∨
    AgreesToWatermark lower w.tables w.trie

theorem rebuilds_or_agrees {w : TrieWorld K} (h : KeptInv lower w) :
    Rebuilds w.tables w.trie ∨ AgreesToWatermark lower w.tables w.trie := by
  rcases h with h | h | h
  · exact Or.inl (Or.inl h)
  · exact Or.inl (Or.inr (Or.inl h))
  · exact Or.inr h

theorem all_taken_of_keeps {w : TrieWorld K} {now : Nat}
    {outcome : LoadOutcome}
    (hkeeps : KeepsLoaded lower w (.ensure now outcome))
    (hcount : outcome ≠ .countFails)
    (hselect : outcome = .selectFails -> missingRows w.tables w.trie = []) :
    outcome.taken (missingRows w.tables w.trie) =
      missingRows w.tables w.trie := by
  cases outcome with
  | done =>
      rfl
  | countFails =>
      exact absurd rfl hcount
  | selectFails =>
      rw [hselect rfl]
      rfl
  | loopFails n =>
      exact List.take_of_length_le (hkeeps n rfl)

theorem keptInv_ensure {w : TrieWorld K} {now : Nat} {outcome : LoadOutcome}
    (hinv : TrieInv lower w.trie) (h : KeptInv lower w)
    (hkeeps : KeepsLoaded lower w (.ensure now outcome)) :
    KeptInv lower (w.next lower (.ensure now outcome)) := by
  show KeptInv lower
    { w with trie := ensureTrieLoaded lower w.tables now outcome w.trie }
  by_cases hcheck : PerformsCheck now w.trie
  · by_cases hcount : outcome = .countFails
    · right
      left
      unfold ensureTrieLoaded
      dsimp only
      rw [if_pos hcheck, if_pos hcount]
      exact Int.negSucc_lt_zero 0
    · rcases ensure_eq lower w.tables hcheck hcount with
        ⟨m, c, heq, hm⟩
      rcases hm with rfl | ⟨_, hselect⟩
      · right
        left
        rw [heq]
        exact Int.negSucc_lt_zero 0
      · right
        right
        intro doc_id _
        exact stored_ensure_all lower hinv hcheck hcount
          (rebuilds_or_agrees lower h)
          (all_taken_of_keeps lower hkeeps hcount hselect) doc_id
  · unfold ensureTrieLoaded
    rw [if_neg hcheck]
    exact h

theorem keptInv_next {w : TrieWorld K} {event : TrieEvent K}
    (hinv : TrieInv lower w.trie) (h : KeptInv lower w)
    (hkeeps : KeepsLoaded lower w event) :
    KeptInv lower (w.next lower event) := by
  cases event with
  | change tables =>
      rcases h with h | h | h
      · exact Or.inl h
      · exact Or.inr (Or.inl h)
      · right
        right
        intro doc_id hle
        exact (h doc_id hle).trans (hkeeps doc_id hle).symm
  | indexDurable tables call mono =>
      left
      show (indexDocInTrie lower mono call.live w.trie).docs = none
      unfold indexDocInTrie
      rw [show w.trie.docs = none from hkeeps]
      exact hkeeps
  | purge tables =>
      exact Or.inl rfl
  | ensure now outcome =>
      exact keptInv_ensure lower hinv h hkeeps

theorem keptInv_reachable {w : TrieWorld K}
    (h : Reachable ((trieSystem lower).Restrict (KeepsLoaded lower)) w) :
    KeptInv lower w := by
  apply reachable_induction (P := fun w => KeptInv lower w) _ _ h
  · intro w hinit
    left
    rw [show w.trie = emptyTrie K from hinit]
    rfl
  · intro w event w' hreach hw hstep
    rcases hstep with ⟨hkeeps, hnext⟩
    have hinv := trieInv_reachable lower (reachable_of_restrict hreach)
    cases hnext
    exact keptInv_next lower hinv hw hkeeps

/-- A document that is not blocked has its entry in an index that equals a full
load. -/
theorem stored_of_equalsRebuilt {tables : Tables K} {trie : TrieIndex K}
    (h : EqualsRebuilt lower tables trie) {doc : StoredDoc K}
    (hdoc : doc ∈ tables.documents) (hpos : 0 < doc.doc_id)
    (hopen : doc.privacy_level.getD "safe" ≠ "blocked") :
    (trie.stored doc.doc_id).isSome = true := by
  rw [h.documents, stored_rebuilt]
  unfold shownEntry
  rw [Option.isSome_map, List.find?_isSome]
  exists tables.rowOf doc
  constructor
  · rw [tables.rowsAbove_eq_map]
    apply List.mem_map_of_mem
    apply List.mem_filter.mpr
    constructor
    · exact hdoc
    · unfold Tables.loadedAbove
      rw [decide_eq_true hpos, bne_iff_ne.mpr hopen]
      rfl
  · exact decide_eq_true (tables.rowOf_doc_id doc)

/-- In every run, a check ends with the index of a full load exactly when it
builds the index again or finds the entries up to the watermark as the tables
have them, and takes in every row.  In runs whose steps keep what is loaded
every complete check does. -/
theorem ensure_equals_rebuilt_iff {w : TrieWorld K} {now : Nat}
    {outcome : LoadOutcome} (hreach : Reachable (trieSystem lower) w)
    (hcheck : PerformsCheck now w.trie) (hcount : outcome ≠ .countFails) :
    (EqualsRebuilt lower w.tables
        (ensureTrieLoaded lower w.tables now outcome w.trie) <->
      (Rebuilds w.tables w.trie ∨
          AgreesToWatermark lower w.tables w.trie) ∧
        outcome.taken (missingRows w.tables w.trie) =
          missingRows w.tables w.trie) ∧
    (Reachable ((trieSystem lower).Restrict (KeepsLoaded lower)) w ->
      EqualsRebuilt lower w.tables
        (ensureTrieLoaded lower w.tables now .done w.trie)) := by
  have hinv := trieInv_reachable lower hreach
  constructor
  · constructor
    · intro h
      have hstored : forall doc_id,
          (ensureTrieLoaded lower w.tables now outcome w.trie).stored doc_id =
            shownEntry lower w.tables doc_id := by
        intro doc_id
        rw [h.documents, stored_rebuilt]
      constructor
      · by_cases hinc : Incremental w.tables w.trie
        · exact Or.inr (agrees_of_stored lower hcheck hcount hinc hstored)
        · exact Or.inl ((rebuilds_iff w.tables w.trie).mpr hinc)
      · exact all_taken_of_stored lower hinv hcheck hcount hstored
    · intro h
      exact equalsRebuilt_ensure lower hinv hcheck hcount h.left h.right
  · intro hkept
    exact equalsRebuilt_ensure lower hinv hcheck (by decide)
      (rebuilds_or_agrees lower (keptInv_reachable lower hkept)) rfl

end Checking

/-!
## A load that failed
-/

namespace Lost

def stored (doc_id : Nat) (path : String) : StoredDoc Rat :=
  { doc_id := doc_id
    path := path
    agent := some "main"
    sigil := none
    decay_score := some 1
    page_status := some "candidate"
    privacy_level := some "safe"
    page_type := none
    evidence_refs := none
    indexed_at := some 5
    layer := none }

def chunk (doc_id : Nat) (chunk_text : String) : StoredChunk :=
  { doc_id := doc_id
    chunk_index := 0
    chunk_text := some chunk_text
    heading_context := none }

/-- One document is there. -/
def before : Tables Rat :=
  { documents := [stored 1 "notes/plan.md"]
    chunk_embeddings := [chunk 1 "first draft"]
    vault_fts := []
    oneDocument := by decide
    oneChunk := List.pairwise_singleton _ _ }

def after : Tables Rat :=
  { documents := [stored 1 "notes/plan.md", stored 2 "learning:7"]
    chunk_embeddings := [chunk 1 "first draft", chunk 2 "short note"]
    vault_fts := []
    oneDocument := by decide
    oneChunk := by
      apply List.pairwise_pair.mpr
      intro hsame
      exact absurd hsame.left (by decide) }

/-- The process writes the second document itself. -/
def call : DurableCall Rat :=
  { doc_id := 2
    path := "learning:7"
    agent := "main"
    sigil := ""
    content := "short note"
    heading_path := ""
    page_status := "candidate"
    privacy_level := "safe"
    page_type := none
    now := 6
    layer := "knowledge" }

def start : TrieWorld Rat :=
  { tables := before, trie := emptyTrie Rat }

/-- The first load cannot read the rows, then the second document is
written. -/
def history : List (TrieEvent Rat) :=
  [.ensure 40000 .selectFails, .indexDurable after call 41000]

def end_ : TrieWorld Rat :=
  (start.next String.toLower (.ensure 40000 .selectFails)).next
    String.toLower (.indexDurable after call 41000)

theorem reachable_end : Reachable (trieSystem String.toLower) end_ := by
  have hrun : exec (fun w event => some (w.next String.toLower event)) start
      history = some end_ := by
    rfl
  exact ⟨start, history, rfl, run_of_exec hrun⟩

/-- The first load of a process gives the index of a full load. -/
theorem ensure_equals_rebuilt_iff_start :
    EqualsRebuilt String.toLower start.tables
        (ensureTrieLoaded String.toLower start.tables 40000 .done
          start.trie) ∧
      EqualsRebuilt String.toLower start.tables
        (ensureTrieLoaded String.toLower start.tables 40000 .done
          start.trie) := by
  have hcheck : PerformsCheck 40000 start.trie := Or.inl rfl
  have hreach : Reachable (trieSystem String.toLower) start :=
    reachable_initial rfl
  have hcount : LoadOutcome.done ≠ .countFails := by
    decide
  have hboth := ensure_equals_rebuilt_iff String.toLower hreach hcheck hcount
  constructor
  · exact hboth.left.mpr ⟨Or.inl (Or.inl rfl), rfl⟩
  · exact hboth.right (reachable_initial rfl)

/-- The next load takes the index for one that lacks new documents only, and
the first document stays missing. -/
theorem earlier_missing :
    exists (w : TrieWorld Rat) (doc : StoredDoc Rat),
      Reachable (trieSystem String.toLower) w ∧
      PerformsCheck 80000 w.trie ∧
      doc ∈ w.tables.documents ∧
      doc.privacy_level.getD "safe" ≠ "blocked" ∧
      (ensureTrieLoaded String.toLower w.tables 80000 .done
        w.trie).stored doc.doc_id = none ∧
      ¬ EqualsRebuilt String.toLower w.tables
        (ensureTrieLoaded String.toLower w.tables 80000 .done w.trie) := by
  have hstored : (ensureTrieLoaded String.toLower end_.tables 80000 .done
      end_.trie).stored 1 = none := by
    rfl
  have hopen : (stored 1 "notes/plan.md").privacy_level.getD "safe" ≠
      "blocked" := by
    decide
  have hmem : stored 1 "notes/plan.md" ∈ end_.tables.documents :=
    List.mem_cons_self
  have hcheck : PerformsCheck 80000 end_.trie := by
    right
    show 41000 + 30000 ≤ 80000
    decide
  exists end_, stored 1 "notes/plan.md"
  constructor
  · exact reachable_end
  · constructor
    · exact hcheck
    · constructor
      · exact hmem
      · constructor
        · exact hopen
        · constructor
          · exact hstored
          · intro hequal
            have hsome := stored_of_equalsRebuilt String.toLower hequal hmem
              (by decide) hopen
            rw [show (stored 1 "notes/plan.md").doc_id = 1 from rfl, hstored]
              at hsome
            cases hsome

end Lost

end Recall
end Minni
