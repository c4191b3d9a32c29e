import Minni.Foundation.TopK
import Mathlib.Logic.Function.Basic

/-!
# The vector index

The index keeps the chunk ids and the raw vectors side by side, two maps
between internal positions and chunk ids, and an index that searches by inner
product over normalized vectors.  A removal only takes the id out of the two
maps; the entry itself stays until the index is built again.
-/

namespace Minni
namespace Daemon

open Foundation

/-- Vectors under cosine similarity: the inner product of normalized ones. -/
structure Metric (vec score : Type) where
  normalize : vec -> vec
  inner : vec -> vec -> score
  normalize_idem : forall v, normalize (normalize v) = normalize v

inductive IndexType where
  | flat
  | hnsw
  | numpy
deriving DecidableEq

inductive FaissIndexType where
  | auto
  | flat
  | hnsw
deriving DecidableEq

structure IndexHost (vec score : Type) [LinearOrder score] where
  metric : Metric vec score
  /-- The search of the index, and the sort that stands in for it. -/
  topK : TopK score
  /-- The library is there. -/
  faiss : Bool
  /-- `reconstruct_n` gives the vectors back. -/
  reconstructs : Bool
  faiss_index_type : FaissIndexType
  hnsw_threshold : Nat

structure FaissState (vec : Type) where
  /-- The normalized vectors that the index holds, in order. -/
  index : Option (List vec)
  id_map : Nat -> Option Nat
  reverse_map : Nat -> Option Nat
  vectors : List vec
  chunk_ids : List Nat
  current_type : IndexType
  invalidated : Bool
  ready : Bool
  generation : Nat

/-- What a save leaves on disk. -/
structure SavedIndex (vec : Type) where
  index : Option (List vec)
  index_type : IndexType
  vectors : List vec
  chunk_ids : List Nat
  db_checksum : String

section Index

variable {vec score : Type} [LinearOrder score]

def FaissState.empty : FaissState vec where
  index := none
  id_map := fun _ => none
  reverse_map := fun _ => none
  vectors := []
  chunk_ids := []
  current_type := IndexType.flat
  invalidated := false
  ready := false
  generation := 0

def FaissState.count (st : FaissState vec) : Nat :=
  st.chunk_ids.length

/-!
## Building
-/

/-- `enumerate`: the position of each id, the last one where it is twice. -/
def reverseMap (chunk_ids : List Nat) : Nat -> Option Nat :=
  chunk_ids.zipIdx.foldl
    (fun map entry => Function.update map entry.1 (some entry.2))
    fun _ => none

variable (host : IndexHost vec score)

/-- `_construct_state` and `_apply_state_locked` for a list of vectors with
their ids. -/
def constructState (pairs : List (Nat × vec)) (st : FaissState vec) :
    FaissState vec :=
  let chunk_ids := pairs.map Prod.fst
  let vectors := pairs.map Prod.snd
  let should_hnsw := host.faiss_index_type = FaissIndexType.hnsw ||
    (host.faiss_index_type = FaissIndexType.auto &&
      host.hnsw_threshold ≤ pairs.length)
  { index :=
      if host.faiss then some (vectors.map host.metric.normalize) else none
    id_map := fun i => chunk_ids[i]?
    reverse_map := reverseMap chunk_ids
    vectors := vectors
    chunk_ids := chunk_ids
    current_type :=
      if !host.faiss then IndexType.numpy
      else if should_hnsw && 1000 ≤ pairs.length then IndexType.hnsw
      else IndexType.flat
    invalidated := false
    ready := true
    generation := st.generation }

def buildFromVectors (pairs : List (Nat × vec)) (st : FaissState vec) :
    FaissState vec :=
  if pairs.isEmpty then st else constructState host pairs st

/-- A staged build is constructed when it starts and published here. -/
def commitStaged (pairs : List (Nat × vec)) (expected_generation : Nat)
    (st : FaissState vec) : Bool × FaissState vec :=
  if st.generation ≠ expected_generation then (false, st)
  else (true, constructState host pairs st)

/-!
## Adding and removing
-/

/-- `_reconstruct_vectors_from_index`. -/
def reconstructVectors (st : FaissState vec) : Option (List vec) :=
  match st.index with
  | none => none
  | some vecs =>
      if !st.chunk_ids.isEmpty && host.reconstructs && !vecs.isEmpty &&
          vecs.length = st.chunk_ids.length then
        some vecs
      else none

/-- `_index_add_normalized`. -/
def indexAdd (v : vec) (index : Option (List vec)) : Option (List vec) :=
  if host.faiss then index.map (· ++ [host.metric.normalize v]) else index

/-- The entry of one more chunk, with the raw vectors that there are then. -/
def appendEntry (chunk_id : Nat) (v : vec) (vectors : List vec)
    (st : FaissState vec) : FaissState vec :=
  { st with
    chunk_ids := st.chunk_ids ++ [chunk_id]
    vectors := vectors
    id_map := Function.update st.id_map st.chunk_ids.length (some chunk_id)
    reverse_map :=
      Function.update st.reverse_map chunk_id (some st.chunk_ids.length)
    index := indexAdd host v st.index }

/-- The index has become large enough for the other kind. -/
def crossesThreshold (st : FaissState vec) : Bool :=
  host.faiss && st.index.isSome && st.current_type = IndexType.flat &&
    host.faiss_index_type = FaissIndexType.auto &&
    host.hnsw_threshold ≤ st.count

def addPaired (chunk_id : Nat) (v : vec) (st : FaissState vec) :
    FaissState vec :=
  let added := appendEntry host chunk_id v (st.vectors ++ [v]) st
  if crossesThreshold host added then
    buildFromVectors host (added.chunk_ids.zip added.vectors) added
  else added

def addVector (chunk_id : Nat) (v : vec) (st : FaissState vec) :
    FaissState vec :=
  if st.invalidated then st
  else if !st.chunk_ids.isEmpty &&
      st.vectors.length ≠ st.chunk_ids.length then
    match reconstructVectors host st with
    | none => appendEntry host chunk_id v [] st
    | some vectors => addPaired host chunk_id v { st with vectors := vectors }
  else addPaired host chunk_id v st

def removeVector (chunk_id : Nat) (st : FaissState vec) : FaissState vec :=
  match st.reverse_map chunk_id with
  | none => st
  | some idx =>
      { st with
        reverse_map := Function.update st.reverse_map chunk_id none
        id_map := Function.update st.id_map idx none }

/-- An id that is there already is left as it is. -/
def addOnce (st : FaissState vec) (pair : Nat × vec) : FaissState vec :=
  if (st.reverse_map pair.1).isSome then st
  else addVector host pair.1 pair.2 st

def addBatch (pairs : List (Nat × vec)) (st : FaissState vec) :
    Bool × FaissState vec :=
  if !st.ready then (false, st) else (true, pairs.foldl (addOnce host) st)

def removeBatch (chunk_ids : List Nat) (st : FaissState vec) :
    Bool × FaissState vec :=
  if !st.ready then (false, st)
  else (true, chunk_ids.foldl (fun st chunk_id => removeVector chunk_id st) st)

/-!
## Searching
-/

/-- The index that a search uses, if it can. -/
def liveIndex (st : FaissState vec) : Option (List vec) :=
  if host.faiss then st.index else none

/-- The vectors over which a search ranks: those of the index, or the raw ones
normalized. -/
def rankedVectors (st : FaissState vec) : List vec :=
  match liveIndex host st with
  | some vecs => vecs
  | none => st.vectors.map host.metric.normalize

def similarities (query : vec) (st : FaissState vec) : List score :=
  (rankedVectors host st).map (host.metric.inner (host.metric.normalize query))

/-- Twice as many hits as asked for, for those that are removed. -/
def rankedHits (query : vec) (top_k : Nat) (st : FaissState vec) :
    List (score × Nat) :=
  host.topK.run (similarities host query st)
    (if (liveIndex host st).isSome then min (top_k * 2) st.count
    else top_k * 2)

/-- The id at a position, unless it is removed. -/
def chunkAt (st : FaissState vec) (idx : Nat) : Option Nat :=
  match st.id_map idx with
  | none => none
  | some chunk_id =>
      if (st.reverse_map chunk_id).isSome then some chunk_id else none

/-- The loop over the hits. -/
def collectHits (st : FaissState vec) (top_k : Nat) :
    List (score × Nat) -> List (Nat × score) -> List (Nat × score)
  | [], results => results
  | (s, idx) :: rest, results =>
      let results' :=
        match chunkAt st idx with
        | some chunk_id => results ++ [(chunk_id, s)]
        | none => results
      if top_k ≤ results'.length then results'
      else collectHits st top_k rest results'

def search (query : vec) (top_k : Nat) (st : FaissState vec) :
    List (Nat × score) :=
  if st.count = 0 then []
  else collectHits st top_k (rankedHits host query top_k st) []

/-!
## Rebuilding
-/

/-- The entries whose ids are not removed. -/
def liveEntries (st : FaissState vec) (vectors : List vec) :
    List (Nat × vec) :=
  (st.chunk_ids.zip vectors).filter fun entry =>
    (st.reverse_map entry.1).isSome

def clearIndex (st : FaissState vec) : FaissState vec :=
  { st with
    ready := false
    chunk_ids := []
    vectors := []
    id_map := fun _ => none
    reverse_map := fun _ => none
    index := none }

def rebuildWith (vectors : List vec) (st : FaissState vec) : FaissState vec :=
  let live := liveEntries st vectors
  if live.isEmpty then clearIndex st else constructState host live st

def rebuild (st : FaissState vec) : FaissState vec :=
  if st.chunk_ids.isEmpty then st
  else if st.vectors.isEmpty then
    match reconstructVectors host st with
    | none => st
    | some vectors => rebuildWith host vectors st
  else rebuildWith host st.vectors st

def invalidate (st : FaissState vec) : FaissState vec :=
  { clearIndex st with
    invalidated := true
    generation := st.generation + 1 }

/-!
## Disk
-/

/-- What `save_to_disk` writes, unless it skips. -/
def savedIndex (checksum : String) (st : FaissState vec) :
    Option (SavedIndex vec) :=
  if st.count = 0 || !st.ready then none
  else if st.index.isNone && st.vectors.isEmpty then none
  else
    some
      { index := st.index
        index_type := st.current_type
        vectors := st.vectors
        chunk_ids := st.chunk_ids
        db_checksum := checksum }

/-- A restored index, before its raw vectors are recovered. -/
def restoredState (saved : SavedIndex vec) (vecs : List vec)
    (st : FaissState vec) : FaissState vec :=
  { index := some vecs
    id_map := fun i => saved.chunk_ids[i]?
    reverse_map := reverseMap saved.chunk_ids
    vectors := []
    chunk_ids := saved.chunk_ids
    current_type :=
      if saved.index_type = IndexType.hnsw then IndexType.hnsw
      else IndexType.flat
    invalidated := false
    ready := true
    generation := st.generation }

def tryLoadFromDisk (disk : Option (SavedIndex vec)) (checksum : String)
    (st : FaissState vec) : Bool × FaissState vec :=
  match disk with
  | none => (false, st)
  | some saved =>
      if saved.db_checksum ≠ checksum then (false, st)
      else
        match saved.index with
        | some vecs =>
            let restored := restoredState saved vecs st
            (true,
              { restored with
                vectors := (reconstructVectors host restored).getD [] })
        | none =>
            if saved.vectors.isEmpty then (false, st)
            else
              (true,
                buildFromVectors host (saved.chunk_ids.zip saved.vectors) st)

end Index

end Daemon
end Minni
