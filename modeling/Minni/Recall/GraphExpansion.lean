import Mathlib.Algebra.Order.Ring.Rat
import Mathlib.Data.Prod.Lex
import Mathlib.Data.String.Basic
import Minni.Daemon.ReadGate
import Minni.Foundation.Dict
import Minni.Foundation.Paging

/-!
# The expansion of a recall along typed links

The first hits of a recall are seeds.  From each seed that the principal may
read, the active links are walked in both directions, a page at a time, and from
the best neighbours once more.  A neighbour is a learning that is open and that
the principal may read; the best path to it gives its score.
-/

namespace Minni
namespace Recall
namespace Expansion

open Foundation

/-!
## Numbers
-/

/-- The floats other than NaN: which of them are finite, and the float of a
constant. -/
structure FloatHost (R : Type) where
  isFinite : R -> Bool
  ofRat : Rat -> R

/-- A value of a column or of a seed. -/
inductive Value (R : Type) where
  | null
  | num (r : R)
  | other

def typeFactors : List (String × Rat) :=
  [("updates", 1.00), ("contradicts", 0.95), ("extends", 0.85),
    ("derived_from", 0.75), ("wikilink", 0.70), ("relates", 0.55)]

def allowedLinkTypes : List String :=
  typeFactors.map (·.1)

def twoHopTypes : List String :=
  ["updates", "extends", "derived_from"]

def hopDecay : Rat := 0.65

def maxSeeds : Nat := 8

def maxNeighborsPerSeed : Nat := 6

def maxGraphCandidates : Nat := 12

def maxSeedPrefix : Nat := maxSeeds

def edgePageSize : Nat := 32

section Numbers

variable {R : Type} [LinearOrder R] (float : FloatHost R)

def factorOf (link_type : String) : R :=
  float.ofRat ((typeFactors.lookup link_type).getD 0)

def finiteUnit : Value R -> Option R
  | .num score =>
      if !float.isFinite score || decide (score < float.ofRat 0) ||
          decide (float.ofRat 1 < score) then none
      else some score
  | _ => none

def legacyOrUnit : Value R -> Option R
  | .null => some (float.ofRat 1)
  | value => finiteUnit float value

def legacyOrWeight : Value R -> Option R
  | .null => some (float.ofRat 1)
  | .num weight =>
      if !float.isFinite weight || decide (weight < float.ofRat 0) then none
      else some weight
  | .other => none

omit [LinearOrder R] in
def finiteScore : Value R -> Option R
  | .num score => if float.isFinite score then some score else none
  | _ => none

end Numbers

/-!
## The store
-/

structure DocumentRow where
  doc_id : Int
  path : String
  agent : Option String
  sigil : Option String
  privacy_level : Option String
  page_status : Option String
  page_type : Option String
  memory_kind : Option String
  deriving DecidableEq

structure LinkRow (R : Type) where
  source_doc_id : Int
  target_doc_id : Int
  link_type : String
  weight : Value R
  confidence : Value R
  edge_status : String
  inference_run_id : Option String
  model_id : Option String
  inference_method : Option String

structure ChunkRow where
  chunk_id : Option Int
  doc_id : Int
  chunk_index : Int
  chunk_text : Option String
  heading_context : Option String

/-- A snapshot of the database; the tables keep their primary keys. -/
structure GraphStore (R : Type) where
  /-- The real path of the main file. -/
  file : String
  ready : Bool
  documents : List DocumentRow
  links : List (LinkRow R)
  chunk_embeddings : List ChunkRow
  documents_key : documents.Pairwise fun a b => a.doc_id ≠ b.doc_id
  links_key : links.Pairwise fun a b =>
    (a.source_doc_id, a.target_doc_id, a.link_type) ≠
      (b.source_doc_id, b.target_doc_id, b.link_type)

def GraphStore.find {R : Type} (db : GraphStore R) (doc_id : Int) :
    Option DocumentRow :=
  db.documents.find? fun row => row.doc_id = doc_id

/-!
## Documents
-/

/-- `value or fallback` -/
def orText (value : Option String) (fallback : String) : String :=
  match value with
  | none => fallback
  | some text => if text = "" then fallback else text

structure Metadata where
  doc_id : Int
  store_id : String
  path : String
  agent : Option String
  sigil : Option String
  privacy_level : String
  page_status : String
  page_type : Option String
  memory_kind : Option String
  deriving DecidableEq

def documentMetadata (row : DocumentRow) (store_id : String) : Metadata where
  doc_id := row.doc_id
  store_id := store_id
  path := row.path
  agent := row.agent
  sigil := row.sigil
  privacy_level := orText row.privacy_level "safe"
  page_status := orText row.page_status "candidate"
  page_type := row.page_type
  memory_kind := row.memory_kind

def textOrNull : Option String -> Json
  | none => Json.null
  | some text => Json.str text

def Metadata.toJson (metadata : Metadata) : Json :=
  Json.obj
    [("doc_id", Json.num (JsonNumber.int metadata.doc_id)),
      ("store_id", Json.str metadata.store_id),
      ("path", Json.str metadata.path),
      ("agent", textOrNull metadata.agent),
      ("sigil", textOrNull metadata.sigil),
      ("privacy_level", Json.str metadata.privacy_level),
      ("page_status", Json.str metadata.page_status),
      ("page_type", textOrNull metadata.page_type),
      ("memory_kind", textOrNull metadata.memory_kind)]

def requiredMemoryKind : String := "learning"

def requiredPageType : String := "learning"

def closedStatuses : List String :=
  ["draft", "expired", "rejected", "superseded"]

/-- Who asks, in which workspace, and of which store. -/
structure Asker where
  host : Daemon.ReadHost
  principal : Daemon.EffectivePrincipal
  workspace : String
  store_id : String

namespace Asker

variable (asker : Asker)

def authorized (metadata : Metadata) : Bool :=
  Daemon.canReadDocument asker.host (some asker.principal) asker.workspace
    metadata.toJson

def seedUsable (metadata : Metadata) : Bool :=
  decide (metadata.memory_kind = some requiredMemoryKind) &&
    decide (asker.host.lower (metadata.page_type.getD "") =
      requiredPageType) &&
    decide (asker.host.lower metadata.privacy_level ≠ "blocked")

def neighborEligible (metadata : Metadata) : Bool :=
  decide (metadata.memory_kind = some requiredMemoryKind) &&
    decide (asker.host.lower (metadata.page_type.getD "") =
      requiredPageType) &&
    decide (asker.host.lower metadata.privacy_level ≠ "blocked") &&
    !closedStatuses.contains metadata.page_status

end Asker

/-- `lower` of SQLite. -/
def sqlLower (text : String) : String :=
  String.ofList (text.toList.map Char.toLower)

/-- The predicates of the edge page on the document. -/
def sqlEligible (row : DocumentRow) : Bool :=
  decide (row.memory_kind = some requiredMemoryKind) &&
    decide (sqlLower (row.page_type.getD "") = requiredPageType) &&
    decide (sqlLower (row.privacy_level.getD "safe") ≠ "blocked") &&
    !closedStatuses.contains (row.page_status.getD "candidate")

/-!
## Seeds
-/

structure SeedItem (R : Type) where
  /-- Nothing where it is no integer. -/
  doc_id : Option Int
  /-- Nothing where the key is absent. -/
  score : Option (Value R)
  rrf_score : Value R
  store_id : Option Json

inductive ExpandError where
  | workspace_not_text
  | store_id_blank
  | max_depth
  | seeds_no_sequence
  | seed_aliasing (doc_id : Int)
  | store_aliasing (store_id bound : String)
  deriving DecidableEq, Repr

/-- `seed_store == store_id` -/
def isStore (store_id : String) : Json -> Bool
  | Json.str text => text = store_id
  | _ => false

section Seeds

variable {R : Type} (float : FloatHost R)

/-- The loop over the prefix; an item that is no mapping is skipped. -/
def boundedSeedsFrom (store_id : String) :
    List (Option (SeedItem R)) -> List (Int × R) ->
      Except ExpandError (List (Int × R))
  | [], ranked => .ok ranked
  | none :: rest, ranked => boundedSeedsFrom store_id rest ranked
  | some raw :: rest, ranked =>
      match raw.doc_id, finiteScore float (raw.score.getD raw.rrf_score),
          raw.store_id with
      | some doc_id, some score, some seed_store =>
          if !isStore store_id seed_store then .error (.seed_aliasing doc_id)
          else if ranked.any fun seed => seed.1 = doc_id then
            boundedSeedsFrom store_id rest ranked
          else if maxSeeds ≤ ranked.length + 1 then
            .ok (ranked ++ [(doc_id, score)])
          else boundedSeedsFrom store_id rest (ranked ++ [(doc_id, score)])
      | _, _, _ => boundedSeedsFrom store_id rest ranked

def boundedSeeds (seeds : Option (List (Option (SeedItem R))))
    (store_id : String) : Except ExpandError (List (Int × R)) :=
  match seeds with
  | none => .error .seeds_no_sequence
  | some items =>
      boundedSeedsFrom float store_id (items.take maxSeedPrefix) []

def authorizeSeeds (asker : Asker) (db : GraphStore R)
    (ranked_seeds : List (Int × R)) : List (Int × R) :=
  ranked_seeds.filter fun seed =>
    match db.find seed.1 with
    | none => false
    | some row =>
        let metadata := documentMetadata row asker.store_id
        asker.authorized metadata && asker.seedUsable metadata

end Seeds

/-!
## Edges
-/

inductive Direction where
  | outgoing
  | incoming
  deriving DecidableEq, Repr

namespace Direction

variable {R : Type}

/-- The end of the link that the walk is at. -/
def seedCol (link : LinkRow R) : Direction -> Int
  | outgoing => link.source_doc_id
  | incoming => link.target_doc_id

def neighborCol (link : LinkRow R) : Direction -> Int
  | outgoing => link.target_doc_id
  | incoming => link.source_doc_id

end Direction

structure EdgeRow (R : Type) where
  link : LinkRow R
  document : DocumentRow
  direction : Direction

/-- `(d.doc_id, ml.link_type)` -/
def EdgeRow.key {R : Type} (row : EdgeRow R) : Int ×ₗ String :=
  toLex (row.document.doc_id, row.link.link_type)

/-- The join of the edge page and its predicates, apart from the keyset. -/
def edgeRows {R : Type} (db : GraphStore R) (seed_doc_id : Int)
    (direction : Direction) (link_types : List String) : List (EdgeRow R) :=
  db.links.filterMap fun link =>
    if direction.seedCol link = seed_doc_id ∧ link.edge_status = "active" ∧
        link.link_type ∈ link_types ∧
        link.source_doc_id ≠ link.target_doc_id then
      match db.find (direction.neighborCol link) with
      | none => none
      | some document =>
          if sqlEligible document then some { link, document, direction }
          else none
    else none

def fetchEdgePage {R : Type} (db : GraphStore R) (seed_doc_id : Int)
    (direction : Direction) (link_types : List String)
    (after : Int ×ₗ String) : List (EdgeRow R) :=
  Paging.page EdgeRow.key edgePageSize
    (edgeRows db seed_doc_id direction link_types) after

structure Hop (R : Type) where
  from_doc_id : Int
  to_doc_id : Int
  link_type : String
  direction : Direction
  confidence : R
  weight : R
  inference_run_id : Option String
  model_id : Option String
  inference_method : Option String
  store_id : String

structure Neighbor (R : Type) where
  metadata : Metadata
  graph_score : R
  seed_doc_id : Int
  graph_paths : List (Hop R)
  graph_depth : Nat
  link_type : String

def Neighbor.doc_id {R : Type} (item : Neighbor R) : Int :=
  item.metadata.doc_id

/-- Where a walk starts: a seed or an intermediate. -/
structure Origin (R : Type) where
  doc_id : Int
  score : R
  graph_paths : List (Hop R)
  graph_depth : Nat

section Consider

variable {R : Type} [LinearOrder R] [Mul R] (float : FloatHost R)
variable (asker : Asker) (seed_doc_id : Int) (seed_ids : List Int)

/-- What a row gives, with the link types of the hop and its decay. -/
def considerFrom (link_types : List String) (decay : R -> R)
    (origin : Origin R) (row : EdgeRow R) : Option (Neighbor R) :=
  let link_type := row.link.link_type
  let neighbor_id := row.document.doc_id
  if !link_types.contains link_type then none
  else if neighbor_id = origin.doc_id then none
  else if seed_ids.contains neighbor_id then none
  else
    match legacyOrWeight float row.link.weight,
        legacyOrUnit float row.link.confidence with
    | some weight, some confidence =>
        let metadata := documentMetadata row.document asker.store_id
        if !asker.authorized metadata then none
        else if !asker.neighborEligible metadata then none
        else
          some
            { metadata := metadata
              graph_score :=
                decay (origin.score * factorOf float link_type * weight *
                  confidence)
              seed_doc_id := seed_doc_id
              graph_paths := origin.graph_paths ++
                [{ from_doc_id := origin.doc_id
                   to_doc_id := neighbor_id
                   link_type := link_type
                   direction := row.direction
                   confidence := confidence
                   weight := weight
                   inference_run_id := row.link.inference_run_id
                   model_id := row.link.model_id
                   inference_method := row.link.inference_method
                   store_id := asker.store_id }]
              graph_depth := origin.graph_depth + 1
              link_type := link_type }
    | _, _ => none

def considerEdge (seed_score : R) (row : EdgeRow R) : Option (Neighbor R) :=
  considerFrom float asker seed_doc_id seed_ids allowedLinkTypes id
    { doc_id := seed_doc_id
      score := seed_score
      graph_paths := []
      graph_depth := 0 } row

def considerSecondHop (parent : Neighbor R) (row : EdgeRow R) :
    Option (Neighbor R) :=
  considerFrom float asker seed_doc_id seed_ids twoHopTypes
    (fun score => score * float.ofRat hopDecay)
    { doc_id := parent.doc_id
      score := parent.graph_score
      graph_paths := parent.graph_paths
      graph_depth := parent.graph_depth } row

end Consider

/-!
## The best path to each neighbour
-/

abbrev Best (R : Type) := List (Int × Neighbor R)

section Best

variable {R : Type} [LinearOrder R]

def edgeWins (candidate prev : Neighbor R) : Bool :=
  decide (prev.graph_score < candidate.graph_score) ||
    (decide (candidate.graph_score = prev.graph_score) &&
      decide (candidate.link_type < prev.link_type))

def farWins (item prev : Neighbor R) : Bool :=
  if item.graph_score ≠ prev.graph_score then
    decide (prev.graph_score < item.graph_score)
  else if item.graph_depth ≠ prev.graph_depth then
    decide (item.graph_depth < prev.graph_depth)
  else decide (item.link_type < prev.link_type)

/-- The entry of a document, unless the one that is there stays. -/
def keep (wins : Neighbor R -> Neighbor R -> Bool) (best : Best R)
    (item : Neighbor R) : Best R :=
  match best.lookup item.doc_id with
  | none => Dict.set item.doc_id item best
  | some prev =>
      if wins item prev then Dict.set item.doc_id item best else best

/-- The step of the loop over the rows. -/
def offer (consider : EdgeRow R -> Option (Neighbor R))
    (wins : Neighbor R -> Neighbor R -> Bool) (best : Best R)
    (edge : EdgeRow R) : Best R :=
  match consider edge with
  | none => best
  | some candidate => keep wins best candidate

/-- Sorted by `(-graph_score, doc_id)`. -/
def byScore (items : List (Neighbor R)) : List (Neighbor R) :=
  items.mergeSort fun a b =>
    decide (b.graph_score < a.graph_score) ||
      (decide (a.graph_score = b.graph_score) && decide (a.doc_id ≤ b.doc_id))

def ranked (best : Best R) : List (Neighbor R) :=
  byScore (best.map (·.2))

end Best

section Walk

variable {R : Type} [LinearOrder R] [Mul R]

/-- The pages of one direction. -/
def walkEdges (db : GraphStore R) (link_types : List String) (doc_id : Int)
    (direction : Direction) (consider : EdgeRow R -> Option (Neighbor R))
    (wins : Neighbor R -> Neighbor R -> Bool) (best : Best R) : Best R :=
  Paging.walk EdgeRow.key edgePageSize
    (fetchEdgePage db doc_id direction link_types)
    (offer consider wins) (db.links.length + 1) (toLex (0, "")) best

/-- Both directions, from no entries. -/
def walkBoth (db : GraphStore R) (link_types : List String) (doc_id : Int)
    (consider : EdgeRow R -> Option (Neighbor R))
    (wins : Neighbor R -> Neighbor R -> Bool) : Best R :=
  walkEdges db link_types doc_id .incoming consider wins
    (walkEdges db link_types doc_id .outgoing consider wins [])

variable (float : FloatHost R) (asker : Asker) (db : GraphStore R)
variable (seed_ids : List Int)

def secondHopForParent (seed_doc_id : Int) (parent : Neighbor R) :
    List (Neighbor R) :=
  (ranked (walkBoth db twoHopTypes parent.doc_id
    (considerSecondHop float asker seed_doc_id seed_ids parent)
    farWins)).take maxNeighborsPerSeed

def frontier (best : Best R) : List (Neighbor R) :=
  ((ranked best).take maxNeighborsPerSeed).filter fun item =>
    twoHopTypes.contains item.link_type

def mergeSecondHop (seed_doc_id : Int) (best : Best R) : Best R :=
  (frontier best).foldl
    (fun best parent =>
      (secondHopForParent float asker db seed_ids seed_doc_id parent).foldl
        (keep farWins) best)
    best

structure Hydrated (R : Type) where
  item : Neighbor R
  chunk_text : String
  chunk_id : Option Int
  heading_context : String

/-- The first chunk of a document, in the order of the index. -/
def firstChunk (chunks : List ChunkRow) (doc_id : Int) : Option ChunkRow :=
  ((chunks.filter fun chunk => chunk.doc_id = doc_id).mergeSort
    fun a b => decide (a.chunk_index ≤ b.chunk_index)).head?

omit [LinearOrder R] [Mul R] in
def hydrateText (item : Neighbor R) : Hydrated R :=
  match firstChunk db.chunk_embeddings item.doc_id with
  | none => { item, chunk_text := "", chunk_id := none, heading_context := "" }
  | some chunk =>
      { item
        chunk_text := chunk.chunk_text.getD ""
        chunk_id := chunk.chunk_id
        heading_context := chunk.heading_context.getD "" }

def eligibleNeighborsForSeed (max_depth : Nat) (seed : Int × R) :
    List (Hydrated R) :=
  let best := walkBoth db allowedLinkTypes seed.1
    (considerEdge float asker seed.1 seed_ids seed.2) edgeWins
  let best :=
    if 2 ≤ max_depth then mergeSecondHop float asker db seed_ids seed.1 best
    else best
  ((ranked best).take maxNeighborsPerSeed).map (hydrateText db)

end Walk

/-!
## The whole
-/

section Final

variable {R : Type} [LinearOrder R]

structure Ranked (R : Type) where
  hydrated : Hydrated R
  graph_rank : Nat

def finalKeep (store_id : String) (best : List (Int × Hydrated R))
    (entry : Hydrated R) : List (Int × Hydrated R) :=
  if entry.item.metadata.store_id ≠ store_id then best
  else
    let doc_id := entry.item.doc_id
    match best.lookup doc_id with
    | none => Dict.set doc_id entry best
    | some prev =>
        if decide (prev.item.graph_score < entry.item.graph_score) ||
            (decide (entry.item.graph_score = prev.item.graph_score) &&
              decide (doc_id < prev.item.doc_id)) then
          Dict.set doc_id entry best
        else best

def finalize (collected : List (Hydrated R)) (store_id : String) :
    List (Ranked R) :=
  let ordered := ((collected.foldl (finalKeep store_id) []).map
    (·.2)).mergeSort
    fun a b =>
      decide (b.item.graph_score < a.item.graph_score) ||
        (decide (a.item.graph_score = b.item.graph_score) &&
          decide (a.item.doc_id ≤ b.item.doc_id))
  (ordered.take maxGraphCandidates).zipIdx.map fun entry =>
    { hydrated := entry.1, graph_rank := entry.2 + 1 }

end Final

inductive GraphStatus where
  | ok
  | disabled
  | schema_missing
  deriving DecidableEq, Repr

structure GraphExpansionResult (R : Type) where
  neighbors : List (Ranked R)
  graph_status : GraphStatus

structure ExpandRequest (R : Type) where
  host : Daemon.ReadHost
  float : FloatHost R
  store_id : String
  seeds : Option (List (Option (SeedItem R)))
  principal : Option Daemon.EffectivePrincipal
  workspace : String
  max_depth : Int
  /-- Whether a finite deadline is set; it does not expire. -/
  deadline : Bool

section Expand

variable {R : Type} [LinearOrder R] [Mul R]

def collect (float : FloatHost R) (asker : Asker) (db : GraphStore R)
    (max_depth : Nat) (ranked_seeds : List (Int × R)) : List (Hydrated R) :=
  let authorized_seeds := authorizeSeeds asker db ranked_seeds
  let seed_ids := authorized_seeds.map (·.1)
  authorized_seeds.flatMap
    (eligibleNeighborsForSeed float asker db seed_ids max_depth)

def expandTypedGraph (request : ExpandRequest R) (db : GraphStore R) :
    Except ExpandError (GraphExpansionResult R) :=
  if request.workspace = "" then .error .workspace_not_text
  else
    match request.principal with
    | none => .ok { neighbors := [], graph_status := .disabled }
    | some principal =>
        if PyText.strip request.store_id = "" then .error .store_id_blank
        else if request.max_depth ≠ 1 ∧ request.max_depth ≠ 2 then
          .error .max_depth
        else if !request.deadline then
          .ok { neighbors := [], graph_status := .disabled }
        else
          match boundedSeeds request.float request.seeds request.store_id with
          | .error e => .error e
          | .ok [] => .ok { neighbors := [], graph_status := .ok }
          | .ok ranked_seeds =>
              if request.store_id ≠ db.file then
                .error (.store_aliasing request.store_id db.file)
              else if !db.ready then
                .ok { neighbors := [], graph_status := .schema_missing }
              else
                let asker : Asker :=
                  { host := request.host
                    principal := principal
                    workspace := request.workspace
                    store_id := db.file }
                .ok
                  { neighbors := finalize
                      (collect request.float asker db request.max_depth.toNat
                        ranked_seeds) db.file
                    graph_status := .ok }

end Expand

end Expansion
end Recall
end Minni
