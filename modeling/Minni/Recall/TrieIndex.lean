import Minni.Foundation.Postings
import Minni.Foundation.TransitionSystem
import Minni.Recall.Collecting

/-!
# The index in memory

The fast path of recall answers from copies of the documents that the process
keeps, with the tokens and the prefixes of their headers.  A document that the
process writes itself is entered at once.  What others write is looked for every
half minute, by the number of documents and their largest id: where these have
grown the documents above the last largest id are added, and where they have
shrunk the whole index is built again.
-/

namespace Minni
namespace Recall

open Foundation

/-!
## Texts
-/

def clip (n : Nat) (text : String) : String :=
  String.ofList (text.toList.take n)

/-- `str.find` -/
def findFrom (pattern text : List Char) (start : Nat) : Option Nat :=
  (List.range (text.length + 1)).find? fun i =>
    decide (start ≤ i) && pattern.isPrefixOf (text.drop i)

/-- `_strip_frontmatter` -/
def stripFrontmatter (text : String) : String :=
  let cs := text.toList
  if "---".toList.isPrefixOf cs then
    match findFrom "\n---".toList cs 3 with
    | none => text
    | some end_ =>
        match findFrom ['\n'] cs (end_ + 4) with
        | none => ""
        | some nl =>
            String.ofList ((cs.drop (nl + 1)).dropWhile PyText.isSpace)
  else text

def isTokenChar (c : Char) : Bool :=
  ('a' ≤ c && c ≤ 'z') || ('0' ≤ c && c ≤ '9') || c = '_'

/-- `_tokenize_trie_text` -/
def tokenizeTrieText (lower : String -> String) (text : String) :
    List (List Char) :=
  (Words.split (fun c => !isTokenChar c) (lower text).toList).filter fun tok =>
    2 ≤ tok.length

/-- The prefixes of a token, from three characters to a bound. -/
def prefixesOf (bound : Nat) (tok : List Char) : List (List Char) :=
  (List.range' 3 (min tok.length bound - 2)).map fun plen => tok.take plen

def headerText (path heading_context text : String) : String :=
  path ++ " " ++ heading_context ++ " " ++ text

/-!
## Tables
-/

structure StoredDoc (K : Type) where
  doc_id : Nat
  path : String
  agent : Option String
  sigil : Option String
  decay_score : Option K
  page_status : Option String
  privacy_level : Option String
  page_type : Option String
  evidence_refs : Option String
  indexed_at : Option K
  layer : Option String
  deriving DecidableEq, Repr

structure StoredChunk where
  doc_id : Nat
  chunk_index : Nat
  chunk_text : Option String
  heading_context : Option String
  deriving DecidableEq, Repr

def SameChunk (a b : StoredChunk) : Prop :=
  a.doc_id = b.doc_id ∧ a.chunk_index = b.chunk_index

/-- The tables, with the keys that their schema declares unique. -/
structure Tables (K : Type) where
  documents : List (StoredDoc K)
  chunk_embeddings : List StoredChunk
  /-- `doc_id` and `content` -/
  vault_fts : List (Nat × Option String)
  oneDocument : (documents.map StoredDoc.doc_id).Nodup
  oneChunk : chunk_embeddings.Pairwise fun a b => ¬ SameChunk a b

/-- A row of the query that loads documents. -/
structure LoadRow (K : Type) where
  doc : StoredDoc K
  chunk_text : String
  heading_context : String
  deriving DecidableEq, Repr

def LoadRow.doc_id {K : Type} (r : LoadRow K) : Nat :=
  r.doc.doc_id

namespace Tables

variable {K : Type} (tables : Tables K)

def docCount : Nat :=
  tables.documents.length

/-- `COALESCE(MAX(doc_id), 0)` -/
def maxDocId : Nat :=
  (tables.documents.map StoredDoc.doc_id).foldr max 0

def chunksOf (doc_id : Nat) : List StoredChunk :=
  tables.chunk_embeddings.filter fun chunk => chunk.doc_id = doc_id

/-- `ORDER BY ce.chunk_index ASC LIMIT 1` -/
def firstChunk (doc_id : Nat) : Option StoredChunk :=
  ((tables.chunksOf doc_id).mergeSort fun a b =>
    a.chunk_index ≤ b.chunk_index).head?

/-- `substr(vf.content, 1, 1200)` of the first row. -/
def ftsText (doc_id : Nat) : Option String :=
  ((tables.vault_fts.find? fun row => row.1 = doc_id).bind Prod.snd).map
    (clip 1200)

def firstRow (doc : StoredDoc K) : LoadRow K :=
  let chunk := tables.firstChunk doc.doc_id
  { doc := doc
    chunk_text :=
      ((chunk.bind StoredChunk.chunk_text).or
        (tables.ftsText doc.doc_id)).getD ""
    heading_context := (chunk.bind StoredChunk.heading_context).getD "" }

/-- `LEFT JOIN chunk_embeddings ce ON … AND ce.chunk_index = 0` -/
def joinedRows (doc : StoredDoc K) : List (LoadRow K) :=
  match (tables.chunksOf doc.doc_id).filter fun chunk =>
      chunk.chunk_index = 0 with
  | [] => [{ doc := doc, chunk_text := "", heading_context := "" }]
  | chunks =>
      chunks.map fun chunk =>
        { doc := doc
          chunk_text := chunk.chunk_text.getD ""
          heading_context := chunk.heading_context.getD "" }

def loadedAbove (prevMax : Nat) (doc : StoredDoc K) : Bool :=
  decide (prevMax < doc.doc_id) && doc.privacy_level.getD "safe" != "blocked"

/-- The rows that a load reads. -/
def rowsAbove (prevMax : Nat) : List (LoadRow K) :=
  let docs := tables.documents.filter (loadedAbove prevMax)
  if tables.docCount < 50 then docs.map tables.firstRow
  else docs.flatMap tables.joinedRows

end Tables

/-!
## Entries
-/

/-- An entry of `_trie_docs`; one that was entered at its write has no
`path_lower`. -/
structure TrieDoc (K : Type) where
  doc_id : Nat
  path : String
  path_lower : Option String
  agent : String
  sigil : String
  decay_score : K
  chunk_text : String
  heading_context : String
  page_status : String
  privacy_level : String
  page_type : Option String
  evidence_refs : Option String
  indexed_at : Option K
  layer : String
  deriving DecidableEq, Repr

structure TrieIndex (K : Type) where
  docs : Option (List (Nat × TrieDoc K))
  token_map : List (List Char × Nat)
  prefix_map : List (List Char × Nat)
  max_doc_id : Int
  doc_count : Int
  /-- `_trie_checked_at`, in milliseconds -/
  checked_at : Nat
  deriving DecidableEq, Repr

/-- What `_invalidate_trie` leaves, and what there is at the start. -/
def emptyTrie (K : Type) : TrieIndex K :=
  { docs := none
    token_map := []
    prefix_map := []
    max_doc_id := -1
    doc_count := -1
    checked_at := 0 }

section Entries

variable {K : Type} [One K] (lower : String -> String)

def loadedEntry (r : LoadRow K) : TrieDoc K :=
  { doc_id := r.doc.doc_id
    path := r.doc.path
    path_lower := some (lower r.doc.path)
    agent := orElse r.doc.agent ""
    sigil := orElse r.doc.sigil "❓"
    decay_score := r.doc.decay_score.getD 1
    chunk_text := clip 1200 (stripFrontmatter r.chunk_text)
    heading_context := r.heading_context
    page_status := orElse r.doc.page_status "candidate"
    privacy_level := orElse r.doc.privacy_level "safe"
    page_type := r.doc.page_type
    evidence_refs := r.doc.evidence_refs
    indexed_at := r.doc.indexed_at
    layer := orElse r.doc.layer "knowledge" }

omit [One K] in
/-- The tokens of an entry that a load makes. -/
def loadedTokens (entry : TrieDoc K) : List (List Char) :=
  tokenizeTrieText lower
    (headerText entry.path entry.heading_context (clip 300 entry.chunk_text))

omit [One K] in
def loadedPrefixes (entry : TrieDoc K) : List (List Char) :=
  (loadedTokens lower entry).flatMap (prefixesOf 10)

/-- The arguments of `_index_doc_in_trie`. -/
structure LiveDoc (K : Type) where
  doc_id : Nat
  path : String
  agent : String
  sigil : String
  decay_score : Option K
  chunk_text : String
  heading_context : String
  page_status : String
  privacy_level : String
  page_type : Option String
  evidence_refs : Option String
  indexed_at : Option K
  layer : String
  deriving DecidableEq, Repr

def liveEntry (live : LiveDoc K) : TrieDoc K :=
  { doc_id := live.doc_id
    path := live.path
    path_lower := none
    agent := live.agent
    sigil := orElse (some live.sigil) "❓"
    decay_score := live.decay_score.getD 1
    chunk_text := clip 1200 (stripFrontmatter live.chunk_text)
    heading_context := live.heading_context
    page_status := orElse (some live.page_status) "candidate"
    privacy_level := orElse (some live.privacy_level) "safe"
    page_type := live.page_type
    evidence_refs := live.evidence_refs
    indexed_at := live.indexed_at
    layer := orElse (some live.layer) "knowledge" }

omit [One K] in
def liveTokens (live : LiveDoc K) : List (List Char) :=
  tokenizeTrieText lower
    (headerText live.path live.heading_context (clip 600 live.chunk_text))

/-- `_index_doc_in_trie` -/
def indexDocInTrie (mono : Nat) (live : LiveDoc K) (trie : TrieIndex K) :
    TrieIndex K :=
  match trie.docs with
  | none => trie
  | some docs =>
      let tokens := liveTokens lower live
      let entered : TrieIndex K :=
        { trie with
          docs := some (Dict.set live.doc_id (liveEntry live) docs)
          token_map :=
            trie.token_map ++ Postings.postingsOf tokens live.doc_id
          prefix_map :=
            trie.prefix_map ++
              Postings.postingsOf (tokens.flatMap (prefixesOf 12))
                live.doc_id }
      if live.indexed_at.isSome then
        { entered with
          max_doc_id := max trie.max_doc_id live.doc_id
          checked_at := mono }
      else entered

/-!
## Loading
-/

/-- How the queries of a check end. -/
inductive LoadOutcome where
  | done
  /-- The count cannot be read. -/
  | countFails
  /-- The rows cannot be read. -/
  | selectFails
  /-- An error at a row, after the given number of rows. -/
  | loopFails (rows : Nat)
  deriving DecidableEq, Repr

/-- One row in the loop of the load. -/
def loadRow (trie : TrieIndex K) (r : LoadRow K) : TrieIndex K :=
  let entry := loadedEntry lower r
  { trie with
    docs := trie.docs.map (Dict.set r.doc_id entry)
    token_map :=
      trie.token_map ++ Postings.postingsOf (loadedTokens lower entry) r.doc_id
    prefix_map :=
      trie.prefix_map ++
        Postings.postingsOf (loadedPrefixes lower entry) r.doc_id }

/-- The rows that a load takes in before it ends. -/
def LoadOutcome.taken (rows : List (LoadRow K)) :
    LoadOutcome -> List (LoadRow K)
  | .done => rows
  | .countFails => []
  | .selectFails => []
  | .loopFails n => rows.take n

omit [One K] in
/-- The check is made where nothing is loaded or half a minute has gone. -/
def PerformsCheck (now : Nat) (trie : TrieIndex K) : Prop :=
  trie.docs = none ∨ trie.checked_at + 30000 ≤ now

instance (now : Nat) (trie : TrieIndex K) :
    Decidable (PerformsCheck now trie) :=
  inferInstanceAs (Decidable (_ ∨ _))

/-- The count and the largest id are those of the last load. -/
def Current (tables : Tables K) (trie : TrieIndex K) : Prop :=
  trie.docs ≠ none ∧ (tables.maxDocId : Int) = trie.max_doc_id ∧
    (tables.docCount : Int) = trie.doc_count

instance (tables : Tables K) (trie : TrieIndex K) :
    Decidable (Current tables trie) :=
  inferInstanceAs (Decidable (_ ∧ _))

def Incremental (tables : Tables K) (trie : TrieIndex K) : Prop :=
  trie.docs ≠ none ∧ 0 ≤ trie.max_doc_id ∧
    trie.doc_count ≤ tables.docCount ∧ trie.max_doc_id ≤ tables.maxDocId

instance (tables : Tables K) (trie : TrieIndex K) :
    Decidable (Incremental tables trie) :=
  inferInstanceAs (Decidable (_ ∧ _))

/-- Where a load begins to add. -/
def TrieIndex.start (tables : Tables K) (trie : TrieIndex K) :
    Nat × TrieIndex K :=
  if Incremental tables trie then (trie.max_doc_id.toNat, trie)
  else
    (0, { trie with docs := some [], token_map := [], prefix_map := [] })

/-- `_ensure_trie_loaded`; with the watermarks set back, a later load builds
everything again. -/
def ensureTrieLoaded (tables : Tables K) (now : Nat) (outcome : LoadOutcome)
    (trie : TrieIndex K) : TrieIndex K :=
  if PerformsCheck now trie then
    if outcome = .countFails then
      { trie with max_doc_id := -1, doc_count := -1 }
    else if Current tables trie then
      { trie with checked_at := now }
    else
      let begun := trie.start tables
      let advanced : TrieIndex K :=
        { begun.2 with
          max_doc_id := tables.maxDocId
          doc_count := tables.docCount
          checked_at := now }
      if tables.docCount = 0 then advanced
      else if outcome = .selectFails then
        { advanced with max_doc_id := -1, doc_count := -1 }
      else
        (outcome.taken (tables.rowsAbove begun.1)).foldl (loadRow lower)
          advanced
  else trie

/-- A full load of the tables as they are. -/
def rebuiltTrie (tables : Tables K) : TrieIndex K :=
  ensureTrieLoaded lower tables 0 .done (emptyTrie K)

/-!
## Runs
-/

structure TrieWorld (K : Type) where
  tables : Tables K
  trie : TrieIndex K

/-- What `index_durable_document` enters after its write. -/
structure DurableCall (K : Type) where
  doc_id : Nat
  path : String
  agent : String
  sigil : String
  content : String
  /-- The heading of its first chunk. -/
  heading_path : String
  page_status : String
  privacy_level : String
  page_type : Option String
  now : K
  layer : String
  deriving DecidableEq, Repr

def DurableCall.live (call : DurableCall K) : LiveDoc K :=
  { doc_id := call.doc_id
    path := call.path
    agent := call.agent
    sigil := call.sigil
    decay_score := some 1
    chunk_text := call.content
    heading_context := call.heading_path
    page_status := call.page_status
    privacy_level := call.privacy_level
    page_type := call.page_type
    evidence_refs := none
    indexed_at := some call.now
    layer := call.layer }

inductive TrieEvent (K : Type) where
  /-- Another process, or a write that tells nothing to the index. -/
  | change (tables : Tables K)
  | indexDurable (tables : Tables K) (call : DurableCall K) (mono : Nat)
  /-- `purge_durable_document`, or another caller of `_invalidate_trie`. -/
  | purge (tables : Tables K)
  | ensure (now : Nat) (outcome : LoadOutcome)

def TrieWorld.next (w : TrieWorld K) : TrieEvent K -> TrieWorld K
  | .change tables => { w with tables := tables }
  | .indexDurable tables call mono =>
      { tables := tables
        trie := indexDocInTrie lower mono call.live w.trie }
  | .purge tables =>
      { tables := tables
        trie := emptyTrie K }
  | .ensure now outcome =>
      { w with trie := ensureTrieLoaded lower w.tables now outcome w.trie }

/-- A process begins without an index, over tables of any content. -/
def trieSystem : TransitionSystem (TrieWorld K) (TrieEvent K) :=
  TransitionSystem.OfNext (fun w => w.trie = emptyTrie K)
    (fun w event => some (w.next lower event))

end Entries

end Recall
end Minni
