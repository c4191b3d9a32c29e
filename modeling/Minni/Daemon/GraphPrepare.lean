import Minni.Daemon.DurableNode
import Minni.Daemon.EdgeInference
import Minni.Daemon.ReadGate

/-!
# Preparing a learning for the graph

Before a learning is written, similar memories are read and a classifier is
asked how it relates to them.  No lock is held while it answers.  What was read
and what was answered go into one payload that the commit takes up.
-/

namespace Minni
namespace Daemon

open Foundation

/-!
## Candidates
-/

structure CandidateDescriptor where
  pair_id : String
  store_id : String
  content_sha256 : String
  metadata_sha256 : String
  doc_id : Nat
  title : String
  status : String
  page_type : String
  excerpt : String
  deriving DecidableEq

/-- What the coordinator sends to the classifier besides the candidates. -/
structure EdgeSource where
  store_id : String
  agent_id : String
  title : String
  content_sha256 : String
  excerpt : String
  deriving DecidableEq

structure Rendering where
  prompt_text : String
  pair_ids : List String
  line_counts : String -> Nat
  budget_exceeded : Bool

/-- The fields of the classifier's answer; one that is missing or no text is
`none`.  Edges that are missing are the empty list, and `none` when they are no
sequence. -/
structure ClassifierBatch where
  prompt_hash : Option String
  source_hash : Option String
  candidates_hash : Option String
  batch_candidates_hash : Option String
  output_hash : Option String
  evidence_hash : Option String
  model_id : Option String
  prompt_version : Option String
  classified_pair_ids : List String
  unclassified_pair_ids : List String
  edges : Option (List RawItem)

structure ValidatedEdge where
  descriptor : CandidateDescriptor
  label : EdgeLabel
  direction : EdgeDirection
  confidence : Rat
  deriving DecidableEq

structure ClassifierInfo where
  model_id : String
  prompt_version : String
  evidence_hash : String
  deriving DecidableEq

/-- Optional columns of the new row.  A confidence that is not finite is one
the commit refuses. -/
structure LearningFields where
  supersedes : Option Int
  status : Option LearningStatus
  finite_confidence : Bool
  deriving DecidableEq

structure PreparedBody where
  store_id : String
  principal : EffectivePrincipal
  workspace : String
  content : String
  content_sha256 : String
  graph_enabled : Bool
  has_chunks : Bool
  validated : List ValidatedEdge
  classifier_info : ClassifierInfo
  meta_snapshots : List (Nat × Json)
  learning_fields : LearningFields

structure PreparedLearningCommit where
  digest : String
  body : PreparedBody

/-- Hashes, renderings and the functions of the modules around. -/
structure GraphHost where
  read : ReadHost
  node : NodeHost
  /-- `durable_metadata`: the page type that a content gives itself. -/
  pageType : String -> String
  pathText : DocPath -> String
  realpath : String -> String
  sha256 : String -> String
  canonicalHash : Json -> String
  sourceHash : EdgeSource -> String
  candidatesHash : List CandidateDescriptor -> String
  outputHash : List InferredEdge -> String
  evidenceHash : List String -> String
  payloadDigest : PreparedBody -> String
  truncateExcerpt : String -> String
  renderEdgeInferencePrompt : EdgeSource -> List CandidateDescriptor ->
    Option Rendering

/-!
## The shortlist
-/

/-- What the store and the models answer while a learning is prepared.  A
document is read once, so an answer belongs to its document. -/
structure PrepareEnv where
  database : String
  inTransaction : Bool
  chunked : Bool
  embedded : Bool
  graph_ready : Bool
  /-- The documents of the hits above the floor, ranked, or a failed search. -/
  search : Option (List Nat)
  get_metadata : Nat -> Option Json
  get_content : Nat -> Option String
  classify : EdgeSource -> List CandidateDescriptor -> Option ClassifierBatch

def maxShortlistDocs : Nat := 12

def maxClassifierPairs : Nat := 8

/-- `str(value or "")` of a field. -/
def fieldText (record : Json) (key : String) : String :=
  ((record.field? key).bind truthyText).getD ""

def isDigest (text : String) : Bool :=
  text.length = 64 && text.toList.all fun c =>
    ('0' ≤ c && c ≤ '9') || ('a' ≤ c && c ≤ 'f')

section Prepare

variable (host : GraphHost)

/-- Metadata of another store or document is dropped as unreadable. -/
def captureTargetMetadata (env : PrepareEnv) (store_id : String)
    (doc_id : Nat) : Option Json :=
  (env.get_metadata doc_id).filter fun metadata =>
    match metadata.field? "store_id", metadata.field? "doc_id" with
    | some (Json.str store), some (Json.num (JsonNumber.int id)) =>
        decide (store = store_id) && decide (id = (doc_id : Int))
    | _, _ => false

def metadataEligible (metadata : Json) : Bool :=
  decide (fieldText metadata "memory_kind" = "learning") &&
    decide (host.read.lower (fieldText metadata "page_type") = "learning") &&
    decide (fieldText metadata "privacy_level" ≠ "blocked") &&
    !closedProjectionStatuses.contains (fieldText metadata "page_status")

structure Shortlist where
  shortlisted : List (Nat × Json)
  snapshots : List (Nat × Json)

/-- The documents that may be sent, with what was read of them.  The snapshots
hold all metadata that was read. -/
def shortlistDocs (env : PrepareEnv) (store_id : String)
    (principal : EffectivePrincipal) (workspace : String) :
    Nat -> List Nat -> Except String Shortlist
  | 0, _ => Except.ok ⟨[], []⟩
  | _, [] => Except.ok ⟨[], []⟩
  | room + 1, doc_id :: rest =>
      match captureTargetMetadata env store_id doc_id with
      | none => shortlistDocs env store_id principal workspace (room + 1) rest
      | some metadata =>
          if canReadDocument host.read (some principal) workspace metadata &&
              metadataEligible host metadata then
            if isDigest (fieldText metadata "content_sha256") then
              match shortlistDocs env store_id principal workspace room rest with
              | Except.error e => Except.error e
              | Except.ok more =>
                  Except.ok
                    ⟨(doc_id, metadata) :: more.shortlisted,
                      (doc_id, metadata) :: more.snapshots⟩
            else
              Except.error "shortlist_rejected"
          else
            match shortlistDocs env store_id principal workspace (room + 1)
                rest with
            | Except.error e => Except.error e
            | Except.ok more =>
                Except.ok
                  ⟨more.shortlisted, (doc_id, metadata) :: more.snapshots⟩

def pairId (doc_id : Nat) : String :=
  "candidate-doc-" ++ toString doc_id

def describe (store_id : String) (doc_id : Nat) (metadata : Json)
    (content : String) : CandidateDescriptor where
  pair_id := pairId doc_id
  store_id := store_id
  content_sha256 := fieldText metadata "content_sha256"
  metadata_sha256 := host.canonicalHash metadata
  doc_id := doc_id
  title := (firstText metadata ["title", "path"]).getD (toString doc_id)
  status := (firstText metadata ["page_status"]).getD "accepted"
  page_type := (firstText metadata ["page_type"]).getD "learning"
  excerpt := host.truncateExcerpt (PyText.strip content)

structure PairList where
  pairs : List CandidateDescriptor
  /-- Some content was asked for and could not be used. -/
  failed : Bool

def preparePairs (env : PrepareEnv) (store_id : String) :
    Nat -> List (Nat × Json) -> Except String PairList
  | 0, _ => Except.ok ⟨[], false⟩
  | _, [] => Except.ok ⟨[], false⟩
  | room + 1, (doc_id, metadata) :: rest =>
      match env.get_content doc_id with
      | none =>
          match preparePairs env store_id (room + 1) rest with
          | Except.error e => Except.error e
          | Except.ok more => Except.ok ⟨more.pairs, true⟩
      | some content =>
          if host.sha256 content = fieldText metadata "content_sha256" then
            if PyText.strip content = "" then
              match preparePairs env store_id (room + 1) rest with
              | Except.error e => Except.error e
              | Except.ok more => Except.ok ⟨more.pairs, true⟩
            else
              match preparePairs env store_id room rest with
              | Except.error e => Except.error e
              | Except.ok more =>
                  Except.ok
                    ⟨describe host store_id doc_id metadata content ::
                      more.pairs, more.failed⟩
          else
            Except.error "shortlist_rejected"

/-!
## The answer
-/

/-- The same ids, each once. -/
def accounts (classified unclassified sent : List String) : Bool :=
  sent.all (fun id => classified.contains id || unclassified.contains id) &&
    (classified ++ unclassified).all sent.contains &&
    decide (classified ++ unclassified).Nodup

def sameIds (ids others : List String) : Bool :=
  ids.all others.contains && others.all ids.contains

/-- Whether the batch is bound to what the coordinator has sent. -/
def provenanceError (source : EdgeSource)
    (candidates : List CandidateDescriptor) (render : Rendering)
    (batch : ClassifierBatch) : Option String :=
  let rendered := candidates.filter fun c => render.pair_ids.contains c.pair_id
  if batch.prompt_hash ≠ some (host.sha256 render.prompt_text) then
    some "batch provenance not bound to rendered prompt"
  else if batch.source_hash ≠ some (host.sourceHash source) then
    some "batch provenance not bound to source"
  else if batch.candidates_hash ≠ some (host.candidatesHash candidates) then
    some "batch provenance not bound to candidates"
  else if batch.batch_candidates_hash ≠ some (host.candidatesHash rendered) then
    some "batch provenance not bound to rendered subset"
  else if !accounts batch.classified_pair_ids batch.unclassified_pair_ids
      (candidates.map (·.pair_id)) then
    some "incomplete pair accounting in batch"
  else if !sameIds batch.classified_pair_ids render.pair_ids then
    some "classified pairs do not match rendered batch"
  else none

/-- The edges that are kept, with the candidate each one names. -/
def keepEdges (candidates : List CandidateDescriptor)
    (edges : List InferredEdge) : List ValidatedEdge :=
  edges.filterMap fun edge =>
    if edge.label = EdgeLabel.none_ then none
    else if edge.confidence < persistConfidence edge.label then none
    else
      (candidates.find? fun c => c.pair_id = edge.pair_id).map fun descriptor =>
        { descriptor := descriptor
          label := edge.label
          direction := edge.direction
          confidence := edge.confidence }

/-- The hash over everything the edges rest on. -/
def boundEvidence (source : EdgeSource) (candidates : List CandidateDescriptor)
    (render : Rendering) (edges : List InferredEdge)
    (prompt_version model_id : String) : String :=
  host.evidenceHash
    [host.sourceHash source,
      host.candidatesHash
        (candidates.filter fun c => render.pair_ids.contains c.pair_id),
      host.sha256 render.prompt_text, host.outputHash edges, prompt_version,
      model_id]

/-- The text of a field that is there and not empty. -/
def present (text : Option String) : Option String :=
  text.filter fun t => t ≠ ""

def classifyValidated (source : EdgeSource)
    (candidates : List CandidateDescriptor)
    (classify : EdgeSource -> List CandidateDescriptor ->
      Option ClassifierBatch) :
    Except String (List ValidatedEdge × ClassifierInfo) :=
  match host.renderEdgeInferencePrompt source candidates with
  | none => Except.error "render failed"
  | some render =>
  if render.budget_exceeded then
    Except.error "rendered batch exceeds token budget"
  else if !decide (candidates.map (·.pair_id)).Nodup then
    Except.error "duplicate pair ids sent"
  else
  match classify source candidates with
  | none => Except.error "classifier returned None"
  | some batch =>
  match provenanceError host source candidates render batch with
  | some e => Except.error e
  | none =>
  match batch.edges with
  | none => Except.error "classifier edges not a sequence"
  | some items =>
  match validateEdgeInferenceResponse items render.pair_ids
      render.line_counts with
  | Except.error e => Except.error e
  | Except.ok edges =>
  if batch.output_hash ≠ some (host.outputHash edges) then
    Except.error "batch output hash does not match validated edges"
  else
  match present batch.model_id, present batch.prompt_version with
  | some model_id, some prompt_version =>
      let evidence_hash :=
        boundEvidence host source candidates render edges prompt_version
          model_id
      if batch.evidence_hash = some evidence_hash then
        Except.ok
          (keepEdges candidates edges,
            { model_id := model_id
              prompt_version := prompt_version
              evidence_hash := evidence_hash })
      else
        Except.error "batch evidence hash does not match validated provenance"
  | _, _ => Except.error "batch model/prompt provenance missing"

/-!
## The payload
-/

def noClassifierInfo : ClassifierInfo where
  model_id := ""
  prompt_version := ""
  evidence_hash := ""

structure GraphPart where
  validated : List ValidatedEdge
  info : ClassifierInfo
  snapshots : List (Nat × Json)

def edgeSource (store_id agent_id content : String) : EdgeSource where
  store_id := store_id
  agent_id := agent_id
  title := "learning:" ++ agent_id
  content_sha256 := host.sha256 content
  excerpt := String.ofList ((PyText.strip content).toList.take 2000)

/-- The search, the shortlist and the classification. -/
def prepareGraph (env : PrepareEnv) (store_id : String)
    (principal : EffectivePrincipal) (workspace agent_id content : String) :
    Except String GraphPart :=
  match env.search with
  | none => Except.error "search_failed"
  | some ranked =>
  match shortlistDocs host env store_id principal workspace maxShortlistDocs
      ranked with
  | Except.error e => Except.error e
  | Except.ok shortlist =>
  match preparePairs host env store_id maxClassifierPairs
      shortlist.shortlisted with
  | Except.error e => Except.error e
  | Except.ok pairs =>
  if pairs.failed then Except.error "candidate_preparation_failed"
  else if pairs.pairs.isEmpty then
    Except.ok ⟨[], noClassifierInfo, shortlist.snapshots⟩
  else
  match classifyValidated host (edgeSource host store_id agent_id content)
      pairs.pairs env.classify with
  | Except.error _ => Except.error "edge_inference_failed"
  | Except.ok (validated, info) =>
      Except.ok ⟨validated, info, shortlist.snapshots⟩

/-- `_bound_store_id` on a database that is on disk. -/
def boundStoreError (database store_id : String) : Option String :=
  if PyText.strip store_id = "" then some "store_binding_invalid"
  else if host.realpath store_id ≠ database then some "store_binding_mismatch"
  else none

def sealPayload (body : PreparedBody) : PreparedLearningCommit where
  digest := host.payloadDigest body
  body := body

def prepareLearningWithGraph (env : PrepareEnv) (store_id : String)
    (principal : EffectivePrincipal) (workspace content : String)
    (graph_enabled : Bool) (fields : LearningFields) :
    Except String PreparedLearningCommit :=
  if workspace ≠ principal.workspace_id then Except.error "workspace_mismatch"
  else
  match boundStoreError host env.database store_id with
  | some e => Except.error e
  | none =>
  if env.inTransaction then Except.error "model_in_transaction"
  else if PyText.strip content = "" then Except.error "empty_content"
  else if !env.chunked then Except.error "chunk_failed"
  else if !env.embedded && graph_enabled then Except.error "embed_failed"
  else
  let body : PreparedBody :=
    { store_id := store_id
      principal := principal
      workspace := workspace
      content := content
      content_sha256 := host.sha256 content
      graph_enabled := graph_enabled
      has_chunks := env.embedded
      validated := []
      classifier_info := noClassifierInfo
      meta_snapshots := []
      learning_fields := fields }
  if !graph_enabled then Except.ok (sealPayload host body)
  else if !env.graph_ready then Except.error "edge_inference_schema_missing"
  else
  match prepareGraph host env store_id principal workspace principal.agent_id
      content with
  | Except.error e => Except.error e
  | Except.ok part =>
      Except.ok (sealPayload host
        { body with
          validated := part.validated
          classifier_info := part.info
          meta_snapshots := part.snapshots })

end Prepare

end Daemon
end Minni
