import Minni.Daemon.GraphPrepare
import Minni.Foundation.Sqlite

/-!
# Committing a prepared learning

The commit runs in one write transaction.  It writes the learning and its
document, looks again at every document that an edge names, and only then
writes the edges and retires what they supersede.  A repair writes the document
and the edges of a learning that is there already, and retires nothing.
-/

namespace Minni
namespace Daemon

open Foundation

/-!
## The tables
-/

structure MemoryLink where
  source_doc_id : Nat
  target_doc_id : Nat
  link_type : EdgeLabel
  confidence : Rat
  model_id : String
  prompt_version : String
  evidence_hash : String
  deriving DecidableEq

structure ContradictionRow where
  memory_a_id : Nat
  source_doc_id : Nat
  target_doc_id : Nat
  confidence : Rat
  deriving DecidableEq

/-- A pending `graph_update_review` in `consolidation_actions`. -/
structure UpdateReview where
  target_learning_id : Nat
  superseded_learning_id : Option Nat
  confidence : Rat
  detail : String
  pending : Bool
  deriving DecidableEq

/-- The page type of a document and its text in `vault_fts` are kept by its id.
-/
structure GraphStore where
  nodes : NodeStore
  page_type : List (Nat × String)
  vault_fts : List (Nat × String)
  memory_links : List MemoryLink
  contradiction_log : List ContradictionRow
  consolidation_actions : List UpdateReview
  deriving DecidableEq

namespace GraphStore

def findLearning (s : GraphStore) (learning_id : Nat) :
    Option BackingLearning :=
  s.nodes.learnings.find? fun row => row.learning_id = learning_id

def findDocument (s : GraphStore) (doc_id : Nat) : Option NodeDocument :=
  s.nodes.documents.find? fun doc => doc.doc_id = doc_id

def pageTypeOf (s : GraphStore) (doc_id : Nat) : Option String :=
  s.page_type.lookup doc_id

def ftsOf (s : GraphStore) (doc_id : Nat) : Option String :=
  s.vault_fts.lookup doc_id

/-- The row that `_insert_learning` adds. -/
def insertedRow (agent_id content : String) (fields : LearningFields)
    (s : GraphStore) : BackingLearning where
  learning_id := s.nodes.next_learning_id
  agent_id := agent_id
  content := content
  status := fields.status.or (some LearningStatus.active)
  superseded_by := none

def insertRow (agent_id content : String) (fields : LearningFields)
    (s : GraphStore) : Nat × GraphStore :=
  (s.nodes.next_learning_id,
    { s with
      nodes :=
        { s.nodes with
          learnings :=
            s.nodes.learnings ++ [s.insertedRow agent_id content fields]
          next_learning_id := s.nodes.next_learning_id + 1 } })

/-- `UPDATE learnings SET superseded_by`, whichever row has the id. -/
def supersedeRow (supersedes : Int) (learning_id : Nat) (s : GraphStore) :
    GraphStore :=
  { s with
    nodes :=
      { s.nodes with
        learnings := s.nodes.learnings.map fun row =>
          if (row.learning_id : Int) = supersedes then
            { row with superseded_by := some (learning_id : Int) }
          else row } }

/-- The document that `ensure_canonical_learning_node` returns. -/
def canonicalNode (learning_id : Nat) (agent_id content : String)
    (s : GraphStore) : Option Nat :=
  if learning_id = 0 || agent_id = "" || content = "" then none
  else
    match s.nodes.documentAt (DocPath.durable agent_id content) with
    | none => some s.nodes.next_doc_id
    | some doc => if doc.agent ≠ agent_id then none else some doc.doc_id

/-- A new document has the page type that the content gives itself. -/
def typeNewNode (host : GraphHost) (path : DocPath) (content : String)
    (s : GraphStore) : List (Nat × String) :=
  match s.nodes.documentAt path with
  | none => s.page_type ++ [(s.nodes.next_doc_id, host.pageType content)]
  | some _ => s.page_type

def ensureNode (host : GraphHost) (learning_id : Nat)
    (agent_id content : String) (lexists : Bool) (s : GraphStore) :
    Option Nat × GraphStore :=
  match s.canonicalNode learning_id agent_id content with
  | none => (none, s)
  | some doc_id =>
      (some doc_id,
        { s with
          nodes := s.nodes.ensureCanonicalLearningNode host.node learning_id
            agent_id content lexists
          page_type :=
            s.typeNewNode host (DocPath.durable agent_id content) content })

/-- The plain document that a repair falls back to. -/
def plainNode (host : GraphHost) (agent_id content : String)
    (s : GraphStore) : Nat × GraphStore :=
  let path := DocPath.durable agent_id content
  match s.nodes.documentAt path with
  | some doc => (doc.doc_id, s)
  | none =>
      (s.nodes.next_doc_id,
        { s with
          nodes :=
            { s.nodes with
              documents := s.nodes.documents ++
                [{ doc_id := s.nodes.next_doc_id
                   path := path
                   agent := agent_id
                   page_status :=
                     some (host.node.durable_metadata content).1
                   privacy_level :=
                     some (host.node.durable_metadata content).2
                   superseded_by := none
                   memory_kind := none }]
              next_doc_id := s.nodes.next_doc_id + 1 }
          page_type := s.typeNewNode host path content })

/-- `_fill_projection`, as far as the text goes. -/
def fillProjection (doc_id : Nat) (content : String) (s : GraphStore) :
    GraphStore :=
  match s.ftsOf doc_id with
  | some _ => s
  | none => { s with vault_fts := s.vault_fts ++ [(doc_id, content)] }

def sameEdge (link other : MemoryLink) : Bool :=
  decide (other.source_doc_id = link.source_doc_id) &&
    decide (other.target_doc_id = link.target_doc_id) &&
    decide (other.link_type = link.link_type)

/-- An edge that is there takes the new confidence and provenance. -/
def upsertLink (link : MemoryLink) (s : GraphStore) : GraphStore :=
  { s with
    memory_links :=
      if s.memory_links.any (sameEdge link) then
        s.memory_links.map fun other =>
          if sameEdge link other then link else other
      else
        s.memory_links ++ [link] }

def logContradiction (row : ContradictionRow) (s : GraphStore) : GraphStore :=
  { s with contradiction_log := s.contradiction_log ++ [row] }

def samePendingReview (review other : UpdateReview) : Bool :=
  review.superseded_learning_id.isSome && other.pending &&
    decide (other.target_learning_id = review.target_learning_id) &&
    decide (other.superseded_learning_id = review.superseded_learning_id)

/-- `_queue_update_review`. -/
def queueReview (review : UpdateReview) (s : GraphStore) : GraphStore :=
  if s.consolidation_actions.any (samePendingReview review) then s
  else
    { s with consolidation_actions := s.consolidation_actions ++ [review] }

def retireMembers (doc_id : Nat) (learning_ids : List Nat)
    (new_learning_id new_doc_id : Nat) (s : GraphStore) : GraphStore :=
  { s with
    nodes := s.nodes.retireSupersededMembers doc_id learning_ids
      new_learning_id new_doc_id }

end GraphStore

/-!
## Statements
-/

inductive GraphError where
  | abort (code : String)
  | database (reason : String)
  deriving DecidableEq

/-- The places where the database itself may fail. -/
inductive GraphStatement where
  | insertLearning
  | supersede
  | canonicalNode
  | revalidate (doc_id : Nat)
  | projection
  | link (link : MemoryLink)
  | contradiction (link : MemoryLink)
  | targetState (doc_id : Nat)
  | retire (doc_id : Nat)
  | review (doc_id : Nat)
  deriving DecidableEq

structure CommitEnv where
  database : String
  /-- `graph_node_schema_present`. -/
  node_schema : Bool
  /-- Whether a file is at the path of the new document. -/
  lexists : Bool
  fails : GraphStatement -> Option String

abbrev Graph (α : Type) := Db GraphStore GraphError α

def abortUnless (ok : Bool) (code : String) : Graph Unit :=
  Db.mayRaise (if ok then none else some (GraphError.abort code))

def attempt (env : CommitEnv) (statement : GraphStatement) : Graph Unit :=
  Db.mayRaise ((env.fails statement).map GraphError.database)

/-!
## Looking again
-/

/-- The columns of the row, as the read gate takes them. -/
def rowMetadata (host : GraphHost) (doc : NodeDocument)
    (page_type : Option String) : Json :=
  let column := fun (value : Option String) =>
    match value with
    | none => Json.null
    | some text => Json.str text
  Json.obj
    [("agent", Json.str doc.agent), ("privacy_level", column doc.privacy_level),
      ("page_status", column doc.page_status), ("page_type", column page_type),
      ("memory_kind", column doc.memory_kind),
      ("path", Json.str (host.pathText doc.path))]

def comparedFields : List String :=
  ["agent", "privacy_level", "page_status", "page_type", "memory_kind", "path"]

/-- `_revalidate_target`: why the document may not be the target of an edge. -/
def targetError (host : GraphHost) (principal : EffectivePrincipal)
    (workspace store_id : String) (descriptor : CandidateDescriptor)
    (snapshot : Json) (s : GraphStore) : Option String :=
  if descriptor.store_id ≠ store_id then some "stale_candidate"
  else
    match s.findDocument descriptor.doc_id with
    | none => some "stale_candidate"
    | some doc =>
        let metadata := rowMetadata host doc (s.pageTypeOf doc.doc_id)
        if !canReadDocument host.read (some principal) workspace metadata then
          some "stale_candidate"
        else if !metadataEligible host metadata then some "stale_candidate"
        else if host.canonicalHash snapshot ≠ descriptor.metadata_sha256 then
          some "stale_candidate"
        else if !comparedFields.all fun field =>
            decide (fieldText metadata field = fieldText snapshot field) then
          some "stale_candidate"
        else if (firstText metadata ["page_status"]).getD "accepted" ≠
            descriptor.status then
          some "stale_candidate"
        else if (firstText metadata ["page_type"]).getD "learning" ≠
            descriptor.page_type then
          some "stale_candidate"
        else
          match s.ftsOf descriptor.doc_id with
          | none => some "stale_candidate"
          | some content =>
              if host.sha256 content ≠ descriptor.content_sha256 then
                some "stale_candidate"
              else if !(s.nodes.members descriptor.doc_id).any
                  BackingLearning.active then
                some "stale_candidate"
              else none

/-- `_require_snapshot` and the look at one target. -/
def revalidateTarget (host : GraphHost) (env : CommitEnv)
    (principal : EffectivePrincipal) (workspace store_id : String)
    (snapshots : List (Nat × Json)) (descriptor : CandidateDescriptor) :
    Graph Unit :=
  match snapshots.lookup descriptor.doc_id with
  | none => Db.raise (GraphError.abort "stale_candidate")
  | some snapshot => do
      attempt env (GraphStatement.revalidate descriptor.doc_id)
      let error ← Db.select (targetError host principal workspace store_id
        descriptor snapshot)
      Db.mayRaise (error.map GraphError.abort)

/-!
## Edges
-/

structure BoundEdge where
  source_doc_id : Nat
  target_doc_id : Nat
  label : EdgeLabel
  confidence : Rat
  deriving DecidableEq

/-- `_bind_edges` of one validated pair. -/
def bindEdge (source_doc_id : Nat) (edge : ValidatedEdge) : List BoundEdge :=
  let target := edge.descriptor.doc_id
  if target = source_doc_id then []
  else
    match edge.direction with
    | EdgeDirection.forward =>
        [⟨source_doc_id, target, edge.label, edge.confidence⟩]
    | EdgeDirection.backward =>
        [⟨target, source_doc_id, edge.label, edge.confidence⟩]
    | _ =>
        [⟨source_doc_id, target, edge.label, edge.confidence⟩,
          ⟨target, source_doc_id, edge.label, edge.confidence⟩]

def bindEdges (source_doc_id : Nat) (validated : List ValidatedEdge) :
    List BoundEdge :=
  validated.flatMap (bindEdge source_doc_id)

/-- The edges with the mark of those that log a contradiction, the first one of
each pair of documents. -/
def markContradictions (logged : List (Nat × Nat)) :
    List BoundEdge -> List (BoundEdge × Bool)
  | [] => []
  | edge :: rest =>
      let pair := (edge.source_doc_id, edge.target_doc_id)
      let turned := (edge.target_doc_id, edge.source_doc_id)
      if edge.label = EdgeLabel.contradicts ∧ !logged.contains pair ∧
          !logged.contains turned then
        (edge, true) :: markContradictions (pair :: logged) rest
      else
        (edge, false) :: markContradictions logged rest

def linkOf (info : ClassifierInfo) (edge : BoundEdge) : MemoryLink where
  source_doc_id := edge.source_doc_id
  target_doc_id := edge.target_doc_id
  link_type := edge.label
  confidence := edge.confidence
  model_id := info.model_id
  prompt_version := info.prompt_version
  evidence_hash := info.evidence_hash

def writeEdge (env : CommitEnv) (info : ClassifierInfo)
    (new_learning_id : Nat) (edge : BoundEdge × Bool) : Graph Unit := do
  attempt env (GraphStatement.link (linkOf info edge.1))
  Db.execute (GraphStore.upsertLink (linkOf info edge.1))
  Db.whenever edge.2 do
    attempt env (GraphStatement.contradiction (linkOf info edge.1))
    Db.execute (GraphStore.logContradiction
      { memory_a_id := new_learning_id
        source_doc_id := edge.1.source_doc_id
        target_doc_id := edge.1.target_doc_id
        confidence := edge.1.confidence })

/-- `_write_edges`. -/
def writeEdges (env : CommitEnv) (info : ClassifierInfo)
    (new_learning_id : Nat) (bound : List BoundEdge) : Graph Unit :=
  Db.forEach (markContradictions [] bound) (writeEdge env info new_learning_id)

/-!
## Supersession
-/

structure UpdatesPlan where
  retire : List Nat
  review_ref : Option Nat
  review_reason : Option String
  deriving DecidableEq

def noPlan : UpdatesPlan where
  retire := []
  review_ref := none
  review_reason := none

def directionText : EdgeDirection -> String
  | EdgeDirection.forward => "forward"
  | EdgeDirection.backward => "backward"
  | EdgeDirection.mutual_ => "mutual"
  | EdgeDirection.none_ => "none"

/-- What the transaction finds at a target; the members are in the order of
their ids. -/
structure TargetState where
  doc : NodeDocument
  page_type : Option String
  members : List BackingLearning

def supersessionTargetState (doc_id : Nat) (s : GraphStore) :
    Option TargetState :=
  (s.findDocument doc_id).map fun doc =>
    { doc := doc
      page_type := s.pageTypeOf doc_id
      members := s.nodes.members doc_id }

/-- The plan for the members of a target that a high forward edge updates. -/
def planMembers (new_agent_id : String) (new_learning_id : Nat)
    (members : List BackingLearning) : UpdatesPlan :=
  let own := members.filter fun row => row.agent_id = new_agent_id
  let self_active := own.filter BackingLearning.active
  let self_done := own.filter fun row =>
    !row.active && decide (row.superseded_by = some (new_learning_id : Int))
  let self_other := own.filter fun row =>
    !row.active && decide (row.superseded_by ≠ some (new_learning_id : Int))
  let other_active := members.filter fun row =>
    decide (row.agent_id ≠ new_agent_id) && row.active
  let retire := self_active.map (·.learning_id)
  match other_active with
  | other :: _ =>
      { retire := retire
        review_ref := some (retire.head?.getD other.learning_id)
        review_reason := some "other_agent_active" }
  | [] =>
      if !retire.isEmpty then
        { retire := retire
          review_ref := none
          review_reason := none }
      else
        match self_other, self_done with
        | row :: _, _ =>
            { retire := []
              review_ref := some row.learning_id
              review_reason := some "already_superseded" }
        | [], _ :: _ => noPlan
        | [], [] =>
            { retire := []
              review_ref := none
              review_reason := some "no_mapped_learning" }

/-- `_plan_updates_action`. -/
def planUpdatesAction (host : GraphHost) (edge : ValidatedEdge)
    (new_agent_id : String) (new_learning_id : Nat)
    (target_state : Option TargetState) : UpdatesPlan :=
  if edge.label ≠ EdgeLabel.updates then noPlan
  else if edge.confidence < persistConfidence EdgeLabel.updates then noPlan
  else
    let first_ref := (target_state.bind fun state => state.members.head?).map
      (·.learning_id)
    if edge.direction ≠ EdgeDirection.forward then
      { retire := []
        review_ref := first_ref
        review_reason :=
          some ("non_forward_updates:" ++ directionText edge.direction) }
    else
      match target_state with
      | none => noPlan
      | some state =>
          if state.doc.memory_kind ≠ some "learning" ∨
              host.read.lower (state.page_type.getD "") ≠ "learning" then
            { retire := []
              review_ref := first_ref
              review_reason := some "non_learning_target" }
          else if projectionRowClosed state.doc.page_status
              state.doc.privacy_level then
            { retire := []
              review_ref := first_ref
              review_reason := some "target_closed" }
          else if edge.confidence < supersedeConfidence then
            { retire := []
              review_ref := first_ref
              review_reason := some "below_supersede_floor" }
          else
            planMembers new_agent_id new_learning_id state.members

/-- A repair turns what it would retire into a review. -/
def restrainPlan (allow_retire : Bool) (plan : UpdatesPlan) : UpdatesPlan :=
  if !allow_retire && !plan.retire.isEmpty then
    { retire := []
      review_ref := plan.review_ref.or plan.retire.head?
      review_reason := some (plan.review_reason.getD "repair_no_retire") }
  else plan

/-- The first edge of each target but the learning's own document. -/
def distinctTargets (source_doc_id : Nat) (seen : List Nat) :
    List ValidatedEdge -> List ValidatedEdge
  | [] => []
  | edge :: rest =>
      let target := edge.descriptor.doc_id
      if target = source_doc_id ∨ target ∈ seen then
        distinctTargets source_doc_id seen rest
      else
        edge :: distinctTargets source_doc_id (target :: seen) rest

def applyPlan (env : CommitEnv) (new_learning_id new_doc_id : Nat)
    (edge : ValidatedEdge) (plan : UpdatesPlan) : Graph Unit := do
  let target := edge.descriptor.doc_id
  Db.whenever (!plan.retire.isEmpty) do
    attempt env (GraphStatement.retire target)
    Db.execute (GraphStore.retireMembers target plan.retire new_learning_id
      new_doc_id)
  match plan.review_reason with
  | none => pure ()
  | some reason => do
      attempt env (GraphStatement.review target)
      Db.execute (GraphStore.queueReview
        { target_learning_id := new_learning_id
          superseded_learning_id := plan.review_ref
          confidence := edge.confidence
          detail := reason
          pending := true })

def supersedeTarget (host : GraphHost) (env : CommitEnv)
    (new_learning_id new_doc_id : Nat) (agent_id : String)
    (allow_retire : Bool) (edge : ValidatedEdge) : Graph Unit := do
  attempt env (GraphStatement.targetState edge.descriptor.doc_id)
  let state ← Db.select (supersessionTargetState edge.descriptor.doc_id)
  applyPlan env new_learning_id new_doc_id edge
    (restrainPlan allow_retire
      (planUpdatesAction host edge agent_id new_learning_id state))

/-- `_apply_updates_supersession`. -/
def applyUpdatesSupersession (host : GraphHost) (env : CommitEnv)
    (validated : List ValidatedEdge) (new_learning_id new_doc_id : Nat)
    (agent_id : String) (allow_retire : Bool) : Graph Unit :=
  Db.forEach (distinctTargets new_doc_id [] validated)
    (supersedeTarget host env new_learning_id new_doc_id agent_id allow_retire)

/-!
## The commit
-/

/-- The last descriptor of each target is the one that is looked at again. -/
def targetDescriptors (validated : List ValidatedEdge) :
    List CandidateDescriptor :=
  match validated with
  | [] => []
  | edge :: rest =>
      let others := targetDescriptors rest
      if others.any fun d => d.doc_id = edge.descriptor.doc_id then others
      else edge.descriptor :: others

/-- What the commit refuses before it writes. -/
def payloadError (host : GraphHost) (env : CommitEnv)
    (prepared : PreparedLearningCommit) (principal : EffectivePrincipal) :
    Option String :=
  let body := prepared.body
  if host.payloadDigest body ≠ prepared.digest then some "payload_tampered"
  else if host.sha256 body.content ≠ body.content_sha256 then
    some "payload_tampered"
  else if principal.agent_id ≠ body.principal.agent_id then
    some "principal_mismatch"
  else if principal.workspace_id ≠ body.principal.workspace_id then
    some "principal_mismatch"
  else if principal.workspace_id ≠ body.workspace then
    some "principal_mismatch"
  else boundStoreError host env.database body.store_id

def canonicalClosed (agent_id content : String) (s : GraphStore) : Bool :=
  match s.nodes.documentAt (DocPath.durable agent_id content) with
  | none => false
  | some doc => projectionRowClosed doc.page_status doc.privacy_level

/-- `_insert_learning`. -/
def insertLearning (env : CommitEnv) (agent_id content : String)
    (fields : LearningFields) : Graph Nat := do
  abortUnless fields.finite_confidence "learning_field_invalid"
  attempt env GraphStatement.insertLearning
  let learning_id ← Db.insert (GraphStore.insertRow agent_id content fields)
  match fields.supersedes with
  | none => pure ()
  | some old => do
      attempt env GraphStatement.supersede
      Db.execute (GraphStore.supersedeRow old learning_id)
  pure learning_id

/-- The node of the learning and the text of its document. -/
def ensureCanonicalNode (host : GraphHost) (env : CommitEnv)
    (learning_id : Nat) (agent_id content : String) : Graph (Option Nat) := do
  attempt env GraphStatement.canonicalNode
  if env.node_schema then
    Db.insert (GraphStore.ensureNode host learning_id agent_id content
      env.lexists)
  else
    pure none

structure CommitResult where
  learning_id : Nat
  doc_id : Nat
  deriving DecidableEq

/-- The writes that follow the learning and its document. -/
def commitEdges (host : GraphHost) (env : CommitEnv) (body : PreparedBody)
    (principal : EffectivePrincipal) (learning_id doc_id : Nat) :
    Graph Unit := do
  Db.whenever body.graph_enabled
    (Db.forEach (targetDescriptors body.validated)
      (revalidateTarget host env principal body.workspace body.store_id
        body.meta_snapshots))
  attempt env GraphStatement.projection
  Db.execute (GraphStore.fillProjection doc_id body.content)
  Db.whenever body.graph_enabled do
    writeEdges env body.classifier_info learning_id
      (bindEdges doc_id body.validated)
    applyUpdatesSupersession host env body.validated learning_id doc_id
      body.principal.agent_id true

/-- `commit_prepared_learning`, in the transaction of its caller. -/
def commitPreparedLearning (host : GraphHost) (env : CommitEnv)
    (prepared : PreparedLearningCommit) (principal : EffectivePrincipal) :
    Graph CommitResult := do
  let body := prepared.body
  Db.mayRaise ((payloadError host env prepared principal).map GraphError.abort)
  let closed ←
    Db.select (canonicalClosed body.principal.agent_id body.content)
  abortUnless (!closed) "canonical_restricted"
  let learning_id ←
    insertLearning env body.principal.agent_id body.content body.learning_fields
  let node ← ensureCanonicalNode host env learning_id body.principal.agent_id
    body.content
  match node with
  | none => Db.raise (GraphError.abort "canonical_failed")
  | some doc_id => do
      commitEdges host env body principal learning_id doc_id
      pure ⟨learning_id, doc_id⟩

/-- The transaction of `commit_learning_with_graph` around a payload. -/
def commitTransaction (host : GraphHost) (env : CommitEnv)
    (prepared : PreparedLearningCommit) (principal : EffectivePrincipal) :
    Graph CommitResult :=
  Db.transaction (GraphError.database "cannot start a transaction")
    (commitPreparedLearning host env prepared principal)

/-!
## The repair
-/

structure RepairRequest where
  store_id : String
  learning_id : Nat
  workspace : String
  graph_enabled : Bool
  /-- The principal, when a search and a classifier are given with it. -/
  principal : Option EffectivePrincipal

/-- The read of the learning before the models are asked. -/
def repairSource (learning_id : Nat) (s : GraphStore) :
    Except String BackingLearning :=
  match s.findLearning learning_id with
  | none => Except.error "learning_missing"
  | some row =>
      if !row.active then Except.error "learning_inactive"
      else if PyText.strip row.content = "" then Except.error "learning_empty"
      else Except.ok row

def noGraphPart : GraphPart where
  validated := []
  info := noClassifierInfo
  snapshots := []

/-- The edges of a repair; they are put off when anything about them fails. -/
def repairPart (host : GraphHost) (prep : PrepareEnv)
    (request : RepairRequest) (source : BackingLearning) : GraphPart :=
  match request.principal with
  | none => noGraphPart
  | some principal =>
      if request.graph_enabled && prep.embedded && prep.graph_ready then
        match prepareGraph host prep request.store_id principal
            request.workspace source.agent_id source.content with
        | Except.error _ => noGraphPart
        | Except.ok part => part
      else noGraphPart

def beginRepair (host : GraphHost) (prep : PrepareEnv)
    (request : RepairRequest) (s : GraphStore) :
    Except String (BackingLearning × GraphPart) :=
  match boundStoreError host prep.database request.store_id with
  | some e => Except.error e
  | none =>
  match repairSource request.learning_id s with
  | Except.error e => Except.error e
  | Except.ok source =>
      if prep.chunked then
        Except.ok (source, repairPart host prep request source)
      else Except.error "chunk_failed"

def sourceMatches (learning_id : Nat) (source : BackingLearning)
    (s : GraphStore) : Bool :=
  match s.findLearning learning_id with
  | none => false
  | some row =>
      decide (row.agent_id = source.agent_id) &&
        decide (row.content = source.content) && row.active

def fillRepaired (env : CommitEnv) (doc_id : Nat) (content : String) :
    Graph Unit := do
  attempt env GraphStatement.projection
  Db.execute (GraphStore.fillProjection doc_id content)

/-- The writes of a repair that has the node of its learning. -/
def repairEdges (host : GraphHost) (env : CommitEnv)
    (request : RepairRequest) (principal : EffectivePrincipal)
    (source : BackingLearning) (part : GraphPart) (doc_id : Nat) :
    Graph Unit := do
  Db.forEach (targetDescriptors part.validated)
    (revalidateTarget host env principal request.workspace request.store_id
      part.snapshots)
  fillRepaired env doc_id source.content
  writeEdges env part.info request.learning_id
    (bindEdges doc_id part.validated)
  applyUpdatesSupersession host env part.validated request.learning_id doc_id
    source.agent_id false

/-- The body of the transaction of `repair_learning_projection`. -/
def repairWrites (host : GraphHost) (env : CommitEnv)
    (request : RepairRequest) (source : BackingLearning) (part : GraphPart) :
    Graph Nat := do
  let current ← Db.select (sourceMatches request.learning_id source)
  abortUnless current "stale_source"
  let closed ← Db.select (canonicalClosed source.agent_id source.content)
  abortUnless (!closed) "projection_restricted"
  let node ← ensureCanonicalNode host env request.learning_id source.agent_id
    source.content
  match node, request.principal with
  | none, _ => do
      let doc_id ← Db.insert
        (GraphStore.plainNode host source.agent_id source.content)
      fillRepaired env doc_id source.content
      pure doc_id
  -- nobody to ask for edges, so there are none
  | some doc_id, none => do
      fillRepaired env doc_id source.content
      pure doc_id
  | some doc_id, some principal => do
      repairEdges host env request principal source part doc_id
      pure doc_id

/-- `repair_learning_projection`.  The learning was read `before` the models
were asked, when the database may have been another one. -/
def repairLearningProjection (host : GraphHost) (prep : PrepareEnv)
    (env : CommitEnv) (request : RepairRequest) (before : GraphStore) :
    Graph Nat :=
  match beginRepair host prep request before with
  | Except.error code => Db.raise (GraphError.abort code)
  | Except.ok (source, part) =>
      Db.transaction (GraphError.database "cannot start a transaction")
        (repairWrites host env request source part)

end Daemon
end Minni
