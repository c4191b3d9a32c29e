import Minni.Foundation.TransitionSystem
import Minni.Daemon.Learnings

/-!
# Durable documents and the learnings behind them

A learning is recalled through the document at a path made of its owner and its
content.  Governed commits map learnings to that document; older learnings have
no mapping and are found by the path.  A document is retired when no mapped
learning is active any more, and the recall filter looks at the learnings again.
-/

namespace Minni
namespace Daemon

open Foundation

/-!
## The tables
-/

/-- `durable_doc_path` of an owner and a content, or some other path. -/
inductive DocPath where
  | durable (agent_id content : String)
  | other (path : String)
deriving DecidableEq

structure BackingLearning where
  learning_id : Nat
  agent_id : String
  content : String
  status : Option LearningStatus
  superseded_by : Option Int
deriving DecidableEq

structure NodeDocument where
  doc_id : Nat
  path : DocPath
  agent : String
  page_status : Option String
  privacy_level : Option String
  superseded_by : Option Nat
  memory_kind : Option String
deriving DecidableEq

/-- A row of `learning_documents`. -/
structure NodeMapping where
  learning_id : Nat
  doc_id : Nat
deriving DecidableEq

structure NodeStore where
  learnings : List BackingLearning
  documents : List NodeDocument
  learning_documents : List NodeMapping
  next_learning_id : Nat
  next_doc_id : Nat
deriving DecidableEq

def NodeStore.empty : NodeStore where
  learnings := []
  documents := []
  learning_documents := []
  next_learning_id := 1
  next_doc_id := 1

structure NodeHost where
  /-- `durable_metadata`: the page status and the privacy level that a content
  gives itself. -/
  durable_metadata : String -> String × String
  /-- A path that is no durable one, inside the vault and gone, or outside of
  it. -/
  fileGone : String -> Bool

/-- `status NOT IN ('rejected', 'expired', 'superseded')`, or no status. -/
def openLearningStatus (status : Option LearningStatus) : Bool :=
  status ≠ some LearningStatus.rejected &&
    status ≠ some LearningStatus.expired &&
    status ≠ some LearningStatus.superseded

/-- `ACTIVE_LEARNING_SQL`. -/
def BackingLearning.active (row : BackingLearning) : Bool :=
  row.superseded_by.isNone && openLearningStatus row.status

/-- How a learning ends without a successor. -/
inductive Retirement where
  | rejected
  | expired
  | superseded
deriving DecidableEq

def Retirement.status : Retirement -> LearningStatus
  | rejected => LearningStatus.rejected
  | expired => LearningStatus.expired
  | superseded => LearningStatus.superseded

/-- `CLOSED_PROJECTION_STATUSES`. -/
def closedProjectionStatuses : List String :=
  ["draft", "expired", "rejected", "superseded"]

def projectionRowClosed (page_status privacy_level : Option String) : Bool :=
  privacy_level = some "blocked" ||
    closedProjectionStatuses.contains (page_status.getD "")

namespace NodeStore

def mapped (s : NodeStore) (doc_id : Nat) : Bool :=
  s.learning_documents.any fun link => link.doc_id = doc_id

/-- The learnings that are mapped to a document. -/
def members (s : NodeStore) (doc_id : Nat) : List BackingLearning :=
  s.learnings.filter fun row =>
    s.learning_documents.contains
      { learning_id := row.learning_id
        doc_id := doc_id }

def documentAt (s : NodeStore) (path : DocPath) : Option NodeDocument :=
  s.documents.find? fun doc => doc.path = path

def updateDocument (s : NodeStore) (doc_id : Nat)
    (f : NodeDocument -> NodeDocument) : NodeStore :=
  { s with
    documents := s.documents.map fun doc =>
      if doc.doc_id = doc_id then f doc else doc }

def updateLearning (s : NodeStore) (learning_id : Nat)
    (f : BackingLearning -> BackingLearning) : NodeStore :=
  { s with
    learnings := s.learnings.map fun row =>
      if row.learning_id = learning_id then f row else row }

/-!
## The state of a node
-/

structure NodeState where
  mapped : Bool
  active : Bool
  status : Option String
  successor : Option Nat
deriving DecidableEq

/-- The document of the learning that took over, the first one. -/
def successorDocument (s : NodeStore) (successor : Int) : Option Nat :=
  ((s.learning_documents.filter fun link =>
    (link.learning_id : Int) = successor).map NodeMapping.doc_id).min?

/-- `canonical_node_learning_state`. -/
def nodeState (s : NodeStore) (doc_id : Nat) : NodeState :=
  let members := s.members doc_id
  if !s.mapped doc_id then
    { mapped := false, active := false, status := none, successor := none }
  else if members.any BackingLearning.active then
    { mapped := true, active := true, status := none, successor := none }
  else
    match (members.filterMap BackingLearning.superseded_by).max? with
    | some successor =>
        { mapped := true
          active := false
          status := some "superseded"
          successor := s.successorDocument successor }
    | none =>
        { mapped := true
          active := false
          status :=
            if members.any fun row =>
              row.status = some LearningStatus.expired then some "expired"
            else if !members.isEmpty && members.all fun row =>
              row.status = some LearningStatus.rejected then some "rejected"
            -- rows may say superseded without a successor
            else some "superseded"
          successor := none }

/-!
## Governed commits
-/

variable (host : NodeHost)

/-- What `_reconcile_new_active_mapping` asks before it opens a document again.
-/
def reopens (s : NodeStore) (doc : NodeDocument) (learning_id : Nat)
    (agent_id content : String) (lexists : Bool) : Bool :=
  let meta_ := host.durable_metadata content
  let state := s.nodeState doc.doc_id
  doc.page_status = some "superseded" && doc.privacy_level ≠ some "blocked" &&
    !projectionRowClosed (some meta_.1) (some meta_.2) && !lexists &&
    !s.learning_documents.contains
      { learning_id := learning_id
        doc_id := doc.doc_id } &&
    (state.mapped && !state.active && state.status = doc.page_status &&
      state.successor = doc.superseded_by) &&
    s.learnings.any fun row =>
      row.learning_id = learning_id && row.agent_id = agent_id &&
        row.content = content && row.active

def addMapping (s : NodeStore) (link : NodeMapping) : NodeStore :=
  if s.learning_documents.contains link then s
  else { s with learning_documents := s.learning_documents ++ [link] }

/-- `ensure_canonical_learning_node`. -/
def ensureCanonicalLearningNode (s : NodeStore) (learning_id : Nat)
    (agent_id content : String) (lexists : Bool) : NodeStore :=
  if learning_id = 0 || agent_id = "" || content = "" then s
  else
    let meta_ := host.durable_metadata content
    match s.documentAt (DocPath.durable agent_id content) with
    | none =>
        let created : NodeStore :=
          { s with
            documents := s.documents ++
              [{ doc_id := s.next_doc_id
                 path := DocPath.durable agent_id content
                 agent := agent_id
                 page_status := some meta_.1
                 privacy_level := some meta_.2
                 superseded_by := none
                 memory_kind := some "learning" }]
            next_doc_id := s.next_doc_id + 1 }
        created.addMapping
          { learning_id := learning_id
            doc_id := s.next_doc_id }
    | some doc =>
        if doc.agent ≠ agent_id then s
        else
          let reconciled : NodeStore :=
            if s.reopens host doc learning_id agent_id content lexists then
              s.updateDocument doc.doc_id fun row =>
                { row with
                  page_status := some "accepted"
                  superseded_by := none }
            else s
          (reconciled.updateDocument doc.doc_id fun row =>
            { row with memory_kind := some "learning" }).addMapping
              { learning_id := learning_id
                doc_id := doc.doc_id }

/-- A new learning, not mapped yet. -/
def insertLearning (s : NodeStore) (agent_id content : String) : NodeStore :=
  { s with
    learnings := s.learnings ++
      [{ learning_id := s.next_learning_id
         agent_id := agent_id
         content := content
         status := some LearningStatus.active
         superseded_by := none }]
    next_learning_id := s.next_learning_id + 1 }

/-- `UPDATE learnings SET superseded_by`. -/
def supersede (s : NodeStore) (old : Nat) (successor : Int) : NodeStore :=
  s.updateLearning old fun row => { row with superseded_by := some successor }

/-- The learning of a governed commit and what it supersedes. -/
def recordLearning (s : NodeStore) (agent_id content : String)
    (supersedes : Option Nat) : NodeStore :=
  match supersedes with
  | none => s.insertLearning agent_id content
  | some old =>
      (s.insertLearning agent_id content).supersede old s.next_learning_id

/-- A governed commit: the learning and its node, in one transaction. -/
def commit (s : NodeStore) (agent_id content : String)
    (supersedes : Option Nat) (lexists : Bool) : NodeStore :=
  (s.recordLearning agent_id content supersedes).ensureCanonicalLearningNode
    host s.next_learning_id agent_id content lexists

/-- The repair of a learning that is active and whose document is not closed. -/
def repair (s : NodeStore) (learning_id : Nat) (lexists : Bool) : NodeStore :=
  match s.learnings.find? fun row => row.learning_id = learning_id with
  | none => s
  | some row =>
      if !row.active then s
      else
        match s.documentAt (DocPath.durable row.agent_id row.content) with
        | some doc =>
            if projectionRowClosed doc.page_status doc.privacy_level then s
            else
              s.ensureCanonicalLearningNode host learning_id row.agent_id
                row.content lexists
        | none =>
            s.ensureCanonicalLearningNode host learning_id row.agent_id
              row.content lexists

/-!
## Retirement
-/

def retire (s : NodeStore) (learning_id : Nat) (how : Retirement) :
    NodeStore :=
  s.updateLearning learning_id fun row => { row with status := some how.status }

/-- The learnings that `retire_superseded_members` retires. -/
def retiresMember (learning_ids : List Nat) (row : BackingLearning) : Bool :=
  learning_ids.contains row.learning_id && row.active

/-- `retire_superseded_members`. -/
def retireSupersededMembers (s : NodeStore) (doc_id : Nat)
    (learning_ids : List Nat) (new_learning_id new_doc_id : Nat) : NodeStore :=
  let retired :=
    { s with
      learnings := s.learnings.map fun row =>
        if retiresMember learning_ids row then
          { row with
            status := some LearningStatus.superseded
            superseded_by := some (new_learning_id : Int) }
        else row }
  if s.learnings.any (retiresMember learning_ids) &&
      !(retired.members doc_id).any BackingLearning.active then
    retired.updateDocument doc_id fun doc =>
      if doc.page_status = some "accepted" then
        { doc with
          page_status := some "superseded"
          superseded_by := some new_doc_id }
      else doc
  else retired

/-!
## Projection and purge
-/

/-- `index_durable_document` for a learning's content. -/
def indexDurableDocument (s : NodeStore) (agent_id content : String) :
    NodeStore :=
  let meta_ := host.durable_metadata content
  match s.documentAt (DocPath.durable agent_id content) with
  | some doc =>
      s.updateDocument doc.doc_id fun row =>
        { row with
          agent := agent_id
          page_status := some meta_.1
          privacy_level := some meta_.2 }
  | none =>
      { s with
        documents := s.documents ++
          [{ doc_id := s.next_doc_id
             path := DocPath.durable agent_id content
             agent := agent_id
             page_status := some meta_.1
             privacy_level := some meta_.2
             superseded_by := none
             memory_kind := none }]
        next_doc_id := s.next_doc_id + 1 }

/-- `purge_durable_document`. -/
def purgeDurableDocument (s : NodeStore) (path : DocPath) : NodeStore :=
  match s.documentAt path with
  | none => s
  | some doc =>
      let state := s.nodeState doc.doc_id
      let closed := projectionRowClosed doc.page_status doc.privacy_level
      let canonical := state.mapped || doc.memory_kind = some "learning"
      if canonical && !state.mapped then s
      else if state.active && !closed then s
      else if state.mapped then
        if closed then s
        else
          s.updateDocument doc.doc_id fun row =>
            { row with
              page_status := state.status
              superseded_by := state.successor }
      else
        { s with
          documents := s.documents.filter fun row => row.doc_id ≠ doc.doc_id }

end NodeStore

/-!
## The recall filter
-/

structure DurableHit where
  doc_id : Option Nat
  path : DocPath
  agent : String
deriving DecidableEq

def DurableHit.isDurable (hit : DurableHit) : Bool :=
  match hit.path with
  | DocPath.durable _ _ => true
  | DocPath.other _ => false

def DurableHit.isMapped (s : NodeStore) (hit : DurableHit) : Bool :=
  match hit.doc_id with
  | none => false
  | some doc_id => s.mapped doc_id

/-- The paths of the active learnings of these owners. -/
def activeDurablePaths (s : NodeStore) (agents : List String) : List DocPath :=
  (s.learnings.filter fun row =>
    agents.contains row.agent_id && row.active).map fun row =>
      DocPath.durable row.agent_id row.content

/-- `_filter_live_and_active_candidates`. -/
def filterLiveAndActiveCandidates (host : NodeHost) (s : NodeStore)
    (include_superseded : Bool) (rows : List DurableHit) : List DurableHit :=
  let after_stat := rows.filter fun hit =>
    match hit.path with
    | DocPath.durable _ _ => true
    | DocPath.other path => !host.fileGone path
  if include_superseded then after_stat
  else
    let agents := ((after_stat.filter fun hit =>
      hit.isDurable && !hit.isMapped s).map DurableHit.agent).filter fun agent =>
        agent ≠ ""
    after_stat.filter fun hit =>
      if !hit.isDurable then true
      else
        match hit.doc_id with
        | none => (activeDurablePaths s agents).contains hit.path
        | some doc_id =>
            if s.mapped doc_id then
              (s.members doc_id).any BackingLearning.active
            else (activeDurablePaths s agents).contains hit.path

end Daemon
end Minni
