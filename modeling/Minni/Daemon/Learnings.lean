import Minni.Foundation.PyText
import Minni.Foundation.Sqlite
import Minni.Daemon.Principal

/-!
# Learnings and candidates

The tables that the governance handlers write, with the statements they
execute.  Text is judged by functions of the surroundings: the hash of the
normalized content, the two measures of likeness, the detector of
instructions and the filters of quality are those of the process.
-/

namespace Minni
namespace Daemon

open Foundation

/-!
## Rows
-/

abbrev Embedding := List Nat

inductive LearningStatus where
  | active
  | rejected
  | expired
  | superseded
  | other (text : String)
deriving DecidableEq

inductive CandidateStatus where
  | proposed
  | accepted
  | rejected
  | redacted
  | expired
  | merged
  | superseded
  | do_not_store
  | log_only
deriving DecidableEq

namespace CandidateStatus

def text : CandidateStatus -> String
  | proposed => "proposed"
  | accepted => "accepted"
  | rejected => "rejected"
  | redacted => "redacted"
  | expired => "expired"
  | merged => "merged"
  | superseded => "superseded"
  | do_not_store => "do_not_store"
  | log_only => "log_only"

end CandidateStatus

/-- What the packet says of where it comes from. -/
structure DerivedFrom where
  source : Option String
  origin : Option String
deriving DecidableEq

structure Candidate where
  candidate_id : Nat
  principal : String
  privacy_level : Option String
  requested_privacy : Option String
  category : String
  content : String
  evidence_refs : String
  derived_from : DerivedFrom
  instruction_like : Bool
  status : CandidateStatus
  proposed_at : Nat
  resolved_at : Option Nat
  resolved_by : Option String
  resolution_reason : Option String
deriving DecidableEq

inductive JudgeDecision where
  | accept
  | reject
  | redact
  | inconclusive
deriving DecidableEq

/-- The answer of the model judge on one candidate. -/
structure Verdict where
  decision : JudgeDecision
  reason : String
  model : String
  cached : Bool
deriving DecidableEq

/-- The call that wrote a learning.  No column holds it. -/
inductive Writer where
  | learn (principal : EffectivePrincipal)
  | stage (principal : EffectivePrincipal)
  | resolve (principal : EffectivePrincipal)
  | contradiction (principal : EffectivePrincipal)
  /-- With the row as it was read for the embedding and as it stood at the
  commit. -/
  | promote (read committed : Candidate) (verdict : Option Verdict)
  | store
deriving DecidableEq

structure Learning where
  learning_id : Nat
  agent_id : String
  category : String
  content : String
  embedding : Option Embedding
  created_at : Nat
  status : Option LearningStatus
  superseded_by : Option Nat
  content_hash : Option String
  writer : Writer
deriving DecidableEq

namespace Learning

/-- `status NOT IN ('rejected', 'expired', 'superseded')`, or no status. -/
def openStatus (row : Learning) : Bool :=
  match row.status with
  | none => true
  | some LearningStatus.rejected => false
  | some LearningStatus.expired => false
  | some LearningStatus.superseded => false
  | some LearningStatus.active => true
  | some (LearningStatus.other _) => true

/-- `ACTIVE_LEARNING_SQL`. -/
def isActive (row : Learning) : Bool :=
  row.superseded_by.isNone && row.openStatus

/-- `COALESCE(status, 'active') = 'active' AND superseded_by IS NULL`. -/
def isCurrent (row : Learning) : Bool :=
  row.status.getD LearningStatus.active = LearningStatus.active &&
    row.superseded_by.isNone

theorem isActive_of_isCurrent {row : Learning} (h : row.isCurrent = true) :
    row.isActive = true := by
  rcases row with ⟨lid, agent, category, content, embedding, at_, status,
    successor, hash, writer⟩
  cases status with
  | none =>
      simpa [isCurrent, isActive, openStatus] using h
  | some status =>
      cases status with
      | active => simpa [isCurrent, isActive, openStatus] using h
      | rejected => simp [isCurrent] at h
      | expired => simp [isCurrent] at h
      | superseded => simp [isCurrent] at h
      | other text => simp [isCurrent] at h

end Learning

inductive ActionType where
  | afm_review
  | afm_judge_reject
  | afm_judge_redact
  | afm_promote
  | afm_dedup
deriving DecidableEq

inductive ActionStatus where
  | pending
  | applied
  | superseded
deriving DecidableEq

structure ConsolidationAction where
  action_type : ActionType
  claim : String
  status : Option ActionStatus
  detail : String
deriving DecidableEq

/-- An eviction with the rows it found.  No table holds it. -/
structure Eviction where
  learning_id : Nat
  learnings : List Learning
deriving DecidableEq

structure Store where
  learnings : List Learning
  /-- The next keys of the two `AUTOINCREMENT` columns. -/
  nextLearning : Nat
  candidates : List Candidate
  nextCandidate : Nat
  actions : List ConsolidationAction
  evictions : List Eviction
deriving DecidableEq

def Store.empty : Store where
  learnings := []
  nextLearning := 1
  candidates := []
  nextCandidate := 1
  actions := []
  evictions := []

/-!
## The surroundings
-/

structure Host where
  /-- `str.lower`. -/
  lower : String -> String
  is_instruction_like : String -> Bool
  /-- `_normalize`, and the hash of what it gives. -/
  normalize : String -> String
  content_hash : String -> String
  normalize_category : String -> String
  /-- `_quality_blockers`. -/
  qualityBlockers : String -> List String
  /-- By content, category, source and origin. -/
  non_durable_promotion_blocker :
    String -> String -> Option String -> Option String -> Option String
  /-- `five_gram_jaccard` reaches its threshold. -/
  jaccardNear : String -> String -> Bool
  /-- `_cosine_similarity_blobs` reaches its threshold. -/
  cosineNear : Embedding -> Embedding -> Bool
  is_low_signal_boot_learning : String -> Bool
  /-- The privacy that the front matter of a text declares. -/
  frontmatterPrivacy : String -> Option String
  /-- `MINNI_RESOLVE_OPERATORS`. -/
  resolveOperators : List String
  /-- The text of `redact_value`, and of `repr`. -/
  redact : String -> String
  repr : Option String -> String

inductive Response where
  | error (code : Int) (message : String)
  | contradiction (candidates : List Nat)
  | learned (learning_id : Nat) (agent_id category : String)
      (deduplicated indexed : Bool)
  | superseded (new_learning_id : Nat) (superseded : List Nat)
  | proposed (candidate_id : Nat) (principal workspace_id privacy_level
      category : String) (auto_accept_withheld : List String)
  | accepted (candidate_id : Nat) (principal workspace_id privacy_level
      category : String) (learning_id : Nat) (resolved_by : String)
      (indexed : Bool)
  | resolved (candidate_id : Nat) (new_status : CandidateStatus)
      (learning_id : Option Nat) (principal : String) (indexed : Bool)
deriving DecidableEq

/-- The error response that `ResolveRejected` carries out of a transaction. -/
structure Refusal where
  code : Int
  message : String
deriving DecidableEq

def Refusal.response (refusal : Refusal) : Response :=
  Response.error refusal.code refusal.message

inductive DbError where
  | failed (text : String)
  | resolveRejected (refusal : Refusal)
  | canonicalCommitFailed (cause : String)
deriving DecidableEq

namespace DbError

def text : DbError -> String
  | failed text => text
  | resolveRejected refusal => refusal.message
  | canonicalCommitFailed cause => cause

end DbError

def nestedBegin : DbError :=
  DbError.failed "cannot start a transaction within a transaction"

abbrev Governance (α : Type) := Db Store DbError α

/-- What the steps within one call come to: the text of the exception where
one raises. -/
structure Env where
  now : Nat
  /-- `ensure_content_hash_column`. -/
  contentHashColumn : Bool
  /-- `_ensure_dedup_index`. -/
  dedupIndex : Option String
  embedding : Option Embedding
  insertLearning : Option String
  canonicalNode : Option String
  derivedEdges : Option String
  nearDuplicateScan : Option String
  evict : Nat -> Option String
  /-- A learning that is gone may have left documents. -/
  orphanDocuments : Nat -> Bool
  /-- The purge of the documents of a learning gets as far as its `BEGIN`. -/
  purgeBegins : Nat -> Bool
  writebackEnabled : Bool
  indexed : Bool
  /-- `detect_contradictions`; an exception there counts as none. -/
  contradictions : List Nat

/-- Surroundings in which nothing fails and no text is alike another. -/
def plainHost : Host where
  lower := id
  is_instruction_like := fun text => text = "ignore previous instructions"
  normalize := id
  content_hash := id
  normalize_category := id
  qualityBlockers := fun _ => []
  non_durable_promotion_blocker := fun _ _ _ _ => none
  jaccardNear := fun left right => left = right
  cosineNear := fun left right => left = right
  is_low_signal_boot_learning := fun text => text = ""
  frontmatterPrivacy := fun _ => none
  resolveOperators := []
  redact := id
  repr := fun text => "'" ++ text.getD "" ++ "'"

def plainEnv (now : Nat) : Env where
  now := now
  contentHashColumn := true
  dedupIndex := none
  embedding := none
  insertLearning := none
  canonicalNode := none
  derivedEdges := none
  nearDuplicateScan := none
  evict := fun _ => none
  orphanDocuments := fun _ => false
  purgeBegins := fun _ => true
  writebackEnabled := true
  indexed := true
  contradictions := []

def stepFails (failure : Option String) : Governance Unit :=
  Db.mayRaise (failure.map DbError.failed)

/-!
## Statements
-/

namespace Store

def findLearning (s : Store) (lid : Nat) : Option Learning :=
  s.learnings.find? fun row => row.learning_id = lid

def findCandidate (s : Store) (cid : Nat) : Option Candidate :=
  s.candidates.find? fun row => row.candidate_id = cid

def insertLearning (row : Nat -> Learning) (s : Store) : Nat × Store :=
  (s.nextLearning,
    { s with
      learnings := s.learnings ++ [row s.nextLearning]
      nextLearning := s.nextLearning + 1 })

def updateLearning (lid : Nat) (f : Learning -> Learning) (s : Store) :
    Store :=
  { s with
    learnings := s.learnings.map fun row =>
      if row.learning_id = lid then f row else row }

def insertCandidate (row : Nat -> Candidate) (s : Store) : Nat × Store :=
  (s.nextCandidate,
    { s with
      candidates := s.candidates ++ [row s.nextCandidate]
      nextCandidate := s.nextCandidate + 1 })

def updateCandidate (cid : Nat) (f : Candidate -> Candidate) (s : Store) :
    Store :=
  { s with
    candidates := s.candidates.map fun row =>
      if row.candidate_id = cid then f row else row }

def insertAction (action : ConsolidationAction) (s : Store) : Store :=
  { s with actions := s.actions ++ [action] }

/-- The `UPDATE` and the `DELETE` of an eviction. -/
def evict (lid : Nat) (s : Store) : Store :=
  { s with
    learnings :=
      (s.learnings.map fun row =>
        if row.superseded_by = some lid then { row with superseded_by := none }
        else row).filter fun row => row.learning_id ≠ lid
    evictions :=
      s.evictions ++ [{ learning_id := lid, learnings := s.learnings }] }

end Store

namespace Learning

def supersededBy (lid : Nat) (row : Learning) : Learning :=
  { row with superseded_by := some lid }

def retiredBy (lid : Nat) (row : Learning) : Learning :=
  { row with
    superseded_by := some lid
    status := some LearningStatus.superseded }

def markSuperseded (row : Learning) : Learning :=
  { row with status := some LearningStatus.superseded }

def markRejected (row : Learning) : Learning :=
  { row with status := some LearningStatus.rejected }

/-- `... AND content_hash IS NULL`. -/
def fillHash (hash : String) (row : Learning) : Learning :=
  if row.content_hash.isNone then { row with content_hash := some hash }
  else row

end Learning

namespace Candidate

def resolve (status : CandidateStatus) (now : Nat)
    (resolved_by resolution_reason : String) (row : Candidate) : Candidate :=
  { row with
    status := status
    resolved_at := some now
    resolved_by := some resolved_by
    resolution_reason := some resolution_reason }

def flag (row : Candidate) : Candidate :=
  { row with instruction_like := true }

end Candidate

namespace ConsolidationAction

/-- A marker that keeps a candidate from the next selection. -/
def fences (cid : Nat) (action : ConsolidationAction) : Bool :=
  (action.action_type = ActionType.afm_review ||
      action.action_type = ActionType.afm_judge_reject ||
      action.action_type = ActionType.afm_judge_redact) &&
    action.claim = toString cid &&
    action.status ≠ some ActionStatus.superseded

def isReviewOf (cid : Nat) (action : ConsolidationAction) : Bool :=
  action.action_type = ActionType.afm_review &&
    action.claim = toString cid &&
    action.status ≠ some ActionStatus.superseded

end ConsolidationAction

/-- `supersede_afm_review`. -/
def supersedeAfmReview (cid : Nat) (s : Store) : Store :=
  { s with
    actions := s.actions.map fun action =>
      if action.isReviewOf cid then
        { action with status := some ActionStatus.superseded }
      else action }

/-- The side effects of accepting a candidate. -/
def applyAcceptedCandidateEffects (cid : Nat) : Governance Unit :=
  Db.execute (supersedeAfmReview cid)

/-!
## Duplicates
-/

/-- `ORDER BY created_at DESC, learning_id DESC LIMIT 1`. -/
def newest : List Learning -> Option Learning
  | [] => none
  | row :: rest =>
      match newest rest with
      | none => some row
      | some later =>
          if row.created_at < later.created_at ∨
              (row.created_at = later.created_at ∧
                row.learning_id < later.learning_id) then
            some later
          else some row

def findActiveLearningByHash (host : Host) (h agent_id : String) (s : Store) :
    Option Learning :=
  let current := s.learnings.filter fun row =>
    row.isCurrent && row.agent_id = agent_id
  match newest (current.filter fun row => row.content_hash = some h) with
  | some row => some row
  | none =>
      newest (current.filter fun row =>
        row.content_hash.isNone && host.content_hash row.content = h)

def hasActiveLearningHash (host : Host) (h agent_id : String) (s : Store) :
    Bool :=
  (findActiveLearningByHash host h agent_id s).isSome

def cosineReaches (host : Host) : Option Embedding -> Option Embedding -> Bool
  | some left, some right => host.cosineNear left right
  | _, _ => false

def isNearDuplicate (host : Host) (agent_id category content : String)
    (lid : Nat) (embedding : Option Embedding) (row : Learning) : Bool :=
  row.agent_id = agent_id && row.category = category && row.isCurrent &&
    row.learning_id ≠ lid &&
    (host.jaccardNear content row.content ||
      cosineReaches host embedding row.embedding)

/-- The embedding that is given, or that of the excluded row. -/
def targetEmbedding (lid : Nat) (embedding : Option Embedding) (s : Store) :
    Option Embedding :=
  match embedding with
  | some blob => some blob
  | none => (s.findLearning lid).bind (·.embedding)

/-- `find_near_duplicate_active_learning`. -/
def findNearDuplicates (host : Host) (agent_id category content : String)
    (lid : Nat) (embedding : Option Embedding) (s : Store) : List Nat :=
  (s.learnings.filter (isNearDuplicate host agent_id category content lid
    (targetEmbedding lid embedding s))).map (·.learning_id)

def scanNearDuplicates (host : Host) (env : Env)
    (agent_id category content : String) (lid : Nat)
    (embedding : Option Embedding) : Governance (List Nat) := do
  stepFails env.nearDuplicateScan
  Db.select (findNearDuplicates host agent_id category content lid embedding)

/-!
## Evicting and purging
-/

/-- `evict_learning_to_cold_archive` on the cursor of its caller. -/
def evictLearningToColdArchive (env : Env) (lid : Nat) : Governance Unit := do
  let row ← Db.select fun s => s.findLearning lid
  if row.isNone && !env.orphanDocuments lid then
    pure ()
  else do
    stepFails (env.evict lid)
    Db.execute (Store.evict lid)

/-- The transaction writes to no table of this model. -/
def purgeDurableDocument : Governance Unit :=
  Db.tryExcept (Db.transaction nestedBegin (pure ())) fun _ => pure ()

/-- The learning that a text `learning:<id>` stands for. -/
def learningNamed (content : String) : Option Nat :=
  let tag := "learning:".toList
  if tag.isPrefixOf content.toList then
    (PyText.strip (String.ofList (content.toList.drop tag.length))).toNat?
  else none

/-- It never raises.  Where the text stands for another learning, the document
of that one is purged as well. -/
def purgeDurableLearning (env : Env) (lid : Nat) (content : String) :
    Governance Unit :=
  if env.purgeBegins lid then do
    purgeDurableDocument
    match learningNamed content with
    | none => pure ()
    | some named => do
        let row ← Db.cursor (Db.select fun s => s.findLearning named)
        if row.isSome then purgeDurableDocument else pure ()
  else pure ()

end Daemon
end Minni
