import Minni.Daemon.Learnings

/-!
# The governance handlers

`handle_learn`, `handle_resolve_contradiction`, `stage_candidate`,
`resolve_candidate` and `store_learning` as programs on the connection of
their thread.
-/

namespace Minni
namespace Daemon

open Foundation

/-!
## Principals
-/

def acceptFlaggedCapability : String := "accept_flagged"

def explicitlyAllowedOperator (host : Host) (p : EffectivePrincipal) : Bool :=
  p.capabilities.contains "resolve_candidate" ||
    p.capabilities.contains "govern" || p.agent_id = "operator" ||
    host.resolveOperators.contains p.agent_id

def explicitlyAllowedAcceptFlagged (p : EffectivePrincipal) : Bool :=
  p.capabilities.contains acceptFlaggedCapability

def vaultSlugToAgentId : List (String × String) :=
  [("claudecode", "claude-code"), ("claude-science", "claude-science"),
    ("codex", "codex"), ("cursor", "cursor"), ("gemini", "gemini"),
    ("agy", "gemini"), ("antigravity", "gemini"), ("kilocode", "kilocode"),
    ("grok-build", "grok-build"), ("grok-beta", "grok-build"),
    ("grok", "grok-build"), ("xai", "grok-build"), ("devin", "devin")]

def canonicalPrincipal (principal : String) : String :=
  (vaultSlugToAgentId.lookup principal).getD principal

def agentIdHead (c : Char) : Bool :=
  ('a' ≤ c && c ≤ 'z') || ('0' ≤ c && c ≤ '9')

def agentIdTail (c : Char) : Bool :=
  agentIdHead c || c = '.' || c = '_' || c = '-'

/-- The pattern, whose `$` admits one line break at the end. -/
def matchesAgentId (agent_id : String) : Bool :=
  let cs := agent_id.toList
  let body := if cs.getLast? = some '\n' then cs.dropLast else cs
  match body with
  | [] => false
  | c :: rest => agentIdHead c && rest.all agentIdTail && rest.length ≤ 63

/-- `validate_agent_id`: the text of its error. -/
def agentIdError (host : Host) (agent_id : String) : Option String :=
  if agent_id = "" then
    some ("agent_id must be a non-empty string, got " ++
      host.repr (some agent_id))
  else if matchesAgentId agent_id then none
  else
    some ("invalid agent_id " ++ host.repr (some agent_id) ++
      ": must match ^[a-z0-9][a-z0-9._-]\x7b0,63\x7d$ " ++
      "(lowercase alphanumeric/dots/underscores/hyphens, max 64 chars)")

/-!
## Requests
-/

def learningCategories : List String :=
  ["pattern", "fix", "decision", "preference", "fact", "procedure",
    "architecture", "codebase", "scar", "gotcha", "general"]

def knownCategory (category : String) : String :=
  if learningCategories.contains category then category else "general"

def safePrivacy : List String := ["safe", "public", "low"]

def maxLearnChars : Nat := 64 * 1024
def maxLearnFieldChars : Nat := 4 * 1024
def maxSupersedeIds : Nat := 64
def maxPendingCandidatesPerPrincipal : Nat := 2000
def minContentLen : Nat := 12

def takeChars (n : Nat) (text : String) : String :=
  String.ofList (text.toList.take n)

/-- `params["derived_from"]`: an object, a text that parses to one, or
neither. -/
inductive RawDerivedFrom where
  | object (source origin : Option String)
  | text (source origin : Option String)
  | absent
deriving DecidableEq

structure LearnParams where
  keys : List String
  content : Option String
  text : Option String
  title : Option String
  summary : Option String
  category : Option String
  force : Bool
  contradicts_id : Option Nat
  supersedes : Option Nat
  workspace_id : Option String
  evidence_refs : String
  derived_from : RawDerivedFrom
  source : Option String
  origin : Option String
  instruction_like : Bool
  /-- Absent, or given, with `none` for the null value. -/
  privacy_level : Option (Option String)
deriving DecidableEq

namespace LearnParams

/-- A request that gives a text only. -/
def ofContent (content : String) : LearnParams where
  keys := []
  content := some content
  text := none
  title := none
  summary := none
  category := none
  force := false
  contradicts_id := none
  supersedes := none
  workspace_id := none
  evidence_refs := "[]"
  derived_from := RawDerivedFrom.absent
  source := none
  origin := none
  instruction_like := false
  privacy_level := none

end LearnParams

/-- The principal of a call, or the error that stands for it. -/
abbrev Caller := Except Response EffectivePrincipal

def orElseText (first second : Option String) : Option String :=
  match first.filter (· ≠ "") with
  | some text => some text
  | none => second.filter (· ≠ "")

/-- An id that is not given, or zero, counts as absent. -/
def givenId (id : Option Nat) : Option Nat :=
  id.filter (· ≠ 0)

def autoAcceptParamKeys : List String :=
  ["auto_accept_own", "learn.auto_accept_own"]

def rejectWireSuppliedAutoAccept (keys : List String) : Option Response :=
  (autoAcceptParamKeys.find? keys.contains).map fun key =>
    Response.error (-32004)
      ("operator_only: '" ++ key ++ "' is operator configuration and cannot " ++
        "be supplied by a caller; set auto_accept_own in " ++
        "principals/<id>.json (filesystem/console only)")

def withFailures (label : String) (p : Governance Response) :
    Governance Response :=
  Db.tryExcept p fun e => pure (Response.error (-32000) (label ++ e.text))

/-!
## Staging
-/

def autoAcceptBlockers (host : Host) (content : String)
    (instruction_like : Bool) (requested_privacy category : String)
    (source origin : Option String) : List String :=
  (if instruction_like then ["instruction_like"] else []) ++
    (if (PyText.strip content).toList.length < minContentLen then
      ["below minimum content length"] else []) ++
    (if safePrivacy.contains (host.lower (PyText.strip requested_privacy)) then
      [] else ["privacy=" ++ requested_privacy]) ++
    host.qualityBlockers content ++
    (host.non_durable_promotion_blocker content category source origin).toList

namespace LearnParams

def stagedContent (params : LearnParams) : String :=
  takeChars 200000
    (PyText.strip ((orElseText params.content params.text).getD ""))

def rawCategory (host : Host) (params : LearnParams) : String :=
  host.lower (PyText.strip ((orElseText params.category none).getD "general"))

def stagedCategory (host : Host) (params : LearnParams) : String :=
  let raw := params.rawCategory host
  if learningCategories.contains raw then raw
  else knownCategory (host.normalize_category raw)

def sourceParam (params : LearnParams) : Option String :=
  match params.source, params.derived_from with
  | some source, _ => some source
  | none, RawDerivedFrom.object source _ => source
  | none, _ => none

def originParam (params : LearnParams) : Option String :=
  match params.origin, params.derived_from with
  | some origin, _ => some origin
  | none, RawDerivedFrom.object _ origin => origin
  | none, _ => none

/-- A caller may not claim to be the inbox. -/
def derivedFrom (host : Host) (params : LearnParams) : DerivedFrom :=
  let given :=
    match params.derived_from with
    | RawDerivedFrom.object source origin => (source, origin)
    | RawDerivedFrom.text source origin => (source, origin)
    | RawDerivedFrom.absent => (none, none)
  let source := given.1 <|> params.sourceParam
  { source := source.filter fun text =>
      host.lower (PyText.strip text) ≠ "inbox"
    origin := given.2 <|> params.originParam }

def requestedPrivacy (host : Host) (params : LearnParams) : String :=
  let requested :=
    match params.privacy_level with
    | some given => given
    | none => host.frontmatterPrivacy params.stagedContent
  let text := PyText.strip (requested.getD "")
  if text = "" then "safe" else text

def instructionLike (host : Host) (params : LearnParams) : Bool :=
  params.instruction_like || host.is_instruction_like params.stagedContent

def withheld (host : Host) (params : LearnParams) : List String :=
  autoAcceptBlockers host params.stagedContent (params.instructionLike host)
    (params.requestedPrivacy host) (params.stagedCategory host)
    params.sourceParam params.originParam

def storedPrivacy (host : Host) (p : EffectivePrincipal)
    (params : LearnParams) : String :=
  if explicitlyAllowedOperator host p then params.requestedPrivacy host
  else "review"

end LearnParams

def stagedRow (host : Host) (env : Env) (p : EffectivePrincipal)
    (params : LearnParams) (cid : Nat) : Candidate where
  candidate_id := cid
  principal := p.agent_id
  privacy_level := some (params.storedPrivacy host p)
  requested_privacy := some (params.requestedPrivacy host)
  category := params.stagedCategory host
  content := params.stagedContent
  evidence_refs := params.evidence_refs
  derived_from := params.derivedFrom host
  instruction_like := params.instructionLike host
  status := CandidateStatus.proposed
  proposed_at := env.now
  resolved_at := none
  resolved_by := none
  resolution_reason := none

/-- The pending candidates of a principal. -/
def pendingCount (agent_id : String) (s : Store) : Nat :=
  (s.candidates.filter fun row =>
    row.principal = agent_id && row.status = CandidateStatus.proposed).length

def backpressure (pending : Nat) (p : EffectivePrincipal) : Response :=
  Response.error (-32005)
    ("Backpressure: pending candidate queue limit reached (" ++
      toString pending ++ " >= " ++
      toString maxPendingCandidatesPerPrincipal ++ ") for principal " ++
      p.agent_id)

/-- The hash and the embedding that a durable write needs. -/
def prepareAutoAccept (host : Host) (env : Env) (content : String) :
    Option (String × Embedding) :=
  if env.contentHashColumn then
    env.embedding.map fun blob => (host.content_hash content, blob)
  else none

def autoAcceptedRow (host : Host) (env : Env) (p : EffectivePrincipal)
    (params : LearnParams) (chash : String) (blob : Embedding) (lid : Nat) :
    Learning where
  learning_id := lid
  agent_id := p.agent_id
  category := params.stagedCategory host
  content := params.stagedContent
  embedding := some blob
  created_at := env.now
  status := some LearningStatus.active
  superseded_by := none
  content_hash := some chash
  writer := Writer.stage p

def rowContent (lid : Nat) : Option Learning -> String
  | some row => row.content
  | none => "learning:" ++ toString lid

/-- The purge is called within the transaction of the write. -/
def evictNearDuplicate (env : Env) (lid : Nat) : Governance Unit := do
  let row ← Db.select fun s => s.findLearning lid
  evictLearningToColdArchive env lid
  purgeDurableLearning env lid (rowContent lid row)

def canonicalOrProposal (env : Env) : Governance Unit :=
  Db.tryExcept (stepFails env.canonicalNode) fun e =>
    Db.raise (DbError.canonicalCommitFailed e.text)

def autoAcceptedBy (p : EffectivePrincipal) : String :=
  "auto_accept_own(" ++ p.agent_id ++ ")"

def autoAcceptWrites (host : Host) (env : Env) (p : EffectivePrincipal)
    (params : LearnParams) (cid : Nat) (chash : String) (blob : Embedding) :
    Governance Nat := do
  stepFails env.insertLearning
  let lid ← Db.insert
    (Store.insertLearning (autoAcceptedRow host env p params chash blob))
  canonicalOrProposal env
  let near ← scanNearDuplicates host env p.agent_id
    (params.stagedCategory host) params.stagedContent lid (some blob)
  Db.forEach near (evictNearDuplicate env)
  Db.execute (Store.updateCandidate cid
    (Candidate.resolve CandidateStatus.accepted env.now (autoAcceptedBy p)
      ("auto_accept_own: operator-enabled auto-acceptance of the " ++
        "principal's own candidate (#290)")))
  applyAcceptedCandidateEffects cid
  pure lid

/-- What a staged candidate came to: its id, the learning, and why it was
withheld. -/
abbrev Staged := Nat × Option Nat × List String

def stageBlock (host : Host) (env : Env) (p : EffectivePrincipal)
    (params : LearnParams) (prepared : Option (String × Embedding))
    (withheld : List String) : Governance Staged := do
  let cid ← Db.insert (Store.insertCandidate (stagedRow host env p params))
  match prepared with
  | none => pure (cid, none, withheld)
  | some (chash, blob) => do
      let duplicate ← Db.select (hasActiveLearningHash host chash p.agent_id)
      if duplicate then
        pure (cid, none, ["duplicate of an existing learning"])
      else do
        let lid ← autoAcceptWrites host env p params cid chash blob
        pure (cid, some lid, withheld)

def stageProposal (host : Host) (env : Env) (p : EffectivePrincipal)
    (params : LearnParams) (withheld : List String) : Governance Staged := do
  let cid ← Db.transaction nestedBegin
    (Db.insert (Store.insertCandidate (stagedRow host env p params)))
  pure (cid, none, withheld ++ ["canonical commit failed"])

def stagedResponse (host : Host) (env : Env) (p : EffectivePrincipal)
    (params : LearnParams) : Staged -> Response
  | (cid, some lid, _) =>
      Response.accepted cid p.agent_id (params.workspace_id.getD "default")
        (params.storedPrivacy host p) (params.stagedCategory host) lid
        (autoAcceptedBy p) env.indexed
  | (cid, none, withheld) =>
      Response.proposed cid p.agent_id (params.workspace_id.getD "default")
        (params.storedPrivacy host p) (params.stagedCategory host)
        (if p.auto_accept_own then withheld else [])

def stageWrites (host : Host) (env : Env) (p : EffectivePrincipal)
    (params : LearnParams) : Governance Response := do
  let withheld := params.withheld host
  let auto_accept := p.auto_accept_own && withheld.isEmpty
  let prepared :=
    if auto_accept then prepareAutoAccept host env params.stagedContent
    else none
  let reasons :=
    if auto_accept && prepared.isNone then
      withheld ++ ["durable-write preparation failed"]
    else withheld
  let staged ← Db.tryExcept
    (Db.transaction nestedBegin
      (stageBlock host env p params prepared reasons))
    fun e =>
      match e with
      | DbError.canonicalCommitFailed _ =>
          stageProposal host env p params reasons
      | e => Db.raise e
  pure (stagedResponse host env p params staged)

def stageCandidate (host : Host) (env : Env) (caller : Caller)
    (params : LearnParams) : Governance Response :=
  match rejectWireSuppliedAutoAccept params.keys with
  | some refusal => pure refusal
  | none =>
      match caller with
      | Except.error refusal => pure refusal
      | Except.ok p => do
          let pending ← Db.cursor (Db.select (pendingCount p.agent_id))
          if maxPendingCandidatesPerPrincipal ≤ pending then
            pure (backpressure pending p)
          else if params.stagedContent = "" then
            pure (Response.error (-32602) "content is required")
          else
            withFailures "stage_candidate error: "
              (stageWrites host env p params)

/-!
## Learning
-/

def tooLong (text : Option String) : Bool :=
  maxLearnFieldChars < (text.getD "").toList.length

def learnRefusal (params : LearnParams) : Option Response :=
  match rejectWireSuppliedAutoAccept params.keys with
  | some refusal => some refusal
  | none =>
      if params.content.getD "" = "" then
        some (Response.error (-32602) "content is required")
      else if maxLearnChars < (params.content.getD "").toList.length then
        some (Response.error (-32602)
          ("learn content exceeds " ++ toString maxLearnChars ++ " chars"))
      else if tooLong params.title then
        some (Response.error (-32602)
          ("learn title exceeds " ++ toString maxLearnFieldChars ++ " chars"))
      else if tooLong params.summary then
        some (Response.error (-32602)
          ("learn summary exceeds " ++ toString maxLearnFieldChars ++
            " chars"))
      else none

def forcedRow (host : Host) (env : Env) (p : EffectivePrincipal)
    (params : LearnParams) (lid : Nat) : Learning where
  learning_id := lid
  agent_id := p.agent_id
  category := knownCategory (params.rawCategory host)
  content := params.content.getD ""
  embedding := env.embedding
  created_at := env.now
  status := some LearningStatus.active
  superseded_by := none
  content_hash :=
    if env.contentHashColumn then
      some (host.content_hash (params.content.getD ""))
    else none
  writer := Writer.learn p

/-- The active learning that a learn without a predecessor repeats. -/
def repeatedLearning (host : Host) (p : EffectivePrincipal)
    (params : LearnParams) (s : Store) : Option Learning :=
  if (givenId params.supersedes).isNone && params.contradicts_id.isNone then
    findActiveLearningByHash host
      (host.content_hash (params.content.getD "")) p.agent_id s
  else none

def supersedePredecessor (supersedes : Option Nat) (lid : Nat) :
    Governance Unit :=
  match givenId supersedes with
  | some predecessor =>
      Db.execute (Store.updateLearning predecessor (Learning.supersededBy lid))
  | none => pure ()

def forcedWrites (host : Host) (env : Env) (p : EffectivePrincipal)
    (params : LearnParams) : Governance Nat := do
  stepFails env.insertLearning
  let lid ← Db.insert (Store.insertLearning (forcedRow host env p params))
  supersedePredecessor params.supersedes lid
  stepFails env.canonicalNode
  stepFails env.derivedEdges
  let near ← scanNearDuplicates host env p.agent_id
    (knownCategory (params.rawCategory host)) (params.content.getD "") lid
    env.embedding
  Db.forEach near fun duplicate =>
    if givenId params.supersedes = some duplicate then pure ()
    else evictNearDuplicate env duplicate
  pure lid

def forcedBlock (host : Host) (env : Env) (p : EffectivePrincipal)
    (params : LearnParams) : Governance (Response ⊕ Nat) := do
  let existing ← Db.select (repeatedLearning host p params)
  match existing with
  | some row => do
      Db.whenever env.contentHashColumn
        (Db.execute (Store.updateLearning row.learning_id
          (Learning.fillHash (host.content_hash (params.content.getD "")))))
      pure (Sum.inl (Response.learned row.learning_id p.agent_id
        ((orElseText (some row.category) none).getD
          (knownCategory (params.rawCategory host))) true true))
  | none => do
      let lid ← forcedWrites host env p params
      pure (Sum.inr lid)

def forceLearn (host : Host) (env : Env) (p : EffectivePrincipal)
    (params : LearnParams) : Governance Response := do
  let outcome ← Db.cursor (forcedBlock host env p params)
  match outcome with
  | Sum.inl response => pure response
  | Sum.inr lid =>
      pure (Response.learned lid p.agent_id
        (knownCategory (params.rawCategory host)) false env.indexed)

def forceRequiresOperator : Response :=
  Response.error (-32004)
    ("operator_only: force=true durable learn requires operator principal " ++
      "(principals/*.json capabilities or trusted name)")

def handleLearn (host : Host) (env : Env) (caller : Caller)
    (params : LearnParams) : Governance Response :=
  match learnRefusal params with
  | some refusal => pure refusal
  | none =>
      match caller with
      | Except.error refusal => pure refusal
      | Except.ok p =>
          match agentIdError host p.agent_id with
          | some text => pure (Response.error (-32602) text)
          | none =>
              if !params.force && params.contradicts_id.isNone &&
                  !env.contradictions.isEmpty then
                pure (Response.contradiction env.contradictions)
              else if !params.force then
                stageCandidate host env caller params
              else if !isOperatorPrincipal p then
                pure forceRequiresOperator
              else
                withFailures "Learn error: " (forceLearn host env p params)

/-- `WriteBackMemory.store_learning`. -/
structure StoreLearningParams where
  agent_id : String
  content : String
  category : Option String
  supersedes : Option Nat
deriving DecidableEq

def storedRow (host : Host) (env : Env) (params : StoreLearningParams)
    (lid : Nat) : Learning where
  learning_id := lid
  agent_id := params.agent_id
  category := knownCategory (host.lower
    (PyText.strip ((orElseText params.category none).getD "general")))
  content := params.content
  embedding := env.embedding
  created_at := env.now
  status := some LearningStatus.active
  superseded_by := none
  content_hash := none
  writer := Writer.store

def storeLearning (host : Host) (env : Env) (params : StoreLearningParams) :
    Governance Nat :=
  Db.cursor do
    stepFails env.insertLearning
    let lid ← Db.insert (Store.insertLearning (storedRow host env params))
    supersedePredecessor params.supersedes lid
    stepFails env.canonicalNode
    stepFails env.derivedEdges
    pure lid

/-!
## Resolving a contradiction
-/

structure ContradictionParams where
  new_content : String
  /-- Not a list, or a list with `none` for what is not an integer. -/
  supersede_ids : Option (List (Option Nat))
  category : Option String
deriving DecidableEq

def contradictionRefusal (params : ContradictionParams) :
    Except Response (List Nat) :=
  if params.new_content = "" then
    Except.error (Response.error (-32602) "new_content is required")
  else
    match params.supersede_ids with
    | none =>
        Except.error (Response.error (-32602) "supersede_ids must be a list")
    | some ids =>
        if ids.all Option.isSome then
          if ids.isEmpty then
            Except.error (Response.error (-32602)
              "supersede_ids must be a non-empty list of integers")
          else Except.ok (ids.filterMap id).reverse.dedup.reverse
        else
          Except.error (Response.error (-32602)
            "supersede_ids must be a list of integers")

def contradictionGate (host : Host) (p : EffectivePrincipal)
    (params : ContradictionParams) (ids : List Nat) : Option Response :=
  match agentIdError host p.agent_id with
  | some text => some (Response.error (-32602) text)
  | none =>
      if maxLearnChars < params.new_content.toList.length then
        some (Response.error (-32602)
          ("new_content exceeds " ++ toString maxLearnChars ++ " chars"))
      else if host.is_instruction_like params.new_content &&
          !explicitlyAllowedAcceptFlagged p then
        some (Response.error (-32004)
          ("accept_flagged_required: new_content is instruction_like; " ++
            "writing it as a durable learning requires the literal " ++
            "'accept_flagged' capability"))
      else if maxSupersedeIds < ids.length then
        some (Response.error (-32602)
          ("supersede_ids exceeds " ++ toString maxSupersedeIds ++
            " entries"))
      else none

def learningNotFound (lid : Nat) : Refusal :=
  Refusal.mk (-32001) ("learning_not_found: " ++ toString lid)

def supersedeMismatch (p : EffectivePrincipal) (lid : Nat) (owner : String) :
    Refusal :=
  Refusal.mk (-32004)
    ("principal_mismatch: learning #" ++ toString lid ++ " is owned by '" ++
      owner ++ "'; caller principal '" ++ p.agent_id ++
      "' may only supersede its own learnings (cross-principal " ++
      "supersession requires an explicitly allowed operator)")

def superseding (host : Host) (p : EffectivePrincipal) :
    List Nat -> Governance (List Learning)
  | [] => pure []
  | lid :: rest => do
      let found ← Db.select fun s => s.findLearning lid
      match found with
      | none => Db.raise (DbError.resolveRejected (learningNotFound lid))
      | some row =>
          if row.agent_id ≠ p.agent_id && !explicitlyAllowedOperator host p then
            Db.raise (DbError.resolveRejected
              (supersedeMismatch p lid row.agent_id))
          else do
            let rows ← superseding host p rest
            pure (row :: rows)

def contradictionRow (host : Host) (env : Env) (p : EffectivePrincipal)
    (params : ContradictionParams) (lid : Nat) : Learning where
  learning_id := lid
  agent_id := p.agent_id
  category := knownCategory (host.lower
    (PyText.strip ((orElseText params.category none).getD "general")))
  content := params.new_content
  embedding := env.embedding
  created_at := env.now
  status := some LearningStatus.active
  superseded_by := none
  content_hash :=
    if env.contentHashColumn then some (host.content_hash params.new_content)
    else none
  writer := Writer.contradiction p

def contradictionBlock (host : Host) (env : Env) (p : EffectivePrincipal)
    (params : ContradictionParams) (ids : List Nat) :
    Governance (Nat × List Learning) := do
  let rows ← superseding host p ids
  stepFails env.insertLearning
  let lid ← Db.insert
    (Store.insertLearning (contradictionRow host env p params))
  Db.forEach ids fun sid =>
    Db.execute (Store.updateLearning sid (Learning.retiredBy lid))
  pure (lid, rows)

/-- After the commit. -/
def purgeAll (env : Env) (contents : List (Nat × String)) :
    Governance Unit :=
  Db.forEach contents fun entry =>
    if entry.2 = "" then pure () else purgeDurableLearning env entry.1 entry.2

def rejections (label : String) (p : Governance Response) :
    Governance Response :=
  Db.tryExcept p fun e =>
    match e with
    | DbError.resolveRejected refusal => pure refusal.response
    | e => pure (Response.error (-32000) (label ++ e.text))

def handleResolveContradiction (host : Host) (env : Env) (caller : Caller)
    (params : ContradictionParams) : Governance Response :=
  match contradictionRefusal params with
  | Except.error refusal => pure refusal
  | Except.ok ids =>
      match caller with
      | Except.error refusal => pure refusal
      | Except.ok p =>
          match contradictionGate host p params ids with
          | some refusal => pure refusal
          | none =>
              rejections "Resolve contradiction error: " do
                let written ← Db.transaction nestedBegin
                  (contradictionBlock host env p params ids)
                purgeAll env
                  (written.2.map fun row => (row.learning_id, row.content))
                pure (Response.superseded written.1 ids)

/-!
## Resolving a candidate
-/

/-- `supersede_ids` or `supersedes`: one id, a list with `none` for what is
not an integer, or neither. -/
inductive SupersedeParam where
  | one (id : Nat)
  | many (ids : List (Option Nat))
  | invalid
deriving DecidableEq

structure ResolveParams where
  /-- Absent, or given, with `none` for what is not an integer. -/
  candidate_id : Option (Option Nat)
  decision : Option String
  reason : String
  category : Option String
  supersede_ids : Option (Option SupersedeParam)
  supersedes : Option SupersedeParam
deriving DecidableEq

def decisionStatus : List (String × CandidateStatus) :=
  [("accept", CandidateStatus.accepted), ("learn", CandidateStatus.accepted),
    ("reject", CandidateStatus.rejected), ("redact", CandidateStatus.redacted),
    ("do_not_store", CandidateStatus.do_not_store),
    ("log_only", CandidateStatus.log_only),
    ("merge", CandidateStatus.merged),
    ("supersede", CandidateStatus.superseded)]

def unimplementedDecisions : List String :=
  ["mark_sensitive", "mark_temporary", "mark_project_scoped"]

def allowedDecisions : String :=
  "['accept', 'do_not_store', 'learn', 'log_only', 'merge', 'redact', " ++
    "'reject', 'supersede']"

def ResolveParams.decisionText (host : Host) (params : ResolveParams) :
    String :=
  host.lower (PyText.strip (params.decision.getD ""))

def resolveTarget (host : Host) (params : ResolveParams) :
    Except Response (Nat × CandidateStatus) :=
  match params.candidate_id with
  | none =>
      Except.error (Response.error (-32602) "candidate_id is required")
  | some none =>
      Except.error (Response.error (-32602) "candidate_id must be integer")
  | some (some cid) =>
      let decision := params.decisionText host
      if unimplementedDecisions.contains decision then
        Except.error (Response.error (-32602)
          ("decision '" ++ decision ++ "' is not yet implemented: it " ++
            "previously mapped to a plain accept with no " ++
            "privacy/expiry/scope enforcement (see issue #123); decision " ++
            "must be one of " ++ allowedDecisions))
      else
        match decisionStatus.lookup decision with
        | none =>
            Except.error (Response.error (-32602)
              ("decision must be one of " ++ allowedDecisions))
        | some status => Except.ok (cid, status)

def reject (refusal : Refusal) {α : Type} : Governance α :=
  Db.raise (DbError.resolveRejected refusal)

def supersedeIdsNotIntegers : Refusal :=
  Refusal.mk (-32602) "supersede_ids must be a list of integers"

def rawSupersede (params : ResolveParams) :
    Except Refusal (List (Option Nat)) :=
  match params.supersede_ids.getD params.supersedes with
  | none => Except.ok []
  | some (SupersedeParam.one id) => Except.ok [some id]
  | some (SupersedeParam.many ids) =>
      if maxSupersedeIds < ids.length then
        Except.error (Refusal.mk (-32602)
          ("supersede_ids exceeds maximum batch size (" ++
            toString maxSupersedeIds ++ ")"))
      else Except.ok ids
  | some SupersedeParam.invalid => Except.error supersedeIdsNotIntegers

/-- The loop over the requested ids, which collects each once. -/
def checkSuperseded (host : Host) (p : EffectivePrincipal) (author : String) :
    List (Option Nat) -> List Nat -> Governance (List Nat)
  | [], collected => pure collected
  | none :: _, _ => reject supersedeIdsNotIntegers
  | some sid :: rest, collected => do
      let found ← Db.select fun s => s.findLearning sid
      match found with
      | none => reject (learningNotFound sid)
      | some row =>
          if canonicalPrincipal row.agent_id ≠ canonicalPrincipal author &&
              !explicitlyAllowedOperator host p then
            reject (supersedeMismatch p sid row.agent_id)
          else
            checkSuperseded host p author rest
              (if collected.contains sid then collected
              else collected ++ [sid])

/-- The loop that marks the active learnings of the same text.  Each round
leaves one fewer. -/
def supersedeSameHash (host : Host) (h author : String) :
    Nat -> List Nat -> Governance (List Nat)
  | 0, collected => pure collected
  | rounds + 1, collected => do
      let existing ← Db.select (findActiveLearningByHash host h author)
      match existing with
      | none => pure collected
      | some row =>
          if collected.contains row.learning_id then pure collected
          else do
            Db.execute
              (Store.updateLearning row.learning_id Learning.markSuperseded)
            supersedeSameHash host h author rounds
              (collected ++ [row.learning_id])

def retireRow (env : Env) (lid predecessor : Nat) : Governance Unit :=
  if env.writebackEnabled then
    evictLearningToColdArchive env predecessor
  else
    Db.execute (Store.updateLearning predecessor (Learning.retiredBy lid))

/-- Retires one predecessor of an accepted learning, and names its content. -/
def retirePredecessor (env : Env) (lid predecessor : Nat) :
    Governance String := do
  let row ← Db.select fun s => s.findLearning predecessor
  retireRow env lid predecessor
  pure (rowContent predecessor row)

def retirePredecessors (env : Env) (lid : Nat) :
    List Nat -> Governance (List (Nat × String))
  | [] => pure []
  | predecessor :: rest =>
      if predecessor = lid then retirePredecessors env lid rest
      else do
        let content ← retirePredecessor env lid predecessor
        let contents ← retirePredecessors env lid rest
        pure ((predecessor, content) :: contents)

def acceptedRow (host : Host) (env : Env) (p : EffectivePrincipal)
    (author category content : String) (lid : Nat) : Learning where
  learning_id := lid
  agent_id := author
  category := category
  content := content
  embedding := none
  created_at := env.now
  status := some LearningStatus.active
  superseded_by := none
  content_hash :=
    if env.contentHashColumn then some (host.content_hash content) else none
  writer := Writer.resolve p

def acceptedCategory (host : Host) (params : ResolveParams)
    (row : Candidate) : String :=
  knownCategory (host.lower (PyText.strip
    ((orElseText (some row.category) params.category).getD "general")))

def acceptWrites (host : Host) (env : Env) (p : EffectivePrincipal)
    (params : ResolveParams) (author : String) (row : Candidate) :
    Governance (Nat × List (Nat × String)) := do
  match rawSupersede params with
  | Except.error refusal => reject refusal
  | Except.ok ids => do
      let requested ← checkSuperseded host p author ids []
      let rounds ← Db.select fun s => s.learnings.length
      let predecessors ← supersedeSameHash host
        (host.content_hash row.content) author rounds requested
      stepFails env.insertLearning
      let lid ← Db.insert (Store.insertLearning
        (acceptedRow host env p author (acceptedCategory host params row)
          row.content))
      stepFails env.canonicalNode
      let near ← scanNearDuplicates host env author
        (acceptedCategory host params row) row.content lid none
      let contents ← retirePredecessors env lid
        (predecessors ++ near.filter fun dup => !predecessors.contains dup)
      pure (lid, contents)

def candidateNotFound (cid : Nat) : Refusal :=
  Refusal.mk (-32001) ("candidate_not_found: " ++ toString cid)

def resolveMismatch (p : EffectivePrincipal) (cid : Nat) (owner : String) :
    Refusal :=
  Refusal.mk (-32004)
    ("principal_mismatch: candidate #" ++ toString cid ++ " is owned by '" ++
      owner ++ "'; caller principal '" ++ p.agent_id ++
      "' may only resolve its own candidates (cross-principal resolution " ++
      "requires an explicitly allowed operator: 'operator', a literal " ++
      "resolve_candidate/govern capability, or MINNI_RESOLVE_OPERATORS)")

def alreadyResolved (host : Host) (row : Candidate) : Refusal :=
  Refusal.mk (-32009)
    ("already_resolved: candidate #" ++ toString row.candidate_id ++
      " is '" ++ row.status.text ++ "' (resolved_by=" ++
      host.repr row.resolved_by ++ "); resolution is terminal and cannot " ++
      "be repeated")

def acceptFlaggedRequired : Response :=
  Response.error (-32004)
    ("accept_flagged_required: candidate is instruction_like; accepting it " ++
      "requires literal 'accept_flagged' capability")

def acceptRequiresOperator (p : EffectivePrincipal) (cid : Nat) : Refusal :=
  Refusal.mk (-32004)
    ("operator_only: accepting candidate #" ++ toString cid ++
      " into a durable learning requires an operator/govern principal " ++
      "(caller '" ++ p.agent_id ++ "' owns the candidate but may only " ++
      "reject/redact it, not self-approve it into durable memory)")

/-- The candidate, if the caller may resolve it. -/
def resolvableCandidate (host : Host) (p : EffectivePrincipal) (cid : Nat) :
    Governance Candidate := do
  let found ← Db.select fun s => s.findCandidate cid
  match found with
  | none => reject (candidateNotFound cid)
  | some row =>
      if canonicalPrincipal row.principal ≠ canonicalPrincipal p.agent_id &&
          !explicitlyAllowedOperator host p then
        reject (resolveMismatch p cid row.principal)
      else if row.status ≠ CandidateStatus.proposed then
        reject (alreadyResolved host row)
      else pure row

def acceptIfAsked (host : Host) (env : Env) (p : EffectivePrincipal)
    (params : ResolveParams) (status : CandidateStatus) (row : Candidate) :
    Governance (Option Nat × List (Nat × String)) :=
  if status = CandidateStatus.accepted then do
    let author := if row.principal = "" then p.agent_id else row.principal
    let accepted ← acceptWrites host env p params author row
    pure (some accepted.1, accepted.2)
  else pure (none, [])

/-- The refusal for a flagged candidate returns from within the transaction,
so the flag is kept. -/
def resolveBlock (host : Host) (env : Env) (p : EffectivePrincipal)
    (params : ResolveParams) (cid : Nat) (status : CandidateStatus) :
    Governance (Response ⊕ (Option Nat × List (Nat × String))) := do
  let row ← resolvableCandidate host p cid
  let flagged := row.instruction_like || host.is_instruction_like row.content
  Db.whenever (flagged && !row.instruction_like)
    (Db.execute (Store.updateCandidate cid Candidate.flag))
  if status = CandidateStatus.accepted && flagged &&
      !explicitlyAllowedAcceptFlagged p then
    pure (Sum.inl acceptFlaggedRequired)
  else do
    Db.whenever
      (status = CandidateStatus.accepted && !isOperatorPrincipal p &&
        !explicitlyAllowedOperator host p)
      (reject (acceptRequiresOperator p cid))
    let written ← acceptIfAsked host env p params status row
    Db.execute (Store.updateCandidate cid
      (Candidate.resolve status env.now p.agent_id
        (takeChars 500 params.reason)))
    applyAcceptedCandidateEffects cid
    pure (Sum.inr written)

def resolveFailures (host : Host) (p : Governance Response) :
    Governance Response :=
  Db.tryExcept p fun e =>
    match e with
    | DbError.resolveRejected refusal => pure refusal.response
    | e =>
        pure (Response.error (-32000)
          (host.redact ("resolve_candidate error: " ++ e.text)))

def resolveWrites (host : Host) (env : Env) (p : EffectivePrincipal)
    (params : ResolveParams) (cid : Nat) (status : CandidateStatus) :
    Governance Response := do
  let outcome ← Db.transaction nestedBegin
    (resolveBlock host env p params cid status)
  match outcome with
  | Sum.inl refusal => pure refusal
  | Sum.inr (lid, contents) => do
      purgeAll env contents
      pure (Response.resolved cid status lid p.agent_id
        (if lid.isSome then env.indexed else true))

def resolveCandidate (host : Host) (env : Env) (caller : Caller)
    (params : ResolveParams) : Governance Response :=
  match caller with
  | Except.error refusal => pure refusal
  | Except.ok p =>
      match agentIdError host p.agent_id with
      | some text => pure (Response.error (-32602) text)
      | none =>
          match resolveTarget host params with
          | Except.error refusal => pure refusal
          | Except.ok (cid, status) =>
              resolveFailures host
                (resolveWrites host env p params cid status)

end Daemon
end Minni
