import Mathlib.Data.List.Sort
import Minni.Daemon.Governance

/-!
# Applying the decisions of a consolidation

`promote_candidate_durable` reads and embeds outside its transaction, so it is
two programs: what it makes of the row it read, and the write that compares
the row again.  `apply_consolidation_result` runs every decision of a pass,
and `dedup_active_learnings` retires the duplicates among the learnings.
-/

namespace Minni
namespace Daemon

open Foundation

/-!
## Reading a candidate
-/

/-- `is_judge_eligible`. -/
def isJudgeEligible (host : Host) (privacy requested : Option String) : Bool :=
  host.lower (PyText.strip (privacy.getD "")) = "review" &&
    safePrivacy.contains (host.lower (PyText.strip (requested.getD "")))

def Candidate.privacy (host : Host) (row : Candidate) : String :=
  host.lower (PyText.strip (row.privacy_level.getD ""))

def Candidate.flagged (host : Host) (row : Candidate) : Bool :=
  row.instruction_like || host.is_instruction_like row.content

/-- The owner of the learning that a candidate becomes. -/
def Candidate.owner (row : Candidate) : String :=
  canonicalPrincipal (if row.principal = "" then "afm-loop" else row.principal)

def judgeAccepted : Option Verdict -> Bool
  | some verdict => verdict.decision = JudgeDecision.accept
  | none => false

/-- The gate of privacy: safe, or in review with a safe request that the judge
accepted. -/
def privacyAdmits (host : Host) (row : Candidate) (verdict : Option Verdict) :
    Bool :=
  safePrivacy.contains (row.privacy host) ||
    (judgeAccepted verdict &&
      isJudgeEligible host (some (row.privacy host)) row.requested_privacy)

inductive Preparation where
  | nothing
  | flagged (read : Candidate)
  | refused (read : Candidate)
  | invalidAgent
  | ready (read : Candidate)
deriving DecidableEq

def preparePromotion (host : Host) (verdict : Option Verdict) :
    Option Candidate -> Preparation
  | none => Preparation.nothing
  | some row =>
      if row.status ≠ CandidateStatus.proposed then Preparation.nothing
      else if row.flagged host then Preparation.flagged row
      else if !privacyAdmits host row verdict then Preparation.refused row
      else if (agentIdError host row.owner).isSome then
        Preparation.invalidAgent
      else Preparation.ready row

/-!
## Writing it
-/

/-- `_row_matches_snapshot`. -/
def rowMatchesSnapshot (read : Candidate) (s : Store) : Bool :=
  match s.findCandidate read.candidate_id with
  | none => false
  | some row =>
      row.status = CandidateStatus.proposed && row.content = read.content &&
        row.principal = read.principal &&
        row.privacy_level = read.privacy_level &&
        row.instruction_like = read.instruction_like &&
        row.evidence_refs = read.evidence_refs

def hasActiveReview (cid : Nat) (s : Store) : Bool :=
  s.actions.any (ConsolidationAction.isReviewOf cid)

def reviewAction (cid : Nat) (detail : String) : ConsolidationAction where
  action_type := ActionType.afm_review
  claim := toString cid
  status := some ActionStatus.pending
  detail := detail

/-- Adds a review marker unless the candidate has one. -/
def addReview (cid : Nat) (detail : String) : Governance Bool := do
  let fenced ← Db.select (hasActiveReview cid)
  if fenced then pure false
  else do
    Db.execute (Store.insertAction (reviewAction cid detail))
    pure true

def fenceFlagged (reason : String) (read : Candidate) : Governance Unit :=
  Db.transaction nestedBegin do
    let unchanged ← Db.select (rowMatchesSnapshot read)
    Db.whenever unchanged do
      Db.execute (Store.updateCandidate read.candidate_id Candidate.flag)
      addReview read.candidate_id
          (takeChars 450 reason ++ ": instruction_like") >>=
        fun _ => pure ()

def fenceRefused (host : Host) (reason : String) (read : Candidate) :
    Governance Unit :=
  Db.transaction nestedBegin do
    let unchanged ← Db.select (rowMatchesSnapshot read)
    Db.whenever unchanged
      (addReview read.candidate_id
          (takeChars 450 reason ++ ": privacy=" ++
            (if read.privacy host = "" then "unset" else read.privacy host)) >>=
        fun _ => pure ())

/-- `_ensure_dedup_index`: fills in the hashes that are missing. -/
def ensureDedupIndex (host : Host) (env : Env) : Governance Unit := do
  stepFails env.dedupIndex
  let hashless ← Db.cursor (Db.select fun s =>
    s.learnings.filter fun row => row.content_hash.isNone)
  if hashless.isEmpty then pure ()
  else
    Db.transaction nestedBegin (Db.forEach hashless fun row =>
      Db.execute (Store.updateLearning row.learning_id fun l =>
        { l with content_hash := some (host.content_hash row.content) }))

def promotedRow (host : Host) (env : Env) (verdict : Option Verdict)
    (read committed : Candidate) (lid : Nat) : Learning where
  learning_id := lid
  agent_id := read.owner
  category := knownCategory (host.lower (PyText.strip
    ((orElseText (some read.category) none).getD "general")))
  content := read.content
  embedding := env.embedding
  created_at := env.now
  status := some LearningStatus.active
  superseded_by := none
  content_hash := some (host.content_hash read.content)
  writer := Writer.promote read committed verdict

def promotedBy : Option Verdict -> String
  | some verdict => "afm-judge(" ++ verdict.model ++ ")"
  | none => "afm-consolidation"

def promoteBlock (host : Host) (env : Env) (reason : String)
    (verdict : Option Verdict) (read : Candidate) :
    Governance (Option Nat) := do
  let unchanged ← Db.select (rowMatchesSnapshot read)
  if unchanged then do
    let committed ← Db.select fun s =>
      (s.findCandidate read.candidate_id).getD read
    stepFails env.insertLearning
    let lid ← Db.insert
      (Store.insertLearning (promotedRow host env verdict read committed))
    stepFails env.canonicalNode
    Db.execute (Store.updateCandidate read.candidate_id
      (Candidate.resolve CandidateStatus.accepted env.now (promotedBy verdict)
        (takeChars 500 reason)))
    Db.execute (supersedeAfmReview read.candidate_id)
    Db.execute (Store.insertAction
      { action_type := ActionType.afm_promote
        claim := takeChars 200 read.content
        status := some ActionStatus.applied
        detail := takeChars 500 reason })
    pure (some lid)
  else pure none

def writePromotion (host : Host) (env : Env) (reason : String)
    (verdict : Option Verdict) : Preparation -> Governance (Option Nat)
  | Preparation.nothing => pure none
  | Preparation.invalidAgent => pure none
  | Preparation.flagged read => do
      fenceFlagged reason read
      pure none
  | Preparation.refused read => do
      fenceRefused host reason read
      pure none
  | Preparation.ready read => do
      ensureDedupIndex host env
      Db.tryExcept
        (Db.transaction nestedBegin
          (promoteBlock host env reason verdict read))
        fun _ => pure none

def promoteCandidateDurable (host : Host) (env : Env) (cid : Nat)
    (reason : String) (verdict : Option Verdict) :
    Governance (Option Nat) := do
  let found ← Db.cursor (Db.select fun s => s.findCandidate cid)
  writePromotion host env reason verdict (preparePromotion host verdict found)

/-- The near duplicates of a promoted learning leave in a transaction of their
own, whose failure is swallowed. -/
def evictAfterPromotion (host : Host) (env : Env) (lid : Nat) :
    Governance Unit :=
  Db.tryExcept
    (Db.transaction nestedBegin do
      let found ← Db.select fun s => s.findLearning lid
      match found with
      | none => pure ()
      | some row => do
          let near ← scanNearDuplicates host env row.agent_id row.category
            row.content lid row.embedding
          Db.forEach near (evictLearningToColdArchive env))
    fun _ => pure ()

/-!
## The other decisions
-/

def appliedAction (type : ActionType) (cid : Nat) (detail : String) :
    ConsolidationAction where
  action_type := type
  claim := toString cid
  status := some ActionStatus.applied
  detail := detail

/-- The writes that close a proposed candidate. -/
def closeCandidate (env : Env) (cid : Nat) (status : CandidateStatus)
    (resolved_by resolution_reason : String) (type : ActionType) :
    Governance Unit := do
  Db.execute (Store.updateCandidate cid
    (Candidate.resolve status env.now resolved_by resolution_reason))
  Db.execute (supersedeAfmReview cid)
  Db.execute (Store.insertAction (appliedAction type cid resolution_reason))

def proposedCandidate (cid : Nat) (s : Store) : Option Candidate :=
  (s.findCandidate cid).filter fun row =>
    row.status = CandidateStatus.proposed

def rejectCandidateDedup (host : Host) (env : Env) (cid : Nat) :
    Governance Bool :=
  Db.transaction nestedBegin do
    let found ← Db.select (proposedCandidate cid)
    match found with
    | none => pure false
    | some row => do
        let replaced ← Db.select (hasActiveLearningHash host
          (host.content_hash row.content) row.owner)
        if replaced then do
          closeCandidate env cid CandidateStatus.rejected "afm-consolidation"
            "duplicate of existing learning" ActionType.afm_dedup
          pure true
        else pure false

def verdictReason (fallback : String) : Option Verdict -> String
  | some verdict => takeChars 500 verdict.reason
  | none => fallback

def verdictAuthor : Option Verdict -> String
  | some verdict => "afm-judge(" ++ verdict.model ++ ")"
  | none => "afm-judge(afm-judge)"

/-- `reject_candidate_judge` and `redact_candidate_judge`. -/
def closeByJudge (env : Env) (status : CandidateStatus) (type : ActionType)
    (fallback : String) (cid : Nat) (verdict : Option Verdict) :
    Governance Bool :=
  Db.transaction nestedBegin do
    let found ← Db.select (proposedCandidate cid)
    match found with
    | none => pure false
    | some _ => do
        closeCandidate env cid status (verdictAuthor verdict)
          (verdictReason fallback verdict) type
        pure true

def rejectCandidateJudge (env : Env) (cid : Nat) (verdict : Option Verdict) :
    Governance Bool :=
  closeByJudge env CandidateStatus.rejected ActionType.afm_judge_reject
    "rejected by model judge" cid verdict

def redactCandidateJudge (env : Env) (cid : Nat) (verdict : Option Verdict) :
    Governance Bool :=
  closeByJudge env CandidateStatus.redacted ActionType.afm_judge_redact
    "redacted by model judge" cid verdict

def markCandidateReview (host : Host) (cid : Nat) (reason : String) :
    Governance Bool :=
  Db.transaction nestedBegin do
    let found ← Db.select (proposedCandidate cid)
    match found with
    | none => pure false
    | some row => do
        Db.whenever (row.flagged host)
          (Db.execute (Store.updateCandidate cid Candidate.flag))
        addReview cid (takeChars 500 reason)

/-- Seven days in milliseconds. -/
def retention : Nat := 7 * 86400 * 1000

/-- A terminal row past the retention. -/
def Candidate.compactable (now : Nat) (row : Candidate) : Bool :=
  let since := row.resolved_at.getD row.proposed_at
  row.status ≠ CandidateStatus.proposed && 0 < since && since + retention < now

def expireAndCompact (now : Nat) (s : Store) : Store :=
  let expired := (s.candidates.filter fun row =>
    row.status = CandidateStatus.expired).map (·.candidate_id)
  let marked := expired.foldl (fun s cid => supersedeAfmReview cid s) s
  { marked with
    candidates := s.candidates.map fun row =>
      let stamped :=
        if row.status = CandidateStatus.expired then
          { row with resolved_at := some (row.resolved_at.getD now) }
        else row
      if stamped.compactable now then { stamped with content := "" }
      else stamped }

/-!
## Applying a result
-/

structure ConsolidationResult where
  promote_candidate_ids : List Nat
  dedup_candidate_ids : List Nat
  review_candidate_ids : List Nat
  reject_candidate_ids : List Nat
  redact_candidate_ids : List Nat
  judge_verdicts : List (Nat × Verdict)
deriving DecidableEq

def ConsolidationResult.verdict (result : ConsolidationResult) (cid : Nat) :
    Option Verdict :=
  result.judge_verdicts.lookup cid

structure Applied where
  promoted : Nat
  deduped : Nat
  reviewed : Nat
  errors : Nat
  remaining_proposed : List Nat
deriving DecidableEq

/-- Runs one decision after the other: how many landed, and how many raised. -/
def applyEach (decide_ : Nat -> Governance Bool) :
    List Nat -> Governance (Nat × Nat)
  | [] => pure (0, 0)
  | cid :: rest => do
      let landed ← Db.tryExcept
        (decide_ cid >>= fun landed => pure (some landed))
        fun _ => pure none
      let counts ← applyEach decide_ rest
      match landed with
      | none => pure (counts.1, counts.2 + 1)
      | some true => pure (counts.1 + 1, counts.2)
      | some false => pure counts

def applyPromotion (host : Host) (env : Nat -> Env)
    (result : ConsolidationResult) (cid : Nat) : Governance Bool := do
  let verdict := result.verdict cid
  let reason :=
    match verdict with
    | some verdict => verdict.reason
    | none => "afm-consolidation"
  let lid ← promoteCandidateDurable host (env cid) cid reason verdict
  match lid with
  | none => pure false
  | some lid => do
      evictAfterPromotion host (env cid) lid
      pure true

/-- The targets that are still proposed; a review target only without its
marker. -/
def remainingProposed (result : ConsolidationResult) (s : Store) : List Nat :=
  (result.promote_candidate_ids ++ result.dedup_candidate_ids ++
      result.reject_candidate_ids ++ result.redact_candidate_ids).filter
    (fun cid => (proposedCandidate cid s).isSome) ++
  result.review_candidate_ids.filter fun cid =>
    !hasActiveReview cid s && (proposedCandidate cid s).isSome

/-- With the surroundings of the write on each candidate. -/
def applyConsolidationResult (host : Host) (env : Nat -> Env) (now : Nat)
    (result : ConsolidationResult) : Governance Applied := do
  let promoted ← applyEach (applyPromotion host env result)
    result.promote_candidate_ids
  let deduped ← applyEach (fun cid => rejectCandidateDedup host (env cid) cid)
    result.dedup_candidate_ids
  let rejected ← applyEach
    (fun cid => rejectCandidateJudge (env cid) cid (result.verdict cid))
    result.reject_candidate_ids
  let redacted ← applyEach
    (fun cid => redactCandidateJudge (env cid) cid (result.verdict cid))
    result.redact_candidate_ids
  let reviewed ← applyEach
    (fun cid => markCandidateReview host cid "afm-consolidation review")
    result.review_candidate_ids
  Db.tryExcept
    (Db.transaction nestedBegin (Db.execute (expireAndCompact now)))
    fun _ => pure ()
  let remaining ← Db.cursor (Db.select (remainingProposed result))
  pure
    { promoted := promoted.1
      deduped := deduped.1
      reviewed := reviewed.1
      errors := promoted.2 + deduped.2 + rejected.2 + redacted.2 + reviewed.2
      remaining_proposed := remaining }

/-!
## Duplicates among the learnings
-/

def laterFirst (left right : Learning) : Prop :=
  right.created_at < left.created_at ∨
    (right.created_at = left.created_at ∧
      right.learning_id ≤ left.learning_id)

instance : DecidableRel laterFirst :=
  fun _ _ => inferInstanceAs (Decidable (_ ∨ _))

/-- What the scan over the active learnings has gathered. -/
structure DedupPlan where
  winners : List ((String × String) × Nat)
  groups : List ((String × String) × Learning)
  dupUpdates : List (Nat × Nat)
  lowSignal : List Nat

def DedupPlan.empty : DedupPlan where
  winners := []
  groups := []
  dupUpdates := []
  lowSignal := []

def storedHash (host : Host) (row : Learning) : String :=
  (orElseText row.content_hash none).getD (host.content_hash row.content)

def dedupRow (host : Host) (plan : DedupPlan) (row : Learning) : DedupPlan :=
  if host.is_low_signal_boot_learning row.content then
    { plan with lowSignal := plan.lowSignal ++ [row.learning_id] }
  else
    let key := (row.agent_id, storedHash host row)
    match plan.winners.lookup key with
    | some winner =>
        { plan with
          dupUpdates := plan.dupUpdates ++ [(winner, row.learning_id)] }
    | none =>
        let group := (row.agent_id, host.lower (PyText.strip
          ((orElseText (some row.category) none).getD "general")))
        match plan.groups.find? fun entry =>
            entry.1 = group &&
              (host.jaccardNear row.content entry.2.content ||
                cosineReaches host row.embedding entry.2.embedding) with
        | some entry =>
            { plan with
              dupUpdates :=
                plan.dupUpdates ++ [(entry.2.learning_id, row.learning_id)] }
        | none =>
            { plan with
              winners := plan.winners ++ [(key, row.learning_id)]
              groups := plan.groups ++ [(group, row)] }

def dedupScan (agent_id : Option String) (s : Store) : List Learning :=
  (s.learnings.filter fun row =>
    row.isCurrent &&
      (match agent_id with
      | none => true
      | some owner => row.agent_id = owner)).insertionSort laterFirst

/-- An update that reaches the row only while nothing supersedes it. -/
def unlessSuperseded (f : Learning -> Learning) (row : Learning) : Learning :=
  if row.superseded_by.isNone then f row else row

def dedupBlock (env : Env) (evicts : Bool) (plan : DedupPlan) :
    Governance Unit :=
  if evicts then do
    Db.forEach (plan.dupUpdates.map (·.2)) (evictLearningToColdArchive env)
    Db.forEach plan.lowSignal (evictLearningToColdArchive env)
  else do
    Db.forEach plan.dupUpdates fun update =>
      Db.execute (Store.updateLearning update.2
        (unlessSuperseded (Learning.retiredBy update.1)))
    Db.forEach plan.lowSignal fun lid =>
      Db.execute
        (Store.updateLearning lid (unlessSuperseded Learning.markRejected))

def dedupActiveLearnings (host : Host) (env : Env) (agent_id : Option String)
    (evict_to_archive : Option Bool) : Governance Unit := do
  ensureDedupIndex host env
  let rows ← Db.cursor (Db.select (dedupScan agent_id))
  let plan := rows.foldl (dedupRow host) DedupPlan.empty
  if plan.dupUpdates.isEmpty && plan.lowSignal.isEmpty then pure ()
  else
    Db.transaction nestedBegin
      (dedupBlock env (evict_to_archive.getD env.writebackEnabled) plan)

end Daemon
end Minni
