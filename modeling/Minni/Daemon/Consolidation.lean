import Minni.Daemon.Promotion

/-!
# The consolidation pass

The pass reads the proposed candidates that no marker fences and decides on
each; the daemon applies the decisions, and `drain_consolidation` repeats the
batch until a batch gives a reason to stop.
-/

namespace Minni
namespace Daemon

open Foundation

/-!
## Selecting
-/

def isFenced (cid : Nat) (s : Store) : Bool :=
  s.actions.any (ConsolidationAction.fences cid)

/-- The condition of the query of `_proposed_candidates`. -/
def isSelectable (s : Store) (row : Candidate) : Bool :=
  row.status = CandidateStatus.proposed && !isFenced row.candidate_id s

def earlierFirst (left right : Candidate) : Prop :=
  left.proposed_at ≤ right.proposed_at

instance : DecidableRel earlierFirst :=
  fun left right => inferInstanceAs (Decidable
    (left.proposed_at ≤ right.proposed_at))

def selectable (s : Store) : List Candidate :=
  s.candidates.filter (isSelectable s)

def proposedCandidates (limit : Nat) (s : Store) : List Candidate :=
  ((selectable s).insertionSort earlierFirst).take limit

def totalProposed (s : Store) : Nat :=
  (s.candidates.filter fun row =>
    row.status = CandidateStatus.proposed).length

/-!
## Deciding
-/

inductive JudgeMode where
  | enforce
  | shadow
  | off
deriving DecidableEq

structure PassConfig where
  max_per_run : Nat
  judge_mode : JudgeMode
  max_model_calls : Nat
deriving DecidableEq

def examinablePrivacy : List String := safePrivacy ++ ["review"]

/-- What a run of the pass has decided so far. -/
structure Triage where
  result : ConsolidationResult
  seen : List (String × String)
  modelCalls : Nat
  deferredBudget : List Nat
deriving DecidableEq

def Triage.empty : Triage where
  result :=
    { promote_candidate_ids := []
      dedup_candidate_ids := []
      review_candidate_ids := []
      reject_candidate_ids := []
      redact_candidate_ids := []
      judge_verdicts := [] }
  seen := []
  modelCalls := 0
  deferredBudget := []

namespace Triage

def review (t : Triage) (cid : Nat) : Triage :=
  { t with
    result :=
      { t.result with
        review_candidate_ids := t.result.review_candidate_ids ++ [cid] } }

def dedup (t : Triage) (cid : Nat) : Triage :=
  { t with
    result :=
      { t.result with
        dedup_candidate_ids := t.result.dedup_candidate_ids ++ [cid] } }

def reject (t : Triage) (cid : Nat) : Triage :=
  { t with
    result :=
      { t.result with
        reject_candidate_ids := t.result.reject_candidate_ids ++ [cid] } }

def redact (t : Triage) (cid : Nat) : Triage :=
  { t with
    result :=
      { t.result with
        redact_candidate_ids := t.result.redact_candidate_ids ++ [cid] } }

def promote (t : Triage) (cid : Nat) (key : String × String) : Triage :=
  { t with
    result :=
      { t.result with
        promote_candidate_ids := t.result.promote_candidate_ids ++ [cid] }
    seen := t.seen ++ [key] }

def defer (t : Triage) (cid : Nat) : Triage :=
  { t with deferredBudget := t.deferredBudget ++ [cid] }

def judged (t : Triage) (cid : Nat) (verdict : Verdict) : Triage :=
  { t with
    result :=
      { t.result with
        judge_verdicts := t.result.judge_verdicts ++ [(cid, verdict)] }
    modelCalls := if verdict.cached then t.modelCalls else t.modelCalls + 1 }

end Triage

def provenanceText (text : Option String) : Option String :=
  (text.map PyText.strip).filter (· ≠ "")

def durabilityBlocker (host : Host) (row : Candidate) : Option String :=
  host.non_durable_promotion_blocker row.content
    (host.lower (PyText.strip
      ((orElseText (some row.category) none).getD "general")))
    (provenanceText row.derived_from.source)
    (provenanceText row.derived_from.origin)

/-- The branch for a candidate in review that the judge answered. -/
def judgeRow (config : PassConfig) (verdict : Verdict)
    (key : String × String) (t : Triage) (cid : Nat) : Triage :=
  match verdict.decision with
  | JudgeDecision.accept =>
      if config.judge_mode = JudgeMode.enforce then t.promote cid key
      else t.review cid
  | JudgeDecision.reject => t.reject cid
  | JudgeDecision.redact => t.redact cid
  | JudgeDecision.inconclusive => t.review cid

/-- The body of the loop over the candidates. -/
def triageRow (host : Host) (config : PassConfig)
    (judge : Candidate -> Verdict) (s : Store) (t : Triage)
    (row : Candidate) : Triage :=
  let cid := row.candidate_id
  let hash := host.content_hash row.content
  if (host.normalize row.content).toList.length < minContentLen then
    t.review cid
  else if t.seen.contains (row.owner, hash) ||
      hasActiveLearningHash host hash row.owner s then
    t.dedup cid
  else if row.flagged host then
    t.review cid
  else if !examinablePrivacy.contains (row.privacy host) then
    t.review cid
  else if !(host.qualityBlockers row.content).isEmpty then
    t.review cid
  else if (durabilityBlocker host row).isSome then
    t.reject cid
  else if safePrivacy.contains (row.privacy host) then
    t.promote cid (row.owner, hash)
  else if config.judge_mode = JudgeMode.off then
    t.review cid
  else if !isJudgeEligible host (some (row.privacy host))
      row.requested_privacy then
    t.review cid
  else if config.max_model_calls ≤ t.modelCalls then
    t.defer cid
  else
    judgeRow config (judge row) (row.owner, hash) (t.judged cid (judge row))
      cid

def triage (host : Host) (config : PassConfig) (judge : Candidate -> Verdict)
    (s : Store) (rows : List Candidate) : Triage :=
  rows.foldl (triageRow host config judge s) Triage.empty

/-- What the surroundings of one batch are. -/
structure BatchEnv where
  now : Nat
  /-- The surroundings of the pass itself. -/
  pass : Env
  /-- The surroundings of the write on each candidate. -/
  write : Nat -> Env
  judge : Candidate -> Verdict
  /-- The failure status of the draft writer, where it has one. -/
  draftFailure : Option String

structure PassResult where
  total : Nat
  candidates : List Candidate
  triage : Triage
deriving DecidableEq

/-- `run` of the pass, not as a rehearsal. -/
def runPass (host : Host) (config : PassConfig) (env : BatchEnv) :
    Governance PassResult := do
  ensureDedupIndex host env.pass
  Db.transaction nestedBegin (Db.execute (expireAndCompact env.now))
  let total ← Db.cursor (Db.select totalProposed)
  let candidates ← Db.cursor (Db.select (proposedCandidates config.max_per_run))
  let triaged ← Db.cursor (Db.select fun s =>
    triage host config env.judge s candidates)
  pure { total := total, candidates := candidates, triage := triaged }

/-!
## Batches
-/

structure BatchReport where
  failure : Option String
  decided : ConsolidationResult
  examined : Nat
  deferred : Nat
  deferredBudget : Nat
deriving DecidableEq

def PassResult.report (result : PassResult) (failure : Option String) :
    BatchReport where
  failure := failure
  decided := result.triage.result
  examined := result.candidates.length
  deferred := result.total - result.candidates.length
  deferredBudget := result.triage.deferredBudget.length

/-- The batch applies a result that promotes, deduplicates or reviews; one
that only rejects or redacts is not applied. -/
def ConsolidationResult.applies (result : ConsolidationResult) : Bool :=
  !result.promote_candidate_ids.isEmpty ||
    !result.dedup_candidate_ids.isEmpty ||
    !result.review_candidate_ids.isEmpty

/-- A draft is written for each candidate that goes to review. -/
def draftFailure (env : BatchEnv) (result : ConsolidationResult) :
    Option String :=
  if result.review_candidate_ids.isEmpty then none else env.draftFailure

def compileBatch (host : Host) (config : PassConfig) (env : BatchEnv) :
    Governance BatchReport := do
  let result ← runPass host config env
  let decided := result.triage.result
  match draftFailure env decided with
  | some failure => pure (result.report (some failure))
  | none =>
      if decided.applies then do
        let _ ← applyConsolidationResult host env.write env.now decided
        pure (result.report none)
      else pure (result.report none)

/-- A batch on the committed store. -/
def batch (host : Host) (config : PassConfig) (env : BatchEnv) (s : Store) :
    Except DbError BatchReport × Store :=
  let outcome := compileBatch host config env (Connection.idle s)
  (outcome.1, outcome.2.committed)

/-- The loop stops at a failure, unless the batch recovered an earlier one and
examined candidates; and after a batch that resolved nothing, that examined all
there was, or that ran out of model calls. -/
def BatchReport.stops (report : BatchReport) : Bool :=
  match report.failure with
  | some status => !(status = "lifecycle_recovered" && report.examined ≠ 0)
  | none =>
      report.examined - report.deferredBudget = 0 ||
        (report.deferred = 0 && report.deferredBudget = 0) ||
        0 < report.deferredBudget

structure Drain where
  store : Store
  batches : Nat
  /-- The loop ended by itself, not at its limit. -/
  stopped : Bool
  last : Option BatchReport

/-- `drain_consolidation` with a limit on its batches; the `k`-th batch has its
own surroundings. -/
def drainConsolidation (host : Host) (config : PassConfig)
    (env : Nat -> BatchEnv) : Nat -> Nat -> Store -> Drain
  | 0, k, s => { store := s, batches := k, stopped := false, last := none }
  | limit + 1, k, s =>
      match batch host config (env k) s with
      | (Except.error _, s') =>
          { store := s', batches := k + 1, stopped := true, last := none }
      | (Except.ok report, s') =>
          if report.stops then
            { store := s', batches := k + 1, stopped := true
              last := some report }
          else drainConsolidation host config env limit (k + 1) s'

end Daemon
end Minni
