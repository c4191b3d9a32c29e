import Minni.Daemon.Promotion

/-!
# The statements of the handlers

Every program of the governance handlers performs statements of four kinds.
What holds of a learning that a kind of call inserts is decided by the gates of
that call; the relation is taken over any property that the gates establish.
-/

namespace Minni
namespace Daemon

open Foundation
open Foundation.Db

/-- An update that leaves a learning the row it is, and does not bring it
back. -/
structure KeepsRow (f : Learning -> Learning) : Prop where
  learning_id : forall row, (f row).learning_id = row.learning_id
  agent_id : forall row, (f row).agent_id = row.agent_id
  content : forall row, (f row).content = row.content
  writer : forall row, (f row).writer = row.writer
  active : forall row, (f row).isActive = true -> row.isActive = true

inductive Statement (admits : Learning -> Prop) : Store -> Store -> Prop where
  | insertLearning (s : Store) (row : Nat -> Learning)
      (key : (row s.nextLearning).learning_id = s.nextLearning)
      (admitted : admits (row s.nextLearning)) :
      Statement admits s (s.insertLearning row).2
  | updateLearning (s : Store) (lid : Nat) (f : Learning -> Learning)
      (keeps : KeepsRow f) :
      Statement admits s (s.updateLearning lid f)
  | evict (s : Store) (lid : Nat) : Statement admits s (s.evict lid)
  /-- A write to the candidates or to the actions. -/
  | bookkeeping (s s' : Store)
      (learnings : s'.learnings = s.learnings)
      (nextLearning : s'.nextLearning = s.nextLearning)
      (evictions : s'.evictions = s.evictions) :
      Statement admits s s'

/-- The fields of a candidate that a promotion compares, and its evidence. -/
def SnapshotEq (read committed : Candidate) : Prop :=
  committed.status = CandidateStatus.proposed ∧
    committed.content = read.content ∧
    committed.principal = read.principal ∧
    committed.privacy_level = read.privacy_level ∧
    committed.instruction_like = read.instruction_like ∧
    committed.evidence_refs = read.evidence_refs

/-- What the gates of the calls know of the learnings they insert. -/
structure CallGate (host : Host) (admits : Learning -> Prop) : Prop where
  learn : forall row p, row.writer = Writer.learn p ->
    isOperatorPrincipal p = true -> admits row
  stage : forall row p, row.writer = Writer.stage p ->
    host.is_instruction_like row.content = false -> admits row
  resolve : forall row p, row.writer = Writer.resolve p ->
    (host.is_instruction_like row.content = true ->
      explicitlyAllowedAcceptFlagged p = true) -> admits row
  contradiction : forall row p, row.writer = Writer.contradiction p ->
    (host.is_instruction_like row.content = true ->
      explicitlyAllowedAcceptFlagged p = true) -> admits row

/-- With those of a promotion. -/
structure Gate (host : Host) (admits : Learning -> Prop) : Prop
    extends CallGate host admits where
  promote : forall row read committed verdict,
    row.writer = Writer.promote read committed verdict ->
    row.content = read.content -> read.flagged host = false ->
    privacyAdmits host read verdict = true ->
    SnapshotEq read committed -> admits row

/-!
## Updates of rows
-/

theorem keepsRow_supersededBy (lid : Nat) :
    KeepsRow (Learning.supersededBy lid) where
  learning_id := fun _ => rfl
  agent_id := fun _ => rfl
  content := fun _ => rfl
  writer := fun _ => rfl
  active := by
    intro row h
    simp [Learning.supersededBy, Learning.isActive] at h

theorem keepsRow_retiredBy (lid : Nat) : KeepsRow (Learning.retiredBy lid) where
  learning_id := fun _ => rfl
  agent_id := fun _ => rfl
  content := fun _ => rfl
  writer := fun _ => rfl
  active := by
    intro row h
    simp [Learning.retiredBy, Learning.isActive] at h

theorem keepsRow_markSuperseded : KeepsRow Learning.markSuperseded where
  learning_id := fun _ => rfl
  agent_id := fun _ => rfl
  content := fun _ => rfl
  writer := fun _ => rfl
  active := by
    intro row h
    simp [Learning.markSuperseded, Learning.isActive, Learning.openStatus] at h

theorem keepsRow_markRejected : KeepsRow Learning.markRejected where
  learning_id := fun _ => rfl
  agent_id := fun _ => rfl
  content := fun _ => rfl
  writer := fun _ => rfl
  active := by
    intro row h
    simp [Learning.markRejected, Learning.isActive, Learning.openStatus] at h

theorem keepsRow_hash (hash : Option String) :
    KeepsRow fun row => { row with content_hash := hash } where
  learning_id := fun _ => rfl
  agent_id := fun _ => rfl
  content := fun _ => rfl
  writer := fun _ => rfl
  active := fun _ h => h

theorem keepsRow_fillHash (hash : String) :
    KeepsRow (Learning.fillHash hash) where
  learning_id := by
    intro row
    unfold Learning.fillHash
    split <;> rfl
  agent_id := by
    intro row
    unfold Learning.fillHash
    split <;> rfl
  content := by
    intro row
    unfold Learning.fillHash
    split <;> rfl
  writer := by
    intro row
    unfold Learning.fillHash
    split <;> rfl
  active := by
    intro row h
    unfold Learning.fillHash at h
    split at h
    · exact h
    · exact h

theorem keepsRow_unlessSuperseded
    {f : Learning -> Learning} (h : KeepsRow f) :
    KeepsRow (unlessSuperseded f) where
  learning_id := by
    intro row
    unfold unlessSuperseded
    split
    · exact h.learning_id row
    · rfl
  agent_id := by
    intro row
    unfold unlessSuperseded
    split
    · exact h.agent_id row
    · rfl
  content := by
    intro row
    unfold unlessSuperseded
    split
    · exact h.content row
    · rfl
  writer := by
    intro row
    unfold unlessSuperseded
    split
    · exact h.writer row
    · rfl
  active := by
    intro row hactive
    unfold unlessSuperseded at hactive
    split at hactive
    · exact h.active row hactive
    · exact hactive

section Programs

variable {host : Host} {admits : Learning -> Prop}

/-!
## Statements on the other tables
-/

theorem statement_insertCandidate (row : Nat -> Candidate) (s : Store) :
    Statement admits s (s.insertCandidate row).2 :=
  Statement.bookkeeping _ _ rfl rfl rfl

theorem statement_updateCandidate
    (cid : Nat) (f : Candidate -> Candidate) (s : Store) :
    Statement admits s (s.updateCandidate cid f) :=
  Statement.bookkeeping _ _ rfl rfl rfl

theorem statement_insertAction (action : ConsolidationAction) (s : Store) :
    Statement admits s (s.insertAction action) :=
  Statement.bookkeeping _ _ rfl rfl rfl

theorem statement_supersedeAfmReview (cid : Nat) (s : Store) :
    Statement admits s (supersedeAfmReview cid s) :=
  Statement.bookkeeping _ _ rfl rfl rfl

theorem supersedeAfmReview_foldl
    (cids : List Nat) (s : Store) :
    (cids.foldl (fun s cid => supersedeAfmReview cid s) s).learnings =
        s.learnings ∧
      (cids.foldl (fun s cid => supersedeAfmReview cid s) s).nextLearning =
        s.nextLearning ∧
      (cids.foldl (fun s cid => supersedeAfmReview cid s) s).evictions =
        s.evictions := by
  induction cids generalizing s with
  | nil => exact ⟨rfl, rfl, rfl⟩
  | cons cid rest ih => exact ih (supersedeAfmReview cid s)

theorem statement_expireAndCompact (now : Nat) (s : Store) :
    Statement admits s (expireAndCompact now s) := by
  have hfold := supersedeAfmReview_foldl ((s.candidates.filter fun row =>
    row.status = CandidateStatus.expired).map (·.candidate_id)) s
  exact Statement.bookkeeping _ _ hfold.left hfold.right.left
    hfold.right.right

theorem performs_updateLearning
    (lid : Nat) {f : Learning -> Learning} (h : KeepsRow f) :
    Performs (Statement admits) (execute (Store.updateLearning lid f) :
      Governance Unit) :=
  performs_execute fun s => Statement.updateLearning s lid f h

theorem performs_insertLearning
    {row : Nat -> Learning} (hkey : forall lid, (row lid).learning_id = lid)
    (h : forall lid, admits (row lid)) :
    Performs (Statement admits) (insert (Store.insertLearning row) :
      Governance Nat) :=
  performs_insert fun s =>
    Statement.insertLearning s row (hkey s.nextLearning) (h s.nextLearning)

theorem performs_stepFails (failure : Option String) :
    Performs (Statement admits) (stepFails failure) :=
  performs_mayRaise _

theorem performs_accepted (cid : Nat) :
    Performs (Statement admits) (applyAcceptedCandidateEffects cid) :=
  performs_execute (statement_supersedeAfmReview cid)

/-!
## Duplicates, evictions and purges
-/

theorem performs_scan
    (env : Env) (agent_id category content : String) (lid : Nat)
    (embedding : Option Embedding) :
    Performs (Statement admits)
      (scanNearDuplicates host env agent_id category content lid
        embedding) := by
  apply performs_bind (performs_stepFails _)
  intro _
  exact performs_select _

theorem performs_evict (env : Env) (lid : Nat) :
    Performs (Statement admits) (evictLearningToColdArchive env lid) := by
  apply performs_bind (performs_select _)
  intro row
  split
  · exact performs_pure _
  · apply performs_bind (performs_stepFails _)
    intro _
    exact performs_execute fun s => Statement.evict s lid

theorem performs_purgeDurableDocument :
    Performs (Statement admits) purgeDurableDocument :=
  performs_tryExcept (performs_transaction _ (performs_pure _))
    (fun _ => performs_pure _)

theorem performs_purge (env : Env) (lid : Nat) (content : String) :
    Performs (Statement admits) (purgeDurableLearning env lid content) := by
  unfold purgeDurableLearning
  split
  · apply performs_bind performs_purgeDurableDocument
    intro _
    split
    · exact performs_pure _
    · apply performs_bind (performs_cursor (performs_select _))
      intro row
      split
      · exact performs_purgeDurableDocument
      · exact performs_pure _
  · exact performs_pure _

theorem performs_evictNearDuplicate (env : Env) (lid : Nat) :
    Performs (Statement admits) (evictNearDuplicate env lid) := by
  apply performs_bind (performs_select _)
  intro row
  apply performs_bind (performs_evict env lid)
  intro _
  exact performs_purge env lid _

theorem performs_purgeAll (env : Env) (contents : List (Nat × String)) :
    Performs (Statement admits) (purgeAll env contents) := by
  apply performs_forEach
  intro entry _
  split
  · exact performs_pure _
  · exact performs_purge env entry.1 entry.2

theorem performs_withFailures
    {label : String} {p : Governance Response}
    (h : Performs (Statement admits) p) :
    Performs (Statement admits) (withFailures label p) :=
  performs_tryExcept h (fun _ => performs_pure _)

/-!
## Staging and learning
-/

theorem performs_autoAccept
    {env : Env} {p : EffectivePrincipal} {params : LearnParams} {cid : Nat}
    {chash : String} {blob : Embedding}
    (h : forall lid, admits (autoAcceptedRow host env p params chash blob lid)) :
    Performs (Statement admits)
      (autoAcceptWrites host env p params cid chash blob) := by
  apply performs_bind (performs_stepFails _)
  intro _
  apply performs_bind (performs_insertLearning (fun _ => rfl) h)
  intro lid
  apply performs_bind
  · exact performs_tryExcept (performs_stepFails _) (fun _ => performs_raise _)
  intro _
  apply performs_bind (performs_scan env _ _ _ lid _)
  intro near
  apply performs_bind
  · exact performs_forEach (fun dup _ => performs_evictNearDuplicate env dup)
  intro _
  apply performs_bind (performs_execute (statement_updateCandidate cid _))
  intro _
  apply performs_bind (performs_accepted cid)
  intro _
  exact performs_pure _

theorem performs_stageBlock
    {env : Env} {p : EffectivePrincipal} {params : LearnParams}
    {prepared : Option (String × Embedding)} {withheld : List String}
    (h : prepared.isSome = true -> forall chash blob lid,
      admits (autoAcceptedRow host env p params chash blob lid)) :
    Performs (Statement admits)
      (stageBlock host env p params prepared withheld) := by
  apply performs_bind (performs_insert (statement_insertCandidate _))
  intro cid
  cases prepared with
  | none => exact performs_pure _
  | some pair =>
      rcases pair with ⟨chash, blob⟩
      apply performs_bind (performs_select _)
      intro duplicate
      split
      · exact performs_pure _
      · apply performs_bind (performs_autoAccept (h rfl chash blob))
        intro lid
        exact performs_pure _

theorem performs_stageProposal
    (env : Env) (p : EffectivePrincipal) (params : LearnParams)
    (withheld : List String) :
    Performs (Statement admits)
      (stageProposal host env p params withheld) := by
  apply performs_bind
  · exact performs_transaction _
      (performs_insert (statement_insertCandidate _))
  intro cid
  exact performs_pure _

/-- Nothing is prepared for a text that reads like an instruction. -/
theorem withheld_instructionLike
    {params : LearnParams} (h : (params.withheld host).isEmpty = true) :
    params.instructionLike host = false := by
  cases hlike : params.instructionLike host with
  | false => rfl
  | true =>
      simp [LearnParams.withheld, autoAcceptBlockers, hlike] at h

theorem performs_stageWrites
    {env : Env} {p : EffectivePrincipal} {params : LearnParams}
    (gate : CallGate host admits) :
    Performs (Statement admits) (stageWrites host env p params) := by
  unfold stageWrites
  dsimp only
  apply performs_bind
  · apply performs_tryExcept
    · apply performs_transaction
      apply performs_stageBlock
      intro hprepared chash blob lid
      cases hauto : p.auto_accept_own && (params.withheld host).isEmpty with
      | false =>
          rw [hauto] at hprepared
          simp at hprepared
      | true =>
          have hempty : (params.withheld host).isEmpty = true := by
            simp only [Bool.and_eq_true] at hauto
            exact hauto.right
          have hlike := withheld_instructionLike hempty
          apply gate.stage _ p rfl
          simp only [LearnParams.instructionLike, Bool.or_eq_false_iff] at hlike
          exact hlike.right
    · intro e
      cases e with
      | failed text => exact performs_raise _
      | resolveRejected refusal => exact performs_raise _
      | canonicalCommitFailed cause => exact performs_stageProposal env p _ _
  intro staged
  exact performs_pure _

theorem performs_stageCandidate
    (gate : CallGate host admits) (env : Env) (caller : Caller)
    (params : LearnParams) :
    Performs (Statement admits) (stageCandidate host env caller params) := by
  unfold stageCandidate
  split
  · exact performs_pure _
  · split
    · exact performs_pure _
    · apply performs_bind (performs_cursor (performs_select _))
      intro pending
      split
      · exact performs_pure _
      · split
        · exact performs_pure _
        · exact performs_withFailures (performs_stageWrites gate)

theorem performs_supersedePredecessor (supersedes : Option Nat) (lid : Nat) :
    Performs (Statement admits) (supersedePredecessor supersedes lid) := by
  unfold supersedePredecessor
  split
  · exact performs_updateLearning _ (keepsRow_supersededBy lid)
  · exact performs_pure _

theorem performs_forcedWrites
    {env : Env} {p : EffectivePrincipal} {params : LearnParams}
    (h : forall lid, admits (forcedRow host env p params lid)) :
    Performs (Statement admits) (forcedWrites host env p params) := by
  apply performs_bind (performs_stepFails _)
  intro _
  apply performs_bind (performs_insertLearning (fun _ => rfl) h)
  intro lid
  apply performs_bind (performs_supersedePredecessor _ lid)
  intro _
  apply performs_bind (performs_stepFails _)
  intro _
  apply performs_bind (performs_stepFails _)
  intro _
  apply performs_bind (performs_scan env _ _ _ lid _)
  intro near
  apply performs_bind
  · apply performs_forEach
    intro dup _
    split
    · exact performs_pure _
    · exact performs_evictNearDuplicate env dup
  intro _
  exact performs_pure _

theorem performs_forceLearn
    {env : Env} {p : EffectivePrincipal} {params : LearnParams}
    (h : forall lid, admits (forcedRow host env p params lid)) :
    Performs (Statement admits) (forceLearn host env p params) := by
  apply performs_bind
  · apply performs_cursor
    apply performs_bind (performs_select _)
    intro existing
    split
    · apply performs_bind
      · apply performs_whenever
        intro _
        exact performs_updateLearning _ (keepsRow_fillHash _)
      intro _
      exact performs_pure _
    · apply performs_bind (performs_forcedWrites h)
      intro lid
      exact performs_pure _
  intro outcome
  cases outcome with
  | inl response => exact performs_pure _
  | inr lid => exact performs_pure _

theorem performs_handleLearn
    (gate : CallGate host admits) (env : Env) (caller : Caller)
    (params : LearnParams) :
    Performs (Statement admits) (handleLearn host env caller params) := by
  unfold handleLearn
  split
  · exact performs_pure _
  · cases caller with
    | error refusal => exact performs_pure _
    | ok p =>
        dsimp only
        split
        · exact performs_pure _
        · split
          · exact performs_pure _
          · split
            · exact performs_stageCandidate gate env _ params
            · split
              · exact performs_pure _
              · rename_i hoperator
                apply performs_withFailures
                apply performs_forceLearn
                intro lid
                exact gate.learn _ p rfl (by simpa using hoperator)

theorem performs_storeLearning
    {env : Env} {params : StoreLearningParams}
    (h : forall lid, admits (storedRow host env params lid)) :
    Performs (Statement admits) (storeLearning host env params) := by
  apply performs_cursor
  apply performs_bind (performs_stepFails _)
  intro _
  apply performs_bind (performs_insertLearning (fun _ => rfl) h)
  intro lid
  apply performs_bind (performs_supersedePredecessor _ lid)
  intro _
  apply performs_bind (performs_stepFails _)
  intro _
  apply performs_bind (performs_stepFails _)
  intro _
  exact performs_pure _

/-!
## Resolving
-/

theorem performs_superseding
    (p : EffectivePrincipal) (ids : List Nat) :
    Performs (Statement admits) (superseding host p ids) := by
  induction ids with
  | nil => exact performs_pure _
  | cons lid rest ih =>
      apply performs_bind (performs_select _)
      intro found
      cases found with
      | none => exact performs_raise _
      | some row =>
          dsimp only
          split
          · exact performs_raise _
          · apply performs_bind ih
            intro rows
            exact performs_pure _

theorem performs_handleResolveContradiction
    (gate : CallGate host admits) (env : Env) (caller : Caller)
    (params : ContradictionParams) :
    Performs (Statement admits)
      (handleResolveContradiction host env caller params) := by
  unfold handleResolveContradiction
  split
  · exact performs_pure _
  · split
    · exact performs_pure _
    · split
      · exact performs_pure _
      · rename_i ids _ _ p _ hgate
        apply performs_tryExcept
        · apply performs_bind
          · apply performs_transaction
            apply performs_bind (performs_superseding p ids)
            intro rows
            apply performs_bind (performs_stepFails _)
            intro _
            apply performs_bind
            · apply performs_insertLearning (fun _ => rfl)
              intro lid
              apply gate.contradiction _ p rfl
              intro hlike
              have hcontent : host.is_instruction_like params.new_content =
                  true := hlike
              cases hflag : explicitlyAllowedAcceptFlagged p with
              | true => rfl
              | false =>
                  simp only [contradictionGate, hcontent, hflag] at hgate
                  split at hgate
                  · cases hgate
                  · split at hgate
                    · cases hgate
                    · simp at hgate
            intro lid
            apply performs_bind
            · apply performs_forEach
              intro sid _
              exact performs_updateLearning sid (keepsRow_retiredBy lid)
            intro _
            exact performs_pure _
          intro written
          apply performs_bind (performs_purgeAll env _)
          intro _
          exact performs_pure _
        · intro e
          cases e with
          | failed text => exact performs_pure _
          | resolveRejected refusal => exact performs_pure _
          | canonicalCommitFailed cause => exact performs_pure _

theorem performs_checkSuperseded
    (p : EffectivePrincipal) (author : String) (ids : List (Option Nat))
    (collected : List Nat) :
    Performs (Statement admits)
      (checkSuperseded host p author ids collected) := by
  induction ids generalizing collected with
  | nil => exact performs_pure _
  | cons id rest ih =>
      cases id with
      | none => exact performs_raise _
      | some sid =>
          apply performs_bind (performs_select _)
          intro found
          cases found with
          | none => exact performs_raise _
          | some row =>
              dsimp only
              split
              · exact performs_raise _
              · exact ih _

theorem performs_supersedeSameHash
    (h author : String) (rounds : Nat) (collected : List Nat) :
    Performs (Statement admits)
      (supersedeSameHash host h author rounds collected) := by
  induction rounds generalizing collected with
  | zero => exact performs_pure _
  | succ rounds ih =>
      apply performs_bind (performs_select _)
      intro existing
      cases existing with
      | none => exact performs_pure _
      | some row =>
          dsimp only
          split
          · exact performs_pure _
          · apply performs_bind
            · exact performs_updateLearning _ keepsRow_markSuperseded
            intro _
            exact ih _

theorem performs_retirePredecessor (env : Env) (lid predecessor : Nat) :
    Performs (Statement admits) (retirePredecessor env lid predecessor) := by
  apply performs_bind (performs_select _)
  intro row
  apply performs_bind
  · unfold retireRow
    split
    · exact performs_evict env predecessor
    · exact performs_updateLearning predecessor (keepsRow_retiredBy lid)
  intro _
  exact performs_pure _

theorem performs_retirePredecessors
    (env : Env) (lid : Nat) (predecessors : List Nat) :
    Performs (Statement admits)
      (retirePredecessors env lid predecessors) := by
  induction predecessors with
  | nil => exact performs_pure _
  | cons predecessor rest ih =>
      unfold retirePredecessors
      split
      · exact ih
      · apply performs_bind (performs_retirePredecessor env lid predecessor)
        intro content
        apply performs_bind ih
        intro contents
        exact performs_pure _

theorem performs_acceptWrites
    {env : Env} {p : EffectivePrincipal} {params : ResolveParams}
    {author : String} {row : Candidate}
    (h : forall lid, admits (acceptedRow host env p author
      (acceptedCategory host params row) row.content lid)) :
    Performs (Statement admits)
      (acceptWrites host env p params author row) := by
  unfold acceptWrites
  split
  · exact performs_raise _
  · apply performs_bind (performs_checkSuperseded p author _ _)
    intro requested
    apply performs_bind (performs_select _)
    intro rounds
    apply performs_bind (performs_supersedeSameHash _ author rounds requested)
    intro predecessors
    apply performs_bind (performs_stepFails _)
    intro _
    apply performs_bind (performs_insertLearning (fun _ => rfl) h)
    intro lid
    apply performs_bind (performs_stepFails _)
    intro _
    apply performs_bind (performs_scan env _ _ _ lid _)
    intro near
    apply performs_bind (performs_retirePredecessors env lid _)
    intro contents
    exact performs_pure _

theorem performs_resolvableCandidate (p : EffectivePrincipal) (cid : Nat) :
    Performs (Statement admits) (resolvableCandidate host p cid) := by
  apply performs_bind (performs_select _)
  intro found
  cases found with
  | none => exact performs_raise _
  | some row =>
      dsimp only
      split
      · exact performs_raise _
      · split
        · exact performs_raise _
        · exact performs_pure _

theorem performs_acceptIfAsked
    {env : Env} {p : EffectivePrincipal} {params : ResolveParams}
    {status : CandidateStatus} {row : Candidate} (gate : CallGate host admits)
    (h : status = CandidateStatus.accepted ->
      host.is_instruction_like row.content = true ->
      explicitlyAllowedAcceptFlagged p = true) :
    Performs (Statement admits)
      (acceptIfAsked host env p params status row) := by
  unfold acceptIfAsked
  split
  · rename_i haccepted
    apply performs_bind
    · apply performs_acceptWrites
      intro lid
      exact gate.resolve _ p rfl (h haccepted)
    intro accepted
    exact performs_pure _
  · exact performs_pure _

theorem performs_resolveBlock
    (gate : CallGate host admits) (env : Env) (p : EffectivePrincipal)
    (params : ResolveParams) (cid : Nat) (status : CandidateStatus) :
    Performs (Statement admits)
      (resolveBlock host env p params cid status) := by
  apply performs_bind (performs_resolvableCandidate p cid)
  intro row
  apply performs_bind
  · apply performs_whenever
    intro _
    exact performs_execute (statement_updateCandidate cid _)
  intro _
  split
  · exact performs_pure _
  · rename_i hflagged
    apply performs_bind
    · apply performs_whenever
      intro _
      exact performs_raise _
    intro _
    apply performs_bind
    · apply performs_acceptIfAsked gate
      intro haccepted hlike
      cases hflag : explicitlyAllowedAcceptFlagged p with
      | true => rfl
      | false => simp [haccepted, hlike, hflag] at hflagged
    intro written
    apply performs_bind (performs_execute (statement_updateCandidate cid _))
    intro _
    apply performs_bind (performs_accepted cid)
    intro _
    exact performs_pure _

theorem performs_resolveCandidate
    (gate : CallGate host admits) (env : Env) (caller : Caller)
    (params : ResolveParams) :
    Performs (Statement admits) (resolveCandidate host env caller params) := by
  unfold resolveCandidate
  split
  · exact performs_pure _
  · split
    · exact performs_pure _
    · split
      · exact performs_pure _
      · apply performs_tryExcept
        · apply performs_bind
          · exact performs_transaction _ (performs_resolveBlock gate env _ _ _ _)
          intro outcome
          cases outcome with
          | inl refusal => exact performs_pure _
          | inr written =>
              apply performs_bind (performs_purgeAll env _)
              intro _
              exact performs_pure _
        · intro e
          cases e with
          | failed text => exact performs_pure _
          | resolveRejected refusal => exact performs_pure _
          | canonicalCommitFailed cause => exact performs_pure _

/-!
## Consolidation
-/

theorem performs_addReview (cid : Nat) (detail : String) :
    Performs (Statement admits) (addReview cid detail) := by
  apply performs_bind (performs_select _)
  intro fenced
  split
  · exact performs_pure _
  · apply performs_bind (performs_execute (statement_insertAction _))
    intro _
    exact performs_pure _

theorem performs_fenceFlagged (reason : String) (read : Candidate) :
    Performs (Statement admits) (fenceFlagged reason read) := by
  apply performs_transaction
  apply performs_bind (performs_select _)
  intro unchanged
  apply performs_whenever
  intro _
  apply performs_bind (performs_execute (statement_updateCandidate _ _))
  intro _
  apply performs_bind (performs_addReview _ _)
  intro _
  exact performs_pure _

theorem performs_fenceRefused (reason : String) (read : Candidate) :
    Performs (Statement admits) (fenceRefused host reason read) := by
  apply performs_transaction
  apply performs_bind (performs_select _)
  intro unchanged
  apply performs_whenever
  intro _
  apply performs_bind (performs_addReview _ _)
  intro _
  exact performs_pure _

theorem performs_ensureDedupIndex (env : Env) :
    Performs (Statement admits) (ensureDedupIndex host env) := by
  apply performs_bind (performs_stepFails _)
  intro _
  apply performs_bind (performs_cursor (performs_select _))
  intro hashless
  split
  · exact performs_pure _
  · apply performs_transaction
    apply performs_forEach
    intro row _
    exact performs_updateLearning _ (keepsRow_hash _)

theorem rowMatchesSnapshot_eq
    {read : Candidate} {s : Store} (h : rowMatchesSnapshot read s = true) :
    exists row, s.findCandidate read.candidate_id = some row ∧
      SnapshotEq read row := by
  unfold rowMatchesSnapshot at h
  cases hfound : s.findCandidate read.candidate_id with
  | none => simp [hfound] at h
  | some row =>
      simp only [hfound, Bool.and_eq_true, decide_eq_true_eq] at h
      rcases h with ⟨⟨⟨⟨⟨hstatus, hcontent⟩, hprincipal⟩, hprivacy⟩, hflag⟩,
        hevidence⟩
      exact ⟨row, rfl, hstatus, hcontent, hprincipal, hprivacy, hflag,
        hevidence⟩

/-- The row that is inserted carries the row that the snapshot was compared
with. -/
theorem performs_promoteBlock
    {env : Env} {reason : String} {verdict : Option Verdict}
    {read : Candidate} (gate : Gate host admits)
    (hflagged : read.flagged host = false)
    (hprivacy : privacyAdmits host read verdict = true) :
    Performs (Statement admits)
      (promoteBlock host env reason verdict read) := by
  intro P hP
  apply keeps_select_bind
  intro c hc
  cases hunchanged : rowMatchesSnapshot read c.working with
  | false => exact hc
  | true =>
      rcases rowMatchesSnapshot_eq hunchanged with ⟨row, hfound, hsnapshot⟩
      apply meets_bind (P := fun r c' => c' = c ∧
        forall committed, r = Except.ok committed -> committed = row)
      · apply meets_select
        constructor
        · rfl
        · intro committed hcommitted
          cases hcommitted
          rw [hfound]
          rfl
      · intro committed c' hc'
        rcases hc' with ⟨hsame, hrow⟩
        rw [hsame]
        refine keeps_bind (performs_stepFails _ P hP) (fun _ => ?_) c hc
        refine keeps_bind (performs_insertLearning (fun _ => rfl) ?_ P hP)
          (fun lid => ?_)
        · intro lid
          apply gate.promote _ read committed verdict rfl rfl hflagged hprivacy
          rw [hrow committed rfl]
          exact hsnapshot
        refine keeps_bind (performs_stepFails _ P hP) (fun _ => ?_)
        refine keeps_bind
          (performs_execute (statement_updateCandidate _ _) P hP) (fun _ => ?_)
        refine keeps_bind
          (performs_execute (statement_supersedeAfmReview _) P hP) (fun _ => ?_)
        refine keeps_bind
          (performs_execute (statement_insertAction _) P hP) (fun _ => ?_)
        exact keeps_pure _
      · intro e c' hc'
        rw [hc'.left]
        exact hc

theorem mem_of_findCandidate
    {s : Store} {cid : Nat} {row : Candidate}
    (h : s.findCandidate cid = some row) :
    row ∈ s.candidates ∧ row.candidate_id = cid := by
  have hid := List.find?_some h
  exact ⟨List.mem_of_find?_eq_some h, by simpa using hid⟩

theorem preparePromotion_row
    {verdict : Option Verdict} {found : Option Candidate}
    {read : Candidate}
    (h : preparePromotion host verdict found = Preparation.flagged read ∨
      preparePromotion host verdict found = Preparation.refused read ∨
      preparePromotion host verdict found = Preparation.ready read) :
    found = some read ∧ read.status = CandidateStatus.proposed := by
  cases found with
  | none =>
      rcases h with h | h | h
      · cases h
      · cases h
      · cases h
  | some row =>
      unfold preparePromotion at h
      grind

theorem preparePromotion_ready
    {verdict : Option Verdict} {found : Option Candidate} {read : Candidate}
    (h : preparePromotion host verdict found = Preparation.ready read) :
    found = some read ∧ read.status = CandidateStatus.proposed ∧
      read.flagged host = false ∧ privacyAdmits host read verdict = true ∧
      agentIdError host read.owner = none := by
  cases found with
  | none => cases h
  | some row =>
      dsimp only [preparePromotion] at h
      split at h
      · cases h
      · rename_i hstatus
        split at h
        · cases h
        · rename_i hflagged
          split at h
          · cases h
          · rename_i hprivacy
            split at h
            · cases h
            · rename_i hagent
              cases h
              refine ⟨rfl, ?_, ?_, ?_, ?_⟩
              · simpa using hstatus
              · simpa using hflagged
              · simpa using hprivacy
              · simpa using hagent

theorem performs_writePromotion
    {env : Env} {reason : String} {verdict : Option Verdict}
    {preparation : Preparation} (gate : Gate host admits)
    (h : forall read, preparation = Preparation.ready read ->
      read.flagged host = false ∧ privacyAdmits host read verdict = true) :
    Performs (Statement admits)
      (writePromotion host env reason verdict preparation) := by
  cases preparation with
  | nothing => exact performs_pure _
  | invalidAgent => exact performs_pure _
  | flagged read =>
      apply performs_bind (performs_fenceFlagged reason read)
      intro _
      exact performs_pure _
  | refused read =>
      apply performs_bind (performs_fenceRefused reason read)
      intro _
      exact performs_pure _
  | ready read =>
      rcases h read rfl with ⟨hflagged, hprivacy⟩
      apply performs_bind (performs_ensureDedupIndex env)
      intro _
      apply performs_tryExcept
      · apply performs_transaction
        exact performs_promoteBlock gate hflagged hprivacy
      · intro _
        exact performs_pure _

theorem performs_promote
    (gate : Gate host admits) (env : Env) (cid : Nat) (reason : String)
    (verdict : Option Verdict) :
    Performs (Statement admits)
      (promoteCandidateDurable host env cid reason verdict) := by
  apply performs_bind (performs_cursor (performs_select _))
  intro found
  apply performs_writePromotion gate
  intro read hready
  have hspec := preparePromotion_ready hready
  exact ⟨hspec.right.right.left, hspec.right.right.right.left⟩

theorem performs_evictAfterPromotion (env : Env) (lid : Nat) :
    Performs (Statement admits) (evictAfterPromotion host env lid) := by
  apply performs_tryExcept
  · apply performs_transaction
    apply performs_bind (performs_select _)
    intro found
    cases found with
    | none => exact performs_pure _
    | some row =>
        apply performs_bind (performs_scan env _ _ _ lid _)
        intro near
        exact performs_forEach (fun dup _ => performs_evict env dup)
  · intro _
    exact performs_pure _

theorem performs_closeCandidate
    (env : Env) (cid : Nat) (status : CandidateStatus)
    (resolved_by resolution_reason : String) (type : ActionType) :
    Performs (Statement admits)
      (closeCandidate env cid status resolved_by resolution_reason type) := by
  apply performs_bind (performs_execute (statement_updateCandidate cid _))
  intro _
  apply performs_bind (performs_execute (statement_supersedeAfmReview cid))
  intro _
  exact performs_execute (statement_insertAction _)

theorem performs_rejectDedup (env : Env) (cid : Nat) :
    Performs (Statement admits) (rejectCandidateDedup host env cid) := by
  apply performs_transaction
  apply performs_bind (performs_select _)
  intro found
  cases found with
  | none => exact performs_pure _
  | some row =>
      apply performs_bind (performs_select _)
      intro replaced
      split
      · apply performs_bind (performs_closeCandidate env cid _ _ _ _)
        intro _
        exact performs_pure _
      · exact performs_pure _

theorem performs_closeByJudge
    (env : Env) (status : CandidateStatus) (type : ActionType)
    (fallback : String) (cid : Nat) (verdict : Option Verdict) :
    Performs (Statement admits)
      (closeByJudge env status type fallback cid verdict) := by
  apply performs_transaction
  apply performs_bind (performs_select _)
  intro found
  cases found with
  | none => exact performs_pure _
  | some row =>
      apply performs_bind (performs_closeCandidate env cid _ _ _ _)
      intro _
      exact performs_pure _

theorem performs_markReview (cid : Nat) (reason : String) :
    Performs (Statement admits) (markCandidateReview host cid reason) := by
  apply performs_transaction
  apply performs_bind (performs_select _)
  intro found
  cases found with
  | none => exact performs_pure _
  | some row =>
      apply performs_bind
      · apply performs_whenever
        intro _
        exact performs_execute (statement_updateCandidate cid _)
      intro _
      exact performs_addReview cid _

theorem performs_applyEach
    {decide_ : Nat -> Governance Bool} {cids : List Nat}
    (h : forall cid, cid ∈ cids -> Performs (Statement admits) (decide_ cid)) :
    Performs (Statement admits) (applyEach decide_ cids) := by
  induction cids with
  | nil => exact performs_pure _
  | cons cid rest ih =>
      apply performs_bind
      · apply performs_tryExcept
        · apply performs_bind (h cid (List.mem_cons_self ..))
          intro landed
          exact performs_pure _
        · intro _
          exact performs_pure _
      intro landed
      apply performs_bind
      · apply ih
        intro other hother
        exact h other (List.mem_cons_of_mem _ hother)
      intro counts
      cases landed with
      | none => exact performs_pure _
      | some landed =>
          cases landed with
          | true => exact performs_pure _
          | false => exact performs_pure _

theorem performs_applyPromotion
    (gate : Gate host admits) (env : Nat -> Env) (result : ConsolidationResult)
    (cid : Nat) :
    Performs (Statement admits) (applyPromotion host env result cid) := by
  unfold applyPromotion
  dsimp only
  apply performs_bind (performs_promote gate (env cid) cid _ _)
  intro lid
  cases lid with
  | none => exact performs_pure _
  | some lid =>
      apply performs_bind (performs_evictAfterPromotion (env cid) lid)
      intro _
      exact performs_pure _

theorem performs_applyConsolidationResult
    (env : Nat -> Env) (now : Nat) (result : ConsolidationResult)
    (h : forall cid, cid ∈ result.promote_candidate_ids ->
      Performs (Statement admits) (applyPromotion host env result cid)) :
    Performs (Statement admits)
      (applyConsolidationResult host env now result) := by
  apply performs_bind
  · exact performs_applyEach h
  intro promoted
  apply performs_bind
  · exact performs_applyEach (fun cid _ => performs_rejectDedup (env cid) cid)
  intro deduped
  apply performs_bind
  · exact performs_applyEach
      (fun cid _ => performs_closeByJudge (env cid) _ _ _ cid _)
  intro rejected
  apply performs_bind
  · exact performs_applyEach
      (fun cid _ => performs_closeByJudge (env cid) _ _ _ cid _)
  intro redacted
  apply performs_bind
  · exact performs_applyEach (fun cid _ => performs_markReview cid _)
  intro reviewed
  apply performs_bind
  · apply performs_tryExcept
    · apply performs_transaction
      exact performs_execute (statement_expireAndCompact now)
    · intro _
      exact performs_pure _
  intro _
  apply performs_bind (performs_cursor (performs_select _))
  intro remaining
  exact performs_pure _

theorem performs_dedupActiveLearnings
    (env : Env) (agent_id : Option String) (evict_to_archive : Option Bool) :
    Performs (Statement admits)
      (dedupActiveLearnings host env agent_id evict_to_archive) := by
  apply performs_bind (performs_ensureDedupIndex env)
  intro _
  apply performs_bind (performs_cursor (performs_select _))
  intro rows
  dsimp only
  split
  · exact performs_pure _
  · apply performs_transaction
    unfold dedupBlock
    split
    · apply performs_bind
      · exact performs_forEach (fun dup _ => performs_evict env dup)
      intro _
      exact performs_forEach (fun lid _ => performs_evict env lid)
    · apply performs_bind
      · apply performs_forEach
        intro update _
        exact performs_updateLearning _
          (keepsRow_unlessSuperseded (keepsRow_retiredBy update.1))
      intro _
      apply performs_forEach
      intro lid _
      exact performs_updateLearning _
        (keepsRow_unlessSuperseded keepsRow_markRejected)

/-!
## What the calls leave open

Nothing: each block of a call ends before the call does.
-/

theorem closes_purgeDurableDocument : Closes purgeDurableDocument :=
  closes_tryExcept (closes_transaction _ _) (fun _ => closes_pure _)

theorem closes_purge (env : Env) (lid : Nat) (content : String) :
    Closes (purgeDurableLearning env lid content) := by
  unfold purgeDurableLearning
  split
  · apply closes_bind closes_purgeDurableDocument
    intro _
    split
    · exact closes_pure _
    · apply closes_bind (closes_cursor _)
      intro row
      split
      · exact closes_purgeDurableDocument
      · exact closes_pure _
  · exact closes_pure _

theorem closes_purgeAll (env : Env) (contents : List (Nat × String)) :
    Closes (purgeAll env contents) := by
  apply closes_forEach
  intro entry
  split
  · exact closes_pure _
  · exact closes_purge env entry.1 entry.2

theorem closes_stageCandidate (env : Env) (caller : Caller)
    (params : LearnParams) :
    Closes (stageCandidate host env caller params) := by
  unfold stageCandidate
  split
  · exact closes_pure _
  · split
    · exact closes_pure _
    · apply closes_bind (closes_cursor _)
      intro pending
      split
      · exact closes_pure _
      · split
        · exact closes_pure _
        · apply closes_tryExcept
          · apply closes_bind
            · apply closes_tryExcept (closes_transaction _ _)
              intro e
              cases e with
              | failed text => exact closes_raise _
              | resolveRejected refusal => exact closes_raise _
              | canonicalCommitFailed cause =>
                  apply closes_bind (closes_transaction _ _)
                  intro cid
                  exact closes_pure _
            · intro staged
              exact closes_pure _
          · intro e
            exact closes_pure _

theorem closes_handleLearn (env : Env) (caller : Caller)
    (params : LearnParams) :
    Closes (handleLearn host env caller params) := by
  unfold handleLearn
  split
  · exact closes_pure _
  · split
    · exact closes_pure _
    · split
      · exact closes_pure _
      · split
        · exact closes_pure _
        · split
          · exact closes_stageCandidate env _ params
          · split
            · exact closes_pure _
            · apply closes_tryExcept
              · apply closes_bind (closes_cursor _)
                intro outcome
                cases outcome with
                | inl response => exact closes_pure _
                | inr lid => exact closes_pure _
              · intro e
                exact closes_pure _

theorem closes_handleResolveContradiction (env : Env) (caller : Caller)
    (params : ContradictionParams) :
    Closes (handleResolveContradiction host env caller params) := by
  unfold handleResolveContradiction
  split
  · exact closes_pure _
  · split
    · exact closes_pure _
    · split
      · exact closes_pure _
      · apply closes_tryExcept
        · apply closes_bind (closes_transaction _ _)
          intro written
          apply closes_bind (closes_purgeAll env _)
          intro _
          exact closes_pure _
        · intro e
          cases e with
          | failed text => exact closes_pure _
          | resolveRejected refusal => exact closes_pure _
          | canonicalCommitFailed cause => exact closes_pure _

theorem closes_resolveCandidate (env : Env) (caller : Caller)
    (params : ResolveParams) :
    Closes (resolveCandidate host env caller params) := by
  unfold resolveCandidate
  split
  · exact closes_pure _
  · split
    · exact closes_pure _
    · split
      · exact closes_pure _
      · apply closes_tryExcept
        · apply closes_bind (closes_transaction _ _)
          intro outcome
          cases outcome with
          | inl refusal => exact closes_pure _
          | inr written =>
              apply closes_bind (closes_purgeAll env _)
              intro _
              exact closes_pure _
        · intro e
          cases e with
          | failed text => exact closes_pure _
          | resolveRejected refusal => exact closes_pure _
          | canonicalCommitFailed cause => exact closes_pure _

theorem closes_ensureDedupIndex (env : Env) :
    Closes (ensureDedupIndex host env) := by
  apply closes_bind (closes_mayRaise _)
  intro _
  apply closes_bind (closes_cursor _)
  intro hashless
  split
  · exact closes_pure _
  · exact closes_transaction _ _

theorem closes_writePromotion (env : Env) (reason : String)
    (verdict : Option Verdict) (preparation : Preparation) :
    Closes (writePromotion host env reason verdict preparation) := by
  cases preparation with
  | nothing => exact closes_pure _
  | invalidAgent => exact closes_pure _
  | flagged read =>
      apply closes_bind (closes_transaction _ _)
      intro _
      exact closes_pure _
  | refused read =>
      apply closes_bind (closes_transaction _ _)
      intro _
      exact closes_pure _
  | ready read =>
      apply closes_bind (closes_ensureDedupIndex env)
      intro _
      exact closes_tryExcept (closes_transaction _ _) (fun _ => closes_pure _)

theorem closes_promote (env : Env) (cid : Nat) (reason : String)
    (verdict : Option Verdict) :
    Closes (promoteCandidateDurable host env cid reason verdict) := by
  apply closes_bind (closes_cursor _)
  intro found
  exact closes_writePromotion env reason verdict _

theorem closes_applyEach
    {decide_ : Nat -> Governance Bool} (h : forall cid, Closes (decide_ cid))
    (cids : List Nat) :
    Closes (applyEach decide_ cids) := by
  induction cids with
  | nil => exact closes_pure _
  | cons cid rest ih =>
      apply closes_bind
      · apply closes_tryExcept
        · apply closes_bind (h cid)
          intro landed
          exact closes_pure _
        · intro _
          exact closes_pure _
      intro landed
      apply closes_bind ih
      intro counts
      cases landed with
      | none => exact closes_pure _
      | some landed =>
          cases landed with
          | true => exact closes_pure _
          | false => exact closes_pure _

theorem closes_applyPromotion (env : Nat -> Env)
    (result : ConsolidationResult) (cid : Nat) :
    Closes (applyPromotion host env result cid) := by
  unfold applyPromotion
  apply closes_bind (closes_promote (env cid) cid _ _)
  intro lid
  cases lid with
  | none => exact closes_pure _
  | some lid =>
      apply closes_bind
      · exact closes_tryExcept (closes_transaction _ _) (fun _ => closes_pure _)
      intro _
      exact closes_pure _

theorem closes_applyConsolidationResult (env : Nat -> Env) (now : Nat)
    (result : ConsolidationResult) :
    Closes (applyConsolidationResult host env now result) := by
  apply closes_bind (closes_applyEach (closes_applyPromotion env result) _)
  intro promoted
  apply closes_bind (closes_applyEach (fun _ => closes_transaction _ _) _)
  intro deduped
  apply closes_bind (closes_applyEach (fun _ => closes_transaction _ _) _)
  intro rejected
  apply closes_bind (closes_applyEach (fun _ => closes_transaction _ _) _)
  intro redacted
  apply closes_bind (closes_applyEach (fun _ => closes_transaction _ _) _)
  intro reviewed
  apply closes_bind
  · exact closes_tryExcept (closes_transaction _ _) (fun _ => closes_pure _)
  intro _
  apply closes_bind (closes_cursor _)
  intro remaining
  exact closes_pure _

theorem closes_dedupActiveLearnings (env : Env) (agent_id : Option String)
    (evict_to_archive : Option Bool) :
    Closes (dedupActiveLearnings host env agent_id evict_to_archive) := by
  apply closes_bind (closes_ensureDedupIndex env)
  intro _
  apply closes_bind (closes_cursor _)
  intro rows
  dsimp only
  split
  · exact closes_pure _
  · exact closes_transaction _ _

end Programs

end Daemon
end Minni
