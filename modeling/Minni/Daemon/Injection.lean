import Minni.Daemon.Draining
import Minni.Daemon.Retirement

/-!
# What may become durable unattended

A pass decides on the candidates it has read; later, each promotion reads its
candidate again, embeds it outside of any transaction, and compares the row
when it writes.  Rows may be edited at any time between.  The gates of all the
calls hold whatever happens between; what was promoted is what was decided
only where no edit lands between the two reads.
-/

namespace Minni
namespace Daemon

open Foundation
open Foundation.Db

/-!
## Events
-/

/-- A candidate that a pass chose to promote, as the pass read it. -/
structure Decision where
  row : Candidate
  verdict : Option Verdict
deriving DecidableEq

/-- A promotion that has read its candidate and has not yet written. -/
structure Prepared where
  decision : Decision
  preparation : Preparation
deriving DecidableEq

structure Scene where
  store : Store
  decided : List Decision
  prepared : List Prepared

def Scene.empty : Scene where
  store := Store.empty
  decided := []
  prepared := []

/-- The calls of the run as a whole; a promotion has its own events. -/
def LearningCall.governed : LearningCall -> Bool
  | store _ _ => false
  | promote _ _ _ _ => false
  | applyResult _ _ result => result.promote_candidate_ids.isEmpty
  | _ => true

inductive SceneEvent where
  | call (c : LearningCall)
  | ingest (row : Nat -> Candidate)
  | edit (cid : Nat) (f : Candidate -> Candidate)
  | pass (config : PassConfig) (env : BatchEnv)
  | prepare (decision : Decision)
  | write (env : Env) (reason : String) (prepared : Prepared)
  | evictNear (env : Env) (lid : Nat)

def PassResult.decisions (result : PassResult) : List Decision :=
  (result.candidates.filter fun row =>
      result.triage.result.promote_candidate_ids.contains
        row.candidate_id).map fun row =>
    { row := row
      verdict := result.triage.result.verdict row.candidate_id }

def decisionsOf : Except DbError PassResult -> List Decision
  | Except.ok result => result.decisions
  | Except.error _ => []

def prepareDecision (host : Host) (decision : Decision) (s : Store) :
    Prepared where
  decision := decision
  preparation := preparePromotion host decision.verdict
    (s.findCandidate decision.row.candidate_id)

/-- The committed store after a program. -/
def committedBy {α : Type} (p : Governance α) (s : Store) : Store :=
  (p (Connection.idle s)).2.committed

namespace SceneEvent

def after (host : Host) (scene : Scene) : SceneEvent -> Scene
  | call c =>
      { scene with
        store := (c.perform host (Connection.idle scene.store)).committed }
  | ingest row =>
      { scene with store := (scene.store.insertCandidate row).2 }
  | edit cid f => { scene with store := scene.store.updateCandidate cid f }
  | pass config env =>
      { scene with
        store := committedBy (runPass host config env) scene.store
        decided := scene.decided ++ decisionsOf
          (runPass host config env (Connection.idle scene.store)).1 }
  | prepare decision =>
      { scene with
        prepared :=
          scene.prepared ++ [prepareDecision host decision scene.store] }
  | write env reason prepared =>
      { scene with
        store := committedBy (writePromotion host env reason
          prepared.decision.verdict prepared.preparation) scene.store }
  | evictNear env lid =>
      { scene with
        store := committedBy (evictAfterPromotion host env lid) scene.store }

def enabled (scene : Scene) : SceneEvent -> Prop
  | call c => c.governed = true
  | prepare decision => decision ∈ scene.decided
  | write _ _ prepared => prepared ∈ scene.prepared
  | ingest _ => True
  | edit _ _ => True
  | pass _ _ => True
  | evictNear _ _ => True

end SceneEvent

def sceneSystem (host : Host) : TransitionSystem Scene SceneEvent where
  initial := fun scene => scene = Scene.empty
  step := fun scene event scene' =>
    event.enabled scene ∧ scene' = event.after host scene

/-!
## What is to hold
-/

/-- The fields on which the gates decide. -/
def SameTerms (decided row : Candidate) : Prop :=
  row.content = decided.content ∧ row.principal = decided.principal ∧
    row.privacy_level = decided.privacy_level ∧
    row.instruction_like = decided.instruction_like

/-- A forced learn of an operator, or a call with `accept_flagged`. -/
def Attended (row : Learning) : Prop :=
  match row.writer with
  | Writer.learn p => isOperatorPrincipal p = true
  | Writer.stage p => explicitlyAllowedAcceptFlagged p = true
  | Writer.resolve p => explicitlyAllowedAcceptFlagged p = true
  | Writer.contradiction p => explicitlyAllowedAcceptFlagged p = true
  | Writer.promote _ _ _ => False
  | Writer.store => False

/-- The row at the commit is what a pass decided on, with its verdict. -/
def DecidedOn (host : Host) (decided : List Decision) (row : Learning)
    (committed : Candidate) (verdict : Option Verdict) : Prop :=
  (exists decision, decision ∈ decided ∧
    (decision.verdict = verdict ∧ SameTerms decision.row committed)) ∧
  row.content = committed.content ∧ row.agent_id = committed.owner ∧
  privacyAdmits host committed verdict = true

structure Scene.Guarded (host : Host) (scene : Scene) : Prop where
  attended : forall row, row ∈ scene.store.learnings ->
    host.is_instruction_like row.content = true -> Attended row
  decided : forall row, row ∈ scene.store.learnings ->
    forall read committed verdict,
      row.writer = Writer.promote read committed verdict ->
      DecidedOn host scene.decided row committed verdict

/-- The request stays what the promotion read, where it matters. -/
def RequestKept (host : Host) (read : Candidate) (s : Store) : Prop :=
  safePrivacy.contains (read.privacy host) = true ∨
    forall row, s.findCandidate read.candidate_id = some row ->
      row.requested_privacy = read.requested_privacy

/-- No edit landed between the read of the pass and that of the promotion, nor
one of the request before the write. -/
def SceneEvent.undisturbed (host : Host) (scene : Scene) : SceneEvent -> Prop
  | SceneEvent.prepare decision =>
      forall read, (prepareDecision host decision scene.store).preparation =
        Preparation.ready read -> SameTerms decision.row read
  | SceneEvent.write _ _ prepared =>
      forall read, prepared.preparation = Preparation.ready read ->
        rowMatchesSnapshot read scene.store = true ->
        RequestKept host read scene.store
  | _ => True

/-!
## Who wrote a learning
-/

/-- With `strict`, what was promoted is also what was decided. -/
def Written (host : Host) (strict : Prop) (decided : List Decision)
    (row : Learning) : Prop :=
  match row.writer with
  | Writer.learn p => isOperatorPrincipal p = true
  | Writer.stage p =>
      host.is_instruction_like row.content = true ->
        explicitlyAllowedAcceptFlagged p = true
  | Writer.resolve p =>
      host.is_instruction_like row.content = true ->
        explicitlyAllowedAcceptFlagged p = true
  | Writer.contradiction p =>
      host.is_instruction_like row.content = true ->
        explicitlyAllowedAcceptFlagged p = true
  | Writer.promote _ committed verdict =>
      host.is_instruction_like row.content = false ∧
        (strict -> DecidedOn host decided row committed verdict)
  | Writer.store => False

section Writers

variable {host : Host} {strict : Prop} {decided : List Decision}

theorem written_congr
    {row row' : Learning} (hwriter : row'.writer = row.writer)
    (hcontent : row'.content = row.content)
    (hagent : row'.agent_id = row.agent_id)
    (h : Written host strict decided row) :
    Written host strict decided row' := by
  unfold Written DecidedOn at h ⊢
  rw [hwriter, hcontent, hagent]
  exact h

theorem written_append
    {row : Learning} (later : List Decision)
    (h : Written host strict decided row) :
    Written host strict (decided ++ later) row := by
  unfold Written at h ⊢
  split
  · rename_i hwriter
    rw [hwriter] at h
    exact h
  · rename_i hwriter
    rw [hwriter] at h
    exact h
  · rename_i hwriter
    rw [hwriter] at h
    exact h
  · rename_i hwriter
    rw [hwriter] at h
    exact h
  · rename_i hwriter
    rw [hwriter] at h
    refine ⟨h.left, ?_⟩
    intro hstrict
    rcases h.right hstrict with ⟨⟨decision, hmem, hdecision⟩, hrest⟩
    exact ⟨⟨decision, List.mem_append.mpr (Or.inl hmem), hdecision⟩, hrest⟩
  · rename_i hwriter
    rw [hwriter] at h
    exact h

/-- The gates of the calls establish it. -/
theorem written_callGate : CallGate host (Written host strict decided) where
  learn := by
    intro row p hwriter hoperator
    unfold Written
    rw [hwriter]
    exact hoperator
  stage := by
    intro row p hwriter hplain
    unfold Written
    rw [hwriter]
    intro hinstruction
    rw [hplain] at hinstruction
    cases hinstruction
  resolve := by
    intro row p hwriter hallowed
    unfold Written
    rw [hwriter]
    exact hallowed
  contradiction := by
    intro row p hwriter hallowed
    unfold Written
    rw [hwriter]
    exact hallowed

/-- Every learning of the store. -/
def AllWritten (host : Host) (strict : Prop) (decided : List Decision)
    (s : Store) : Prop :=
  forall row, row ∈ s.learnings -> Written host strict decided row

theorem statement_allWritten
    {s s' : Store} (hstep : Statement (Written host strict decided) s s')
    (h : AllWritten host strict decided s) :
    AllWritten host strict decided s' := by
  cases hstep with
  | insertLearning row _ hadmitted =>
      intro other hother
      rcases List.mem_append.mp hother with hmem | hlast
      · exact h other hmem
      · rw [List.mem_singleton.mp hlast]
        exact hadmitted
  | updateLearning lid f keeps =>
      intro other hother
      rcases mem_updateLearning hother with ⟨old, hold, heq | heq⟩
      · rw [heq]
        exact h old hold
      · rw [heq]
        exact written_congr (keeps.writer old) (keeps.content old)
          (keeps.agent_id old) (h old hold)
  | evict lid =>
      intro other hother
      rcases mem_evict hother with ⟨_, old, hold, _, hwriter, hcontent, hrow⟩
      have hagent : other.agent_id = old.agent_id := by
        rcases hrow with ⟨heq, _⟩ | ⟨heq, _⟩
        · rw [heq]
        · rw [heq]
      exact written_congr hwriter hcontent hagent (h old hold)
  | bookkeeping _ learnings _ _ =>
      intro other hother
      rw [learnings] at hother
      exact h other hother

theorem allWritten_performs
    {α : Type} {p : Governance α} {s : Store}
    (hp : Performs (Statement (Written host strict decided)) p)
    (h : AllWritten host strict decided s) :
    AllWritten host strict decided (committedBy p s) :=
  (keeps_apply (hp _ (fun _ _ hstep hs => statement_allWritten hstep hs))
    (throughout_idle h)).left

theorem allWritten_call
    {call : LearningCall} (hgoverned : call.governed = true) {s : Store}
    (h : AllWritten host strict decided s) :
    AllWritten host strict decided
      (call.perform host (Connection.idle s)).committed := by
  have gate : CallGate host (Written host strict decided) := written_callGate
  cases call with
  | learn env caller params =>
      exact allWritten_performs (performs_handleLearn gate env caller params) h
  | store env params => cases hgoverned
  | resolveContradiction env caller params =>
      exact allWritten_performs
        (performs_handleResolveContradiction gate env caller params) h
  | resolve env caller params =>
      exact allWritten_performs
        (performs_resolveCandidate gate env caller params) h
  | stage env caller params =>
      exact allWritten_performs (performs_stageCandidate gate env caller params)
        h
  | promote env cid reason verdict => cases hgoverned
  | applyResult env now result =>
      apply allWritten_performs
        (performs_applyConsolidationResult env now result ?_) h
      intro cid hcid
      rw [List.isEmpty_iff.mp hgoverned] at hcid
      cases hcid
  | dedup env agent_id evict_to_archive =>
      exact allWritten_performs
        (performs_dedupActiveLearnings env agent_id evict_to_archive) h
  | evict env lid =>
      exact allWritten_performs (performs_cursor (performs_evict env lid)) h

theorem allWritten_same
    {s s' : Store} (hsame : SameLearnings s s')
    (h : AllWritten host strict decided s) :
    AllWritten host strict decided s' := by
  intro row hrow
  have hmem : row.withoutHash ∈ s.learnings.map Learning.withoutHash := by
    rw [← hsame]
    exact List.mem_map.mpr ⟨row, hrow, rfl⟩
  rcases List.mem_map.mp hmem with ⟨old, hold, heq⟩
  exact written_congr (congrArg Learning.writer heq).symm
    (congrArg Learning.content heq).symm (congrArg Learning.agent_id heq).symm
    (h old hold)

end Writers

/-!
## The write of a promotion
-/

/-- Hashes are filled in, and the row of a promotion that found its candidate
unchanged is added. -/
def PromotionWrite (host : Host) (env : Env) (verdict : Option Verdict)
    (preparation : Preparation) (s s' : Store) : Prop :=
  SameLearnings s s' ∨
    exists read committed lid s₁, preparation = Preparation.ready read ∧
      rowMatchesSnapshot read s = true ∧
      s.findCandidate read.candidate_id = some committed ∧
      SnapshotEq read committed ∧ SameLearnings s s₁ ∧
      s'.learnings = s₁.learnings ++
        [promotedRow host env verdict read committed lid]

section PromotionWrites

variable {host : Host} {env : Env} {verdict : Option Verdict}

theorem sameLearnings_of_eq
    {s s' : Store} (h : s'.learnings = s.learnings) : SameLearnings s s' := by
  unfold SameLearnings
  rw [h]

theorem writes_promotedRow
    {s : Store} {reason : String} {read : Candidate} :
    Writes (promoteBlock host env reason verdict read)
      (fun _ w => w.learnings = s.learnings ∨
        exists committed lid, rowMatchesSnapshot read s = true ∧
          s.findCandidate read.candidate_id = some committed ∧
          SnapshotEq read committed ∧
          w.learnings = s.learnings ++
            [promotedRow host env verdict read committed lid]) s s := by
  apply writes_bind
  apply writes_select
  split
  · rename_i hunchanged
    rcases rowMatchesSnapshot_eq hunchanged with ⟨row, hfound, hsnapshot⟩
    apply writes_bind
    apply writes_select
    apply writes_bind
    apply writes_mayRaise
    apply writes_bind
    apply writes_insert
    apply writes_bind
    apply writes_mayRaise
    apply writes_bind
    apply writes_execute
    apply writes_bind
    apply writes_execute
    apply writes_bind
    apply writes_execute
    apply writes_pure
    apply Or.inr
    refine ⟨row, s.nextLearning, hunchanged, hfound, hsnapshot, ?_⟩
    rw [hfound]
    rfl
  · exact writes_pure (Or.inl rfl)

theorem returns_writePromotion
    {s : Store} {reason : String} {preparation : Preparation} :
    Returns (writePromotion host env reason verdict preparation)
      (fun _ s' => PromotionWrite host env verdict preparation s s') s := by
  cases preparation with
  | nothing => exact returns_pure (Or.inl rfl)
  | invalidAgent => exact returns_pure (Or.inl rfl)
  | flagged read =>
      apply returns_bind
      apply returns_mono returns_fenceFlagged
      intro r s' hs'
      have hsame := sameLearnings_of_eq hs'.left
      cases r with
      | ok _ => exact returns_pure (Or.inl hsame)
      | error e => exact Or.inl hsame
  | refused read =>
      apply returns_bind
      apply returns_mono returns_fenceRefused
      intro r s' hs'
      have hsame := sameLearnings_of_eq hs'.left
      cases r with
      | ok _ => exact returns_pure (Or.inl hsame)
      | error e => exact Or.inl hsame
  | ready read =>
      apply returns_bind
      apply returns_mono returns_ensureDedupIndex
      intro r s₁ hs₁
      rcases hs₁ with ⟨hsame, hcandidates⟩
      cases r with
      | error e => exact Or.inl hsame
      | ok _ =>
          apply returns_tryExcept
          apply returns_transaction
          · apply writes_mono writes_promotedRow
            intro _ w hw
            rcases hw with heq | hinserted
            · exact Or.inl ((sameLearnings_of_eq heq).trans hsame)
            · rcases hinserted with
                ⟨committed, lid, hmatches, hfound, hsnapshot, hrows⟩
              have hfind : forall cid,
                  s₁.findCandidate cid = s.findCandidate cid := by
                intro cid
                unfold Store.findCandidate
                rw [hcandidates]
              unfold rowMatchesSnapshot at hmatches
              rw [hfind] at hmatches hfound
              exact Or.inr ⟨read, committed, lid, s₁, rfl, hmatches, hfound,
                hsnapshot, hsame, hrows⟩
          · intro e
            exact returns_pure (Or.inl hsame)

end PromotionWrites

/-!
## Steps and runs
-/

structure Sound (host : Host) (strict : Prop) (scene : Scene) : Prop where
  issued : forall prepared, prepared ∈ scene.prepared ->
    prepared.decision ∈ scene.decided
  ready : forall prepared, prepared ∈ scene.prepared ->
    forall read, prepared.preparation = Preparation.ready read ->
      read.flagged host = false ∧
        privacyAdmits host read prepared.decision.verdict = true ∧
        (strict -> SameTerms prepared.decision.row read)
  written : AllWritten host strict scene.decided scene.store

section Runs

variable {host : Host} {strict : Prop}

theorem sound_empty : Sound host strict Scene.empty where
  issued := by
    intro prepared hprepared
    cases hprepared
  ready := by
    intro prepared hprepared
    cases hprepared
  written := by
    intro row hrow
    cases hrow

/-- An event that only writes the store. -/
theorem Sound.store
    {scene : Scene} (h : Sound host strict scene) {s' : Store}
    (hwritten : AllWritten host strict scene.decided s') :
    Sound host strict { scene with store := s' } where
  issued := h.issued
  ready := h.ready
  written := hwritten

theorem performs_runPass
    {admits : Learning -> Prop} (config : PassConfig) (env : BatchEnv) :
    Performs (Statement admits) (runPass host config env) := by
  apply performs_bind (performs_ensureDedupIndex env.pass)
  intro _
  apply performs_bind
  · apply performs_transaction
    exact performs_execute (statement_expireAndCompact env.now)
  intro _
  apply performs_bind (performs_cursor (performs_select _))
  intro total
  apply performs_bind (performs_cursor (performs_select _))
  intro candidates
  apply performs_bind (performs_cursor (performs_select _))
  intro triaged
  exact performs_pure _

theorem sameTerms_commit
    {decided read committed : Candidate} (h : SameTerms decided read)
    (hsnapshot : SnapshotEq read committed) : SameTerms decided committed := by
  rcases h with ⟨hcontent, hprincipal, hprivacy, hflag⟩
  rcases hsnapshot with ⟨_, hcontent', hprincipal', hprivacy', hflag', _⟩
  exact ⟨hcontent'.trans hcontent, hprincipal'.trans hprincipal,
    hprivacy'.trans hprivacy, hflag'.trans hflag⟩

/-- The gate of privacy holds of the row at the commit. -/
theorem privacyAdmits_commit
    {read committed : Candidate} {verdict : Option Verdict} {s : Store}
    (hadmits : privacyAdmits host read verdict = true)
    (hsnapshot : SnapshotEq read committed)
    (hfound : s.findCandidate read.candidate_id = some committed)
    (hkept : RequestKept host read s) :
    privacyAdmits host committed verdict = true := by
  have hprivacy : committed.privacy host = read.privacy host := by
    unfold Candidate.privacy
    rw [hsnapshot.right.right.right.left]
  unfold privacyAdmits at hadmits ⊢
  rw [hprivacy]
  rcases hkept with hsafe | hrequest
  · rw [hsafe, Bool.true_or]
  · rw [hrequest committed hfound]
    exact hadmits

theorem sound_write
    {scene : Scene} (h : Sound host strict scene) {env : Env}
    {reason : String} {prepared : Prepared}
    (hprepared : prepared ∈ scene.prepared)
    (hkept : strict -> forall read,
      prepared.preparation = Preparation.ready read ->
      rowMatchesSnapshot read scene.store = true ->
      RequestKept host read scene.store) :
    AllWritten host strict scene.decided (committedBy (writePromotion host env
      reason prepared.decision.verdict prepared.preparation) scene.store) := by
  have hwrite := (@returns_writePromotion host env prepared.decision.verdict scene.store reason prepared.preparation).result
  rcases hwrite with hsame | hinserted
  · exact allWritten_same hsame h.written
  · rcases hinserted with ⟨read, committed, lid, s₁, hready, hmatches, hfound,
      hsnapshot, hsame, hrows⟩
    rcases h.ready prepared hprepared read hready with
      ⟨hflagged, hadmits, hterms⟩
    intro row hrow
    have hmem : row ∈ s₁.learnings ++ [promotedRow host env
        prepared.decision.verdict read committed lid] := by
      rw [← hrows]
      exact hrow
    rcases List.mem_append.mp hmem with hold | hlast
    · exact allWritten_same hsame h.written row hold
    · rw [List.mem_singleton.mp hlast]
      constructor
      · exact (Bool.or_eq_false_iff.mp hflagged).right
      · intro hstrict
        refine ⟨⟨prepared.decision, h.issued prepared hprepared, rfl,
          sameTerms_commit (hterms hstrict) hsnapshot⟩, ?_, ?_, ?_⟩
        · exact hsnapshot.right.left.symm
        · show read.owner = committed.owner
          unfold Candidate.owner
          rw [hsnapshot.right.right.left]
        · exact privacyAdmits_commit hadmits hsnapshot hfound
            (hkept hstrict read hready hmatches)

theorem sound_step
    {scene : Scene} {event : SceneEvent} (h : Sound host strict scene)
    (henabled : event.enabled scene)
    (hundisturbed : strict -> event.undisturbed host scene) :
    Sound host strict (event.after host scene) := by
  cases event with
  | call c => exact h.store (allWritten_call henabled h.written)
  | ingest row => exact h.store h.written
  | edit cid f => exact h.store h.written
  | pass config env =>
      have hwritten := allWritten_performs
        (@performs_runPass host _ config env) h.written
      constructor
      · intro prepared hprepared
        exact List.mem_append.mpr (Or.inl (h.issued prepared hprepared))
      · exact h.ready
      · intro row hrow
        exact written_append _ (hwritten row hrow)
  | prepare decision =>
      constructor
      · intro prepared hprepared
        rcases List.mem_append.mp hprepared with hmem | hlast
        · exact h.issued prepared hmem
        · rw [List.mem_singleton.mp hlast]
          exact henabled
      · intro prepared hprepared read hready
        rcases List.mem_append.mp hprepared with hmem | hlast
        · exact h.ready prepared hmem read hready
        · rw [List.mem_singleton.mp hlast] at hready ⊢
          have hspec := preparePromotion_ready hready
          exact ⟨hspec.right.right.left, hspec.right.right.right.left,
            fun hstrict => hundisturbed hstrict read hready⟩
      · exact h.written
  | write env reason prepared =>
      exact h.store (sound_write h henabled
        (fun hstrict => hundisturbed hstrict))
  | evictNear env lid =>
      exact h.store
        (allWritten_performs (performs_evictAfterPromotion env lid) h.written)

theorem sound_attended
    {scene : Scene} (h : Sound host strict scene) {row : Learning}
    (hrow : row ∈ scene.store.learnings)
    (hinstruction : host.is_instruction_like row.content = true) :
    Attended row := by
  have hwritten := h.written row hrow
  unfold Written at hwritten
  unfold Attended
  split
  · rename_i hwriter
    rw [hwriter] at hwritten
    exact hwritten
  · rename_i hwriter
    rw [hwriter] at hwritten
    exact hwritten hinstruction
  · rename_i hwriter
    rw [hwriter] at hwritten
    exact hwritten hinstruction
  · rename_i hwriter
    rw [hwriter] at hwritten
    exact hwritten hinstruction
  · rename_i hwriter
    rw [hwriter] at hwritten
    rw [hwritten.left] at hinstruction
    cases hinstruction
  · rename_i hwriter
    rw [hwriter] at hwritten
    exact hwritten

/-- The first half holds in every run, the second in those whose steps are
undisturbed. -/
theorem injection_guarded (host : Host) :
    (forall scene, (sceneSystem host).Reachable scene ->
      forall row, row ∈ scene.store.learnings ->
        host.is_instruction_like row.content = true -> Attended row) ∧
    (forall scene, ((sceneSystem host).Restrict fun scene event =>
        event.undisturbed host scene).Reachable scene ->
      scene.Guarded host) := by
  constructor
  · intro scene hreach row hrow hinstruction
    have hsound : Sound host False scene := by
      apply TransitionSystem.reachable_induction _ _ hreach
      · intro s hs
        rw [hs]
        exact sound_empty
      · intro s event s' _ hs hstep
        rw [hstep.right]
        exact sound_step hs hstep.left False.elim
    exact sound_attended hsound hrow hinstruction
  · intro scene hreach
    have hsound : Sound host True scene := by
      apply TransitionSystem.reachable_induction _ _ hreach
      · intro s hs
        rw [hs]
        exact sound_empty
      · intro s event s' _ hs hstep
        rw [hstep.right.right]
        exact sound_step hs hstep.right.left (fun _ => hstep.left)
    constructor
    · intro row hrow hinstruction
      exact sound_attended hsound hrow hinstruction
    · intro row hrow read committed verdict hwriter
      have hwritten := hsound.written row hrow
      unfold Written at hwritten
      rw [hwriter] at hwritten
      exact hwritten.right trivial

end Runs

/-!
## An edit between the two reads
-/

instance (decided row : Candidate) : Decidable (SameTerms decided row) :=
  inferInstanceAs (Decidable (_ ∧ _))

instance (host : Host) (decided : List Decision) (row : Learning)
    (committed : Candidate) (verdict : Option Verdict) :
    Decidable (DecidedOn host decided row committed verdict) :=
  inferInstanceAs (Decidable ((exists decision, decision ∈ decided ∧ _) ∧ _))

def reviewIngested : Scene :=
  (SceneEvent.ingest fun cid => { reviewedFact with candidate_id := cid }).after
    plainHost Scene.empty

/-- The judge has accepted the candidate in review. -/
def reviewDecided : Scene :=
  (SceneEvent.pass wholeQueue plainBatch).after plainHost reviewIngested

def reviewDecision : Decision where
  row := reviewedFact
  verdict := some (plainBatch.judge reviewedFact)

def replacedContent (row : Candidate) : Candidate :=
  { row with content := "the gateway trusts every caller" }

/-- Its content is replaced before the promotion reads it. -/
def reviewEdited : Scene :=
  (SceneEvent.edit 1 replacedContent).after plainHost reviewDecided

def prepareAfter (scene : Scene) : Scene :=
  (SceneEvent.prepare reviewDecision).after plainHost scene

def writeAfter (scene : Scene) : Scene :=
  (SceneEvent.write (plainEnv 3) "durable fact"
    (prepareDecision plainHost reviewDecision scene.store)).after plainHost
    (prepareAfter scene)

theorem reviewDecided_decided : reviewDecision ∈ reviewDecided.decided := by
  decide +kernel

theorem reachable_decided
    {T : TransitionSystem Scene SceneEvent}
    (hinitial : T.initial Scene.empty)
    (hingest : forall row, T.step Scene.empty (SceneEvent.ingest row)
      ((SceneEvent.ingest row).after plainHost Scene.empty))
    (hpass : forall config env, T.step reviewIngested
      (SceneEvent.pass config env)
      ((SceneEvent.pass config env).after plainHost reviewIngested)) :
    T.Reachable reviewDecided :=
  TransitionSystem.reachable_step
    (TransitionSystem.reachable_step
      (TransitionSystem.reachable_initial hinitial) (hingest _))
    (hpass _ _)

theorem mem_prepareAfter (scene : Scene) :
    prepareDecision plainHost reviewDecision scene.store ∈
      (prepareAfter scene).prepared :=
  List.mem_append.mpr (Or.inr (List.mem_singleton.mpr rfl))

theorem reviewed_read
    {read : Candidate}
    (h : (prepareDecision plainHost reviewDecision
      reviewDecided.store).preparation = Preparation.ready read) :
    read = reviewedFact := by
  have hprepared : (prepareDecision plainHost reviewDecision
      reviewDecided.store).preparation = Preparation.ready reviewedFact := by
    decide +kernel
  rw [hprepared] at h
  exact (Preparation.ready.inj h).symm

/-- Without the edit the promoted learning is the one that was judged. -/
theorem review_guarded : (writeAfter reviewDecided).Guarded plainHost := by
  apply (injection_guarded plainHost).right
  apply TransitionSystem.reachable_step (l := SceneEvent.write (plainEnv 3)
    "durable fact" (prepareDecision plainHost reviewDecision
      reviewDecided.store))
  · apply TransitionSystem.reachable_step
      (l := SceneEvent.prepare reviewDecision)
    · exact reachable_decided rfl (fun _ => ⟨trivial, trivial, rfl⟩)
        (fun _ _ => ⟨trivial, trivial, rfl⟩)
    · refine ⟨?_, reviewDecided_decided, rfl⟩
      intro read hready
      rw [reviewed_read hready]
      exact ⟨rfl, rfl, rfl, rfl⟩
  · refine ⟨?_, mem_prepareAfter _, rfl⟩
    intro read hready _
    rw [reviewed_read hready]
    apply Or.inr
    intro row hrow
    have hfound : (prepareAfter reviewDecided).store.findCandidate 1 =
        some reviewedFact := by
      decide +kernel
    have heq : some reviewedFact = some row := hfound.symm.trans hrow
    cases heq
    rfl

/-- The verdict on one content makes another durable. -/
theorem edited_content_promoted :
    ¬ forall scene, (sceneSystem plainHost).Reachable scene ->
      scene.Guarded plainHost := by
  intro h
  have hreach : (sceneSystem plainHost).Reachable
      (writeAfter reviewEdited) := by
    have hdecided : (sceneSystem plainHost).Reachable reviewDecided :=
      reachable_decided rfl (fun _ => ⟨trivial, rfl⟩)
        (fun _ _ => ⟨trivial, rfl⟩)
    have hedited : (sceneSystem plainHost).Reachable reviewEdited :=
      TransitionSystem.reachable_step hdecided
        (l := SceneEvent.edit 1 replacedContent) ⟨trivial, rfl⟩
    have hprepared : (sceneSystem plainHost).Reachable
        (prepareAfter reviewEdited) :=
      TransitionSystem.reachable_step hedited
        (l := SceneEvent.prepare reviewDecision)
        ⟨reviewDecided_decided, rfl⟩
    exact TransitionSystem.reachable_step hprepared
      (l := SceneEvent.write (plainEnv 3) "durable fact"
        (prepareDecision plainHost reviewDecision reviewEdited.store))
      ⟨mem_prepareAfter _, rfl⟩
  have hpromoted : promotedRow plainHost (plainEnv 3) reviewDecision.verdict
      (replacedContent reviewedFact) (replacedContent reviewedFact) 1 ∈
      (writeAfter reviewEdited).store.learnings := by
    decide +kernel
  have hdecided := (h _ hreach).decided _ hpromoted _ _ _ rfl
  revert hdecided
  decide +kernel

end Daemon
end Minni
