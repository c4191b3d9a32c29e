import Minni.Thread.WorkerSpecs

/-!
# Specifications of the orchestrator calls, and of every call

The calls that remain, and the guarantee of a run: whatever holds at first and
is preserved by each allowed operation holds at the end of every run, crashes
included.
-/

namespace Minni
namespace Thread

open Foundation

variable {host : Host} {v v' v'' : Vault}

theorem secretsOnly_note (h : SecretsOnly v v') : v'.note = v.note := by
  rw [h]

/-- How a persist ends that also deletes envelopes. -/
def RevokedPost (v : Vault) (plan : ThreadPlan) (cause : Cause) (now : Nat)
    (r : Except ThreadError ThreadPlan) (v' : Vault) : Prop :=
  match r with
  | Except.ok p =>
      p = plan ∧ exists w, Wrote v plan cause now w ∧ SecretsOnly w v'
  | Except.error (ThreadError.planHistoryAppend _) =>
      exists w, Wrote v plan cause now w ∧ SecretsOnly w v'
  | Except.error _ => True

theorem safe_persistPlanThenRevokeClaimSecrets
    {plan : ThreadPlan} {cause : Cause} {clock : Clock}
    (revoked : List ClaimId)
    (h : assertUniqueSliceIds plan.slices "persistPlan" = Except.ok () ->
      NoteStep host v (persistedPlan plan clock) clock.now cause) :
    Safe host (persistPlanThenRevokeClaimSecrets plan cause clock revoked)
      (RevokedPost v (persistedPlan plan clock) cause clock.now) v := by
  refine Program.guarded_seq
    (P := fun r v' =>
      match r with
      | Except.ok p => p = persistedPlan plan clock ∧
          Wrote v (persistedPlan plan clock) cause clock.now v'
      | Except.error e =>
          RevokedPost v (persistedPlan plan clock) cause clock.now
            (Except.error e) v') ?_ ?_ ?_
  · refine Program.guarded_tryCatch (safe_persistPlan h) ?_ ?_
    · intro p s hp
      exact hp
    · intro e s he
      cases e with
      | planHistoryAppend rev =>
          refine Program.guarded_seq
            (safe_deleteClaimSecretsBestEffort revoked) ?_ ?_
          · intro _ s' hs'
            exact ⟨s, he, hs'.only⟩
          · intro e' s' hs'
            cases e' with
            | planHistoryAppend rev' =>
                exact ⟨s, he, hs'.only⟩
            | _ =>
                exact True.intro
      | _ =>
          exact True.intro
  · rintro p s ⟨rfl, hwrote⟩
    refine Program.guarded_seq (safe_deleteClaimSecretsBestEffort revoked)
      ?_ ?_
    · intro _ s' hs'
      exact ⟨rfl, s, hwrote, hs'.only⟩
    · intro e s' hs'
      cases e with
      | planHistoryAppend rev =>
          exact ⟨s, hwrote, hs'.only⟩
      | _ =>
          exact True.intro
  · intro e s he
    exact he

theorem revokedPost_returns
    {plan : ThreadPlan} {cause : Cause} {now : Nat} {p : Act ThreadPlan}
    (h : Safe host p (RevokedPost v plan cause now) v) :
    Safe host p
      (Returns fun next v' => next = plan ∧ v'.note = plan ∧
        v'.journal = v.journal) v := by
  refine Program.guarded_mono h ?_
  intro r s hr next hnext
  rw [hnext] at hr
  rcases hr with ⟨hplan, w, hwrote, hsecrets⟩
  refine ⟨hplan, (secretsOnly_note hsecrets).trans (wrote_note hwrote), ?_⟩
  rw [hsecrets, hwrote]
  rfl

theorem safe_appendLegacyLine :
    Safe host appendLegacyLine (Returns fun _ v' => v' = v) v :=
  safe_read True.intro rfl (returns_ok rfl) (returns_error _ _)

/-!
## The status update
-/

theorem applyOrchestratorSliceUpdate_spec
    {plan base : ThreadPlan} {previous : ThreadSlice}
    {status : PlanSliceStatus} {evidence : Option String}
    {options : Option UpdateSliceOptions} {wall : String}
    (h : applyOrchestratorSliceUpdate host plan previous status evidence
      options wall = Except.ok base) :
    base.rev = plan.rev ∧ base.plan_id = plan.plan_id ∧
      base.slices = replaceById plan.slices previous.id fun s =>
        revokedSlice previous (transitionedSlice s status evidence) := by
  rcases except_bind_ok h with ⟨next, hnext, h⟩
  cases h
  rcases updateSlice_spec hnext with ⟨hrev, hplan, hslices⟩
  refine ⟨hrev, hplan, ?_⟩
  change replaceById next.slices previous.id (revokedSlice previous) = _
  rw [hslices]
  exact replaceById_replaceById fun _ => rfl

theorem revokedSlice_id (previous slice : ThreadSlice) :
    (revokedSlice previous slice).id = slice.id := by
  unfold revokedSlice
  split
  · rfl
  · rfl

theorem safe_pruneRevoked
    {plan base : ThreadPlan} {previous : ThreadSlice}
    {status : PlanSliceStatus} {evidence : Option String}
    {options : Option UpdateSliceOptions} {clock : Clock}
    (hprevious : HasSlice plan previous)
    (hbase : applyOrchestratorSliceUpdate host plan previous status evidence
      options clock.wall = Except.ok base)
    (hnote : v.note = persistedPlan base clock) :
    Safe host (pruneRevoked previous) (fun _ v' => ReceiptsOnly v v') v := by
  unfold pruneRevoked
  split
  · rename_i hsome
    refine Program.guarded_mono (safe_prune ?_) fun _ _ h => h.only
    rcases applyOrchestratorSliceUpdate_spec hbase with ⟨_, _, hslices⟩
    have hnext : HasSlice v.note
        (revokedSlice previous
          (transitionedSlice previous status evidence)) := by
      rw [hnote]
      exact hasSlice_replaceById
        (f := fun s =>
          revokedSlice previous (transitionedSlice s status evidence))
        hprevious hslices fun s => revokedSlice_id previous _
    apply retired_of_next hnext (revokedSlice_id _ _)
    unfold revokedSlice
    rw [if_pos hsome]
    simp [PlanSlice.requireGeneration]
  · rfl

theorem safe_appendStatusLines
    (input : ThreadUpdateInput) (previous : ThreadSlice) :
    Safe host (appendStatusLines input previous)
      (Returns fun _ v' => v' = v) v := by
  refine safe_then safe_appendLegacyLine ?_
  rintro ⟨⟩ s rfl
  split
  · exact safe_appendLegacyLine
  · exact returns_ok rfl

theorem safe_threadUpdate (input : ThreadUpdateInput) (clock : Clock) :
    Safe host (threadUpdate host input clock) (Returns fun _ _ => True) v := by
  refine safe_then safe_theNote ?_
  rintro plan s ⟨rfl, rfl⟩
  refine safe_then (safe_prepared host.defaultAgentId s.note clock.now) ?_
  rintro ordered s' ⟨hs', rfl⟩
  rw [← journalOnly_note hs']
  refine safe_then (safe_findSlice s'.note input.slice_id) ?_
  rintro previous w ⟨rfl, hprevious, hid⟩
  refine safe_then (safe_applied _) ?_
  rintro base w' ⟨rfl, hbase⟩
  have hstep : NoteStep host w' (persistedPlan base clock) clock.now
      (Cause.orchestrator input.slice_id) :=
    ⟨previous, _, _, _, _, base, hprevious, hid, hbase, rfl⟩
  have hsafe := safe_persistPlanThenRevokeClaimSecrets
    (previous.claim.map (·.claim_id)).toList fun _ => hstep
  refine safe_then
    (P := fun next x => next = persistedPlan base clock ∧
      x.note = persistedPlan base clock ∧ x.journal = w'.journal) ?_ ?_
  · refine Program.guarded_tryCatch hsafe ?_ ?_
    · rintro next x ⟨hnext, y, hwrote, hsecrets⟩
      apply returns_ok
      refine ⟨hnext, (secretsOnly_note hsecrets).trans (wrote_note hwrote), ?_⟩
      rw [hsecrets, hwrote]
      rfl
    · intro e x hx
      cases e with
      | planHistoryAppend rev =>
          rcases hx with ⟨y, hwrote, hsecrets⟩
          have hnote : x.note = persistedPlan base clock :=
            (secretsOnly_note hsecrets).trans (wrote_note hwrote)
          refine safe_then (P := fun _ _ => True)
            (Program.guarded_mono (safe_pruneRevoked hprevious hbase hnote)
              fun _ _ _ _ _ => True.intro) ?_
          intro _ _ _
          exact returns_error _ _
      | _ =>
          exact returns_error _ _
  · rintro next x ⟨rfl, hnote, hjournal⟩
    refine safe_then
      (safe_returns (safe_pruneRevoked hprevious hbase hnote)) ?_
    intro _ y hy
    refine safe_then (safe_appendStatusLines input previous) ?_
    rintro ⟨⟩ z rfl
    have hjournal' : w'.journal = z.journal := by
      rw [hy]
      exact hjournal.symm
    rw [hjournal']
    refine safe_then (safe_journal (safe_recordThreadMutationEvents _)) ?_
    intro _ _ _
    exact returns_ok True.intro

/-!
## Scars and replans
-/

theorem safe_threadScar (entry : ScarTissueEntry) (clock : Clock) :
    Safe host (threadScar host entry clock) (Returns fun _ _ => True) v := by
  refine safe_then safe_theNote ?_
  rintro plan s ⟨rfl, rfl⟩
  refine safe_then (safe_prepared host.defaultAgentId s.note clock.now) ?_
  rintro ordered s' ⟨hs', rfl⟩
  rw [← journalOnly_note hs']
  refine safe_then
    (P := fun next w =>
      next = persistedPlan (addScar s'.note entry clock.wall) clock ∧
        w.journal = s'.journal) ?_ ?_
  · refine Program.guarded_mono (safe_persistPlan ?_) ?_
    · intro _
      exact ⟨entry, clock.wall, rfl⟩
    · intro r w hr next hnext
      rw [hnext] at hr
      rcases hr with ⟨hplan, hwrote⟩
      refine ⟨hplan, ?_⟩
      rw [hwrote]
      rfl
  · rintro next w ⟨rfl, hjournal⟩
    refine safe_then safe_appendLegacyLine ?_
    rintro ⟨⟩ x rfl
    rw [← hjournal]
    refine safe_then (safe_journal (safe_recordThreadMutationEvents _)) ?_
    intro _ _ _
    exact returns_ok True.intro

/-- A generation that a replan or a restore has advanced is at work no more. -/
theorem retired_of_advanced
    {before after : ThreadPlan} {entry : String × Nat}
    (h : entry ∈ advancedGenerations before after) :
    RetiredGeneration after entry.1 entry.2 := by
  rcases List.mem_filterMap.mp h with ⟨slice, _, hentry⟩
  cases hfound : after.slices.find? fun candidate => candidate.id = slice.id with
  | none =>
      rw [hfound] at hentry
      cases hentry
  | some afterSlice =>
      rw [hfound] at hentry
      simp only at hentry
      split at hentry
      · rename_i hlt
        cases hentry
        intro other hother hid hgeneration
        have hfoundId := List.find?_some hfound
        have hsame : afterSlice = other :=
          hasSlice_unique hother (List.mem_of_find?_eq_some hfound)
            ((of_decide_eq_true hfoundId).trans hid.symm)
        rw [← hsame] at hgeneration
        simp only at hgeneration
        omega
      · cases hentry

theorem safe_pruneAdvanced
    {before base : ThreadPlan} {clock : Clock}
    (hnote : v.note = persistedPlan base clock) :
    Safe host (pruneSliceReceiptsAfterPlanMutation before base)
      (fun _ v' => ReceiptsOnly v v') v := by
  apply safe_pruneAfterPlanMutation
  intro entry hentry
  rw [hnote]
  exact retired_of_advanced hentry

/-- The end of a replan and of a restore. -/
theorem safe_afterTopology
    {before base : ThreadPlan} {clock : Clock} {m : MutationEvents}
    {next : ThreadPlan}
    (hnote : v.note = persistedPlan base clock) :
    Safe host
      (do
        pruneSliceReceiptsAfterPlanMutation before base
        appendLegacyLine
        let _ <- recordThreadMutationEvents host m v.journal
        pure next)
      (Returns fun _ _ => True) v := by
  refine safe_then (safe_returns (safe_pruneAdvanced hnote)) ?_
  intro _ s hs
  refine safe_then safe_appendLegacyLine ?_
  rintro ⟨⟩ s' rfl
  have hjournal : v.journal = s'.journal := by
    rw [hs]
  rw [hjournal]
  refine safe_then (safe_journal (safe_recordThreadMutationEvents _)) ?_
  intro _ _ _
  exact returns_ok True.intro

theorem noteStep_of_replan
    {input : ReplanInput} {base : ThreadPlan} {clock : Clock}
    (h : applyReplan host v.note clock.wall input = Except.ok base) :
    NoteStep host v (persistedPlan base clock) clock.now input.cause := by
  cases input with
  | newSlices newSlices =>
      exact ⟨newSlices, clock.wall, base, h, rfl⟩
  | delta delta =>
      exact ⟨delta, clock.wall, base, h, rfl⟩

theorem safe_threadReplan (input : ReplanInput) (clock : Clock) :
    Safe host (threadReplan host input clock) (Returns fun _ _ => True) v := by
  refine safe_then safe_theNote ?_
  rintro plan s ⟨rfl, rfl⟩
  refine safe_then (safe_prepared host.defaultAgentId s.note clock.now) ?_
  rintro ordered s' ⟨hs', rfl⟩
  rw [← journalOnly_note hs']
  refine safe_then (safe_applied _) ?_
  rintro base w ⟨rfl, hbase⟩
  refine safe_then
    (revokedPost_returns (safe_persistPlanThenRevokeClaimSecrets _ ?_)) ?_
  · intro _
    exact noteStep_of_replan hbase
  · rintro next x ⟨rfl, hnote, hjournal⟩
    rw [← hjournal]
    exact safe_afterTopology hnote

/-!
## Restore
-/

theorem safe_readNoteForRestore :
    Safe host readNoteForRestore
      (Returns fun plan v' => v' = v ∧
        (plan = v.note ∨ plan = planScalars v.note)) v := by
  refine Program.guarded_tryCatch
    (P := fun r v' => v' = v ∧ forall plan, r = Except.ok plan ->
      plan = v.note) (safe_readNote ?_ ?_) ?_ ?_
  · refine ⟨rfl, ?_⟩
    intro plan hplan
    cases hplan
    rfl
  · refine ⟨rfl, ?_⟩
    intro plan hplan
    cases hplan
  · rintro plan s ⟨rfl, hplan⟩
    exact returns_ok ⟨rfl, Or.inl (hplan plan rfl)⟩
  · rintro e s ⟨rfl, _⟩
    refine safe_then safe_theNote ?_
    rintro plan s' ⟨rfl, rfl⟩
    exact returns_ok ⟨rfl, Or.inr rfl⟩

theorem safe_threadRestore (rev : Nat) (clock : Clock) :
    Safe host (threadRestore host rev clock) (Returns fun _ _ => True) v := by
  refine safe_then safe_readNoteForRestore ?_
  rintro current s ⟨rfl, hcurrent⟩
  refine safe_then (safe_prepared host.defaultAgentId current clock.now) ?_
  rintro ordered s' ⟨hs', rfl⟩
  rw [← journalOnly_note hs'] at hcurrent
  refine safe_then
    (P := fun history w => w = s' ∧ history = s'.history)
    (safe_read True.intro rfl (returns_ok ⟨rfl, rfl⟩) (returns_error _ _)) ?_
  rintro history w ⟨rfl, rfl⟩
  refine safe_then
    (safe_ofOption (R := fun snapshot w' => w' = w ∧ snapshot ∈ w.history)
      fun _ h => ⟨rfl, List.mem_of_find?_eq_some h⟩) ?_
  rintro snapshot w' ⟨rfl, hsnapshot⟩
  refine safe_then (safe_applied _) ?_
  rintro base x ⟨rfl, hbase⟩
  refine safe_then
    (revokedPost_returns (safe_persistPlanThenRevokeClaimSecrets _ ?_)) ?_
  · intro _
    exact ⟨current, snapshot, base, hcurrent, hsnapshot, hbase, rfl⟩
  · rintro next y ⟨rfl, hnote, hjournal⟩
    rw [← hjournal]
    exact safe_afterTopology hnote

/-!
## Acceptance
-/

theorem safe_stampAcceptedStart
    (input : UpdateClaimedSliceInput) (now : Nat) :
    Safe host (stampAcceptedStart host input now)
      (Returns fun _ _ => True) v := by
  refine safe_then safe_theNote ?_
  rintro plan s ⟨rfl, rfl⟩
  refine safe_then (safe_findSlice s.note input.sliceId) ?_
  rintro slice s' ⟨rfl, _⟩
  split
  · refine safe_then
      (safe_ofOption (R := fun _ w => w = s') fun _ _ => rfl) ?_
    rintro claim w rfl
    refine safe_then (safe_require (R := fun _ w' => w' = w) fun _ => rfl) ?_
    rintro ⟨⟩ w' rfl
    refine safe_weaken (safe_writeReceipt ?_) fun _ _ _ => True.intro
    exact ReceiptStep.stamp rfl rfl rfl rfl
  · exact returns_ok True.intro

theorem safe_enqueueAcceptedWorkerWrite
    (input : UpdateClaimedSliceInput) (ticketId : String)
    (applyNow : Option Nat) (clock : Clock) :
    Safe host (enqueueAcceptedWorkerWrite host input ticketId applyNow clock)
      (Returns fun _ _ => True) v := by
  refine safe_then safe_theNote ?_
  rintro plan s ⟨rfl, rfl⟩
  refine safe_then (safe_findSlice s.note input.sliceId) ?_
  rintro slice s' ⟨rfl, _⟩
  refine safe_then (P := fun _ _ => True) ?_ ?_
  · unfold stampIfStart
    split
    · exact safe_stampAcceptedStart input clock.now
    · exact returns_ok True.intro
  · intro _ w _
    refine safe_then
      (P := fun _ _ => True)
      (safe_read True.intro rfl (returns_ok True.intro) (returns_error _ _)) ?_
    intro queued x _
    split
    · exact returns_ok True.intro
    · exact safe_perform True.intro fun _ _ _ => True.intro

/-!
## Every call
-/

/-- What a call that returns leaves behind, starting from a vault. -/
def CallPost (v : Vault) : Call -> CallResult -> Vault -> Prop
  | Call.claim input, CallResult.claimed envelope, v' =>
      HoldsLease input.sliceId input.workerAgentId envelope v'
  | Call.update input, CallResult.mutated result, v' =>
      Answered v v' input result
  | _, _, _ => True

theorem safe_call (c : Call) (clock : Clock) :
    Safe host (c.program host clock) (Returns (CallPost v c)) v := by
  cases c with
  | synchronize actor =>
      exact safe_then (safe_synchronizeExpiredClaims actor clock)
        fun _ _ _ => returns_ok True.intro
  | assign input =>
      exact safe_then (safe_assignSlice input clock)
        fun _ _ _ => returns_ok True.intro
  | claim input =>
      exact safe_then (safe_claimSlice input clock)
        fun _ _ h => returns_ok h
  | update input =>
      exact safe_then (safe_applyClaimedSlice input clock)
        fun _ _ h => returns_ok h
  | drain =>
      exact safe_then (safe_drainOneQueuedWorkerWrite clock)
        fun _ _ _ => returns_ok True.intro
  | accept input ticketId applyNow =>
      exact safe_then
        (safe_enqueueAcceptedWorkerWrite input ticketId applyNow clock)
        fun _ _ _ => returns_ok True.intro
  | orchestrate input =>
      exact safe_then (safe_threadUpdate input clock)
        fun _ _ _ => returns_ok True.intro
  | scar entry =>
      exact safe_then (safe_threadScar entry clock)
        fun _ _ _ => returns_ok True.intro
  | replan input =>
      exact safe_then (safe_threadReplan input clock)
        fun _ _ _ => returns_ok True.intro
  | restore rev =>
      exact safe_then (safe_threadRestore rev clock)
        fun _ _ _ => returns_ok True.intro

end Thread
end Minni
