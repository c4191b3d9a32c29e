import Minni.Thread.StartGate

/-!
# Refusals of the start gate

A worker's update that is refused for want of a start has looked at the slice
in the very state in which the call ends.  With the invariant of the starts,
what it saw there is the truth.
-/

namespace Minni
namespace Thread

open Foundation

/-- What a refusal has seen of the slice. -/
def LooksUnstarted (v : Vault) (sliceId : String) : Prop :=
  exists slice, HasSlice v.note slice ∧ slice.id = sliceId ∧
    (startedAt v.landed slice = false ∨
      slice.status = PlanSliceStatus.pending ∨
      landedStart v.landed slice.id = false)

/-- The result of an update that works on the slice. -/
structure StartJudged {α : Type} (sliceId : String) (P : α -> Vault -> Prop)
    (r : Except ThreadError α) (v' : Vault) : Prop where
  returns : Returns P r v'
  refuses : forall e, r = Except.error e -> isStartRefusal e = true ->
    LooksUnstarted v' sliceId

/-- Under the condition, the program refuses for want of a start only where
the slice looks like that. -/
abbrev Judges {α : Type} (host : Host) (sliceId : String) (p : Act α)
    (P : α -> Vault -> Prop) (v : Vault) : Prop :=
  Program.Guarded vaultInterface (KeepsStarts host) (fun _ _ => True) p
    (StartJudged sliceId P) v

variable {host : Host} {v : Vault} {sliceId : String} {α β : Type}

theorem judged_ok
    {P : α -> Vault -> Prop} {a : α} (h : P a v) :
    StartJudged sliceId P (Except.ok a) v := by
  refine ⟨returns_ok h, ?_⟩
  intro e he
  cases he

theorem judged_error
    {P : α -> Vault -> Prop} {e : ThreadError} (h : NoRefusal e) :
    StartJudged sliceId P (Except.error e : Except ThreadError α) v := by
  refine ⟨returns_error P e, ?_⟩
  intro other hother hrefusal
  cases hother
  rw [h] at hrefusal
  cases hrefusal

theorem judged_refusal
    {P : α -> Vault -> Prop} {e : ThreadError}
    (h : LooksUnstarted v sliceId) :
    StartJudged sliceId P (Except.error e : Except ThreadError α) v :=
  ⟨returns_error P e, fun _ _ _ => h⟩

theorem judges_then
    {p : Act α} {f : α -> Act β} {P : α -> Vault -> Prop}
    {R : β -> Vault -> Prop}
    (h : Judges host sliceId p P v)
    (hnext : forall a s, P a s -> Judges host sliceId (f a) R s) :
    Judges host sliceId (p >>= f) R v := by
  refine Program.guarded_seq h ?_ ?_
  · intro a s ha
    exact hnext a s (ha.returns a rfl)
  · intro e s he
    refine ⟨returns_error R e, ?_⟩
    intro other hother hrefusal
    cases hother
    exact he.refuses e rfl hrefusal

/-- A part of the update that never refuses for want of a start. -/
theorem judges_of_quiet
    {p : Act α} {P : α -> Vault -> Prop}
    (h : Safe host p (Returns P) v) (hquiet : Quiet p) :
    Judges host sliceId p P v := by
  have hboth := Program.guarded_and h (hquiet v)
  have hassumed := Program.guarded_assume (B := KeepsStarts host)
    (fun _ _ _ => True.intro) hboth
  have hguarded := Program.guarded_guarantee (H := fun _ _ => True)
    (fun _ _ _ => True.intro) hassumed
  refine Program.guarded_mono hguarded ?_
  rintro r s ⟨hreturns, hfails⟩
  refine ⟨hreturns, ?_⟩
  intro e he hrefusal
  have hno : isStartRefusal e = false := hfails e he
  rw [hno] at hrefusal
  cases hrefusal

theorem judges_quiet
    {p : Act α} (hquiet : Quiet p) :
    Judges host sliceId p (fun _ _ => True) v := by
  have hassumed := Program.guarded_assume (B := KeepsStarts host)
    (fun _ _ _ => True.intro) (hquiet v)
  refine Program.guarded_mono hassumed ?_
  intro r s hfails
  refine ⟨fun _ _ => True.intro, ?_⟩
  intro e he hrefusal
  have hno : isStartRefusal e = false := hfails e he
  rw [hno] at hrefusal
  cases hrefusal

theorem judges_throw
    {P : α -> Vault -> Prop} {e : ThreadError} (h : NoRefusal e) :
    Judges host sliceId (Act.throw e : Act α) P v :=
  judged_error h

/-!
## The gate
-/

/-- What the gate may rely on when it has looked for the stamp. -/
def GateSees (v : Vault) (queued : List QueuedWorkerWrite) (stamp : Bool)
    (slice : ThreadSlice) : Prop :=
  JournalTells v slice ∧
    (startedAt v.landed slice = true ->
      queued.any (isStartTicketFor slice) = false ∧ stamp = false)

theorem judges_readWorkerUpdateReceipt
    {id : ReceiptId} {claimId : Option ClaimId} :
    Judges host sliceId (readWorkerUpdateReceipt id claimId)
      (fun stored v' => v' = v ∧ stored = receiptAt v id ∧
        KeepsStarts host (VaultOp.readReceipt id) v) v := by
  refine judges_then
    (P := fun stored v' => v' = v ∧ stored = receiptAt v id ∧
      KeepsStarts host (VaultOp.readReceipt id) v) ?_ ?_
  · intro hA
    refine ⟨True.intro, ?_⟩
    intro x
    cases x with
    | done =>
        exact judged_ok ⟨rfl, rfl, hA⟩
    | failed =>
        exact judged_error (by decide)
    | landed =>
        exact judged_error (by decide)
  · rintro stored s ⟨rfl, rfl, hA⟩
    cases hstored : receiptAt s id with
    | none =>
        exact judged_ok ⟨rfl, rfl, hA⟩
    | some receipt =>
        refine judges_then (P := fun _ v' => v' = s) ?_ ?_
        · exact judges_of_quiet (safe_require fun _ => rfl)
            (quiet_require _ (by decide))
        · rintro ⟨⟩ s' rfl
          exact judged_ok ⟨rfl, rfl, hA⟩

theorem quiet_listQueuedWorkerWrites :
    Quiet (listQueuedWorkerWrites host) :=
  quiet_bind (quiet_perform _) fun _ => quiet_pure _

theorem safe_listedWrites :
    Safe host (listQueuedWorkerWrites host)
      (Returns fun items v' => v' = v ∧ items = inQueueOrder host v.queue)
      v := by
  refine safe_then
    (P := fun items v' => v' = v ∧ items = v.queue)
    (safe_read True.intro rfl (returns_ok ⟨rfl, rfl⟩) (returns_error _ _)) ?_
  rintro items s ⟨rfl, rfl⟩
  exact returns_ok ⟨rfl, rfl⟩

theorem any_inQueueOrder
    (items : List QueuedWorkerWrite) (p : QueuedWorkerWrite -> Bool) :
    (inQueueOrder host items).any p = items.any p := by
  have hperm := List.perm_insertionSort
    (fun a b : QueuedWorkerWrite =>
      (decide (a.enqueuedAt < b.enqueuedAt) ||
        (decide (a.enqueuedAt = b.enqueuedAt) &&
          host.localeLe a.ticketId b.ticketId)) = true) items
  exact hperm.any_eq

theorem judges_gate
    {workerAgentId : String} {slice : ThreadSlice} {claim : ThreadClaimRef}
    (hslice : HasSlice v.note slice) (hid : slice.id = sliceId)
    (hclaim : slice.claim = some claim) :
    Judges host sliceId
      (requireJournaledStartBeforeComplete host v.note.plan_id workerAgentId
        slice v.journal)
      (fun _ v' => v' = v) v := by
  unfold requireJournaledStartBeforeComplete
  split
  · exact judged_ok rfl
  · rename_i hprogress
    refine judges_then
      (judges_of_quiet safe_listedWrites quiet_listQueuedWorkerWrites) ?_
    rintro queued s ⟨rfl, rfl⟩
    have hstamp : Judges host sliceId
        (hasAcceptedStartStamp host s.note.plan_id workerAgentId slice)
        (fun stamp v' => v' = s ∧
          GateSees s (inQueueOrder host s.queue) stamp slice) s := by
      unfold hasAcceptedStartStamp
      rw [hclaim]
      refine judges_then judges_readWorkerUpdateReceipt ?_
      rintro stored s' ⟨rfl, rfl, hA⟩
      have hkeeps := hA slice (mem_of_hasSlice hslice) claim
        (by rw [hclaim]; rfl) rfl
      refine judged_ok ⟨rfl, hkeeps.1, ?_⟩
      intro hstarted
      rcases hkeeps.2 hstarted with ⟨hqueue, hnoStamp⟩
      rw [any_inQueueOrder]
      exact ⟨hqueue, hnoStamp⟩
    refine judges_then hstamp ?_
    rintro stamp s' ⟨rfl, htells, hleft⟩
    have hjudged : forall condition e, (condition = false ->
        LooksUnstarted s' sliceId) ->
        Judges host sliceId (Program.require condition e)
          (fun _ v' => v' = s') s' := by
      intro condition e hlooks
      exact Program.guarded_require (fun _ => judged_ok rfl)
        fun hfalse => judged_refusal (hlooks hfalse)
    refine judges_then (hjudged _ _ ?_) ?_
    · intro hfound
      refine ⟨slice, hslice, hid, Or.inl ?_⟩
      cases hstarted : startedAt s'.landed slice with
      | false =>
          rfl
      | true =>
          rcases hleft hstarted with ⟨hqueue, hnoStamp⟩
          rw [hqueue, hnoStamp] at hfound
          cases hfound
    · rintro ⟨⟩ w rfl
      refine judges_then (hjudged _ _ ?_) ?_
      · intro hpending
        refine ⟨slice, hslice, hid, Or.inr (Or.inl ?_)⟩
        simpa using hpending
      · rintro ⟨⟩ w' rfl
        apply hjudged
        intro hjournaled
        refine ⟨slice, hslice, hid, Or.inr (Or.inr ?_)⟩
        rw [← htells hprogress]
        exact hjournaled

/-!
## The update
-/

theorem judges_applyAuthorized
    {input : UpdateClaimedSliceInput} {clock : Clock} :
    Judges host input.sliceId
      (applyAuthorized host input clock v.note v.journal)
      (fun _ _ => True) v := by
  refine judges_then
    (judges_of_quiet (safe_findSlice v.note input.sliceId)
      (quiet_findSlice _ _)) ?_
  rintro slice s ⟨rfl, hslice, hid⟩
  refine judges_then
    (judges_of_quiet (safe_authorizeWorker hslice hid)
      (quiet_authorizeWorker _ _ _)) ?_
  rintro claim s' ⟨rfl, envelope, hauth⟩
  refine judges_then (P := fun _ v' => v' = s') ?_ ?_
  · unfold passStartGate
    split
    · exact judges_gate hslice hid hauth.claimed
    · exact judged_ok rfl
  · intro _ w _
    exact judges_quiet (quiet_persistWorkerAction _ _ _ _ _ _ _)

theorem judges_replayOrApply
    {input : UpdateClaimedSliceInput} {clock : Clock}
    {existing : Option WorkerUpdateReceiptEnvelope} :
    Judges host input.sliceId
      (replayOrApply host input clock v.note existing v.journal)
      (fun _ _ => True) v := by
  cases existing with
  | none =>
      exact judges_applyAuthorized
  | some receipt =>
      change Judges host input.sliceId
        (if looksCommitted v.note input.sliceId receipt then _ else _) _ v
      split
      · exact judges_quiet
          (quiet_bind (quiet_perform _) fun _ => quiet_pure _)
      · exact judges_applyAuthorized

theorem judges_sweepAndApply
    {input : UpdateClaimedSliceInput} {clock : Clock}
    {receiptSlice : ThreadSlice}
    {existing : Option WorkerUpdateReceiptEnvelope} :
    Judges host input.sliceId
      (sweepAndApply host input clock v.note receiptSlice existing)
      (fun _ _ => True) v := by
  refine judges_then
    (judges_of_quiet (safe_prepared input.workerAgentId v.note clock.now)
      (quiet_prepareThreadMutation _ _ _ _)) ?_
  rintro ordered s ⟨hs, rfl⟩
  have hnote : v.note = s.note := (journalOnly_note hs).symm
  rw [hnote]
  refine judges_then
    (judges_of_quiet (safe_sweep input.workerAgentId clock)
      (quiet_sweep _ _ _ _ _ _)) ?_
  rintro ⟨plan, ordered⟩ s' ⟨hplan, hordered, _⟩
  simp only at hplan hordered ⊢
  rw [hplan, hordered]
  refine judges_then
    (judges_of_quiet (safe_findSlice s'.note input.sliceId)
      (quiet_findSlice _ _)) ?_
  rintro slice w ⟨rfl, _⟩
  refine judges_then
    (judges_of_quiet (safe_require (R := fun _ v' => v' = w) fun _ => rfl)
      (quiet_require _ (by decide))) ?_
  rintro ⟨⟩ w' rfl
  exact judges_replayOrApply

theorem judges_applyClaimedSlice
    (input : UpdateClaimedSliceInput) (clock : Clock) :
    Judges host input.sliceId (applyClaimedSlice host input clock)
      (fun _ _ => True) v := by
  refine judges_then
    (judges_of_quiet safe_theNote (quiet_perform _)) ?_
  rintro plan s ⟨rfl, rfl⟩
  refine judges_then
    (P := fun _ v' => v' = s)
    (judges_of_quiet
      (safe_read True.intro rfl (returns_ok rfl) (returns_error _ _))
      (quiet_perform _)) ?_
  rintro reserved s' rfl
  refine judges_then
    (judges_of_quiet (safe_require (R := fun _ v' => v' = s') fun _ => rfl)
      (quiet_require _ (by decide))) ?_
  rintro ⟨⟩ w rfl
  refine judges_then
    (judges_of_quiet (safe_findSlice w.note input.sliceId)
      (quiet_findSlice _ _)) ?_
  rintro receiptSlice w' ⟨rfl, hslice, hid⟩
  refine judges_then
    (judges_of_quiet (safe_loadWorkerUpdateReceipt _ _ _)
      (quiet_loadWorkerUpdateReceipt _ _ _)) ?_
  rintro existing x ⟨rfl, _⟩
  cases existing with
  | none =>
      exact judges_sweepAndApply
  | some receipt =>
      simp only
      split
      · split
        · exact judges_quiet
            (quiet_bind (quiet_prepareThreadMutation _ _ _ _)
              fun _ => quiet_pure _)
        · exact judges_throw (by decide)
      · exact judges_sweepAndApply

theorem judges_drainOne
    {clock : Clock} {item : QueuedWorkerWrite}
    (hitem : pickNextQueuedWorkerWrite (inQueueOrder host v.queue) =
      some item) :
    Judges host item.sliceId (drainOneQueuedWorkerWrite host clock)
      (fun _ _ => True) v := by
  refine judges_then
    (judges_of_quiet safe_listedWrites quiet_listQueuedWorkerWrites) ?_
  rintro items s ⟨rfl, rfl⟩
  rw [hitem]
  refine judges_then
    (P := fun _ v' => v' = s)
    (judges_of_quiet
      (safe_read True.intro rfl (returns_ok rfl) (returns_error _ _))
      (quiet_perform _)) ?_
  rintro reserved s' rfl
  split
  · exact judged_ok True.intro
  · refine judges_then
      (judges_of_quiet safe_theNote (quiet_perform _)) ?_
    rintro plan w ⟨rfl, rfl⟩
    split
    · refine judges_then
        (judges_of_quiet (safe_claimTokenFromExistingStore _ _)
          (quiet_claimTokenFromExistingStore _ _)) ?_
      rintro token x rfl
      refine judges_then (judges_applyClaimedSlice _ _) ?_
      intro _ x' _
      exact judges_quiet
        (quiet_bind (quiet_bestEffort (quiet_perform _)) fun _ =>
          quiet_bind quiet_listQueuedWorkerWrites fun _ => quiet_pure _)
    · refine judges_quiet
        (quiet_bind (quiet_bestEffort (quiet_perform _)) fun _ =>
          quiet_bind ?_ fun _ =>
            quiet_bind quiet_listQueuedWorkerWrites fun _ => quiet_pure _)
      unfold pruneTicketGeneration
      split
      · exact quiet_pure _
      · exact quiet_prune _ _

theorem judges_call
    {c : Call} {clock : Clock} (h : worksOn host v c = some sliceId) :
    Judges host sliceId (c.program host clock) (fun _ _ => True) v := by
  cases c with
  | update input =>
      cases h
      refine judges_then (judges_applyClaimedSlice input clock) ?_
      intro _ s _
      exact judged_ok True.intro
  | drain =>
      rcases Option.map_eq_some_iff.mp h with ⟨item, hitem, rfl⟩
      refine judges_then (judges_drainOne hitem) ?_
      intro _ s _
      exact judged_ok True.intro
  | synchronize actor =>
      cases h
  | assign input =>
      cases h
  | claim input =>
      cases h
  | accept input ticketId applyNow =>
      cases h
  | orchestrate input =>
      cases h
  | scar entry =>
      cases h
  | replan input =>
      cases h
  | restore rev =>
      cases h

/-!
## The law
-/

theorem notStarted_of_looks
    (hkept : StartsKept v.note v.landed) (h : LooksUnstarted v sliceId) :
    NotStarted v sliceId := by
  rcases h with ⟨slice, hslice, hid, hlooks⟩
  have hmem := mem_of_hasSlice hslice
  refine ⟨slice, hslice, hid, ?_⟩
  rcases hlooks with hfalse | hpending | hscan
  · exact hfalse
  · exact hkept.pending slice hmem hpending
  · rw [← hkept.scanned slice hmem]
    exact hscan

theorem startsKept_newVault
    {input : CreatePlanInput} {created updated : String} {note : ThreadPlan}
    (hcreate : createPlan host input created updated = Except.ok note) :
    StartsKept (newVault note).note (newVault note).landed := by
  refine ⟨claimsSound_createPlan hcreate, ?_, ?_, fun _ _ _ => rfl,
    fun _ _ => rfl, True.intro⟩
  · intro at_ hat
    cases hat
  · intro t ht hprogress
    rw [(createPlan_free hcreate ht).2.1] at hprogress
    cases hprogress

/-- In a run whose writes and gates meet the condition, a completion passes
only after a start in its own generation, and is refused for want of a start
only where there was none. -/
theorem start_gate_right
    {host : Host} {input : CreatePlanInput} {created updated : String}
    {note : ThreadPlan} {events : List Event}
    (hcreate : createPlan host input created updated = Except.ok note)
    (hmeets : RunMeets host (KeepsStarts host) (newVault note) events) :
    StartGateRight host note events := by
  have hnew := startsKept_newVault hcreate
  constructor
  · exact (run_invariant (starts_invariant host) hmeets hnew).completed
  · intro first c clock outcomes rest sliceId hevents hrefused
    have hsplit : events =
        (first ++ [Event.call c clock outcomes]) ++ rest := by
      rw [hevents, List.append_assoc]
      rfl
    rw [hsplit] at hmeets
    have hupTo := (runMeets_append.mp hmeets).1
    have hkept := run_invariant (starts_invariant host) hupTo hnew
    apply notStarted_of_looks hkept
    have hcall := (runMeets_append.mp hupTo).2.1
    rcases hrefused.refused with ⟨e, hresult, hrefusal⟩
    have hjudges := @judges_call host (runEvents host (newVault note) first)
      sliceId c clock hrefused.target
    have hjudged := Program.guarded_result hjudges hcall hresult
    rw [runEvents_append]
    exact hjudged.refuses e rfl hrefusal

def completeBy (workerAgentId sliceId : String) (token : Nat)
    (idempotencyKey : String) : Call :=
  Call.update
    { sliceId := sliceId
      workerAgentId := workerAgentId
      token := token
      idempotencyKey := idempotencyKey
      action := WorkerUpdateAction.complete "all tests pass, see test.log" }

theorem start_gate_right_progressed :
    StartGateRight plainHost plainPlan
      [doneAt 1 (assignTo "w" "a"), doneAt 2 (claimBy "w" "a" "k"),
        doneAt 3 (progressBy "w" "a" 0 "p"),
        doneAt 4 (completeBy "w" "a" 0 "c")] :=
  @start_gate_right plainHost plainInput "now" "now" plainPlan _
    createPlan_plain (by decide +kernel)

/-- The lease runs out after the progress, and the slice stays in progress in
the next generation. -/
def completedUnstarted : List Event :=
  [doneAt 1 (assignTo "w" "a"), doneAt 2 (claimBy "w" "a" "k"),
    doneAt 3 (progressBy "w" "a" 0 "p"),
    doneAt 700000 (claimBy "w" "a" "l"),
    doneAt 700001 (completeBy "w" "a" 1 "c")]

theorem not_startGateRight
    {events : List Event} {note : ThreadPlan}
    (h : ¬ CompletedAfterStart
      (runEvents host (newVault note) events).landed) :
    ¬ StartGateRight host note events :=
  fun hright => h hright.passes

theorem start_gate_wrong :
    ¬ forall (host : Host) (input : CreatePlanInput) (created updated : String)
        (note : ThreadPlan) (events : List Event),
        createPlan host input created updated = Except.ok note ->
          StartGateRight host note events := by
  intro h
  have hright := h plainHost plainInput "now" "now" plainPlan completedUnstarted
    createPlan_plain
  exact not_startGateRight (by decide +kernel) hright

end Thread
end Minni
