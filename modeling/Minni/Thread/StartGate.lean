import Minni.Thread.Fencing
import Minni.Thread.Refusals

/-!
# The start gate

A completion should pass exactly when a start or a progress of the slice has
been applied in its present generation.  The code decides this from the status
of the slice, the queued start tickets, the stamp of an accepted start, and the
events of the journal.  None of them is tied to the generation: the status
outlives an expiry, the journal scan an orchestrator update, the stamp the
start that it stands for.

The condition of this file lists the steps by which the four sources part from
the truth.  In a run without such a step the gate is right in both directions.
-/

namespace Minni
namespace Thread

open Foundation

/-- The slice and the generation in which a start or a progress was applied. -/
def startOf : Cause -> Option (String × Nat)
  | Cause.worker input generation =>
      match input.action with
      | WorkerUpdateAction.start => some (input.sliceId, generation)
      | WorkerUpdateAction.progress _ => some (input.sliceId, generation)
      | _ => none
  | _ => none

def completionOf : Cause -> Option (String × Nat)
  | Cause.worker input generation =>
      if isComplete input.action then some (input.sliceId, generation)
      else none
  | _ => none

def starts (landed : List Landed) : List (String × Nat) :=
  landed.filterMap fun entry => startOf entry.cause

/-- The truth that the gate is after. -/
def startedAt (landed : List Landed) (slice : ThreadSlice) : Bool :=
  decide ((slice.id, slice.requireGeneration) ∈ starts landed)

/-- Every completion that was applied had a start in its own generation; the
last revision comes first. -/
def CompletedAfterStart : List Landed -> Prop
  | [] => True
  | entry :: earlier =>
      (forall at_, at_ ∈ completionOf entry.cause -> at_ ∈ starts earlier) ∧
        CompletedAfterStart earlier

instance decidableCompletedAfterStart :
    (landed : List Landed) -> Decidable (CompletedAfterStart landed)
  | [] => isTrue True.intro
  | entry :: earlier =>
      have := decidableCompletedAfterStart earlier
      inferInstanceAs
        (Decidable
          ((forall at_, at_ ∈ completionOf entry.cause ->
              at_ ∈ starts earlier) ∧
            CompletedAfterStart earlier))

/-- The slice that a call may complete. -/
def worksOn (host : Host) (v : Vault) : Call -> Option String
  | Call.update input => some input.sliceId
  | Call.drain =>
      (pickNextQueuedWorkerWrite (inQueueOrder host v.queue)).map (·.sliceId)
  | _ => none

/-- The slice has not been started in its generation. -/
def NotStarted (v : Vault) (sliceId : String) : Prop :=
  exists slice, HasSlice v.note slice ∧ slice.id = sliceId ∧
    startedAt v.landed slice = false

/-- A call of the run that was refused for want of a start. -/
structure RefusedIn (host : Host) (v : Vault) (first : List Event) (c : Call)
    (clock : Clock) (outcomes : List Outcome) (sliceId : String) : Prop where
  target : worksOn host (runEvents host v first) c = some sliceId
  refused : exists e, ((c.program host clock).run vaultInterface outcomes
    (runEvents host v first)).1 = some (Except.error e) ∧
      isStartRefusal e = true

/-- The law of the gate, for the runs of a note. -/
structure StartGateRight (host : Host) (note : ThreadPlan)
    (events : List Event) : Prop where
  passes : CompletedAfterStart (runEvents host (newVault note) events).landed
  refuses : forall first c clock outcomes rest sliceId,
    events = first ++ Event.call c clock outcomes :: rest ->
    RefusedIn host (newVault note) first c clock outcomes sliceId ->
    NotStarted
      (runEvents host (newVault note)
        (first ++ [Event.call c clock outcomes]))
      sliceId

/-!
## The condition on the steps of a run
-/

/-- The causes whose events make the journal scan forget a start. -/
def forgets (cause : Cause) (sliceId : String) : Bool :=
  match cause with
  | Cause.assign assigned _ _ => decide (assigned = sliceId)
  | Cause.expire expired _ => decide (expired = sliceId)
  | _ => false

def startsOn (cause : Cause) (sliceId : String) : Bool :=
  (startOf cause).any fun at_ => decide (at_.1 = sliceId)

/-- The journal scan, on the revisions themselves. -/
def landedStart (landed : List Landed) (sliceId : String) : Bool :=
  landed.foldr
    (fun entry started =>
      if forgets entry.cause sliceId then false
      else if startsOn entry.cause sliceId then true
      else started)
    false

/-- The slice is in progress only by a start: no other write puts it there, or
carries it there into another generation. -/
def ProgressStarted (v : Vault) (cause : Cause) (t : ThreadSlice) : Prop :=
  t.status = PlanSliceStatus.in_progress -> startsOn cause t.id = false ->
    startedAt v.landed t = true ∨
      exists s, s ∈ v.note.slices ∧ s.id = t.id ∧
        s.status = PlanSliceStatus.in_progress ∧
        s.requireGeneration = t.requireGeneration

/-- A slice with a start on record keeps its generation, unless it is assigned
or expires. -/
def StartsForgotten (v : Vault) (cause : Cause) (t : ThreadSlice) : Prop :=
  landedStart v.landed t.id = true -> forgets cause t.id = false ->
    exists s, s ∈ v.note.slices ∧ s.id = t.id ∧
      s.requireGeneration = t.requireGeneration

/-- A slice comes back above the generations in which it was started. -/
def ReturnsUnstarted (v : Vault) (t : ThreadSlice) : Prop :=
  t.id ∉ v.note.slices.map (·.id) ->
    forall at_, at_ ∈ starts v.landed -> at_.1 = t.id ->
      at_.2 < t.requireGeneration

structure WriteKeepsStarts (v : Vault) (cause : Cause) (t : ThreadSlice) :
    Prop where
  progress : ProgressStarted v cause t
  pending : t.status = PlanSliceStatus.pending -> startedAt v.landed t = false
  forgotten : StartsForgotten v cause t
  returns : ReturnsUnstarted v t

/-- The journal has the starts, assignments and expiries of the slice. -/
def JournalTells (v : Vault) (s : ThreadSlice) : Prop :=
  s.status ≠ PlanSliceStatus.in_progress ->
    hasJournaledStartForCurrentGeneration v.journal s.id =
      landedStart v.landed s.id

/-- No ticket and no stamp of a start that has been applied is left over. -/
def NothingLeftOver (v : Vault) (id : ReceiptId) (s : ThreadSlice) : Prop :=
  startedAt v.landed s = true ->
    v.queue.any (isStartTicketFor s) = false ∧
      (receiptAt v id).any (isAcceptedStartStamp s) = false

def KeepsStarts (host : Host) : VaultOp -> Vault -> Prop
  | VaultOp.writeNote plan cause _, v =>
      (forall t, t ∈ plan.slices -> WriteKeepsStarts v cause t) ∧
        forall at_, at_ ∈ completionOf cause ->
          forall s, s ∈ v.note.slices -> s.id = at_.1 -> JournalTells v s
  | VaultOp.readReceipt id, v =>
      -- the gate looks for the stamp of the slice's claim
      forall s, s ∈ v.note.slices -> forall claim, claim ∈ s.claim ->
        id = startAcceptedReceiptId host v.note.plan_id id.worker_agent_id s
          claim.claim_id ->
        JournalTells v s ∧ NothingLeftOver v id s
  | _, _ => True

instance (v : Vault) (cause : Cause) (t : ThreadSlice) :
    Decidable (ProgressStarted v cause t) :=
  inferInstanceAs (Decidable (_ -> _ -> _))

instance (v : Vault) (cause : Cause) (t : ThreadSlice) :
    Decidable (StartsForgotten v cause t) :=
  inferInstanceAs (Decidable (_ -> _ -> _))

instance (v : Vault) (t : ThreadSlice) : Decidable (ReturnsUnstarted v t) :=
  inferInstanceAs (Decidable (_ -> forall _, _ -> _))

instance (v : Vault) (cause : Cause) (t : ThreadSlice) :
    Decidable (WriteKeepsStarts v cause t) :=
  decidable_of_iff
    (ProgressStarted v cause t ∧
      (t.status = PlanSliceStatus.pending ->
        startedAt v.landed t = false) ∧
      StartsForgotten v cause t ∧ ReturnsUnstarted v t)
    ⟨fun h => ⟨h.1, h.2.1, h.2.2.1, h.2.2.2⟩,
      fun h => ⟨h.progress, h.pending, h.forgotten, h.returns⟩⟩

instance (v : Vault) (s : ThreadSlice) : Decidable (JournalTells v s) :=
  inferInstanceAs (Decidable (_ -> _))

instance (v : Vault) (id : ReceiptId) (s : ThreadSlice) :
    Decidable (NothingLeftOver v id s) :=
  inferInstanceAs (Decidable (_ -> _))

instance (host : Host) (o : VaultOp) (v : Vault) :
    Decidable (KeepsStarts host o v) :=
  match o with
  | VaultOp.writeNote plan cause _ =>
      inferInstanceAs (Decidable (
        (forall t, t ∈ plan.slices -> WriteKeepsStarts v cause t) ∧
          forall at_, at_ ∈ completionOf cause ->
            forall s, s ∈ v.note.slices -> s.id = at_.1 -> JournalTells v s))
  | VaultOp.readReceipt id =>
      inferInstanceAs (Decidable (
        forall s, s ∈ v.note.slices -> forall claim, claim ∈ s.claim ->
          id = startAcceptedReceiptId host v.note.plan_id id.worker_agent_id s
            claim.claim_id ->
          JournalTells v s ∧ NothingLeftOver v id s))
  | VaultOp.readNote | VaultOp.readHistory | VaultOp.appendHistory _
  | VaultOp.readJournal | VaultOp.appendJournal _
  | VaultOp.appendLegacyLine | VaultOp.readSecret _
  | VaultOp.createSecret _ _ _ _ | VaultOp.unlinkSecret _
  | VaultOp.writeReceipt _ | VaultOp.listReceipts _ _
  | VaultOp.unlinkReceipt _ | VaultOp.readQueue | VaultOp.writeTicket _
  | VaultOp.removeTicket _ | VaultOp.reservationIsLive =>
      isTrue True.intro

/-!
## The invariant
-/

structure StartsKept (note : ThreadPlan) (landed : List Landed) : Prop where
  sound : ClaimsSound note
  below : forall at_, at_ ∈ starts landed -> forall t, t ∈ note.slices ->
    t.id = at_.1 ->
    at_.2 < t.requireGeneration ∨
      at_.2 = t.requireGeneration ∧ t.assigned_to.isSome = true
  progress : forall t, t ∈ note.slices ->
    t.status = PlanSliceStatus.in_progress -> startedAt landed t = true
  pending : forall t, t ∈ note.slices ->
    t.status = PlanSliceStatus.pending -> startedAt landed t = false
  scanned : forall t, t ∈ note.slices ->
    landedStart landed t.id = startedAt landed t
  completed : CompletedAfterStart landed

variable {host : Host} {v v' : Vault} {plan : ThreadPlan} {now : Nat}
  {cause : Cause}

theorem startedAt_of_mem
    {landed : List Landed} {t : ThreadSlice}
    (h : (t.id, t.requireGeneration) ∈ starts landed) :
    startedAt landed t = true :=
  decide_eq_true h

theorem mem_of_startedAt
    {landed : List Landed} {t : ThreadSlice}
    (h : startedAt landed t = true) :
    (t.id, t.requireGeneration) ∈ starts landed :=
  of_decide_eq_true h

theorem starts_cons (entry : Landed) (landed : List Landed) :
    starts (entry :: landed) =
      (startOf entry.cause).toList ++ starts landed := by
  unfold starts
  rw [List.filterMap_cons]
  cases startOf entry.cause with
  | none =>
      rfl
  | some at_ =>
      rfl

theorem mem_starts_cons
    {entry : Landed} {landed : List Landed} {at_ : String × Nat}
    (h : at_ ∈ starts (entry :: landed)) :
    startOf entry.cause = some at_ ∨ at_ ∈ starts landed := by
  rw [starts_cons] at h
  rcases List.mem_append.mp h with h | h
  · exact Or.inl (Option.mem_toList.mp h)
  · exact Or.inr h

theorem mem_starts_of_tail
    {entry : Landed} {landed : List Landed} {at_ : String × Nat}
    (h : at_ ∈ starts landed) : at_ ∈ starts (entry :: landed) := by
  rw [starts_cons]
  exact List.mem_append_right _ h

/-- What a start does: its slice was there at that generation, and it is now in
progress there, in the hands of the worker. -/
structure StartStep (v : Vault) (plan : ThreadPlan) (at_ : String × Nat) :
    Prop where
  before : exists s, s ∈ v.note.slices ∧ s.id = at_.1 ∧
    s.requireGeneration = at_.2 ∧ s.claim.isSome = true
  after : exists t, HasSlice plan t ∧ t.id = at_.1 ∧
    t.requireGeneration = at_.2 ∧ t.status = PlanSliceStatus.in_progress

theorem workerEffect_start
    {input : UpdateClaimedSliceInput} {generation : Nat} {at_ : String × Nat}
    {s t : ThreadSlice}
    (hstart : startOf (Cause.worker input generation) = some at_)
    (h : WorkerEffect input.action s t) :
    at_ = (input.sliceId, generation) ∧
      t.status = PlanSliceStatus.in_progress := by
  unfold startOf at hstart
  simp only at hstart
  cases haction : input.action with
  | start =>
      rw [haction] at hstart h
      cases hstart
      rw [h]
      exact ⟨rfl, rfl⟩
  | progress evidence =>
      rw [haction] at hstart h
      cases hstart
      rw [h]
      exact ⟨rfl, rfl⟩
  | block evidence =>
      rw [haction] at hstart
      cases hstart
  | scar kind signal resolution =>
      rw [haction] at hstart
      cases hstart
  | propose_structure proposal =>
      rw [haction] at hstart
      cases hstart
  | complete evidence =>
      rw [haction] at hstart
      cases hstart

theorem startStep_of_startOf
    {at_ : String × Nat}
    (h : NoteStep host v plan now cause) (hstart : startOf cause = some at_) :
    StartStep v plan at_ := by
  cases cause with
  | worker input generation =>
      rcases h with ⟨slice, claim, envelope, wall, applied, receipt, hauth,
        rfl, happlied, hplan, _⟩
      rcases applyWorkerAction_spec happlied with ⟨_, _, f, hslices, heffect⟩
      rcases workerEffect_start hstart (heffect slice) with ⟨rfl, hstatus⟩
      have hkeeps := fun s => workerEffect_keeps (heffect s)
      have hfound : HasSlice plan (f slice) := by
        apply hasSlice_replaceById hauth.present _ fun s => (hkeeps s).1
        rw [persistedAs_slices hplan, hauth.named]
        exact hslices
      constructor
      · refine ⟨slice, mem_of_hasSlice hauth.present, hauth.named, rfl, ?_⟩
        rw [hauth.claimed]
        rfl
      · refine ⟨f slice, hfound, (hkeeps slice).1.trans hauth.named, ?_,
          hstatus⟩
        unfold PlanSlice.requireGeneration
        rw [(hkeeps slice).2.1]
  | expire sliceId actor =>
      cases hstart
  | assign sliceId workerAgentId actorAgentId =>
      cases hstart
  | claim sliceId workerAgentId idempotencyKey =>
      cases hstart
  | orchestrator sliceId =>
      cases hstart
  | scar =>
      cases hstart
  | replan =>
      cases hstart
  | delta =>
      cases hstart
  | restore =>
      cases hstart

/-- What is assigned or expires moves on, unless nobody had it. -/
theorem forgets_advances
    {s t : ThreadSlice}
    (h : NoteStep host v plan now cause)
    (hforgets : forgets cause t.id = true)
    (hs : s ∈ v.note.slices) (ht : t ∈ plan.slices) (hid : s.id = t.id) :
    s.requireGeneration < t.requireGeneration ∨ s.assigned_to = none := by
  cases cause with
  | expire sliceId actor =>
      rcases h with ⟨slice, hslice, hsliceId, _, _, hplan⟩
      have hexpired : sliceId = t.id := of_decide_eq_true hforgets
      have hsame : s = slice := by
        apply hasSlice_unique hslice hs
        rw [hid, hsliceId, hexpired]
      rw [← hsliceId] at hplan
      have hfound : HasSlice plan (expiredSlice slice) :=
        hasSlice_next hslice rfl hplan
      have hnext : t = expiredSlice slice := by
        apply hasSlice_unique hfound ht
        change t.id = slice.id
        rw [hsliceId, hexpired]
      left
      have hgeneration : t.requireGeneration = s.requireGeneration + 1 := by
        rw [hnext, hsame]
        rfl
      omega
  | assign sliceId workerAgentId actorAgentId =>
      rcases h with ⟨slice, profile, hslice, hsliceId, _, hplan⟩
      have hassigned : sliceId = t.id := of_decide_eq_true hforgets
      have hsame : s = slice := by
        apply hasSlice_unique hslice hs
        rw [hid, hsliceId, hassigned]
      rw [← hsliceId] at hplan
      have hfound : HasSlice plan
          (assignedSlice slice workerAgentId profile) :=
        hasSlice_next hslice rfl hplan
      have hnext : t = assignedSlice slice workerAgentId profile := by
        apply hasSlice_unique hfound ht
        change t.id = slice.id
        rw [hsliceId, hassigned]
      cases hsome : slice.assigned_to with
      | none =>
          rw [hsame]
          exact Or.inr hsome
      | some worker =>
          left
          rw [hnext, hsame, assignedSlice_generation (by rw [hsome]; rfl)]
          omega
  | claim sliceId workerAgentId idempotencyKey =>
      cases hforgets
  | worker input generation =>
      cases hforgets
  | orchestrator sliceId =>
      cases hforgets
  | scar =>
      cases hforgets
  | replan =>
      cases hforgets
  | delta =>
      cases hforgets
  | restore =>
      cases hforgets

/-!
## One step
-/

/-- What a step that meets the condition may use. -/
structure StartsStep (host : Host) (v : Vault) (plan : ThreadPlan)
    (now : Nat) (cause : Cause) : Prop where
  note : NoteStep host v plan now cause
  unique : assertUniqueSliceIds plan.slices "persistPlan" = Except.ok ()
  kept : StartsKept v.note v.landed
  writes : forall t, t ∈ plan.slices -> WriteKeepsStarts v cause t
  completions : forall at_, at_ ∈ completionOf cause ->
    forall s, s ∈ v.note.slices -> s.id = at_.1 -> JournalTells v s

theorem below_step
    (h : StartsStep host v plan now cause) {at_ : String × Nat}
    (hat : at_ ∈ starts v.landed) {t : ThreadSlice} (ht : t ∈ plan.slices)
    (hid : t.id = at_.1) :
    at_.2 < t.requireGeneration ∨
      at_.2 = t.requireGeneration ∧ t.assigned_to.isSome = true := by
  by_cases hpresent : t.id ∈ v.note.slices.map (·.id)
  · rcases List.mem_map.mp hpresent with ⟨s, hs, hsid⟩
    have hstep := continues_of_id h.note h.unique h.kept.sound hs ht hsid
    have hle := continues_generation hstep
    rcases h.kept.below at_ hat s hs (hsid.trans hid) with
      hlt | ⟨heq, hassigned⟩
    · exact Or.inl (Nat.lt_of_lt_of_le hlt hle)
    · rcases Nat.lt_or_eq_of_le hle with hlt | hsame
      · left
        omega
      · exact Or.inr ⟨heq.trans hsame, hstep.assigned hsame.symm hassigned⟩
  · exact Or.inl ((h.writes t ht).returns hpresent at_ hat hid.symm)

theorem startsOn_of_startOf
    {at_ : String × Nat} (h : startOf cause = some at_) :
    startsOn cause at_.1 = true := by
  unfold startsOn
  rw [h]
  simp

theorem startOf_of_startsOn
    {sliceId : String} (h : startsOn cause sliceId = true) :
    exists at_, startOf cause = some at_ ∧ at_.1 = sliceId := by
  unfold startsOn at h
  cases hstart : startOf cause with
  | none =>
      rw [hstart] at h
      cases h
  | some at_ =>
      rw [hstart] at h
      exact ⟨at_, rfl, of_decide_eq_true h⟩

/-- The slice that a start has acted on. -/
theorem startStep_slice
    (h : StartsStep host v plan now cause) {at_ : String × Nat}
    (hstart : startOf cause = some at_) {t : ThreadSlice}
    (ht : t ∈ plan.slices) (hid : t.id = at_.1) :
    t.requireGeneration = at_.2 ∧ t.status = PlanSliceStatus.in_progress ∧
      t.assigned_to.isSome = true := by
  rcases startStep_of_startOf h.note hstart with
    ⟨⟨s, hs, hsid, hsgeneration, hclaim⟩, u, hu, huid, hugeneration, hstatus⟩
  have hsame : t = u := hasSlice_unique hu ht (hid.trans huid.symm)
  have hstep := continues_of_id h.note h.unique h.kept.sound hs ht
    (hsid.trans hid.symm)
  rw [← hsame] at hugeneration hstatus
  refine ⟨hugeneration, hstatus, ?_⟩
  exact hstep.assigned (hugeneration.trans hsgeneration.symm)
    (h.kept.sound.assigned s hs hclaim)

/-- The truth about a slice that the step does not start. -/
theorem startedAt_cons
    {entry : Landed} {landed : List Landed} {t : ThreadSlice}
    (h : startsOn entry.cause t.id = false) :
    startedAt (entry :: landed) t = startedAt landed t := by
  unfold startedAt
  apply decide_eq_decide.mpr
  constructor
  · intro hmem
    rcases mem_starts_cons hmem with hstart | hold
    · have hon := startsOn_of_startOf hstart
      rw [h] at hon
      cases hon
    · exact hold
  · exact mem_starts_of_tail

theorem startedAt_started
    (h : StartsStep host v plan now cause) {t : ThreadSlice}
    (ht : t ∈ plan.slices) (hstarts : startsOn cause t.id = true)
    (before : ThreadPlan) :
    startedAt
      ({ cause := cause, now := now, before := before, after := plan } ::
        v.landed) t = true := by
  rcases startOf_of_startsOn hstarts with ⟨at_, hstart, hid⟩
  rcases startStep_slice h hstart ht hid.symm with ⟨hgeneration, _, _⟩
  apply startedAt_of_mem
  rw [starts_cons, hstart]
  apply List.mem_append_left
  rw [hgeneration, ← hid]
  exact List.mem_singleton.mpr rfl

/-- An assignment or an expiry leaves the slice in a generation in which it has
not been started. -/
theorem notStarted_of_forgets
    (h : StartsStep host v plan now cause) {t : ThreadSlice}
    (ht : t ∈ plan.slices) (hforgets : forgets cause t.id = true) :
    startedAt v.landed t = false := by
  cases hstarted : startedAt v.landed t with
  | false =>
      rfl
  | true =>
      exfalso
      have hmem := mem_of_startedAt hstarted
      by_cases hpresent : t.id ∈ v.note.slices.map (·.id)
      · rcases List.mem_map.mp hpresent with ⟨s, hs, hsid⟩
        have hbelow := h.kept.below _ hmem s hs hsid
        simp only at hbelow
        have hle := continues_generation
          (continues_of_id h.note h.unique h.kept.sound hs ht hsid)
        rcases forgets_advances h.note hforgets hs ht hsid with hlt | hnone
        · omega
        · rcases hbelow with hlt | ⟨_, hassigned⟩
          · omega
          · rw [hnone] at hassigned
            cases hassigned
      · have hlt := (h.writes t ht).returns hpresent _ hmem rfl
        exact absurd hlt (Nat.lt_irrefl _)

theorem forgets_startsOn
    {sliceId : String} (h : forgets cause sliceId = true) :
    startsOn cause sliceId = false := by
  cases cause with
  | worker input generation =>
      cases h
  | _ =>
      rfl

/-- A slice that the step neither starts nor forgets is judged as before. -/
theorem scanned_unchanged
    (h : StartsStep host v plan now cause) {t : ThreadSlice}
    (ht : t ∈ plan.slices) (hforgets : forgets cause t.id = false) :
    landedStart v.landed t.id = startedAt v.landed t := by
  cases hscan : landedStart v.landed t.id with
  | true =>
      rcases (h.writes t ht).forgotten hscan hforgets with
        ⟨s, hs, hsid, hgeneration⟩
      have hscanned := h.kept.scanned s hs
      unfold startedAt at *
      rw [hsid, hgeneration, hscan] at hscanned
      exact hscanned
  | false =>
      cases hstarted : startedAt v.landed t with
      | false =>
          rfl
      | true =>
          exfalso
          have hmem := mem_of_startedAt hstarted
          by_cases hpresent : t.id ∈ v.note.slices.map (·.id)
          · rcases List.mem_map.mp hpresent with ⟨s, hs, hsid⟩
            have hbelow := h.kept.below _ hmem s hs hsid
            simp only at hbelow
            have hle := continues_generation
              (continues_of_id h.note h.unique h.kept.sound hs ht hsid)
            have hsame : s.requireGeneration = t.requireGeneration := by
              omega
            have hscanned := h.kept.scanned s hs
            unfold startedAt at hscanned hstarted
            rw [hsid, hsame, hscan, hstarted] at hscanned
            cases hscanned
          · have hlt := (h.writes t ht).returns hpresent _ hmem rfl
            exact absurd hlt (Nat.lt_irrefl _)

theorem landedStart_cons (entry : Landed) (landed : List Landed)
    (sliceId : String) :
    landedStart (entry :: landed) sliceId =
      if forgets entry.cause sliceId then false
      else if startsOn entry.cause sliceId then true
      else landedStart landed sliceId :=
  rfl

/-- A completion that lands has passed the gate, which was right. -/
theorem completed_step
    (h : StartsStep host v plan now cause) {at_ : String × Nat}
    (hat : at_ ∈ completionOf cause) : at_ ∈ starts v.landed := by
  cases cause with
  | worker input generation =>
      have hcomplete : isComplete input.action = true := by
        unfold completionOf at hat
        simp only at hat
        split at hat
        · assumption
        · cases hat
      have hatEq : at_ = (input.sliceId, generation) := by
        unfold completionOf at hat
        simp only at hat
        rw [if_pos hcomplete] at hat
        exact (Option.some.inj hat).symm
      rcases h.note with ⟨slice, claim, envelope, wall, applied, receipt,
        hauth, hgeneration, _, _, _, _, _, _, hgate⟩
      have hslice := mem_of_hasSlice hauth.present
      have hstarted : startedAt v.landed slice = true := by
        rcases hgate hcomplete with hprogress | ⟨_, hjournaled⟩
        · exact h.kept.progress slice hslice hprogress
        · by_cases hprogress : slice.status = PlanSliceStatus.in_progress
          · exact h.kept.progress slice hslice hprogress
          · have htells := h.completions at_ hat slice hslice
              (by rw [hatEq]; exact hauth.named) hprogress
            rw [← h.kept.scanned slice hslice, ← htells]
            exact hjournaled
      have hmem := mem_of_startedAt hstarted
      rw [hauth.named, ← hgeneration] at hmem
      rw [hatEq]
      exact hmem
  | expire sliceId actor =>
      cases hat
  | assign sliceId workerAgentId actorAgentId =>
      cases hat
  | claim sliceId workerAgentId idempotencyKey =>
      cases hat
  | orchestrator sliceId =>
      cases hat
  | scar =>
      cases hat
  | replan =>
      cases hat
  | delta =>
      cases hat
  | restore =>
      cases hat

theorem startsKept_step (h : StartsStep host v plan now cause) :
    StartsKept plan
      ({ cause := cause, now := now, before := v.note, after := plan } ::
        v.landed) := by
  refine ⟨claimsSound_step h.note h.unique h.kept.sound, ?_, ?_, ?_, ?_,
    fun at_ hat => completed_step h hat, h.kept.completed⟩
  · intro at_ hat t ht hid
    rcases mem_starts_cons hat with hstart | hold
    · rcases startStep_slice h hstart ht hid with ⟨hgeneration, _, hassigned⟩
      exact Or.inr ⟨hgeneration.symm, hassigned⟩
    · exact below_step h hold ht hid
  · intro t ht hstatus
    cases hstarts : startsOn cause t.id with
    | true =>
        exact startedAt_started h ht hstarts v.note
    | false =>
        rw [startedAt_cons hstarts]
        rcases (h.writes t ht).progress hstatus hstarts with
          hstarted | ⟨s, hs, hsid, hsprogress, hgeneration⟩
        · exact hstarted
        · have hstarted := h.kept.progress s hs hsprogress
          unfold startedAt at *
          rw [hsid, hgeneration] at hstarted
          exact hstarted
  · intro t ht hstatus
    have hstarts : startsOn cause t.id = false := by
      cases hvalue : startsOn cause t.id with
      | false =>
          rfl
      | true =>
          rcases startOf_of_startsOn hvalue with ⟨at_, hstart, hid⟩
          rcases startStep_slice h hstart ht hid.symm with ⟨_, hprogress, _⟩
          rw [hstatus] at hprogress
          cases hprogress
    rw [startedAt_cons hstarts]
    exact (h.writes t ht).pending hstatus
  · intro t ht
    rw [landedStart_cons]
    cases hforgets : forgets cause t.id with
    | true =>
        rw [startedAt_cons (forgets_startsOn hforgets),
          notStarted_of_forgets h ht hforgets]
        rfl
    | false =>
        cases hstarts : startsOn cause t.id with
        | true =>
            rw [startedAt_started h ht hstarts v.note]
            rfl
        | false =>
            rw [startedAt_cons hstarts, ← scanned_unchanged h ht hforgets]
            rfl

theorem starts_invariant (host : Host) :
    Invariant host (KeepsStarts host)
      (fun v => StartsKept v.note v.landed) := by
  apply invariant_of_notes
  intro plan cause now v hkept hA hnote hunique
  exact startsKept_step ⟨hnote, hunique, hkept, hA.1, hA.2⟩

end Thread
end Minni
