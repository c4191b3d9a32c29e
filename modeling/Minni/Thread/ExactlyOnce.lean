import Minni.Thread.Fencing

/-!
# Exactly once

An update that returns an applied result should have taken effect in exactly
one revision, whatever crashed before and whoever wrote in between.  The code
judges a pending receipt by two signs: the plan has reached the receipt's
revision, and the slice is as the receipt left it.  Neither of them is the
revision itself.

The condition of this file says where the signs, the generation of a lease and
the key of a call tell the truth.  In a run within the condition every update
takes effect once.
-/

namespace Minni
namespace Thread

open Foundation

/-- The revision is the effect of the update with this identity. -/
def updates (id : ReceiptId) (entry : Landed) : Bool :=
  match entry.cause with
  | Cause.worker input generation =>
      decide (receiptIdOf input generation = id)
  | _ => false

def actionOf (entry : Landed) : Option WorkerUpdateAction :=
  match entry.cause with
  | Cause.worker input _ => some input.action
  | _ => none

/-- Exactly one revision is the effect of the update, and it is the effect of
its action. -/
def AppliedOnce (landed : List Landed) (input : UpdateClaimedSliceInput)
    (generation : Nat) : Prop :=
  exists entry,
    landed.filter (updates (receiptIdOf input generation)) = [entry] ∧
      actionOf entry = some input.action

def isApplied : Option (Except ThreadError CallResult) -> Bool
  | some (Except.ok (CallResult.mutated _)) => true
  | _ => false

/-- The call returned an applied result. -/
structure AppliedIn (host : Host) (v : Vault) (first : List Event)
    (input : UpdateClaimedSliceInput) (clock : Clock)
    (outcomes : List Outcome) : Prop where
  returned : isApplied (((Call.update input).program host clock).run
    vaultInterface outcomes (runEvents host v first)).1 = true

/-- The law, for the runs of a note: at the generation in which the call finds
its slice, at the return of the call and at the end of the run. -/
structure ExactlyOnce (host : Host) (note : ThreadPlan) (events : List Event) :
    Prop where
  applied : forall first input clock outcomes rest,
    events = first ++ Event.call (Call.update input) clock outcomes :: rest ->
    AppliedIn host (newVault note) first input clock outcomes ->
    exists slice,
      slice ∈ (runEvents host (newVault note) first).note.slices ∧
      slice.id = input.sliceId ∧
      AppliedOnce
        (runEvents host (newVault note)
          (first ++ [Event.call (Call.update input) clock outcomes])).landed
        input slice.requireGeneration ∧
      AppliedOnce (runEvents host (newVault note) events).landed input
        slice.requireGeneration

/-!
## The condition
-/

/-- A claim leases the slice above its earlier leases. -/
def LeasesAbove (v : Vault) (plan : ThreadPlan) : Cause -> Prop
  | Cause.claim sliceId _ _ =>
      forall t, t ∈ plan.slices -> t.id = sliceId ->
        forall lease, lease ∈ leases v.landed -> lease.sliceId = sliceId ->
          lease.generation < t.requireGeneration
  | _ => True

/-- The signs by which a pending receipt is judged are right. -/
def JudgedRight (v : Vault) (id : ReceiptId) : Prop :=
  forall existing, existing ∈ receiptAt v id ->
    existing.status = WorkerUpdateReceiptStatus.pending ->
    existing.kind ≠ START_ACCEPTED_RECEIPT_KIND ->
    (looksCommitted v.note id.slice_id existing = true <->
      v.landed.any (updates id) = true)

def KeepsOnce : VaultOp -> Vault -> Prop
  | VaultOp.writeNote plan cause _, v => LeasesAbove v plan cause
  | VaultOp.writeReceipt receipt, v => JudgedRight v receipt.id
  | _, _ => True

/-- A call under the identity of an update that has landed asks for the same
action. -/
def RepeatsAction (v : Vault) (input : UpdateClaimedSliceInput) : Prop :=
  forall slice, slice ∈ v.note.slices -> slice.id = input.sliceId ->
    forall entry, entry ∈ v.landed ->
      updates (receiptIdOf input slice.requireGeneration) entry = true ->
      actionOf entry = some input.action

def CallRepeats (v : Vault) : Event -> Prop
  | Event.call (Call.update input) _ _ => RepeatsAction v input
  | _ => True

def RetriesRepeat (host : Host) : Vault -> List Event -> Prop
  | _, [] => True
  | v, event :: events =>
      CallRepeats v event ∧ RetriesRepeat host (event.run host v).2 events

instance (v : Vault) (plan : ThreadPlan) :
    (cause : Cause) -> Decidable (LeasesAbove v plan cause)
  | Cause.claim sliceId _ _ =>
      inferInstanceAs (Decidable (forall t, t ∈ plan.slices ->
        t.id = sliceId -> forall lease, lease ∈ leases v.landed ->
          lease.sliceId = sliceId -> lease.generation < t.requireGeneration))
  | Cause.expire _ _ => isTrue True.intro
  | Cause.assign _ _ _ => isTrue True.intro
  | Cause.worker _ _ => isTrue True.intro
  | Cause.orchestrator _ => isTrue True.intro
  | Cause.scar => isTrue True.intro
  | Cause.replan => isTrue True.intro
  | Cause.delta => isTrue True.intro
  | Cause.restore => isTrue True.intro

instance (v : Vault) (id : ReceiptId) : Decidable (JudgedRight v id) :=
  inferInstanceAs (Decidable (forall existing, existing ∈ receiptAt v id ->
    existing.status = WorkerUpdateReceiptStatus.pending ->
    existing.kind ≠ START_ACCEPTED_RECEIPT_KIND ->
    (looksCommitted v.note id.slice_id existing = true <->
      v.landed.any (updates id) = true)))

instance (o : VaultOp) (v : Vault) : Decidable (KeepsOnce o v) :=
  match o with
  | VaultOp.writeNote plan cause _ =>
      inferInstanceAs (Decidable (LeasesAbove v plan cause))
  | VaultOp.writeReceipt receipt =>
      inferInstanceAs (Decidable (JudgedRight v receipt.id))
  | VaultOp.readNote | VaultOp.readHistory | VaultOp.appendHistory _
  | VaultOp.readJournal | VaultOp.appendJournal _
  | VaultOp.appendLegacyLine | VaultOp.readSecret _
  | VaultOp.createSecret _ _ _ _ | VaultOp.unlinkSecret _
  | VaultOp.readReceipt _ | VaultOp.listReceipts _ _
  | VaultOp.unlinkReceipt _ | VaultOp.readQueue | VaultOp.writeTicket _
  | VaultOp.removeTicket _ | VaultOp.reservationIsLive =>
      isTrue True.intro

instance (v : Vault) (input : UpdateClaimedSliceInput) :
    Decidable (RepeatsAction v input) :=
  inferInstanceAs (Decidable (forall slice, slice ∈ v.note.slices ->
    slice.id = input.sliceId -> forall entry, entry ∈ v.landed ->
      updates (receiptIdOf input slice.requireGeneration) entry = true ->
      actionOf entry = some input.action))

instance (v : Vault) (event : Event) : Decidable (CallRepeats v event) := by
  unfold CallRepeats
  split <;> infer_instance

instance decidableRetriesRepeat (host : Host) :
    (v : Vault) -> (events : List Event) ->
      Decidable (RetriesRepeat host v events)
  | _, [] => isTrue True.intro
  | v, event :: events =>
      have := decidableRetriesRepeat host (event.run host v).2 events
      inferInstanceAs
        (Decidable
          (CallRepeats v event ∧
            RetriesRepeat host (event.run host v).2 events))

variable {host : Host} {v v' : Vault} {plan : ThreadPlan} {now : Nat}
  {cause : Cause}

theorem retriesRepeat_append
    {first second : List Event}
    (h : RetriesRepeat host v (first ++ second)) :
    RetriesRepeat host (runEvents host v first) second := by
  induction first generalizing v with
  | nil =>
      exact h
  | cons event rest ih =>
      exact ih h.2

/-!
## The invariant
-/

structure OnceKept (v : Vault) : Prop where
  recorded : LeasesRecorded v.note v.landed
  distinct : (v.note.slices.map (·.id)).Nodup
  leased : forall id, v.landed.any (updates id) = true ->
    exists lease, lease ∈ leases v.landed ∧ lease.sliceId = id.slice_id ∧
      lease.generation = id.generation
  once : forall id, (v.landed.filter (updates id)).length ≤ 1
  kept : forall id, v.landed.any (updates id) = true ->
    forall t, t ∈ v.note.slices -> t.id = id.slice_id ->
      t.requireGeneration = id.generation -> t.claim.isSome = true ->
      (receiptAt v id).isSome = true
  reached : forall id receipt, receiptAt v id = some receipt ->
    receipt.status = WorkerUpdateReceiptStatus.pending ->
    receipt.rev ≤ v.note.rev + 1
  unlanded : forall id receipt, receiptAt v id = some receipt ->
    receipt.status = WorkerUpdateReceiptStatus.pending ->
    receipt.kind ≠ START_ACCEPTED_RECEIPT_KIND ->
    receipt.rev = v.note.rev + 1 -> v.landed.any (updates id) = false
  committed : forall id receipt, receiptAt v id = some receipt ->
    receipt.status = WorkerUpdateReceiptStatus.committed ->
    v.landed.any (updates id) = true

theorem workerEventKind_ne_accepted (action : WorkerUpdateAction) :
    workerEventKind action ≠ START_ACCEPTED_RECEIPT_KIND := by
  cases action with
  | start =>
      simp [workerEventKind, START_ACCEPTED_RECEIPT_KIND]
  | progress evidence =>
      simp [workerEventKind, START_ACCEPTED_RECEIPT_KIND]
  | block evidence =>
      simp [workerEventKind, START_ACCEPTED_RECEIPT_KIND]
  | scar kind signal resolution =>
      simp [workerEventKind, START_ACCEPTED_RECEIPT_KIND]
  | propose_structure proposal =>
      simp [workerEventKind, START_ACCEPTED_RECEIPT_KIND]
  | complete evidence =>
      simp [workerEventKind, START_ACCEPTED_RECEIPT_KIND]

theorem any_updates_cons (id : ReceiptId) (entry : Landed)
    (landed : List Landed) :
    (entry :: landed).any (updates id) =
      (updates id entry || landed.any (updates id)) :=
  rfl

theorem updates_eq
    {id : ReceiptId} {entry : Landed} (h : updates id entry = true) :
    exists input generation, entry.cause = Cause.worker input generation ∧
      receiptIdOf input generation = id := by
  unfold updates at h
  split at h
  · rename_i input generation hcause
    exact ⟨input, generation, hcause, of_decide_eq_true h⟩
  · cases h

/-!
## A revision
-/

/-- What the write of a worker's revision finds. -/
theorem worker_finds
    {id : ReceiptId} {before after : ThreadPlan}
    (h : NoteStep host v plan now cause)
    (hid : updates id
      { cause := cause, now := now, before := before, after := after } =
        true) :
    (exists s, s ∈ v.note.slices ∧ s.id = id.slice_id ∧
      s.requireGeneration = id.generation ∧ s.claim.isSome = true) ∧
    exists receipt, receiptAt v id = some receipt ∧
      receipt.status = WorkerUpdateReceiptStatus.pending ∧
      receipt.kind ≠ START_ACCEPTED_RECEIPT_KIND ∧
      receipt.rev = v.note.rev + 1 := by
  rcases updates_eq hid with ⟨input, generation, hcause, rfl⟩
  change cause = _ at hcause
  rw [hcause] at h
  rcases h with ⟨slice, claim, envelope, wall, applied, receipt, hauth,
    hgeneration, _, _, hstored, hpending, hrev, hkind, _⟩
  constructor
  · refine ⟨slice, mem_of_hasSlice hauth.present, hauth.named,
      hgeneration.symm, ?_⟩
    rw [hauth.claimed]
    rfl
  · refine ⟨receipt, hstored, hpending, ?_, hrev⟩
    rw [hkind]
    exact workerEventKind_ne_accepted input.action

/-- A new revision of an update is its first. -/
theorem first_revision
    {id : ReceiptId} {before after : ThreadPlan}
    (hkept : OnceKept v) (h : NoteStep host v plan now cause)
    (hid : updates id
      { cause := cause, now := now, before := before, after := after } =
        true) :
    v.landed.any (updates id) = false := by
  rcases worker_finds h hid with ⟨_, receipt, hstored, hpending, hkind, hrev⟩
  exact hkept.unlanded id receipt hstored hpending hkind hrev

/-- Receipts stay while the slice is held at their generation. -/
theorem kept_step
    {id : ReceiptId} {t : ThreadSlice}
    (hkept : OnceKept v) (h : NoteStep host v plan now cause)
    (hunique : assertUniqueSliceIds plan.slices "persistPlan" = Except.ok ())
    (hA : LeasesAbove v plan cause)
    (hlanded : v.landed.any (updates id) = true)
    (ht : t ∈ plan.slices) (htid : t.id = id.slice_id)
    (hgeneration : t.requireGeneration = id.generation)
    (hclaim : t.claim.isSome = true) :
    (receiptAt v id).isSome = true := by
  rcases noteStep_origin h hunique hkept.recorded.sound ht with
    ⟨s, hs, hstep⟩ | hbrought
  · rcases hstep.change with
      ⟨hsame, hsameClaim⟩ | ⟨_, hnone⟩ | ⟨_, _, hnone⟩ |
        ⟨⟨_, _, _, hcause, _⟩, _, _⟩
    · apply hkept.kept id hlanded s hs
      · rw [← hstep.id]
        exact htid
      · rw [← hsame]
        exact hgeneration
      · rw [← hsameClaim]
        exact hclaim
    · rw [hnone] at hclaim
      cases hclaim
    · rw [hnone] at hclaim
      cases hclaim
    · -- the update had a lease at this generation, and this is another one
      rcases hkept.leased id hlanded with ⟨lease, hlease, hsliceId, hold⟩
      rw [hcause] at hA
      have hlt := hA t ht rfl lease hlease (hsliceId.trans htid.symm)
      rw [hold, hgeneration] at hlt
      exact absurd hlt (Nat.lt_irrefl _)
  · rw [hbrought.claim] at hclaim
    cases hclaim

theorem onceKept_note
    (hkept : OnceKept v) (h : NoteStep host v plan now cause)
    (hunique : assertUniqueSliceIds plan.slices "persistPlan" = Except.ok ())
    (hA : LeasesAbove v plan cause) :
    OnceKept (Vault.effect (VaultOp.writeNote plan cause now) v) := by
  have hrev := noteStep_rev h
  constructor
  · exact leasesRecorded_step h hunique hkept.recorded
  · exact assertUniqueSliceIds_ok hunique
  · intro id hany
    have hold : v.landed.any (updates id) = true ->
        exists lease, lease ∈ leases v.landed ∧
          lease.sliceId = id.slice_id ∧ lease.generation = id.generation :=
      hkept.leased id
    have hlease : exists lease, lease ∈ leases v.landed ∧
        lease.sliceId = id.slice_id ∧ lease.generation = id.generation := by
      change List.any (_ :: v.landed) _ = true at hany
      rw [any_updates_cons] at hany
      rcases (Bool.or_eq_true _ _).mp hany with hnew | hany
      · rcases worker_finds h hnew with
          ⟨⟨s, hs, hsid, hgeneration, hclaim⟩, _⟩
        rcases hkept.recorded.recorded s hs hclaim with
          ⟨lease, hlease, hid, hsame⟩
        exact ⟨lease, hlease, hid.trans hsid, hsame.trans hgeneration⟩
      · exact hold hany
    rcases hlease with ⟨lease, hmem, hrest⟩
    exact ⟨lease, mem_leases_cons hmem, hrest⟩
  · intro id
    change (List.filter (updates id) (_ :: v.landed)).length ≤ 1
    cases hnew : updates id
        { cause := cause, now := now, before := v.note, after := plan } with
    | true =>
        have hnone := first_revision hkept h hnew
        have hnil : v.landed.filter (updates id) = [] := by
          apply List.filter_eq_nil_iff.mpr
          intro entry hentry hupdates
          rw [List.any_eq_true.mpr ⟨entry, hentry, hupdates⟩] at hnone
          cases hnone
        rw [List.filter_cons_of_pos hnew, hnil]
        exact Nat.le_refl 1
    | false =>
        rw [List.filter_cons_of_neg (by rw [hnew]; exact Bool.false_ne_true)]
        exact hkept.once id
  · intro id hany t ht htid hgeneration hclaim
    change List.any (_ :: v.landed) _ = true at hany
    rw [any_updates_cons] at hany
    change (receiptAt v id).isSome = true
    rcases (Bool.or_eq_true _ _).mp hany with hnew | hany
    · rcases worker_finds h hnew with ⟨_, receipt, hstored, _⟩
      rw [hstored]
      rfl
    · exact kept_step hkept h hunique hA hany ht htid hgeneration hclaim
  · intro id receipt hstored hpending
    have hle := hkept.reached id receipt hstored hpending
    change receipt.rev ≤ plan.rev + 1
    omega
  · intro id receipt hstored hpending hkind hreached
    have hle := hkept.reached id receipt hstored hpending
    change receipt.rev = plan.rev + 1 at hreached
    omega
  · intro id receipt hstored hcommitted
    have hold := hkept.committed id receipt hstored hcommitted
    change List.any (_ :: v.landed) _ = true
    rw [any_updates_cons, hold, Bool.or_true]

/-!
## A receipt
-/

theorem receiptAt_written
    (v : Vault) (receipt : WorkerUpdateReceiptEnvelope) (id : ReceiptId) :
    receiptAt (Vault.effect (VaultOp.writeReceipt receipt) v) id =
      if id = receipt.id then some receipt else receiptAt v id := by
  split
  · rename_i hid
    rw [hid]
    exact receiptAt_writeReceipt v receipt
  · rename_i hid
    have hdropped := receiptAt_dropReceipt v receipt.id id
    rw [if_neg hid] at hdropped
    rw [← hdropped]
    unfold receiptAt Vault.effect
    rw [List.find?_cons_of_neg]
    intro hsame
    exact hid (of_decide_eq_true hsame).symm

/-- What holds of a receipt that is written. -/
structure ReceiptRight (v : Vault) (receipt : WorkerUpdateReceiptEnvelope) :
    Prop where
  reached : receipt.status = WorkerUpdateReceiptStatus.pending ->
    receipt.rev ≤ v.note.rev + 1
  unlanded : receipt.status = WorkerUpdateReceiptStatus.pending ->
    receipt.kind ≠ START_ACCEPTED_RECEIPT_KIND ->
    v.landed.any (updates receipt.id) = false
  committed : receipt.status = WorkerUpdateReceiptStatus.committed ->
    v.landed.any (updates receipt.id) = true

theorem any_updates_of_justLanded
    {id : ReceiptId} {kind : String} (h : JustLanded v id kind) :
    v.landed.any (updates id) = true := by
  rcases h with ⟨input, entry, rest, hlanded, hcause, hid, _⟩
  rw [hlanded, any_updates_cons]
  apply Bool.or_eq_true _ _ |>.mpr
  left
  unfold updates
  rw [hcause]
  exact decide_eq_true hid

theorem receiptRight_of_step
    {receipt : WorkerUpdateReceiptEnvelope}
    (hkept : OnceKept v) (hA : JudgedRight v receipt.id)
    (h : ReceiptStep v receipt) : ReceiptRight v receipt := by
  cases h with
  | stamp hkind hpending hrev hresponse =>
      constructor
      · intro _
        omega
      · intro _ hne
        exact absurd hkind hne
      · intro hcommitted
        rw [hpending] at hcommitted
        cases hcommitted
  | pending input slice hid hkind hstatus hrev hslice hname hclaim hresponse
      hexisting =>
      constructor
      · intro _
        omega
      · intro _ _
        cases hany : v.landed.any (updates receipt.id) with
        | false =>
            rfl
        | true =>
            exfalso
            have hpresent := hkept.kept receipt.id hany slice
              (mem_of_hasSlice hslice) (by rw [hid, hname]; rfl)
              (by rw [hid]; rfl) hclaim
            rcases Option.isSome_iff_exists.mp hpresent with
              ⟨existing, hstored⟩
            rcases hexisting existing hstored with
              ⟨hpending, hsameKind, hlooks⟩
            have hjudged := (hA existing hstored hpending
              (by rw [hsameKind]; exact workerEventKind_ne_accepted _)).mpr hany
            have hsliceId : receipt.id.slice_id = input.sliceId := by
              rw [hid]
              rfl
            rw [hsliceId, hlooks] at hjudged
            cases hjudged
      · intro hcommitted
        rw [hstatus] at hcommitted
        cases hcommitted
  | landed hlanded hstatus hresponse =>
      constructor
      · intro hpending
        rw [hstatus] at hpending
        cases hpending
      · intro hpending
        rw [hstatus] at hpending
        cases hpending
      · intro _
        exact any_updates_of_justLanded hlanded
  | promoted input existing hexisting hid hkind hlooks hcommitted =>
      have hstatus : receipt.status = WorkerUpdateReceiptStatus.committed := by
        rw [hcommitted]
      constructor
      · intro hpending
        rw [hstatus] at hpending
        cases hpending
      · intro hpending
        rw [hstatus] at hpending
        cases hpending
      · intro _
        cases hwas : existing.status with
        | committed =>
            exact hkept.committed receipt.id existing hexisting hwas
        | pending =>
            have hsliceId : receipt.id.slice_id = input.sliceId := by
              rw [hid]
              rfl
            apply (hA existing hexisting hwas
              (by rw [hkind]; exact workerEventKind_ne_accepted _)).mp
            rw [hsliceId]
            exact hlooks

theorem onceKept_receipt
    {receipt : WorkerUpdateReceiptEnvelope}
    (hkept : OnceKept v) (hA : JudgedRight v receipt.id)
    (h : ReceiptStep v receipt) :
    OnceKept (Vault.effect (VaultOp.writeReceipt receipt) v) := by
  have hright := receiptRight_of_step hkept hA h
  -- a receipt that is found afterwards is the new one or an old one
  have hfound : forall id found,
      receiptAt (Vault.effect (VaultOp.writeReceipt receipt) v) id =
        some found ->
      (id = receipt.id ∧ found = receipt) ∨ receiptAt v id = some found := by
    intro id found hstored
    rw [receiptAt_written] at hstored
    split at hstored
    · rename_i hid
      cases hstored
      exact Or.inl ⟨hid, rfl⟩
    · exact Or.inr hstored
  constructor
  · exact hkept.recorded
  · exact hkept.distinct
  · exact hkept.leased
  · exact hkept.once
  · intro id hany t ht htid hgeneration hclaim
    rw [receiptAt_written]
    split
    · rfl
    · exact hkept.kept id hany t ht htid hgeneration hclaim
  · intro id found hstored hpending
    rcases hfound id found hstored with ⟨rfl, rfl⟩ | hold
    · exact hright.reached hpending
    · exact hkept.reached id found hold hpending
  · intro id found hstored hpending hkind hrev
    rcases hfound id found hstored with ⟨rfl, rfl⟩ | hold
    · exact hright.unlanded hpending hkind
    · exact hkept.unlanded id found hold hpending hkind hrev
  · intro id found hstored hcommitted
    rcases hfound id found hstored with ⟨rfl, rfl⟩ | hold
    · exact hright.committed hcommitted
    · exact hkept.committed id found hold hcommitted

/-- A receipt is pruned only where its slice is not held at its generation. -/
theorem onceKept_unlink
    {id : ReceiptId} (hkept : OnceKept v)
    (h : RetiredGeneration v.note id.slice_id id.generation) :
    OnceKept (Vault.effect (VaultOp.unlinkReceipt id) v) := by
  have hfound : forall other found,
      receiptAt (Vault.effect (VaultOp.unlinkReceipt id) v) other =
        some found -> receiptAt v other = some found := by
    intro other found hstored
    change receiptAt (v.dropReceipt id) other = some found at hstored
    rw [receiptAt_dropReceipt] at hstored
    split at hstored
    · cases hstored
    · exact hstored
  constructor
  · exact hkept.recorded
  · exact hkept.distinct
  · exact hkept.leased
  · exact hkept.once
  · intro other hany t ht htid hgeneration hclaim
    change (receiptAt (v.dropReceipt id) other).isSome = true
    rw [receiptAt_dropReceipt]
    split
    · rename_i hsame
      rw [hsame] at htid hgeneration
      have hterminal := h t (hasSlice_of_nodup hkept.distinct ht) htid
        hgeneration
      rw [hkept.recorded.sound.nonTerminal t ht hclaim] at hterminal
      cases hterminal
    · exact hkept.kept other hany t ht htid hgeneration hclaim
  · intro other found hstored
    exact hkept.reached other found (hfound other found hstored)
  · intro other found hstored
    exact hkept.unlanded other found (hfound other found hstored)
  · intro other found hstored
    exact hkept.committed other found (hfound other found hstored)

theorem onceKept_invariant (host : Host) :
    Invariant host KeepsOnce OnceKept := by
  constructor
  · intro o v hkept hA hallowed
    cases o with
    | writeNote plan cause now =>
        exact onceKept_note hkept hallowed.1 hallowed.2 hA
    | writeReceipt receipt =>
        exact onceKept_receipt hkept hA hallowed
    | unlinkReceipt id =>
        exact onceKept_unlink hkept hallowed
    | _ =>
        exact ⟨hkept.recorded, hkept.distinct, hkept.leased, hkept.once,
          hkept.kept, hkept.reached, hkept.unlanded, hkept.committed⟩
  · intro v live hkept
    exact ⟨hkept.recorded, hkept.distinct, hkept.leased, hkept.once,
      hkept.kept, hkept.reached, hkept.unlanded, hkept.committed⟩

theorem onceKept_newVault
    {input : CreatePlanInput} {created updated : String} {note : ThreadPlan}
    (hcreate : createPlan host input created updated = Except.ok note) :
    OnceKept (newVault note) := by
  have hfree := leasesKept_newVault fun s hs => (createPlan_free hcreate hs).1
  have hnone : forall id, (newVault note).landed.any (updates id) = true ->
      False := by
    intro id hany
    cases hany
  refine ⟨hfree.recorded, createPlan_nodup hcreate, ?_, ?_, ?_, ?_, ?_, ?_⟩
  · intro id hany
    exact (hnone id hany).elim
  · intro id
    exact Nat.zero_le 1
  · intro id hany
    exact (hnone id hany).elim
  · intro id receipt hstored
    cases hstored
  · intro id receipt hstored
    cases hstored
  · intro id receipt hstored
    cases hstored

/-!
## The law
-/

theorem result_of_isApplied
    {returned : Option (Except ThreadError CallResult)}
    (h : isApplied returned = true) :
    exists result, returned = some (Except.ok (CallResult.mutated result)) := by
  unfold isApplied at h
  split at h
  · rename_i result
    exact ⟨result, rfl⟩
  · cases h

/-- What has landed stays on record. -/
theorem landed_invariant
    (host : Host) (A : VaultOp -> Vault -> Prop) (old : List Landed) :
    Invariant host A (fun v => exists recent, v.landed = recent ++ old) := by
  constructor
  · intro o v hv _ _
    cases o with
    | writeNote plan cause now =>
        rcases hv with ⟨recent, hlanded⟩
        refine ⟨{ cause := cause, now := now, before := v.note, after := plan }
          :: recent, ?_⟩
        change _ :: v.landed = _
        rw [hlanded]
        rfl
    | _ =>
        exact hv
  · intro v live hv
    exact hv

theorem appliedOnce_of_mem
    {input : UpdateClaimedSliceInput} {generation : Nat} {entry : Landed}
    (hkept : OnceKept v) (hentry : entry ∈ v.landed)
    (hupdates : updates (receiptIdOf input generation) entry = true)
    (haction : actionOf entry = some input.action) :
    AppliedOnce v.landed input generation := by
  have hmem : entry ∈ v.landed.filter (updates (receiptIdOf input generation)) :=
    List.mem_filter.mpr ⟨hentry, hupdates⟩
  have hlength := hkept.once (receiptIdOf input generation)
  refine ⟨entry, ?_, haction⟩
  cases hfilter : v.landed.filter (updates (receiptIdOf input generation)) with
  | nil =>
      rw [hfilter] at hmem
      cases hmem
  | cons first rest =>
      rw [hfilter, List.length_cons] at hlength
      have hrest : rest = [] := List.length_eq_zero_iff.mp (by omega)
      rw [hfilter, hrest] at hmem
      rw [hrest, List.mem_singleton.mp hmem]

/-- The revision that stands behind an applied result. -/
theorem revision_of_answered
    {input : UpdateClaimedSliceInput} {result : ThreadMutationResult}
    (hkept : OnceKept v') (hrepeats : RepeatsAction v input)
    (h : Answered v v' input result) :
    exists slice entry, slice ∈ v.note.slices ∧ slice.id = input.sliceId ∧
      entry ∈ v'.landed ∧
      updates (receiptIdOf input slice.requireGeneration) entry = true ∧
      actionOf entry = some input.action := by
  rcases h with ⟨slice, hslice, hid, ⟨receipt, hstored, hcommitted, _⟩, hcase⟩
  have hmem := mem_of_hasSlice hslice
  rcases hcase with ⟨entry, hentry, hcause⟩ | ⟨recent, hlanded, hexpired⟩
  · refine ⟨slice, entry, hmem, hid, hentry, ?_, ?_⟩
    · unfold updates
      rw [hcause]
      exact decide_eq_true rfl
    · unfold actionOf
      rw [hcause]
  · have hany := hkept.committed _ receipt hstored hcommitted
    rcases List.any_eq_true.mp hany with ⟨entry, hentry, hupdates⟩
    refine ⟨slice, entry, hmem, hid, hentry, hupdates, ?_⟩
    rw [hlanded] at hentry
    rcases List.mem_append.mp hentry with hnew | hold
    · rcases hexpired entry hnew with ⟨sliceId, actor, hcause⟩
      unfold updates at hupdates
      rw [hcause] at hupdates
      cases hupdates
    · exact hrepeats slice hmem hid entry hold hupdates

def scarBy (workerAgentId sliceId : String) (token : Nat)
    (idempotencyKey : String) : UpdateClaimedSliceInput :=
  { sliceId := sliceId
    workerAgentId := workerAgentId
    token := token
    idempotencyKey := idempotencyKey
    action := WorkerUpdateAction.scar ScarKind.dead_end "the build is red" none }

/-- The update crashes after so many operations. -/
def crashAfter (operations now : Nat) (input : UpdateClaimedSliceInput) :
    Event :=
  Event.call (Call.update input) { now := now, wall := "later" }
    (List.replicate operations Outcome.done)

theorem not_appliedOnce
    {landed : List Landed} {input : UpdateClaimedSliceInput} {generation : Nat}
    (h : landed.all (fun entry => (actionOf entry).isNone) = true) :
    ¬ AppliedOnce landed input generation := by
  intro honce
  rcases honce with ⟨entry, hfilter, haction⟩
  have hmem : entry ∈ landed.filter
      (updates (receiptIdOf input generation)) := by
    rw [hfilter]
    exact List.mem_singleton.mpr rfl
  have hnone := List.all_eq_true.mp h entry (List.mem_filter.mp hmem).1
  rw [haction] at hnone
  cases hnone

/-- The first call crashes before the note, and another write takes the
revision that its receipt waits for. -/
def overtaken : List Event :=
  [doneAt 1 (assignTo "w" "a"), doneAt 2 (claimBy "w" "a" "k"),
    crashAfter 6 3 (scarBy "w" "a" 0 "u"), doneAt 4 (addSlice "b" "B")]

theorem applied_overtaken :
    AppliedIn plainHost (newVault plainPlan) overtaken (scarBy "w" "a" 0 "u")
      { now := 5, wall := "later" } (List.replicate 60 Outcome.done) :=
  ⟨by decide +kernel⟩

end Thread
end Minni
