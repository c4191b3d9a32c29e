import Minni.Thread.LeaseSpecs
import Minni.Thread.SliceEffects

/-!
# Specification of the worker update

An update that returns leaves a committed receipt under its identity.  The note
is written only for a worker whose claim has been verified in the very state of
the write, over a pending receipt, and a completion only where the start gate
is open.
-/

namespace Minni
namespace Thread

open Foundation

variable {host : Host} {v v' v'' : Vault}

/-!
## Receipts of a retry
-/

theorem id_of_receiptAt
    {id : ReceiptId} {receipt : WorkerUpdateReceiptEnvelope}
    (h : receiptAt v id = some receipt) : receipt.id = id := by
  have hfound := List.find?_some h
  exact of_decide_eq_true hfound

theorem safe_readReceipt (id : ReceiptId) :
    Safe host (Program.perform (VaultOp.readReceipt id))
      (Returns fun stored v' => v' = v ∧ stored = receiptAt v id) v :=
  safe_read True.intro rfl (returns_ok ⟨rfl, rfl⟩) (returns_error _ _)

theorem safe_readWorkerUpdateReceipt
    (id : ReceiptId) (claimId : Option ClaimId) :
    Safe host (readWorkerUpdateReceipt id claimId)
      (Returns fun stored v' => v' = v ∧ stored = receiptAt v id) v := by
  refine safe_then (safe_readReceipt id) ?_
  rintro stored s ⟨rfl, rfl⟩
  cases hstored : receiptAt s id with
  | none =>
      exact returns_ok ⟨rfl, rfl⟩
  | some receipt =>
      refine safe_then (safe_require (R := fun _ v' => v' = s) fun _ => rfl) ?_
      rintro ⟨⟩ s' rfl
      exact returns_ok ⟨rfl, rfl⟩

/-- The receipt that a retry has to reckon with. -/
def LoadedReceipt (v : Vault) (input : UpdateClaimedSliceInput)
    (generation : Nat) (existing : Option WorkerUpdateReceiptEnvelope) :
    Prop :=
  receiptAt v (receiptIdOf input generation) = existing ∧
    forall receipt, existing = some receipt ->
      receipt.kind = workerEventKind input.action

theorem safe_loadWorkerUpdateReceipt
    (input : UpdateClaimedSliceInput) (generation : Nat)
    (claimId : Option ClaimId) :
    Safe host (loadWorkerUpdateReceipt input generation claimId)
      (Returns fun existing v' => v' = v ∧
        LoadedReceipt v input generation existing) v := by
  refine safe_then (safe_readWorkerUpdateReceipt _ _) ?_
  rintro stored s ⟨rfl, rfl⟩
  cases hstored : receiptAt s (receiptIdOf input generation) with
  | none =>
      apply returns_ok
      refine ⟨rfl, hstored, ?_⟩
      intro receipt hreceipt
      cases hreceipt
  | some receipt =>
      refine safe_then
        (safe_require (R := fun _ v' => v' = s ∧
          receipt.kind = workerEventKind input.action)
          fun h => ⟨rfl, of_decide_eq_true h⟩) ?_
      rintro ⟨⟩ s' ⟨rfl, hkind⟩
      refine safe_then
        (safe_require (R := fun _ v' => v' = s') fun _ => rfl) ?_
      rintro ⟨⟩ w rfl
      apply returns_ok
      refine ⟨rfl, hstored, ?_⟩
      intro other hother
      cases hother
      exact hkind

/-!
## Authority
-/

theorem safe_verifyClaimToken
    (sliceId workerAgentId : String) (generation token : Nat)
    (claimId : ClaimId) (now : Nat) :
    Safe host
      (verifyClaimToken sliceId workerAgentId generation token claimId now)
      (Returns fun envelope v' => v' = v ∧ v.envelope claimId = some envelope ∧
        claimId.slice_id = sliceId ∧ claimId.generation = generation ∧
        envelope.worker_agent_id = workerAgentId ∧ envelope.token = token ∧
        now < envelope.expires_at) v := by
  refine safe_then (safe_readSecret claimId) ?_
  rintro stored s ⟨rfl, rfl⟩
  refine safe_then
    (safe_ofOption (R := fun envelope v' => v' = s ∧
      s.envelope claimId = some envelope) fun _ h => ⟨rfl, h⟩) ?_
  rintro envelope s' ⟨rfl, hstored⟩
  refine safe_then
    (safe_require (R := fun _ v' => v' = s' ∧
      (envelope.claim_id = claimId ∧ claimId.slice_id = sliceId ∧
        claimId.generation = generation ∧
        envelope.worker_agent_id = workerAgentId))
      fun h => ⟨rfl, of_decide_eq_true h⟩) ?_
  rintro ⟨⟩ w ⟨rfl, _, hslice, hgeneration, hworker⟩
  refine safe_then
    (safe_require (R := fun _ v' => v' = w ∧ envelope.token = token)
      fun h => ⟨rfl, of_decide_eq_true h⟩) ?_
  rintro ⟨⟩ w' ⟨rfl, htoken⟩
  refine safe_then
    (safe_require (R := fun _ v' => v' = w' ∧ now < envelope.expires_at)
      fun h => ⟨rfl, of_decide_eq_true h⟩) ?_
  rintro ⟨⟩ x ⟨rfl, hlive⟩
  exact returns_ok
    ⟨rfl, hstored, hslice, hgeneration, hworker, htoken, hlive⟩

theorem safe_authorizeWorker
    {input : UpdateClaimedSliceInput} {slice : ThreadSlice} {now : Nat}
    (hslice : HasSlice v.note slice) (hid : slice.id = input.sliceId) :
    Safe host (authorizeWorker input slice now)
      (Returns fun claim v' => v' = v ∧
        exists envelope, AuthorizedBy v input now slice claim envelope) v := by
  refine safe_then
    (safe_ofOption (R := fun claim v' => v' = v ∧ slice.claim = some claim)
      fun _ h => ⟨rfl, h⟩) ?_
  rintro claim s ⟨rfl, hclaim⟩
  refine safe_then
    (safe_require (R := fun _ v' => v' = s ∧
      claim.worker_agent_id = input.workerAgentId)
      fun h => ⟨rfl, of_decide_eq_true h⟩) ?_
  rintro ⟨⟩ s' ⟨rfl, hclaimWorker⟩
  refine safe_then (safe_verifyClaimToken _ _ _ _ _ _) ?_
  rintro envelope w
    ⟨rfl, hstored, hofSlice, hgeneration, hworker, htoken, hlive⟩
  refine safe_then
    (safe_require (R := fun _ v' => v' = w ∧
      envelope.expires_at = claim.expires_at)
      fun h => ⟨rfl, of_decide_eq_true h⟩) ?_
  rintro ⟨⟩ w' ⟨rfl, hexpiry⟩
  refine safe_then
    (safe_require (R := fun _ v' => v' = w' ∧ isNonTerminal slice = true)
      fun h => ⟨rfl, h⟩) ?_
  rintro ⟨⟩ x ⟨rfl, hnonTerminal⟩
  apply returns_ok
  refine ⟨rfl, envelope, ?_⟩
  exact
    { present := hslice
      named := hid
      claimed := hclaim
      worker := hclaimWorker
      stored := hstored
      ofSlice := hofSlice.trans hid.symm
      ofGeneration := hgeneration
      ofWorker := hworker
      token := htoken
      live := hlive
      expiry := hexpiry
      nonTerminal := hnonTerminal }

/-!
## The start gate
-/

theorem safe_listQueuedWorkerWrites :
    Safe host (listQueuedWorkerWrites host) (Returns fun _ v' => v' = v) v := by
  refine safe_then
    (P := fun _ v' => v' = v)
    (safe_read True.intro rfl (returns_ok rfl) (returns_error _ _)) ?_
  rintro items s rfl
  exact returns_ok rfl

theorem safe_hasAcceptedStartStamp
    (planId workerAgentId : String) (slice : ThreadSlice) :
    Safe host (hasAcceptedStartStamp host planId workerAgentId slice)
      (Returns fun _ v' => v' = v) v := by
  unfold hasAcceptedStartStamp
  split
  · exact returns_ok rfl
  · refine safe_then (safe_readWorkerUpdateReceipt _ _) ?_
    rintro receipt s ⟨rfl, _⟩
    exact returns_ok rfl

theorem safe_passStartGate
    (planId : String) (input : UpdateClaimedSliceInput) (slice : ThreadSlice) :
    Safe host (passStartGate host planId input slice v.journal)
      (Returns fun _ v' => v' = v ∧
        (isComplete input.action = true -> GateOpen v slice)) v := by
  unfold passStartGate
  split
  · unfold requireJournaledStartBeforeComplete
    split
    · rename_i hprogress
      exact returns_ok ⟨rfl, fun _ => Or.inl hprogress⟩
    · refine safe_then safe_listQueuedWorkerWrites ?_
      rintro queued s rfl
      refine safe_then (safe_hasAcceptedStartStamp _ _ _) ?_
      rintro stamp s' rfl
      refine safe_then
        (safe_require (R := fun _ v' => v' = s') fun _ => rfl) ?_
      rintro ⟨⟩ w rfl
      refine safe_then
        (safe_require (R := fun _ v' => v' = w ∧
          slice.status ≠ PlanSliceStatus.pending)
          fun h => ⟨rfl, of_decide_eq_true h⟩) ?_
      rintro ⟨⟩ w' ⟨rfl, hpending⟩
      apply safe_require
      intro hstarted
      exact ⟨rfl, fun _ => Or.inr ⟨hpending, hstarted⟩⟩
  · rename_i hcomplete
    exact returns_ok ⟨rfl, fun h => absurd h hcomplete⟩

/-!
## The write
-/

theorem safe_applied
    {α : Type} (result : Except String α) :
    Safe host (Act.ofExcept result)
      (Returns fun a v' => v' = v ∧ result = Except.ok a) v :=
  safe_ofExcept (fun _ h => returns_ok ⟨rfl, h⟩) (fun _ _ => returns_error _ _)

theorem receiptAt_writeReceipt
    (v : Vault) (receipt : WorkerUpdateReceiptEnvelope) :
    receiptAt (Vault.effect (VaultOp.writeReceipt receipt) v) receipt.id =
      some receipt := by
  unfold receiptAt Vault.effect
  simp

/-- A receipt that is written is there afterwards. -/
theorem safe_writeReceipt
    {receipt : WorkerUpdateReceiptEnvelope} (h : ReceiptStep v receipt) :
    Safe host (writeWorkerUpdateReceipt receipt)
      (Returns fun _ v' =>
        v' = Vault.effect (VaultOp.writeReceipt receipt) v) v := by
  refine safe_perform h ?_
  intro x
  cases x with
  | done =>
      exact returns_ok rfl
  | failed =>
      exact returns_error _ _
  | landed =>
      exact returns_error _ _

/-- The committed receipt that stands behind an applied result. -/
def AnsweredAt (v : Vault) (input : UpdateClaimedSliceInput)
    (generation : Nat) (result : ThreadMutationResult) : Prop :=
  exists receipt,
    receiptAt v (receiptIdOf input generation) = some receipt ∧
      receipt.status = WorkerUpdateReceiptStatus.committed ∧
      receipt.kind = workerEventKind input.action ∧
      receipt.response.slice = result.slice

/-- A revision of exactly this update has landed. -/
def Applied (v : Vault) (input : UpdateClaimedSliceInput)
    (generation : Nat) : Prop :=
  exists entry, entry ∈ v.landed ∧ entry.cause = Cause.worker input generation

/-- An update that returns has been answered at the generation that it found.
Either its own revision has landed, or it has only swept. -/
def Answered (v v' : Vault) (input : UpdateClaimedSliceInput)
    (result : ThreadMutationResult) : Prop :=
  exists slice, HasSlice v.note slice ∧ slice.id = input.sliceId ∧
    AnsweredAt v' input slice.requireGeneration result ∧
    (Applied v' input slice.requireGeneration ∨ OnlyExpired v v')

theorem answeredAt_of_same
    {input : UpdateClaimedSliceInput} {generation : Nat}
    {result : ThreadMutationResult}
    (h : AnsweredAt v input generation result)
    (hreceipts : v'.receipts = v.receipts) :
    AnsweredAt v' input generation result := by
  unfold AnsweredAt receiptAt at *
  rw [hreceipts]
  exact h

theorem applied_of_justLanded
    {input : UpdateClaimedSliceInput} {plan : ThreadPlan}
    {generation now : Nat}
    (h : Wrote v plan (Cause.worker input generation) now v')
    (hlanded : v''.landed = v'.landed) : Applied v'' input generation := by
  refine ⟨{ cause := Cause.worker input generation
            now := now
            before := v.note
            after := plan }, ?_, rfl⟩
  rw [hlanded, h]
  exact List.mem_cons_self ..

theorem safe_deleteCompletedSecret (completed : Bool) (claimId : ClaimId) :
    Safe host (deleteCompletedSecret completed claimId)
      (fun _ v' => SecretsOnly v v') v := by
  unfold deleteCompletedSecret
  split
  · refine Program.guarded_mono (safe_deleteClaimSecretsBestEffort _) ?_
    intro _ _ h
    exact h.only
  · rfl

theorem justLanded_of_wrote
    {plan : ThreadPlan} {input : UpdateClaimedSliceInput} {generation now : Nat}
    (h : Wrote v plan (Cause.worker input generation) now v') :
    JustLanded v' (receiptIdOf input generation)
      (workerEventKind input.action) := by
  refine ⟨input,
    { cause := Cause.worker input generation
      now := now
      before := v.note
      after := plan }, v.landed, ?_, rfl, rfl, rfl⟩
  rw [h]
  rfl

theorem justLanded_of_same
    {id : ReceiptId} {kind : String}
    (h : JustLanded v id kind) (hlanded : v'.landed = v.landed) :
    JustLanded v' id kind := by
  unfold JustLanded at *
  rw [hlanded]
  exact h

/-- No receipt, or one whose update has not been found in the note. -/
def Unsettled (v : Vault) (input : UpdateClaimedSliceInput)
    (generation : Nat) : Prop :=
  forall existing, receiptAt v (receiptIdOf input generation) = some existing ->
    existing.status = WorkerUpdateReceiptStatus.pending ∧
      existing.kind = workerEventKind input.action ∧
      looksCommitted v.note input.sliceId existing = false

theorem safe_persistWorkerAction
    {input : UpdateClaimedSliceInput} {clock : Clock} {slice : ThreadSlice}
    {claim : ThreadClaimRef} {envelope : ClaimSecretEnvelope}
    (hauth : AuthorizedBy v input clock.now slice claim envelope)
    (hgate : isComplete input.action = true -> GateOpen v slice)
    (hunsettled : Unsettled v input slice.requireGeneration) :
    Safe host
      (persistWorkerAction host input clock v.note claim
        slice.requireGeneration v.journal)
      (Returns fun result v' =>
        AnsweredAt v' input slice.requireGeneration result ∧
          Applied v' input slice.requireGeneration) v := by
  refine safe_then (safe_applied _) ?_
  rintro applied s ⟨rfl, happlied⟩
  refine safe_then (safe_findSlice _ _) ?_
  rintro nextSlice s' ⟨rfl, hnextSlice, _⟩
  have hgeneration :
      nextSlice.requireGeneration = slice.requireGeneration := by
    rcases applyWorkerAction_spec happlied with ⟨_, _, f, hslices, heffect⟩
    have hkeeps := fun s => workerEffect_keeps (heffect s)
    have hfound :
        HasSlice (nextAfterAction applied input.sliceId) (f slice) := by
      apply hasSlice_replaceById hauth.present _ fun s => (hkeeps s).1
      rw [hauth.named]
      exact hslices
    have hsame : nextSlice = f slice := by
      apply hasSlice_unique hfound (mem_of_hasSlice hnextSlice)
      rw [(hkeeps slice).1, hauth.named]
      assumption
    rw [hsame]
    unfold PlanSlice.requireGeneration
    rw [(hkeeps slice).2.1]
  simp only
  generalize hreceipt :
    ({ id := receiptIdOf input slice.requireGeneration
       claim_id := claim.claim_id
       kind := workerEventKind input.action
       token_digest := { token := input.token }
       status := WorkerUpdateReceiptStatus.pending
       response :=
        { slice := nextSlice
          ready_before := readyIds host s'.note clock.now
          ready_after :=
            readyIds host (nextAfterAction applied input.sliceId) clock.now
          rev := s'.note.rev + 1 } } : WorkerUpdateReceiptEnvelope) = receipt
  have hid : receipt.id = receiptIdOf input slice.requireGeneration := by
    rw [← hreceipt]
  have hkind : receipt.kind = workerEventKind input.action := by
    rw [← hreceipt]
  have hpending : receipt.status = WorkerUpdateReceiptStatus.pending := by
    rw [← hreceipt]
  have hrev : receipt.rev = s'.note.rev + 1 := by
    rw [← hreceipt]
    rfl
  have hresponse : receipt.response.slice = nextSlice := by
    rw [← hreceipt]
  have hresponseGeneration :
      receipt.response.slice.requireGeneration = receipt.id.generation := by
    rw [hresponse, hid, hgeneration]
    rfl
  refine safe_then (safe_writeReceipt ?_) ?_
  · refine ReceiptStep.pending input slice hid hkind hpending hrev hauth.present
      hauth.named ?_ hresponseGeneration ?_
    · rw [hauth.claimed]
      rfl
    · rw [hid]
      exact hunsettled
  intro _ w hw
  -- the receipt commits wherever the note is the last that landed
  have hcommit : forall x : Vault,
      JustLanded x (receiptIdOf input slice.requireGeneration)
        (workerEventKind input.action) ->
      ReceiptStep x
        { receipt with status := WorkerUpdateReceiptStatus.committed } := by
    intro x hx
    refine ReceiptStep.landed ?_ rfl hresponseGeneration
    change JustLanded x receipt.id receipt.kind
    rw [hid, hkind]
    exact hx
  have hstored :
      receiptAt w (receiptIdOf input slice.requireGeneration) =
        some receipt := by
    rw [hw, ← hid]
    exact receiptAt_writeReceipt s' receipt
  have hauthW : AuthorizedBy w input clock.now slice claim envelope := by
    rw [hw]
    exact { hauth with }
  have hnote : s'.note = w.note := by
    rw [hw]
    rfl
  have hjournal : s'.journal = w.journal := by
    rw [hw]
    rfl
  rw [hnote] at happlied hrev ⊢
  rw [hjournal]
  refine safe_then
    (safe_persistOrCleanUp (v := w) ?_ not_intended_of_rev ?_) ?_
  · intro _
    refine ⟨slice, claim, envelope, clock.wall, applied, receipt, hauthW, rfl,
      happlied, rfl, hstored, hpending, hrev, hkind, ?_⟩
    intro hcomplete
    rcases hgate hcomplete with h | ⟨h, hjournaled⟩
    · exact Or.inl h
    · rw [hjournal] at hjournaled
      exact Or.inr ⟨h, hjournaled⟩
  · intro committed x hwrote
    cases committed with
    | true =>
        have hlanded := justLanded_of_wrote (hwrote rfl)
        refine Program.guarded_seq (P := fun _ _ => True)
          (safe_bestEffort (R := fun _ => True) ?_ fun _ _ => True.intro)
          ?_ fun _ _ _ => True.intro
        · exact Program.guarded_mono (safe_writeReceipt (hcommit x hlanded))
            fun _ _ _ => True.intro
        · intro _ y _
          exact Program.guarded_mono (safe_deleteCompletedSecret _ _)
            fun _ _ _ => True.intro
    | false =>
        exact True.intro
  · rintro persisted x ⟨rfl, hwrote⟩
    refine safe_then (safe_returns (safe_deleteCompletedSecret _ _)) ?_
    intro _ y hy
    have hlanded : JustLanded y (receiptIdOf input slice.requireGeneration)
        (workerEventKind input.action) := by
      apply justLanded_of_same (justLanded_of_wrote hwrote)
      rw [hy]
    refine safe_then (safe_writeReceipt (hcommit y hlanded)) ?_
    intro _ z hz
    have hjournal' : w.journal = z.journal := by
      rw [hz]
      change w.journal = y.journal
      rw [hy, hwrote]
      rfl
    rw [hjournal']
    refine safe_then (safe_journal (safe_recordThreadMutationEvents _)) ?_
    rintro _ z' ⟨hz', _⟩
    apply returns_ok
    constructor
    · apply answeredAt_of_same (v := z)
      · refine ⟨{ receipt with status := WorkerUpdateReceiptStatus.committed },
          ?_, rfl, hkind, hresponse⟩
        rw [hz, ← hid]
        exact receiptAt_writeReceipt y _
      · rw [hz']
    · apply applied_of_justLanded hwrote
      rw [hz', hz]
      change y.landed = _
      rw [hy]

/-!
## The update under the lock
-/

theorem safe_applyAuthorized
    {input : UpdateClaimedSliceInput} {clock : Clock} {slice : ThreadSlice}
    (hslice : HasSlice v.note slice) (hid : slice.id = input.sliceId)
    (hunsettled : Unsettled v input slice.requireGeneration) :
    Safe host (applyAuthorized host input clock v.note v.journal)
      (Returns fun result v' =>
        AnsweredAt v' input slice.requireGeneration result ∧
          Applied v' input slice.requireGeneration) v := by
  refine safe_then (safe_findSlice v.note input.sliceId) ?_
  rintro found s ⟨rfl, hfound, hfoundId⟩
  have hsame : found = slice :=
    hasSlice_unique hslice (mem_of_hasSlice hfound) (hfoundId.trans hid.symm)
  subst hsame
  refine safe_then (safe_authorizeWorker hslice hid) ?_
  rintro claim s' ⟨rfl, envelope, hauth⟩
  refine safe_then (safe_passStartGate _ _ _) ?_
  rintro ⟨⟩ w ⟨rfl, hgate⟩
  exact safe_persistWorkerAction hauth hgate hunsettled

theorem safe_replayOrApply
    {input : UpdateClaimedSliceInput} {clock : Clock} {slice : ThreadSlice}
    {existing : Option WorkerUpdateReceiptEnvelope}
    (hslice : HasSlice v.note slice) (hid : slice.id = input.sliceId)
    (hloaded : LoadedReceipt v input slice.requireGeneration existing)
    (hpending : forall receipt, existing = some receipt ->
      receipt.status = WorkerUpdateReceiptStatus.pending) :
    Safe host (replayOrApply host input clock v.note existing v.journal)
      (Returns fun result v' =>
        AnsweredAt v' input slice.requireGeneration result ∧
          (Applied v' input slice.requireGeneration ∨ OnlyExpired v v'))
      v := by
  cases hexisting : existing with
  | none =>
      refine safe_weaken (safe_applyAuthorized hslice hid ?_)
        fun _ _ h => ⟨h.1, Or.inl h.2⟩
      intro receipt hreceipt
      rw [hloaded.1, hexisting] at hreceipt
      cases hreceipt
  | some receipt =>
      have hstored := hloaded.1
      rw [hexisting] at hstored
      have hkind := hloaded.2 receipt hexisting
      have hreceiptId := id_of_receiptAt hstored
      change Safe host
        (if looksCommitted v.note input.sliceId receipt then _ else _) _ v
      split
      · rename_i hlooks
        refine safe_then (safe_writeReceipt ?_) ?_
        · refine ReceiptStep.promoted input receipt ?_ ?_ hkind hlooks rfl
          · change receiptAt v receipt.id = some receipt
            rw [hreceiptId]
            exact hstored
          · change receipt.id = receiptIdOf input receipt.id.generation
            rw [hreceiptId]
            rfl
        · intro _ s hs
          apply returns_ok
          constructor
          · refine ⟨{ receipt with
              status := WorkerUpdateReceiptStatus.committed }, ?_, rfl, hkind,
              rfl⟩
            rw [hs, ← hreceiptId]
            exact receiptAt_writeReceipt v _
          · right
            apply onlyExpired_of_same
            rw [hs]
            rfl
      · rename_i hlooks
        refine safe_weaken (safe_applyAuthorized hslice hid ?_)
          fun _ _ h => ⟨h.1, Or.inl h.2⟩
        intro other hother
        rw [hstored] at hother
        cases hother
        exact ⟨hpending receipt hexisting, hkind, by simpa using hlooks⟩

/-- A call whose own claim was not swept away goes on with the slice and the
receipt that it has read before the sweep. -/
theorem unswept
    {input : UpdateClaimedSliceInput} {now : Nat}
    {receiptSlice slice : ThreadSlice}
    {existing : Option WorkerUpdateReceiptEnvelope}
    (hreceiptSlice : HasSlice v.note receiptSlice)
    (hreceiptId : receiptSlice.id = input.sliceId)
    (hloaded : LoadedReceipt v input receiptSlice.requireGeneration existing)
    (hswept : Swept now v v')
    (hslice : HasSlice v'.note slice) (hid : slice.id = input.sliceId)
    (hown : sweptOwnClaim receiptSlice slice now = false) :
    slice = receiptSlice ∧
      LoadedReceipt v' input receiptSlice.requireGeneration existing := by
  have hbefore : slicesAt v.note input.sliceId = [receiptSlice] := by
    rw [← hreceiptId]
    exact slicesAt_of_hasSlice hreceiptSlice
  have hafter : slicesAt v'.note input.sliceId = [slice] := by
    rw [← hid]
    exact slicesAt_of_hasSlice hslice
  rcases hswept.slices input.sliceId with
    ⟨hsame, hreceipts⟩ | ⟨stale, cleared, hstale, his, hcleared, hclaim⟩
  · rw [hafter, hbefore] at hsame
    cases hsame
    refine ⟨rfl, ?_, hloaded.2⟩
    rw [hreceipts _ rfl]
    exact hloaded.1
  · rw [hbefore] at hstale
    rw [hafter] at hcleared
    cases hstale
    cases hcleared
    unfold isStale at his
    unfold sweptOwnClaim at hown
    rw [hclaim] at hown
    rcases Bool.and_eq_true _ _ |>.mp his with ⟨hsome, hlive⟩
    rw [hsome, hlive] at hown
    cases hown

theorem safe_sweepAndApply
    {input : UpdateClaimedSliceInput} {clock : Clock}
    {receiptSlice : ThreadSlice}
    {existing : Option WorkerUpdateReceiptEnvelope}
    (hslice : HasSlice v.note receiptSlice)
    (hid : receiptSlice.id = input.sliceId)
    (hloaded : LoadedReceipt v input receiptSlice.requireGeneration existing)
    (hpending : forall receipt, existing = some receipt ->
      receipt.status = WorkerUpdateReceiptStatus.pending) :
    Safe host
      (sweepAndApply host input clock v.note receiptSlice existing)
      (Returns fun result v' =>
        AnsweredAt v' input receiptSlice.requireGeneration result ∧
          (Applied v' input receiptSlice.requireGeneration ∨
            OnlyExpired v v')) v := by
  refine safe_then (safe_prepared input.workerAgentId v.note clock.now) ?_
  rintro ordered s ⟨hs, rfl⟩
  have hnote : v.note = s.note := (journalOnly_note hs).symm
  have hloadedS :
      LoadedReceipt s input receiptSlice.requireGeneration existing := by
    refine ⟨?_, hloaded.2⟩
    rw [hs]
    exact hloaded.1
  rw [hnote] at hslice ⊢
  refine safe_then (safe_sweep input.workerAgentId clock) ?_
  rintro ⟨plan, ordered⟩ s' ⟨hplan, hordered, hswept, _⟩
  simp only at hplan hordered ⊢
  rw [hplan, hordered]
  refine safe_then (safe_findSlice s'.note input.sliceId) ?_
  rintro slice w ⟨rfl, hfound, hfoundId⟩
  refine safe_then
    (safe_require (R := fun _ v' => v' = w ∧
      sweptOwnClaim receiptSlice slice clock.now = false)
      fun h => ⟨rfl, by simpa using h⟩) ?_
  rintro ⟨⟩ w' ⟨rfl, hown⟩
  rcases unswept hslice hid hloadedS hswept hfound hfoundId hown with
    ⟨rfl, hloadedW⟩
  refine safe_weaken (safe_replayOrApply hfound hfoundId hloadedW hpending) ?_
  rintro result x ⟨hanswered, happlied | hexpired⟩
  · exact ⟨hanswered, Or.inl happlied⟩
  · refine ⟨hanswered, Or.inr (onlyExpired_trans ?_ hexpired)⟩
    have hprepared : OnlyExpired v s := by
      apply onlyExpired_of_same
      rw [hs]
    exact onlyExpired_trans hprepared hswept.expired

theorem safe_applyClaimedSlice
    (input : UpdateClaimedSliceInput) (clock : Clock) :
    Safe host (applyClaimedSlice host input clock)
      (Returns fun result v' => Answered v v' input result) v := by
  refine safe_then safe_theNote ?_
  rintro plan s ⟨rfl, rfl⟩
  refine safe_then
    (P := fun _ v' => v' = s)
    (safe_read True.intro rfl (returns_ok rfl) (returns_error _ _)) ?_
  rintro reserved s' rfl
  refine safe_then (safe_require (R := fun _ v' => v' = s') fun _ => rfl) ?_
  rintro ⟨⟩ w rfl
  refine safe_then (safe_findSlice w.note input.sliceId) ?_
  rintro receiptSlice w' ⟨rfl, hslice, hid⟩
  refine safe_then (safe_loadWorkerUpdateReceipt _ _ _) ?_
  rintro existing x ⟨rfl, hloaded⟩
  have hanswer : forall (result : ThreadMutationResult) y,
      AnsweredAt y input receiptSlice.requireGeneration result ∧
        (Applied y input receiptSlice.requireGeneration ∨ OnlyExpired x y) ->
      Answered x y input result := by
    intro result y hy
    exact ⟨receiptSlice, hslice, hid, hy⟩
  cases hexisting : existing with
  | none =>
      rw [hexisting] at hloaded
      refine safe_weaken (safe_sweepAndApply hslice hid hloaded ?_) hanswer
      intro receipt hreceipt
      cases hreceipt
  | some receipt =>
      rw [hexisting] at hloaded
      simp only
      split
      · rename_i hcommitted
        split
        · refine safe_then (safe_prepared _ _ _) ?_
          rintro ordered y ⟨hy, _⟩
          apply returns_ok
          apply hanswer
          constructor
          · refine ⟨receipt, ?_, hcommitted, hloaded.2 receipt rfl, rfl⟩
            rw [hy]
            exact hloaded.1
          · right
            apply onlyExpired_of_same
            rw [hy]
        · exact returns_error _ _
      · rename_i hcommitted
        refine safe_weaken (safe_sweepAndApply hslice hid hloaded ?_) hanswer
        intro other hother
        cases hother
        cases hstatus : receipt.status with
        | pending =>
            rfl
        | committed =>
            exact absurd hstatus hcommitted

/-!
## The drain
-/

theorem safe_removeQueuedWorkerWrite (idempotencyKey : String) :
    Safe host (removeQueuedWorkerWrite idempotencyKey)
      (fun _ v' => v' = { v with queue := v'.queue }) v := by
  apply safe_bestEffort (R := fun v' => v' = { v with queue := v'.queue })
  · refine safe_perform True.intro ?_
    intro x
    cases x with
    | done =>
        rfl
    | failed =>
        rfl
    | landed =>
        rfl
  · intro s hs
    exact hs

theorem retired_of_dead
    {plan : ThreadPlan} {item : QueuedWorkerWrite} {generation : Nat}
    (hgeneration : item.generation = some generation)
    (hdead : queuedWriteIsLiveWork plan item = false) :
    RetiredGeneration plan item.sliceId generation := by
  intro slice hslice hid hsame
  unfold queuedWriteIsLiveWork at hdead
  have hfilter : plan.slices.filter (fun s => s.id = item.sliceId) =
      [slice] := by
    rw [← hid]
    exact hslice
  rw [hfilter] at hdead
  have hmatches : queuedWriteMatchesLiveGeneration item slice = true := by
    unfold queuedWriteMatchesLiveGeneration
    rw [hgeneration]
    exact decide_eq_true hsame.symm
  simpa [hmatches] using hdead

theorem safe_dropDeadTicket
    {item : QueuedWorkerWrite}
    (hdead : queuedWriteIsLiveWork v.note item = false) :
    Safe host (dropDeadTicket host item) (Returns fun _ _ => True) v := by
  refine safe_then (safe_returns (safe_removeQueuedWorkerWrite _)) ?_
  intro _ s hs
  refine safe_then (P := fun _ _ => True) ?_ ?_
  · unfold pruneTicketGeneration
    split
    · exact returns_ok True.intro
    · rename_i generation hgeneration
      refine Program.guarded_mono (safe_prune ?_) fun _ _ _ _ _ => True.intro
      rw [hs]
      exact retired_of_dead hgeneration hdead
  · intro _ s' _
    refine safe_then safe_listQueuedWorkerWrites ?_
    intro _ _ _
    exact returns_ok True.intro

theorem safe_claimTokenFromExistingStore
    (plan : ThreadPlan) (item : QueuedWorkerWrite) :
    Safe host (claimTokenFromExistingStore plan item)
      (Returns fun _ v' => v' = v) v := by
  refine safe_then (safe_findSlice plan item.sliceId) ?_
  rintro slice s ⟨rfl, _⟩
  refine safe_then (safe_ofOption (R := fun _ v' => v' = s) fun _ _ => rfl) ?_
  rintro claim s' rfl
  refine safe_then (safe_readSecret _) ?_
  rintro stored w ⟨rfl, rfl⟩
  refine safe_then (safe_ofOption (R := fun _ v' => v' = w) fun _ _ => rfl) ?_
  rintro envelope w' rfl
  refine safe_then (safe_require (R := fun _ v' => v' = w') fun _ => rfl) ?_
  rintro ⟨⟩ x rfl
  refine safe_then (safe_require (R := fun _ v' => v' = x) fun _ => rfl) ?_
  rintro ⟨⟩ y rfl
  exact returns_ok rfl

theorem safe_drainLiveTicket
    (clock : Clock) (item : QueuedWorkerWrite) :
    Safe host (drainLiveTicket host clock v.note item)
      (Returns fun _ _ => True) v := by
  refine safe_then (safe_claimTokenFromExistingStore _ _) ?_
  rintro token s rfl
  refine safe_then (safe_applyClaimedSlice _ _) ?_
  intro _ s' _
  refine safe_then (safe_returns (safe_removeQueuedWorkerWrite _)) ?_
  intro _ w _
  refine safe_then safe_listQueuedWorkerWrites ?_
  intro _ _ _
  exact returns_ok True.intro

theorem safe_drainOneQueuedWorkerWrite (clock : Clock) :
    Safe host (drainOneQueuedWorkerWrite host clock)
      (Returns fun _ _ => True) v := by
  refine safe_then safe_listQueuedWorkerWrites ?_
  rintro items s rfl
  cases pickNextQueuedWorkerWrite items with
  | none =>
      exact returns_ok True.intro
  | some item =>
      refine safe_then
        (P := fun _ v' => v' = s)
        (safe_read True.intro rfl (returns_ok rfl) (returns_error _ _)) ?_
      rintro reserved s' rfl
      split
      · exact returns_ok True.intro
      · refine safe_then safe_theNote ?_
        rintro plan w ⟨rfl, rfl⟩
        split
        · exact safe_drainLiveTicket clock item
        · rename_i hdead
          exact safe_dropDeadTicket (by simpa using hdead)

end Thread
end Minni
