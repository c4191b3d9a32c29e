import Minni.Thread.SweepSpecs

/-!
# Specifications of assignment and claim

Both calls write the note once, after the sweep where there is one.  A claim
that returns has put its envelope to the slice, or has found it there.
-/

namespace Minni
namespace Thread

open Foundation

variable {host : Host} {v v' v'' : Vault}

theorem safe_theNote :
    Safe host Act.readNote (Returns fun plan v' => v' = v ∧ plan = v.note) v :=
  safe_readNote (returns_ok ⟨rfl, rfl⟩) (returns_error _ _)

theorem safe_readSecret (id : ClaimId) :
    Safe host (Program.perform (VaultOp.readSecret id))
      (Returns fun stored v' => v' = v ∧ stored = v.envelope id) v :=
  safe_read True.intro rfl (returns_ok ⟨rfl, rfl⟩) (returns_error _ _)

theorem safe_prepared
    (actor : String) (plan : ThreadPlan) (now : Nat) :
    Safe host (prepareThreadMutation host actor plan now)
      (Returns fun ordered v' => JournalOnly v v' ∧ ordered = v'.journal) v :=
  safe_journal (safe_prepareThreadMutation actor plan now)

/-- The sweep of all slices leaves no stale claim. -/
theorem safe_sweep (actor : String) (clock : Clock) :
    Safe host
      (synchronizeExpiredClaimsForPlan host actor clock v.note.slices v.note
        v.journal)
      (Returns fun r v' => r.1 = v'.note ∧ r.2 = v'.journal ∧
        Swept clock.now v v' ∧
        forall sliceId, NoStale clock.now v'.note sliceId) v := by
  refine safe_weaken
    (safe_synchronizeExpiredClaimsForPlan actor clock v.note.slices) ?_
  rintro r s ⟨hplan, hordered, hswept, hstale⟩
  refine ⟨hplan, hordered, hswept, ?_⟩
  intro sliceId slice hslice
  rcases hswept.slices sliceId with
    ⟨hsame, _⟩ | ⟨_, cleared, _, _, hcleared, hclaim⟩
  · have hbefore : slice ∈ slicesAt v.note sliceId := by
      rw [← hsame]
      exact hslice
    have hmem := List.mem_filter.mp hbefore
    have hid : slice.id = sliceId := of_decide_eq_true hmem.2
    cases hvalue : isStale clock.now slice with
    | false =>
        rfl
    | true =>
        have hnone := hstale slice hmem.1 hvalue
        rw [hid] at hnone
        have hfalse := hnone slice hslice
        rw [hvalue] at hfalse
        cases hfalse
  · rw [hcleared] at hslice
    rw [List.mem_singleton.mp hslice]
    exact isStale_of_claim_none hclaim _

theorem safe_synchronizeExpiredClaims (actor : String) (clock : Clock) :
    Safe host (synchronizeExpiredClaims host actor clock)
      (Returns fun _ _ => True) v := by
  refine safe_then safe_theNote ?_
  rintro plan s ⟨rfl, rfl⟩
  split
  · refine safe_then (safe_prepared actor s.note clock.now) ?_
    rintro ordered s' ⟨hs', rfl⟩
    rw [← journalOnly_note hs']
    refine safe_then (safe_sweep actor clock) ?_
    intro r s'' _
    exact returns_ok True.intro
  · exact returns_ok True.intro

theorem deleted_note
    {ids : List ClaimId} (h : Deleted ids v v') : v'.note = v.note := by
  rw [h.only]

/-!
## Assignment
-/

/-- Only envelopes and receipts may differ. -/
def Tidied (v v' : Vault) : Prop :=
  v' = { v with secrets := v'.secrets, receipts := v'.receipts }

theorem tidied_trans (h : Tidied v v') (h' : Tidied v' v'') :
    Tidied v v'' := by
  unfold Tidied at *
  rw [h', h]

theorem tidied_of_secretsOnly (h : SecretsOnly v v') : Tidied v v' := by
  unfold SecretsOnly at h
  unfold Tidied
  rw [h]

theorem tidied_of_receiptsOnly (h : ReceiptsOnly v v') : Tidied v v' := by
  unfold ReceiptsOnly at h
  unfold Tidied
  rw [h]

theorem tidied_journal (h : Tidied v v') : v'.journal = v.journal := by
  rw [h]

theorem safe_deleteClaimOf (slice : ThreadSlice) :
    Safe host (deleteClaimOf slice) (fun _ v' => SecretsOnly v v') v := by
  unfold deleteClaimOf
  split
  · rfl
  · refine Program.guarded_mono (safe_deleteClaimSecretsBestEffort _) ?_
    intro _ _ h
    exact h.only

theorem safe_pruneReassigned
    {slice : ThreadSlice}
    (h : slice.assigned_to.isSome = true ->
      RetiredGeneration v.note slice.id slice.requireGeneration) :
    Safe host (pruneReassigned slice) (fun _ v' => ReceiptsOnly v v') v := by
  unfold pruneReassigned
  split
  · rename_i hsome
    apply safe_pruneCollectedGenerations
    intro generation hgeneration
    rw [List.mem_singleton.mp hgeneration]
    exact h hsome
  · rfl

theorem safe_cleanUpReassigned
    {slice : ThreadSlice}
    (h : slice.assigned_to.isSome = true ->
      RetiredGeneration v.note slice.id slice.requireGeneration) :
    Safe host (cleanUpReassigned slice) (fun _ v' => Tidied v v') v := by
  refine Program.guarded_seq (safe_pruneReassigned h) ?_ ?_
  · intro _ s hs
    refine Program.guarded_mono (safe_deleteClaimOf slice) ?_
    intro _ s' hs'
    exact tidied_trans (tidied_of_receiptsOnly hs) (tidied_of_secretsOnly hs')
  · intro _ s hs
    exact tidied_of_receiptsOnly hs

theorem nonTerminal_of_pending
    {slice : ThreadSlice} (h : slice.status = PlanSliceStatus.pending) :
    isNonTerminal slice = true := by
  simp [isNonTerminal, h]

theorem assignedSlice_generation
    {slice : ThreadSlice} {workerAgentId : String} {profile : Option String}
    (h : slice.assigned_to.isSome = true) :
    (assignedSlice slice workerAgentId profile).requireGeneration =
      slice.requireGeneration + 1 := by
  simp [assignedSlice, PlanSlice.requireGeneration, h]

theorem retired_of_assigned
    {plan : ThreadPlan} {slice : ThreadSlice} {workerAgentId : String}
    {profile : Option String} {clock : Clock}
    (hslice : HasSlice plan slice) (hsome : slice.assigned_to.isSome = true) :
    RetiredGeneration
      (persistedPlan
        (replaceSlice plan slice.id
          (assignedSlice slice workerAgentId profile)) clock)
      slice.id slice.requireGeneration := by
  have hnext : HasSlice
      (persistedPlan
        (replaceSlice plan slice.id
          (assignedSlice slice workerAgentId profile)) clock)
      (assignedSlice slice workerAgentId profile) :=
    hasSlice_persisted hslice rfl
  apply retired_of_next hnext
  · rfl
  · rw [assignedSlice_generation hsome]
    omega

theorem safe_assignSlice (input : AssignSliceInput) (clock : Clock) :
    Safe host (assignSlice host input clock) (Returns fun _ _ => True) v := by
  refine safe_then safe_theNote ?_
  rintro plan s ⟨rfl, rfl⟩
  refine safe_then (safe_prepared input.actorAgentId s.note clock.now) ?_
  rintro ordered s' ⟨hs', rfl⟩
  rw [← journalOnly_note hs']
  refine safe_then (safe_findSlice s'.note input.sliceId) ?_
  rintro slice w ⟨rfl, hslice, hid⟩
  refine safe_then
    (safe_require (R := fun _ w' => w' = w ∧ isNonTerminal slice = true) ?_) ?_
  · intro hcondition
    refine ⟨rfl, ?_⟩
    rcases Bool.or_eq_true _ _ |>.mp hcondition with hpending | hopen
    · exact nonTerminal_of_pending (of_decide_eq_true hpending)
    · exact (Bool.and_eq_true _ _ |>.mp hopen).1
  rintro ⟨⟩ w' ⟨rfl, hnonTerminal⟩
  rw [← hid]
  generalize assignmentProfile input.assignmentProfile = profile
  have hretired : forall x : Vault,
      x.note = persistedPlan
        (replaceSlice w'.note slice.id
          (assignedSlice slice input.workerAgentId profile)) clock ->
      slice.assigned_to.isSome = true ->
      RetiredGeneration x.note slice.id slice.requireGeneration := by
    intro x hx hsome
    rw [hx]
    exact retired_of_assigned hslice hsome
  refine safe_then (safe_persistOrCleanUp (v := w') ?_ not_intended_of_rev ?_)
    ?_
  · intro _
    exact ⟨slice, profile, hslice, rfl, hnonTerminal, rfl⟩
  · intro committed x hwrote
    cases committed with
    | true =>
        refine Program.guarded_mono (safe_cleanUpReassigned ?_)
          fun _ _ _ => True.intro
        exact hretired x (wrote_note (hwrote rfl))
    | false =>
        exact True.intro
  · rintro next x ⟨rfl, hwrote⟩
    refine safe_then
      (safe_returns (safe_cleanUpReassigned
        (hretired x (wrote_note hwrote)))) ?_
    intro _ y hy
    have hjournal : w'.journal = y.journal := by
      rw [tidied_journal hy, hwrote]
      rfl
    rw [hjournal]
    refine safe_then (safe_journal (safe_recordThreadMutationEvents _)) ?_
    intro _ z _
    exact returns_ok True.intro

/-!
## Claims
-/

/-- Envelopes may have been added. -/
def EnvelopesOnly (v v' : Vault) : Prop :=
  v' = { v with secrets := v'.secrets, nextToken := v'.nextToken }

theorem envelopesOnly_trans
    (h : EnvelopesOnly v v') (h' : EnvelopesOnly v' v'') :
    EnvelopesOnly v v'' := by
  unfold EnvelopesOnly at *
  rw [h', h]

theorem secrets_none_of_envelope_none
    {id : ClaimId} (h : v.envelope id = none) : v.secrets id = none := by
  unfold Vault.envelope at h
  exact Option.map_eq_none_iff.mp h

theorem claim_id_of_envelope
    {id : ClaimId} {envelope : ClaimSecretEnvelope}
    (h : v.envelope id = some envelope) : envelope.claim_id = id := by
  unfold Vault.envelope at h
  rcases Option.map_eq_some_iff.mp h with ⟨secret, _, rfl⟩
  rfl

theorem envelope_putSecret
    (v : Vault) (id : ClaimId) (secret : ClaimSecret) :
    (v.putSecret id (some secret)).envelope id =
      some { toClaimSecret := secret, claim_id := id } := by
  unfold Vault.envelope Vault.putSecret
  simp

/-- The envelope is stored under the identity and belongs to the worker. -/
def Obtained (id : ClaimId) (workerAgentId : String)
    (envelope : ClaimSecretEnvelope) (v : Vault) : Prop :=
  v.envelope id = some envelope ∧ envelope.worker_agent_id = workerAgentId

theorem safe_createClaimSecret
    (id : ClaimId) (workerAgentId : String) (expiresAt rev : Nat) :
    Safe host (createClaimSecret id workerAgentId expiresAt rev)
      (Returns fun envelope v' =>
        EnvelopesOnly v v' ∧ Obtained id workerAgentId envelope v') v := by
  refine safe_then (safe_readSecret id) ?_
  rintro stored s ⟨rfl, rfl⟩
  cases hexisting : s.envelope id with
  | some envelope =>
      refine safe_then
        (safe_require (R := fun _ v' => v' = s ∧
          envelope.worker_agent_id = workerAgentId) ?_) ?_
      · intro hworker
        exact ⟨rfl, of_decide_eq_true hworker⟩
      · rintro ⟨⟩ s' ⟨rfl, hworker⟩
        exact returns_ok ⟨rfl, hexisting, hworker⟩
  | none =>
      refine safe_then
        (P := fun _ v' => EnvelopesOnly s v' ∧ exists envelope,
          Obtained id workerAgentId envelope v')
        (safe_perform (secrets_none_of_envelope_none hexisting) ?_) ?_
      · intro x
        cases x with
        | done =>
            exact returns_ok ⟨rfl, _, envelope_putSecret s id _, rfl⟩
        | failed =>
            exact returns_error _ _
        | landed =>
            exact returns_error _ _
      · rintro ⟨⟩ s' ⟨honly, envelope, hstored, hworker⟩
        refine Program.guarded_tryCatch
          (P := Returns fun envelope v' =>
            EnvelopesOnly s v' ∧ Obtained id workerAgentId envelope v')
          ?_ ?_ ?_
        · refine safe_then (safe_readSecret id) ?_
          rintro stored w ⟨rfl, rfl⟩
          rw [hstored]
          exact returns_ok ⟨honly, hstored, hworker⟩
        · intro _ _ h
          exact h
        · intro e w _
          refine safe_then
            (safe_returns (P := fun _ => True)
              (safe_bestEffort (R := fun _ => True) ?_ fun _ _ =>
                True.intro)) ?_
          · exact safe_perform True.intro fun _ => True.intro
          · intro _ _ _
            exact returns_error _ _

/-- What the walk has passed lies below where it ended. -/
structure PassedBy (sliceId : String) (stale : List ClaimId)
    (pruned : List Nat) (walk : ClaimWalk) : Prop where
  claims : forall id, id ∈ walk.staleClaimIds ->
    id ∈ stale ∨ id.generation < walk.generation
  generations : forall generation, generation ∈ walk.generationsToPrune ->
    generation ∈ pruned ∨ generation < walk.generation

theorem safe_createLiveClaimSecret
    (input : ClaimSliceInput) (clock : Clock) (expiresAt rev fuel : Nat)
    (generation : Nat) (stale : List ClaimId) (pruned : List Nat) :
    Safe host
      (createLiveClaimSecret input clock expiresAt rev fuel generation stale
        pruned)
      (Returns fun walk v' => EnvelopesOnly v v' ∧
        WalkedTo v' clock.now input.sliceId input.workerAgentId
          input.idempotencyKey generation walk ∧
        PassedBy input.sliceId stale pruned walk) v := by
  induction fuel generalizing generation stale pruned v with
  | zero =>
      exact returns_error _ _
  | succ fuel ih =>
      unfold createLiveClaimSecret
      refine safe_then (safe_createClaimSecret _ _ _ _) ?_
      rintro envelope s ⟨honly, hstored, hworker⟩
      have hid := claim_id_of_envelope hstored
      split
      · rename_i hlive
        apply returns_ok
        refine ⟨honly, ⟨Nat.le_refl _, hid, hworker, ?_, hlive⟩,
          ⟨fun _ h => Or.inl h, fun _ h => Or.inl h⟩⟩
        change s.envelope envelope.claim_id = some envelope
        rw [hid]
        exact hstored
      · refine safe_weaken (ih _ _ _) ?_
        rintro walk s' ⟨honly', hwalked, hpassed⟩
        have hup : generation + 1 ≤ walk.generation := hwalked.upward
        refine ⟨envelopesOnly_trans honly honly',
          { hwalked with upward := by omega }, ⟨?_, ?_⟩⟩
        · intro id hmem
          rcases hpassed.claims id hmem with h | h
          · rcases List.mem_append.mp h with h | h
            · exact Or.inl h
            · rw [List.mem_singleton.mp h, hid]
              exact Or.inr hup
          · exact Or.inr h
        · intro g hmem
          rcases hpassed.generations g hmem with h | h
          · rcases List.mem_append.mp h with h | h
            · exact Or.inl h
            · rw [List.mem_singleton.mp h]
              exact Or.inr hup
          · exact Or.inr h

/-- The slice carries the claim of the envelope, which is stored. -/
def HoldsLease (sliceId workerAgentId : String)
    (envelope : ClaimSecretEnvelope) (v : Vault) : Prop :=
  v.envelope envelope.claim_id = some envelope ∧
    exists slice claim, HasSlice v.note slice ∧ slice.id = sliceId ∧
      slice.assigned_to = some workerAgentId ∧ slice.claim = some claim ∧
      claim.claim_id = envelope.claim_id ∧
      claim.expires_at = envelope.expires_at ∧
      envelope.claim_id.slice_id = sliceId ∧
      envelope.claim_id.generation = slice.requireGeneration

theorem envelope_of_secrets
    {id : ClaimId} (h : v'.secrets id = v.secrets id) :
    v'.envelope id = v.envelope id := by
  unfold Vault.envelope
  rw [h]

theorem holdsLease_of_same
    {sliceId workerAgentId : String} {envelope : ClaimSecretEnvelope}
    (h : HoldsLease sliceId workerAgentId envelope v)
    (hnote : v'.note = v.note)
    (hsecrets : v'.secrets envelope.claim_id = v.secrets envelope.claim_id) :
    HoldsLease sliceId workerAgentId envelope v' := by
  rcases h with ⟨hstored, slice, claim, hslice, hrest⟩
  refine ⟨?_, slice, claim, ?_, hrest⟩
  · rw [envelope_of_secrets hsecrets]
    exact hstored
  · rw [hnote]
    exact hslice

theorem findIn_of_hasSlice
    {plan : ThreadPlan} {slice : ThreadSlice} (h : HasSlice plan slice) :
    findIn plan slice.id = some slice := by
  unfold findIn
  rw [← List.head?_filter, h]
  rfl

theorem claimed_not_intended
    {plan : ThreadPlan} {slice : ThreadSlice} {rev generation : Nat}
    {workerAgentId : String} {now : Nat} {walk : ClaimWalk}
    (h : HasSlice plan slice) :
    (decide (plan.rev = rev) &&
      match findIn plan slice.id with
      | none => false
      | some durable =>
          decide (durable.requireGeneration = generation) &&
            decide (durable.attempt =
              (claimedSlice slice workerAgentId now walk).attempt) &&
            decide (durable.claim =
              (claimedSlice slice workerAgentId now walk).claim)) = false := by
  have hattempt : ¬ slice.attempt = some (slice.requireAttempt + 1) := by
    intro hsame
    have hvalue : slice.requireAttempt = slice.requireAttempt + 1 := by
      conv_lhs => rw [PlanSlice.requireAttempt, hsame]
      rfl
    omega
  rw [findIn_of_hasSlice h]
  simp [claimedSlice, hattempt]

theorem safe_persistClaim
    {input : ClaimSliceInput} {clock : Clock} {slice : ThreadSlice}
    {walk : ClaimWalk}
    (hslice : HasSlice v.note slice) (hid : slice.id = input.sliceId)
    (hnonTerminal : isNonTerminal slice = true)
    (hassigned : slice.assigned_to = some input.workerAgentId)
    (hclaim : slice.claim = none)
    (hwalked : WalkedTo v clock.now input.sliceId input.workerAgentId
      input.idempotencyKey slice.requireGeneration walk)
    (hpassed : PassedBy input.sliceId [] [] walk) :
    Safe host (persistClaim host input clock v.note slice v.journal walk)
      (Returns fun envelope v' =>
        HoldsLease input.sliceId input.workerAgentId envelope v') v := by
  unfold persistClaim
  simp only
  rw [← hid]
  have hnext : forall x : Vault,
      x.note = persistedPlan
        (replaceSlice v.note slice.id
          (claimedSlice slice input.workerAgentId clock.now walk)) clock ->
      HasSlice x.note
        (claimedSlice slice input.workerAgentId clock.now walk) := by
    intro x hx
    rw [hx]
    exact hasSlice_persisted hslice rfl
  have hretired : forall x : Vault,
      x.note = persistedPlan
        (replaceSlice v.note slice.id
          (claimedSlice slice input.workerAgentId clock.now walk)) clock ->
      forall generation, generation ∈ walk.generationsToPrune ->
        RetiredGeneration x.note slice.id generation := by
    intro x hx generation hgeneration
    apply retired_of_next (hnext x hx) rfl
    rcases hpassed.generations generation hgeneration with h | h
    · cases h
    · exact h
  have hcleaned : forall x : Vault,
      Wrote v
        (persistedPlan
          (replaceSlice v.note slice.id
            (claimedSlice slice input.workerAgentId clock.now walk)) clock)
        (Cause.claim slice.id input.workerAgentId input.idempotencyKey)
        clock.now x ->
      Safe host
        (do
          deleteClaimSecretsBestEffort walk.staleClaimIds
          pruneCollectedGenerationsBestEffort slice.id
            walk.generationsToPrune)
        (Returns fun _ y => exists w, Deleted walk.staleClaimIds x w ∧
          ReceiptsOnly w y) x := by
    intro x hwrote
    refine safe_then
      (safe_returns (safe_deleteClaimSecretsBestEffort _)) ?_
    intro _ w hw
    refine safe_weaken (safe_returns (safe_pruneCollectedGenerations ?_)) ?_
    · apply hretired
      exact (deleted_note hw).trans (wrote_note hwrote)
    · intro _ y hy
      exact ⟨w, hw, hy⟩
  refine safe_then
    (safe_persistOrCleanUp (v := v) ?_ (claimed_not_intended hslice) ?_) ?_
  · intro _
    refine ⟨slice, walk, hslice, rfl, hnonTerminal, hassigned, hclaim, ?_, rfl⟩
    rw [hid]
    exact hwalked
  · intro committed x hwrote
    cases committed with
    | true =>
        exact Program.guarded_mono (hcleaned x (hwrote rfl))
          fun _ _ _ => True.intro
    | false =>
        exact Program.guarded_mono (safe_deleteClaimSecretsBestEffort _)
          fun _ _ _ => True.intro
  · rintro next x ⟨rfl, hwrote⟩
    have hlease : HoldsLease slice.id input.workerAgentId walk.envelope x := by
      refine ⟨?_, claimedSlice slice input.workerAgentId clock.now walk, _,
        hnext x (wrote_note hwrote), rfl, hassigned, rfl, rfl, rfl, ?_, ?_⟩
      · rw [envelope_of_secrets (v := v) (by rw [hwrote]; rfl)]
        exact hwalked.stored
      · rw [hwalked.ofClaim, hid]
      · rw [hwalked.ofClaim]
        rfl
    change Safe host
      (do
        deleteClaimSecretsBestEffort walk.staleClaimIds
        pruneCollectedGenerationsBestEffort slice.id walk.generationsToPrune
        let _ <- recordThreadMutationEvents host _ v.journal
        pure walk.envelope) _ x
    refine safe_then
      (safe_returns (safe_deleteClaimSecretsBestEffort _)) ?_
    intro _ w hw
    have hleaseW : HoldsLease slice.id input.workerAgentId walk.envelope w := by
      apply holdsLease_of_same hlease (deleted_note hw)
      apply hw.elsewhere
      intro hmem
      rcases hpassed.claims _ hmem with h | h
      · cases h
      · rw [hwalked.ofClaim] at h
        exact Nat.lt_irrefl _ h
    refine safe_then (safe_returns (safe_pruneCollectedGenerations ?_)) ?_
    · apply hretired
      exact (deleted_note hw).trans (wrote_note hwrote)
    · intro _ y hy
      have hjournal : v.journal = y.journal := by
        rw [hy, hw.only, hwrote]
        rfl
      rw [hjournal]
      refine safe_then (safe_journal (safe_recordThreadMutationEvents _)) ?_
      rintro _ z ⟨hz, _⟩
      apply returns_ok
      apply holdsLease_of_same hleaseW
      · rw [hz, hy]
      · rw [hz, hy]

theorem claimMetadataMatches_spec
    {slice : ThreadSlice} {workerAgentId : String}
    {existing : Option ClaimSecretEnvelope} {envelope : ClaimSecretEnvelope}
    (h : claimMetadataMatches slice workerAgentId existing = some envelope) :
    existing = some envelope ∧ exists claim, slice.claim = some claim ∧
      envelope.claim_id = claim.claim_id ∧
      claim.claim_id.slice_id = slice.id ∧
      claim.claim_id.generation = slice.requireGeneration ∧
      envelope.expires_at = claim.expires_at := by
  unfold claimMetadataMatches at h
  split at h
  · rename_i claim stored hclaim
    split at h
    · rename_i hmatches
      cases h
      rcases hmatches with ⟨hid, hslice, hgeneration, _, hexpires, _⟩
      exact ⟨rfl, claim, hclaim, hid, hslice, hgeneration, hexpires⟩
    · cases h
  · cases h

theorem safe_repairClaimSchedulerEvents (m : MutationEvents) :
    Safe host (repairClaimSchedulerEvents host m v.journal)
      (Returns fun _ v' => JournalOnly v v') v := by
  refine safe_then
    (safe_journal (safe_ensureOrderedBaseline m.plan m.actor m.now)) ?_
  rintro ordered s ⟨hs, rfl⟩
  split
  · refine safe_then (safe_journal (safe_recordThreadMutationEvents m)) ?_
    rintro _ s' ⟨hs', _⟩
    exact returns_ok (journalOnly_trans hs hs')
  · split
    · exact returns_error _ _
    · split
      · exact returns_ok hs
      · refine safe_then (safe_journal (safe_appendOrderedEventBatch _ _)) ?_
        rintro _ s' ⟨hs', _⟩
        exact returns_ok (journalOnly_trans hs hs')

theorem safe_claimHeldSlice
    {input : ClaimSliceInput} {clock : Clock} {slice : ThreadSlice}
    (hslice : HasSlice v.note slice) (hid : slice.id = input.sliceId)
    (hassigned : slice.assigned_to = some input.workerAgentId) :
    Safe host (claimHeldSlice host input clock v.note slice v.journal)
      (Returns fun envelope v' =>
        HoldsLease input.sliceId input.workerAgentId envelope v') v := by
  refine safe_then (safe_readSecret _) ?_
  rintro stored s ⟨rfl, rfl⟩
  refine safe_then
    (safe_ofOption (R := fun envelope v' => v' = s ∧
      claimMetadataMatches slice input.workerAgentId
        (s.envelope
          { slice_id := input.sliceId
            generation := slice.requireGeneration
            idempotency_key := input.idempotencyKey }) = some envelope) ?_) ?_
  · intro envelope henvelope
    exact ⟨rfl, henvelope⟩
  · rintro envelope s' ⟨rfl, henvelope⟩
    rcases claimMetadataMatches_spec henvelope with
      ⟨hstored, claim, hclaim, hclaimId, _, _, hexpires⟩
    have hown := claim_id_of_envelope hstored
    have hlease : HoldsLease input.sliceId input.workerAgentId envelope s' := by
      refine ⟨?_, slice, claim, hslice, hid, hassigned, hclaim, hclaimId.symm,
        hexpires.symm, ?_, ?_⟩
      · rw [hown]
        exact hstored
      · rw [hown]
      · rw [hown]
    refine safe_then (safe_repairClaimSchedulerEvents _) ?_
    intro _ w hw
    apply returns_ok
    apply holdsLease_of_same hlease
    · rw [hw]
    · rw [hw]

theorem safe_claimFreeSlice
    {input : ClaimSliceInput} {clock : Clock} {slice : ThreadSlice}
    (ttlSeconds : Nat)
    (hslice : HasSlice v.note slice) (hid : slice.id = input.sliceId)
    (hnonTerminal : isNonTerminal slice = true)
    (hassigned : slice.assigned_to = some input.workerAgentId)
    (hclaim : slice.claim = none) :
    Safe host
      (claimFreeSlice host input clock ttlSeconds v.note slice [] []
        v.journal)
      (Returns fun envelope v' =>
        HoldsLease input.sliceId input.workerAgentId envelope v') v := by
  refine safe_then (safe_require (R := fun _ v' => v' = v) fun _ => rfl) ?_
  rintro ⟨⟩ s rfl
  refine safe_then (safe_createLiveClaimSecret _ _ _ _ _ _ _ _) ?_
  rintro walk w ⟨honly, hwalked, hpassed⟩
  have hnote : s.note = w.note := by
    rw [honly]
  have hjournal : s.journal = w.journal := by
    rw [honly]
  rw [hjournal, hnote]
  rw [hnote] at hslice
  exact safe_persistClaim hslice hid hnonTerminal hassigned hclaim hwalked
    hpassed

theorem safe_claimSlice (input : ClaimSliceInput) (clock : Clock) :
    Safe host (claimSlice host input clock)
      (Returns fun envelope v' =>
        HoldsLease input.sliceId input.workerAgentId envelope v') v := by
  refine safe_then (safe_require (R := fun _ v' => v' = v) fun _ => rfl) ?_
  rintro ⟨⟩ s rfl
  refine safe_then (safe_require (R := fun _ v' => v' = s) fun _ => rfl) ?_
  rintro ⟨⟩ s' rfl
  refine safe_then safe_theNote ?_
  rintro plan w ⟨rfl, rfl⟩
  refine safe_then (safe_prepared input.workerAgentId w.note clock.now) ?_
  rintro ordered x ⟨hx, rfl⟩
  rw [← journalOnly_note hx]
  refine safe_then (safe_sweep input.workerAgentId clock) ?_
  rintro ⟨plan, ordered⟩ y ⟨hplan, hordered, _, hstale⟩
  simp only at hplan hordered ⊢
  rw [hplan, hordered]
  refine safe_then (safe_findSlice y.note input.sliceId) ?_
  rintro slice z ⟨rfl, hslice, hid⟩
  refine safe_then
    (safe_require (R := fun _ v' => v' = z ∧ isNonTerminal slice = true)
      fun h => ⟨rfl, h⟩) ?_
  rintro ⟨⟩ z' ⟨rfl, hnonTerminal⟩
  refine safe_then
    (safe_require (R := fun _ v' => v' = z' ∧
      slice.assigned_to = some input.workerAgentId)
      fun h => ⟨rfl, of_decide_eq_true h⟩) ?_
  rintro ⟨⟩ z ⟨rfl, hassigned⟩
  cases hclaim : slice.claim with
  | none =>
      exact safe_claimFreeSlice _ hslice hid hnonTerminal hassigned hclaim
  | some claim =>
      simp only
      split
      · exact safe_claimHeldSlice hslice hid hassigned
      · rename_i hlive
        have hfresh : isStale clock.now slice = false := by
          apply hstale slice.id
          rw [slicesAt_of_hasSlice hslice]
          exact List.mem_singleton.mpr rfl
        unfold isStale at hfresh
        rw [hclaim] at hfresh
        simp only [Option.isSome_some, Bool.true_and,
          Bool.not_eq_false'] at hfresh
        exact absurd hfresh hlive

end Thread
end Minni
