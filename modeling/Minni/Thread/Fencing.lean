import Minni.Thread.Generations

/-!
# Lease fencing

Every note that a worker's action writes is written under the worker's own
live claim, with the token that is stored for it; this needs no condition.

The token of a lease is useless once the slice has been reassigned, replanned
in its meaning, restored, or expired, as long as no slice comes back into the
plan at a generation that it was leased at.  Where one does, an envelope whose
deletion has failed is found again by the next claim of the same worker.
-/

namespace Minni
namespace Thread

open Foundation

/-- A worker's note is written under its own claim. -/
def OnlyAuthorized : VaultOp -> Vault -> Prop
  | VaultOp.writeNote _ (Cause.worker input generation) now, v =>
      exists slice claim envelope,
        AuthorizedBy v input now slice claim envelope ∧
          generation = slice.requireGeneration
  | _, _ => True

/-!
## What takes a lease away
-/

/-- Another title, gate or set of dependencies, or out of the plan. -/
def meaningChanged (before after : ThreadPlan) (sliceId : String) : Bool :=
  match findIn before sliceId, findIn after sliceId with
  | some s, some t =>
      decide (t.title ≠ s.title) || decide (t.gate ≠ s.gate) ||
        decide (Text.sortStrings (t.depends_on.getD []) ≠
          Text.sortStrings (s.depends_on.getD [])) ||
        decide (t.status ≠ s.status)
  | _, _ => false

def fences (entry : Landed) (sliceId : String) : Bool :=
  match entry.cause with
  | Cause.assign assigned _ _ => decide (assigned = sliceId)
  | Cause.expire expired _ => decide (expired = sliceId)
  | Cause.restore => true
  | Cause.replan => meaningChanged entry.before entry.after sliceId
  | Cause.delta => meaningChanged entry.before entry.after sliceId
  | _ => false

def usesToken (entry : Landed) (token : Nat) : Bool :=
  match entry.cause with
  | Cause.worker input _ => decide (input.token = token)
  | _ => false

def actsOn (entry : Landed) (sliceId : String) : Bool :=
  match entry.cause with
  | Cause.worker input _ => decide (input.sliceId = sliceId)
  | _ => false

/-- The token acts on its own slice, before the lease expires, and not after
the lease was taken away; the last revision comes first. -/
def UsedWithinLease (envelope : ClaimSecretEnvelope) : List Landed -> Prop
  | [] => True
  | entry :: earlier =>
      (usesToken entry envelope.token = true ->
        actsOn entry envelope.claim_id.slice_id = true ∧
          entry.now < envelope.expires_at ∧
          earlier.all (fun e => !fences e envelope.claim_id.slice_id) =
            true) ∧
        UsedWithinLease envelope earlier

def decidableUsedWithinLease (envelope : ClaimSecretEnvelope) :
    (landed : List Landed) -> Decidable (UsedWithinLease envelope landed)
  | [] => isTrue True.intro
  | entry :: earlier =>
      have := decidableUsedWithinLease envelope earlier
      inferInstanceAs (Decidable
        ((usesToken entry envelope.token = true ->
          actsOn entry envelope.claim_id.slice_id = true ∧
            entry.now < envelope.expires_at ∧
            earlier.all (fun e => !fences e envelope.claim_id.slice_id) =
              true) ∧
          UsedWithinLease envelope earlier))

instance (envelope : ClaimSecretEnvelope) (landed : List Landed) :
    Decidable (UsedWithinLease envelope landed) :=
  decidableUsedWithinLease envelope landed

/-- The revisions that landed between two vaults of a run. -/
def landedSince (v v' : Vault) : List Landed :=
  v'.landed.take (v'.landed.length - v.landed.length)

theorem landedSince_append
    {v v' : Vault} {recent : List Landed}
    (h : v'.landed = recent ++ v.landed) : landedSince v v' = recent := by
  unfold landedSince
  rw [h, List.length_append, Nat.add_sub_cancel, List.take_left' rfl]

/-- The token of the envelope keeps to its lease from one vault of a run to a
later one. -/
structure WithinLease (envelope : ClaimSecretEnvelope) (v v' : Vault) :
    Prop where
  used : UsedWithinLease envelope (landedSince v v')

/-- The run with a claim in it that has returned an envelope. -/
structure ClaimedIn (host : Host) (v : Vault) (first : List Event)
    (input : ClaimSliceInput) (clock : Clock) (outcomes : List Outcome)
    (envelope : ClaimSecretEnvelope) : Prop where
  returned : (((Call.claim input).program host clock).run vaultInterface
    outcomes (runEvents host v first)).1 =
      some (Except.ok (CallResult.claimed envelope))

/-- The law of leases, for the runs of a note. -/
def LeaseFencing (host : Host) (note : ThreadPlan) (events : List Event) :
    Prop :=
  RunMeets host OnlyAuthorized (newVault note) events ∧
    forall first input clock outcomes rest envelope,
      events = first ++ Event.call (Call.claim input) clock outcomes :: rest ->
      ClaimedIn host (newVault note) first input clock outcomes envelope ->
      WithinLease envelope
        (runEvents host (newVault note)
          (first ++ [Event.call (Call.claim input) clock outcomes]))
        (runEvents host (newVault note) events)

/-!
## Authority
-/

theorem onlyAuthorized_of_allowed
    {host : Host} {o : VaultOp} {v : Vault} (h : Allowed host o v) :
    OnlyAuthorized o v := by
  cases o with
  | writeNote plan cause now =>
      cases cause with
      | worker input generation =>
          rcases h.1 with ⟨slice, claim, envelope, _, _, _, hauth, hgeneration,
            _⟩
          exact ⟨slice, claim, envelope, hauth, hgeneration⟩
      | _ =>
          exact True.intro
  | _ =>
      exact True.intro

/-- In every run, whatever fails or crashes. -/
theorem run_onlyAuthorized
    (host : Host) (v : Vault) (events : List Event) :
    RunMeets host OnlyAuthorized v events := by
  induction events generalizing v with
  | nil =>
      exact True.intro
  | cons event rest ih =>
      refine ⟨?_, ih _⟩
      cases event with
      | call c clock outcomes =>
          exact Program.meets_mono (fun _ _ => onlyAuthorized_of_allowed)
            (call_allowed c clock outcomes v)
      | reserve live =>
          exact True.intro

/-!
## Tokens
-/

/-- Each token was drawn for one claim. -/
structure TokensDistinct (v : Vault) : Prop where
  drawn : forall id envelope, v.envelope id = some envelope ->
    envelope.token < v.nextToken
  distinct : forall id id' envelope envelope', v.envelope id = some envelope ->
    v.envelope id' = some envelope' -> envelope.token = envelope'.token ->
    id = id'

theorem envelope_putSecret_ne
    {v : Vault} {id id' : ClaimId} {secret : Option ClaimSecret}
    (h : id' ≠ id) :
    (v.putSecret id secret).envelope id' = v.envelope id' := by
  unfold Vault.envelope Vault.putSecret
  simp [Function.update_of_ne h]

theorem envelope_putSecret_none (v : Vault) (id : ClaimId) :
    (v.putSecret id none).envelope id = none := by
  unfold Vault.envelope Vault.putSecret
  simp

theorem envelope_unlinked
    {v : Vault} {id id' : ClaimId} {envelope : ClaimSecretEnvelope}
    (h : (v.putSecret id none).envelope id' = some envelope) :
    v.envelope id' = some envelope := by
  by_cases hid : id' = id
  · rw [hid, envelope_putSecret_none] at h
    cases h
  · rw [envelope_putSecret_ne hid] at h
    exact h

/-- An envelope after a new one was created: an old one, or the new one with
the token that was next. -/
theorem envelope_created
    {v : Vault} {id id' : ClaimId} {workerAgentId : String}
    {expiresAt rev : Nat} {envelope : ClaimSecretEnvelope}
    (h : (Vault.effect (VaultOp.createSecret id workerAgentId expiresAt rev)
      v).envelope id' = some envelope) :
    v.envelope id' = some envelope ∨
      id' = id ∧ envelope.token = v.nextToken := by
  change (v.putSecret id _).envelope id' = some envelope at h
  by_cases hid : id' = id
  · rw [hid, envelope_putSecret] at h
    cases h
    exact Or.inr ⟨hid, rfl⟩
  · rw [envelope_putSecret_ne hid] at h
    exact Or.inl h

theorem tokensDistinct_step
    {v : Vault} (h : TokensDistinct v) (o : VaultOp) :
    TokensDistinct (Vault.effect o v) := by
  cases o with
  | createSecret id workerAgentId expiresAt rev =>
      constructor
      · intro other envelope henvelope
        change envelope.token < v.nextToken + 1
        rcases envelope_created henvelope with hold | ⟨_, htoken⟩
        · have := h.drawn other envelope hold
          omega
        · omega
      · intro first second envelope envelope' hfirst hsecond htoken
        rcases envelope_created hfirst with hold | ⟨hid, hnew⟩
        · rcases envelope_created hsecond with hold' | ⟨_, hnew'⟩
          · exact h.distinct first second envelope envelope' hold hold' htoken
          · have := h.drawn first envelope hold
            omega
        · rcases envelope_created hsecond with hold' | ⟨hid', _⟩
          · have := h.drawn second envelope' hold'
            omega
          · rw [hid, hid']
  | unlinkSecret id =>
      constructor
      · intro other envelope henvelope
        exact h.drawn other envelope (envelope_unlinked henvelope)
      · intro first second envelope envelope' hfirst hsecond htoken
        exact h.distinct first second envelope envelope'
          (envelope_unlinked hfirst) (envelope_unlinked hsecond) htoken
  | _ =>
      exact ⟨h.drawn, h.distinct⟩

/-- The token belongs to this envelope wherever it is still stored. -/
structure TokenBound (envelope : ClaimSecretEnvelope) (v : Vault) : Prop where
  drawn : envelope.token < v.nextToken
  bound : forall id stored, v.envelope id = some stored ->
    stored.token = envelope.token -> stored = envelope

theorem tokenBound_of_stored
    {v : Vault} {envelope : ClaimSecretEnvelope}
    (h : TokensDistinct v)
    (hstored : v.envelope envelope.claim_id = some envelope) :
    TokenBound envelope v := by
  constructor
  · exact h.drawn _ _ hstored
  · intro id stored hid htoken
    have hsame := h.distinct _ _ _ _ hid hstored htoken
    rw [hsame, hstored] at hid
    cases hid
    rfl

theorem tokenBound_step
    {v : Vault} {envelope : ClaimSecretEnvelope}
    (h : TokenBound envelope v) (o : VaultOp) :
    TokenBound envelope (Vault.effect o v) := by
  cases o with
  | createSecret id workerAgentId expiresAt rev =>
      constructor
      · exact Nat.lt_succ_of_lt h.drawn
      · intro other stored hstored htoken
        rcases envelope_created hstored with hold | ⟨_, hnew⟩
        · exact h.bound other stored hold htoken
        · have := h.drawn
          omega
  | unlinkSecret id =>
      constructor
      · exact h.drawn
      · intro other stored hstored
        exact h.bound other stored (envelope_unlinked hstored)
  | _ =>
      exact ⟨h.drawn, h.bound⟩

/-!
## The condition on the writes of a run
-/

/-- A slice that comes into the plan is above every lease it ever had. -/
def ReturnsAboveLeases : VaultOp -> Vault -> Prop
  | VaultOp.writeNote plan _ _, v =>
      forall t, t ∈ plan.slices -> t.id ∉ v.note.slices.map (·.id) ->
        forall lease, lease ∈ leases v.landed -> lease.sliceId = t.id ->
          lease.generation < t.requireGeneration
  | _, _ => True

instance (o : VaultOp) (v : Vault) : Decidable (ReturnsAboveLeases o v) :=
  match o with
  | VaultOp.writeNote plan _ _ =>
      inferInstanceAs (Decidable (forall t, t ∈ plan.slices ->
        t.id ∉ v.note.slices.map (·.id) -> forall lease,
          lease ∈ leases v.landed -> lease.sliceId = t.id ->
            lease.generation < t.requireGeneration))
  | VaultOp.readNote | VaultOp.readHistory | VaultOp.appendHistory _
  | VaultOp.readJournal | VaultOp.appendJournal _
  | VaultOp.appendLegacyLine | VaultOp.readSecret _
  | VaultOp.createSecret _ _ _ _ | VaultOp.unlinkSecret _
  | VaultOp.readReceipt _ | VaultOp.writeReceipt _
  | VaultOp.listReceipts _ _ | VaultOp.unlinkReceipt _ | VaultOp.readQueue
  | VaultOp.writeTicket _ | VaultOp.removeTicket _
  | VaultOp.reservationIsLive =>
      isTrue True.intro

/-!
## Claims are recorded as leases
-/

variable {host : Host} {v : Vault} {plan : ThreadPlan} {now : Nat}
  {cause : Cause}

theorem hasSlice_of_nodup
    {t : ThreadSlice} (hnodup : (plan.slices.map (·.id)).Nodup)
    (ht : t ∈ plan.slices) : HasSlice plan t := by
  unfold HasSlice
  generalize plan.slices = slices at hnodup ht ⊢
  induction slices with
  | nil =>
      cases ht
  | cons s rest ih =>
      rw [List.map_cons, List.nodup_cons] at hnodup
      rcases List.mem_cons.mp ht with rfl | ht
      · have hrest : rest.filter (fun s => s.id = t.id) = [] := by
          apply List.filter_eq_nil_iff.mpr
          intro other hother hsame
          apply hnodup.1
          rw [← of_decide_eq_true hsame]
          exact List.mem_map.mpr ⟨other, hother, rfl⟩
        rw [List.filter_cons_of_pos (by simp), hrest]
      · have hne : ¬ s.id = t.id := by
          intro hsame
          apply hnodup.1
          rw [hsame]
          exact List.mem_map.mpr ⟨t, ht, rfl⟩
        rw [List.filter_cons_of_neg (by simpa using hne)]
        exact ih hnodup.2 ht

theorem leaseOf_of_mints
    {t : ThreadSlice} (hnodup : (plan.slices.map (·.id)).Nodup)
    (ht : t ∈ plan.slices) (hmints : Mints cause t) :
    exists lease,
      leaseOf { cause := cause, now := now, before := v.note, after := plan } =
        some lease ∧
      lease.sliceId = t.id ∧ lease.generation = t.requireGeneration := by
  rcases hmints with ⟨workerAgentId, key, claim, rfl, _, hclaim, _⟩
  have hfound := findIn_of_hasSlice (hasSlice_of_nodup hnodup ht)
  refine ⟨{ sliceId := t.id
            generation := t.requireGeneration
            claimId := claim.claim_id }, ?_, rfl, rfl⟩
  unfold leaseOf
  simp only
  rw [hfound, Option.bind_some, hclaim, Option.map_some]

structure LeasesRecorded (note : ThreadPlan) (landed : List Landed) :
    Prop where
  sound : ClaimsSound note
  recorded : forall s, s ∈ note.slices -> s.claim.isSome = true ->
    exists lease, lease ∈ leases landed ∧ lease.sliceId = s.id ∧
      lease.generation = s.requireGeneration

theorem mem_leases_cons
    {lease : Lease} {entry : Landed} {landed : List Landed}
    (h : lease ∈ leases landed) : lease ∈ leases (entry :: landed) := by
  rw [leases_cons]
  split
  · exact List.mem_cons_of_mem _ h
  · exact h

theorem leasesRecorded_step
    (h : NoteStep host v plan now cause)
    (hunique : assertUniqueSliceIds plan.slices "persistPlan" = Except.ok ())
    (hrecorded : LeasesRecorded v.note v.landed) :
    LeasesRecorded plan
      ({ cause := cause, now := now, before := v.note, after := plan } ::
        v.landed) := by
  refine ⟨claimsSound_step h hunique hrecorded.sound, ?_⟩
  intro t ht hsome
  rcases noteStep_origin h hunique hrecorded.sound ht with
    ⟨s, hs, hstep⟩ | hbrought
  · rcases hstep.change with
      ⟨hgeneration, hclaim⟩ | ⟨_, hnone⟩ | ⟨_, _, hnone⟩ | ⟨hmints, _, _⟩
    · rw [hclaim] at hsome
      rcases hrecorded.recorded s hs hsome with ⟨lease, hlease, hid, hgen⟩
      exact ⟨lease, mem_leases_cons hlease, hid.trans hstep.id.symm,
        hgen.trans hgeneration.symm⟩
    · rw [hnone] at hsome
      cases hsome
    · rw [hnone] at hsome
      cases hsome
    · have hminted := @leaseOf_of_mints v plan now cause t
        (assertUniqueSliceIds_ok hunique) ht hmints
      rcases hminted with ⟨lease, hlease, hid, hgeneration⟩
      refine ⟨lease, ?_, hid, hgeneration⟩
      rw [leases_cons, hlease]
      exact List.mem_cons_self ..
  · rw [hbrought.claim] at hsome
    cases hsome

/-- What holds in every run. -/
structure LeasesKept (v : Vault) : Prop where
  recorded : LeasesRecorded v.note v.landed
  tokens : TokensDistinct v

theorem leasesKept_invariant
    (host : Host) (A : VaultOp -> Vault -> Prop) :
    Invariant host A LeasesKept := by
  constructor
  · intro o v hkept _ hallowed
    refine ⟨?_, tokensDistinct_step hkept.tokens o⟩
    cases o with
    | writeNote plan cause now =>
        exact leasesRecorded_step hallowed.1 hallowed.2 hkept.recorded
    | _ =>
        exact hkept.recorded
  · intro v live hkept
    exact ⟨hkept.recorded, ⟨hkept.tokens.drawn, hkept.tokens.distinct⟩⟩

theorem leasesKept_newVault
    {note : ThreadPlan}
    (h : forall s, s ∈ note.slices -> s.claim = none) :
    LeasesKept (newVault note) := by
  have hfree : forall s, s ∈ note.slices -> ¬ s.claim.isSome = true := by
    intro s hs hsome
    rw [h s hs] at hsome
    cases hsome
  refine ⟨⟨⟨?_, ?_⟩, ?_⟩, ⟨?_, ?_⟩⟩
  · intro s hs hsome
    exact absurd hsome (hfree s hs)
  · intro s hs hsome
    exact absurd hsome (hfree s hs)
  · intro s hs hsome
    exact absurd hsome (hfree s hs)
  · intro id envelope hstored
    cases hstored
  · intro id id' envelope envelope' hstored
    cases hstored

/-!
## A lease that has been taken away
-/

/-- The slice has left the generation of the envelope behind. -/
def LeftBehind (envelope : ClaimSecretEnvelope) (plan : ThreadPlan) : Prop :=
  forall s, s ∈ plan.slices -> s.id = envelope.claim_id.slice_id ->
    envelope.claim_id.generation < s.requireGeneration

/-- The slice has not fallen below the envelope. -/
def NotBelow (envelope : ClaimSecretEnvelope) (plan : ThreadPlan) : Prop :=
  forall s, s ∈ plan.slices -> s.id = envelope.claim_id.slice_id ->
    envelope.claim_id.generation < s.requireGeneration ∨
      envelope.claim_id.generation = s.requireGeneration ∧
        s.assigned_to.isSome = true

theorem hasSlice_next
    {slice next : ThreadSlice} (hslice : HasSlice v.note slice)
    (hid : next.id = slice.id)
    (hplan : PersistedAs (replaceSlice v.note slice.id next) plan) :
    HasSlice plan next := by
  unfold HasSlice
  rw [persistedAs_slices hplan]
  exact hasSlice_replaceSlice hslice hid

theorem meaningChanged_false
    {before after : ThreadPlan} {s t : ThreadSlice}
    (hs : HasSlice before s) (ht : HasSlice after t) (hid : t.id = s.id)
    (h : SameMeaning s t) :
    meaningChanged before after s.id = false := by
  have hbefore := findIn_of_hasSlice hs
  have hafter := findIn_of_hasSlice ht
  rw [hid] at hafter
  unfold meaningChanged
  rw [hbefore, hafter]
  simp [h.title, h.gate, h.depends_on, h.status]

theorem topology_advances
    {base : ThreadPlan} {s t : ThreadSlice}
    (htopology : TopologyOf v.note.slices base.slices)
    (hplan : PersistedAs base plan)
    (hnodup : (plan.slices.map (·.id)).Nodup)
    (hbefore : (v.note.slices.map (·.id)).Nodup)
    (hs : s ∈ v.note.slices) (ht : t ∈ plan.slices) (hid : s.id = t.id)
    (hchanged : meaningChanged v.note plan s.id = true) :
    s.requireGeneration < t.requireGeneration := by
  have htBase : t ∈ base.slices := by
    rw [← persistedAs_slices hplan]
    exact ht
  have hnodupBase : (base.slices.map (·.id)).Nodup := by
    rw [← persistedAs_slices hplan]
    exact hnodup
  rcases topologyOf_origin htopology hnodupBase htBase with
    ⟨u, hu, hstep⟩ | ⟨_, hfresh⟩
  · have hsame : u = s :=
      eq_of_id hbefore hu hs (hstep.id.symm.trans hid.symm)
    rw [hsame] at hstep
    rcases hstep.generation with ⟨_, _, hmeaning⟩ | ⟨hlt, _⟩
    · rw [meaningChanged_false (hasSlice_of_nodup hbefore hs)
        (hasSlice_of_nodup hnodup ht) hid.symm hmeaning] at hchanged
      cases hchanged
    · exact hlt
  · exact absurd (List.mem_map.mpr ⟨s, hs, hid⟩) hfresh

/-- What takes the lease away moves a slice that is there past it. -/
theorem fences_advances
    {envelope : ClaimSecretEnvelope} {s t : ThreadSlice}
    (h : NoteStep host v plan now cause)
    (hunique : assertUniqueSliceIds plan.slices "persistPlan" = Except.ok ())
    (hnotBelow : NotBelow envelope v.note)
    (hfences : fences
      { cause := cause, now := now, before := v.note, after := plan }
      envelope.claim_id.slice_id = true)
    (hs : s ∈ v.note.slices) (hsid : s.id = envelope.claim_id.slice_id)
    (ht : t ∈ plan.slices) (htid : t.id = envelope.claim_id.slice_id) :
    envelope.claim_id.generation < t.requireGeneration := by
  have hnodup := assertUniqueSliceIds_ok hunique
  have hbefore := noteStep_nodup h hunique
  have habove := hnotBelow s hs hsid
  cases cause with
  | expire sliceId actor =>
      rcases h with ⟨slice, hslice, hid, _, _, hplan⟩
      have hexpired : sliceId = envelope.claim_id.slice_id :=
        of_decide_eq_true hfences
      have hsame : s = slice := by
        apply hasSlice_unique hslice hs
        rw [hsid, hid, hexpired]
      rw [← hid] at hplan
      have hfound : HasSlice plan (expiredSlice slice) :=
        hasSlice_next hslice rfl hplan
      have hnext : t = expiredSlice slice := by
        apply hasSlice_unique hfound ht
        change t.id = slice.id
        rw [htid, hid, hexpired]
      have hgeneration : t.requireGeneration = s.requireGeneration + 1 := by
        rw [hnext, hsame]
        rfl
      omega
  | assign sliceId workerAgentId actorAgentId =>
      rcases h with ⟨slice, profile, hslice, hid, _, hplan⟩
      have hreassigned : sliceId = envelope.claim_id.slice_id :=
        of_decide_eq_true hfences
      have hsame : s = slice := by
        apply hasSlice_unique hslice hs
        rw [hsid, hid, hreassigned]
      rw [← hid] at hplan
      have hfound : HasSlice plan
          (assignedSlice slice workerAgentId profile) :=
        hasSlice_next hslice rfl hplan
      have hnext : t = assignedSlice slice workerAgentId profile := by
        apply hasSlice_unique hfound ht
        change t.id = slice.id
        rw [htid, hid, hreassigned]
      rw [hnext, ← hsame]
      rcases habove with hlt | ⟨heq, hassigned⟩
      · apply Nat.lt_of_lt_of_le hlt
        simp [assignedSlice, PlanSlice.requireGeneration]
      · rw [assignedSlice_generation hassigned]
        omega
  | restore =>
      rcases h with ⟨current, snapshot, base, hcurrent, _, hbase, hplan⟩
      rw [persistedAs_slices hplan, (restorePlan_spec hbase).2.2] at ht
      rcases List.mem_map.mp ht with ⟨old, _, rfl⟩
      have hlt : s.requireGeneration < generationFloor current snapshot := by
        apply lt_generationFloor
        rw [(planScalars_slices hcurrent).1]
        exact hs
      change _ < generationFloor current snapshot
      omega
  | replan =>
      rcases h with ⟨newSlices, wall, base, hbase, hplan⟩
      have hlt := topology_advances (replan_topology hbase) hplan hnodup
        hbefore hs ht (hsid.trans htid.symm) (by rw [hsid]; exact hfences)
      omega
  | delta =>
      rcases h with ⟨delta, wall, base, hbase, hplan⟩
      have hlt := topology_advances (applySliceDelta_topology hbase) hplan
        hnodup hbefore hs ht (hsid.trans htid.symm)
        (by rw [hsid]; exact hfences)
      omega
  | claim sliceId workerAgentId idempotencyKey =>
      cases hfences
  | worker input generation =>
      cases hfences
  | orchestrator sliceId =>
      cases hfences
  | scar =>
      cases hfences

/-!
## The fate of one envelope
-/

/-- What holds of an envelope that a claim has returned, over the revisions
that have landed since then. -/
structure FenceState (envelope : ClaimSecretEnvelope) (old : List Landed)
    (v : Vault) : Prop where
  sound : ClaimsSound v.note
  bound : TokenBound envelope v
  leased : exists lease, lease ∈ leases old ∧
    lease.sliceId = envelope.claim_id.slice_id ∧
    lease.generation = envelope.claim_id.generation
  notBelow : NotBelow envelope v.note
  since : exists recent, v.landed = recent ++ old ∧
    UsedWithinLease envelope recent ∧
    (recent.all (fun e => !fences e envelope.claim_id.slice_id) = true ∨
      LeftBehind envelope v.note)

theorem leases_append (recent old : List Landed) :
    leases (recent ++ old) = leases recent ++ leases old := by
  unfold leases
  exact List.filterMap_append

/-- A slice under the identifier is past the envelope, if it comes back. -/
theorem brought_leftBehind
    {envelope : ClaimSecretEnvelope} {old : List Landed} {t : ThreadSlice}
    (hstate : FenceState envelope old v)
    (hA : ReturnsAboveLeases (VaultOp.writeNote plan cause now) v)
    (ht : t ∈ plan.slices) (htid : t.id = envelope.claim_id.slice_id)
    (hfresh : t.id ∉ v.note.slices.map (·.id)) :
    envelope.claim_id.generation < t.requireGeneration := by
  rcases hstate.leased with ⟨lease, hlease, hid, hgeneration⟩
  rcases hstate.since with ⟨recent, hlanded, _⟩
  rw [← hgeneration]
  apply hA t ht hfresh lease _ (hid.trans htid.symm)
  rw [hlanded, leases_append]
  exact List.mem_append_right _ hlease

theorem usedWithinLease_step
    {envelope : ClaimSecretEnvelope} {recent : List Landed}
    (h : NoteStep host v plan now cause)
    (hbound : TokenBound envelope v)
    (hused : UsedWithinLease envelope recent)
    (hfenced :
      recent.all (fun e => !fences e envelope.claim_id.slice_id) = true ∨
        LeftBehind envelope v.note) :
    UsedWithinLease envelope
      ({ cause := cause, now := now, before := v.note, after := plan } ::
        recent) := by
  refine ⟨?_, hused⟩
  intro huses
  cases cause with
  | worker input generation =>
      have htoken : input.token = envelope.token := of_decide_eq_true huses
      rcases h with ⟨slice, claim, stored, _, _, _, hauth, _⟩
      have hsame : stored = envelope :=
        hbound.bound _ _ hauth.stored (hauth.token.trans htoken)
      rw [hsame] at hauth
      have hclaimId := claim_id_of_envelope hauth.stored
      have hslice : slice.id = envelope.claim_id.slice_id := by
        rw [hclaimId]
        exact hauth.ofSlice.symm
      refine ⟨?_, hauth.live, ?_⟩
      · exact decide_eq_true (hauth.named.symm.trans hslice)
      · rcases hfenced with hnone | hleft
        · exact hnone
        · have hlt := hleft slice (mem_of_hasSlice hauth.present) hslice
          rw [hclaimId, hauth.ofGeneration] at hlt
          exact absurd hlt (Nat.lt_irrefl _)
  | expire sliceId actor =>
      cases huses
  | assign sliceId workerAgentId actorAgentId =>
      cases huses
  | claim sliceId workerAgentId idempotencyKey =>
      cases huses
  | orchestrator sliceId =>
      cases huses
  | scar =>
      cases huses
  | replan =>
      cases huses
  | delta =>
      cases huses
  | restore =>
      cases huses

theorem fenceState_step
    {envelope : ClaimSecretEnvelope} {old : List Landed}
    (hstate : FenceState envelope old v)
    (hA : ReturnsAboveLeases (VaultOp.writeNote plan cause now) v)
    (h : NoteStep host v plan now cause)
    (hunique : assertUniqueSliceIds plan.slices "persistPlan" = Except.ok ()) :
    FenceState envelope old
      (Vault.effect (VaultOp.writeNote plan cause now) v) := by
  rcases hstate.since with ⟨recent, hlanded, hused, hfenced⟩
  refine ⟨claimsSound_step h hunique hstate.sound,
    tokenBound_step hstate.bound _, hstate.leased, ?_, ?_⟩
  · intro t ht htid
    by_cases hpresent : t.id ∈ v.note.slices.map (·.id)
    · rcases List.mem_map.mp hpresent with ⟨s, hs, hsid⟩
      have hstep := continues_of_id h hunique hstate.sound hs ht hsid
      have hle := continues_generation hstep
      rcases hstate.notBelow s hs (hsid.trans htid) with
        hlt | ⟨heq, hassigned⟩
      · exact Or.inl (Nat.lt_of_lt_of_le hlt hle)
      · rcases Nat.lt_or_eq_of_le hle with hlt | hsame
        · left
          omega
        · exact Or.inr
            ⟨heq.trans hsame, hstep.assigned hsame.symm hassigned⟩
    · exact Or.inl (brought_leftBehind hstate hA ht htid hpresent)
  · refine ⟨{ cause := cause, now := now, before := v.note, after := plan } ::
      recent, ?_, usedWithinLease_step h hstate.bound hused hfenced, ?_⟩
    · change _ :: v.landed = _
      rw [hlanded]
      rfl
    · -- the slice that is there moves past the envelope, or stays past it
      have hleft : (fences
          { cause := cause, now := now, before := v.note, after := plan }
          envelope.claim_id.slice_id = true ∨ LeftBehind envelope v.note) ->
          LeftBehind envelope plan := by
        intro hcase t ht htid
        by_cases hpresent : t.id ∈ v.note.slices.map (·.id)
        · rcases List.mem_map.mp hpresent with ⟨s, hs, hsid⟩
          rcases hcase with hfences | hbehind
          · exact fences_advances h hunique hstate.notBelow hfences hs
              (hsid.trans htid) ht htid
          · have hstep := continues_of_id h hunique hstate.sound hs ht hsid
            exact Nat.lt_of_lt_of_le (hbehind s hs (hsid.trans htid))
              (continues_generation hstep)
        · exact brought_leftBehind hstate hA ht htid hpresent
      rcases hfenced with hnone | hbehind
      · cases hfences : fences
            { cause := cause, now := now, before := v.note, after := plan }
            envelope.claim_id.slice_id with
        | true =>
            exact Or.inr (hleft (Or.inl hfences))
        | false =>
            left
            rw [List.all_cons, hfences, hnone]
            rfl
      · exact Or.inr (hleft (Or.inr hbehind))

theorem fenceState_invariant
    (host : Host) (envelope : ClaimSecretEnvelope) (old : List Landed) :
    Invariant host ReturnsAboveLeases (FenceState envelope old) := by
  constructor
  · intro o v hstate hA hallowed
    cases o with
    | writeNote plan cause now =>
        exact fenceState_step hstate hA hallowed.1 hallowed.2
    | _ =>
        exact ⟨hstate.sound, tokenBound_step hstate.bound _, hstate.leased,
          hstate.notBelow, hstate.since⟩
  · intro v live hstate
    exact ⟨hstate.sound, ⟨hstate.bound.drawn, hstate.bound.bound⟩,
      hstate.leased, hstate.notBelow, hstate.since⟩

theorem fenceState_of_claimed
    {sliceId workerAgentId : String} {envelope : ClaimSecretEnvelope}
    (hkept : LeasesKept v)
    (hholds : HoldsLease sliceId workerAgentId envelope v) :
    FenceState envelope v.landed v := by
  rcases hholds with ⟨hstored, slice, claim, hslice, hid, hassigned, hclaim, _,
    _, hofSlice, hgeneration⟩
  refine ⟨hkept.recorded.sound, tokenBound_of_stored hkept.tokens hstored,
    ?_, ?_, [], rfl, True.intro, Or.inl rfl⟩
  · rcases hkept.recorded.recorded slice (mem_of_hasSlice hslice)
      (by rw [hclaim]; rfl) with ⟨lease, hlease, hleaseId, hleaseGeneration⟩
    exact ⟨lease, hlease, hleaseId.trans (hid.trans hofSlice.symm),
      hleaseGeneration.trans hgeneration.symm⟩
  · intro s hs hsid
    have hsame : s = slice :=
      hasSlice_unique hslice hs (hsid.trans (hofSlice.trans hid.symm))
    right
    rw [hsame]
    exact ⟨hgeneration, by rw [hassigned]; rfl⟩

/-- Only the live claim of a worker writes, and where no slice comes back at a
generation that it was leased at, a lease that was taken away writes no more. -/
theorem lease_fencing
    {host : Host} {input : CreatePlanInput} {created updated : String}
    {note : ThreadPlan} {events : List Event}
    (hcreate : createPlan host input created updated = Except.ok note)
    (hmeets : RunMeets host ReturnsAboveLeases (newVault note) events) :
    LeaseFencing host note events := by
  refine ⟨run_onlyAuthorized host _ events, ?_⟩
  intro first claim clock outcomes rest envelope hevents hclaimed
  have hsplit : events =
      (first ++ [Event.call (Call.claim claim) clock outcomes]) ++ rest := by
    rw [hevents, List.append_assoc]
    rfl
  rw [hsplit] at hmeets
  rcases runMeets_append.mp hmeets with ⟨hfirst, hrest⟩
  have hkept := run_invariant (leasesKept_invariant host ReturnsAboveLeases)
    hfirst (leasesKept_newVault fun s hs => (createPlan_free hcreate hs).1)
  have hholds := call_result hclaimed.returned
  have hvault : runEvents host (newVault note)
      (first ++ [Event.call (Call.claim claim) clock outcomes]) =
        (((Call.claim claim).program host clock).run vaultInterface outcomes
          (runEvents host (newVault note) first)).2 := by
    rw [runEvents_append]
    rfl
  rw [← hvault] at hholds
  have hstate := run_invariant (fenceState_invariant host envelope _) hrest
    (fenceState_of_claimed hkept hholds)
  rcases hstate.since with ⟨recent, hlanded, hused, _⟩
  constructor
  rw [hsplit, runEvents_append _ _ rest, landedSince_append hlanded]
  exact hused

def progressBy (workerAgentId sliceId : String) (token : Nat)
    (idempotencyKey : String) : Call :=
  Call.update
    { sliceId := sliceId
      workerAgentId := workerAgentId
      token := token
      idempotencyKey := idempotencyKey
      action := WorkerUpdateAction.progress "halfway there" }

theorem lease_fencing_one_lease :
    LeaseFencing plainHost plainPlan
      [doneAt 1 (assignTo "w" "a"), doneAt 2 (claimBy "w" "a" "k"),
        doneAt 3 (progressBy "w" "a" 0 "u")] :=
  @lease_fencing plainHost plainInput "now" "now" plainPlan _
    createPlan_plain (by decide +kernel)

/-- A restore in which the deletion of the envelope fails. -/
def restoreKeepingEnvelope : Event :=
  Event.call (Call.restore 1) { now := 4, wall := "later" }
    (List.replicate 5 Outcome.done ++ Outcome.failed ::
      List.replicate 20 Outcome.done)

/-- The slice `b` is claimed, dropped by the restore, added again, and used
with the token of the first claim. -/
def tokenOutlivesRestore : List Event :=
  [restoreKeepingEnvelope, doneAt 5 (addSlice "b" "B"),
    doneAt 6 (assignTo "w" "b"), doneAt 7 (claimBy "w" "b" "k"),
    doneAt 8 (progressBy "w" "b" 0 "u")]

theorem not_withinLease
    {envelope : ClaimSecretEnvelope} {v v' : Vault}
    (h : ¬ UsedWithinLease envelope (landedSince v v')) :
    ¬ WithinLease envelope v v' :=
  fun hwithin => h hwithin.used

def assignedB : List Event :=
  [doneAt 1 (addSlice "b" "B"), doneAt 2 (assignTo "w" "b")]

def claimB : ClaimSliceInput :=
  { sliceId := "b"
    workerAgentId := "w"
    idempotencyKey := "k"
    ttlSeconds := none }

def clock3 : Clock :=
  { now := 3, wall := "later" }

def envelopeB : ClaimSecretEnvelope :=
  { worker_agent_id := "w"
    token := 0
    expires_at := 600003
    rev := 4
    claim_id :=
      { slice_id := "b"
        generation := 0
        idempotency_key := "k" } }

theorem claimed_envelopeB :
    ClaimedIn plainHost (newVault plainPlan) assignedB claimB clock3
      (List.replicate 60 Outcome.done) envelopeB :=
  ⟨by decide +kernel⟩

theorem lease_not_fenced :
    ¬ forall (host : Host) (input : CreatePlanInput) (created updated : String)
        (note : ThreadPlan) (events : List Event),
        createPlan host input created updated = Except.ok note ->
          LeaseFencing host note events := by
  intro h
  have hfencing := h plainHost plainInput "now" "now" plainPlan
    (assignedB ++
      Event.call (Call.claim claimB) clock3 (List.replicate 60 Outcome.done) ::
        tokenOutlivesRestore)
    createPlan_plain
  have hwithin := hfencing.2 assignedB claimB clock3
    (List.replicate 60 Outcome.done) tokenOutlivesRestore envelopeB rfl
    claimed_envelopeB
  exact not_withinLease (by decide +kernel) hwithin

end Thread
end Minni
