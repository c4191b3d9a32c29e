import Minni.Thread.Runs

/-!
# The generation as a fencing number

The generation of a slice never falls from one revision to a later one, and
every lease of a slice has a higher generation than the leases before it.

Two steps of the code break this.  A slice that a restore has dropped comes
back from a replan at generation zero, or from a second restore at a floor that
only knows the current plan and the snapshot.  A completion ends a lease without
an advance of the generation, so a slice that is reopened is leased again at
the same one.  In a run without these two steps the law holds.
-/

namespace Minni
namespace Thread

open Foundation

structure Lease where
  sliceId : String
  generation : Nat
  claimId : ClaimId
deriving DecidableEq

/-- The lease that a revision was written for. -/
def leaseOf (entry : Landed) : Option Lease :=
  match entry.cause with
  | Cause.claim sliceId _ _ =>
      (findIn entry.after sliceId).bind fun slice =>
        slice.claim.map fun claim =>
          { sliceId := sliceId
            generation := slice.requireGeneration
            claimId := claim.claim_id }
  | _ => none

/-- The leases of a run, the last one first. -/
def leases (landed : List Landed) : List Lease :=
  landed.filterMap leaseOf

/-- The revisions of a run, the last one first. -/
def revisions (note : ThreadPlan) (landed : List Landed) : List ThreadPlan :=
  note :: landed.map (·.before)

def NeverLower (newer older : ThreadPlan) : Prop :=
  forall t, t ∈ newer.slices -> forall s, s ∈ older.slices -> s.id = t.id ->
    s.requireGeneration ≤ t.requireGeneration

def NewLease (newer older : Lease) : Prop :=
  older.sliceId = newer.sliceId ->
    older.generation < newer.generation ∧ older.claimId ≠ newer.claimId

instance (newer older : ThreadPlan) : Decidable (NeverLower newer older) :=
  inferInstanceAs (Decidable (forall t, t ∈ newer.slices ->
    forall s, s ∈ older.slices -> s.id = t.id ->
      s.requireGeneration ≤ t.requireGeneration))

instance (newer older : Lease) : Decidable (NewLease newer older) :=
  inferInstanceAs (Decidable (_ -> _ ∧ _))

/-- The law of the generation. -/
def GenerationFences (v : Vault) : Prop :=
  (revisions v.note v.landed).Pairwise NeverLower ∧
    (leases v.landed).Pairwise NewLease

instance (v : Vault) : Decidable (GenerationFences v) :=
  inferInstanceAs (Decidable (_ ∧ _))

/-!
## The condition on the writes of a run
-/

def completedAt (landed : List Landed) (sliceId : String)
    (generation : Nat) : Bool :=
  landed.any fun entry => completesAt entry.cause sliceId generation

/-- A slice comes back no lower than it ever was, and above its leases. -/
def ReturnsAbove (v : Vault) (t : ThreadSlice) : Prop :=
  (forall older, older ∈ revisions v.note v.landed ->
    forall s, s ∈ older.slices -> s.id = t.id ->
      s.requireGeneration ≤ t.requireGeneration) ∧
    forall lease, lease ∈ leases v.landed -> lease.sliceId = t.id ->
      lease.generation < t.requireGeneration

/-- The slice that a claim takes was not completed in the generation that it is
leased at. -/
def LeasesUncompleted (landed : List Landed) (plan : ThreadPlan) :
    Cause -> Prop
  | Cause.claim sliceId _ _ =>
      forall t, t ∈ plan.slices -> t.id = sliceId ->
        completedAt landed sliceId t.requireGeneration = false
  | _ => True

def KeepsGenerations : VaultOp -> Vault -> Prop
  | VaultOp.writeNote plan cause _, v =>
      (forall t, t ∈ plan.slices -> t.id ∉ v.note.slices.map (·.id) ->
        ReturnsAbove v t) ∧
        LeasesUncompleted v.landed plan cause
  | _, _ => True

instance (v : Vault) (t : ThreadSlice) : Decidable (ReturnsAbove v t) :=
  inferInstanceAs (Decidable ((forall older,
      older ∈ revisions v.note v.landed -> forall s, s ∈ older.slices ->
        s.id = t.id -> s.requireGeneration ≤ t.requireGeneration) ∧
    forall lease, lease ∈ leases v.landed -> lease.sliceId = t.id ->
      lease.generation < t.requireGeneration))

instance (landed : List Landed) (plan : ThreadPlan) :
    (cause : Cause) -> Decidable (LeasesUncompleted landed plan cause)
  | Cause.claim sliceId _ _ =>
      inferInstanceAs (Decidable (forall t, t ∈ plan.slices ->
        t.id = sliceId ->
          completedAt landed sliceId t.requireGeneration = false))
  | Cause.expire _ _ => isTrue True.intro
  | Cause.assign _ _ _ => isTrue True.intro
  | Cause.worker _ _ => isTrue True.intro
  | Cause.orchestrator _ => isTrue True.intro
  | Cause.scar => isTrue True.intro
  | Cause.replan => isTrue True.intro
  | Cause.delta => isTrue True.intro
  | Cause.restore => isTrue True.intro

instance : (o : VaultOp) -> (v : Vault) -> Decidable (KeepsGenerations o v) :=
  fun o v => by
    cases o <;> unfold KeepsGenerations <;> infer_instance

/-!
## The lease of a step
-/

variable {host : Host} {v : Vault} {plan : ThreadPlan} {now : Nat}
  {cause : Cause}

/-- A revision that minted a lease has the slice, which was free before. -/
structure LeaseStep (v : Vault) (plan : ThreadPlan) (cause : Cause)
    (lease : Lease) : Prop where
  slice : exists t, t ∈ plan.slices ∧ t.id = lease.sliceId ∧
    t.claim.isSome = true ∧ t.requireGeneration = lease.generation
  named : lease.claimId.generation = lease.generation
  cause : exists workerAgentId idempotencyKey,
    cause = Cause.claim lease.sliceId workerAgentId idempotencyKey
  free : exists s, s ∈ v.note.slices ∧ s.id = lease.sliceId ∧ s.claim = none ∧
    s.requireGeneration ≤ lease.generation

theorem leaseStep_of_leaseOf
    {lease : Lease}
    (h : NoteStep host v plan now cause)
    (hlease : leaseOf
      { cause := cause, now := now, before := v.note, after := plan } =
        some lease) :
    LeaseStep v plan cause lease := by
  cases cause with
  | claim sliceId workerAgentId idempotencyKey =>
      rcases h with ⟨slice, walk, hslice, hid, _, _, hfree, hwalked, hplan⟩
      have hnext : HasSlice plan
          (claimedSlice slice workerAgentId now walk) := by
        unfold HasSlice
        rw [persistedAs_slices hplan, ← hid]
        exact hasSlice_replaceSlice hslice rfl
      have hfound := findIn_of_hasSlice hnext
      change findIn plan slice.id = _ at hfound
      rw [hid] at hfound
      unfold leaseOf at hlease
      simp only at hlease
      rw [hfound] at hlease
      cases hlease
      refine ⟨⟨_, mem_of_hasSlice hnext, hid, rfl, rfl⟩, ?_, ⟨_, _, rfl⟩,
        ⟨slice, mem_of_hasSlice hslice, hid, hfree, hwalked.upward⟩⟩
      change walk.envelope.claim_id.generation = walk.generation
      rw [hwalked.ofClaim]
  | expire sliceId actor =>
      cases hlease
  | assign sliceId workerAgentId actorAgentId =>
      cases hlease
  | worker input generation =>
      cases hlease
  | orchestrator sliceId =>
      cases hlease
  | scar =>
      cases hlease
  | replan =>
      cases hlease
  | delta =>
      cases hlease
  | restore =>
      cases hlease

/-!
## The invariant
-/

/-- A lease is below the generation of its slice, or at it while the slice is
held or was completed there. -/
def LeaseBelow (landed : List Landed) (lease : Lease) (t : ThreadSlice) :
    Prop :=
  lease.generation < t.requireGeneration ∨
    lease.generation = t.requireGeneration ∧
      (t.claim.isSome = true ∨
        completedAt landed lease.sliceId lease.generation = true)

structure GenerationsKept (note : ThreadPlan) (landed : List Landed) :
    Prop where
  sound : ClaimsSound note
  ordered : (revisions note landed).Pairwise NeverLower
  below : forall lease, lease ∈ leases landed -> forall t, t ∈ note.slices ->
    t.id = lease.sliceId -> LeaseBelow landed lease t
  named : forall lease, lease ∈ leases landed ->
    lease.claimId.generation = lease.generation
  increasing : (leases landed).Pairwise NewLease

/-- What a step that meets the condition may use. -/
structure GenerationStep (host : Host) (v : Vault) (plan : ThreadPlan)
    (now : Nat) (cause : Cause) : Prop where
  note : NoteStep host v plan now cause
  unique : assertUniqueSliceIds plan.slices "persistPlan" = Except.ok ()
  kept : GenerationsKept v.note v.landed
  brought : forall t, t ∈ plan.slices -> t.id ∉ v.note.slices.map (·.id) ->
    ReturnsAbove v t
  uncompleted : LeasesUncompleted v.landed plan cause

theorem neverLower_step
    (h : GenerationStep host v plan now cause)
    {older : ThreadPlan} (holder : older ∈ revisions v.note v.landed) :
    NeverLower plan older := by
  intro t ht s hs hid
  by_cases hpresent : t.id ∈ v.note.slices.map (·.id)
  · rcases List.mem_map.mp hpresent with ⟨u, hu, huid⟩
    have hstep :=
      continues_of_id h.note h.unique h.kept.sound hu ht huid
    have hu_le := continues_generation hstep
    rcases List.mem_cons.mp holder with rfl | holder
    · have hsame : s = u :=
        eq_of_id (noteStep_nodup h.note h.unique) hs hu (hid.trans huid.symm)
      rw [hsame]
      exact hu_le
    · have hbefore := (List.pairwise_cons.mp h.kept.ordered).1 older holder
      exact Nat.le_trans (hbefore u hu s hs (hid.trans huid.symm)) hu_le
  · exact (h.brought t ht hpresent).1 older holder s hs hid

theorem completedAt_cons
    {landed : List Landed} {entry : Landed} {sliceId : String}
    {generation : Nat}
    (h : completedAt landed sliceId generation = true) :
    completedAt (entry :: landed) sliceId generation = true := by
  unfold completedAt at *
  rw [List.any_cons, h, Bool.or_true]

theorem leaseBelow_step
    (h : GenerationStep host v plan now cause)
    {lease : Lease} (hlease : lease ∈ leases v.landed)
    {t : ThreadSlice} (ht : t ∈ plan.slices) (hid : t.id = lease.sliceId) :
    LeaseBelow
      ({ cause := cause, now := now, before := v.note, after := plan } ::
        v.landed) lease t := by
  by_cases hpresent : t.id ∈ v.note.slices.map (·.id)
  · rcases List.mem_map.mp hpresent with ⟨s, hs, hsid⟩
    have hstep :=
      continues_of_id h.note h.unique h.kept.sound hs ht hsid
    have hle := continues_generation hstep
    rcases h.kept.below lease hlease s hs (hsid.trans hid) with
      hlt | ⟨hsame, hheld⟩
    · exact Or.inl (Nat.lt_of_lt_of_le hlt hle)
    · rcases hstep.change with
        ⟨hgeneration, hclaim⟩ | ⟨hlt, _⟩ | ⟨hcompletes, hgeneration, _⟩ |
          ⟨hmints, hfree, _⟩
      · right
        refine ⟨hsame.trans hgeneration.symm, ?_⟩
        rcases hheld with hclaimed | hcompleted
        · left
          rw [hclaim]
          exact hclaimed
        · exact Or.inr (completedAt_cons hcompleted)
      · left
        omega
      · right
        refine ⟨hsame.trans hgeneration.symm, Or.inr ?_⟩
        unfold completedAt
        rw [List.any_cons, hsame, ← hid, ← hsid, hcompletes, Bool.true_or]
      · -- a free slice at this generation has been completed there
        have hcompleted : completedAt v.landed lease.sliceId
            lease.generation = true := by
          rcases hheld with hclaimed | hcompleted
          · rw [hfree] at hclaimed
            cases hclaimed
          · exact hcompleted
        left
        rcases Nat.lt_or_eq_of_le hle with hlt | heq
        · omega
        · rcases hmints with ⟨workerAgentId, key, _, hcause, _, _, _⟩
          have hclear := h.uncompleted
          rw [hcause] at hclear
          have hfalse := hclear t ht rfl
          rw [← heq, ← hsame, hid, hcompleted] at hfalse
          cases hfalse
  · exact Or.inl ((h.brought t ht hpresent).2 lease hlease hid.symm)

theorem leases_cons (entry : Landed) (landed : List Landed) :
    leases (entry :: landed) =
      match leaseOf entry with
      | some lease => lease :: leases landed
      | none => leases landed := by
  unfold leases
  rw [List.filterMap_cons]
  cases leaseOf entry with
  | none =>
      rfl
  | some lease =>
      rfl

/-- The lease of a step is above every earlier lease of the slice. -/
theorem newLease_step
    (h : GenerationStep host v plan now cause)
    {lease older : Lease} (hlease : LeaseStep v plan cause lease)
    (holder : older ∈ leases v.landed) :
    NewLease lease older := by
  intro hid
  rcases hlease.slice with ⟨t, ht, htid, _, hgeneration⟩
  rcases hlease.free with ⟨s, hs, hsid, hfree, hle⟩
  have hlt : older.generation < lease.generation := by
    rcases h.kept.below older holder s hs (hsid.trans hid.symm) with
      hlt | ⟨hsame, hheld⟩
    · omega
    · have hcompleted : completedAt v.landed older.sliceId
          older.generation = true := by
        rcases hheld with hclaimed | hcompleted
        · rw [hfree] at hclaimed
          cases hclaimed
        · exact hcompleted
      rcases Nat.lt_or_eq_of_le hle with hlt | heq
      · omega
      · rcases hlease.cause with ⟨workerAgentId, key, hcause⟩
        have hclear := h.uncompleted
        rw [hcause] at hclear
        have hfalse := hclear t ht htid
        rw [hgeneration, ← heq, ← hsame, ← hid, hcompleted] at hfalse
        cases hfalse
  refine ⟨hlt, ?_⟩
  intro hsame
  have hnamed := h.kept.named older holder
  rw [hsame, hlease.named] at hnamed
  omega

theorem generationsKept_step
    (h : GenerationStep host v plan now cause) :
    GenerationsKept plan
      ({ cause := cause, now := now, before := v.note, after := plan } ::
        v.landed) := by
  have hnodup := assertUniqueSliceIds_ok h.unique
  have hordered : (revisions plan
      ({ cause := cause, now := now, before := v.note, after := plan } ::
        v.landed)).Pairwise NeverLower :=
    List.pairwise_cons.mpr
      ⟨fun _ holder => neverLower_step h holder, h.kept.ordered⟩
  have hsound := claimsSound_step h.note h.unique h.kept.sound
  cases hleaseOf : leaseOf
      { cause := cause, now := now, before := v.note, after := plan } with
  | none =>
      have hsame := leases_cons
        { cause := cause, now := now, before := v.note, after := plan }
        v.landed
      rw [hleaseOf] at hsame
      refine ⟨hsound, hordered, ?_, ?_, ?_⟩
      · rw [hsame]
        intro lease hlease t ht hid
        exact leaseBelow_step h hlease ht hid
      · rw [hsame]
        exact h.kept.named
      · rw [hsame]
        exact h.kept.increasing
  | some lease =>
      have hcons := leases_cons
        { cause := cause, now := now, before := v.note, after := plan }
        v.landed
      rw [hleaseOf] at hcons
      have hstep := leaseStep_of_leaseOf h.note hleaseOf
      refine ⟨hsound, hordered, ?_, ?_, ?_⟩
      · rw [hcons]
        intro other hother t ht hid
        rcases List.mem_cons.mp hother with rfl | hother
        · rcases hstep.slice with ⟨u, hu, huid, hclaimed, hgeneration⟩
          have hsame : t = u :=
            eq_of_id hnodup ht hu (hid.trans huid.symm)
          rw [hsame]
          exact Or.inr ⟨hgeneration.symm, Or.inl hclaimed⟩
        · exact leaseBelow_step h hother ht hid
      · rw [hcons]
        intro other hother
        rcases List.mem_cons.mp hother with rfl | hother
        · exact hstep.named
        · exact h.kept.named other hother
      · rw [hcons]
        exact List.pairwise_cons.mpr
          ⟨fun _ holder => newLease_step h hstep holder, h.kept.increasing⟩

theorem generations_invariant (host : Host) :
    Invariant host KeepsGenerations
      (fun v => GenerationsKept v.note v.landed) := by
  apply invariant_of_notes
  intro plan cause now v hkept hA hnote hunique
  exact generationsKept_step ⟨hnote, hunique, hkept, hA.1, hA.2⟩

/-!
## New plans
-/

theorem initialSlices_free
    {used : List String} {inputs : List SliceInput} {s : ThreadSlice}
    (h : s ∈ initialSlices host used inputs) :
    s.claim = none ∧ s.status = PlanSliceStatus.pending ∧
      s.requireGeneration = 0 := by
  induction inputs generalizing used with
  | nil =>
      cases h
  | cons input rest ih =>
      rcases List.mem_cons.mp h with rfl | h
      · exact ⟨rfl, rfl, rfl⟩
      · exact ih h

theorem createPlan_free
    {input : CreatePlanInput} {created updated : String} {note : ThreadPlan}
    {s : ThreadSlice}
    (h : createPlan host input created updated = Except.ok note)
    (hs : s ∈ note.slices) :
    s.claim = none ∧ s.status = PlanSliceStatus.pending ∧
      s.requireGeneration = 0 := by
  rcases except_bind_ok h with ⟨_, _, h⟩
  rcases except_bind_ok h with ⟨_, _, h⟩
  rcases except_bind_ok h with ⟨_, _, h⟩
  cases h
  exact initialSlices_free hs

theorem createPlan_nodup
    {input : CreatePlanInput} {created updated : String} {note : ThreadPlan}
    (h : createPlan host input created updated = Except.ok note) :
    (note.slices.map (·.id)).Nodup := by
  rcases except_bind_ok h with ⟨_, _, h⟩
  rcases except_bind_ok h with ⟨_, _, h⟩
  rcases except_bind_ok h with ⟨_, hunique, h⟩
  cases h
  exact assertUniqueSliceIds_ok hunique

theorem claimsSound_createPlan
    {input : CreatePlanInput} {created updated : String} {note : ThreadPlan}
    (h : createPlan host input created updated = Except.ok note) :
    ClaimsSound note := by
  constructor
  · intro s hs hsome
    rw [(createPlan_free h hs).1] at hsome
    cases hsome
  · intro s hs hsome
    rw [(createPlan_free h hs).1] at hsome
    cases hsome

theorem generationsKept_newVault
    {note : ThreadPlan} (h : ClaimsSound note) :
    GenerationsKept (newVault note).note (newVault note).landed := by
  refine ⟨h, List.pairwise_singleton _ _, ?_, ?_, List.Pairwise.nil⟩
  · intro lease hlease
    cases hlease
  · intro lease hlease
    cases hlease

/-- In a run that brings no slice back too low and leases no slice again at a
generation in which it was completed, the generation fences. -/
theorem generation_fences
    {host : Host} {input : CreatePlanInput} {created updated : String}
    {note : ThreadPlan} {events : List Event}
    (hcreate : createPlan host input created updated = Except.ok note)
    (hmeets : RunMeets host KeepsGenerations (newVault note) events) :
    GenerationFences (runEvents host (newVault note) events) := by
  have hkept := run_invariant (generations_invariant host) hmeets
    (generationsKept_newVault (claimsSound_createPlan hcreate))
  exact ⟨hkept.ordered, hkept.increasing⟩

theorem generation_fences_one_lease :
    GenerationFences (runEvents plainHost (newVault plainPlan)
      [doneAt 1 (assignTo "w" "a"), doneAt 2 (claimBy "w" "a" "k")]) :=
  @generation_fences plainHost plainInput "now" "now" plainPlan _
    createPlan_plain (by decide +kernel)

/-- The slice `b` is assigned twice, dropped by a restore, and added again. -/
def droppedAndAdded : List Event :=
  [doneAt 1 (addSlice "b" "B"), doneAt 2 (assignTo "w" "b"),
    doneAt 3 (assignTo "x" "b"), doneAt 4 (Call.restore 1),
    doneAt 5 (addSlice "b" "B")]

theorem generation_falls :
    ¬ forall (host : Host) (input : CreatePlanInput) (created updated : String)
        (note : ThreadPlan) (events : List Event),
        createPlan host input created updated = Except.ok note ->
          GenerationFences (runEvents host (newVault note) events) := by
  intro h
  have hfences := h plainHost plainInput "now" "now" plainPlan droppedAndAdded
    createPlan_plain
  exact absurd hfences (by decide +kernel)

end Thread
end Minni
