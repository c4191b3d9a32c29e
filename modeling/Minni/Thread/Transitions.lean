import Minni.Thread.OrchestratorSpecs
import Minni.Thread.Topology

/-!
# The slices of one revision and of the next

Whatever a revision is written for, each of its slices continues a slice of the
note before it, or is brought into the plan by a replan, a delta or a restore.
The generation of a continued slice never falls, and its claim is kept, lost
with an advance of the generation, lost to a completion, or newly minted.
-/

namespace Minni
namespace Thread

open Foundation

/-- The cause is a completion of the slice in this generation. -/
def completesAt (cause : Cause) (sliceId : String) (generation : Nat) : Bool :=
  match cause with
  | Cause.worker input g =>
      isComplete input.action && decide (input.sliceId = sliceId) &&
        decide (g = generation)
  | _ => false

/-- The cause is a claim, which the slice now carries. -/
def Mints (cause : Cause) (t : ThreadSlice) : Prop :=
  exists workerAgentId idempotencyKey claim,
    cause = Cause.claim t.id workerAgentId idempotencyKey ∧
      t.assigned_to = some workerAgentId ∧ t.claim = some claim ∧
      claim.claim_id =
        { slice_id := t.id
          generation := t.requireGeneration
          idempotency_key := idempotencyKey }

inductive ClaimChange (cause : Cause) (s t : ThreadSlice) : Prop where
  | kept (hgeneration : t.requireGeneration = s.requireGeneration)
      (hclaim : t.claim = s.claim)
  | advanced (hgeneration : s.requireGeneration < t.requireGeneration)
      (hclaim : t.claim = none)
  | completed (h : completesAt cause s.id s.requireGeneration = true)
      (hgeneration : t.requireGeneration = s.requireGeneration)
      (hclaim : t.claim = none)
  | minted (h : Mints cause t) (hfree : s.claim = none)
      (hgeneration : s.requireGeneration ≤ t.requireGeneration)

structure Continues (cause : Cause) (s t : ThreadSlice) : Prop where
  id : t.id = s.id
  change : ClaimChange cause s t
  assigned : t.requireGeneration = s.requireGeneration ->
    s.assigned_to.isSome = true -> t.assigned_to.isSome = true
  nonTerminal : t.claim.isSome = true ->
    (s.claim.isSome = true -> isNonTerminal s = true) ->
    isNonTerminal t = true

theorem continues_refl (cause : Cause) (s : ThreadSlice)
    (h : s.claim.isSome = true -> isNonTerminal s = true) :
    Continues cause s s :=
  ⟨rfl, ClaimChange.kept rfl rfl, fun _ h => h, fun hclaim _ => h hclaim⟩

theorem continues_generation
    {cause : Cause} {s t : ThreadSlice} (h : Continues cause s t) :
    s.requireGeneration ≤ t.requireGeneration := by
  rcases h.change with
    ⟨hgeneration, _⟩ | ⟨hgeneration, _⟩ | ⟨_, hgeneration, _⟩ |
      ⟨_, _, hgeneration⟩
  · omega
  · omega
  · omega
  · exact hgeneration

/-- A slice that no slice of the note before continues into. -/
structure Brought (v : Vault) (cause : Cause) (t : ThreadSlice) : Prop where
  claim : t.claim = none
  fresh : t.id ∉ v.note.slices.map (·.id)
  cause : cause = Cause.replan ∨ cause = Cause.delta ∨ cause = Cause.restore

/-- What is known of the claims of a note. -/
structure ClaimsSound (plan : ThreadPlan) : Prop where
  assigned : forall s, s ∈ plan.slices -> s.claim.isSome = true ->
    s.assigned_to.isSome = true
  nonTerminal : forall s, s ∈ plan.slices -> s.claim.isSome = true ->
    isNonTerminal s = true

variable {host : Host} {v : Vault} {plan : ThreadPlan} {now : Nat}

theorem persistedAs_slices
    {base : ThreadPlan} (h : PersistedAs base plan) :
    plan.slices = base.slices := by
  rw [h]

theorem persistedAs_rev
    {base : ThreadPlan} (h : PersistedAs base plan) :
    plan.rev = base.rev + 1 := by
  rw [h]

/-- An update of one slice continues that slice and leaves the others. -/
theorem origin_of_replaceById
    {cause : Cause} {slice t : ThreadSlice} {f : ThreadSlice -> ThreadSlice}
    (hsound : ClaimsSound v.note)
    (hslice : HasSlice v.note slice)
    (hslices : plan.slices = replaceById v.note.slices slice.id f)
    (hstep : Continues cause slice (f slice))
    (ht : t ∈ plan.slices) :
    exists s, s ∈ v.note.slices ∧ Continues cause s t := by
  rw [hslices] at ht
  rcases List.mem_map.mp ht with ⟨s, hs, rfl⟩
  refine ⟨s, hs, ?_⟩
  split
  · rename_i hid
    rw [hasSlice_unique hslice hs hid]
    exact hstep
  · exact continues_refl cause s (hsound.nonTerminal s hs)

theorem continues_expired (sliceId actor : String) (slice : ThreadSlice) :
    Continues (Cause.expire sliceId actor) slice (expiredSlice slice) := by
  refine ⟨rfl, ClaimChange.advanced ?_ rfl, fun _ h => h, ?_⟩
  · simp [expiredSlice, PlanSlice.requireGeneration]
  · intro hclaim
    cases hclaim

theorem continues_assigned
    {slice : ThreadSlice} (sliceId workerAgentId actorAgentId : String)
    (profile : Option String)
    (h : slice.claim.isSome = true -> slice.assigned_to.isSome = true) :
    Continues (Cause.assign sliceId workerAgentId actorAgentId) slice
      (assignedSlice slice workerAgentId profile) := by
  refine ⟨rfl, ?_, fun _ _ => rfl, ?_⟩
  · cases hsome : slice.assigned_to.isSome with
    | true =>
        refine ClaimChange.advanced ?_ rfl
        rw [assignedSlice_generation hsome]
        omega
    | false =>
        refine ClaimChange.kept ?_ ?_
        · simp [assignedSlice, PlanSlice.requireGeneration, hsome]
        · cases hclaim : slice.claim with
          | none =>
              rfl
          | some claim =>
              rw [hclaim] at h
              rw [h rfl] at hsome
              cases hsome
  · intro hclaim
    cases hclaim

theorem continues_claimed
    {slice : ThreadSlice} {sliceId workerAgentId idempotencyKey : String}
    {walk : ClaimWalk}
    (hid : slice.id = sliceId)
    (hnonTerminal : isNonTerminal slice = true)
    (hassigned : slice.assigned_to = some workerAgentId)
    (hclaim : slice.claim = none)
    (hwalked : WalkedTo v now sliceId workerAgentId idempotencyKey
      slice.requireGeneration walk) :
    Continues (Cause.claim sliceId workerAgentId idempotencyKey) slice
      (claimedSlice slice workerAgentId now walk) := by
  refine ⟨rfl, ClaimChange.minted ?_ hclaim hwalked.upward, fun _ h => h,
    fun _ _ => hnonTerminal⟩
  refine ⟨workerAgentId, idempotencyKey, _, ?_, hassigned, rfl, ?_⟩
  · change _ = Cause.claim slice.id workerAgentId idempotencyKey
    rw [hid]
  · rw [hwalked.ofClaim, ← hid]
    rfl

theorem workerEffect_nonTerminal
    {action : WorkerUpdateAction} {s t : ThreadSlice}
    (h : WorkerEffect action s t) (hcomplete : isComplete action = false)
    (hs : isNonTerminal s = true) : isNonTerminal t = true := by
  cases action with
  | start =>
      rw [h]
      rfl
  | progress evidence =>
      rw [h]
      rfl
  | block evidence =>
      rw [h]
      rfl
  | scar kind signal resolution =>
      rw [h]
      exact hs
  | propose_structure proposal =>
      rcases h with ⟨copied, _, rfl⟩
      exact hs
  | complete evidence =>
      cases hcomplete

theorem continues_worker
    {slice t : ThreadSlice} {input : UpdateClaimedSliceInput}
    (hid : slice.id = input.sliceId)
    (hnonTerminal : isNonTerminal slice = true)
    (h : WorkerEffect input.action slice t) :
    Continues (Cause.worker input slice.requireGeneration) slice t := by
  rcases workerEffect_keeps h with ⟨hsame, hgeneration, hassigned⟩
  have hclaim := workerEffect_claim h
  have hrequire : t.requireGeneration = slice.requireGeneration := by
    unfold PlanSlice.requireGeneration
    rw [hgeneration]
  refine ⟨hsame, ?_, ?_, ?_⟩
  · cases hcomplete : isComplete input.action with
    | true =>
        rw [hcomplete] at hclaim
        refine ClaimChange.completed ?_ hrequire hclaim
        simp [completesAt, hcomplete, hid]
    | false =>
        rw [hcomplete] at hclaim
        exact ClaimChange.kept hrequire hclaim
  · intro _ hsome
    rw [hassigned]
    exact hsome
  · intro hsome _
    cases hcomplete : isComplete input.action with
    | true =>
        rw [hclaim, hcomplete] at hsome
        cases hsome
    | false =>
        exact workerEffect_nonTerminal h hcomplete hnonTerminal

theorem continues_orchestrator
    (sliceId : String) (previous : ThreadSlice) (status : PlanSliceStatus)
    (evidence : Option String) :
    Continues (Cause.orchestrator sliceId) previous
      (revokedSlice previous (transitionedSlice previous status evidence)) := by
  unfold revokedSlice
  split
  · refine ⟨rfl, ClaimChange.advanced ?_ rfl, fun _ h => h, ?_⟩
    · simp [PlanSlice.requireGeneration]
    · intro hclaim
      cases hclaim
  · rename_i hnone
    refine ⟨rfl, ClaimChange.kept rfl rfl, fun _ h => h, ?_⟩
    intro hclaim
    exact absurd hclaim hnone

theorem continues_topology
    {cause : Cause} {s t : ThreadSlice} (h : TopologyStep s t)
    (hs : s.claim.isSome = true -> isNonTerminal s = true) :
    Continues cause s t := by
  rcases h.generation with ⟨hgeneration, hclaim, hmeaning⟩ | ⟨hlt, hnone⟩
  · refine ⟨h.id, ClaimChange.kept hgeneration hclaim, ?_, ?_⟩
    · intro _ hsome
      rw [h.assigned]
      exact hsome
    · intro hsome _
      rw [hclaim] at hsome
      unfold isNonTerminal
      rw [hmeaning.status]
      exact hs hsome
  · refine ⟨h.id, ClaimChange.advanced hlt hnone, ?_, ?_⟩
    · intro hsame
      omega
    · intro hsome
      rw [hnone] at hsome
      cases hsome

theorem origin_of_topology
    {cause : Cause} {base : ThreadPlan} {t : ThreadSlice}
    (hsound : ClaimsSound v.note)
    (hcause : cause = Cause.replan ∨ cause = Cause.delta ∨
      cause = Cause.restore)
    (htopology : TopologyOf v.note.slices base.slices)
    (hplan : PersistedAs base plan)
    (hunique : (plan.slices.map (·.id)).Nodup)
    (ht : t ∈ plan.slices) :
    (exists s, s ∈ v.note.slices ∧ Continues cause s t) ∨
      Brought v cause t := by
  rw [persistedAs_slices hplan] at ht hunique
  rcases topologyOf_origin htopology hunique ht with
    ⟨s, hs, hstep⟩ | ⟨hadded, hfresh⟩
  · exact Or.inl ⟨s, hs, continues_topology hstep (hsound.nonTerminal s hs)⟩
  · exact Or.inr ⟨hadded.claim, hfresh, hcause⟩

theorem planScalars_slices
    {current : ThreadPlan}
    (h : current = plan ∨ current = planScalars plan) :
    current.slices = plan.slices ∧ current.rev = plan.rev := by
  rcases h with rfl | rfl
  · exact ⟨rfl, rfl⟩
  · exact ⟨rfl, rfl⟩

theorem origin_of_restore
    {current snapshot base : ThreadPlan} {t : ThreadSlice}
    (hcurrent : current = v.note ∨ current = planScalars v.note)
    (hbase : restorePlan current snapshot = Except.ok base)
    (hplan : PersistedAs base plan)
    (ht : t ∈ plan.slices) :
    (exists s, s ∈ v.note.slices ∧ Continues Cause.restore s t) ∨
      Brought v Cause.restore t := by
  rw [persistedAs_slices hplan, (restorePlan_spec hbase).2.2] at ht
  rcases List.mem_map.mp ht with ⟨old, _, rfl⟩
  by_cases hid : old.id ∈ v.note.slices.map (·.id)
  · rcases List.mem_map.mp hid with ⟨s, hs, hsame⟩
    have hlt : s.requireGeneration < generationFloor current snapshot := by
      apply lt_generationFloor
      rw [(planScalars_slices hcurrent).1]
      exact hs
    refine Or.inl ⟨s, hs, hsame.symm, ClaimChange.advanced hlt rfl, ?_, ?_⟩
    · intro hgeneration
      change generationFloor current snapshot = _ at hgeneration
      omega
    · intro hsome
      cases hsome
  · exact Or.inr ⟨rfl, hid, Or.inr (Or.inr rfl)⟩

/-- Every slice of an allowed revision has its origin in the note before. -/
theorem noteStep_origin
    {cause : Cause} {t : ThreadSlice}
    (h : NoteStep host v plan now cause)
    (hunique : assertUniqueSliceIds plan.slices "persistPlan" = Except.ok ())
    (hsound : ClaimsSound v.note)
    (ht : t ∈ plan.slices) :
    (exists s, s ∈ v.note.slices ∧ Continues cause s t) ∨
      Brought v cause t := by
  have hnodup := assertUniqueSliceIds_ok hunique
  cases cause with
  | expire sliceId actor =>
      rcases h with ⟨slice, hslice, rfl, _, _, hplan⟩
      exact Or.inl (origin_of_replaceById hsound hslice
        (persistedAs_slices hplan) (continues_expired _ _ _) ht)
  | assign sliceId workerAgentId actorAgentId =>
      rcases h with ⟨slice, profile, hslice, rfl, _, hplan⟩
      exact Or.inl (origin_of_replaceById hsound hslice
        (persistedAs_slices hplan)
        (continues_assigned _ _ _ _
          (hsound.assigned slice (mem_of_hasSlice hslice))) ht)
  | claim sliceId workerAgentId idempotencyKey =>
      rcases h with ⟨slice, walk, hslice, hid, hnonTerminal, hassigned, hclaim,
        hwalked, hplan⟩
      rw [← hid] at hplan
      exact Or.inl (origin_of_replaceById hsound hslice
        (persistedAs_slices hplan)
        (continues_claimed hid hnonTerminal hassigned hclaim hwalked) ht)
  | worker input generation =>
      rcases h with ⟨slice, claim, envelope, wall, applied, receipt, hauth,
        rfl, happlied, hplan, _⟩
      rcases applyWorkerAction_spec happlied with ⟨_, _, f, hslices, heffect⟩
      have hplanSlices : plan.slices =
          replaceById v.note.slices slice.id f := by
        rw [hauth.named, ← hslices]
        exact persistedAs_slices hplan
      exact Or.inl (origin_of_replaceById hsound hauth.present hplanSlices
        (continues_worker hauth.named hauth.nonTerminal (heffect slice)) ht)
  | orchestrator sliceId =>
      rcases h with ⟨previous, status, evidence, options, wall, base,
        hprevious, rfl, hbase, hplan⟩
      rcases applyOrchestratorSliceUpdate_spec hbase with ⟨_, _, hslices⟩
      have hplanSlices := (persistedAs_slices hplan).trans hslices
      exact Or.inl (origin_of_replaceById hsound hprevious hplanSlices
        (continues_orchestrator _ previous status evidence) ht)
  | scar =>
      rcases h with ⟨entry, wall, hplan⟩
      rw [persistedAs_slices hplan] at ht
      exact Or.inl ⟨t, ht, continues_refl _ t (hsound.nonTerminal t ht)⟩
  | replan =>
      rcases h with ⟨newSlices, wall, base, hbase, hplan⟩
      exact origin_of_topology hsound (Or.inl rfl) (replan_topology hbase)
        hplan hnodup ht
  | delta =>
      rcases h with ⟨delta, wall, base, hbase, hplan⟩
      exact origin_of_topology hsound (Or.inr (Or.inl rfl))
        (applySliceDelta_topology hbase) hplan hnodup ht
  | restore =>
      rcases h with ⟨current, snapshot, base, hcurrent, _, hbase, hplan⟩
      exact origin_of_restore hcurrent hbase hplan ht

/-!
## Unique identifiers
-/

theorem replaceById_ids
    {slices : List ThreadSlice} {id : String} {f : ThreadSlice -> ThreadSlice}
    (hid : forall s : ThreadSlice, s.id = id -> (f s).id = id) :
    (replaceById slices id f).map (·.id) = slices.map (·.id) := by
  unfold replaceById
  rw [List.map_map]
  apply List.map_congr_left
  intro s _
  simp only [Function.comp_apply]
  split
  · rename_i hs
    rw [hid s hs, hs]
  · rfl

theorem nodup_of_replaceById
    {base : ThreadPlan} {id : String} {f : ThreadSlice -> ThreadSlice}
    (hplan : PersistedAs base plan)
    (hslices : base.slices = replaceById v.note.slices id f)
    (hid : forall s : ThreadSlice, s.id = id -> (f s).id = id)
    (hunique : (plan.slices.map (·.id)).Nodup) :
    (v.note.slices.map (·.id)).Nodup := by
  rw [persistedAs_slices hplan, hslices, replaceById_ids hid] at hunique
  exact hunique

theorem nodup_of_topology
    {before slices : List ThreadSlice} (h : TopologyOf before slices)
    (hunique : (slices.map (·.id)).Nodup) :
    (before.map (·.id)).Nodup := by
  rcases h with ⟨kept, added, rfl, hkept, _⟩
  rw [List.map_append, forall₂_ids hkept] at hunique
  exact hunique.of_append_left

/-- A note with a duplicate identifier is never written over. -/
theorem noteStep_nodup
    {cause : Cause}
    (h : NoteStep host v plan now cause)
    (hunique : assertUniqueSliceIds plan.slices "persistPlan" = Except.ok ()) :
    (v.note.slices.map (·.id)).Nodup := by
  have hnodup := assertUniqueSliceIds_ok hunique
  cases cause with
  | expire sliceId actor =>
      rcases h with ⟨slice, _, rfl, _, _, hplan⟩
      exact nodup_of_replaceById hplan rfl (fun _ _ => rfl) hnodup
  | assign sliceId workerAgentId actorAgentId =>
      rcases h with ⟨slice, profile, _, rfl, _, hplan⟩
      exact nodup_of_replaceById hplan rfl (fun _ _ => rfl) hnodup
  | claim sliceId workerAgentId idempotencyKey =>
      rcases h with ⟨slice, walk, _, rfl, _, _, _, _, hplan⟩
      exact nodup_of_replaceById hplan rfl (fun _ _ => rfl) hnodup
  | worker input generation =>
      rcases h with ⟨slice, claim, envelope, wall, applied, receipt, _, _,
        happlied, hplan, _⟩
      rcases applyWorkerAction_spec happlied with ⟨_, _, f, hslices, heffect⟩
      exact nodup_of_replaceById hplan hslices
        (fun s hs => (workerEffect_keeps (heffect s)).1.trans hs) hnodup
  | orchestrator sliceId =>
      rcases h with ⟨previous, status, evidence, options, wall, base, _, _,
        hbase, hplan⟩
      exact nodup_of_replaceById hplan
        (applyOrchestratorSliceUpdate_spec hbase).2.2
        (fun s hs => (revokedSlice_id previous _).trans hs) hnodup
  | scar =>
      rcases h with ⟨entry, wall, hplan⟩
      rw [persistedAs_slices hplan] at hnodup
      exact hnodup
  | replan =>
      rcases h with ⟨newSlices, wall, base, hbase, hplan⟩
      rw [persistedAs_slices hplan] at hnodup
      exact nodup_of_topology (replan_topology hbase) hnodup
  | delta =>
      rcases h with ⟨delta, wall, base, hbase, hplan⟩
      rw [persistedAs_slices hplan] at hnodup
      exact nodup_of_topology (applySliceDelta_topology hbase) hnodup
  | restore =>
      rcases h with ⟨current, snapshot, base, hcurrent, _, hbase, _⟩
      rcases except_bind_ok hbase with ⟨_, hcurrentUnique, _⟩
      rw [← (planScalars_slices hcurrent).1]
      exact assertUniqueSliceIds_ok hcurrentUnique

/-- Every write makes the next revision. -/
theorem noteStep_rev
    {cause : Cause} (h : NoteStep host v plan now cause) :
    plan.rev = v.note.rev + 1 := by
  cases cause with
  | expire sliceId actor =>
      rcases h with ⟨slice, _, _, _, _, hplan⟩
      rw [persistedAs_rev hplan]
      rfl
  | assign sliceId workerAgentId actorAgentId =>
      rcases h with ⟨slice, profile, _, _, _, hplan⟩
      rw [persistedAs_rev hplan]
      rfl
  | claim sliceId workerAgentId idempotencyKey =>
      rcases h with ⟨slice, walk, _, _, _, _, _, _, hplan⟩
      rw [persistedAs_rev hplan]
      rfl
  | worker input generation =>
      rcases h with ⟨slice, claim, envelope, wall, applied, receipt, _, _,
        happlied, hplan, _⟩
      rw [persistedAs_rev hplan, (applyWorkerAction_spec happlied).1]
  | orchestrator sliceId =>
      rcases h with ⟨previous, status, evidence, options, wall, base, _, _,
        hbase, hplan⟩
      rw [persistedAs_rev hplan, (applyOrchestratorSliceUpdate_spec hbase).1]
  | scar =>
      rcases h with ⟨entry, wall, hplan⟩
      rw [persistedAs_rev hplan]
      rfl
  | replan =>
      rcases h with ⟨newSlices, wall, base, hbase, hplan⟩
      rw [persistedAs_rev hplan, replan_rev hbase]
  | delta =>
      rcases h with ⟨delta, wall, base, hbase, hplan⟩
      rw [persistedAs_rev hplan, applySliceDelta_rev hbase]
  | restore =>
      rcases h with ⟨current, snapshot, base, hcurrent, _, hbase, hplan⟩
      rw [persistedAs_rev hplan, (restorePlan_spec hbase).1]
      rcases hcurrent with rfl | rfl
      · rfl
      · rfl

theorem eq_of_id
    {slices : List ThreadSlice} {s t : ThreadSlice}
    (hnodup : (slices.map (·.id)).Nodup) (hs : s ∈ slices) (ht : t ∈ slices)
    (hid : s.id = t.id) : s = t :=
  List.inj_on_of_nodup_map hnodup hs ht hid

/-- A slice continues the slice of the note before that has its identifier. -/
theorem continues_of_id
    {cause : Cause} {s t : ThreadSlice}
    (h : NoteStep host v plan now cause)
    (hunique : assertUniqueSliceIds plan.slices "persistPlan" = Except.ok ())
    (hsound : ClaimsSound v.note)
    (hs : s ∈ v.note.slices) (ht : t ∈ plan.slices) (hid : s.id = t.id) :
    Continues cause s t := by
  rcases noteStep_origin h hunique hsound ht with ⟨other, hother, hstep⟩ | hnew
  · have hsame : other = s :=
      eq_of_id (noteStep_nodup h hunique) hother hs (hstep.id.symm.trans hid.symm)
    rw [← hsame]
    exact hstep
  · exact absurd (List.mem_map.mpr ⟨s, hs, hid⟩) hnew.fresh

/-- Claims stay sound from one revision to the next. -/
theorem claimsSound_step
    {cause : Cause}
    (h : NoteStep host v plan now cause)
    (hunique : assertUniqueSliceIds plan.slices "persistPlan" = Except.ok ())
    (hsound : ClaimsSound v.note) :
    ClaimsSound plan := by
  constructor
  · intro t ht hsome
    rcases noteStep_origin h hunique hsound ht with ⟨s, hs, hstep⟩ | hbrought
    · rcases hstep.change with
        ⟨hgeneration, hclaim⟩ | ⟨_, hnone⟩ | ⟨_, _, hnone⟩ |
          ⟨⟨_, _, _, _, hassigned, _⟩, _, _⟩
      · rw [hclaim] at hsome
        exact hstep.assigned hgeneration (hsound.assigned s hs hsome)
      · rw [hnone] at hsome
        cases hsome
      · rw [hnone] at hsome
        cases hsome
      · rw [hassigned]
        rfl
    · rw [hbrought.claim] at hsome
      cases hsome
  · intro t ht hsome
    rcases noteStep_origin h hunique hsound ht with ⟨s, hs, hstep⟩ | hbrought
    · exact hstep.nonTerminal hsome (hsound.nonTerminal s hs)
    · rw [hbrought.claim] at hsome
      cases hsome

end Thread
end Minni
