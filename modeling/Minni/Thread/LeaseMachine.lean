import Minni.Thread.Generations

/-!
# The lease of a slice as a machine

What a revision says of the work on a slice is a generation and a holder.  The
next revision leaves them, takes the lease away with a higher generation, ends
it, or leases a free slice out; the holder is always the assigned worker.
-/

namespace Minni
namespace Thread

open Foundation

/-!
## The machine
-/

structure LeaseView where
  generation : Nat
  holder : Option (String × ClaimId)

inductive LeaseMove : LeaseView -> LeaseView -> Prop where
  | stays (view : LeaseView) : LeaseMove view view
  | fenced {view next : LeaseView} (hlt : view.generation < next.generation)
      (hfree : next.holder = none) : LeaseMove view next
  | finished (view : LeaseView) : LeaseMove view { view with holder := none }
  | leased {view : LeaseView} (worker : String) (id : ClaimId)
      (hfree : view.holder = none) (hle : view.generation ≤ id.generation) :
      LeaseMove view
        { generation := id.generation
          holder := some (worker, id) }

def leaseView (s : ThreadSlice) : LeaseView where
  generation := s.requireGeneration
  holder := s.claim.map fun claim => (claim.worker_agent_id, claim.claim_id)

/-- One revision after another: every slice moves as the machine does, and a
slice that was not there is free. -/
structure NextRevision (newer older : ThreadPlan) : Prop where
  rev : newer.rev = older.rev + 1
  moves : forall t, t ∈ newer.slices -> forall s, s ∈ older.slices ->
    s.id = t.id -> LeaseMove (leaseView s) (leaseView t)
  brought : forall t, t ∈ newer.slices -> t.id ∉ older.slices.map (·.id) ->
    t.claim = none

/-- The claim is one of the assigned worker on the slice as it is. -/
structure HeldBy (t : ThreadSlice) (claim : ThreadClaimRef) : Prop where
  worker : t.assigned_to = some claim.worker_agent_id
  slice : claim.claim_id.slice_id = t.id
  generation : claim.claim_id.generation = t.requireGeneration
  nonTerminal : isNonTerminal t = true

def ClaimsHeld (plan : ThreadPlan) : Prop :=
  forall t, t ∈ plan.slices -> forall claim, t.claim = some claim ->
    HeldBy t claim

variable {host : Host} {v : Vault} {plan : ThreadPlan} {now : Nat}
  {cause : Cause} {s t : ThreadSlice} {claim : ThreadClaimRef}

/-!
## The holder
-/

/-- The claim was there, or is one of the worker that the free slice was
assigned to. -/
def Inherits (s t : ThreadSlice) (claim : ThreadClaimRef) : Prop :=
  t.assigned_to = s.assigned_to ∧
    (s.claim = some claim ∨
      s.claim = none ∧ s.assigned_to = some claim.worker_agent_id)

section Inherits

variable (hs : s ∈ v.note.slices) (ht : t ∈ plan.slices) (hid : s.id = t.id)
  (hclaim : t.claim = some claim)
include hs ht hid hclaim

theorem inherits_replaced
    {slice : ThreadSlice} {f : ThreadSlice -> ThreadSlice}
    (hnodup : (v.note.slices.map (·.id)).Nodup) (hslice : HasSlice v.note slice)
    (hslices : plan.slices = replaceById v.note.slices slice.id f)
    (hf : (f slice).id = slice.id)
    (h : (f slice).claim = some claim -> Inherits slice (f slice) claim) :
    Inherits s t claim := by
  rw [hslices] at ht
  rcases List.mem_map.mp ht with ⟨u, hu, rfl⟩
  by_cases hname : u.id = slice.id
  · rw [if_pos hname, hasSlice_unique hslice hu hname] at hid hclaim ⊢
    rw [hasSlice_unique hslice hs (hid.trans hf)]
    exact h hclaim
  · rw [if_neg hname] at hid hclaim ⊢
    rw [eq_of_id hnodup hs hu hid]
    exact ⟨rfl, Or.inl hclaim⟩

theorem inherits_of_topology
    {base : ThreadPlan} (htopology : TopologyOf v.note.slices base.slices)
    (hplan : PersistedAs base plan)
    (hunique : (plan.slices.map (·.id)).Nodup)
    (hbefore : (v.note.slices.map (·.id)).Nodup) :
    Inherits s t claim := by
  rw [persistedAs_slices hplan] at ht hunique
  rcases topologyOf_origin htopology hunique ht with
    ⟨u, hu, hstep⟩ | ⟨_, hfresh⟩
  · rw [eq_of_id hbefore hs hu (hid.trans hstep.id)]
    refine ⟨hstep.assigned, Or.inl ?_⟩
    rcases hstep.generation with ⟨_, hsame, _⟩ | ⟨_, hnone⟩
    · exact hsame.symm.trans hclaim
    · rw [hnone] at hclaim
      cases hclaim
  · exact absurd (List.mem_map.mpr ⟨s, hs, hid⟩) hfresh

theorem noteStep_inherits
    (h : NoteStep host v plan now cause)
    (hunique : assertUniqueSliceIds plan.slices "persistPlan" = Except.ok ()) :
    Inherits s t claim := by
  have hbefore := noteStep_nodup h hunique
  have hnodup := assertUniqueSliceIds_ok hunique
  cases cause with
  | expire sliceId actor =>
      rcases h with ⟨slice, hslice, rfl, _, _, hplan⟩
      apply inherits_replaced hs ht hid hclaim hbefore hslice
        (persistedAs_slices hplan) rfl
      intro hnone
      cases hnone
  | assign sliceId workerAgentId actorAgentId =>
      rcases h with ⟨slice, profile, hslice, rfl, _, hplan⟩
      apply inherits_replaced hs ht hid hclaim hbefore hslice
        (persistedAs_slices hplan) rfl
      intro hnone
      cases hnone
  | claim sliceId workerAgentId idempotencyKey =>
      rcases h with ⟨slice, walk, hslice, rfl, _, hassigned, hfree, _, hplan⟩
      apply inherits_replaced hs ht hid hclaim hbefore hslice
        (persistedAs_slices hplan) rfl
      intro hminted
      cases hminted
      exact ⟨rfl, Or.inr ⟨hfree, hassigned⟩⟩
  | worker input generation =>
      rcases h with ⟨slice, held, envelope, wall, applied, receipt, hauth, _,
        happlied, hplan, _⟩
      rcases applyWorkerAction_spec happlied with ⟨_, _, f, hslices, heffect⟩
      have hplanSlices : plan.slices =
          replaceById v.note.slices slice.id f := by
        rw [hauth.named, ← hslices]
        exact persistedAs_slices hplan
      rcases workerEffect_keeps (heffect slice) with ⟨hname, _, hassigned⟩
      apply inherits_replaced hs ht hid hclaim hbefore hauth.present hplanSlices
        hname
      intro hkept
      rw [workerEffect_claim (heffect slice)] at hkept
      split at hkept
      · cases hkept
      · exact ⟨hassigned, Or.inl hkept⟩
  | orchestrator sliceId =>
      rcases h with ⟨previous, status, evidence, options, wall, base,
        hprevious, rfl, hbase, hplan⟩
      apply inherits_replaced hs ht hid hclaim hbefore hprevious
        ((persistedAs_slices hplan).trans
          (applyOrchestratorSliceUpdate_spec hbase).2.2)
        (revokedSlice_id previous _)
      intro hkept
      unfold revokedSlice at hkept ⊢
      split at hkept
      · cases hkept
      · rename_i hnone
        rw [if_neg hnone]
        exact ⟨rfl, Or.inl hkept⟩
  | scar =>
      rcases h with ⟨entry, wall, hplan⟩
      rw [persistedAs_slices hplan] at ht
      rw [eq_of_id hbefore hs ht hid]
      exact ⟨rfl, Or.inl hclaim⟩
  | replan =>
      rcases h with ⟨newSlices, wall, base, hbase, hplan⟩
      exact inherits_of_topology hs ht hid hclaim (replan_topology hbase) hplan
        hnodup hbefore
  | delta =>
      rcases h with ⟨delta, wall, base, hbase, hplan⟩
      exact inherits_of_topology hs ht hid hclaim
        (applySliceDelta_topology hbase) hplan hnodup hbefore
  | restore =>
      rcases h with ⟨current, snapshot, base, _, _, hbase, hplan⟩
      rw [persistedAs_slices hplan, (restorePlan_spec hbase).2.2] at ht
      rcases List.mem_map.mp ht with ⟨old, _, rfl⟩
      cases hclaim

end Inherits

theorem continues_holding (h : Continues cause s t)
    (hclaim : t.claim = some claim) :
    s.claim = some claim ∧ t.requireGeneration = s.requireGeneration ∨
      s.claim = none ∧ claim.claim_id.slice_id = t.id ∧
        claim.claim_id.generation = t.requireGeneration := by
  rcases h.change with
    ⟨hgeneration, hsame⟩ | ⟨_, hnone⟩ | ⟨_, _, hnone⟩ |
      ⟨⟨_, _, minted, _, _, hminted, hid⟩, hfree, _⟩
  · exact Or.inl ⟨hsame.symm.trans hclaim, hgeneration⟩
  · rw [hnone] at hclaim
    cases hclaim
  · rw [hnone] at hclaim
    cases hclaim
  · cases hminted.symm.trans hclaim
    exact Or.inr ⟨hfree, by rw [hid], by rw [hid]⟩

theorem claimsHeld_step
    (h : NoteStep host v plan now cause)
    (hunique : assertUniqueSliceIds plan.slices "persistPlan" = Except.ok ())
    (hsound : ClaimsSound v.note) (hheld : ClaimsHeld v.note) :
    ClaimsHeld plan := by
  intro t ht claim hclaim
  have hnonTerminal := (claimsSound_step h hunique hsound).nonTerminal t ht
    (by rw [hclaim]; rfl)
  rcases noteStep_origin h hunique hsound ht with ⟨s, hs, hstep⟩ | hbrought
  · rcases noteStep_inherits hs ht hstep.id.symm hclaim h hunique with
      ⟨hassigned, hworker⟩
    rcases continues_holding hstep hclaim with
      ⟨hkept, hgeneration⟩ | ⟨hfree, hslice, hgeneration⟩
    · have hbefore := hheld s hs claim hkept
      exact ⟨hassigned.trans hbefore.worker,
        hbefore.slice.trans hstep.id.symm,
        hbefore.generation.trans hgeneration.symm, hnonTerminal⟩
    · rcases hworker with hkept | ⟨_, hworker⟩
      · rw [hfree] at hkept
        cases hkept
      · exact ⟨hassigned.trans hworker, hslice, hgeneration, hnonTerminal⟩
  · rw [hbrought.claim] at hclaim
    cases hclaim

/-!
## The moves
-/

theorem leaseMove_of_continues (h : Continues cause s t) :
    LeaseMove (leaseView s) (leaseView t) := by
  rcases h.change with
    ⟨hgeneration, hclaim⟩ | ⟨hlt, hnone⟩ | ⟨_, hgeneration, hnone⟩ |
      ⟨⟨_, _, claim, _, _, hclaim, hid⟩, hfree, hle⟩
  · unfold leaseView
    rw [hgeneration, hclaim]
    exact LeaseMove.stays _
  · apply LeaseMove.fenced hlt
    unfold leaseView
    rw [hnone]
    rfl
  · unfold leaseView
    rw [hgeneration, hnone]
    exact LeaseMove.finished (leaseView s)
  · have hgeneration : claim.claim_id.generation = t.requireGeneration := by
      rw [hid]
    have hview : leaseView t =
        { generation := claim.claim_id.generation
          holder := some (claim.worker_agent_id, claim.claim_id) } := by
      unfold leaseView
      rw [hclaim, hgeneration]
      rfl
    rw [hview]
    apply LeaseMove.leased
    · unfold leaseView
      rw [hfree]
      rfl
    · rw [hgeneration]
      exact hle

theorem nextRevision_step
    (h : NoteStep host v plan now cause)
    (hunique : assertUniqueSliceIds plan.slices "persistPlan" = Except.ok ())
    (hsound : ClaimsSound v.note) :
    NextRevision plan v.note := by
  constructor
  · exact noteStep_rev h
  · intro t ht s hs hid
    exact leaseMove_of_continues (continues_of_id h hunique hsound hs ht hid)
  · intro t ht hfresh
    rcases noteStep_origin h hunique hsound ht with ⟨s, hs, hstep⟩ | hbrought
    · exact absurd (List.mem_map.mpr ⟨s, hs, hstep.id.symm⟩) hfresh
    · exact hbrought.claim

structure LeasesMoved (note : ThreadPlan) (landed : List Landed) : Prop where
  sound : ClaimsSound note
  held : forall plan, plan ∈ revisions note landed -> ClaimsHeld plan
  chain : (revisions note landed).IsChain NextRevision

theorem leasesMoved_invariant (host : Host) :
    Invariant host (fun _ _ => True)
      (fun v => LeasesMoved v.note v.landed) := by
  apply invariant_of_notes
  intro plan cause now v hmoved _ hnote hunique
  refine ⟨claimsSound_step hnote hunique hmoved.sound, ?_, ?_⟩
  · intro revision hrevision
    rcases List.mem_cons.mp hrevision with rfl | hbefore
    · exact claimsHeld_step hnote hunique hmoved.sound
        (hmoved.held v.note (List.mem_cons_self ..))
    · exact hmoved.held revision hbefore
  · exact List.isChain_cons_cons.mpr
      ⟨nextRevision_step hnote hunique hmoved.sound, hmoved.chain⟩

theorem runMeets_any (v : Vault) (events : List Event) :
    RunMeets host (fun _ _ => True) v events := by
  induction events generalizing v with
  | nil => exact True.intro
  | cons event rest ih =>
      refine ⟨?_, ih _⟩
      cases event with
      | call c clock outcomes => exact Program.meets_true _ _ _
      | reserve live => exact True.intro

section Runs

variable {input : CreatePlanInput} {created updated : String}
  {note : ThreadPlan}

theorem leasesMoved_run
    (hcreate : createPlan host input created updated = Except.ok note)
    (events : List Event) :
    LeasesMoved (runEvents host (newVault note) events).note
      (runEvents host (newVault note) events).landed := by
  apply run_invariant (leasesMoved_invariant host) (runMeets_any _ events)
  refine ⟨claimsSound_createPlan hcreate, ?_, List.IsChain.singleton _⟩
  intro plan hplan t ht claim hclaim
  rw [List.mem_singleton.mp hplan] at ht
  rw [(createPlan_free hcreate ht).1] at hclaim
  cases hclaim

/-- Whatever calls interleave and wherever they fail or crash, the revisions of
a plan are numbered one by one, and each of its slices moves from one to the
next as the machine does. -/
theorem revisions_move
    (hcreate : createPlan host input created updated = Except.ok note)
    (events : List Event) :
    (revisions (runEvents host (newVault note) events).note
      (runEvents host (newVault note) events).landed).IsChain NextRevision :=
  (leasesMoved_run hcreate events).chain

def oneLease : Vault :=
  runEvents plainHost (newVault plainPlan)
    [doneAt 1 (assignTo "w" "a"), doneAt 2 (claimBy "w" "a" "k")]

theorem revisions_move_one_lease :
    (revisions oneLease.note oneLease.landed).IsChain NextRevision :=
  @revisions_move plainHost plainInput "now" "now" plainPlan
    createPlan_plain _

/-- In every revision a claim is one of the assigned worker, on its slice at its
generation, and the slice is open. -/
theorem revisions_held
    (hcreate : createPlan host input created updated = Except.ok note)
    (events : List Event) (plan : ThreadPlan)
    (hplan : plan ∈ revisions (runEvents host (newVault note) events).note
      (runEvents host (newVault note) events).landed) :
    ClaimsHeld plan :=
  (leasesMoved_run hcreate events).held plan hplan

theorem revisions_held_one_lease : ClaimsHeld oneLease.note :=
  @revisions_held plainHost plainInput "now" "now" plainPlan
    createPlan_plain _ _ (List.mem_cons_self ..)

end Runs

end Thread
end Minni
