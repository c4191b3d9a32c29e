import Minni.Thread.NoteSpecs

/-!
# What an update does to a slice

The update of one slice changes the slice that is named and no other, and it
keeps the slice's identity and generation.
-/

namespace Minni
namespace Thread

open Foundation

/-- The steps of a pure operation that has succeeded. -/
theorem except_bind_ok
    {α β : Type} {x : Except String α} {f : α -> Except String β} {b : β}
    (h : (x >>= f) = Except.ok b) :
    exists a, x = Except.ok a ∧ f a = Except.ok b := by
  cases x with
  | ok a =>
      exact ⟨a, rfl, h⟩
  | error text =>
      cases h

theorem updateSlice_spec
    {host : Host} {plan next : ThreadPlan} {sliceId : String}
    {to_ : PlanSliceStatus} {evidence : Option String}
    {options : Option UpdateSliceOptions} {wall : String}
    (h : updateSlice host plan sliceId to_ evidence options wall =
      Except.ok next) :
    next.rev = plan.rev ∧ next.plan_id = plan.plan_id ∧
      next.slices = replaceById plan.slices sliceId
        fun s => transitionedSlice s to_ evidence := by
  rcases except_bind_ok h with ⟨_, _, h⟩
  rcases except_bind_ok h with ⟨_, _, h⟩
  rcases except_bind_ok h with ⟨_, _, h⟩
  cases h
  exact ⟨rfl, rfl, rfl⟩

/-!
## Worker actions
-/

/-- What the action does to the slice of its worker. -/
def WorkerEffect : WorkerUpdateAction -> ThreadSlice -> ThreadSlice -> Prop
  | WorkerUpdateAction.start, s, t =>
      t = transitionedSlice s PlanSliceStatus.in_progress none
  | WorkerUpdateAction.progress evidence, s, t =>
      t = transitionedSlice s PlanSliceStatus.in_progress
        (some (Text.trim evidence))
  | WorkerUpdateAction.block evidence, s, t =>
      t = transitionedSlice s PlanSliceStatus.blocked
        (some (Text.trim evidence))
  | WorkerUpdateAction.scar _ _ _, s, t => t = s
  | WorkerUpdateAction.propose_structure proposal, s, t =>
      exists copied, copyProposal proposal = Except.ok copied ∧
        t = proposedSlice s copied
  | WorkerUpdateAction.complete evidence, s, t =>
      t = clearedClaim
        (transitionedSlice s PlanSliceStatus.done (some (Text.trim evidence)))

theorem requireEvidence_spec {value label text : String}
    (h : requireEvidence value label = Except.ok text) :
    text = Text.trim value := by
  unfold requireEvidence at h
  split at h
  · cases h
  · cases h
    rfl

theorem replaceById_self (slices : List ThreadSlice) (id : String) :
    replaceById slices id (fun s => s) = slices := by
  unfold replaceById
  simp

theorem replaceById_replaceById
    {slices : List ThreadSlice} {id : String}
    {f g : ThreadSlice -> ThreadSlice}
    (hid : forall s : ThreadSlice, (f s).id = s.id) :
    replaceById (replaceById slices id f) id g =
      replaceById slices id fun s => g (f s) := by
  unfold replaceById
  rw [List.map_map]
  apply List.map_congr_left
  intro s _
  simp only [Function.comp_apply]
  by_cases hs : s.id = id
  · rw [if_pos hs, if_pos hs, hid, if_pos hs]
  · rw [if_neg hs, if_neg hs, if_neg hs]

theorem applyWorkerAction_spec
    {host : Host} {plan : ThreadPlan} {sliceId wall : String}
    {action : WorkerUpdateAction} {applied : ThreadPlan × Bool}
    (h : applyWorkerAction host plan sliceId wall action = Except.ok applied) :
    (nextAfterAction applied sliceId).rev = plan.rev ∧
      (nextAfterAction applied sliceId).plan_id = plan.plan_id ∧
      exists f : ThreadSlice -> ThreadSlice,
        (nextAfterAction applied sliceId).slices =
          replaceById plan.slices sliceId f ∧
        forall s, WorkerEffect action s (f s) := by
  cases action with
  | start =>
      rcases except_bind_ok h with ⟨next, hnext, h⟩
      cases h
      rcases updateSlice_spec hnext with ⟨hrev, hplan, hslices⟩
      exact ⟨hrev, hplan, _, hslices, fun _ => rfl⟩
  | progress evidence =>
      rcases except_bind_ok h with ⟨text, htext, h⟩
      rcases except_bind_ok h with ⟨next, hnext, h⟩
      cases h
      rcases updateSlice_spec hnext with ⟨hrev, hplan, hslices⟩
      rw [requireEvidence_spec htext] at hslices
      exact ⟨hrev, hplan, _, hslices, fun _ => rfl⟩
  | block evidence =>
      rcases except_bind_ok h with ⟨text, htext, h⟩
      rcases except_bind_ok h with ⟨next, hnext, h⟩
      cases h
      rcases updateSlice_spec hnext with ⟨hrev, hplan, hslices⟩
      rw [requireEvidence_spec htext] at hslices
      exact ⟨hrev, hplan, _, hslices, fun _ => rfl⟩
  | scar kind signal resolution =>
      rcases except_bind_ok h with ⟨text, _, h⟩
      cases h
      exact ⟨rfl, rfl, fun s => s, (replaceById_self _ _).symm, fun _ => rfl⟩
  | propose_structure proposal =>
      rcases except_bind_ok h with ⟨copied, hcopied, h⟩
      cases h
      exact ⟨rfl, rfl, _, rfl, fun _ => ⟨copied, hcopied, rfl⟩⟩
  | complete evidence =>
      rcases except_bind_ok h with ⟨text, htext, h⟩
      rcases except_bind_ok h with ⟨next, hnext, h⟩
      cases h
      rcases updateSlice_spec hnext with ⟨hrev, hplan, hslices⟩
      rw [requireEvidence_spec htext] at hslices
      refine ⟨hrev, hplan, _, ?_, fun _ => rfl⟩
      change replaceById next.slices sliceId clearedClaim = _
      rw [hslices]
      exact replaceById_replaceById fun _ => rfl

theorem workerEffect_keeps
    {action : WorkerUpdateAction} {s t : ThreadSlice}
    (h : WorkerEffect action s t) :
    t.id = s.id ∧ t.generation = s.generation ∧
      t.assigned_to = s.assigned_to := by
  cases action with
  | start =>
      rw [h]
      exact ⟨rfl, rfl, rfl⟩
  | progress evidence =>
      rw [h]
      exact ⟨rfl, rfl, rfl⟩
  | block evidence =>
      rw [h]
      exact ⟨rfl, rfl, rfl⟩
  | scar kind signal resolution =>
      rw [h]
      exact ⟨rfl, rfl, rfl⟩
  | propose_structure proposal =>
      rcases h with ⟨copied, _, rfl⟩
      exact ⟨rfl, rfl, rfl⟩
  | complete evidence =>
      rw [h]
      exact ⟨rfl, rfl, rfl⟩

theorem workerEffect_claim
    {action : WorkerUpdateAction} {s t : ThreadSlice}
    (h : WorkerEffect action s t) :
    t.claim = if isComplete action then none else s.claim := by
  cases action with
  | start =>
      rw [h]
      rfl
  | progress evidence =>
      rw [h]
      rfl
  | block evidence =>
      rw [h]
      rfl
  | scar kind signal resolution =>
      rw [h]
      rfl
  | propose_structure proposal =>
      rcases h with ⟨copied, _, rfl⟩
      rfl
  | complete evidence =>
      rw [h]
      rfl

/-- The slice that is found after an update at its identifier. -/
theorem hasSlice_replaceById
    {plan next : ThreadPlan} {slice : ThreadSlice}
    {f : ThreadSlice -> ThreadSlice}
    (hslice : HasSlice plan slice)
    (hnext : next.slices = replaceById plan.slices slice.id f)
    (hid : forall s : ThreadSlice, (f s).id = s.id) :
    HasSlice next (f slice) := by
  unfold HasSlice
  rw [hid, hnext, replaceById_filter (fun s hs => (hid s).trans hs), hslice]
  rfl

end Thread
end Minni
