import Minni.Thread.SliceEffects

/-!
# What a replan and a restore do to the slices

Both forms of a replan keep every slice, in its place and under its
identifier, and append new slices at the end.  A kept slice stays at its
generation with its claim, or it advances without a claim.  A restore puts
every slice above all generations that the current plan records.
-/

namespace Minni
namespace Thread

open Foundation

/-- The slices ask for the same work. -/
structure SameMeaning (s t : ThreadSlice) : Prop where
  title : t.title = s.title
  gate : t.gate = s.gate
  depends_on : Text.sortStrings (t.depends_on.getD []) =
    Text.sortStrings (s.depends_on.getD [])
  status : t.status = s.status

theorem sameMeaning_refl (s : ThreadSlice) : SameMeaning s s :=
  ⟨rfl, rfl, rfl, rfl⟩

theorem sameMeaning_trans
    {s t u : ThreadSlice} (h : SameMeaning s t) (h' : SameMeaning t u) :
    SameMeaning s u :=
  ⟨h'.title.trans h.title, h'.gate.trans h.gate,
    h'.depends_on.trans h.depends_on, h'.status.trans h.status⟩

/-- A slice before and after an edit of the topology. -/
structure TopologyStep (s t : ThreadSlice) : Prop where
  id : t.id = s.id
  assigned : t.assigned_to = s.assigned_to
  status : t.status = s.status ∨ t.status = PlanSliceStatus.superseded
  generation : t.requireGeneration = s.requireGeneration ∧ t.claim = s.claim ∧
      SameMeaning s t ∨
    s.requireGeneration < t.requireGeneration ∧ t.claim = none

theorem topologyStep_refl (s : ThreadSlice) : TopologyStep s s :=
  ⟨rfl, rfl, Or.inl rfl, Or.inl ⟨rfl, rfl, sameMeaning_refl s⟩⟩

theorem topologyStep_trans
    {s t u : ThreadSlice} (h : TopologyStep s t) (h' : TopologyStep t u) :
    TopologyStep s u := by
  constructor
  · rw [h'.id, h.id]
  · rw [h'.assigned, h.assigned]
  · rcases h'.status with hsame | hsuperseded
    · rw [hsame]
      exact h.status
    · exact Or.inr hsuperseded
  · rcases h'.generation with ⟨hsame, hclaim, hmeaning⟩ | ⟨hlt, hnone⟩
    · rw [hsame, hclaim]
      rcases h.generation with ⟨hsame', hclaim', hmeaning'⟩ | hadvanced
      · exact Or.inl ⟨hsame', hclaim', sameMeaning_trans hmeaning' hmeaning⟩
      · exact Or.inr hadvanced
    · right
      refine ⟨?_, hnone⟩
      rcases h.generation with ⟨hsame, _⟩ | ⟨hlt', _⟩
      · omega
      · omega

theorem topologyStep_invalidate
    {s t : ThreadSlice}
    (hid : t.id = s.id) (hassigned : t.assigned_to = s.assigned_to)
    (hgeneration : t.generation = s.generation)
    (hstatus : t.status = s.status ∨ t.status = PlanSliceStatus.superseded) :
    TopologyStep s (invalidateSliceGeneration t) := by
  refine ⟨hid, hassigned, hstatus, Or.inr ⟨?_, rfl⟩⟩
  simp [invalidateSliceGeneration, PlanSlice.requireGeneration, hgeneration]

theorem topologyStep_supersede (marker : String) (s : ThreadSlice) :
    TopologyStep s (supersede marker s) :=
  topologyStep_invalidate rfl rfl rfl (Or.inr rfl)

theorem topologyStep_refreshed (ns : SliceInput) (s : ThreadSlice) :
    TopologyStep s (refreshedSlice ns s) := by
  unfold refreshedSlice
  simp only
  generalize (if ns.title = "" then s.title else ns.title) = title
  split
  · exact topologyStep_invalidate rfl rfl rfl (Or.inl rfl)
  · rename_i hsame
    rcases not_or.mp hsame with ⟨htitle, hrest⟩
    rcases not_or.mp hrest with ⟨hgate, hdepends⟩
    refine ⟨rfl, rfl, Or.inl rfl, Or.inl ⟨rfl, rfl, ?_⟩⟩
    have hset : sameStringSet (ns.depends_on.or s.depends_on) s.depends_on =
        true := by
      simpa using hdepends
    exact ⟨not_not.mp htitle, not_not.mp hgate, of_decide_eq_true hset, rfl⟩

theorem topologyStep_remounted
    (remounts : List SetDependsOn) (s : ThreadSlice) :
    TopologyStep s (remountedSlice remounts s) := by
  unfold remountedSlice
  split
  · exact topologyStep_refl s
  · split
    · exact topologyStep_refl s
    · exact topologyStep_invalidate rfl rfl rfl (Or.inl rfl)

/-!
## Edits
-/

/-- A slice that a replan has added: nobody holds it. -/
structure Added (t : ThreadSlice) : Prop where
  claim : t.claim = none
  assigned : t.assigned_to = none
  status : t.status = PlanSliceStatus.pending ∨
    t.status = PlanSliceStatus.superseded

theorem added_step
    {t u : ThreadSlice} (h : Added t) (hstep : TopologyStep t u) :
    Added u := by
  constructor
  · rcases hstep.generation with ⟨_, hclaim, _⟩ | ⟨_, hnone⟩
    · rw [hclaim]
      exact h.claim
    · exact hnone
  · rw [hstep.assigned]
    exact h.assigned
  · rcases hstep.status with hsame | hsuperseded
    · rw [hsame]
      exact h.status
    · exact Or.inr hsuperseded

/-- The old slices in their places, then the added ones. -/
def TopologyOf (before slices : List ThreadSlice) : Prop :=
  exists kept added, slices = kept ++ added ∧
    List.Forall₂ TopologyStep before kept ∧
    forall t, t ∈ added -> Added t

theorem forall₂_map
    {before kept : List ThreadSlice} {g : ThreadSlice -> ThreadSlice}
    (hg : forall t, TopologyStep t (g t))
    (h : List.Forall₂ TopologyStep before kept) :
    List.Forall₂ TopologyStep before (kept.map g) := by
  induction h with
  | nil =>
      exact List.Forall₂.nil
  | cons hstep _ ih =>
      exact List.Forall₂.cons (topologyStep_trans hstep (hg _)) ih

theorem topologyOf_map
    {before slices : List ThreadSlice} {g : ThreadSlice -> ThreadSlice}
    (hg : forall t, TopologyStep t (g t)) (h : TopologyOf before slices) :
    TopologyOf before (slices.map g) := by
  rcases h with ⟨kept, added, rfl, hkept, hadded⟩
  refine ⟨kept.map g, added.map g, List.map_append, forall₂_map hg hkept, ?_⟩
  intro t ht
  rcases List.mem_map.mp ht with ⟨u, hu, rfl⟩
  exact added_step (hadded u hu) (hg u)

theorem topologyOf_refl (slices : List ThreadSlice) :
    TopologyOf slices slices := by
  refine ⟨slices, [], (List.append_nil _).symm, ?_, ?_⟩
  · exact List.forall₂_same.mpr fun s _ => topologyStep_refl s
  · intro t ht
    cases ht

theorem topologyOf_append
    {before slices : List ThreadSlice} {t : ThreadSlice}
    (h : TopologyOf before slices) (ht : Added t) :
    TopologyOf before (slices ++ [t]) := by
  rcases h with ⟨kept, added, rfl, hkept, hadded⟩
  refine ⟨kept, added ++ [t], List.append_assoc _ _ _, hkept, ?_⟩
  intro u hu
  rcases List.mem_append.mp hu with hu | hu
  · exact hadded u hu
  · rw [List.mem_singleton.mp hu]
    exact ht

theorem added_initialSlice (id : String) (ns : SliceInput) :
    Added (initialSlice id ns) :=
  ⟨rfl, rfl, Or.inl rfl⟩

theorem topologyStep_if
    {condition : ThreadSlice -> Prop} [DecidablePred condition]
    {f : ThreadSlice -> ThreadSlice} (hf : forall t, TopologyStep t (f t))
    (t : ThreadSlice) :
    TopologyStep t (if condition t then f t else t) := by
  split
  · exact hf t
  · exact topologyStep_refl t

theorem topologyOf_stampReplacedBy
    {before slices : List ThreadSlice} {marker : String}
    {supersededIds addedIds : List String}
    (h : TopologyOf before slices) :
    TopologyOf before
      (stampReplacedBy marker supersededIds addedIds slices) := by
  unfold stampReplacedBy
  split
  · exact h
  · exact topologyOf_map
      (topologyStep_if fun t =>
        ⟨rfl, rfl, Or.inl rfl, Or.inl ⟨rfl, rfl, ⟨rfl, rfl, rfl, rfl⟩⟩⟩)
      h

/-- A fold of edits, each of which keeps to the topology. -/
theorem topologyOf_foldlM
    {before : List ThreadSlice} {inputs : List SliceInput}
    {entry : TopologyEdit ThreadClaimRef -> SliceInput ->
      Except String (TopologyEdit ThreadClaimRef)}
    (hentry : forall edit ns edit', TopologyOf before edit.slices ->
      entry edit ns = Except.ok edit' -> TopologyOf before edit'.slices)
    {edit edit' : TopologyEdit ThreadClaimRef}
    (h : TopologyOf before edit.slices)
    (hfold : inputs.foldlM entry edit = Except.ok edit') :
    TopologyOf before edit'.slices := by
  induction inputs generalizing edit with
  | nil =>
      cases hfold
      exact h
  | cons ns rest ih =>
      rw [List.foldlM_cons] at hfold
      rcases except_bind_ok hfold with ⟨next, hnext, hrest⟩
      exact ih (hentry edit ns next h hnext) hrest

theorem replanEntry_topology
    {host : Host} {before : List ThreadSlice}
    {edit edit' : TopologyEdit ThreadClaimRef} {ns : SliceInput}
    (h : TopologyOf before edit.slices)
    (hentry : replanEntry host edit ns = Except.ok edit') :
    TopologyOf before edit'.slices := by
  unfold replanEntry at hentry
  split at hentry
  · split at hentry
    · cases hentry
      exact h
    · rcases except_bind_ok hentry with ⟨_, _, hrest⟩
      cases hrest
      exact topologyOf_map
        (topologyStep_if fun t => topologyStep_refreshed ns t) h
  · split at hentry
    · split at hentry
      · cases hentry
      · rcases except_bind_ok hentry with ⟨_, _, hrest⟩
        cases hrest
        exact topologyOf_append h (added_initialSlice _ _)
    · rcases except_bind_ok hentry with ⟨_, _, hrest⟩
      cases hrest
      exact topologyOf_append h (added_initialSlice _ _)

theorem deltaEntry_topology
    {host : Host} {before : List ThreadSlice}
    {edit edit' : TopologyEdit ThreadClaimRef} {ns : SliceInput}
    (h : TopologyOf before edit.slices)
    (hentry : deltaEntry host edit ns = Except.ok edit') :
    TopologyOf before edit'.slices := by
  unfold deltaEntry at hentry
  split at hentry
  · split at hentry
    · cases hentry
    · rcases except_bind_ok hentry with ⟨_, _, hrest⟩
      cases hrest
      exact topologyOf_append h (added_initialSlice _ _)
  · rcases except_bind_ok hentry with ⟨_, _, hrest⟩
    cases hrest
    exact topologyOf_append h (added_initialSlice _ _)

theorem replan_topology
    {host : Host} {plan next : ThreadPlan} {newSlices : List SliceInput}
    {wall : String}
    (h : replan host plan newSlices wall = Except.ok next) :
    TopologyOf plan.slices next.slices := by
  rcases except_bind_ok h with ⟨_, _, h⟩
  rcases except_bind_ok h with ⟨_, _, h⟩
  rcases except_bind_ok h with ⟨edit, hedit, h⟩
  rcases except_bind_ok h with ⟨_, _, h⟩
  cases h
  apply topologyOf_stampReplacedBy
  refine topologyOf_foldlM (fun _ _ _ => replanEntry_topology) ?_ hedit
  apply topologyOf_map _ (topologyOf_refl plan.slices)
  exact topologyStep_if fun t => topologyStep_supersede _ t

theorem replan_rev
    {host : Host} {plan next : ThreadPlan} {newSlices : List SliceInput}
    {wall : String}
    (h : replan host plan newSlices wall = Except.ok next) :
    next.rev = plan.rev := by
  rcases except_bind_ok h with ⟨_, _, h⟩
  rcases except_bind_ok h with ⟨_, _, h⟩
  rcases except_bind_ok h with ⟨edit, hedit, h⟩
  rcases except_bind_ok h with ⟨_, _, h⟩
  cases h
  rfl

theorem applySliceDelta_rev
    {host : Host} {plan next : ThreadPlan} {delta : SliceDelta} {wall : String}
    (h : applySliceDelta host plan delta wall = Except.ok next) :
    next.rev = plan.rev := by
  rcases except_bind_ok h with ⟨_, _, h⟩
  rcases except_bind_ok h with ⟨_, _, h⟩
  rcases except_bind_ok h with ⟨edit, hedit, h⟩
  rcases except_bind_ok h with ⟨_, _, h⟩
  rcases except_bind_ok h with ⟨_, _, h⟩
  cases h
  rfl

theorem applySliceDelta_topology
    {host : Host} {plan next : ThreadPlan} {delta : SliceDelta} {wall : String}
    (h : applySliceDelta host plan delta wall = Except.ok next) :
    TopologyOf plan.slices next.slices := by
  rcases except_bind_ok h with ⟨_, _, h⟩
  rcases except_bind_ok h with ⟨_, _, h⟩
  rcases except_bind_ok h with ⟨edit, hedit, h⟩
  rcases except_bind_ok h with ⟨_, _, h⟩
  rcases except_bind_ok h with ⟨_, _, h⟩
  cases h
  apply topologyOf_map (topologyStep_remounted _)
  apply topologyOf_stampReplacedBy
  refine topologyOf_foldlM (fun _ _ _ => deltaEntry_topology) ?_ hedit
  apply topologyOf_map _ (topologyOf_refl plan.slices)
  exact topologyStep_if fun t => topologyStep_supersede _ t

/-!
## Identifiers
-/

theorem firstDuplicate_none
    {seen ids : List String} (h : firstDuplicate seen ids = none) :
    ids.Nodup ∧ forall id, id ∈ ids -> id ∉ seen := by
  induction ids generalizing seen with
  | nil =>
      refine ⟨List.nodup_nil, ?_⟩
      intro id hid
      cases hid
  | cons id rest ih =>
      unfold firstDuplicate at h
      split at h
      · cases h
      · rename_i hfresh
        rcases ih h with ⟨hnodup, hrest⟩
        constructor
        · refine List.nodup_cons.mpr ⟨?_, hnodup⟩
          intro hmem
          exact hrest id hmem (List.mem_cons_self ..)
        · intro other hother
          rcases List.mem_cons.mp hother with rfl | hother
          · exact hfresh
          · intro hseen
            exact hrest other hother (List.mem_cons_of_mem _ hseen)

theorem assertUniqueSliceIds_ok
    {slices : List ThreadSlice} {context : String}
    (h : assertUniqueSliceIds slices context = Except.ok ()) :
    (slices.map (·.id)).Nodup := by
  unfold assertUniqueSliceIds at h
  split at h
  · cases h
  · rename_i hnone
    exact (firstDuplicate_none hnone).1

theorem forall₂_ids
    {before kept : List ThreadSlice}
    (h : List.Forall₂ TopologyStep before kept) :
    kept.map (·.id) = before.map (·.id) := by
  induction h with
  | nil =>
      rfl
  | cons hstep _ ih =>
      rw [List.map_cons, List.map_cons, hstep.id, ih]

theorem forall₂_origin
    {before kept : List ThreadSlice} {t : ThreadSlice}
    (h : List.Forall₂ TopologyStep before kept) (ht : t ∈ kept) :
    exists s, s ∈ before ∧ TopologyStep s t := by
  induction h with
  | nil =>
      cases ht
  | cons hstep _ ih =>
      rcases List.mem_cons.mp ht with rfl | ht
      · exact ⟨_, List.mem_cons_self .., hstep⟩
      · rcases ih ht with ⟨s, hs, hrel⟩
        exact ⟨s, List.mem_cons_of_mem _ hs, hrel⟩

/-- Where identifiers are unique, a slice continues an old one or is new under
its identifier. -/
theorem topologyOf_origin
    {before slices : List ThreadSlice} {t : ThreadSlice}
    (h : TopologyOf before slices) (hunique : (slices.map (·.id)).Nodup)
    (ht : t ∈ slices) :
    (exists s, s ∈ before ∧ TopologyStep s t) ∨
      Added t ∧ t.id ∉ before.map (·.id) := by
  rcases h with ⟨kept, added, rfl, hkept, hadded⟩
  rcases List.mem_append.mp ht with ht | ht
  · exact Or.inl (forall₂_origin hkept ht)
  · refine Or.inr ⟨hadded t ht, ?_⟩
    intro hold
    rw [List.map_append, forall₂_ids hkept] at hunique
    exact List.disjoint_of_nodup_append hunique hold
      (List.mem_map.mpr ⟨t, ht, rfl⟩)

/-!
## Restore
-/

theorem le_foldl_floor
    (generations : List Nat) (floor : Nat) :
    floor ≤ generations.foldl
      (fun floor generation => max floor (generation + 1)) floor := by
  induction generations generalizing floor with
  | nil =>
      exact Nat.le_refl _
  | cons generation rest ih =>
      rw [List.foldl_cons]
      exact Nat.le_trans (Nat.le_max_left _ _) (ih _)

theorem lt_foldl_floor
    {generations : List Nat} {generation : Nat} (floor : Nat)
    (h : generation ∈ generations) :
    generation < generations.foldl
      (fun floor generation => max floor (generation + 1)) floor := by
  induction generations generalizing floor with
  | nil =>
      cases h
  | cons other rest ih =>
      rw [List.foldl_cons]
      rcases List.mem_cons.mp h with rfl | h
      · exact Nat.lt_of_lt_of_le (Nat.lt_of_succ_le (Nat.le_max_right _ _))
          (le_foldl_floor rest _)
      · exact ih _ h

theorem lt_generationFloor
    {current snapshot : ThreadPlan} {s : ThreadSlice}
    (h : s ∈ current.slices) :
    s.requireGeneration < generationFloor current snapshot := by
  unfold generationFloor
  cases hgeneration : s.generation with
  | none =>
      have hzero : s.requireGeneration = 0 := by
        simp [PlanSlice.requireGeneration, hgeneration]
      rw [hzero]
      exact Nat.lt_of_lt_of_le (Nat.succ_pos _) (le_foldl_floor _ _)
  | some generation =>
      have hvalue : s.requireGeneration = generation := by
        simp [PlanSlice.requireGeneration, hgeneration]
      rw [hvalue]
      apply lt_foldl_floor
      exact List.mem_filterMap.mpr
        ⟨s, List.mem_append_left _ h, hgeneration⟩

/-- What a restore writes, on slices as the snapshot has them. -/
theorem restorePlan_spec
    {current snapshot base : ThreadPlan}
    (h : restorePlan current snapshot = Except.ok base) :
    base.rev = current.rev ∧ base.plan_id = current.plan_id ∧
      base.slices = snapshot.slices.map fun slice =>
        { slice with
          generation := some (generationFloor current snapshot)
          claim := none } := by
  rcases except_bind_ok h with ⟨_, _, h⟩
  rcases except_bind_ok h with ⟨_, _, h⟩
  cases h
  exact ⟨rfl, rfl, rfl⟩

end Thread
end Minni
