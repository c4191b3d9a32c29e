import Minni.Thread.Replan

/-!
# The event of a replan

The journal tells a replan as a difference of two plans: the slices that were
added, those that were dropped, and the dependencies that were rewritten.  This
module replays the event on the old plan and compares the graph that results
with the graph of the new plan.
-/

namespace Minni
namespace Thread

open Foundation

/-!
## The replay

What the event means to someone who only has the old plan.
-/

def replayDrop (payload : ReplanPayload) (slice : ThreadSlice) : ThreadSlice :=
  if slice.id ∈ payload.drop_slice_ids.getD [] then
    { slice with
      status := PlanSliceStatus.superseded
      replaced_by := some ((payload.add_slices.getD []).filterMap (·.id)) }
  else
    slice

def replayAdd (input : SliceInput) : ThreadSlice :=
  initialSlice (input.id.getD "") input

def replayDependsOn (payload : ReplanPayload) (slice : ThreadSlice) :
    ThreadSlice :=
  match (payload.depends_on_changed.getD []).find? (·.slice_id = slice.id) with
  | none => slice
  | some change => { slice with depends_on := some change.to_ }

def replay (before : ThreadPlan) (payload : ReplanPayload) : ThreadPlan :=
  { before with
    slices := (before.slices.map (replayDrop payload) ++
      (payload.add_slices.getD []).map replayAdd).map
        (replayDependsOn payload) }

def liveIds (plan : ThreadPlan) : List String :=
  (plan.slices.filter fun slice =>
    decide (slice.status ≠ PlanSliceStatus.superseded)).map (·.id)

def dependsOn (plan : ThreadPlan) (id : String) : List String :=
  ((plan.slices.find? (·.id = id)).bind (·.depends_on)).getD []

/-- The plans have the same live slices, with the same dependencies, and what is
unmet in one is unmet in the other. -/
structure SameGraph (plan other : ThreadPlan) : Prop where
  live : forall id, id ∈ liveIds plan <-> id ∈ liveIds other
  depends_on : forall id, id ∈ liveIds other -> forall dep,
    dep ∈ dependsOn plan id <-> dep ∈ dependsOn other id
  unmet : forall id, id ∈ liveIds other -> forall dep,
    dep ∈ unmetDependencies plan id <-> dep ∈ unmetDependencies other id

/-- The event says what happened to the graph. -/
def FaithfulEvent (before after : ThreadPlan) : Prop :=
  SameGraph (replay before (replanPayload before after)) after

/-!
## Slices by their identifiers
-/

theorem find_id_of_mem
    {slices : List ThreadSlice} {t : ThreadSlice}
    (hunique : (slices.map (·.id)).Nodup) (ht : t ∈ slices) :
    slices.find? (·.id = t.id) = some t := by
  induction slices with
  | nil => cases ht
  | cons s rest ih =>
      rw [List.map_cons, List.nodup_cons] at hunique
      rcases List.mem_cons.mp ht with rfl | hrest
      · simp
      · have hother : s.id ≠ t.id := by
          intro hsame
          rw [hsame] at hunique
          exact hunique.left (List.mem_map.mpr ⟨t, hrest, rfl⟩)
        rw [List.find?_cons_of_neg (by simpa using hother)]
        exact ih hunique.right hrest

theorem find_id_of_not_mem
    {slices : List ThreadSlice} {id : String}
    (h : id ∉ slices.map (·.id)) :
    slices.find? (·.id = id) = none := by
  apply List.find?_eq_none.mpr
  intro t ht hsame
  exact h (List.mem_map.mpr ⟨t, ht, of_decide_eq_true hsame⟩)

/-- Whether a dependency on this slice is unmet. -/
def blocksDependents (slice : ThreadSlice) : Bool :=
  match slice.status with
  | PlanSliceStatus.done => false
  | PlanSliceStatus.superseded => hasReplacement slice
  | _ => true

def blocksIn (slices : List ThreadSlice) (id : String) : Bool :=
  match slices.find? (·.id = id) with
  | none => true
  | some slice => blocksDependents slice

theorem unmetDependencies_eq (plan : ThreadPlan) (id : String) :
    unmetDependencies plan id =
      (dependsOn plan id).filter (blocksIn plan.slices) := by
  unfold unmetDependencies dependsOn
  apply List.filter_congr
  intro dep _
  unfold blocksIn
  cases plan.slices.find? (·.id = dep) with
  | none => rfl
  | some slice => rfl

theorem dependsOn_of_mem
    {plan : ThreadPlan} {t : ThreadSlice}
    (hunique : (plan.slices.map (·.id)).Nodup) (ht : t ∈ plan.slices) :
    dependsOn plan t.id = t.depends_on.getD [] := by
  unfold dependsOn
  rw [find_id_of_mem hunique ht]
  rfl

theorem blocksIn_of_mem
    {slices : List ThreadSlice} {t : ThreadSlice}
    (hunique : (slices.map (·.id)).Nodup) (ht : t ∈ slices) :
    blocksIn slices t.id = blocksDependents t := by
  unfold blocksIn
  rw [find_id_of_mem hunique ht]

theorem mem_liveIds
    {plan : ThreadPlan} {id : String} :
    id ∈ liveIds plan <->
      exists t, t ∈ plan.slices ∧
        t.status ≠ PlanSliceStatus.superseded ∧ t.id = id := by
  unfold liveIds
  simp [and_assoc]

/-!
## Slices that mirror each other
-/

/-- The slices look the same to the graph, but for a recorded replacement. -/
structure Mirrors (s t : ThreadSlice) : Prop where
  id : s.id = t.id
  status : s.status = t.status
  depends_on : forall dep,
    dep ∈ s.depends_on.getD [] <-> dep ∈ t.depends_on.getD []

theorem mem_of_sortStrings
    {xs ys : List String} (h : Text.sortStrings xs = Text.sortStrings ys)
    (x : String) : x ∈ xs <-> x ∈ ys := by
  have hxs : x ∈ Text.sortStrings xs <-> x ∈ xs :=
    (List.perm_insertionSort _ _).mem_iff
  have hys : x ∈ Text.sortStrings ys <-> x ∈ ys :=
    (List.perm_insertionSort _ _).mem_iff
  rw [<- hxs, <- hys, h]

theorem mem_of_sameStringSet
    {xs ys : Option (List String)} (h : sameStringSet xs ys = true)
    (x : String) : x ∈ xs.getD [] <-> x ∈ ys.getD [] :=
  mem_of_sortStrings (of_decide_eq_true h) x

theorem mirrors_ids
    {xs ys : List ThreadSlice} (h : List.Forall₂ Mirrors xs ys) :
    xs.map (·.id) = ys.map (·.id) := by
  induction h with
  | nil => rfl
  | cons hone _ ih => rw [List.map_cons, List.map_cons, hone.id, ih]

theorem mirror_of_mem
    {xs ys : List ThreadSlice} (h : List.Forall₂ Mirrors xs ys)
    {t : ThreadSlice} (ht : t ∈ ys) :
    exists s, s ∈ xs ∧ Mirrors s t := by
  induction h with
  | nil => cases ht
  | cons hone _ ih =>
      rcases List.mem_cons.mp ht with rfl | hrest
      · exact ⟨_, List.mem_cons_self .., hone⟩
      · rcases ih hrest with ⟨s, hs, hmirrors⟩
        exact ⟨s, List.mem_cons_of_mem _ hs, hmirrors⟩

theorem mem_of_mirror
    {xs ys : List ThreadSlice} (h : List.Forall₂ Mirrors xs ys)
    {s : ThreadSlice} (hs : s ∈ xs) :
    exists t, t ∈ ys ∧ Mirrors s t := by
  induction h with
  | nil => cases hs
  | cons hone _ ih =>
      rcases List.mem_cons.mp hs with rfl | hrest
      · exact ⟨_, List.mem_cons_self .., hone⟩
      · rcases ih hrest with ⟨t, ht, hmirrors⟩
        exact ⟨t, List.mem_cons_of_mem _ ht, hmirrors⟩

/-- Two plans that mirror each other have the same graph exactly when they
agree on what a live slice still waits for. -/
theorem sameGraph_iff
    {plan other : ThreadPlan}
    (hmirrors : List.Forall₂ Mirrors plan.slices other.slices)
    (hunique : (other.slices.map (·.id)).Nodup) :
    SameGraph plan other <->
      forall t, t ∈ other.slices ->
        t.status ≠ PlanSliceStatus.superseded ->
        forall dep, dep ∈ t.depends_on.getD [] ->
          blocksIn plan.slices dep = blocksIn other.slices dep := by
  have hids := mirrors_ids hmirrors
  have hunique' : (plan.slices.map (·.id)).Nodup := by
    rw [hids]
    exact hunique
  have hdepends : forall t, t ∈ other.slices -> forall dep,
      dep ∈ dependsOn plan t.id <-> dep ∈ t.depends_on.getD [] := by
    intro t ht dep
    rcases mirror_of_mem hmirrors ht with ⟨s, hs, hmirror⟩
    rw [<- hmirror.id, dependsOn_of_mem hunique' hs]
    exact hmirror.depends_on dep
  have hunmet : forall (t : ThreadSlice), t ∈ other.slices -> forall dep,
      (dep ∈ unmetDependencies plan t.id <->
        dep ∈ unmetDependencies other t.id) <->
      (dep ∈ t.depends_on.getD [] ->
        blocksIn plan.slices dep = blocksIn other.slices dep) := by
    intro t ht dep
    rw [unmetDependencies_eq, unmetDependencies_eq, List.mem_filter,
      List.mem_filter, hdepends t ht dep, dependsOn_of_mem hunique ht]
    cases blocksIn plan.slices dep <;> cases blocksIn other.slices dep <;> simp
  constructor
  · intro hsame t ht hlive dep
    apply (hunmet t ht dep).mp
    exact hsame.unmet t.id (mem_liveIds.mpr ⟨t, ht, hlive, rfl⟩) dep
  · intro hblocks
    constructor
    · intro id
      rw [mem_liveIds, mem_liveIds]
      constructor
      · intro hlive
        rcases hlive with ⟨s, hs, hstatus, hid⟩
        rcases mem_of_mirror hmirrors hs with ⟨t, ht, hmirror⟩
        refine ⟨t, ht, ?_, hmirror.id.symm.trans hid⟩
        rw [<- hmirror.status]
        exact hstatus
      · intro hlive
        rcases hlive with ⟨t, ht, hstatus, hid⟩
        rcases mirror_of_mem hmirrors ht with ⟨s, hs, hmirror⟩
        refine ⟨s, hs, ?_, hmirror.id.trans hid⟩
        rw [hmirror.status]
        exact hstatus
    · intro id hlive dep
      rcases mem_liveIds.mp hlive with ⟨t, ht, _, rfl⟩
      rw [hdepends t ht dep, dependsOn_of_mem hunique ht]
    · intro id hlive dep
      rcases mem_liveIds.mp hlive with ⟨t, ht, hstatus, rfl⟩
      exact (hunmet t ht dep).mpr (hblocks t ht hstatus dep)

/-!
## What a call lands

Both forms of a replan edit the old slices one by one and append new ones.
`drops` is what the call supersedes, `written` is whose dependencies it
rewrites.
-/

structure Landing (plan next : ThreadPlan) (drops : ThreadSlice -> Bool)
    (written : ThreadSlice -> Prop) (edited : ThreadSlice -> ThreadSlice)
    (added : List ThreadSlice) : Prop where
  slices : next.slices = plan.slices.map edited ++ added
  unique : (plan.slices.map (·.id)).Nodup
  nextUnique : (next.slices.map (·.id)).Nodup
  id : forall s, (edited s).id = s.id
  status : forall s, (edited s).status =
    if drops s then PlanSliceStatus.superseded else s.status
  opened : forall s, drops s = true ->
    s.status ≠ PlanSliceStatus.superseded
  pending : forall t, t ∈ added -> t.status = PlanSliceStatus.pending
  kept : forall s, s ∈ plan.slices -> drops s = false -> ¬ written s ->
    (edited s).depends_on = s.depends_on
  replaced : forall s, s ∈ plan.slices -> drops s = true -> added ≠ [] ->
    hasReplacement (edited s) = true
  targets : forall t, t ∈ next.slices ->
    t.status ≠ PlanSliceStatus.superseded ->
    (t ∈ added ∨ exists s, s ∈ plan.slices ∧ t = edited s ∧ written s) ->
    forall s, s ∈ plan.slices -> s.id ∈ t.depends_on.getD [] ->
      (edited s).status = PlanSliceStatus.superseded ->
      drops s = true ∧ hasReplacement (edited s) = false

/-- The event does not tell of the replacement that the slice carries. -/
def Stale (drops : ThreadSlice -> Bool) (edited : ThreadSlice -> ThreadSlice)
    (added : List ThreadSlice) (s : ThreadSlice) : Prop :=
  drops s = true ∧ added = [] ∧ hasReplacement (edited s) = true ∨
    drops s = false ∧ s.status = PlanSliceStatus.superseded ∧
      hasReplacement (edited s) ≠ hasReplacement s

section Landed

variable {plan next : ThreadPlan} {drops : ThreadSlice -> Bool}
  {written : ThreadSlice -> Prop} {edited : ThreadSlice -> ThreadSlice}
  {added : List ThreadSlice}

theorem Landing.fresh
    (h : Landing plan next drops written edited added)
    {t : ThreadSlice} (ht : t ∈ added) :
    t.id ∉ plan.slices.map (·.id) := by
  have hunique := h.nextUnique
  rw [h.slices, List.map_append] at hunique
  have hids : (plan.slices.map edited).map (·.id) =
      plan.slices.map (·.id) := by
    rw [List.map_map]
    apply List.map_congr_left
    intro s _
    exact h.id s
  rw [hids] at hunique
  intro hold
  exact List.disjoint_of_nodup_append hunique hold
    (List.mem_map.mpr ⟨t, ht, rfl⟩)

theorem Landing.eq_of_id
    (h : Landing plan next drops written edited added)
    {s t : ThreadSlice} (hs : s ∈ plan.slices) (ht : t ∈ plan.slices)
    (hid : s.id = t.id) : s = t := by
  have hfound := find_id_of_mem h.unique hs
  rw [hid, find_id_of_mem h.unique ht] at hfound
  exact (Option.some.inj hfound).symm

theorem getD_nonempty {α : Type} (xs : List α) :
    (nonempty xs).getD [] = xs := by
  unfold nonempty
  split
  · rename_i hempty
    rw [List.isEmpty_iff.mp hempty]
    rfl
  · rfl

theorem Landing.add_slices
    (h : Landing plan next drops written edited added) :
    (replanPayload plan next).add_slices.getD [] = added.map landedSlice := by
  show (nonempty _).getD [] = _
  rw [getD_nonempty, h.slices, List.filter_append]
  have hold : (plan.slices.map edited).filter (fun slice =>
      decide (slice.id ∉ plan.slices.map (·.id))) = [] := by
    apply List.filter_eq_nil_iff.mpr
    intro t ht
    rcases List.mem_map.mp ht with ⟨s, hs, rfl⟩
    have hmem : (edited s).id ∈ plan.slices.map (·.id) := by
      rw [h.id]
      exact List.mem_map.mpr ⟨s, hs, rfl⟩
    simpa using hmem
  have hnew : added.filter (fun slice =>
      decide (slice.id ∉ plan.slices.map (·.id))) = added := by
    apply List.filter_eq_self.mpr
    intro t ht
    exact decide_eq_true (h.fresh ht)
  rw [hold, hnew, List.nil_append]

theorem Landing.mem_drop_slice_ids
    (h : Landing plan next drops written edited added)
    {s : ThreadSlice} (hs : s ∈ plan.slices) :
    s.id ∈ (replanPayload plan next).drop_slice_ids.getD [] <->
      drops s = true := by
  have hmem : s.id ∈ (replanPayload plan next).drop_slice_ids.getD [] <->
      s.id ∈ newlySuperseded plan next := by
    show s.id ∈ (nonempty _).getD [] <-> _
    rw [getD_nonempty]
    exact (List.perm_insertionSort _ _).mem_iff
  rw [hmem]
  unfold newlySuperseded
  rw [List.mem_filter, List.mem_map]
  have hlive : wasLive plan s.id = true <->
      s.status ≠ PlanSliceStatus.superseded := by
    unfold wasLive
    rw [find_id_of_mem h.unique hs]
    exact decide_eq_true_iff
  rw [hlive]
  constructor
  · intro hnew
    rcases hnew with ⟨⟨t, ht, hid⟩, hopen⟩
    rcases List.mem_filter.mp ht with ⟨htmem, hclosed⟩
    have hclosed' := of_decide_eq_true hclosed
    have hmine : edited s ∈ next.slices := by
      rw [h.slices]
      exact List.mem_append_left _ (List.mem_map.mpr ⟨s, hs, rfl⟩)
    have hsame : t = edited s := by
      have hfound := find_id_of_mem h.nextUnique htmem
      rw [hid, <- h.id s, find_id_of_mem h.nextUnique hmine] at hfound
      exact (Option.some.inj hfound).symm
    rw [hsame, h.status] at hclosed'
    cases hdrops : drops s with
    | true => rfl
    | false =>
        rw [hdrops] at hclosed'
        exact absurd hclosed' hopen
  · intro hdrops
    refine ⟨⟨edited s, ?_, h.id s⟩, h.opened s hdrops⟩
    apply List.mem_filter.mpr
    constructor
    · rw [h.slices]
      exact List.mem_append_left _ (List.mem_map.mpr ⟨s, hs, rfl⟩)
    · rw [h.status, if_pos hdrops]
      rfl

theorem mem_diffDependsOn
    {change : DependsOnChange} (h : change ∈ diffDependsOn plan next) :
    exists t s, t ∈ next.slices ∧ s ∈ plan.slices ∧ s.id = t.id ∧
      change.slice_id = t.id ∧ change.to_ = t.depends_on.getD [] := by
  rcases List.mem_filterMap.mp h with ⟨t, ht, hchange⟩
  cases hfound : plan.slices.find? (·.id = t.id) with
  | none =>
      rw [hfound] at hchange
      cases hchange
  | some s =>
      rw [hfound] at hchange
      dsimp only at hchange
      have hpred := List.find?_some hfound
      have hid : s.id = t.id := of_decide_eq_true hpred
      split at hchange
      · cases hchange
      · cases hchange
        exact ⟨t, s, ht, List.mem_of_find?_eq_some hfound, hid, rfl, rfl⟩

/-- A slice that the event does not mention among the changes has kept its
dependencies. -/
theorem Landing.unchanged
    (h : Landing plan next drops written edited added)
    {s t : ThreadSlice} (hs : s ∈ plan.slices) (ht : t ∈ next.slices)
    (hid : s.id = t.id)
    (hnone : (diffDependsOn plan next).find? (·.slice_id = t.id) = none) :
    sameStringSet s.depends_on t.depends_on = true := by
  cases hsame : sameStringSet s.depends_on t.depends_on with
  | true => rfl
  | false =>
      have hchange : DependsOnChange.mk t.id (s.depends_on.getD [])
          (t.depends_on.getD []) ∈ diffDependsOn plan next := by
        apply List.mem_filterMap.mpr
        refine ⟨t, ht, ?_⟩
        rw [<- hid, find_id_of_mem h.unique hs]
        dsimp only
        rw [hsame, hid]
        rfl
      have hnot := List.find?_eq_none.mp hnone _ hchange
      exact absurd (decide_eq_true rfl) hnot

theorem Landing.replayed_depends_on
    (h : Landing plan next drops written edited added)
    {x t : ThreadSlice} (ht : t ∈ next.slices) (hid : x.id = t.id)
    (hold : forall s, s ∈ plan.slices -> s.id = t.id ->
      x.depends_on = s.depends_on)
    (hnew : t.id ∉ plan.slices.map (·.id) -> x.depends_on = t.depends_on)
    (dep : String) :
    dep ∈ (replayDependsOn (replanPayload plan next) x).depends_on.getD [] <->
      dep ∈ t.depends_on.getD [] := by
  have hchanges : (replanPayload plan next).depends_on_changed.getD [] =
      diffDependsOn plan next := getD_nonempty _
  unfold replayDependsOn
  rw [hchanges, hid]
  cases hfound : (diffDependsOn plan next).find? (·.slice_id = t.id) with
  | none =>
      dsimp only
      by_cases hmem : t.id ∈ plan.slices.map (·.id)
      · rcases List.mem_map.mp hmem with ⟨s, hs, hsid⟩
        rw [hold s hs hsid]
        exact mem_of_sameStringSet (h.unchanged hs ht hsid hfound) dep
      · rw [hnew hmem]
  | some change =>
      dsimp only
      rcases mem_diffDependsOn (List.mem_of_find?_eq_some hfound) with
        ⟨u, s, hu, _, _, hslice, hto⟩
      have hpred := List.find?_some hfound
      have hchange : change.slice_id = t.id := of_decide_eq_true hpred
      have hsame : u = t := by
        have hfoundU := find_id_of_mem h.nextUnique hu
        rw [<- hslice, hchange, find_id_of_mem h.nextUnique ht] at hfoundU
        exact (Option.some.inj hfoundU).symm
      rw [hto, hsame]
      rfl

theorem replayDependsOn_frame (payload : ReplanPayload) (s : ThreadSlice) :
    (replayDependsOn payload s).id = s.id ∧
      (replayDependsOn payload s).status = s.status ∧
      (replayDependsOn payload s).replaced_by = s.replaced_by := by
  unfold replayDependsOn
  split
  · exact ⟨rfl, rfl, rfl⟩
  · exact ⟨rfl, rfl, rfl⟩

theorem Landing.replayDrop_cases
    (h : Landing plan next drops written edited added)
    {s : ThreadSlice} (hs : s ∈ plan.slices) :
    (drops s = true ∧ (replayDrop (replanPayload plan next) s).replaced_by =
        some (added.map (·.id)) ∧
      (replayDrop (replanPayload plan next) s).status =
        PlanSliceStatus.superseded ∨
      drops s = false ∧ replayDrop (replanPayload plan next) s = s) ∧
    (replayDrop (replanPayload plan next) s).id = s.id ∧
    (replayDrop (replanPayload plan next) s).depends_on = s.depends_on := by
  have hadds : (((replanPayload plan next).add_slices.getD []).filterMap
      (·.id)) = added.map (·.id) := by
    rw [h.add_slices, List.filterMap_map]
    exact congrFun List.filterMap_eq_map' added
  unfold replayDrop
  by_cases hdrop : s.id ∈ (replanPayload plan next).drop_slice_ids.getD []
  · rw [if_pos hdrop, hadds]
    have hdrops := (h.mem_drop_slice_ids hs).mp hdrop
    exact ⟨Or.inl ⟨hdrops, rfl, rfl⟩, rfl, rfl⟩
  · rw [if_neg hdrop]
    have hdrops : drops s = false := by
      cases hcase : drops s with
      | false => rfl
      | true => exact absurd ((h.mem_drop_slice_ids hs).mpr hcase) hdrop
    exact ⟨Or.inr ⟨hdrops, rfl⟩, rfl, rfl⟩

/-- The replayed plan mirrors the new one. -/
theorem Landing.mirrors
    (h : Landing plan next drops written edited added) :
    List.Forall₂ Mirrors
      (replay plan (replanPayload plan next)).slices next.slices := by
  show List.Forall₂ Mirrors (List.map _ (_ ++ _)) _
  rw [h.add_slices, List.map_append, h.slices, List.map_map, List.map_map,
    List.map_map]
  apply List.rel_append
  · rw [List.forall₂_map_left_iff, List.forall₂_map_right_iff,
      List.forall₂_same]
    intro s hs
    rcases h.replayDrop_cases hs with ⟨hcases, hid, hdepends⟩
    have hframe := replayDependsOn_frame (replanPayload plan next)
      (replayDrop (replanPayload plan next) s)
    have hmem : edited s ∈ next.slices := by
      rw [h.slices]
      exact List.mem_append_left _ (List.mem_map.mpr ⟨s, hs, rfl⟩)
    constructor
    · rw [Function.comp_apply, hframe.left, hid, h.id]
    · rw [Function.comp_apply, hframe.right.left, h.status]
      rcases hcases with ⟨hdrops, _, hstatus⟩ | ⟨hdrops, hsame⟩
      · rw [hstatus, if_pos hdrops]
      · rw [hsame, hdrops]
        rfl
    · intro dep
      apply h.replayed_depends_on hmem
      · rw [hid, h.id]
      · intro other hother hotherId
        rw [h.id] at hotherId
        rw [h.eq_of_id hother hs hotherId]
        exact hdepends
      · intro hnot
        rw [h.id] at hnot
        exact absurd (List.mem_map.mpr ⟨s, hs, rfl⟩) hnot
  · rw [List.forall₂_map_left_iff, List.forall₂_same]
    intro t ht
    have hfresh := h.fresh ht
    have hmem : t ∈ next.slices := by
      rw [h.slices]
      exact List.mem_append_right _ ht
    have hframe := replayDependsOn_frame (replanPayload plan next)
      (replayAdd (landedSlice t))
    constructor
    · exact hframe.left
    · refine hframe.right.left.trans ?_
      rw [h.pending t ht]
      rfl
    · have hid : (replayAdd (landedSlice t)).id = t.id := rfl
      apply h.replayed_depends_on hmem hid
      · intro s hs hid
        rw [<- hid] at hfresh
        exact absurd (List.mem_map.mpr ⟨s, hs, rfl⟩) hfresh
      · intro _
        rfl

theorem hasReplacement_of_eq
    {s t : ThreadSlice} (h : s.replaced_by = t.replaced_by) :
    hasReplacement s = hasReplacement t := by
  unfold hasReplacement
  rw [h]

theorem blocksDependents_superseded
    {s : ThreadSlice} (h : s.status = PlanSliceStatus.superseded) :
    blocksDependents s = hasReplacement s := by
  unfold blocksDependents
  rw [h]

theorem blocksDependents_of_eq
    {s t : ThreadSlice} (hstatus : s.status = t.status)
    (hreplaced : s.status = PlanSliceStatus.superseded ->
      hasReplacement s = hasReplacement t) :
    blocksDependents s = blocksDependents t := by
  unfold blocksDependents
  rw [<- hstatus]
  cases hs : s.status with
  | superseded => exact hreplaced hs
  | pending => rfl
  | in_progress => rfl
  | done => rfl
  | blocked => rfl

/-- The replay and the new plan agree on an old slice unless it is stale. -/
theorem Landing.blocks_iff
    (h : Landing plan next drops written edited added)
    {s : ThreadSlice} (hs : s ∈ plan.slices) :
    blocksIn (replay plan (replanPayload plan next)).slices s.id =
        blocksIn next.slices s.id <->
      ¬ Stale drops edited added s := by
  have hmirrors := h.mirrors
  have hunique : ((replay plan (replanPayload plan next)).slices.map
      (·.id)).Nodup := by
    rw [mirrors_ids hmirrors]
    exact h.nextUnique
  have hframe := replayDependsOn_frame (replanPayload plan next)
    (replayDrop (replanPayload plan next) s)
  rcases h.replayDrop_cases hs with ⟨hcases, hid, _⟩
  have hreplayed : replayDependsOn (replanPayload plan next)
      (replayDrop (replanPayload plan next) s) ∈
        (replay plan (replanPayload plan next)).slices := by
    apply List.mem_map.mpr
    exact ⟨_, List.mem_append_left _ (List.mem_map.mpr ⟨s, hs, rfl⟩), rfl⟩
  have hmem : edited s ∈ next.slices := by
    rw [h.slices]
    exact List.mem_append_left _ (List.mem_map.mpr ⟨s, hs, rfl⟩)
  have hleft := blocksIn_of_mem hunique hreplayed
  have hright := blocksIn_of_mem h.nextUnique hmem
  rw [hframe.left, hid] at hleft
  rw [h.id] at hright
  rw [hleft, hright]
  generalize hr : replayDependsOn (replanPayload plan next)
    (replayDrop (replanPayload plan next) s) = r at hframe
  have hreplaced := hasReplacement_of_eq hframe.right.right
  rcases hcases with ⟨hdrops, hby, hstatus⟩ | ⟨hkept, hsame⟩
  · -- Superseded by this call: the replay records whether slices were added.
    have hclosed : (edited s).status = PlanSliceStatus.superseded := by
      rw [h.status, if_pos hdrops]
    have hrclosed : r.status = PlanSliceStatus.superseded :=
      hframe.right.left.trans hstatus
    rw [blocksDependents_superseded hclosed,
      blocksDependents_superseded hrclosed, hreplaced]
    have hadded : hasReplacement (replayDrop (replanPayload plan next) s) =
        !added.isEmpty := by
      unfold hasReplacement
      rw [hby]
      cases added with
      | nil => rfl
      | cons t rest => rfl
    rw [hadded]
    unfold Stale
    cases hempty : added with
    | nil => simp [hdrops]
    | cons t rest =>
        have hnonempty : added ≠ [] := by
          rw [hempty]
          exact List.cons_ne_nil t rest
        simp [h.replaced s hs hdrops hnonempty, hdrops]
  · have hstatus : r.status = (edited s).status := by
      rw [hframe.right.left, hsame, h.status, hkept]
      rfl
    rw [hsame] at hreplaced hframe
    by_cases hclosed : s.status = PlanSliceStatus.superseded
    · have hrclosed : r.status = PlanSliceStatus.superseded :=
        hframe.right.left.trans hclosed
      have heclosed : (edited s).status = PlanSliceStatus.superseded := by
        rw [<- hstatus]
        exact hrclosed
      rw [blocksDependents_superseded hrclosed,
        blocksDependents_superseded heclosed, hreplaced]
      constructor
      · intro hequal hstale
        rcases hstale with ⟨hdrops, _⟩ | ⟨_, _, hdiffers⟩
        · rw [hkept] at hdrops
          cases hdrops
        · exact hdiffers hequal.symm
      · intro hnot
        by_contra hdiffers
        apply hnot
        exact Or.inr ⟨hkept, hclosed, fun hequal => hdiffers hequal.symm⟩
    · have hequal : blocksDependents r = blocksDependents (edited s) := by
        apply blocksDependents_of_eq hstatus
        intro hrclosed
        rw [hframe.right.left] at hrclosed
        exact absurd hrclosed hclosed
      have hnot : ¬ Stale drops edited added s := by
        intro hstale
        rcases hstale with ⟨hdrops, _⟩ | ⟨_, hs', _⟩
        · rw [hkept] at hdrops
          cases hdrops
        · exact hclosed hs'
      exact iff_of_true hequal hnot

theorem Landing.blocks_new
    (h : Landing plan next drops written edited added) {dep : String}
    (hdep : dep ∉ plan.slices.map (·.id)) :
    blocksIn (replay plan (replanPayload plan next)).slices dep =
      blocksIn next.slices dep := by
  have hids := mirrors_ids h.mirrors
  have hunique : ((replay plan (replanPayload plan next)).slices.map
      (·.id)).Nodup := by
    rw [hids]
    exact h.nextUnique
  by_cases hmem : dep ∈ next.slices.map (·.id)
  · rcases List.mem_map.mp hmem with ⟨t, ht, rfl⟩
    have hadded : t ∈ added := by
      rw [h.slices] at ht
      rcases List.mem_append.mp ht with hold | hnew
      · rcases List.mem_map.mp hold with ⟨s, hs, rfl⟩
        rw [h.id] at hdep
        exact absurd (List.mem_map.mpr ⟨s, hs, rfl⟩) hdep
      · exact hnew
    rcases mirror_of_mem h.mirrors ht with ⟨s, hs, hmirror⟩
    have hpending := h.pending t hadded
    rw [blocksIn_of_mem h.nextUnique ht]
    rw [<- hmirror.id, blocksIn_of_mem hunique hs]
    apply blocksDependents_of_eq hmirror.status
    intro hclosed
    rw [hmirror.status, hpending] at hclosed
    cases hclosed
  · have hmem' : dep ∉ (replay plan (replanPayload plan next)).slices.map
        (·.id) := by
      rw [hids]
      exact hmem
    unfold blocksIn
    rw [find_id_of_not_mem hmem, find_id_of_not_mem hmem']

/-- A slice that stays as it is and waits for `id`. -/
structure StillWaits (drops : ThreadSlice -> Bool)
    (written : ThreadSlice -> Prop) (t : ThreadSlice) (id : String) :
    Prop where
  live : t.status ≠ PlanSliceStatus.superseded
  kept : drops t = false
  unwritten : ¬ written t
  waits : id ∈ t.depends_on.getD []

theorem Landing.faithful_iff
    (h : Landing plan next drops written edited added) :
    FaithfulEvent plan next <->
      forall s, s ∈ plan.slices -> Stale drops edited added s ->
        forall t, t ∈ plan.slices -> ¬ StillWaits drops written t s.id := by
  refine (sameGraph_iff h.mirrors h.nextUnique).trans ?_
  constructor
  · intro hagree s hs hstale t ht hwaits
    have hmem : edited t ∈ next.slices := by
      rw [h.slices]
      exact List.mem_append_left _ (List.mem_map.mpr ⟨t, ht, rfl⟩)
    have hlive : (edited t).status ≠ PlanSliceStatus.superseded := by
      rw [h.status, hwaits.kept]
      exact hwaits.live
    have hdep : s.id ∈ (edited t).depends_on.getD [] := by
      rw [h.kept t ht hwaits.kept hwaits.unwritten]
      exact hwaits.waits
    exact (h.blocks_iff hs).mp (hagree (edited t) hmem hlive s.id hdep) hstale
  · intro hclean t ht hlive dep hdep
    by_cases hold : dep ∈ plan.slices.map (·.id)
    · rcases List.mem_map.mp hold with ⟨s, hs, rfl⟩
      apply (h.blocks_iff hs).mpr
      intro hstale
      have hclosed : (edited s).status = PlanSliceStatus.superseded := by
        rw [h.status]
        rcases hstale with ⟨hdrops, _⟩ | ⟨hkept, hs', _⟩
        · rw [if_pos hdrops]
        · rw [hkept]
          exact hs'
      -- What the call writes does not wait for a stale slice.
      have hnotWritten : ¬ (t ∈ added ∨
          exists u, u ∈ plan.slices ∧ t = edited u ∧ written u) := by
        intro hwritten
        rcases h.targets t ht hlive hwritten s hs hdep hclosed with
          ⟨hdrops, hnone⟩
        rcases hstale with ⟨_, _, hsome⟩ | ⟨hkept, _⟩
        · rw [hnone] at hsome
          cases hsome
        · rw [hdrops] at hkept
          cases hkept
      have hmem := ht
      rw [h.slices] at hmem
      rcases List.mem_append.mp hmem with hkept | hadded
      · rcases List.mem_map.mp hkept with ⟨u, hu, rfl⟩
        have hunwritten : ¬ written u := by
          intro hwritten
          exact hnotWritten (Or.inr ⟨u, hu, rfl, hwritten⟩)
        have hdrops : drops u = false := by
          cases hcase : drops u with
          | false => rfl
          | true =>
              rw [h.status, if_pos hcase] at hlive
              exact absurd rfl hlive
        rw [h.status, hdrops] at hlive
        rw [h.kept u hu hdrops hunwritten] at hdep
        exact hclean s hs hstale u hu ⟨hlive, hdrops, hunwritten, hdep⟩
      · exact hnotWritten (Or.inl hadded)
    · exact h.blocks_new hold

end Landed

/-!
## Written dependencies
-/

theorem dependsOnTargetLive_of_written
    {context : String} {previous slices : List ThreadSlice}
    {writtenIds : List String} {t : ThreadSlice} {dep : String}
    (h : assertWrittenDependsOnTargetsLive context previous slices writtenIds =
      Except.ok ())
    (ht : t ∈ slices) (hwritten : t.id ∈ writtenIds)
    (hdep : dep ∈ t.depends_on.getD []) :
    dependsOnTargetLive previous slices dep = true := by
  unfold assertWrittenDependsOnTargetsLive at h
  dsimp only at h
  split at h
  · cases h
  · rename_i hnone
    have hmem : dep ∈ (slices.filter fun s => s.id ∈ writtenIds).flatMap
        fun s => s.depends_on.getD [] := by
      apply List.mem_flatMap.mpr
      exact ⟨t, List.mem_filter.mpr ⟨ht, decide_eq_true hwritten⟩, hdep⟩
    have hlive := List.find?_eq_none.mp hnone dep hmem
    simpa using hlive

/-- A superseded target of a written dependency has been dropped just now, and
plainly. -/
theorem dropped_of_dependsOnTargetLive
    {previous slices : List ThreadSlice} {s t : ThreadSlice}
    (hprevious : (previous.map (·.id)).Nodup)
    (hslices : (slices.map (·.id)).Nodup)
    (hs : s ∈ previous) (ht : t ∈ slices) (hid : t.id = s.id)
    (hclosed : t.status = PlanSliceStatus.superseded)
    (h : dependsOnTargetLive previous slices s.id = true) :
    s.status ≠ PlanSliceStatus.superseded ∧ hasReplacement t = false := by
  have hfound := find_id_of_mem hslices ht
  have hfound' := find_id_of_mem hprevious hs
  rw [hid] at hfound
  unfold dependsOnTargetLive at h
  rw [hfound] at h
  dsimp only at h
  rw [if_pos hclosed, hid, hfound'] at h
  dsimp only at h
  rw [Bool.and_eq_true, decide_eq_true_eq, Bool.not_eq_true'] at h
  exact h

theorem isSome_of_mem_depends_on
    {t : ThreadSlice} {dep : String} (h : dep ∈ t.depends_on.getD []) :
    t.depends_on.isSome = true := by
  cases hdepends : t.depends_on with
  | none =>
      rw [hdepends] at h
      cases h
  | some ids => rfl

theorem stampedSlice_frame
    (marker : String) (supersededIds addedIds : List String)
    (s : ThreadSlice) :
    (stampedSlice marker supersededIds addedIds s).id = s.id ∧
      (stampedSlice marker supersededIds addedIds s).status = s.status ∧
      (stampedSlice marker supersededIds addedIds s).depends_on =
        s.depends_on := by
  rcases stampedSlice_cases marker supersededIds addedIds s with
    hsame | ⟨_, hstamped⟩
  · rw [hsame]
    exact ⟨rfl, rfl, rfl⟩
  · rw [hstamped]
    exact ⟨rfl, rfl, rfl⟩

/-!
## Full-set replans
-/

/-- An entry gives the slice its dependencies. -/
def RewritesDependsOn (newSlices : List SliceInput) (s : ThreadSlice) : Prop :=
  exists ns, ns ∈ newSlices ∧ Text.truthy ns.id = some s.id ∧
    ns.depends_on.isSome = true

theorem replannedSlice_status
    (host : Host) (marker : String) (newSlices read : List SliceInput)
    (s : ThreadSlice) :
    (replannedSlice host marker newSlices read s).status =
      if replanDrops host newSlices s then PlanSliceStatus.superseded
      else s.status := by
  unfold replannedSlice
  split
  · rfl
  · split
    · rfl
    · exact (refreshedSlice_head _ s).left

theorem refreshedSlice_replaced_by (ns : SliceInput) (s : ThreadSlice) :
    (refreshedSlice ns s).replaced_by = s.replaced_by := by
  unfold refreshedSlice
  dsimp only
  generalize (if ns.title = "" then s.title else ns.title) = title
  split
  · rfl
  · rfl

theorem replannedSlice_replaced_by
    (host : Host) (marker : String) (newSlices read : List SliceInput)
    (s : ThreadSlice) :
    (replannedSlice host marker newSlices read s).replaced_by =
      s.replaced_by := by
  unfold replannedSlice
  split
  · rfl
  · split
    · rfl
    · exact refreshedSlice_replaced_by _ s

theorem replannedSlice_kept
    {host : Host} {marker : String} {newSlices : List SliceInput}
    {s : ThreadSlice} (hkept : replanDrops host newSlices s = false)
    (hunwritten : ¬ RewritesDependsOn newSlices s) :
    (replannedSlice host marker newSlices newSlices s).depends_on =
      s.depends_on := by
  unfold replannedSlice
  rw [hkept]
  cases hnamed : namedBy newSlices s.id with
  | none => rfl
  | some ns =>
      show (refreshedSlice ns s).depends_on = s.depends_on
      have hid := List.find?_some hnamed
      rw [refreshedSlice_depends_on]
      cases hdepends : ns.depends_on with
      | none => exact Option.none_or
      | some ids =>
          exfalso
          apply hunwritten
          refine ⟨ns, List.mem_of_find?_eq_some hnamed,
            of_decide_eq_true hid, ?_⟩
          rw [hdepends]
          rfl

theorem live_of_replanDrops
    {host : Host} {newSlices : List SliceInput} {s : ThreadSlice}
    (h : replanDrops host newSlices s = true) :
    s.status ≠ PlanSliceStatus.superseded := by
  intro hclosed
  unfold replanDrops at h
  rw [hclosed] at h
  simp [PlanSliceStatus.isResolved] at h

/-- The slices that a full-set replan adds. -/
theorem replan_landing
    {host : Host} {plan next : ThreadPlan} {newSlices : List SliceInput}
    {marker : String} {edit : TopologyEdit ThreadClaimRef}
    {added : List ThreadSlice}
    (hparts : ReplanParts host newSlices plan next marker edit)
    (hdone : Replanning host marker newSlices newSlices plan.slices edit
      added) :
    Landing plan next (replanDrops host newSlices)
      (RewritesDependsOn newSlices)
      (fun s => stampedSlice marker
        ((plan.slices.filter (replanDrops host newSlices)).map (·.id))
        edit.addedIds (replannedSlice host marker newSlices newSlices s))
      (added.map (stampedSlice marker
        ((plan.slices.filter (replanDrops host newSlices)).map (·.id))
        edit.addedIds)) := by
  have hnext := hparts.slices
  rw [stampReplacedBy_eq, hdone.slices, List.map_append, List.map_map] at hnext
  have hnextUnique : (next.slices.map (·.id)).Nodup := by
    rw [hparts.slices, map_id_stampReplacedBy]
    exact hdone.unique
  generalize hids : (plan.slices.filter (replanDrops host newSlices)).map
    (fun s : ThreadSlice => s.id) = supersededIds at *
  constructor
  · exact hnext
  · exact hparts.unique
  · exact hnextUnique
  · intro s
    rw [(stampedSlice_frame _ _ _ _).left, replannedSlice_id]
  · intro s
    rw [(stampedSlice_frame _ _ _ _).right.left, replannedSlice_status]
  · intro s hdrops
    exact live_of_replanDrops hdrops
  · intro t ht
    rcases List.mem_map.mp ht with ⟨u, hu, rfl⟩
    rw [(stampedSlice_frame _ _ _ _).right.left]
    exact (hdone.pending u hu).left
  · intro s _ hkept hunwritten
    rw [(stampedSlice_frame _ _ _ _).right.right]
    exact replannedSlice_kept hkept hunwritten
  · intro s hs hdrops hadded
    have hmem : s.id ∈ supersededIds := by
      rw [<- hids]
      exact List.mem_map.mpr ⟨s, List.mem_filter.mpr ⟨hs, hdrops⟩, rfl⟩
    have haddedIds : edit.addedIds.isEmpty = false := by
      rw [hdone.addedIds]
      cases hcase : added with
      | nil =>
          rw [hcase] at hadded
          exact absurd rfl hadded
      | cons t rest => rfl
    have hsupersededIds : supersededIds.isEmpty = false := by
      cases hcase : supersededIds with
      | nil =>
          rw [hcase] at hmem
          cases hmem
      | cons id rest => rfl
    have hform : replannedSlice host marker newSlices newSlices s =
        supersede marker s := by
      unfold replannedSlice
      rw [if_pos hdrops]
    rw [hform]
    unfold stampedSlice hasReplacement
    rw [hsupersededIds, haddedIds]
    have hstamps : (supersede marker s).id ∈ supersededIds ∧
        (supersede marker s).status = PlanSliceStatus.superseded ∧
        (supersede marker s).superseded_by = some marker := ⟨hmem, rfl, rfl⟩
    rw [if_neg (by simp), if_pos hstamps]
    simp [haddedIds]
  · intro t ht hlive hwritten s hs hdep hclosed
    have hmem : stampedSlice marker supersededIds edit.addedIds
        (replannedSlice host marker newSlices newSlices s) ∈ next.slices := by
      rw [hnext]
      exact List.mem_append_left _ (List.mem_map.mpr ⟨s, hs, rfl⟩)
    have hid : (stampedSlice marker supersededIds edit.addedIds
        (replannedSlice host marker newSlices newSlices s)).id = s.id := by
      rw [(stampedSlice_frame _ _ _ _).left, replannedSlice_id]
    have hin : t.id ∈ edit.writtenDependsOnIds := by
      rcases hwritten with hnew | ⟨u, hu, rfl, ns, hns, hnamed, hsome⟩
      · rcases List.mem_map.mp hnew with ⟨u, hu, rfl⟩
        rw [(stampedSlice_frame _ _ _ _).right.right] at hdep
        rw [(stampedSlice_frame _ _ _ _).left]
        exact hdone.writtenAdded u hu (isSome_of_mem_depends_on hdep)
      · rw [(stampedSlice_frame _ _ _ _).left, replannedSlice_id]
        exact hdone.writtenNamed ns u.id hns hnamed hsome
    have htarget := dependsOnTargetLive_of_written hparts.live ht hin hdep
    rcases dropped_of_dependsOnTargetLive hparts.unique hnextUnique hs hmem
      hid hclosed htarget with ⟨hwasLive, hplain⟩
    refine ⟨?_, hplain⟩
    rw [(stampedSlice_frame _ _ _ _).right.left, replannedSlice_status]
      at hclosed
    cases hdrops : replanDrops host newSlices s with
    | true => rfl
    | false =>
        rw [hdrops] at hclosed
        exact absurd hclosed hwasLive

/-- What the event of a full-set replan does not tell: nothing is added, and
the slice that is dropped still carries a replacement from before. -/
def StaleInReplan (host : Host) (plan : ThreadPlan)
    (newSlices : List SliceInput) (s : ThreadSlice) : Prop :=
  replanDrops host newSlices s = true ∧
    proposesNew host (liveAfterDrop (replanDrops host newSlices) plan.slices)
      newSlices = false ∧
    hasReplacement s = true

theorem added_nil_iff
    {host : Host} {plan : ThreadPlan} {newSlices : List SliceInput}
    {marker : String} {edit : TopologyEdit ThreadClaimRef}
    {added : List ThreadSlice}
    (hrun : newSlices.foldlM (replanEntry host)
      (replanStart host marker newSlices plan.slices) = Except.ok edit)
    (hslices : edit.slices =
      plan.slices.map (replannedSlice host marker newSlices newSlices) ++
        added) :
    added = [] <->
      proposesNew host
        (liveAfterDrop (replanDrops host newSlices) plan.slices)
        newSlices = false := by
  rcases replanFold_adds hrun with ⟨grows, ⟨more, hmore, _, hempty⟩, hgrows⟩
  have hstart : (replanStart host marker newSlices plan.slices).slices =
      plan.slices.map fun s =>
        if replanDrops host newSlices s then supersede marker s else s := rfl
  rw [hstart, liveHeads_dropped] at hgrows
  have hlength := congrArg List.length hmore
  rw [hslices, hstart] at hlength
  simp only [statuses, List.length_map, List.length_append] at hlength
  have hsame : added.length = more.length := by omega
  rw [<- List.isEmpty_iff, <- hgrows]
  have hisEmpty : added.isEmpty = more.isEmpty := by
    rw [Bool.eq_iff_iff, List.isEmpty_iff_length_eq_zero,
      List.isEmpty_iff_length_eq_zero, hsame]
  rw [hisEmpty, hempty]
  cases grows with
  | true => simp
  | false => simp

theorem replan_stale_iff
    {host : Host} {plan next : ThreadPlan} {newSlices : List SliceInput}
    {marker : String} {edit : TopologyEdit ThreadClaimRef}
    {added : List ThreadSlice}
    (hparts : ReplanParts host newSlices plan next marker edit)
    (hdone : Replanning host marker newSlices newSlices plan.slices edit
      added) {s : ThreadSlice} (hs : s ∈ plan.slices) :
    Stale (replanDrops host newSlices)
        (fun s => stampedSlice marker
          ((plan.slices.filter (replanDrops host newSlices)).map (·.id))
          edit.addedIds (replannedSlice host marker newSlices newSlices s))
        (added.map (stampedSlice marker
          ((plan.slices.filter (replanDrops host newSlices)).map (·.id))
          edit.addedIds)) s <->
      StaleInReplan host plan newSlices s := by
  have hnil := added_nil_iff hparts.run hdone.slices
  generalize hids : (plan.slices.filter (replanDrops host newSlices)).map
    (fun s : ThreadSlice => s.id) = supersededIds
  have hplain : hasReplacement
      (replannedSlice host marker newSlices newSlices s) = hasReplacement s :=
    hasReplacement_of_eq (replannedSlice_replaced_by _ _ _ _ _)
  have hnotStamped : added = [] ∨ replanDrops host newSlices s = false ->
      stampedSlice marker supersededIds edit.addedIds
          (replannedSlice host marker newSlices newSlices s) =
        replannedSlice host marker newSlices newSlices s := by
    intro hcase
    unfold stampedSlice
    rcases hcase with hempty | hkept
    · have haddedIds : edit.addedIds = [] := by
        rw [hdone.addedIds, hempty]
        rfl
      rw [haddedIds]
      simp
    · have hnot : s.id ∉ supersededIds := by
        rw [<- hids]
        intro hmem
        rcases List.mem_map.mp hmem with ⟨u, hu, hid⟩
        rcases List.mem_filter.mp hu with ⟨huMem, hudrops⟩
        have hfound := find_id_of_mem hparts.unique huMem
        rw [hid, find_id_of_mem hparts.unique hs] at hfound
        rw [<- Option.some.inj hfound, hkept] at hudrops
        cases hudrops
      rw [replannedSlice_id]
      simp [hnot]
  unfold Stale StaleInReplan
  dsimp only
  rw [List.map_eq_nil_iff, hnil]
  constructor
  · intro hstale
    rcases hstale with ⟨hdrops, hempty, hreplaced⟩ | ⟨hkept, _, hdiffers⟩
    · rw [hnotStamped (Or.inl (hnil.mpr hempty)), hplain] at hreplaced
      exact ⟨hdrops, hempty, hreplaced⟩
    · rw [hnotStamped (Or.inr hkept), hplain] at hdiffers
      exact absurd rfl hdiffers
  · intro hstale
    rcases hstale with ⟨hdrops, hempty, hreplaced⟩
    left
    refine ⟨hdrops, hempty, ?_⟩
    rw [hnotStamped (Or.inl (hnil.mpr hempty)), hplain]
    exact hreplaced

/-- The event of a full-set replan is faithful unless a slice that stays waits
for a stale one. -/
theorem replan_faithful_iff
    {host : Host} {plan next : ThreadPlan} {newSlices : List SliceInput}
    {wall : String}
    (h : replan host plan newSlices wall = Except.ok next) :
    FaithfulEvent plan next <->
      forall s, s ∈ plan.slices -> StaleInReplan host plan newSlices s ->
        forall t, t ∈ plan.slices ->
          ¬ StillWaits (replanDrops host newSlices)
            (RewritesDependsOn newSlices) t s.id := by
  rcases replan_parts h with ⟨marker, edit, hparts⟩
  have hstart := replanning_start host marker newSlices hparts.unique
  have hwhole : newSlices = [] ++ newSlices ++ [] := (List.append_nil _).symm
  rcases hstart.run hwhole hparts.differ hparts.run with ⟨added, hdone⟩
  rw [List.nil_append] at hdone
  rw [(replan_landing hparts hdone).faithful_iff]
  constructor
  · intro hclean s hs hstale
    exact hclean s hs ((replan_stale_iff hparts hdone hs).mpr hstale)
  · intro hclean s hs hstale
    exact hclean s hs ((replan_stale_iff hparts hdone hs).mp hstale)

/-!
## Deltas
-/

/-- Slices appended to those that were there. -/
structure Appending (kept : List ThreadSlice)
    (edit : TopologyEdit ThreadClaimRef) (added : List ThreadSlice) :
    Prop where
  slices : edit.slices = kept ++ added
  pending : forall t, t ∈ added -> t.status = PlanSliceStatus.pending
  used : forall t, t ∈ edit.slices -> t.id ∈ edit.usedIds
  unique : (edit.slices.map (·.id)).Nodup
  addedIds : edit.addedIds = added.map (·.id)
  writtenAdded : forall t, t ∈ added -> t.depends_on.isSome = true ->
    t.id ∈ edit.writtenDependsOnIds

theorem deltaEntry_append
    {host : Host} {edit edit' : TopologyEdit ThreadClaimRef} {ns : SliceInput}
    (h : deltaEntry host edit ns = Except.ok edit') :
    exists id, id ∉ edit.usedIds ∧ edit' = edit.append id ns := by
  unfold deltaEntry at h
  cases hid : Text.truthy ns.id with
  | none =>
      rw [hid] at h
      rcases except_bind_ok h with ⟨_, _, hrest⟩
      cases hrest
      exact ⟨_, slugifySliceId_free _ _ _, rfl⟩
  | some id =>
      rw [hid] at h
      dsimp only at h
      by_cases hused : id ∈ edit.usedIds
      · rw [if_pos hused] at h
        cases h
      · rw [if_neg hused] at h
        rcases except_bind_ok h with ⟨_, _, hrest⟩
        cases hrest
        exact ⟨id, hused, rfl⟩

theorem Appending.append
    {kept added : List ThreadSlice} {edit : TopologyEdit ThreadClaimRef}
    {id : String} (h : Appending kept edit added) (ns : SliceInput)
    (hfresh : id ∉ edit.usedIds) :
    Appending kept (edit.append id ns) (added ++ [initialSlice id ns]) := by
  have hnew : id ∉ edit.slices.map (·.id) := by
    intro hmem
    rcases List.mem_map.mp hmem with ⟨t, ht, rfl⟩
    exact hfresh (h.used t ht)
  constructor
  · show edit.slices ++ [initialSlice id ns] = _
    rw [h.slices, List.append_assoc]
  · intro t ht
    rcases List.mem_append.mp ht with hin | hlast
    · exact h.pending t hin
    · rw [List.mem_singleton.mp hlast]
      rfl
  · intro t ht
    rcases List.mem_append.mp ht with hin | hlast
    · exact List.mem_cons_of_mem _ (h.used t hin)
    · rw [List.mem_singleton.mp hlast]
      exact List.mem_cons_self ..
  · show ((edit.slices ++ [initialSlice id ns]).map
      fun s : ThreadSlice => s.id).Nodup
    rw [List.map_append, List.nodup_append]
    refine ⟨h.unique, List.nodup_singleton _, ?_⟩
    intro a ha b hb hsame
    rw [List.mem_singleton.mp hb] at hsame
    rw [hsame] at ha
    exact hnew ha
  · show edit.addedIds ++ [id] = _
    rw [h.addedIds, List.map_append]
    rfl
  · intro t ht hsome
    show t.id ∈ writtenWith edit.writtenDependsOnIds id ns
    rcases List.mem_append.mp ht with hin | hlast
    · exact writtenWith_mono (h.writtenAdded t hin hsome)
    · rw [List.mem_singleton.mp hlast] at hsome ⊢
      exact mem_writtenWith hsome

theorem Appending.run
    {host : Host} {kept added : List ThreadSlice} {inputs : List SliceInput}
    {edit edit' : TopologyEdit ThreadClaimRef}
    (h : Appending kept edit added)
    (hrun : inputs.foldlM (deltaEntry host) edit = Except.ok edit') :
    exists more, more.length = inputs.length ∧
      Appending kept edit' (added ++ more) := by
  induction inputs generalizing edit added with
  | nil =>
      cases hrun
      refine ⟨[], rfl, ?_⟩
      rw [List.append_nil]
      exact h
  | cons ns rest ih =>
      rw [List.foldlM_cons] at hrun
      rcases except_bind_ok hrun with ⟨next, hnext, hrest⟩
      rcases deltaEntry_append hnext with ⟨id, hfresh, rfl⟩
      rcases ih (h.append ns hfresh) hrest with ⟨more, hlength, hdone⟩
      refine ⟨initialSlice id ns :: more, ?_, ?_⟩
      · rw [List.length_cons, List.length_cons, hlength]
      · rw [List.append_assoc] at hdone
        exact hdone

def deltaStart (marker : String) (dropIds : List String)
    (before : List ThreadSlice) : TopologyEdit ThreadClaimRef :=
  let kept := before.map fun s =>
    if deltaDrops dropIds s then supersede marker s else s
  { slices := kept
    usedIds := kept.map (·.id)
    addedIds := []
    writtenDependsOnIds := [] }

/-- The parts of a delta that has been applied. -/
structure DeltaParts (host : Host) (delta : SliceDelta)
    (plan next : ThreadPlan) (edit : TopologyEdit ThreadClaimRef)
    (stamped : List ThreadSlice) : Prop where
  unique : (plan.slices.map (·.id)).Nodup
  run : (delta.add_slices.getD []).foldlM (deltaEntry host)
    (deltaStart (replanMarker host (deltaKey delta))
      (delta.drop_slice_ids.getD []) plan.slices) = Except.ok edit
  stamps : stamped = edit.slices.map
    (stampedSlice (replanMarker host (deltaKey delta))
      (delta.drop_slice_ids.getD []) edit.addedIds)
  live : assertWrittenDependsOnTargetsLive "applySliceDelta" plan.slices
    stamped edit.writtenDependsOnIds = Except.ok ()
  remounts : assertRemounts stamped [] (delta.set_depends_on.getD []) =
    Except.ok ()
  slices : next.slices =
    stamped.map (remountedSlice (delta.set_depends_on.getD []))

theorem delta_parts
    {host : Host} {plan next : ThreadPlan} {delta : SliceDelta} {wall : String}
    (h : applySliceDelta host plan delta wall = Except.ok next) :
    exists edit stamped, DeltaParts host delta plan next edit stamped := by
  rcases except_bind_ok h with ⟨_, hunique, h⟩
  rcases except_bind_ok h with ⟨_, _, h⟩
  rcases except_bind_ok h with ⟨edit, hrun, h⟩
  rcases except_bind_ok h with ⟨_, hlive, h⟩
  rcases except_bind_ok h with ⟨_, hremounts, h⟩
  cases h
  refine ⟨edit, _, assertUniqueSliceIds_ok hunique, hrun,
    stampReplacedBy_eq _ _ _ _, hlive, hremounts, rfl⟩

theorem appending_start
    (marker : String) (dropIds : List String) {before : List ThreadSlice}
    (h : (before.map (·.id)).Nodup) :
    Appending
      (before.map fun s => if deltaDrops dropIds s then supersede marker s else s)
      (deltaStart marker dropIds before) [] := by
  constructor
  · exact (List.append_nil _).symm
  · intro t ht
    cases ht
  · intro t ht
    exact List.mem_map.mpr ⟨t, ht, rfl⟩
  · have hids : (deltaStart marker dropIds before).slices.map (·.id) =
        before.map (·.id) := by
      show (before.map _).map _ = _
      rw [List.map_map]
      apply List.map_congr_left
      intro s _
      simp only [Function.comp_apply]
      split
      · rfl
      · rfl
    rw [hids]
    exact h
  · rfl
  · intro t ht
    cases ht

/-- Remounts are onto live slices. -/
theorem remount_targets
    {slices : List ThreadSlice} {remounts : List SetDependsOn}
    {seen : List String} {entry : SetDependsOn}
    (h : assertRemounts slices seen remounts = Except.ok ())
    (hentry : entry ∈ remounts) {dep : String}
    (hdep : dep ∈ entry.depends_on) :
    liveById slices dep = true := by
  induction remounts generalizing seen with
  | nil => cases hentry
  | cons first rest ih =>
      unfold assertRemounts at h
      split at h
      · cases h
      split at h
      · cases h
      split at h
      · cases h
      · rename_i hnone
        split at h
        · cases h
        · rcases List.mem_cons.mp hentry with rfl | hrest
          · have hlive := List.find?_eq_none.mp hnone dep hdep
            simpa using hlive
          · exact ih h hrest

theorem remountedSlice_frame
    (remounts : List SetDependsOn) (s : ThreadSlice) :
    (remountedSlice remounts s).id = s.id ∧
      (remountedSlice remounts s).status = s.status ∧
      (remountedSlice remounts s).replaced_by = s.replaced_by := by
  unfold remountedSlice
  split
  · exact ⟨rfl, rfl, rfl⟩
  · split
    · exact ⟨rfl, rfl, rfl⟩
    · exact ⟨rfl, rfl, rfl⟩

/-- A slice is remounted onto what its entry says, or it is left alone. -/
theorem remountedSlice_cases
    (remounts : List SetDependsOn) (s : ThreadSlice) :
    (exists entry, entry ∈ remounts ∧ entry.slice_id = s.id ∧
      forall dep, dep ∈ (remountedSlice remounts s).depends_on.getD [] <->
        dep ∈ entry.depends_on) ∨
      (forall entry, entry ∈ remounts -> entry.slice_id ≠ s.id) ∧
        remountedSlice remounts s = s := by
  unfold remountedSlice
  cases hfound : remounts.find? (·.slice_id = s.id) with
  | none =>
      right
      refine ⟨?_, rfl⟩
      intro entry hentry hid
      have hnot := List.find?_eq_none.mp hfound entry hentry
      exact hnot (decide_eq_true hid)
  | some entry =>
      left
      have hpred := List.find?_some hfound
      refine ⟨entry, List.mem_of_find?_eq_some hfound,
        of_decide_eq_true hpred, ?_⟩
      intro dep
      dsimp only
      split
      · rename_i hsame
        exact mem_of_sameStringSet hsame dep
      · rfl

/-- The delta gives the slice its dependencies. -/
def RemountsDependsOn (delta : SliceDelta) (s : ThreadSlice) : Prop :=
  exists entry, entry ∈ delta.set_depends_on.getD [] ∧ entry.slice_id = s.id

/-- An old slice before the remounts. -/
def stampedDelta (host : Host) (delta : SliceDelta) (addedIds : List String)
    (s : ThreadSlice) : ThreadSlice :=
  stampedSlice (replanMarker host (deltaKey delta))
    (delta.drop_slice_ids.getD []) addedIds
    (if deltaDrops (delta.drop_slice_ids.getD []) s then
      supersede (replanMarker host (deltaKey delta)) s
    else
      s)

/-- What a delta makes of an old slice. -/
def deltaSlice (host : Host) (delta : SliceDelta) (addedIds : List String)
    (s : ThreadSlice) : ThreadSlice :=
  remountedSlice (delta.set_depends_on.getD [])
    (stampedDelta host delta addedIds s)

section Delta

variable {host : Host} {plan next : ThreadPlan} {delta : SliceDelta}
  {edit : TopologyEdit ThreadClaimRef} {stamped added : List ThreadSlice}

theorem deltaSlice_frame
    (host : Host) (delta : SliceDelta) (addedIds : List String)
    (s : ThreadSlice) :
    (deltaSlice host delta addedIds s).id = s.id ∧
      (deltaSlice host delta addedIds s).status =
        if deltaDrops (delta.drop_slice_ids.getD []) s then
          PlanSliceStatus.superseded
        else
          s.status := by
  unfold deltaSlice stampedDelta
  rw [(remountedSlice_frame _ _).left, (remountedSlice_frame _ _).right.left,
    (stampedSlice_frame _ _ _ _).left, (stampedSlice_frame _ _ _ _).right.left]
  split
  · exact ⟨rfl, rfl⟩
  · exact ⟨rfl, rfl⟩

theorem live_of_deltaDrops
    {dropIds : List String} {s : ThreadSlice}
    (h : deltaDrops dropIds s = true) :
    s.status ≠ PlanSliceStatus.superseded := by
  intro hclosed
  unfold deltaDrops at h
  rw [hclosed] at h
  simp [PlanSliceStatus.isResolved] at h

theorem isEmpty_addedIds
    {kept : List ThreadSlice} (h : Appending kept edit added) :
    edit.addedIds.isEmpty = added.isEmpty := by
  rw [h.addedIds, List.isEmpty_map]

/-- Whether an old slice is told of a replacement once the delta is applied. -/
theorem hasReplacement_deltaSlice
    (host : Host) (delta : SliceDelta) (addedIds : List String)
    (s : ThreadSlice) :
    hasReplacement (deltaSlice host delta addedIds s) =
      if addedIds.isEmpty = false ∧ s.id ∈ delta.drop_slice_ids.getD [] ∧
          (deltaDrops (delta.drop_slice_ids.getD []) s = true ∨
            s.status = PlanSliceStatus.superseded ∧
              s.superseded_by = some (replanMarker host (deltaKey delta))) then
        true
      else
        hasReplacement s := by
  have hframe : hasReplacement (deltaSlice host delta addedIds s) =
      hasReplacement (stampedDelta host delta addedIds s) :=
    hasReplacement_of_eq (remountedSlice_frame _ _).right.right
  rw [hframe]
  unfold stampedDelta
  generalize replanMarker host (deltaKey delta) = marker
  generalize delta.drop_slice_ids.getD [] = dropIds
  unfold stampedSlice
  by_cases hempty : addedIds.isEmpty = true
  · have hnot : ¬ (true = false ∧ s.id ∈ dropIds ∧
        (deltaDrops dropIds s = true ∨
          s.status = PlanSliceStatus.superseded ∧
            s.superseded_by = some marker)) := by
      intro h
      cases h.left
    rw [hempty, Bool.or_true, if_pos rfl, if_neg hnot]
    split
    · rfl
    · rfl
  have hsome : addedIds.isEmpty = false := (Bool.not_eq_true _).mp hempty
  rw [hsome, Bool.or_false]
  by_cases hmem : s.id ∈ dropIds
  · have hdropIds : dropIds.isEmpty = false := by
      cases hcase : dropIds with
      | nil =>
          rw [hcase] at hmem
          cases hmem
      | cons id rest => rfl
    rw [hdropIds, if_neg (by simp)]
    cases hdrops : deltaDrops dropIds s with
    | true =>
        have hstamps : (supersede marker s).id ∈ dropIds ∧
            (supersede marker s).status = PlanSliceStatus.superseded ∧
            (supersede marker s).superseded_by = some marker :=
          ⟨hmem, rfl, rfl⟩
        simp only [if_true]
        rw [if_pos hstamps, if_pos ⟨True.intro, hmem, Or.inl True.intro⟩]
        unfold hasReplacement
        simp [hsome]
    | false =>
        simp only [Bool.false_eq_true, if_false, false_or]
        by_cases hstamps : s.status = PlanSliceStatus.superseded ∧
            s.superseded_by = some marker
        · rw [if_pos ⟨hmem, hstamps⟩, if_pos ⟨True.intro, hmem, hstamps⟩]
          unfold hasReplacement
          simp [hsome]
        · rw [if_neg (fun h => hstamps h.right),
            if_neg (fun h => hstamps h.right.right)]
  · have hdrops : deltaDrops dropIds s = false := by
      unfold deltaDrops
      simp [hmem]
    have hnotStamped : ¬ (s.id ∈ dropIds ∧
        s.status = PlanSliceStatus.superseded ∧
        s.superseded_by = some marker) := by
      intro h
      exact hmem h.left
    have hnotTold : ¬ (False = False ∧ s.id ∈ dropIds ∧
        (False ∨ s.status = PlanSliceStatus.superseded ∧
          s.superseded_by = some marker)) := by
      intro h
      exact hmem h.right.left
    rw [hdrops]
    simp only [Bool.false_eq_true, if_false] at hnotTold ⊢
    rw [if_neg hnotStamped, ite_self, if_neg hnotTold]

theorem liveById_closed
    {slices : List ThreadSlice} {t : ThreadSlice}
    (hunique : (slices.map (·.id)).Nodup) (ht : t ∈ slices)
    (hclosed : t.status = PlanSliceStatus.superseded) :
    liveById slices t.id = false := by
  unfold liveById
  rw [find_id_of_mem hunique ht]
  simp [hclosed]

theorem delta_landing
    (hparts : DeltaParts host delta plan next edit stamped)
    (hdone : Appending
      (plan.slices.map fun s =>
        if deltaDrops (delta.drop_slice_ids.getD []) s then
          supersede (replanMarker host (deltaKey delta)) s
        else
          s) edit added) :
    Landing plan next (deltaDrops (delta.drop_slice_ids.getD []))
      (RemountsDependsOn delta) (deltaSlice host delta edit.addedIds)
      (added.map fun t => remountedSlice (delta.set_depends_on.getD [])
        (stampedSlice (replanMarker host (deltaKey delta))
          (delta.drop_slice_ids.getD []) edit.addedIds t)) := by
  have hnext : next.slices =
      plan.slices.map (deltaSlice host delta edit.addedIds) ++
        added.map fun t => remountedSlice (delta.set_depends_on.getD [])
          (stampedSlice (replanMarker host (deltaKey delta))
            (delta.drop_slice_ids.getD []) edit.addedIds t) := by
    rw [hparts.slices, hparts.stamps, hdone.slices]
    simp only [List.map_append, List.map_map]
    rfl
  have hstampedIds : stamped.map (·.id) = edit.slices.map (·.id) := by
    rw [hparts.stamps, List.map_map]
    apply List.map_congr_left
    intro s _
    exact (stampedSlice_frame _ _ _ _).left
  have hstampedUnique : (stamped.map (·.id)).Nodup := by
    rw [hstampedIds]
    exact hdone.unique
  have hnextUnique : (next.slices.map (·.id)).Nodup := by
    have hids : next.slices.map (·.id) = stamped.map (·.id) := by
      rw [hparts.slices, List.map_map]
      apply List.map_congr_left
      intro s _
      exact (remountedSlice_frame _ _).left
    rw [hids]
    exact hstampedUnique
  constructor
  · exact hnext
  · exact hparts.unique
  · exact hnextUnique
  · intro s
    exact (deltaSlice_frame host delta edit.addedIds s).left
  · intro s
    exact (deltaSlice_frame host delta edit.addedIds s).right
  · intro s hdrops
    exact live_of_deltaDrops hdrops
  · intro t ht
    rcases List.mem_map.mp ht with ⟨u, hu, rfl⟩
    rw [(remountedSlice_frame _ _).right.left,
      (stampedSlice_frame _ _ _ _).right.left]
    exact hdone.pending u hu
  · intro s _ hkept hunwritten
    unfold deltaSlice stampedDelta
    rw [hkept]
    rcases remountedSlice_cases (delta.set_depends_on.getD [])
        (stampedSlice (replanMarker host (deltaKey delta))
          (delta.drop_slice_ids.getD []) edit.addedIds s) with
      ⟨entry, hentry, hid, _⟩ | ⟨_, hsame⟩
    · rw [(stampedSlice_frame _ _ _ _).left] at hid
      exact absurd ⟨entry, hentry, hid⟩ hunwritten
    · simp only [Bool.false_eq_true, if_false]
      rw [hsame]
      exact (stampedSlice_frame _ _ _ _).right.right
  · intro s _ hdrops hadded
    rw [hasReplacement_deltaSlice, if_pos]
    refine ⟨?_, ?_, Or.inl hdrops⟩
    · rw [isEmpty_addedIds hdone]
      cases hcase : added with
      | nil =>
          rw [hcase] at hadded
          exact absurd rfl hadded
      | cons t rest => rfl
    · unfold deltaDrops at hdrops
      rw [Bool.and_eq_true, decide_eq_true_eq] at hdrops
      exact hdrops.left
  · intro t ht hlive hwritten s hs hdep hclosed
    -- The old slice as it stands before the remounts.
    have hold : exists u, u ∈ stamped ∧ u.id = s.id ∧
        u.status = PlanSliceStatus.superseded ∧
        hasReplacement u =
          hasReplacement (deltaSlice host delta edit.addedIds s) := by
      refine ⟨stampedDelta host delta edit.addedIds s, ?_, ?_, ?_, ?_⟩
      · rw [hparts.stamps, hdone.slices]
        apply List.mem_map.mpr
        exact ⟨_, List.mem_append_left _ (List.mem_map.mpr ⟨s, hs, rfl⟩), rfl⟩
      · rw [<- (deltaSlice_frame host delta edit.addedIds s).left]
        exact (remountedSlice_frame _ _).left.symm
      · rw [<- hclosed]
        exact (remountedSlice_frame _ _).right.left.symm
      · exact (hasReplacement_of_eq (remountedSlice_frame _ _).right.right).symm
    rcases hold with ⟨u, hu, huid, huclosed, hureplaced⟩
    have hnotRemounted : forall entry,
        entry ∈ delta.set_depends_on.getD [] -> s.id ∉ entry.depends_on := by
      intro entry hentry hmem
      have htarget := remount_targets hparts.remounts hentry hmem
      rw [<- huid, liveById_closed hstampedUnique hu huclosed] at htarget
      cases htarget
    have hremountFree : forall x : ThreadSlice,
        s.id ∈ (remountedSlice (delta.set_depends_on.getD []) x).depends_on.getD
          [] ->
        (forall entry, entry ∈ delta.set_depends_on.getD [] ->
            entry.slice_id ≠ x.id) ∧
          remountedSlice (delta.set_depends_on.getD []) x = x := by
      intro x hx
      rcases remountedSlice_cases (delta.set_depends_on.getD []) x with
        ⟨entry, hentry, _, hdepends⟩ | hfree
      · exact absurd ((hdepends s.id).mp hx) (hnotRemounted entry hentry)
      · exact hfree
    rcases hwritten with hnew | ⟨v, _, rfl, entry, hentry, hid⟩
    · rcases List.mem_map.mp hnew with ⟨v, hv, rfl⟩
      rcases hremountFree _ hdep with ⟨_, hsame⟩
      have hmem : stampedSlice (replanMarker host (deltaKey delta))
          (delta.drop_slice_ids.getD []) edit.addedIds v ∈ stamped := by
        rw [hparts.stamps, hdone.slices]
        apply List.mem_map.mpr
        exact ⟨v, List.mem_append_right _ hv, rfl⟩
      rw [hsame] at hdep
      have hdepV := hdep
      rw [(stampedSlice_frame _ _ _ _).right.right] at hdepV
      have hin := hdone.writtenAdded v hv (isSome_of_mem_depends_on hdepV)
      rw [<- (stampedSlice_frame (replanMarker host (deltaKey delta))
        (delta.drop_slice_ids.getD []) edit.addedIds v).left] at hin
      have htarget := dependsOnTargetLive_of_written hparts.live hmem hin hdep
      rcases dropped_of_dependsOnTargetLive hparts.unique hstampedUnique hs hu
        huid huclosed htarget with ⟨hwasLive, hplain⟩
      refine ⟨?_, by rw [<- hureplaced]; exact hplain⟩
      rw [(deltaSlice_frame host delta edit.addedIds s).right] at hclosed
      cases hdrops : deltaDrops (delta.drop_slice_ids.getD []) s with
      | true => rfl
      | false =>
          rw [hdrops] at hclosed
          exact absurd hclosed hwasLive
    · rcases hremountFree _ hdep with ⟨hfree, _⟩
      exfalso
      apply hfree entry hentry
      rw [hid, <- (deltaSlice_frame host delta edit.addedIds v).left]
      exact (remountedSlice_frame _ _).left

/-- What the event of a delta does not tell: nothing is added, and the slice
that is dropped still carries a replacement from before; or the slice has been
superseded under the same marker and is only now told of a replacement. -/
def StaleInDelta (host : Host) (delta : SliceDelta) (s : ThreadSlice) : Prop :=
  deltaDrops (delta.drop_slice_ids.getD []) s = true ∧
      delta.add_slices.getD [] = [] ∧ hasReplacement s = true ∨
    s.status = PlanSliceStatus.superseded ∧
      s.id ∈ delta.drop_slice_ids.getD [] ∧ delta.add_slices.getD [] ≠ [] ∧
      s.superseded_by = some (replanMarker host (deltaKey delta)) ∧
      hasReplacement s = false

theorem delta_stale_iff
    (hdone : Appending
      (plan.slices.map fun s =>
        if deltaDrops (delta.drop_slice_ids.getD []) s then
          supersede (replanMarker host (deltaKey delta)) s
        else
          s) edit added)
    (hlength : added.length = (delta.add_slices.getD []).length)
    (s : ThreadSlice) :
    Stale (deltaDrops (delta.drop_slice_ids.getD []))
        (deltaSlice host delta edit.addedIds)
        (added.map fun t => remountedSlice (delta.set_depends_on.getD [])
          (stampedSlice (replanMarker host (deltaKey delta))
            (delta.drop_slice_ids.getD []) edit.addedIds t)) s <->
      StaleInDelta host delta s := by
  have hnil : added = [] <-> delta.add_slices.getD [] = [] := by
    rw [<- List.length_eq_zero_iff, hlength, List.length_eq_zero_iff]
  have hisEmpty : edit.addedIds.isEmpty = false <->
      delta.add_slices.getD [] ≠ [] := by
    rw [isEmpty_addedIds hdone, ne_eq, <- hnil, <- List.isEmpty_iff,
      Bool.not_eq_true]
  unfold Stale StaleInDelta
  rw [List.map_eq_nil_iff, hnil, hasReplacement_deltaSlice]
  constructor
  · intro hstale
    rcases hstale with ⟨hdrops, hempty, hreplaced⟩ | ⟨hkept, hclosed, hdiffers⟩
    · rw [if_neg (fun h => hisEmpty.mp h.left hempty)] at hreplaced
      exact Or.inl ⟨hdrops, hempty, hreplaced⟩
    · right
      split at hdiffers
      · rename_i hstamps
        rcases hstamps with ⟨hadds, hmem, hdrops | ⟨_, hmarker⟩⟩
        · rw [hkept] at hdrops
          cases hdrops
        · refine ⟨hclosed, hmem, hisEmpty.mp hadds, hmarker, ?_⟩
          cases hreplaced : hasReplacement s with
          | false => rfl
          | true =>
              rw [hreplaced] at hdiffers
              exact absurd rfl hdiffers
      · exact absurd rfl hdiffers
  · intro hstale
    rcases hstale with ⟨hdrops, hempty, hreplaced⟩ |
      ⟨hclosed, hmem, hadds, hmarker, hplain⟩
    · left
      refine ⟨hdrops, hempty, ?_⟩
      rw [if_neg (fun h => hisEmpty.mp h.left hempty)]
      exact hreplaced
    · right
      refine ⟨?_, hclosed, ?_⟩
      · unfold deltaDrops
        rw [hclosed]
        simp [PlanSliceStatus.isResolved]
      · rw [if_pos ⟨hisEmpty.mpr hadds, hmem, Or.inr ⟨hclosed, hmarker⟩⟩,
          hplain]
        simp

end Delta

/-- The event of a delta is faithful unless a slice that stays waits for a stale
one. -/
theorem delta_faithful_iff
    {host : Host} {plan next : ThreadPlan} {delta : SliceDelta} {wall : String}
    (h : applySliceDelta host plan delta wall = Except.ok next) :
    FaithfulEvent plan next <->
      forall s, s ∈ plan.slices -> StaleInDelta host delta s ->
        forall t, t ∈ plan.slices ->
          ¬ StillWaits (deltaDrops (delta.drop_slice_ids.getD []))
            (RemountsDependsOn delta) t s.id := by
  rcases delta_parts h with ⟨edit, stamped, hparts⟩
  have hstart := appending_start (replanMarker host (deltaKey delta))
    (delta.drop_slice_ids.getD []) hparts.unique
  rcases hstart.run hparts.run with ⟨added, hlength, hdone⟩
  rw [List.nil_append] at hdone
  rw [(delta_landing hparts hdone).faithful_iff]
  constructor
  · intro hclean s hs hstale
    exact hclean s hs ((delta_stale_iff hdone hlength s).mpr hstale)
  · intro hclean s hs hstale
    exact hclean s hs ((delta_stale_iff hdone hlength s).mp hstale)

/-- Which slices wait for something that the event does not tell. -/
theorem replanEvent_faithful_iff
    {host : Host} {plan next : ThreadPlan} {wall : String}
    {input : ReplanInput}
    (h : applyReplan host plan wall input = Except.ok next) :
    FaithfulEvent plan next <->
      match input with
      | ReplanInput.newSlices newSlices =>
          forall s, s ∈ plan.slices -> StaleInReplan host plan newSlices s ->
            forall t, t ∈ plan.slices ->
              ¬ StillWaits (replanDrops host newSlices)
                (RewritesDependsOn newSlices) t s.id
      | ReplanInput.delta delta =>
          forall s, s ∈ plan.slices -> StaleInDelta host delta s ->
            forall t, t ∈ plan.slices ->
              ¬ StillWaits (deltaDrops (delta.drop_slice_ids.getD []))
                (RemountsDependsOn delta) t s.id := by
  cases input with
  | newSlices newSlices => exact replan_faithful_iff h
  | delta delta => exact delta_faithful_iff h

/-!
## A slice that was split, reopened and dropped

The slice still carries the replacement of the split.  The event tells of a
plain drop, and in the new plan its dependent stays blocked.
-/

def reopenedSlice : ThreadSlice :=
  { initialSlice "a" (plainSlice "a" "Build") with
    replaced_by := some ["b"] }

def waitingSlice : ThreadSlice :=
  initialSlice "c" { plainSlice "c" "Ship" with depends_on := some ["a"] }

def reopenedPlan : ThreadPlan :=
  { plainPlan with slices := [reopenedSlice, waitingSlice] }

def plainDrop : SliceDelta :=
  { add_slices := none
    drop_slice_ids := some ["a"]
    set_depends_on := none }

theorem applyReplan_plainDrop :
    exists next : ThreadPlan,
      applyReplan plainHost reopenedPlan "now" (ReplanInput.delta plainDrop) =
        Except.ok next := by
  have hrun : (match applyReplan plainHost reopenedPlan "now"
        (ReplanInput.delta plainDrop) with
      | Except.ok _ => true
      | Except.error _ => false) = true := by
    decide +kernel
  cases hreplan : applyReplan plainHost reopenedPlan "now"
      (ReplanInput.delta plainDrop) with
  | error text =>
      rw [hreplan] at hrun
      cases hrun
  | ok next => exact ⟨next, rfl⟩

theorem replanEvent_faithful_iff_plainDrop :
    exists next : ThreadPlan,
      applyReplan plainHost reopenedPlan "now" (ReplanInput.delta plainDrop) =
          Except.ok next ∧
        (FaithfulEvent reopenedPlan next <->
          forall s, s ∈ reopenedPlan.slices ->
            StaleInDelta plainHost plainDrop s ->
            forall t, t ∈ reopenedPlan.slices ->
              ¬ StillWaits (deltaDrops ["a"]) (RemountsDependsOn plainDrop) t
                s.id) := by
  rcases applyReplan_plainDrop with ⟨next, happlied⟩
  exact ⟨next, happlied, replanEvent_faithful_iff happlied⟩

theorem replanEvent_unfaithful :
    ¬ forall (host : Host) (plan next : ThreadPlan) (wall : String)
        (input : ReplanInput),
      applyReplan host plan wall input = Except.ok next ->
        FaithfulEvent plan next := by
  intro h
  rcases applyReplan_plainDrop with ⟨next, happlied⟩
  have hfaithful := h plainHost reopenedPlan next "now" _ happlied
  have hstale : StaleInDelta plainHost plainDrop reopenedSlice :=
    Or.inl ⟨by decide, rfl, by decide⟩
  have hwaits : StillWaits (deltaDrops ["a"]) (RemountsDependsOn plainDrop)
      waitingSlice reopenedSlice.id := by
    constructor
    · decide
    · decide
    · intro hremount
      rcases hremount with ⟨entry, hentry, _⟩
      cases hentry
    · decide
  exact (delta_faithful_iff happlied).mp hfaithful reopenedSlice
    (List.mem_cons_self ..) hstale waitingSlice
    (List.mem_cons_of_mem _ (List.mem_cons_self ..)) hwaits

end Thread
end Minni
