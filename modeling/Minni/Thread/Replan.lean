import Minni.Thread.PlanStatus
import Minni.Thread.Topology

/-!
# What a full-set replan lands

The loop of `replan` over the proposed slices has a closed form on the old
slices: a slice that no entry proposes is superseded, a slice that an entry
names by its identifier is refreshed by that entry, and all others stay.  What
the loop appends has identifiers of its own.
-/

namespace Minni
namespace Thread

open Foundation

/-!
## Generated identifiers
-/

theorem numberedSlug_inj
    {slug : String} {i j : Nat} (h : numberedSlug slug i = numberedSlug slug j) :
    i = j := by
  have hlist := congrArg String.toList h
  unfold numberedSlug at hlist
  rw [String.toList_append, String.toList_append, String.toList_append,
    String.toList_append] at hlist
  have hdigits : (toString i).toList = (toString j).toList :=
    List.append_cancel_left hlist
  change (Nat.repr i).toList = (Nat.repr j).toList at hdigits
  unfold Nat.repr at hdigits
  rw [String.toList_ofList, String.toList_ofList] at hdigits
  have hvalue := congrArg (fun cs => Nat.ofDigitChars 10 cs 0) hdigits
  simpa using hvalue

/-- The search gives a free slug, or all the slugs it tried are taken. -/
theorem firstFreeSlug_free
    (slug : String) (taken : List String) (fuel start : Nat) :
    firstFreeSlug slug taken fuel start ∉ taken ∨
      forall i, i ≤ fuel -> numberedSlug slug (start + i) ∈ taken := by
  induction fuel generalizing start with
  | zero =>
      by_cases hlast : numberedSlug slug start ∈ taken
      · right
        intro i hi
        rw [Nat.le_zero.mp hi]
        exact hlast
      · exact Or.inl hlast
  | succ fuel ih =>
      unfold firstFreeSlug
      by_cases hfirst : numberedSlug slug start ∈ taken
      · rw [if_pos hfirst]
        rcases ih (start + 1) with hfree | hall
        · exact Or.inl hfree
        · right
          intro i hi
          cases i with
          | zero => exact hfirst
          | succ i =>
              have hnext := hall i (by omega)
              rw [show start + (i + 1) = start + 1 + i by omega]
              exact hnext
      · rw [if_neg hfirst]
        exact Or.inl hfirst

/-- There are more slugs to try than identifiers in use. -/
theorem slugifySliceId_free
    (host : Host) (title : String) (taken : List String) :
    slugifySliceId host title taken ∉ taken := by
  unfold slugifySliceId
  dsimp only
  by_cases htaken : slugBase host title ∈ taken
  · rw [if_pos htaken]
    rcases firstFreeSlug_free (slugBase host title) taken taken.length 2 with
      hfree | hall
    · exact hfree
    · exfalso
      have hnodup : ((List.range (taken.length + 1)).map fun i =>
          numberedSlug (slugBase host title) (2 + i)).Nodup := by
        apply List.Nodup.map _ List.nodup_range
        intro i j hsame
        have hindex := numberedSlug_inj hsame
        omega
      have hsub : ((List.range (taken.length + 1)).map fun i =>
          numberedSlug (slugBase host title) (2 + i)) ⊆ taken := by
        intro slug hslug
        rcases List.mem_map.mp hslug with ⟨i, hi, rfl⟩
        have hlt := List.mem_range.mp hi
        exact hall i (by omega)
      have hlength := hnodup.length_le_of_subset hsub
      rw [List.length_map, List.length_range] at hlength
      omega
  · rw [if_neg htaken]
    exact htaken

/-!
## One entry
-/

/-- The entry that names the identifier. -/
def namedBy (newSlices : List SliceInput) (id : String) : Option SliceInput :=
  newSlices.find? fun ns => decide (Text.truthy ns.id = some id)

/-- What the entries up to `read` make of an old slice. -/
def replannedSlice (host : Host) (marker : String)
    (newSlices read : List SliceInput) (s : ThreadSlice) : ThreadSlice :=
  if replanDrops host newSlices s then supersede marker s
  else
    match namedBy read s.id with
    | none => s
    | some ns => refreshedSlice ns s

theorem replannedSlice_id
    (host : Host) (marker : String) (newSlices read : List SliceInput)
    (s : ThreadSlice) :
    (replannedSlice host marker newSlices read s).id = s.id := by
  unfold replannedSlice
  split
  · rfl
  · split
    · rfl
    · exact (refreshedSlice_head _ s).right.left

theorem not_dropped_of_named
    {host : Host} {newSlices : List SliceInput} {ns : SliceInput}
    {s : ThreadSlice} (hmem : ns ∈ newSlices)
    (hnamed : Text.truthy ns.id = some s.id) :
    replanDrops host newSlices s = false := by
  have hproposed : stillProposed host newSlices s = true := by
    apply List.any_eq_true.mpr
    exact ⟨ns, hmem, by simp [hnamed]⟩
  unfold replanDrops
  rw [hproposed]
  rfl

theorem namedBy_append
    (read : List SliceInput) (ns : SliceInput) (id : String) :
    namedBy (read ++ [ns]) id =
      (namedBy read id).or
        (if Text.truthy ns.id = some id then some ns else none) := by
  unfold namedBy
  rw [List.find?_append]
  congr 1
  by_cases hnamed : Text.truthy ns.id = some id
  · simp [hnamed]
  · simp [hnamed]

/-- The entries of an accepted call name different identifiers. -/
def NamesDiffer (newSlices : List SliceInput) : Prop :=
  (newSlices.filterMap fun ns => Text.truthy ns.id).Nodup

theorem namedBy_none
    {read later : List SliceInput} {ns : SliceInput} {id : String}
    (hdiffer : NamesDiffer (read ++ ns :: later))
    (hnamed : Text.truthy ns.id = some id) :
    namedBy read id = none := by
  apply List.find?_eq_none.mpr
  intro other hother hsame
  have hother' : Text.truthy other.id = some id := of_decide_eq_true hsame
  unfold NamesDiffer at hdiffer
  rw [List.filterMap_append] at hdiffer
  apply List.disjoint_of_nodup_append hdiffer (a := id)
  · exact List.mem_filterMap.mpr ⟨other, hother, hother'⟩
  · exact List.mem_filterMap.mpr ⟨ns, List.mem_cons_self .., hnamed⟩

theorem not_named_later
    {read later : List SliceInput} {ns other : SliceInput} {id : String}
    (hdiffer : NamesDiffer (read ++ ns :: later))
    (hnamed : Text.truthy ns.id = some id) (hother : other ∈ later) :
    Text.truthy other.id ≠ some id := by
  intro hsame
  unfold NamesDiffer at hdiffer
  rw [List.filterMap_append, List.filterMap_cons] at hdiffer
  simp only [hnamed] at hdiffer
  have hrest := (List.nodup_cons.mp (List.nodup_append.mp hdiffer).right.left)
  exact hrest.left (List.mem_filterMap.mpr ⟨other, hother, hsame⟩)

/-- How far the loop has come: `read` are the entries it has read. -/
structure Replanning (host : Host) (marker : String)
    (newSlices read : List SliceInput) (before : List ThreadSlice)
    (edit : TopologyEdit ThreadClaimRef) (added : List ThreadSlice) :
    Prop where
  slices : edit.slices =
    before.map (replannedSlice host marker newSlices read) ++ added
  pending : forall t, t ∈ added ->
    t.status = PlanSliceStatus.pending ∧ t.id ∉ before.map (·.id)
  used : forall t, t ∈ edit.slices -> t.id ∈ edit.usedIds
  unique : (edit.slices.map (·.id)).Nodup
  addedIds : edit.addedIds = added.map (·.id)
  writtenAdded : forall t, t ∈ added -> t.depends_on.isSome = true ->
    t.id ∈ edit.writtenDependsOnIds
  writtenNamed : forall ns id, ns ∈ read -> Text.truthy ns.id = some id ->
    ns.depends_on.isSome = true -> id ∈ edit.writtenDependsOnIds

/-- The identifiers that a call writes once it has read an entry for `id`. -/
def writtenWith (written : List String) (id : String) (ns : SliceInput) :
    List String :=
  if ns.depends_on.isSome then id :: written else written

theorem writtenWith_mono
    {written : List String} {id other : String} {ns : SliceInput}
    (h : other ∈ written) : other ∈ writtenWith written id ns := by
  unfold writtenWith
  split
  · exact List.mem_cons_of_mem _ h
  · exact h

theorem mem_writtenWith
    {written : List String} {id : String} {ns : SliceInput}
    (h : ns.depends_on.isSome = true) : id ∈ writtenWith written id ns := by
  unfold writtenWith
  rw [if_pos h]
  exact List.mem_cons_self ..

theorem writtenNamed_step
    {read : List SliceInput} {ns : SliceInput} {written written' : List String}
    (h : forall other id, other ∈ read -> Text.truthy other.id = some id ->
      other.depends_on.isSome = true -> id ∈ written)
    (hgrows : forall id, id ∈ written -> id ∈ written')
    (hnew : forall id, Text.truthy ns.id = some id ->
      ns.depends_on.isSome = true -> id ∈ written')
    (other : SliceInput) (id : String) (hother : other ∈ read ++ [ns])
    (hnamed : Text.truthy other.id = some id)
    (hsome : other.depends_on.isSome = true) :
    id ∈ written' := by
  rcases List.mem_append.mp hother with hread | hlast
  · exact hgrows id (h other id hread hnamed hsome)
  · rw [List.mem_singleton.mp hlast] at hnamed hsome
    exact hnew id hnamed hsome

theorem map_id_replanned
    (host : Host) (marker : String) (newSlices read : List SliceInput)
    (before : List ThreadSlice) :
    (before.map (replannedSlice host marker newSlices read)).map (·.id) =
      before.map (·.id) := by
  rw [List.map_map]
  apply List.map_congr_left
  intro s _
  exact replannedSlice_id host marker newSlices read s

/-- An entry whose identifier no old slice has changes none of them. -/
theorem replanned_unnamed
    {host : Host} {marker : String} {newSlices read : List SliceInput}
    {ns : SliceInput} {before : List ThreadSlice}
    (h : forall s, s ∈ before -> Text.truthy ns.id ≠ some s.id) :
    before.map (replannedSlice host marker newSlices (read ++ [ns])) =
      before.map (replannedSlice host marker newSlices read) := by
  apply List.map_congr_left
  intro s hs
  unfold replannedSlice
  rw [namedBy_append, if_neg (h s hs), Option.or_none]

theorem Replanning.append
    {host : Host} {marker : String} {newSlices read : List SliceInput}
    {ns : SliceInput} {before added : List ThreadSlice}
    {edit : TopologyEdit ThreadClaimRef} {id : String}
    (h : Replanning host marker newSlices read before edit added)
    (hfresh : id ∉ edit.usedIds)
    (hid : forall name, Text.truthy ns.id = some name -> name = id) :
    Replanning host marker newSlices (read ++ [ns]) before (edit.append id ns)
      (added ++ [initialSlice id ns]) := by
  have hnew : id ∉ edit.slices.map (·.id) := by
    intro hmem
    rcases List.mem_map.mp hmem with ⟨t, ht, rfl⟩
    exact hfresh (h.used t ht)
  have hold : id ∉ before.map (·.id) := by
    intro hmem
    apply hnew
    rw [h.slices, List.map_append, map_id_replanned]
    exact List.mem_append_left _ hmem
  constructor
  · show edit.slices ++ [initialSlice id ns] = _
    rw [h.slices, replanned_unnamed, List.append_assoc]
    intro s hs hnamed
    rw [<- hid s.id hnamed] at hold
    exact hold (List.mem_map.mpr ⟨s, hs, rfl⟩)
  · intro t ht
    rcases List.mem_append.mp ht with hin | hlast
    · exact h.pending t hin
    · rw [List.mem_singleton.mp hlast]
      exact ⟨rfl, hold⟩
  · intro t ht
    rcases List.mem_append.mp ht with hin | hlast
    · exact List.mem_cons_of_mem _ (h.used t hin)
    · rw [List.mem_singleton.mp hlast]
      exact List.mem_cons_self ..
  · show ((edit.slices ++ [initialSlice id ns]).map
      fun s : ThreadSlice => s.id).Nodup
    rw [List.map_append, List.nodup_append]
    refine ⟨h.unique, List.nodup_singleton _, ?_⟩
    intro a ha b hb hsame
    rw [List.mem_singleton.mp hb] at hsame
    rw [hsame] at ha
    exact hnew ha
  · show edit.addedIds ++ [id] = _
    rw [h.addedIds, List.map_append]
    rfl
  · intro t ht hsome
    show t.id ∈ writtenWith edit.writtenDependsOnIds id ns
    rcases List.mem_append.mp ht with hin | hlast
    · exact writtenWith_mono (h.writtenAdded t hin hsome)
    · rw [List.mem_singleton.mp hlast] at hsome ⊢
      exact mem_writtenWith hsome
  · apply writtenNamed_step h.writtenNamed
    · intro other hother
      exact writtenWith_mono hother
    · intro name hname hsome
      rw [hid name hname]
      exact mem_writtenWith hsome

theorem map_id_replaceById
    {slices : List ThreadSlice} {id : String} {f : ThreadSlice -> ThreadSlice}
    (hf : forall s : ThreadSlice, (f s).id = s.id) :
    (replaceById slices id f).map (·.id) = slices.map (·.id) := by
  unfold replaceById
  rw [List.map_map]
  apply List.map_congr_left
  intro s _
  simp only [Function.comp_apply]
  split
  · exact hf s
  · rfl

theorem refreshedSlice_id (ns : SliceInput) (s : ThreadSlice) :
    (refreshedSlice ns s).id = s.id :=
  (refreshedSlice_head ns s).right.left

theorem refreshedSlice_depends_on (ns : SliceInput) (s : ThreadSlice) :
    (refreshedSlice ns s).depends_on = ns.depends_on.or s.depends_on := by
  unfold refreshedSlice
  dsimp only
  generalize (if ns.title = "" then s.title else ns.title) = title
  split
  · rfl
  · rfl

theorem Replanning.refresh
    {host : Host} {marker : String} {newSlices read later : List SliceInput}
    {ns : SliceInput} {before added : List ThreadSlice}
    {edit : TopologyEdit ThreadClaimRef} {id : String}
    (h : Replanning host marker newSlices read before edit added)
    (hsplit : newSlices = read ++ ns :: later)
    (hdiffer : NamesDiffer newSlices)
    (hid : Text.truthy ns.id = some id) :
    Replanning host marker newSlices (read ++ [ns]) before
      { edit with
        slices := replaceById edit.slices id (refreshedSlice ns)
        writtenDependsOnIds := writtenWith edit.writtenDependsOnIds id ns }
      (replaceById added id (refreshedSlice ns)) := by
  have hmem : ns ∈ newSlices := by
    rw [hsplit]
    simp
  rw [hsplit] at hdiffer
  have hnone := namedBy_none hdiffer hid
  constructor
  · show replaceById edit.slices id (refreshedSlice ns) = _
    rw [h.slices]
    unfold replaceById
    rw [List.map_append, List.map_map]
    congr 1
    apply List.map_congr_left
    intro s _
    simp only [Function.comp_apply]
    rw [replannedSlice_id]
    by_cases hs : s.id = id
    · have hnamed : Text.truthy ns.id = some s.id := by
        rw [hid, hs]
      have hkept := @not_dropped_of_named host _ _ _ hmem hnamed
      rw [if_pos hs]
      unfold replannedSlice
      rw [hkept, namedBy_append, hs, hnone, Option.none_or, if_pos hid]
      rfl
    · rw [if_neg hs]
      unfold replannedSlice
      rw [namedBy_append]
      have hother : ¬ Text.truthy ns.id = some s.id := by
        rw [hid]
        intro hsame
        exact hs (Option.some.inj hsame).symm
      rw [if_neg hother, Option.or_none]
  · intro t ht
    rcases List.mem_map.mp ht with ⟨u, hu, rfl⟩
    have hpending := h.pending u hu
    split
    · rw [refreshedSlice_id, (refreshedSlice_head ns u).left]
      exact hpending
    · exact hpending
  · intro t ht
    rcases List.mem_map.mp ht with ⟨u, hu, rfl⟩
    have hused := h.used u hu
    split
    · rw [refreshedSlice_id]
      exact hused
    · exact hused
  · show ((replaceById edit.slices id (refreshedSlice ns)).map (·.id)).Nodup
    rw [map_id_replaceById (refreshedSlice_id ns)]
    exact h.unique
  · show edit.addedIds = _
    rw [h.addedIds, map_id_replaceById (refreshedSlice_id ns)]
  · intro t ht hsome
    rcases List.mem_map.mp ht with ⟨u, hu, rfl⟩
    by_cases hname : u.id = id
    · rw [if_pos hname] at hsome ⊢
      rw [refreshedSlice_depends_on] at hsome
      rw [refreshedSlice_id]
      cases hdepends : ns.depends_on with
      | none =>
          rw [hdepends, Option.none_or] at hsome
          exact writtenWith_mono (h.writtenAdded u hu hsome)
      | some ids =>
          rw [hname]
          exact mem_writtenWith (by rw [hdepends]; rfl)
    · rw [if_neg hname] at hsome ⊢
      exact writtenWith_mono (h.writtenAdded u hu hsome)
  · apply writtenNamed_step h.writtenNamed
    · intro other hother
      exact writtenWith_mono hother
    · intro name hname hsome
      rw [hid] at hname
      rw [<- Option.some.inj hname]
      exact mem_writtenWith hsome

/-!
## The loop
-/

/-- What an entry does at its turn. -/
inductive EntryStep (host : Host) (edit : TopologyEdit ThreadClaimRef)
    (ns : SliceInput) : TopologyEdit ThreadClaimRef -> Prop where
  | matched (live : edit.slices.any (matchesLive host ns) = true)
      (unnamed : Text.truthy ns.id = none) : EntryStep host edit ns edit
  | refreshed {id : String}
      (live : edit.slices.any (matchesLive host ns) = true)
      (named : Text.truthy ns.id = some id) :
      EntryStep host edit ns
        { edit with
          slices := replaceById edit.slices id (refreshedSlice ns)
          writtenDependsOnIds := writtenWith edit.writtenDependsOnIds id ns }
  | appended {id : String}
      (unmatched : edit.slices.any (matchesLive host ns) = false)
      (fresh : id ∉ edit.usedIds)
      (named : forall name, Text.truthy ns.id = some name -> name = id) :
      EntryStep host edit ns (edit.append id ns)

theorem replanEntry_step
    {host : Host} {edit edit' : TopologyEdit ThreadClaimRef} {ns : SliceInput}
    (h : replanEntry host edit ns = Except.ok edit') :
    EntryStep host edit ns edit' := by
  unfold replanEntry at h
  by_cases hlive : edit.slices.any (matchesLive host ns) = true
  · rw [if_pos hlive] at h
    cases hid : Text.truthy ns.id with
    | none =>
        rw [hid] at h
        cases h
        exact EntryStep.matched hlive hid
    | some id =>
        rw [hid] at h
        rcases except_bind_ok h with ⟨_, _, hrest⟩
        cases hrest
        exact EntryStep.refreshed hlive hid
  · rw [if_neg hlive] at h
    have hunmatched := (Bool.not_eq_true _).mp hlive
    cases hid : Text.truthy ns.id with
    | none =>
        rw [hid] at h
        rcases except_bind_ok h with ⟨_, _, hrest⟩
        cases hrest
        apply EntryStep.appended hunmatched (slugifySliceId_free _ _ _)
        intro name hname
        rw [hid] at hname
        cases hname
    | some id =>
        rw [hid] at h
        dsimp only at h
        by_cases hused : id ∈ edit.usedIds
        · rw [if_pos hused] at h
          cases h
        · rw [if_neg hused] at h
          rcases except_bind_ok h with ⟨_, _, hrest⟩
          cases hrest
          apply EntryStep.appended hunmatched hused
          intro name hname
          rw [hid] at hname
          exact (Option.some.inj hname).symm

theorem Replanning.step
    {host : Host} {marker : String} {newSlices read later : List SliceInput}
    {ns : SliceInput} {before added : List ThreadSlice}
    {edit edit' : TopologyEdit ThreadClaimRef}
    (h : Replanning host marker newSlices read before edit added)
    (hsplit : newSlices = read ++ ns :: later)
    (hdiffer : NamesDiffer newSlices)
    (hstep : EntryStep host edit ns edit') :
    exists added', Replanning host marker newSlices (read ++ [ns]) before edit'
      added' := by
  cases hstep with
  | matched live unnamed =>
      refine ⟨added, ?_, h.pending, h.used, h.unique, h.addedIds,
        h.writtenAdded, ?_⟩
      · rw [h.slices, replanned_unnamed]
        intro s _ hnamed
        rw [unnamed] at hnamed
        cases hnamed
      · apply writtenNamed_step h.writtenNamed (fun _ hid => hid)
        intro id hnamed
        rw [unnamed] at hnamed
        cases hnamed
  | refreshed live named =>
      exact ⟨_, h.refresh hsplit hdiffer named⟩
  | appended unmatched fresh named =>
      exact ⟨_, h.append fresh named⟩

theorem Replanning.run
    {host : Host} {marker : String}
    {newSlices read more later : List SliceInput}
    {before added : List ThreadSlice}
    {edit edit' : TopologyEdit ThreadClaimRef}
    (h : Replanning host marker newSlices read before edit added)
    (hsplit : newSlices = read ++ more ++ later)
    (hdiffer : NamesDiffer newSlices)
    (hrun : more.foldlM (replanEntry host) edit = Except.ok edit') :
    exists added', Replanning host marker newSlices (read ++ more) before edit'
      added' := by
  induction more generalizing read edit added with
  | nil =>
      cases hrun
      rw [List.append_nil]
      exact ⟨added, h⟩
  | cons ns more ih =>
      rw [List.foldlM_cons] at hrun
      rcases except_bind_ok hrun with ⟨next, hnext, hrest⟩
      have hsplit' : newSlices = read ++ ns :: (more ++ later) := by
        rw [hsplit, List.append_assoc]
        rfl
      rcases h.step hsplit' hdiffer (replanEntry_step hnext) with
        ⟨added', hread⟩
      have hlater : newSlices = read ++ [ns] ++ more ++ later := by
        rw [hsplit']
        simp
      have hdone := ih hread hlater hrest
      rw [List.append_assoc] at hdone
      exact hdone

/-!
## What lasts

The entries that are still to be read leave a slice under its identifier and in
its status, and they change it only if one of them names it.
-/

def Lasts (later : List SliceInput) (slices slices' : List ThreadSlice) :
    Prop :=
  forall t, t ∈ slices -> exists u, u ∈ slices' ∧ u.id = t.id ∧
    u.status = t.status ∧
    ((forall ns, ns ∈ later -> Text.truthy ns.id ≠ some t.id) -> u = t)

theorem lasts_step
    {host : Host} {edit edit' : TopologyEdit ThreadClaimRef} {ns : SliceInput}
    (hstep : EntryStep host edit ns edit') :
    Lasts [ns] edit.slices edit'.slices := by
  intro t ht
  cases hstep with
  | matched live unnamed =>
      exact ⟨t, ht, rfl, rfl, fun _ => rfl⟩
  | @refreshed id live named =>
      refine ⟨_, List.mem_map.mpr ⟨t, ht, rfl⟩, ?_⟩
      by_cases hid : t.id = id
      · rw [if_pos hid]
        refine ⟨refreshedSlice_id ns t, (refreshedSlice_head ns t).left, ?_⟩
        intro hunnamed
        exfalso
        apply hunnamed ns (List.mem_singleton.mpr rfl)
        rw [named, hid]
      · rw [if_neg hid]
        exact ⟨rfl, rfl, fun _ => rfl⟩
  | appended unmatched fresh named =>
      exact ⟨t, List.mem_append_left _ ht, rfl, rfl, fun _ => rfl⟩

theorem lasts_run
    {host : Host} {later : List SliceInput}
    {edit edit' : TopologyEdit ThreadClaimRef}
    (hrun : later.foldlM (replanEntry host) edit = Except.ok edit') :
    Lasts later edit.slices edit'.slices := by
  induction later generalizing edit with
  | nil =>
      cases hrun
      intro t ht
      exact ⟨t, ht, rfl, rfl, fun _ => rfl⟩
  | cons ns later ih =>
      rw [List.foldlM_cons] at hrun
      rcases except_bind_ok hrun with ⟨next, hnext, hrest⟩
      intro t ht
      rcases lasts_step (replanEntry_step hnext) t ht with
        ⟨u, hu, hid, hstatus, hsame⟩
      rcases ih hrest u hu with ⟨w, hw, hid', hstatus', hsame'⟩
      refine ⟨w, hw, hid'.trans hid, hstatus'.trans hstatus, ?_⟩
      intro hunnamed
      have hut : u = t := by
        apply hsame
        intro other hother
        rw [List.mem_singleton.mp hother]
        exact hunnamed ns (List.mem_cons_self ..)
      rw [hut] at hsame'
      apply hsame'
      intro other hother
      exact hunnamed other (List.mem_cons_of_mem _ hother)

/-- A replacement is recorded only on what has been superseded. -/
theorem lasts_stampReplacedBy
    {marker : String} {supersededIds addedIds : List String}
    {slices : List ThreadSlice} {t : ThreadSlice} (ht : t ∈ slices) :
    exists u, u ∈ stampReplacedBy marker supersededIds addedIds slices ∧
      u.id = t.id ∧ u.status = t.status ∧
      (t.status ≠ PlanSliceStatus.superseded -> u = t) := by
  unfold stampReplacedBy
  by_cases hidle : (supersededIds.isEmpty || addedIds.isEmpty) = true
  · rw [if_pos hidle]
    exact ⟨t, ht, rfl, rfl, fun _ => rfl⟩
  · rw [if_neg hidle]
    refine ⟨_, List.mem_map.mpr ⟨t, ht, rfl⟩, ?_⟩
    split
    · rename_i hstamp
      exact ⟨rfl, rfl, fun hlive => absurd hstamp.right.left hlive⟩
    · exact ⟨rfl, rfl, fun _ => rfl⟩

/-!
## What the entries land
-/

/-- The slices ask for other work, or one of them has been superseded. -/
def Changed (s t : ThreadSlice) : Prop :=
  t.title ≠ s.title ∨ t.gate ≠ s.gate ∨
    sameStringSet t.depends_on s.depends_on = false ∨ t.status ≠ s.status

/-- An old slice after the replan. -/
structure OldSlice (host : Host) (newSlices : List SliceInput)
    (s t : ThreadSlice) : Prop where
  id : t.id = s.id
  evidence : t.evidence = s.evidence
  resolved : s.status.isResolved = true -> t.status = s.status
  proposed : s.status.isResolved = false ->
    stillProposed host newSlices s = true -> t.status = s.status
  omitted : s.status.isResolved = false ->
    stillProposed host newSlices s = false ->
      t.status = PlanSliceStatus.superseded
  changed : Changed s t ->
    t.generation = some (s.requireGeneration + 1) ∧ t.claim = none
  same : ¬ Changed s t -> t.generation = s.generation ∧ t.claim = s.claim

/-- A slice that lives on under its identifier. -/
def LivesIn (slices : List ThreadSlice) (id : String)
    (P : ThreadSlice -> Prop) : Prop :=
  exists t, t ∈ slices ∧ t.id = id ∧
    t.status ≠ PlanSliceStatus.superseded ∧ P t

/-- What has been given is what the slice has. -/
structure Carries (ns : SliceInput) (t : ThreadSlice) : Prop where
  title : ns.title ≠ "" -> t.title = ns.title
  gate : forall gate, ns.gate = some gate -> t.gate = some gate
  depends_on : forall ids, ns.depends_on = some ids -> t.depends_on = some ids

/-- An entry against the slices at its turn and in the end. -/
structure EntryLands (host : Host) (ns : SliceInput) (later : List SliceInput)
    (turn after : List ThreadSlice) : Prop where
  new : turn.any (matchesLive host ns) = false ->
    exists id, id ∉ turn.map (·.id) ∧
      (forall name, Text.truthy ns.id = some name -> id = name) ∧
      LivesIn after id fun t =>
        (forall other, other ∈ later -> Text.truthy other.id ≠ some id) ->
          t = initialSlice id ns
  named : forall s, s ∈ turn -> s.status ≠ PlanSliceStatus.superseded ->
    Text.truthy ns.id = some s.id -> LivesIn after s.id (Carries ns)
  titled : forall s, s ∈ turn -> matchesLive host ns s = true ->
    LivesIn after s.id fun _ => True

structure ReplanLaw (host : Host) (newSlices : List SliceInput)
    (before after : List ThreadSlice) : Prop where
  history : exists kept added, after = kept ++ added ∧
    List.Forall₂ (OldSlice host newSlices) before kept ∧
    forall t, t ∈ added -> t.status = PlanSliceStatus.pending
  unique : (after.map (·.id)).Nodup
  entries : forall read ns later, newSlices = read ++ ns :: later ->
    exists turn, EntryLands host ns later turn after ∧
      forall s, s ∈ before -> s.status ≠ PlanSliceStatus.superseded ->
        Text.truthy ns.id = some s.id -> s ∈ turn

theorem sameStringSet_refl (ids : Option (List String)) :
    sameStringSet ids ids = true := by
  unfold sameStringSet
  exact decide_eq_true rfl

theorem oldSlice_refl
    {host : Host} {newSlices : List SliceInput} {s : ThreadSlice}
    (hkept : replanDrops host newSlices s = false) :
    OldSlice host newSlices s s := by
  have hsame : ¬ Changed s s := by
    intro hchanged
    rcases hchanged with htitle | hgate | hdepends | hstatus
    · exact htitle rfl
    · exact hgate rfl
    · rw [sameStringSet_refl] at hdepends
      cases hdepends
    · exact hstatus rfl
  constructor
  · rfl
  · rfl
  · intro _
    rfl
  · intro _ _
    rfl
  · intro hopen homitted
    unfold replanDrops at hkept
    rw [hopen, homitted] at hkept
    cases hkept
  · intro hchanged
    exact absurd hchanged hsame
  · intro _
    exact ⟨rfl, rfl⟩

theorem oldSlice_superseded
    {host : Host} {newSlices : List SliceInput} {s : ThreadSlice}
    (marker : String) (hdrops : replanDrops host newSlices s = true) :
    OldSlice host newSlices s (supersede marker s) := by
  unfold replanDrops at hdrops
  simp only [Bool.and_eq_true, Bool.not_eq_true'] at hdrops
  have hstatus : (supersede marker s).status ≠ s.status := by
    intro hsame
    have hopen := hdrops.right
    rw [<- hsame] at hopen
    cases hopen
  constructor
  · rfl
  · rfl
  · intro hresolved
    rw [hdrops.right] at hresolved
    cases hresolved
  · intro _ hproposed
    rw [hdrops.left] at hproposed
    cases hproposed
  · intro _ _
    rfl
  · intro _
    exact ⟨rfl, rfl⟩
  · intro hsame
    exact absurd (Or.inr (Or.inr (Or.inr hstatus))) hsame

/-- The generation of a refreshed slice goes up exactly with its meaning. -/
theorem refreshedSlice_cases (ns : SliceInput) (s : ThreadSlice) :
    exists t : ThreadSlice,
      t = { s with
        title := if ns.title = "" then s.title else ns.title
        gate := ns.gate.or s.gate
        depends_on := ns.depends_on.or s.depends_on } ∧
      (Changed s t ∧ refreshedSlice ns s = invalidateSliceGeneration t ∨
        ¬ Changed s t ∧ refreshedSlice ns s = t) := by
  refine ⟨_, rfl, ?_⟩
  unfold refreshedSlice Changed
  dsimp only
  generalize (if ns.title = "" then s.title else ns.title) = title
  split
  · rename_i hchanged
    left
    refine ⟨?_, rfl⟩
    rcases hchanged with htitle | hgate | hdepends
    · exact Or.inl htitle
    · exact Or.inr (Or.inl hgate)
    · exact Or.inr (Or.inr (Or.inl hdepends))
  · rename_i hsame
    right
    refine ⟨?_, rfl⟩
    intro hchanged
    rcases hchanged with htitle | hgate | hdepends | hstatus
    · exact hsame (Or.inl htitle)
    · exact hsame (Or.inr (Or.inl hgate))
    · exact hsame (Or.inr (Or.inr hdepends))
    · exact hstatus rfl

theorem oldSlice_refreshed
    {host : Host} {newSlices : List SliceInput} {s : ThreadSlice}
    (ns : SliceInput) (hkept : replanDrops host newSlices s = false) :
    OldSlice host newSlices s (refreshedSlice ns s) := by
  have hrefl := oldSlice_refl hkept
  rcases refreshedSlice_cases ns s with ⟨t, ht, ⟨hchanged, hr⟩ | ⟨hsame, hr⟩⟩
  · have hchanged' : Changed s (invalidateSliceGeneration t) := hchanged
    rw [hr]
    rw [ht] at hchanged' ⊢
    exact ⟨rfl, rfl, hrefl.resolved, hrefl.proposed, hrefl.omitted,
      fun _ => ⟨rfl, rfl⟩, fun hsame => absurd hchanged' hsame⟩
  · rw [hr]
    rw [ht] at hsame ⊢
    exact ⟨rfl, rfl, hrefl.resolved, hrefl.proposed, hrefl.omitted,
      fun hchanged => absurd hchanged hsame, fun _ => ⟨rfl, rfl⟩⟩

theorem carries_refreshed (ns : SliceInput) (s : ThreadSlice) :
    Carries ns (refreshedSlice ns s) := by
  have hfields : forall t : ThreadSlice,
      t = { s with
        title := if ns.title = "" then s.title else ns.title
        gate := ns.gate.or s.gate
        depends_on := ns.depends_on.or s.depends_on } ->
      Carries ns t := by
    intro t ht
    rw [ht]
    constructor
    · intro htitle
      exact if_neg htitle
    · intro gate hgate
      show ns.gate.or s.gate = some gate
      rw [hgate]
      rfl
    · intro ids hids
      show ns.depends_on.or s.depends_on = some ids
      rw [hids]
      rfl
  rcases refreshedSlice_cases ns s with ⟨t, ht, ⟨_, hr⟩ | ⟨_, hr⟩⟩
  · have hcarries := hfields t ht
    rw [hr]
    exact ⟨hcarries.title, hcarries.gate, hcarries.depends_on⟩
  · rw [hr]
    exact hfields t ht

theorem oldSlice_replanned
    (host : Host) (marker : String) (newSlices read : List SliceInput)
    (s : ThreadSlice) :
    OldSlice host newSlices s
      (replannedSlice host marker newSlices read s) := by
  unfold replannedSlice
  cases hdrops : replanDrops host newSlices s with
  | true => exact oldSlice_superseded marker hdrops
  | false =>
      show OldSlice host newSlices s (match namedBy read s.id with
        | none => s
        | some ns => refreshedSlice ns s)
      cases namedBy read s.id with
      | none => exact oldSlice_refl hdrops
      | some ns => exact oldSlice_refreshed ns hdrops

theorem OldSlice.stamped
    {host : Host} {newSlices : List SliceInput} {s t : ThreadSlice}
    (h : OldSlice host newSlices s t) (added : Option (List String)) :
    OldSlice host newSlices s { t with replaced_by := added } :=
  ⟨h.id, h.evidence, h.resolved, h.proposed, h.omitted, h.changed, h.same⟩

/-!
## The whole call
-/

def replanStart (host : Host) (marker : String) (newSlices : List SliceInput)
    (before : List ThreadSlice) : TopologyEdit ThreadClaimRef :=
  let kept := before.map fun s =>
    if replanDrops host newSlices s then supersede marker s else s
  { slices := kept
    usedIds := kept.map (·.id)
    addedIds := []
    writtenDependsOnIds := [] }

/-- The parts of a call that has succeeded. -/
structure ReplanParts (host : Host) (newSlices : List SliceInput)
    (plan next : ThreadPlan) (marker : String)
    (edit : TopologyEdit ThreadClaimRef) : Prop where
  unique : (plan.slices.map (·.id)).Nodup
  differ : NamesDiffer newSlices
  run : newSlices.foldlM (replanEntry host)
    (replanStart host marker newSlices plan.slices) = Except.ok edit
  slices : next.slices = stampReplacedBy marker
    ((plan.slices.filter (replanDrops host newSlices)).map (·.id))
    edit.addedIds edit.slices
  live : assertWrittenDependsOnTargetsLive "replan" plan.slices next.slices
    edit.writtenDependsOnIds = Except.ok ()

theorem assertUniqueExplicitSliceIds_ok
    {newSlices : List SliceInput} {context : String}
    (h : assertUniqueExplicitSliceIds newSlices context = Except.ok ()) :
    NamesDiffer newSlices := by
  unfold assertUniqueExplicitSliceIds at h
  split at h
  · cases h
  · rename_i hnone
    exact (firstDuplicate_none hnone).1

theorem replan_parts
    {host : Host} {plan next : ThreadPlan} {newSlices : List SliceInput}
    {wall : String}
    (h : replan host plan newSlices wall = Except.ok next) :
    exists marker edit, ReplanParts host newSlices plan next marker edit := by
  rcases except_bind_ok h with ⟨_, hunique, h⟩
  rcases except_bind_ok h with ⟨_, hdiffer, h⟩
  rcases except_bind_ok h with ⟨edit, hrun, h⟩
  rcases except_bind_ok h with ⟨_, hlive, h⟩
  cases h
  exact ⟨_, edit, assertUniqueSliceIds_ok hunique,
    assertUniqueExplicitSliceIds_ok hdiffer, hrun, rfl, hlive⟩

theorem replanning_start
    (host : Host) (marker : String) (newSlices : List SliceInput)
    {before : List ThreadSlice} (h : (before.map (·.id)).Nodup) :
    Replanning host marker newSlices [] before
      (replanStart host marker newSlices before) [] := by
  have hslices : (replanStart host marker newSlices before).slices =
      before.map (replannedSlice host marker newSlices []) := by
    apply List.map_congr_left
    intro s _
    rfl
  constructor
  · rw [hslices, List.append_nil]
  · intro t ht
    cases ht
  · intro t ht
    exact List.mem_map.mpr ⟨t, ht, rfl⟩
  · rw [hslices, map_id_replanned]
    exact h
  · rfl
  · intro t ht
    cases ht
  · intro ns id hns
    cases hns

theorem map_id_stampReplacedBy
    (marker : String) (supersededIds addedIds : List String)
    (slices : List ThreadSlice) :
    (stampReplacedBy marker supersededIds addedIds slices).map (·.id) =
      slices.map (·.id) := by
  unfold stampReplacedBy
  split
  · rfl
  · rw [List.map_map]
    apply List.map_congr_left
    intro s _
    simp only [Function.comp_apply]
    split
    · rfl
    · rfl

/-- The stamps, as a function of each slice. -/
def stampedSlice (marker : String) (supersededIds addedIds : List String)
    (slice : ThreadSlice) : ThreadSlice :=
  if supersededIds.isEmpty || addedIds.isEmpty then slice
  else if slice.id ∈ supersededIds ∧
      slice.status = PlanSliceStatus.superseded ∧
      slice.superseded_by = some marker then
    { slice with replaced_by := some addedIds }
  else
    slice

theorem stampReplacedBy_eq
    (marker : String) (supersededIds addedIds : List String)
    (slices : List ThreadSlice) :
    stampReplacedBy marker supersededIds addedIds slices =
      slices.map (stampedSlice marker supersededIds addedIds) := by
  unfold stampReplacedBy stampedSlice
  by_cases hidle : (supersededIds.isEmpty || addedIds.isEmpty) = true
  · simp only [if_pos hidle]
    exact (List.map_id slices).symm
  · simp only [if_neg hidle]

theorem stampedSlice_cases
    (marker : String) (supersededIds addedIds : List String)
    (slice : ThreadSlice) :
    stampedSlice marker supersededIds addedIds slice = slice ∨
      slice.status = PlanSliceStatus.superseded ∧
        stampedSlice marker supersededIds addedIds slice =
          { slice with replaced_by := some addedIds } := by
  unfold stampedSlice
  split
  · exact Or.inl rfl
  · split
    · rename_i hstamp
      exact Or.inr ⟨hstamp.right.left, rfl⟩
    · exact Or.inl rfl

theorem entryLands_of_run
    {host : Host} {ns : SliceInput} {read later : List SliceInput}
    {turn next last : TopologyEdit ThreadClaimRef} {after : List ThreadSlice}
    (hdiffer : NamesDiffer (read ++ ns :: later))
    (hstep : EntryStep host turn ns next)
    (hrun : later.foldlM (replanEntry host) next = Except.ok last)
    (hused : forall t, t ∈ turn.slices -> t.id ∈ turn.usedIds)
    (hafter : forall t, t ∈ last.slices -> exists u, u ∈ after ∧ u.id = t.id ∧
      u.status = t.status ∧
      (t.status ≠ PlanSliceStatus.superseded -> u = t)) :
    EntryLands host ns later turn.slices after := by
  -- What is alive after the turn is alive in the end.
  have hlasts : forall t, t ∈ next.slices ->
      t.status ≠ PlanSliceStatus.superseded ->
      LivesIn after t.id fun u =>
        (forall other, other ∈ later -> Text.truthy other.id ≠ some t.id) ->
          u = t := by
    intro t ht hlive
    rcases lasts_run hrun t ht with ⟨u, hu, hid, hstatus, hsame⟩
    rcases hafter u hu with ⟨w, hw, hid', hstatus', hsame'⟩
    refine ⟨w, hw, hid'.trans hid, ?_, ?_⟩
    · rw [hstatus', hstatus]
      exact hlive
    · intro hunnamed
      have hut := hsame hunnamed
      rw [hut] at hsame'
      exact hsame' hlive
  constructor
  · intro hunmatched
    cases hstep with
    | matched live unnamed =>
        rw [live] at hunmatched
        cases hunmatched
    | refreshed live named =>
        rw [live] at hunmatched
        cases hunmatched
    | @appended id unmatched fresh named =>
        refine ⟨id, ?_, ?_, ?_⟩
        · intro hmem
          rcases List.mem_map.mp hmem with ⟨t, ht, hid⟩
          rw [<- hid] at fresh
          exact fresh (hused t ht)
        · intro name hname
          exact (named name hname).symm
        · apply hlasts (initialSlice id ns)
          · exact List.mem_append_right _ (List.mem_singleton.mpr rfl)
          · intro hstatus
            cases hstatus
  · intro s hs hlive hnamed
    have hmatches : turn.slices.any (matchesLive host ns) = true := by
      apply List.any_eq_true.mpr
      refine ⟨s, hs, ?_⟩
      simp [matchesLive, hlive, hnamed]
    cases hstep with
    | matched live unnamed =>
        rw [unnamed] at hnamed
        cases hnamed
    | @refreshed id live named =>
        have hid : s.id = id := by
          rw [hnamed] at named
          exact Option.some.inj named
        have hmem : refreshedSlice ns s ∈
            replaceById turn.slices id (refreshedSlice ns) := by
          apply List.mem_map.mpr
          exact ⟨s, hs, if_pos hid⟩
        have hstatus : (refreshedSlice ns s).status ≠
            PlanSliceStatus.superseded := by
          rw [(refreshedSlice_head ns s).left]
          exact hlive
        rcases hlasts _ hmem hstatus with ⟨u, hu, huid, hulive, husame⟩
        rw [refreshedSlice_id] at huid husame
        refine ⟨u, hu, huid, hulive, ?_⟩
        rw [husame]
        · exact carries_refreshed ns s
        · intro other hother
          exact not_named_later hdiffer hnamed hother
    | appended unmatched fresh named =>
        rw [unmatched] at hmatches
        cases hmatches
  · intro s hs hmatches
    have hlive : s.status ≠ PlanSliceStatus.superseded := by
      unfold matchesLive at hmatches
      simp only [Bool.and_eq_true, decide_eq_true_eq] at hmatches
      exact hmatches.left
    rcases lasts_step hstep s hs with ⟨t, ht, hid, hstatus, _⟩
    have htlive : t.status ≠ PlanSliceStatus.superseded := by
      rw [hstatus]
      exact hlive
    rcases hlasts t ht htlive with ⟨u, hu, huid, hulive, _⟩
    exact ⟨u, hu, huid.trans hid, hulive, True.intro⟩

def titledPlan : ThreadPlan :=
  { plainPlan with
    slices := [initialSlice "a" (plainSlice "a" "Build"),
      initialSlice "c" (plainSlice "c" "Ship")] }

def titledEntry : SliceInput :=
  { plainSlice "b" "Build" with gate := some "tests" }

/-- Every entry gets a live slice under its identifier and with its gate. -/
def EveryEntryLands (host : Host) : Prop :=
  forall (plan next : ThreadPlan) (newSlices : List SliceInput) (wall : String),
    replan host plan newSlices wall = Except.ok next ->
      forall ns, ns ∈ newSlices -> exists t, t ∈ next.slices ∧
        t.status ≠ PlanSliceStatus.superseded ∧
        (forall id, Text.truthy ns.id = some id -> t.id = id) ∧
        (forall gate, ns.gate = some gate -> t.gate = some gate)

/-- A generation only moves with the title, the gate or the dependencies. -/
def GenerationsFollowMeaning (host : Host) : Prop :=
  forall (plan next : ThreadPlan) (newSlices : List SliceInput) (wall : String),
    replan host plan newSlices wall = Except.ok next ->
      forall s t, s ∈ plan.slices -> t ∈ next.slices -> t.id = s.id ->
        t.title = s.title -> t.gate = s.gate ->
        t.depends_on = s.depends_on -> t.generation = s.generation

theorem replan_titledPlan :
    exists next : ThreadPlan,
      replan plainHost titledPlan [titledEntry] "now" = Except.ok next ∧
        next.slices =
          [initialSlice "a" (plainSlice "a" "Build"),
            supersede (replanMarker plainHost (Json.arr [Json.str "Build"]))
              (initialSlice "c" (plainSlice "c" "Ship"))] := by
  have hrun : (match replan plainHost titledPlan [titledEntry] "now" with
      | Except.ok next =>
          decide (next.slices =
            [initialSlice "a" (plainSlice "a" "Build"),
              supersede (replanMarker plainHost (Json.arr [Json.str "Build"]))
                (initialSlice "c" (plainSlice "c" "Ship"))])
      | Except.error _ => false) = true := by
    decide +kernel
  cases hreplan : replan plainHost titledPlan [titledEntry] "now" with
  | error text =>
      rw [hreplan] at hrun
      cases hrun
  | ok next =>
      rw [hreplan] at hrun
      exact ⟨next, rfl, of_decide_eq_true hrun⟩

end Thread
end Minni
