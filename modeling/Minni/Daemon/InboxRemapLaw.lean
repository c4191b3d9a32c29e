import Mathlib.Algebra.Ring.Nat
import Minni.Daemon.InboxSlotsLaw
import Mathlib.Algebra.BigOperators.Group.List.Basic

/-!
# Rows that were remapped stay where they are

The rows of a file that were kept have new hashes at free indices of their own,
so the first pass gives each of them what it has.  No file is looked at twice in
one call, and rows that come file by file are grouped as they come.
-/

namespace Minni
namespace Daemon

open Foundation

/-!
## One file once more
-/

section Remap

variable (contentSha1 : String -> String)

theorem keepAssigned_indices (rows : List (InboxRow × Option Int)) :
    (keepAssigned rows).1.map InboxRow.candidate_index =
      (rows.map (·.2)).filterMap id := by
  induction rows with
  | nil => rfl
  | cons entry rest ih =>
      rcases entry with ⟨row, assigned⟩
      cases assigned with
      | none => exact ih
      | some new_idx => exact congrArg (new_idx :: ·) ih

theorem keepAssigned_shas (rows : List (InboxRow × Option Int)) :
    (keepAssigned rows).1.map (fun row => contentSha1 row.content) =
      (rows.filter (·.2.isSome)).map fun entry =>
        contentSha1 entry.1.content := by
  induction rows with
  | nil => rfl
  | cons entry rest ih =>
      rcases entry with ⟨row, assigned⟩
      cases assigned with
      | none => exact ih
      | some new_idx => exact congrArg (contentSha1 row.content :: ·) ih

theorem keepAssigned_key {rows : List (InboxRow × Option Int)}
    {kept : InboxRow} (h : kept ∈ (keepAssigned rows).1) :
    exists entry, entry ∈ rows ∧ kept.key = entry.1.key := by
  induction rows with
  | nil => cases h
  | cons entry rest ih =>
      rcases entry with ⟨row, assigned⟩
      cases assigned with
      | none =>
          rcases ih h with ⟨entry, hentry, hkey⟩
          exact ⟨entry, List.mem_cons_of_mem _ hentry, hkey⟩
      | some new_idx =>
          rcases List.mem_cons.mp h with hsame | hrest
          · exact ⟨_, List.mem_cons_self .., by rw [hsame]; rfl⟩
          · rcases ih hrest with ⟨entry, hentry, hkey⟩
            exact ⟨entry, List.mem_cons_of_mem _ hentry, hkey⟩

/-- Every row that has its index keeps it. -/
theorem keepAssigned_same (rows : List InboxRow) :
    keepAssigned (rows.zip (rows.map fun row => some row.candidate_index)) =
      (rows, 0) := by
  induction rows with
  | nil => rfl
  | cons row rest ih =>
      rw [List.map_cons, List.zip_cons_cons, keepAssigned, ih]

theorem numberExtras_all_own {next_idx : Int} (requested : List FillRequest) :
    numberExtras next_idx
        ((requested.map fun _ => Placement.own).zip requested) =
      requested.map fun request => some request.1 := by
  induction requested with
  | nil => rfl
  | cons request rest ih => exact congrArg (some request.1 :: ·) ih

/-- What was kept of a file is kept as it is. -/
theorem remapFile_again (slot : Occupancy) (rows : List InboxRow) :
    (remapFile contentSha1 slot (remapFile contentSha1 slot rows).1.1).1 =
      ((remapFile contentSha1 slot rows).1.1, 0) := by
  have hkept : (remapFile contentSha1 slot rows).1.1 =
      (keepAssigned (rows.zip (assignFillIndices slot
        (rows.map (InboxRow.request contentSha1))).1)).1 := rfl
  generalize hrequested : rows.map (InboxRow.request contentSha1) = requested
    at hkept
  generalize hnow : (remapFile contentSha1 slot rows).1.1 = kept at hkept ⊢
  have hlength : (assignFillIndices slot requested).1.length =
      rows.length := by
    rw [(assignFillIndices_eq slot requested).left, numberExtras_length]
    have hplaced := congrArg List.length (placedOf_requests slot requested)
    rw [List.length_map] at hplaced
    rw [hplaced, ← hrequested, List.length_map]
  have hindices : kept.map InboxRow.candidate_index =
      (assignFillIndices slot requested).1.filterMap id := by
    rw [hkept, keepAssigned_indices,
      List.map_snd_zip (le_of_eq hlength)]
  have hshas : kept.map (fun row => contentSha1 row.content) =
      freshShas (placedOf slot requested) := by
    rw [hkept, keepAssigned_shas, ← assigned_shas, ← hrequested,
      List.zip_map_left, List.filter_map, List.map_map]
    rfl
  have hfst : (kept.map (InboxRow.request contentSha1)).map (·.1) =
      kept.map InboxRow.candidate_index := by
    rw [List.map_map]
    rfl
  have hsnd : (kept.map (InboxRow.request contentSha1)).map (·.2) =
      kept.map fun row => contentSha1 row.content := by
    rw [List.map_map]
    rfl
  rcases freshShas_placedOf slot requested with ⟨hfresh, hmem⟩
  have hown : (placeOwn slot (allOccupiedShas slot)
      (kept.map (InboxRow.request contentSha1))).1 =
      (kept.map (InboxRow.request contentSha1)).map fun _ =>
        Placement.own := by
    apply placeOwn_all_own
    · rw [hsnd, hshas]
      exact hfresh
    · intro sha hsha
      rw [hsnd, hshas] at hsha
      exact ((hmem sha).mp hsha).left
    · rw [hfst, hindices]
      exact assignFillIndices_distinct slot requested
    · intro idx hidx
      rw [hfst, hindices] at hidx
      rcases List.mem_filterMap.mp hidx with ⟨found, hfound, heq⟩
      have hsome : found = some idx := heq
      rw [hsome] at hfound
      exact assignFillIndices_free hfound
  have hassigned : (assignFillIndices slot
      (kept.map (InboxRow.request contentSha1))).1 =
      kept.map fun row => some row.candidate_index := by
    rw [(assignFillIndices_eq slot _).left, placedOf, hown,
      numberExtras_all_own, List.map_map]
    rfl
  show keepAssigned (kept.zip (assignFillIndices slot
    (kept.map (InboxRow.request contentSha1))).1) = (kept, 0)
  rw [hassigned]
  exact keepAssigned_same kept

end Remap

/-!
## Groups
-/

/-- Every group has the rows of its key, and no two have one key. -/
structure Grouped (groups : List (InboxKey × List InboxRow)) : Prop where
  nodup : (groups.map (·.1)).Nodup
  keyed : forall entry, entry ∈ groups -> forall row, row ∈ entry.2 ->
    row.key = entry.1

abbrev groupRow (grouped : List (InboxKey × List InboxRow)) (row : InboxRow) :
    List (InboxKey × List InboxRow) :=
  Dict.set row.key ((grouped.lookup row.key).getD [] ++ [row]) grouped

theorem grouped_groupRow {grouped : List (InboxKey × List InboxRow)}
    (h : Grouped grouped) (row : InboxRow) :
    Grouped (groupRow grouped row) where
  nodup := Dict.nodup_keys_set h.nodup
  keyed := by
    intro entry hentry other hother
    rcases Dict.mem_of_mem_set hentry with hnew | hold
    · rw [hnew] at hother ⊢
      rcases List.mem_append.mp hother with hbefore | hlast
      · cases hlookup : grouped.lookup row.key with
        | none =>
            rw [hlookup] at hbefore
            cases hbefore
        | some rows =>
            rw [hlookup] at hbefore
            exact h.keyed (row.key, rows) (Dict.mem_of_lookup hlookup) other
              hbefore
      · rw [List.mem_singleton.mp hlast]
    · exact h.keyed entry hold other hother

theorem grouped_groupRows (rows : List InboxRow) : Grouped (groupRows rows) := by
  have hrun : forall grouped, Grouped grouped ->
      Grouped (rows.foldl groupRow grouped) := by
    induction rows with
    | nil => exact fun grouped h => h
    | cons row rest ih => exact fun grouped h => ih _ (grouped_groupRow h row)
  exact hrun [] ⟨List.nodup_nil, fun entry h => absurd h List.not_mem_nil⟩

theorem lookup_append_last {grouped : List (InboxKey × List InboxRow)}
    {key : InboxKey} {rows : List InboxRow} (h : key ∉ grouped.map (·.1)) :
    (grouped ++ [(key, rows)]).lookup key = some rows := by
  rw [List.lookup_append, Dict.lookup_eq_none h]
  simp

theorem foldl_groupRow_block
    {grouped : List (InboxKey × List InboxRow)} {key : InboxKey}
    (habsent : key ∉ grouped.map (·.1)) (before rows : List InboxRow)
    (hkeyed : forall row, row ∈ rows -> row.key = key) :
    rows.foldl groupRow (grouped ++ [(key, before)]) =
      grouped ++ [(key, before ++ rows)] := by
  induction rows generalizing before with
  | nil => rw [List.foldl_nil, List.append_nil]
  | cons row rest ih =>
      have hkey := hkeyed row (List.mem_cons_self ..)
      have hstep : groupRow (grouped ++ [(key, before)]) row =
          grouped ++ [(key, before ++ [row])] := by
        unfold groupRow
        rw [hkey, lookup_append_last habsent, Dict.set_append_last habsent]
        rfl
      rw [List.foldl_cons, hstep,
        ih (before ++ [row]) fun other hother =>
          hkeyed other (List.mem_cons_of_mem _ hother),
        List.append_assoc, List.singleton_append]

/-- Rows that come group by group are grouped as they come. -/
theorem groupRows_blocks {blocks : List (InboxKey × List InboxRow)}
    (h : Grouped blocks) :
    groupRows (blocks.flatMap (·.2)) = blocks.filter (·.2 ≠ []) := by
  have hrun : forall grouped : List (InboxKey × List InboxRow),
      (forall key, key ∈ grouped.map (·.1) -> key ∉ blocks.map (·.1)) ->
      (blocks.flatMap (·.2)).foldl groupRow grouped =
        grouped ++ blocks.filter (·.2 ≠ []) := by
    induction blocks with
    | nil => exact fun grouped _ => (List.append_nil grouped).symm
    | cons block rest ih =>
        intro grouped hapart
        rcases block with ⟨key, rows⟩
        have hnodup := h.nodup
        rw [List.map_cons, List.nodup_cons] at hnodup
        have hrest : Grouped rest :=
          ⟨hnodup.right, fun entry hentry =>
            h.keyed entry (List.mem_cons_of_mem _ hentry)⟩
        rw [List.flatMap_cons, List.foldl_append]
        cases rows with
        | nil =>
            rw [List.foldl_nil, List.filter_cons_of_neg (by simp)]
            apply ih hrest
            intro other hother hmem
            exact hapart other hother (List.mem_cons_of_mem _ hmem)
        | cons first more =>
            have habsent : key ∉ grouped.map (·.1) := by
              intro hmem
              exact hapart key hmem (List.mem_cons_self ..)
            have hkeyed := h.keyed _ (List.mem_cons_self ..)
            have hfirst : groupRow grouped first =
                grouped ++ [(key, [first])] := by
              unfold groupRow
              rw [hkeyed first (List.mem_cons_self ..),
                Dict.lookup_eq_none habsent,
                Dict.set_of_lookup_none (Dict.lookup_eq_none habsent)]
              rfl
            rw [List.foldl_cons, hfirst,
              foldl_groupRow_block habsent [first] more fun row hrow =>
                hkeyed row (List.mem_cons_of_mem _ hrow),
              ih hrest, List.filter_cons_of_pos (by simp),
              List.append_assoc]
            · rfl
            · intro other hother hmem
              rw [List.map_append, List.mem_append] at hother
              rcases hother with hold | hlast
              · exact hapart other hold (List.mem_cons_of_mem _ hmem)
              · rw [List.mem_singleton.mp hlast] at hmem
                exact hnodup.left hmem
  exact hrun [] fun key hkey => absurd hkey List.not_mem_nil

/-!
## All files once more
-/

section Remap

variable (contentSha1 : String -> String)

/-- The slots of a key's file. -/
def slotOf (occupancy : List (InboxKey × Occupancy)) (key : InboxKey) :
    Occupancy :=
  (occupancy.lookup key).getD []

def remapGroup (occupancy : List (InboxKey × Occupancy))
    (group : InboxKey × List InboxRow) : List InboxRow × Nat :=
  (remapFile contentSha1 (slotOf occupancy group.1) group.2).1

/-- No file is looked at twice. -/
theorem remapGroups_eq
    {groups : List (InboxKey × List InboxRow)} (done : Remapped)
    {occupancy : List (InboxKey × Occupancy)}
    (hnodup : (groups.map (·.1)).Nodup)
    (hslots : forall key, key ∈ groups.map (·.1) ->
      slotOf done.occupancy key = slotOf occupancy key) :
    (remapGroups contentSha1 done groups).out =
        done.out ++ groups.flatMap (fun group =>
          (remapGroup contentSha1 occupancy group).1) ∧
      (remapGroups contentSha1 done groups).skipped =
        done.skipped + (groups.map fun group =>
          (remapGroup contentSha1 occupancy group).2).sum := by
  induction groups generalizing done with
  | nil => simp [remapGroups]
  | cons group rest ih =>
      rcases group with ⟨key, rows⟩
      rw [List.map_cons, List.nodup_cons] at hnodup
      have hslot := hslots key (List.mem_cons_self ..)
      rw [remapGroups]
      have hnext := ih
        { out := done.out ++ (remapGroup contentSha1 occupancy (key, rows)).1
          skipped :=
            done.skipped + (remapGroup contentSha1 occupancy (key, rows)).2
          occupancy := Dict.set key
            (remapFile contentSha1 (slotOf occupancy key) rows).2
            done.occupancy } hnodup.right (by
        intro other hother
        have hne : other ≠ key := by
          intro hsame
          rw [hsame] at hother
          exact hnodup.left hother
        show slotOf (Dict.set key _ done.occupancy) other = _
        unfold slotOf
        rw [Dict.lookup_set, if_neg hne]
        exact hslots other (List.mem_cons_of_mem _ hother))
      unfold slotOf at hslot
      rw [hslot]
      rcases hnext with ⟨hout, hskipped⟩
      constructor
      · refine hout.trans ?_
        rw [List.flatMap_cons, List.append_assoc]
      · refine hskipped.trans ?_
        rw [List.map_cons, List.sum_cons, Nat.add_assoc]

theorem remapRows_eq (rows : List InboxRow)
    (occupancy : List (InboxKey × Occupancy)) :
    (remapRowsAgainstOccupancy contentSha1 rows occupancy).out =
        (groupRows rows).flatMap (fun group =>
          (remapGroup contentSha1 occupancy group).1) ∧
      (remapRowsAgainstOccupancy contentSha1 rows occupancy).skipped =
        ((groupRows rows).map fun group =>
          (remapGroup contentSha1 occupancy group).2).sum := by
  have hgroups := remapGroups_eq contentSha1
    { out := []
      skipped := 0
      occupancy := occupancy }
    (grouped_groupRows rows).nodup (fun key _ => rfl)
  rw [List.nil_append, Nat.zero_add] at hgroups
  exact hgroups

/-- Each group with what was kept of it. -/
def keptGroups (occupancy : List (InboxKey × Occupancy))
    (rows : List InboxRow) : List (InboxKey × List InboxRow) :=
  (groupRows rows).map fun group =>
    (group.1, (remapGroup contentSha1 occupancy group).1)

theorem grouped_keptGroups (occupancy : List (InboxKey × Occupancy))
    (rows : List InboxRow) :
    Grouped (keptGroups contentSha1 occupancy rows) where
  nodup := by
    unfold keptGroups
    rw [List.map_map]
    exact (grouped_groupRows rows).nodup
  keyed := by
    intro entry hentry row hrow
    rcases List.mem_map.mp hentry with ⟨group, hgroup, heq⟩
    rw [← heq] at hrow ⊢
    rcases keepAssigned_key hrow with ⟨pair, hpair, hkey⟩
    rw [hkey]
    exact (grouped_groupRows rows).keyed group hgroup _
      (List.of_mem_zip hpair).left

/-- Rows that were remapped are returned as they are. -/
theorem remapRows_again (rows : List InboxRow)
    (occupancy : List (InboxKey × Occupancy)) :
    (remapRowsAgainstOccupancy contentSha1
        (remapRowsAgainstOccupancy contentSha1 rows occupancy).out
        occupancy).out =
      (remapRowsAgainstOccupancy contentSha1 rows occupancy).out ∧
    (remapRowsAgainstOccupancy contentSha1
        (remapRowsAgainstOccupancy contentSha1 rows occupancy).out
        occupancy).skipped = 0 := by
  have hkept := grouped_keptGroups contentSha1 occupancy rows
  have hout : (remapRowsAgainstOccupancy contentSha1 rows occupancy).out =
      (keptGroups contentSha1 occupancy rows).flatMap (·.2) := by
    rw [(remapRows_eq contentSha1 rows occupancy).left, keptGroups,
      List.flatMap_map]
  have hagain : forall group,
      group ∈ keptGroups contentSha1 occupancy rows ->
      remapGroup contentSha1 occupancy group = (group.2, 0) := by
    intro group hgroup
    rcases List.mem_map.mp hgroup with ⟨first, hfirst, heq⟩
    rw [← heq]
    exact remapFile_again contentSha1 (slotOf occupancy first.1) first.2
  have hgroups : groupRows
      (remapRowsAgainstOccupancy contentSha1 rows occupancy).out =
      (keptGroups contentSha1 occupancy rows).filter (·.2 ≠ []) := by
    rw [hout]
    exact groupRows_blocks hkept
  rcases remapRows_eq contentSha1
    (remapRowsAgainstOccupancy contentSha1 rows occupancy).out occupancy with
    ⟨hnext, hskipped⟩
  rw [hgroups] at hnext hskipped
  generalize keptGroups contentSha1 occupancy rows = groups at *
  constructor
  · rw [hnext, hout]
    clear hnext hskipped hout hgroups hkept
    induction groups with
    | nil => rfl
    | cons group rest ih =>
        have hrest := ih fun other hother =>
          hagain other (List.mem_cons_of_mem _ hother)
        by_cases hempty : group.2 = []
        · rw [List.filter_cons_of_neg (by simpa using hempty), hrest,
            List.flatMap_cons, hempty, List.nil_append]
        · rw [List.filter_cons_of_pos (by simpa using hempty),
            List.flatMap_cons, hrest, List.flatMap_cons,
            hagain group (List.mem_cons_self ..)]
  · rw [hskipped]
    apply List.sum_eq_zero
    intro n hn
    rcases List.mem_map.mp hn with ⟨group, hgroup, heq⟩
    rw [← heq, hagain group (List.mem_of_mem_filter hgroup)]

end Remap

/-!
## The law
-/

/-- What a request would get if its index alone decided. -/
def KeepsEveryFreeIndex (occupied : Occupancy)
    (requested : List FillRequest) : Prop :=
  forall before idx sha rest,
    requested = before ++ (idx, sha) :: rest ->
    occupied.lookup idx = none ->
    some idx ∉ (assignFillIndices occupied requested).1.take before.length ->
    (assignFillIndices occupied requested).1[before.length]? = some (some idx)

/-- A body that was requested before is skipped, though its index is free. -/
theorem repeated_body_is_skipped :
    ¬ KeepsEveryFreeIndex [] [(0, "body"), (1, "body")] := by
  intro h
  have hsecond := h [(0, "body")] 1 "body" [] rfl rfl (by decide +kernel)
  revert hsecond
  decide +kernel

theorem slots_kept_apart :
    (forall occupied requested, AssignsSlots occupied requested) ∧
    forall (contentSha1 : String -> String) rows occupancy,
      (remapRowsAgainstOccupancy contentSha1
          (remapRowsAgainstOccupancy contentSha1 rows occupancy).out
          occupancy).out =
        (remapRowsAgainstOccupancy contentSha1 rows occupancy).out ∧
      (remapRowsAgainstOccupancy contentSha1
          (remapRowsAgainstOccupancy contentSha1 rows occupancy).out
          occupancy).skipped = 0 :=
  ⟨assignsSlots, remapRows_again⟩

end Daemon
end Minni
