import Minni.Daemon.DedupPlan

/-!
# What a pass over the duplicates leaves

The pass fills in the hashes that are missing and carries out its plan: it
archives the learnings that the plan removes, or marks them.  Its rows are
followed through the statements, up to the table that a pass without a fault
leaves.
-/

namespace Minni
namespace Daemon

open Foundation
open Foundation.Db

/-!
## What a pass does to the table
-/

section Tables

variable (host : Host) (agent_id : Option String)

def Learning.hashed (row : Learning) : Learning :=
  row.fillHash (host.content_hash row.content)

/-- With the hashes that the pass fills in first. -/
def Store.withHashes (s : Store) : Store :=
  { s with learnings := s.learnings.map (Learning.hashed host) }

def dedupPlan (s : Store) : DedupPlan :=
  (dedupScan agent_id s).foldl (dedupRow host) DedupPlan.empty

def Learning.cleared (ids : List Nat) (row : Learning) : Learning :=
  if row.superseded_by.any (ids.contains ·) then
    { row with superseded_by := none }
  else row

def archived (ids : List Nat) (rows : List Learning) : List Learning :=
  (rows.map (Learning.cleared ids)).filter fun row =>
    !ids.contains row.learning_id

/-- Updates of single rows, one after the other. -/
def updated {item : Type} (target : item -> Nat)
    (f : item -> Learning -> Learning) (items : List item) (row : Learning) :
    Learning :=
  items.foldl (fun row i => if row.learning_id = target i then f i row else row)
    row

def retireUpdate (update : Nat × Nat) : Learning -> Learning :=
  unlessSuperseded (Learning.retiredBy update.1)

def rejectUpdate (_ : Nat) : Learning -> Learning :=
  unlessSuperseded Learning.markRejected

def dedupedRows (evicts : Bool) (s : Store) : List Learning :=
  let plan := dedupPlan host agent_id s
  if evicts then archived plan.removed s.learnings
  else
    (s.learnings.map (updated (·.2) retireUpdate plan.dupUpdates)).map
      (updated id rejectUpdate plan.lowSignal)

end Tables

/-!
## Updates
-/

section Updates

variable {item : Type} {target : item -> Nat}
variable {f : item -> Learning -> Learning} {items : List item}
variable {row : Learning}

theorem updated_cons (i : item) :
    updated target f (i :: items) row =
      updated target f items
        (if row.learning_id = target i then f i row else row) := rfl

theorem updated_id
    (hid : forall i row, (f i row).learning_id = row.learning_id) :
    (updated target f items row).learning_id = row.learning_id := by
  induction items generalizing row with
  | nil => rfl
  | cons i rest ih =>
      rw [updated_cons, ih]
      split
      · exact hid i row
      · rfl

theorem updated_of_not_mem (h : row.learning_id ∉ items.map target) :
    updated target f items row = row := by
  induction items with
  | nil => rfl
  | cons i rest ih =>
      rw [List.map_cons, List.mem_cons, not_or] at h
      rw [updated_cons, if_neg h.left]
      exact ih h.right

/-- What is not current stays so. -/
theorem updated_not_current
    (hoff : forall i row, (f i row).isCurrent = false)
    (h : row.isCurrent = false) :
    (updated target f items row).isCurrent = false := by
  induction items generalizing row with
  | nil => exact h
  | cons i rest ih =>
      rw [updated_cons]
      apply ih
      split
      · exact hoff i row
      · exact h

theorem updated_off
    (hoff : forall i row, (f i row).isCurrent = false)
    (h : row.learning_id ∈ items.map target) :
    (updated target f items row).isCurrent = false := by
  induction items generalizing row with
  | nil => cases h
  | cons i rest ih =>
      rw [updated_cons]
      by_cases hhere : row.learning_id = target i
      · rw [if_pos hhere]
        exact updated_not_current hoff (hoff i row)
      · rw [if_neg hhere]
        rw [List.map_cons, List.mem_cons] at h
        exact ih (h.resolve_left hhere)

theorem retireUpdate_id (update : Nat × Nat) (row : Learning) :
    (retireUpdate update row).learning_id = row.learning_id := by
  unfold retireUpdate unlessSuperseded
  split
  · rfl
  · rfl

theorem rejectUpdate_id (lid : Nat) (row : Learning) :
    (rejectUpdate lid row).learning_id = row.learning_id := by
  unfold rejectUpdate unlessSuperseded
  split
  · rfl
  · rfl

theorem not_current_of_superseded (h : ¬ row.superseded_by.isNone = true) :
    row.isCurrent = false := by
  unfold Learning.isCurrent
  rw [Bool.not_eq_true] at h
  rw [h, Bool.and_false]

theorem retireUpdate_off (update : Nat × Nat) (row : Learning) :
    (retireUpdate update row).isCurrent = false := by
  unfold retireUpdate unlessSuperseded
  split
  · rfl
  · rename_i hsuperseded
    exact not_current_of_superseded hsuperseded

theorem rejectUpdate_off (lid : Nat) (row : Learning) :
    (rejectUpdate lid row).isCurrent = false := by
  unfold rejectUpdate unlessSuperseded
  split
  · rfl
  · rename_i hsuperseded
    exact not_current_of_superseded hsuperseded

end Updates

/-!
## Archived rows
-/

section Archived

variable {ids : List Nat} {rows : List Learning} {row : Learning}

theorem cleared_id (ids : List Nat) (row : Learning) :
    (row.cleared ids).learning_id = row.learning_id := by
  unfold Learning.cleared
  split
  · rfl
  · rfl

theorem cleared_of_none (h : row.superseded_by = none) :
    row.cleared ids = row := by
  unfold Learning.cleared
  rw [h]
  rfl

theorem mem_archived :
    row ∈ archived ids rows <->
      row.learning_id ∉ ids ∧
        exists old, old ∈ rows ∧ old.cleared ids = row := by
  unfold archived
  rw [List.mem_filter, List.mem_map, and_comm]
  simp

theorem archived_nil : archived [] rows = rows := by
  have hmap : rows.map (Learning.cleared []) = rows := by
    have hsame : forall row, row ∈ rows -> Learning.cleared [] row = row := by
      intro row _
      unfold Learning.cleared
      cases row.superseded_by with
      | none => rfl
      | some d => rfl
    exact (List.map_congr_left hsame).trans (List.map_id rows)
  unfold archived
  rw [hmap]
  exact List.filter_eq_self.mpr fun _ _ => rfl

theorem cleared_cleared (lid : Nat) (row : Learning) :
    (row.cleared [lid]).cleared ids = row.cleared (lid :: ids) := by
  unfold Learning.cleared
  cases hmark : row.superseded_by with
  | none => simp [hmark]
  | some d =>
      by_cases hd : d = lid
      · simp [hd]
      · simp [hd, hmark]

theorem archived_row (ids : List Nat) (row : Learning)
    (rows : List Learning) :
    archived ids (row :: rows) =
      if row.learning_id ∈ ids then archived ids rows
      else row.cleared ids :: archived ids rows := by
  unfold archived
  rw [List.map_cons, List.filter_cons, cleared_id]
  by_cases hmem : row.learning_id ∈ ids
  · simp [hmem]
  · simp [hmem]

theorem archived_cons (lid : Nat) :
    archived (lid :: ids) rows = archived ids (archived [lid] rows) := by
  induction rows with
  | nil => rfl
  | cons row rows ih =>
      rw [archived_row, archived_row [lid], ih]
      by_cases hhere : row.learning_id = lid
      · rw [if_pos (List.mem_cons.mpr (Or.inl hhere)),
          if_pos (List.mem_singleton.mpr hhere)]
      · rw [if_neg (fun h => hhere (List.mem_singleton.mp h)), archived_row,
          cleared_id, cleared_cleared]
        by_cases hlater : row.learning_id ∈ ids
        · rw [if_pos hlater, if_pos (List.mem_cons_of_mem _ hlater)]
        · rw [if_neg hlater, if_neg]
          intro h
          rcases List.mem_cons.mp h with heq | hmem
          · exact hhere heq
          · exact hlater hmem

theorem archived_append (first second : List Nat) :
    archived (first ++ second) rows = archived second (archived first rows) := by
  induction first generalizing rows with
  | nil => rw [archived_nil, List.nil_append]
  | cons lid rest ih =>
      rw [List.cons_append, archived_cons, ih, ← archived_cons]

theorem mem_ids_archived {lid : Nat}
    (h : lid ∈ rows.map (·.learning_id)) (hnot : lid ∉ ids) :
    lid ∈ (archived ids rows).map (·.learning_id) := by
  rcases List.mem_map.mp h with ⟨row, hrow, hid⟩
  apply List.mem_map.mpr
  refine ⟨row.cleared ids, mem_archived.mpr ⟨?_, row, hrow, rfl⟩,
    (cleared_id _ _).trans hid⟩
  rw [cleared_id, hid]
  exact hnot

end Archived

/-!
## Runs
-/

section Runs

variable {host : Host} {env : Env} {s w : Store}

theorem evict_learnings (lid : Nat) (w : Store) :
    (w.evict lid).learnings = archived [lid] w.learnings := by
  have hcleared : forall row : Learning,
      (if row.superseded_by = some lid then { row with superseded_by := none }
        else row) = row.cleared [lid] := by
    intro row
    unfold Learning.cleared
    cases row.superseded_by with
    | none => rfl
    | some d =>
        by_cases hd : d = lid
        · simp [hd]
        · simp [hd]
  show (w.learnings.map _).filter _ = _
  simp only [hcleared]
  unfold archived
  congr 1
  funext row
  simp

theorem writes_archive {ids : List Nat}
    (hpresent : forall lid, lid ∈ ids ->
      lid ∈ w.learnings.map (·.learning_id))
    (hdistinct : ids.Nodup) :
    Writes (forEach ids (evictLearningToColdArchive env))
      (fun _ w' => w'.learnings = archived ids w.learnings) s w := by
  induction ids generalizing w with
  | nil => exact writes_pure archived_nil.symm
  | cons lid ids ih =>
      rcases List.nodup_cons.mp hdistinct with ⟨hnew, hrest⟩
      rcases List.mem_map.mp (hpresent lid List.mem_cons_self) with
        ⟨row, hrow, hid⟩
      have hfound : (w.findLearning lid).isNone = false := by
        cases hfind : w.findLearning lid with
        | none =>
            have hfails := List.find?_eq_none.mp hfind row hrow
            exact absurd (decide_eq_true hid) hfails
        | some found => rfl
      have hevict := evict_learnings lid w
      apply writes_bind
      apply writes_bind
      apply writes_select
      rw [hfound]
      apply writes_bind
      apply writes_mayRaise
      apply writes_execute
      apply writes_mono (ih _ hrest)
      · intro _ w' hw'
        rw [hw', hevict]
        exact (archived_cons lid).symm
      · intro other hother
        rw [hevict]
        apply mem_ids_archived (hpresent other (List.mem_cons_of_mem _ hother))
        intro hmem
        rw [List.mem_singleton.mp hmem] at hother
        exact hnew hother

theorem writes_of_succeeds {α : Type} {p : Governance α}
    {Q : α -> Store -> Prop} (h : Succeeds p Q s w) :
    Writes p Q s w := by
  intro t
  apply meets_mono (h t)
  intro r c hc
  rcases hc with ⟨hcommitted, a, ha, hQ⟩
  refine ⟨hcommitted, ?_⟩
  intro b hb
  rw [ha] at hb
  rw [← Except.ok.inj hb]
  exact hQ

theorem succeeds_updates {item : Type} (target : item -> Nat)
    (f : item -> Learning -> Learning) {items : List item} :
    Succeeds
      (forEach items fun i =>
        execute (Store.updateLearning (target i) (f i)) : Governance Unit)
      (fun _ w' => w'.learnings =
        w.learnings.map (updated target f items)) s w := by
  induction items generalizing w with
  | nil =>
      apply succeeds_pure
      exact (List.map_id w.learnings).symm
  | cons i rest ih =>
      apply succeeds_bind
      apply succeeds_execute
      apply succeeds_mono ih
      intro _ w' hw'
      rw [hw']
      show (w.learnings.map _).map _ = _
      rw [List.map_map]
      rfl

/-!
## Hashes
-/

def hashUpdate (host : Host) (row : Learning) (l : Learning) : Learning :=
  { l with content_hash := some (host.content_hash row.content) }

theorem updated_hash {items : List Learning} {row : Learning}
    (hsame : forall i, i ∈ items -> i.learning_id = row.learning_id ->
      i.content = row.content) :
    updated (·.learning_id) (hashUpdate host) items row =
      if row.learning_id ∈ items.map (·.learning_id) then
        hashUpdate host row row
      else row := by
  induction items generalizing row with
  | nil => rfl
  | cons i rest ih =>
      have hrest : forall other : Learning,
          other.learning_id = row.learning_id ->
          other.content = row.content ->
          forall j, j ∈ rest -> j.learning_id = other.learning_id ->
            j.content = other.content := by
        intro other hid hcontent j hj heq
        rw [hcontent]
        exact hsame j (List.mem_cons_of_mem _ hj) (heq.trans hid)
      rw [updated_cons, List.map_cons]
      by_cases hhere : row.learning_id = i.learning_id
      · have hcontent := hsame i List.mem_cons_self hhere.symm
        have hfirst : hashUpdate host i row = hashUpdate host row row := by
          unfold hashUpdate
          rw [hcontent]
        rw [if_pos hhere, hfirst, ih (hrest (hashUpdate host row row) rfl rfl),
          if_pos (List.mem_cons.mpr (Or.inl hhere))]
        split
        · rfl
        · rfl
      · rw [if_neg hhere, ih (hrest row rfl rfl)]
        by_cases hlater : row.learning_id ∈ rest.map (·.learning_id)
        · rw [if_pos hlater, if_pos (List.mem_cons_of_mem _ hlater)]
        · rw [if_neg hlater, if_neg]
          intro hmem
          rcases List.mem_cons.mp hmem with heq | hmem
          · exact hhere heq
          · exact hlater hmem

/-- The keys of a table. -/
def Store.DistinctIds (s : Store) : Prop :=
  (s.learnings.map (·.learning_id)).Nodup

instance (s : Store) : Decidable s.DistinctIds :=
  inferInstanceAs (Decidable (List.Nodup _))

theorem Store.DistinctIds.eq_of_id (hkeys : s.DistinctIds) {row other : Learning}
    (hrow : row ∈ s.learnings) (hother : other ∈ s.learnings)
    (hid : row.learning_id = other.learning_id) :
    row = other :=
  List.inj_on_of_nodup_map hkeys hrow hother hid

theorem updated_hashless (hkeys : s.DistinctIds) :
    s.learnings.map (updated (·.learning_id) (hashUpdate host)
        (s.learnings.filter fun row => row.content_hash.isNone)) =
      (s.withHashes host).learnings := by
  apply List.map_congr_left
  intro row hrow
  rw [updated_hash]
  · unfold Learning.hashed Learning.fillHash hashUpdate
    by_cases hnone : row.content_hash.isNone = true
    · rw [if_pos hnone, if_pos]
      exact List.mem_map.mpr ⟨row, List.mem_filter.mpr ⟨hrow, hnone⟩, rfl⟩
    · rw [if_neg hnone, if_neg]
      intro hmem
      rcases List.mem_map.mp hmem with ⟨other, hother, hid⟩
      rcases List.mem_filter.mp hother with ⟨hin, hhashless⟩
      rw [hkeys.eq_of_id hin hrow hid] at hhashless
      exact hnone hhashless
  · intro i hi hid
    rw [hkeys.eq_of_id (List.mem_of_mem_filter hi) hrow hid]

theorem withHashes_of_none_missing
    (h : (s.learnings.filter fun row => row.content_hash.isNone).isEmpty =
      true) :
    (s.withHashes host).learnings = s.learnings := by
  have hsame : forall row, row ∈ s.learnings ->
      row.hashed host = row := by
    intro row hrow
    unfold Learning.hashed Learning.fillHash
    rw [if_neg]
    exact List.filter_eq_nil_iff.mp (List.isEmpty_iff.mp h) row hrow
  exact (List.map_congr_left hsame).trans (List.map_id _)

theorem returns_withHashes (hkeys : s.DistinctIds) :
    Returns (ensureDedupIndex host env)
      (fun r s' => (env.dedupIndex = none -> r = Except.ok ()) ∧
        (r = Except.ok () ->
          s'.learnings = (s.withHashes host).learnings)) s := by
  apply returns_bind
  unfold stepFails
  cases hindex : env.dedupIndex with
  | some text =>
      apply returns_raise
      constructor
      · intro hnone
        cases hnone
      · intro hok
        cases hok
  | none =>
      apply returns_pure
      apply returns_bind
      apply returns_read
      dsimp only
      split
      · rename_i hfull
        apply returns_pure
        exact ⟨fun _ => rfl, fun _ => (withHashes_of_none_missing hfull).symm⟩
      · apply returns_committed
        apply succeeds_mono (succeeds_updates (·.learning_id) (hashUpdate host))
        intro _ s' hs'
        refine ⟨fun _ => rfl, fun _ => ?_⟩
        rw [hs']
        exact updated_hashless hkeys

/-!
## The pass
-/

section Pass

variable {agent_id : Option String} {evict_to_archive : Option Bool}

theorem keyed_withHashes (hkeys : s.DistinctIds) : (s.withHashes host).DistinctIds := by
  unfold Store.DistinctIds Store.withHashes
  rw [List.map_map]
  have hsame : forall row, row ∈ s.learnings ->
      ((·.learning_id) ∘ Learning.hashed host) row = row.learning_id := by
    intro row _
    show (Learning.fillHash _ row).learning_id = _
    unfold Learning.fillHash
    split
    · rfl
    · rfl
  rw [List.map_congr_left hsame]
  exact hkeys

theorem mem_dedupScan {row : Learning} :
    row ∈ dedupScan agent_id s <->
      row ∈ s.learnings ∧ row.isCurrent = true ∧
        (agent_id = none ∨ agent_id = some row.agent_id) := by
  unfold dedupScan
  rw [List.mem_insertionSort, List.mem_filter, Bool.and_eq_true]
  cases agent_id with
  | none => simp
  | some owner =>
      have howner : decide (row.agent_id = owner) = true <->
          (some owner = none ∨ some owner = some row.agent_id) := by
        constructor
        · intro h
          exact Or.inr (congrArg some (of_decide_eq_true h).symm)
        · intro h
          rcases h with hnone | hsome
          · cases hnone
          · exact decide_eq_true (Option.some.inj hsome).symm
      rw [howner]

theorem keyed_dedupScan (hkeys : s.DistinctIds) :
    ((dedupScan agent_id s).map (·.learning_id)).Nodup := by
  unfold dedupScan
  apply ((List.perm_insertionSort laterFirst _).map _).nodup_iff.mpr
  exact hkeys.sublist (List.filter_sublist.map _)

theorem gathered_dedupPlan (hkeys : s.DistinctIds) :
    Gathered host (dedupScan agent_id s) (dedupPlan host agent_id s) :=
  gathered_scan (keyed_dedupScan hkeys)

theorem dedupPlan_present (hkeys : s.DistinctIds) {lid : Nat}
    (h : lid ∈ (dedupPlan host agent_id s).removed) :
    lid ∈ s.learnings.map (·.learning_id) := by
  rcases (gathered_dedupPlan hkeys).of_removed lid h with ⟨row, hrow, hid, _⟩
  exact List.mem_map.mpr ⟨row, (mem_dedupScan.mp hrow).left, hid⟩

theorem writes_dedupBlock (hkeys : s.DistinctIds) (evicts : Bool) :
    Writes (dedupBlock env evicts (dedupPlan host agent_id s))
      (fun _ w' => w'.learnings = dedupedRows host agent_id evicts s) s s := by
  unfold dedupBlock dedupedRows
  dsimp only
  cases evicts with
  | true =>
      simp only [if_true]
      have hdistinct := (@gathered_dedupPlan host s agent_id hkeys).distinct
      unfold DedupPlan.removed at hdistinct ⊢
      rcases List.nodup_append.mp hdistinct with ⟨hdups, hlows, happart⟩
      apply writes_bind
      apply writes_mono (writes_archive _ hdups)
      · intro _ w' hw'
        apply writes_mono (writes_archive _ hlows)
        · intro _ w'' hw''
          rw [hw'', hw', archived_append]
        · intro lid hlid
          rw [hw']
          apply mem_ids_archived
          · exact dedupPlan_present hkeys (List.mem_append_right _ hlid)
          · intro hdup
            exact happart lid hdup lid hlid rfl
      · intro lid hlid
        exact dedupPlan_present hkeys (List.mem_append_left _ hlid)
  | false =>
      simp only [Bool.false_eq_true, if_false]
      apply writes_bind
      apply writes_of_succeeds
      apply succeeds_mono (succeeds_updates (·.2) retireUpdate)
      intro _ w' hw'
      apply writes_of_succeeds
      apply succeeds_mono (succeeds_updates id rejectUpdate)
      intro _ w'' hw''
      rw [hw'', hw']

/-- Nothing fails within the pass. -/
def Env.Faultless (env : Env) : Prop :=
  env.dedupIndex = none ∧ forall lid, env.evict lid = none

theorem succeeds_archive (henv : env.Faultless) (ids : List Nat) :
    Succeeds (forEach ids (evictLearningToColdArchive env))
      (fun _ _ => True) s w := by
  apply succeeds_forEach (I := fun _ => True)
  · intro lid _ w' _
    apply succeeds_bind
    apply succeeds_select
    split
    · exact succeeds_pure trivial
    · apply succeeds_bind
      apply succeeds_mayRaise
      · rw [henv.right lid]
        rfl
      · exact succeeds_execute trivial
  · trivial

theorem succeeds_dedupBlock (henv : env.Faultless) (evicts : Bool)
    (plan : DedupPlan) :
    Succeeds (dedupBlock env evicts plan) (fun _ _ => True) s w := by
  unfold dedupBlock
  cases evicts with
  | true =>
      simp only [if_true]
      apply succeeds_bind
      apply succeeds_mono (succeeds_archive henv _)
      intro _ w' _
      exact succeeds_archive henv _
  | false =>
      simp only [Bool.false_eq_true, if_false]
      apply succeeds_bind
      apply succeeds_mono (succeeds_updates (·.2) retireUpdate)
      intro _ w' _
      exact succeeds_mono (succeeds_updates id rejectUpdate)
        fun _ _ _ => trivial

theorem dedupScan_congr (h : s.learnings = w.learnings) :
    dedupScan agent_id s = dedupScan agent_id w := by
  unfold dedupScan
  rw [h]

theorem dedupedRows_congr (h : s.learnings = w.learnings) (evicts : Bool) :
    dedupedRows host agent_id evicts s = dedupedRows host agent_id evicts w := by
  unfold dedupedRows dedupPlan
  rw [h, dedupScan_congr h]

theorem dedupedRows_of_empty {evicts : Bool}
    (hdups : (dedupPlan host agent_id s).dupUpdates = [])
    (hlows : (dedupPlan host agent_id s).lowSignal = []) :
    dedupedRows host agent_id evicts s = s.learnings := by
  unfold dedupedRows DedupPlan.removed
  dsimp only
  rw [hdups, hlows]
  cases evicts with
  | true => exact archived_nil
  | false =>
      show (s.learnings.map fun row => row).map (fun row => row) = _
      rw [List.map_id', List.map_id']

/-- A pass that does not fail leaves the planned rows. -/
theorem returns_dedup (hkeys : s.DistinctIds) :
    Returns (dedupActiveLearnings host env agent_id evict_to_archive)
      (fun r s' => (env.Faultless -> r = Except.ok ()) ∧
        (r = Except.ok () -> s'.learnings = dedupedRows host agent_id
          (evict_to_archive.getD env.writebackEnabled)
          (s.withHashes host))) s := by
  apply returns_bind
  apply returns_mono (returns_withHashes hkeys)
  intro r s' hr
  cases r with
  | error e =>
      constructor
      · intro henv
        cases hr.left henv.left
      · intro hok
        cases hok
  | ok a =>
      have hrows := hr.right rfl
      have hkeys' : s'.DistinctIds := by
        unfold Store.DistinctIds
        rw [hrows]
        exact keyed_withHashes hkeys
      rw [← dedupedRows_congr hrows]
      apply returns_bind
      apply returns_read
      dsimp only
      show Returns (if (dedupPlan host agent_id s').dupUpdates.isEmpty &&
        (dedupPlan host agent_id s').lowSignal.isEmpty then _ else _) _ _
      split
      · rename_i hempty
        rw [Bool.and_eq_true, List.isEmpty_iff, List.isEmpty_iff] at hempty
        apply returns_pure
        exact ⟨fun _ => rfl, fun _ =>
          (dedupedRows_of_empty hempty.left hempty.right).symm⟩
      · have hwrites : Returns (transaction nestedBegin
            (dedupBlock env (evict_to_archive.getD env.writebackEnabled)
              (dedupPlan host agent_id s')))
            (fun r w' => r = Except.ok () -> w'.learnings =
              dedupedRows host agent_id
                (evict_to_archive.getD env.writebackEnabled) s') s' := by
          apply returns_transaction
          · exact writes_mono (writes_dedupBlock hkeys' _) fun _ _ h _ => h
          · intro e hok
            cases hok
        by_cases henv : env.Faultless
        · have hsucceeds : Returns (transaction nestedBegin
              (dedupBlock env (evict_to_archive.getD env.writebackEnabled)
                (dedupPlan host agent_id s')))
              (fun r _ => r = Except.ok ()) s' :=
            returns_committed (succeeds_mono (succeeds_dedupBlock henv _ _)
              fun _ _ _ => rfl)
          apply returns_mono (returns_both hsucceeds hwrites)
          intro r w' h
          exact ⟨fun _ => h.left, h.right⟩
        · apply returns_mono hwrites
          intro r w' h
          exact ⟨fun hfaultless => absurd hfaultless henv, h⟩

/-- A pass over a table without anything to do. -/
theorem returns_unchanged
    (hhashes : (s.learnings.filter fun row => row.content_hash.isNone) = [])
    (hempty : (dedupPlan host agent_id s).removed = []) :
    Returns (dedupActiveLearnings host env agent_id evict_to_archive)
      (fun _ s' => s' = s) s := by
  unfold DedupPlan.removed at hempty
  rcases List.append_eq_nil_iff.mp hempty with ⟨hdups, hlows⟩
  have hnodups := List.map_eq_nil_iff.mp hdups
  apply returns_bind
  have hindex : Returns (ensureDedupIndex host env) (fun _ s' => s' = s) s := by
    apply returns_bind
    apply returns_mayRaise
    · apply returns_bind
      apply returns_read
      dsimp only
      rw [hhashes]
      exact returns_pure rfl
    · intro e
      rfl
  apply returns_mono hindex
  intro r s' hs'
  rw [hs']
  cases r with
  | error e => rfl
  | ok a =>
      apply returns_bind
      apply returns_read
      dsimp only
      show Returns (if (dedupPlan host agent_id s).dupUpdates.isEmpty &&
        (dedupPlan host agent_id s).lowSignal.isEmpty then _ else _) _ _
      rw [hnodups, hlows]
      exact returns_pure rfl

end Pass

end Runs

end Daemon
end Minni
