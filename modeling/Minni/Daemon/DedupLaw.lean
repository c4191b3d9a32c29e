import Minni.Daemon.DedupRuns
import Minni.Daemon.NearDuplicateLaw
import Mathlib.Data.List.Pairwise

/-!
# Duplicates are removed once

After a pass over the active learnings none of them repeats another, and the
next pass finds nothing to do.  An archived learning takes its mark off the
learnings that it had superseded, so a pass that archives can bring some of
them back; the law holds where none of these has an active status.
-/

namespace Minni
namespace Daemon

open Foundation
open Foundation.Db

/-!
## Current rows after a pass
-/

def InScope (agent_id : Option String) (row : Learning) : Prop :=
  agent_id = none ∨ agent_id = some row.agent_id

/-- A learning that the pass over the table removes: the newer ones that are
kept have a place for it, or it has a low signal. -/
def Superfluous (host : Host) (agent_id : Option String) (s : Store)
    (lid : Nat) : Prop :=
  exists row, row ∈ dedupScan agent_id s ∧ row.learning_id = lid ∧
    row ∉ keepers host (dedupScan agent_id s)

/-- No learning with an active status was superseded by one that the pass
removes. -/
def RevivesNone (host : Host) (agent_id : Option String) (s : Store) : Prop :=
  forall row, row ∈ s.learnings ->
    row.status.getD LearningStatus.active = LearningStatus.active ->
    forall lid, row.superseded_by = some lid ->
      ¬ Superfluous host agent_id (s.withHashes host) lid

section Current

variable {host : Host} {agent_id : Option String} {s : Store}

theorem removed_iff (hkeys : s.DistinctIds) {lid : Nat} :
    lid ∈ (dedupPlan host agent_id s).removed <->
      Superfluous host agent_id s lid := by
  have hgathered := @gathered_dedupPlan host s agent_id hkeys
  constructor
  · intro h
    exact hgathered.of_removed lid h
  · intro h
    rcases h with ⟨row, hrow, hid, hgone⟩
    rw [← hid]
    exact hgathered.removes row hrow hgone

theorem isCurrent_iff {row : Learning} :
    row.isCurrent = true <->
      row.status.getD LearningStatus.active = LearningStatus.active ∧
        row.superseded_by = none := by
  unfold Learning.isCurrent
  rw [Bool.and_eq_true, decide_eq_true_eq, Option.isNone_iff_eq_none]

/-- In the mode that updates, the current rows are those that stay. -/
theorem current_of_updates {row : Learning} :
    (row ∈ dedupedRows host agent_id false s ∧ row.isCurrent = true) <->
      row ∈ s.learnings ∧ row.isCurrent = true ∧
        row.learning_id ∉ (dedupPlan host agent_id s).removed := by
  let plan := dedupPlan host agent_id s
  let change : Learning -> Learning := fun old =>
    updated id rejectUpdate plan.lowSignal
      (updated (·.2) retireUpdate plan.dupUpdates old)
  have hid : forall old, (change old).learning_id = old.learning_id := by
    intro old
    exact (updated_id rejectUpdate_id).trans (updated_id retireUpdate_id)
  have hrows : dedupedRows host agent_id false s =
      s.learnings.map change := by
    show (s.learnings.map _).map _ = _
    rw [List.map_map]
    rfl
  have hkept : forall old : Learning, old.learning_id ∉ plan.removed ->
      change old = old := by
    intro old hnot
    unfold DedupPlan.removed at hnot
    rw [List.mem_append, not_or] at hnot
    show updated id rejectUpdate plan.lowSignal _ = old
    rw [updated_of_not_mem hnot.left, updated_of_not_mem]
    rw [List.map_id]
    exact hnot.right
  have hoff : forall old : Learning, old.learning_id ∈ plan.removed ->
      (change old).isCurrent = false := by
    intro old hin
    unfold DedupPlan.removed at hin
    rcases List.mem_append.mp hin with hdup | hlow
    · exact updated_not_current rejectUpdate_off
        (updated_off retireUpdate_off hdup)
    · apply updated_off rejectUpdate_off
      rw [List.map_id, updated_id retireUpdate_id]
      exact hlow
  have hstill : forall old : Learning, old.isCurrent = false ->
      (change old).isCurrent = false := by
    intro old hold
    exact updated_not_current rejectUpdate_off
      (updated_not_current retireUpdate_off hold)
  rw [hrows]
  constructor
  · intro h
    rcases h with ⟨hmem, hcurrent⟩
    rcases List.mem_map.mp hmem with ⟨old, hold, heq⟩
    rw [← heq] at hcurrent
    have hnot : old.learning_id ∉ plan.removed := by
      intro hin
      rw [hoff old hin] at hcurrent
      cases hcurrent
    rw [hkept old hnot] at heq hcurrent
    rw [← heq]
    exact ⟨hold, hcurrent, hnot⟩
  · intro h
    rcases h with ⟨hmem, hcurrent, hnot⟩
    exact ⟨List.mem_map.mpr ⟨row, hmem, hkept row hnot⟩, hcurrent⟩

/-- In the mode that archives, so are they where nothing is revived. -/
theorem current_of_archive (hkeys : s.DistinctIds)
    (hrevives : forall row, row ∈ s.learnings ->
      row.status.getD LearningStatus.active = LearningStatus.active ->
      forall lid, row.superseded_by = some lid ->
        ¬ Superfluous host agent_id s lid)
    {row : Learning} :
    (row ∈ dedupedRows host agent_id true s ∧ row.isCurrent = true) <->
      row ∈ s.learnings ∧ row.isCurrent = true ∧
        row.learning_id ∉ (dedupPlan host agent_id s).removed := by
  show (row ∈ archived (dedupPlan host agent_id s).removed s.learnings ∧ _) <->
    _
  rw [mem_archived]
  constructor
  · intro h
    rcases h with ⟨⟨hnot, old, hold, heq⟩, hcurrent⟩
    have hsame : old.cleared (dedupPlan host agent_id s).removed = old := by
      unfold Learning.cleared
      split
      · rename_i hany
        exfalso
        rcases hmark : old.superseded_by with _ | lid
        · rw [hmark] at hany
          cases hany
        · rw [hmark] at hany
          have hin : lid ∈ (dedupPlan host agent_id s).removed := by
            simpa using hany
          have hstatus : row.status = old.status := by
            rw [← heq]
            unfold Learning.cleared
            split
            · rfl
            · rfl
          have hactive := (isCurrent_iff.mp hcurrent).left
          rw [hstatus] at hactive
          exact hrevives old hold hactive lid hmark
            ((removed_iff hkeys).mp hin)
      · rfl
    rw [hsame] at heq
    rw [heq] at hold
    exact ⟨hold, hcurrent, hnot⟩
  · intro h
    rcases h with ⟨hmem, hcurrent, hnot⟩
    exact ⟨⟨hnot, row, hmem,
      cleared_of_none (isCurrent_iff.mp hcurrent).right⟩, hcurrent⟩

end Current

/-!
## Rows that a pass keeps
-/

section Kept

variable {host : Host} {agent_id : Option String} {s : Store}

theorem hashed_fields (row : Learning) :
    (row.hashed host).learning_id = row.learning_id ∧
      (row.hashed host).agent_id = row.agent_id ∧
      (row.hashed host).category = row.category ∧
      (row.hashed host).content = row.content ∧
      (row.hashed host).embedding = row.embedding ∧
      (row.hashed host).status = row.status ∧
      (row.hashed host).superseded_by = row.superseded_by := by
  unfold Learning.hashed Learning.fillHash
  split
  · exact ⟨rfl, rfl, rfl, rfl, rfl, rfl, rfl⟩
  · exact ⟨rfl, rfl, rfl, rfl, rfl, rfl, rfl⟩

theorem hashed_isCurrent (row : Learning) :
    (row.hashed host).isCurrent = row.isCurrent := by
  rcases @hashed_fields host row with ⟨_, _, _, _, _, hstatus, hmark⟩
  unfold Learning.isCurrent
  rw [hstatus, hmark]

theorem storedHash_hashed (row : Learning) :
    storedHash host (row.hashed host) = storedHash host row := by
  rcases @hashed_fields host row with ⟨_, _, _, hcontent, _⟩
  unfold storedHash
  rw [hcontent]
  unfold Learning.hashed Learning.fillHash
  cases hhash : row.content_hash with
  | some h => simp [hhash]
  | none =>
      by_cases hempty : host.content_hash row.content = ""
      · simp [orElseText, Option.filter_some, hempty]
      · simp [orElseText, Option.filter_some, hempty]

theorem repeats_hashed (row entry : Learning) :
    repeats host (row.hashed host) entry = repeats host row entry := by
  rcases @hashed_fields host row with
    ⟨_, hagent, hcategory, hcontent, hembedding, _⟩
  unfold repeats groupOf
  rw [storedHash_hashed, hagent, hcategory, hcontent, hembedding]

theorem keeper_not_removed (hkeys : s.DistinctIds) {row : Learning}
    (h : row ∈ keepers host (dedupScan agent_id s)) :
    row.learning_id ∉ (dedupPlan host agent_id s).removed := by
  intro hin
  rcases (removed_iff hkeys).mp hin with ⟨other, hother, hid, hgone⟩
  have heq : other = row := hkeys.eq_of_id (mem_dedupScan.mp hother).left
    (mem_dedupScan.mp (mem_of_mem_keepers h)).left hid
  rw [heq] at hgone
  exact hgone h

theorem mem_keepers_of_not_removed (hkeys : s.DistinctIds) {row : Learning}
    (h : row ∈ dedupScan agent_id s)
    (hnot : row.learning_id ∉ (dedupPlan host agent_id s).removed) :
    row ∈ keepers host (dedupScan agent_id s) := by
  by_contra hgone
  exact hnot ((gathered_dedupPlan hkeys).removes row h hgone)

/-- Kept learnings do not repeat each other, either way round. -/
theorem keepers_apart
    (hcomm : forall row entry, repeats host row entry = repeats host entry row)
    {rows : List Learning} {row other : Learning}
    (hrow : row ∈ keepers host rows) (hother : other ∈ keepers host rows)
    (hne : row ≠ other) :
    repeats host row other = false := by
  have : Std.Symm fun before after => repeats host after before = false :=
    ⟨fun before after h => (hcomm before after).trans h⟩
  exact Greedy.keepers_pairwise.forall hother hrow hne.symm

theorem updated_keeps {item : Type} {target : item -> Nat}
    {f : item -> Learning -> Learning} {P : Learning -> Prop}
    (hf : forall i row, P row -> P (f i row)) {items : List item}
    {row : Learning} (h : P row) :
    P (updated target f items row) := by
  induction items generalizing row with
  | nil => exact h
  | cons i rest ih =>
      rw [updated_cons]
      apply ih
      split
      · exact hf i row h
      · exact h

theorem keyed_dedupedRows (hkeys : s.DistinctIds) (evicts : Bool) :
    ((dedupedRows host agent_id evicts s).map (·.learning_id)).Nodup := by
  unfold dedupedRows
  cases evicts with
  | true =>
      simp only [if_true]
      unfold archived
      have hmap : (s.learnings.map (Learning.cleared
          (dedupPlan host agent_id s).removed)).map (·.learning_id) =
          s.learnings.map (·.learning_id) := by
        rw [List.map_map]
        apply List.map_congr_left
        intro row _
        exact cleared_id _ row
      have hsublist := (List.filter_sublist (p := fun row : Learning =>
        !(dedupPlan host agent_id s).removed.contains row.learning_id)
        (l := s.learnings.map (Learning.cleared
          (dedupPlan host agent_id s).removed))).map (·.learning_id)
      rw [hmap] at hsublist
      exact hkeys.sublist hsublist
  | false =>
      simp only [Bool.false_eq_true, if_false]
      rw [List.map_map, List.map_map]
      have hsame : forall row, row ∈ s.learnings ->
          (((·.learning_id) ∘ updated id rejectUpdate
            (dedupPlan host agent_id s).lowSignal) ∘ updated (·.2)
            retireUpdate (dedupPlan host agent_id s).dupUpdates) row =
            row.learning_id := by
        intro row _
        exact (updated_id rejectUpdate_id).trans (updated_id retireUpdate_id)
      rw [List.map_congr_left hsame]
      exact hkeys

theorem hashes_dedupedRows {evicts : Bool}
    (hfull : forall row, row ∈ s.learnings -> row.content_hash.isSome = true) :
    forall row, row ∈ dedupedRows host agent_id evicts s ->
      row.content_hash.isSome = true := by
  intro row hrow
  unfold dedupedRows at hrow
  cases evicts with
  | true =>
      simp only [if_true] at hrow
      rcases (mem_archived.mp hrow).right with ⟨old, hold, heq⟩
      rw [← heq]
      unfold Learning.cleared
      split
      · exact hfull old hold
      · exact hfull old hold
  | false =>
      simp only [Bool.false_eq_true, if_false] at hrow
      rcases List.mem_map.mp hrow with ⟨middle, hmiddle, heq⟩
      rcases List.mem_map.mp hmiddle with ⟨old, hold, hmid⟩
      rw [← heq, ← hmid]
      apply updated_keeps (P := fun row => row.content_hash.isSome = true)
      · intro lid row h
        unfold rejectUpdate unlessSuperseded
        split
        · exact h
        · exact h
      · apply updated_keeps (P := fun row => row.content_hash.isSome = true)
        · intro update row h
          unfold retireUpdate unlessSuperseded
          split
          · exact h
          · exact h
        · exact hfull old hold

theorem hashes_withHashes :
    forall row, row ∈ (s.withHashes host).learnings ->
      row.content_hash.isSome = true := by
  intro row hrow
  rcases List.mem_map.mp hrow with ⟨old, _, heq⟩
  rw [← heq]
  unfold Learning.hashed Learning.fillHash
  split
  · rfl
  · rename_i hsome
    rw [Option.isNone_iff_eq_none] at hsome
    exact Option.isSome_iff_ne_none.mpr hsome

end Kept

/-!
## The law
-/

/-- What holds between the table before a pass and the table after it. -/
structure Deduped (host : Host) (agent_id : Option String) (s s' : Store) :
    Prop where
  hashes : forall row other, row ∈ s'.learnings -> other ∈ s'.learnings ->
    row.isCurrent = true -> other.isCurrent = true ->
    InScope agent_id row -> InScope agent_id other -> row ≠ other ->
    row.agent_id = other.agent_id ->
    storedHash host row ≠ storedHash host other
  likeness : forall row other, row ∈ s'.learnings -> other ∈ s'.learnings ->
    row.isCurrent = true -> other.isCurrent = true ->
    InScope agent_id row -> InScope agent_id other -> row ≠ other ->
    groupOf host row = groupOf host other ->
    host.jaccardNear row.content other.content = false ∧
      cosineReaches host row.embedding other.embedding = false
  signal : forall row, row ∈ s'.learnings -> row.isCurrent = true ->
    InScope agent_id row -> lowSignal host row = false
  removed : forall row, row ∈ s.learnings -> row.isCurrent = true ->
    (forall row', row' ∈ s'.learnings ->
      row'.learning_id = row.learning_id -> row'.isCurrent = false) ->
    lowSignal host row = true ∨
      exists winner, winner ∈ s'.learnings ∧ winner.isCurrent = true ∧
        repeats host row winner = true
  inactive : forall row', row' ∈ s'.learnings -> row'.isCurrent = true ->
    exists row, row ∈ s.learnings ∧ row.learning_id = row'.learning_id ∧
      row.isCurrent = true

/-- Every pass that does not fail establishes this, and the pass after it
changes nothing. -/
def DedupsFully (host : Host) (agent_id : Option String)
    (evict_to_archive : Option Bool) (writebackEnabled : Bool) (s : Store) :
    Prop :=
  forall (env : Env) (s' : Store), env.writebackEnabled = writebackEnabled ->
    dedupActiveLearnings host env agent_id evict_to_archive
        (Connection.idle s) = (Except.ok (), Connection.idle s') ->
    Deduped host agent_id s s' ∧
      forall env' : Env,
        (dedupActiveLearnings host env' agent_id evict_to_archive
          (Connection.idle s')).2 = Connection.idle s'

section Law

variable {host : Host} {agent_id : Option String}
variable {evict_to_archive : Option Bool} {s s' : Store}

/-- The current rows of the table after the pass. -/
def Remains (host : Host) (agent_id : Option String) (s s' : Store) : Prop :=
  forall row, (row ∈ s'.learnings ∧ row.isCurrent = true) <->
    row ∈ (s.withHashes host).learnings ∧ row.isCurrent = true ∧
      row.learning_id ∉
        (dedupPlan host agent_id (s.withHashes host)).removed

theorem remains_apart (hkeys : s.DistinctIds)
    (hcomm : forall row entry, repeats host row entry = repeats host entry row)
    (hremains : Remains host agent_id s s') {row other : Learning}
    (hrow : row ∈ s'.learnings) (hother : other ∈ s'.learnings)
    (hcurrent : row.isCurrent = true) (hcurrent' : other.isCurrent = true)
    (hscope : InScope agent_id row) (hscope' : InScope agent_id other)
    (hne : row ≠ other) :
    repeats host row other = false := by
  have hkept : forall row, row ∈ s'.learnings -> row.isCurrent = true ->
      InScope agent_id row ->
      row ∈ keepers host (dedupScan agent_id (s.withHashes host)) := by
    intro row hrow hcurrent hscope
    rcases (hremains row).mp ⟨hrow, hcurrent⟩ with ⟨hbefore, _, hnot⟩
    exact mem_keepers_of_not_removed (keyed_withHashes hkeys)
      (mem_dedupScan.mpr ⟨hbefore, hcurrent, hscope⟩) hnot
  exact keepers_apart hcomm (hkept row hrow hcurrent hscope)
    (hkept other hother hcurrent' hscope') hne

theorem deduped_of_remains (hkeys : s.DistinctIds)
    (hcomm : forall row entry, repeats host row entry = repeats host entry row)
    (hremains : Remains host agent_id s s') :
    Deduped host agent_id s s' := by
  have hkeysF := @keyed_withHashes host s hkeys
  constructor
  · intro row other hrow hother hcurrent hcurrent' hscope hscope' hne hagent
      hhash
    have hapart := remains_apart hkeys hcomm hremains hrow hother hcurrent
      hcurrent' hscope hscope' hne
    unfold repeats at hapart
    rw [hagent, hhash, decide_eq_true rfl, Bool.true_or] at hapart
    cases hapart
  · intro row other hrow hother hcurrent hcurrent' hscope hscope' hne hgroup
    have hapart := remains_apart hkeys hcomm hremains hrow hother hcurrent
      hcurrent' hscope hscope' hne
    unfold repeats at hapart
    rw [Bool.or_eq_false_iff, decide_eq_true hgroup, Bool.true_and,
      Bool.or_eq_false_iff] at hapart
    exact hapart.right
  · intro row hrow hcurrent hscope
    rcases (hremains row).mp ⟨hrow, hcurrent⟩ with ⟨hbefore, _, hnot⟩
    exact Greedy.keepers_not_dropped (mem_keepers_of_not_removed hkeysF
      (mem_dedupScan.mpr ⟨hbefore, hcurrent, hscope⟩) hnot)
  · intro row hrow hcurrent hgone
    have hfields := @hashed_fields host row
    have hbefore : row.hashed host ∈ (s.withHashes host).learnings :=
      List.mem_map.mpr ⟨row, hrow, rfl⟩
    have hin : (row.hashed host).learning_id ∈
        (dedupPlan host agent_id (s.withHashes host)).removed := by
      by_contra hnot
      have hstays := (hremains (row.hashed host)).mpr
        ⟨hbefore, (hashed_isCurrent row).trans hcurrent, hnot⟩
      have hfalse := hgone _ hstays.left hfields.left
      rw [hstays.right] at hfalse
      cases hfalse
    rcases (removed_iff hkeysF).mp hin with ⟨found, hfound, hid, hnotKept⟩
    have heq : found = row.hashed host :=
      hkeysF.eq_of_id (mem_dedupScan.mp hfound).left hbefore hid
    rw [heq] at hfound hnotKept
    have hcover : lowSignal host (row.hashed host) = true ∨
        row.hashed host ∈ keepers host
            (dedupScan agent_id (s.withHashes host)) ∨
          exists e, e ∈ keepers host
              (dedupScan agent_id (s.withHashes host)) ∧
            repeats host (row.hashed host) e = true :=
      Greedy.keepers_cover hfound
    rcases hcover with hlow | hkept | ⟨winner, hwinner, hlike⟩
    · left
      unfold lowSignal at hlow ⊢
      rw [← hlow, hfields.right.right.right.left]
    · exact absurd hkept hnotKept
    · right
      have hscan := mem_dedupScan.mp (mem_of_mem_keepers hwinner)
      have hstays := (hremains winner).mpr
        ⟨hscan.left, hscan.right.left, keeper_not_removed hkeysF hwinner⟩
      rw [repeats_hashed] at hlike
      exact ⟨winner, hstays.left, hstays.right, hlike⟩
  · intro row' hrow' hcurrent
    rcases (hremains row').mp ⟨hrow', hcurrent⟩ with ⟨hbefore, _, _⟩
    rcases List.mem_map.mp hbefore with ⟨row, hrow, heq⟩
    refine ⟨row, hrow, ?_, ?_⟩
    · rw [← heq]
      exact (@hashed_fields host row).left.symm
    · rw [← @hashed_isCurrent host, heq]
      exact hcurrent

/-- The next pass finds nothing to remove. -/
theorem nothing_removed (hkeys : s.DistinctIds) (hkeys' : s'.DistinctIds)
    (hcomm : forall row entry, repeats host row entry = repeats host entry row)
    (hremains : Remains host agent_id s s') :
    (dedupPlan host agent_id s').removed = [] := by
  have hdeduped := deduped_of_remains hkeys hcomm hremains
  have hself : keepers host (dedupScan agent_id s') =
      dedupScan agent_id s' := by
    apply Greedy.keepers_eq_self
    · intro row hrow
      rcases mem_dedupScan.mp hrow with ⟨hmem, hcurrent, hscope⟩
      exact hdeduped.signal row hmem hcurrent hscope
    · have hdistinct := @keyed_dedupScan s' agent_id hkeys'
      rw [List.Nodup, List.pairwise_map] at hdistinct
      apply hdistinct.imp_of_mem
      intro before after hbefore hafter hne
      rcases mem_dedupScan.mp hbefore with ⟨hmem, hcurrent, hscope⟩
      rcases mem_dedupScan.mp hafter with ⟨hmem', hcurrent', hscope'⟩
      apply remains_apart hkeys hcomm hremains hmem' hmem hcurrent' hcurrent
        hscope' hscope
      intro heq
      rw [heq] at hne
      exact hne rfl
  apply List.eq_nil_iff_forall_not_mem.mpr
  intro lid hlid
  rcases (removed_iff hkeys').mp hlid with ⟨row, hrow, _, hgone⟩
  rw [hself] at hgone
  exact hgone hrow

end Law

/-!
## Passes
-/

section Passes

variable {host : Host} {agent_id : Option String}
variable {evict_to_archive : Option Bool} {writebackEnabled : Bool}
variable {s : Store}

theorem repeats_comm
    (hcosine : forall left right,
      host.cosineNear left right = host.cosineNear right left)
    (row entry : Learning) :
    repeats host.withShingles row entry =
      repeats host.withShingles entry row := by
  have hjaccard : host.withShingles.jaccardNear row.content entry.content =
      host.withShingles.jaccardNear entry.content row.content := by
    show decide _ = decide _
    rw [fiveGramJaccard_comm]
  have hembedding : cosineReaches host.withShingles row.embedding
      entry.embedding = cosineReaches host.withShingles entry.embedding
        row.embedding := by
    show cosineReaches host _ _ = cosineReaches host _ _
    unfold cosineReaches
    cases row.embedding with
    | none =>
        cases entry.embedding with
        | none => rfl
        | some right => rfl
    | some left =>
        cases entry.embedding with
        | none => rfl
        | some right => exact hcosine left right
  unfold repeats
  rw [hjaccard, hembedding]
  simp only [eq_comm]

theorem dedupsFully_of_revivesNone (hkeys : s.DistinctIds)
    (hcomm : forall row entry, repeats host row entry = repeats host entry row)
    (hrevives : evict_to_archive.getD writebackEnabled = true ->
      RevivesNone host agent_id s) :
    DedupsFully host agent_id evict_to_archive writebackEnabled s := by
  intro env s' henv hrun
  have hkeysF := @keyed_withHashes host s hkeys
  have hreturns := (@returns_dedup host env s agent_id evict_to_archive
    hkeys).result
  rw [hrun, henv] at hreturns
  have hrows : s'.learnings = dedupedRows host agent_id
      (evict_to_archive.getD writebackEnabled) (s.withHashes host) :=
    hreturns.right rfl
  have hremains : Remains host agent_id s s' := by
    intro row
    rw [hrows]
    cases hevicts : evict_to_archive.getD writebackEnabled with
    | false => exact current_of_updates
    | true =>
        apply current_of_archive hkeysF
        intro old hold hactive lid hmark
        rcases List.mem_map.mp hold with ⟨before, hbefore, heq⟩
        rcases @hashed_fields host before with ⟨_, _, _, _, _, hstatus, hmark'⟩
        rw [heq] at hstatus hmark'
        rw [hstatus] at hactive
        rw [hmark'] at hmark
        exact hrevives hevicts before hbefore hactive lid hmark
  have hkeys' : s'.DistinctIds := by
    unfold Store.DistinctIds
    rw [hrows]
    exact keyed_dedupedRows hkeysF _
  constructor
  · exact deduped_of_remains hkeys hcomm hremains
  · intro env'
    have hhashes : (s'.learnings.filter
        fun row => row.content_hash.isNone) = [] := by
      apply List.filter_eq_nil_iff.mpr
      intro row hrow hnone
      rw [hrows] at hrow
      have hsome := hashes_dedupedRows hashes_withHashes row hrow
      rw [Option.isNone_iff_eq_none.mp hnone] at hsome
      cases hsome
    rcases @returns_unchanged host env' s' agent_id evict_to_archive hhashes
      (nothing_removed hkeys hkeys' hcomm hremains) with ⟨s'', hidle, heq⟩
    rw [hidle, heq]

/-- A pass that archives brings back what such a row had superseded. -/
theorem revivesNone_of_dedupsFully (hkeys : s.DistinctIds)
    (h : DedupsFully host agent_id evict_to_archive writebackEnabled s)
    (hevicts : evict_to_archive.getD writebackEnabled = true) :
    RevivesNone host agent_id s := by
  intro row hrow hactive lid hmark hsuperfluous
  let env : Env := { plainEnv 0 with writebackEnabled := writebackEnabled }
  have henv : env.Faultless := ⟨rfl, fun _ => rfl⟩
  have hkeysF := @keyed_withHashes host s hkeys
  rcases @returns_dedup host env s agent_id evict_to_archive hkeys with
    ⟨s', hidle, hok, hrows⟩
  have hrun : dedupActiveLearnings host env agent_id evict_to_archive
      (Connection.idle s) = (Except.ok (), Connection.idle s') :=
    Prod.ext (hok henv) hidle
  have hdeduped := (h env s' rfl hrun).left
  have hafter := hrows (hok henv)
  rw [show env.writebackEnabled = writebackEnabled from rfl, hevicts]
    at hafter
  rcases @hashed_fields host row with ⟨hid, _, _, _, _, hstatus, hmark'⟩
  have hbefore : row.hashed host ∈ (s.withHashes host).learnings :=
    List.mem_map.mpr ⟨row, hrow, rfl⟩
  have hnot : row.learning_id ∉
      (dedupPlan host agent_id (s.withHashes host)).removed := by
    intro hin
    rcases (removed_iff hkeysF).mp hin with ⟨found, hfound, hfoundId, _⟩
    rcases mem_dedupScan.mp hfound with ⟨hmem, hcurrent, _⟩
    rw [hkeysF.eq_of_id hmem hbefore (hfoundId.trans hid.symm)] at hcurrent
    have hnone := (isCurrent_iff.mp hcurrent).right
    rw [hmark', hmark] at hnone
    cases hnone
  have hcleared : (row.hashed host).cleared
      (dedupPlan host agent_id (s.withHashes host)).removed =
        { row.hashed host with superseded_by := none } := by
    unfold Learning.cleared
    rw [hmark', hmark, if_pos]
    simpa using (removed_iff hkeysF).mpr hsuperfluous
  have hrevived : { row.hashed host with superseded_by := none } ∈
      s'.learnings := by
    rw [hafter]
    show _ ∈ archived _ _
    refine mem_archived.mpr ⟨?_, row.hashed host, hbefore, hcleared⟩
    show (row.hashed host).learning_id ∉ _
    rw [hid]
    exact hnot
  rcases hdeduped.inactive _ hrevived
    (isCurrent_iff.mpr ⟨by rw [hstatus]; exact hactive, rfl⟩) with
    ⟨old, hold, holdId, hcurrent⟩
  have hsame : old = row := hkeys.eq_of_id hold hrow (holdId.trans hid)
  rw [hsame] at hcurrent
  have hnone := (isCurrent_iff.mp hcurrent).right
  rw [hmark] at hnone
  cases hnone

end Passes

/-- A pass is sound, complete and done after once, exactly when it does not
archive or archives nothing that had superseded a learning whose own status is
active. -/
theorem dedupsFully_iff (host : Host)
    (hcosine : forall left right,
      host.cosineNear left right = host.cosineNear right left)
    (agent_id : Option String) (evict_to_archive : Option Bool)
    (writebackEnabled : Bool) (s : Store) (hkeys : s.DistinctIds) :
    DedupsFully host.withShingles agent_id evict_to_archive writebackEnabled
        s <->
      (evict_to_archive.getD writebackEnabled = true ->
        RevivesNone host.withShingles agent_id s) := by
  constructor
  · intro h hevicts
    exact revivesNone_of_dedupsFully hkeys h hevicts
  · intro h
    exact dedupsFully_of_revivesNone hkeys (repeats_comm hcosine) h

namespace Revived

def rule (learning_id : Nat) (content : String) (superseded_by : Option Nat) :
    Learning where
  learning_id := learning_id
  agent_id := "main"
  category := "general"
  content := content
  embedding := none
  created_at := learning_id
  status := some LearningStatus.active
  superseded_by := superseded_by
  content_hash := some content
  writer := Writer.store

/-- The second rule superseded the first, and the third repeats the second. -/
def store : Store :=
  { Store.empty with
    learnings := [rule 1 "deploy on friday" (some 2),
      rule 2 "never deploy on friday" none,
      rule 3 "never deploy on friday" none]
    nextLearning := 4 }

theorem superseded_comes_back :
    ¬ DedupsFully plainHost.withShingles none none true store := by
  intro h
  have hrevives := revivesNone_of_dedupsFully (by decide) h rfl
  apply hrevives (rule 1 "deploy on friday" (some 2)) (by decide) rfl 2 rfl
  refine ⟨rule 2 "never deploy on friday" none, ?_, rfl, ?_⟩
  · decide +kernel
  · decide +kernel

end Revived

theorem dedupsFully_iff_archive :
    DedupsFully plainHost.withShingles none none true Revived.store <->
      (true = true -> RevivesNone plainHost.withShingles none Revived.store) :=
  dedupsFully_iff plainHost
    (fun left right => decide_eq_decide.mpr eq_comm) none none true
    Revived.store (by decide)

end Daemon
end Minni
