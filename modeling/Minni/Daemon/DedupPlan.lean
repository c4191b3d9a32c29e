import Minni.Daemon.Promotion
import Minni.Foundation.Greedy

/-!
# What the scan for duplicates plans

The scan keeps the first learning of each kind, newest first.  The others are
planned to go, each for its low signal or for a kept learning that it repeats.
-/

namespace Minni
namespace Daemon

open Foundation

section Plan

variable (host : Host)

def groupOf (row : Learning) : String × String :=
  (row.agent_id, host.lower (PyText.strip
    ((orElseText (some row.category) none).getD "general")))

/-- One learning repeats another of its owner: by its hash, or within the
category by one of the two measures. -/
def repeats (row entry : Learning) : Bool :=
  ((row.agent_id, storedHash host row) =
      (entry.agent_id, storedHash host entry)) ||
    (groupOf host row = groupOf host entry &&
      (host.jaccardNear row.content entry.content ||
        cosineReaches host row.embedding entry.embedding))

def lowSignal (row : Learning) : Bool :=
  host.is_low_signal_boot_learning row.content

def keepers (rows : List Learning) : List Learning :=
  Greedy.keepers (lowSignal host) (repeats host) rows

def DedupPlan.removed (plan : DedupPlan) : List Nat :=
  plan.dupUpdates.map (·.2) ++ plan.lowSignal

/-!
## One row
-/

variable {host} {plan : DedupPlan} {kept : List Learning} {row : Learning}

theorem winner_found {winner : Nat}
    (hwinners : plan.winners = kept.map fun e =>
      ((e.agent_id, storedHash host e), e.learning_id))
    (h : plan.winners.lookup (row.agent_id, storedHash host row) =
      some winner) :
    exists e, e ∈ kept ∧ repeats host row e = true ∧
      e.learning_id = winner := by
  rw [hwinners] at h
  rcases List.lookup_eq_some_iff.mp h with ⟨before, after, heq, _⟩
  have hmem : ((row.agent_id, storedHash host row), winner) ∈
      kept.map fun e => ((e.agent_id, storedHash host e), e.learning_id) := by
    rw [heq]
    exact List.mem_append_right _ List.mem_cons_self
  rcases List.mem_map.mp hmem with ⟨e, he, hentry⟩
  rcases Prod.mk.inj hentry with ⟨hkey, hid⟩
  refine ⟨e, he, ?_, hid⟩
  unfold repeats
  rw [hkey, decide_eq_true rfl, Bool.true_or]

theorem no_winner
    (hwinners : plan.winners = kept.map fun e =>
      ((e.agent_id, storedHash host e), e.learning_id))
    (h : plan.winners.lookup (row.agent_id, storedHash host row) = none) :
    forall e, e ∈ kept -> (row.agent_id, storedHash host row) ≠
      (e.agent_id, storedHash host e) := by
  intro e he heq
  rw [hwinners] at h
  have hdiffers := List.lookup_eq_none_iff.mp h _
    (List.mem_map.mpr ⟨e, he, rfl⟩)
  rw [heq] at hdiffers
  simp at hdiffers

/-- What the scan does with a row. -/
theorem dedupRow_cases
    (hwinners : plan.winners = kept.map fun e =>
      ((e.agent_id, storedHash host e), e.learning_id))
    (hgroups : plan.groups = kept.map fun e => (groupOf host e, e)) :
    (lowSignal host row = true ∧
      dedupRow host plan row =
        { plan with lowSignal := plan.lowSignal ++ [row.learning_id] }) ∨
    (lowSignal host row = false ∧
      exists e, e ∈ kept ∧ repeats host row e = true ∧
        dedupRow host plan row =
          { plan with
            dupUpdates :=
              plan.dupUpdates ++ [(e.learning_id, row.learning_id)] }) ∨
    (lowSignal host row = false ∧
      (forall e, e ∈ kept -> repeats host row e = false) ∧
      dedupRow host plan row =
        { plan with
          winners := plan.winners ++
            [((row.agent_id, storedHash host row), row.learning_id)]
          groups := plan.groups ++ [(groupOf host row, row)] }) := by
  unfold dedupRow
  cases hlow : host.is_low_signal_boot_learning row.content with
  | true => exact Or.inl ⟨hlow, rfl⟩
  | false =>
      right
      simp only [Bool.false_eq_true, if_false]
      cases hlookup : plan.winners.lookup
          (row.agent_id, storedHash host row) with
      | some winner =>
          left
          rcases winner_found hwinners hlookup with ⟨e, he, hlike, hid⟩
          exact ⟨hlow, e, he, hlike, by rw [hid]⟩
      | none =>
          have hhash := no_winner hwinners hlookup
          dsimp only
          split
          · rename_i entry hentry
            left
            have hmem := List.mem_of_find?_eq_some hentry
            have hlike := List.find?_some hentry
            rw [hgroups] at hmem
            rcases List.mem_map.mp hmem with ⟨e, he, heq⟩
            rw [← heq] at hlike ⊢
            rw [Bool.and_eq_true, decide_eq_true_eq] at hlike
            refine ⟨hlow, e, he, ?_, rfl⟩
            unfold repeats
            have hgroup : groupOf host row = groupOf host e :=
              hlike.left.symm
            rw [decide_eq_true hgroup, Bool.true_and, hlike.right,
              Bool.or_true]
          · rename_i hnone
            right
            refine ⟨hlow, ?_, rfl⟩
            intro e he
            have hmem : (groupOf host e, e) ∈ plan.groups := by
              rw [hgroups]
              exact List.mem_map.mpr ⟨e, he, rfl⟩
            have hfails := List.find?_eq_none.mp hnone _ hmem
            rw [Bool.and_eq_true, decide_eq_true_eq, not_and] at hfails
            unfold repeats
            rw [decide_eq_false (hhash e he), Bool.false_or]
            cases hgroup : decide (groupOf host row = groupOf host e) with
            | false => rfl
            | true =>
                rw [Bool.true_and]
                exact Bool.eq_false_iff.mpr
                  (hfails (of_decide_eq_true hgroup).symm)

/-!
## All rows
-/

/-- The plan after the rows: its winners are the learnings that are kept, and
it removes all others. -/
structure Gathered (host : Host) (rows : List Learning) (plan : DedupPlan) :
    Prop where
  winners : plan.winners = (keepers host rows).map fun e =>
    ((e.agent_id, storedHash host e), e.learning_id)
  groups : plan.groups = (keepers host rows).map fun e => (groupOf host e, e)
  of_removed : forall lid, lid ∈ plan.removed -> exists row, row ∈ rows ∧
    row.learning_id = lid ∧ row ∉ keepers host rows
  removes : forall row, row ∈ rows -> row ∉ keepers host rows ->
    row.learning_id ∈ plan.removed
  distinct : plan.removed.Nodup

theorem gathered_nil : Gathered host [] DedupPlan.empty where
  winners := rfl
  groups := rfl
  of_removed := by
    intro lid hlid
    cases hlid
  removes := by
    intro row hrow
    cases hrow
  distinct := List.nodup_nil

section Snoc

variable {rows : List Learning}

theorem keepers_snoc (rows : List Learning) (row : Learning) :
    keepers host (rows ++ [row]) =
      if lowSignal host row || (keepers host rows).any (repeats host row) then
        keepers host rows
      else keepers host rows ++ [row] :=
  Greedy.keepers_snoc (lowSignal host) (repeats host) rows row

theorem mem_of_mem_keepers (h : row ∈ keepers host rows) : row ∈ rows :=
  Greedy.mem_of_mem_keepers h

/-- A row that is not kept is added to what the plan removes. -/
theorem gathered_removes {plan' : DedupPlan} (h : Gathered host rows plan)
    (hfresh : forall other, other ∈ rows ->
      other.learning_id ≠ row.learning_id)
    (hkeepers : keepers host (rows ++ [row]) = keepers host rows)
    (hwinners : plan'.winners = plan.winners)
    (hgroups : plan'.groups = plan.groups)
    (hremoved : List.Perm plan'.removed (row.learning_id :: plan.removed)) :
    Gathered host (rows ++ [row]) plan' := by
  have hnot : row ∉ keepers host rows := by
    intro hkept
    exact hfresh row (mem_of_mem_keepers hkept) rfl
  constructor
  · rw [hwinners, h.winners, hkeepers]
  · rw [hgroups, h.groups, hkeepers]
  · intro lid hlid
    rw [hkeepers]
    rcases List.mem_cons.mp (hremoved.mem_iff.mp hlid) with hhere | hbefore
    · exact ⟨row, List.mem_append_right _ (List.mem_singleton_self row),
        hhere.symm, hnot⟩
    · rcases h.of_removed lid hbefore with ⟨other, hother, hid, hgone⟩
      exact ⟨other, List.mem_append_left _ hother, hid, hgone⟩
  · intro other hother hgone
    rw [hkeepers] at hgone
    apply hremoved.mem_iff.mpr
    rcases List.mem_append.mp hother with hbefore | hhere
    · exact List.mem_cons_of_mem _ (h.removes other hbefore hgone)
    · rw [List.mem_singleton.mp hhere]
      exact List.mem_cons_self
  · apply hremoved.nodup_iff.mpr
    apply List.nodup_cons.mpr
    constructor
    · intro hmem
      rcases h.of_removed _ hmem with ⟨other, hother, hid, _⟩
      exact hfresh other hother hid
    · exact h.distinct

theorem gathered_keeps {plan' : DedupPlan} (h : Gathered host rows plan)
    (hfresh : forall other, other ∈ rows ->
      other.learning_id ≠ row.learning_id)
    (hkeepers : keepers host (rows ++ [row]) = keepers host rows ++ [row])
    (hwinners : plan'.winners = plan.winners ++
      [((row.agent_id, storedHash host row), row.learning_id)])
    (hgroups : plan'.groups = plan.groups ++ [(groupOf host row, row)])
    (hremoved : plan'.removed = plan.removed) :
    Gathered host (rows ++ [row]) plan' := by
  constructor
  · rw [hwinners, h.winners, hkeepers, List.map_append]
    rfl
  · rw [hgroups, h.groups, hkeepers, List.map_append]
    rfl
  · intro lid hlid
    rw [hremoved] at hlid
    rcases h.of_removed lid hlid with ⟨other, hother, hid, hgone⟩
    refine ⟨other, List.mem_append_left _ hother, hid, ?_⟩
    rw [hkeepers]
    intro hkept
    rcases List.mem_append.mp hkept with hbefore | hhere
    · exact hgone hbefore
    · exact hfresh other hother
        (congrArg (·.learning_id) (List.mem_singleton.mp hhere))
  · intro other hother hgone
    rw [hkeepers] at hgone
    rw [hremoved]
    rcases List.mem_append.mp hother with hbefore | hhere
    · exact h.removes other hbefore
        fun hkept => hgone (List.mem_append_left _ hkept)
    · exact absurd (List.mem_append_right _ hhere) hgone
  · rw [hremoved]
    exact h.distinct

theorem gathered_snoc (h : Gathered host rows plan)
    (hfresh : forall other, other ∈ rows ->
      other.learning_id ≠ row.learning_id) :
    Gathered host (rows ++ [row]) (dedupRow host plan row) := by
  rcases @dedupRow_cases host plan _ row h.winners h.groups with
    ⟨hlow, hplan⟩ | ⟨hlow, e, he, hlike, hplan⟩ | ⟨hlow, hapart, hplan⟩
  · rw [hplan]
    apply gathered_removes h hfresh
    · rw [keepers_snoc, hlow, Bool.true_or, if_pos rfl]
    · rfl
    · rfl
    · show List.Perm (plan.dupUpdates.map (·.2) ++
        (plan.lowSignal ++ [row.learning_id])) _
      rw [← List.append_assoc]
      exact List.perm_append_singleton _ _
  · rw [hplan]
    apply gathered_removes h hfresh
    · rw [keepers_snoc, List.any_eq_true.mpr ⟨e, he, hlike⟩, Bool.or_true,
        if_pos rfl]
    · rfl
    · rfl
    · show List.Perm ((plan.dupUpdates ++
        [(e.learning_id, row.learning_id)]).map (·.2) ++ plan.lowSignal) _
      rw [List.map_append, List.append_assoc]
      exact List.perm_middle
  · rw [hplan]
    apply gathered_keeps h hfresh
    · rw [keepers_snoc, if_neg]
      rw [hlow, Bool.false_or, Bool.not_eq_true]
      apply List.any_eq_false.mpr
      intro e he
      exact Bool.eq_false_iff.mp (hapart e he)
    · rfl
    · rfl
    · rfl

end Snoc

/-- The whole scan. -/
theorem gathered_scan {rows : List Learning}
    (hdistinct : (rows.map (·.learning_id)).Nodup) :
    Gathered host rows (rows.foldl (dedupRow host) DedupPlan.empty) := by
  induction rows using List.reverseRecOn with
  | nil => exact gathered_nil
  | append_singleton rows row ih =>
      rw [List.map_append] at hdistinct
      rcases List.nodup_append.mp hdistinct with ⟨hbefore, _, happart⟩
      rw [List.foldl_append]
      apply gathered_snoc (ih hbefore)
      intro other hother
      exact happart _ (List.mem_map.mpr ⟨other, hother, rfl⟩) _
        (List.mem_singleton_self _)

end Plan

end Daemon
end Minni
