import Minni.Foundation.TransitionSystem
import Minni.Daemon.Statements

/-!
# Retired learnings

A learning is retired by its successor or by its status.  An eviction takes
the successor away from the rows that name it, so it brings back those whose
status is open; in a run without such an eviction no retired learning becomes
active again.
-/

namespace Minni
namespace Daemon

open Foundation
open Foundation.Db

/-!
## Runs
-/

inductive LearningCall where
  | learn (env : Env) (caller : Caller) (params : LearnParams)
  | store (env : Env) (params : StoreLearningParams)
  | resolveContradiction (env : Env) (caller : Caller)
      (params : ContradictionParams)
  | resolve (env : Env) (caller : Caller) (params : ResolveParams)
  | stage (env : Env) (caller : Caller) (params : LearnParams)
  | promote (env : Env) (cid : Nat) (reason : String)
      (verdict : Option Verdict)
  | applyResult (env : Nat -> Env) (now : Nat) (result : ConsolidationResult)
  | dedup (env : Env) (agent_id : Option String)
      (evict_to_archive : Option Bool)
  | evict (env : Env) (lid : Nat)

/-- The connection of the thread after a call. -/
def LearningCall.perform (host : Host) :
    LearningCall -> Connection Store -> Connection Store
  | learn env caller params, c => (handleLearn host env caller params c).2
  | store env params, c => (storeLearning host env params c).2
  | resolveContradiction env caller params, c =>
      (handleResolveContradiction host env caller params c).2
  | resolve env caller params, c =>
      (resolveCandidate host env caller params c).2
  | stage env caller params, c => (stageCandidate host env caller params c).2
  | promote env cid reason verdict, c =>
      (promoteCandidateDurable host env cid reason verdict c).2
  | applyResult env now result, c =>
      (applyConsolidationResult host env now result c).2
  | dedup env agent_id evict_to_archive, c =>
      (dedupActiveLearnings host env agent_id evict_to_archive c).2
  | evict env lid, c => (cursor (evictLearningToColdArchive env lid) c).2

def CallStep (host : Host) (c c' : Connection Store) : Prop :=
  exists call : LearningCall, c' = call.perform host c

abbrev CallRun (host : Host) := Relation.ReflTransGen (CallStep host)

/-- A committed row that the recall predicate does not select. -/
def Retired (lid : Nat) (s : Store) : Prop :=
  exists row, row ∈ s.learnings ∧ row.learning_id = lid ∧ row.isActive = false

def NotActive (lid : Nat) (s : Store) : Prop :=
  forall row, row ∈ s.learnings -> row.learning_id = lid ->
    row.isActive = false

/-- Every row that names the evicted learning is retired by its status too. -/
def Eviction.Clean (e : Eviction) : Prop :=
  forall row, row ∈ e.learnings -> row.superseded_by = some e.learning_id ->
    row.openStatus = false

def Store.CleanEvictions (s : Store) : Prop :=
  forall e, e ∈ s.evictions -> e.Clean

instance (e : Eviction) : Decidable e.Clean :=
  inferInstanceAs (Decidable (forall row, row ∈ e.learnings -> _ -> _))

instance (s : Store) : Decidable s.CleanEvictions :=
  inferInstanceAs (Decidable (forall e, e ∈ s.evictions -> e.Clean))

instance (lid : Nat) (s : Store) : Decidable (Retired lid s) :=
  inferInstanceAs (Decidable (exists row, row ∈ s.learnings ∧ _))

/-!
## Keys
-/

structure KeysIssued (s : Store) : Prop where
  below : forall row, row ∈ s.learnings -> row.learning_id < s.nextLearning
  distinct : (s.learnings.map (·.learning_id)).Nodup

theorem keysIssued_empty : KeysIssued Store.empty where
  below := by
    intro row hrow
    cases hrow
  distinct := List.nodup_nil

theorem updateLearning_ids
    {f : Learning -> Learning} (hf : KeepsRow f) (lid : Nat) (s : Store) :
    (s.updateLearning lid f).learnings.map (·.learning_id) =
      s.learnings.map (·.learning_id) := by
  show (s.learnings.map _).map _ = _
  rw [List.map_map]
  apply List.map_congr_left
  intro row _
  show (if row.learning_id = lid then f row else row).learning_id =
    row.learning_id
  split
  · exact hf.learning_id row
  · rfl

theorem mem_updateLearning
    {lid : Nat} {f : Learning -> Learning} {s : Store} {row : Learning}
    (h : row ∈ (s.updateLearning lid f).learnings) :
    exists old, old ∈ s.learnings ∧ (row = old ∨ row = f old) := by
  rcases List.mem_map.mp h with ⟨old, hold, heq⟩
  refine ⟨old, hold, ?_⟩
  split at heq
  · exact Or.inr heq.symm
  · exact Or.inl heq.symm

/-- A row that survives an eviction, with the row it was. -/
theorem mem_evict
    {lid : Nat} {s : Store} {row : Learning}
    (h : row ∈ (s.evict lid).learnings) :
    row.learning_id ≠ lid ∧
      exists old, old ∈ s.learnings ∧ row.learning_id = old.learning_id ∧
        row.writer = old.writer ∧ row.content = old.content ∧
        ((row = old ∧ old.superseded_by ≠ some lid) ∨
          (row = { old with superseded_by := none } ∧
            old.superseded_by = some lid)) := by
  rcases List.mem_filter.mp h with ⟨hmem, hkey⟩
  rcases List.mem_map.mp hmem with ⟨old, hold, heq⟩
  refine ⟨by simpa using hkey, old, hold, ?_⟩
  split at heq
  · rename_i hnamed
    cases heq
    exact ⟨rfl, rfl, rfl, Or.inr ⟨rfl, hnamed⟩⟩
  · rename_i hnamed
    cases heq
    exact ⟨rfl, rfl, rfl, Or.inl ⟨rfl, hnamed⟩⟩

theorem evict_ids (lid : Nat) (s : Store) :
    (s.evict lid).learnings.map (·.learning_id) =
      (s.learnings.map (·.learning_id)).filter (fun id => id ≠ lid) := by
  show ((s.learnings.map _).filter _).map _ = _
  rw [List.filter_map, List.filter_map, List.map_map]
  have hid : forall row : Learning,
      (if row.superseded_by = some lid then { row with superseded_by := none }
        else row).learning_id = row.learning_id := by
    intro row
    split <;> rfl
  have hfilter : (s.learnings.filter
      ((fun row => decide (row.learning_id ≠ lid)) ∘ fun row =>
        if row.superseded_by = some lid then { row with superseded_by := none }
        else row)) =
      s.learnings.filter
        ((fun id => decide (id ≠ lid)) ∘ fun row => row.learning_id) := by
    apply List.filter_congr
    intro row _
    simp only [Function.comp]
    rw [hid]
  rw [hfilter]
  apply List.map_congr_left
  intro row _
  exact hid row

theorem statement_keysIssued
    {admits : Learning -> Prop} {s s' : Store}
    (hstep : Statement admits s s') (h : KeysIssued s) : KeysIssued s' := by
  cases hstep with
  | insertLearning row key admitted =>
      constructor
      · intro other hother
        show other.learning_id < s.nextLearning + 1
        rcases List.mem_append.mp hother with hold | hnew
        · exact Nat.lt_succ_of_lt (h.below other hold)
        · rw [List.mem_singleton.mp hnew, key]
          exact Nat.lt_succ_self _
      · show ((s.learnings ++ [row s.nextLearning]).map _).Nodup
        rw [List.map_append, List.nodup_append]
        refine ⟨h.distinct, List.nodup_singleton _, ?_⟩
        intro id hid other hother heq
        rcases List.mem_map.mp hid with ⟨old, hold, hkey⟩
        have hbelow := h.below old hold
        have hnext : other = s.nextLearning :=
          (List.mem_singleton.mp hother).trans key
        rw [hkey, heq, hnext] at hbelow
        exact Nat.lt_irrefl _ hbelow
  | updateLearning lid f keeps =>
      constructor
      · intro row hrow
        rcases mem_updateLearning hrow with ⟨old, hold, heq⟩
        have hbelow := h.below old hold
        rcases heq with heq | heq
        · rw [heq]
          exact hbelow
        · rw [heq, keeps.learning_id]
          exact hbelow
      · rw [updateLearning_ids keeps]
        exact h.distinct
  | evict lid =>
      constructor
      · intro row hrow
        rcases mem_evict hrow with ⟨_, old, hold, hid, _⟩
        rw [hid]
        exact h.below old hold
      · rw [evict_ids]
        exact h.distinct.filter _
  | bookkeeping _ learnings nextLearning evictions =>
      constructor
      · rw [learnings, nextLearning]
        exact h.below
      · rw [learnings]
        exact h.distinct

/-- A key names one row. -/
theorem KeysIssued.row_eq
    {s : Store} (h : KeysIssued s) {left right : Learning}
    (hleft : left ∈ s.learnings) (hright : right ∈ s.learnings)
    (heq : left.learning_id = right.learning_id) : left = right :=
  List.inj_on_of_nodup_map h.distinct hleft hright heq

/-!
## One statement
-/

theorem statement_evictions
    {admits : Learning -> Prop} {s s' : Store}
    (hstep : Statement admits s s') (hclean : s'.CleanEvictions) :
    s.CleanEvictions := by
  cases hstep with
  | insertLearning row key admitted => exact hclean
  | updateLearning lid f keeps => exact hclean
  | evict lid =>
      intro e he
      exact hclean e (List.mem_append.mpr (Or.inl he))
  | bookkeeping _ learnings nextLearning evictions =>
      intro e he
      apply hclean e
      rw [evictions]
      exact he

/-- What stays true of a retired learning as long as the evictions are
clean. -/
def StaysRetired (lid : Nat) (s : Store) : Prop :=
  s.CleanEvictions -> lid < s.nextLearning ∧ NotActive lid s

theorem statement_staysRetired
    {admits : Learning -> Prop} {s s' : Store} {lid : Nat}
    (hstep : Statement admits s s') (h : StaysRetired lid s) :
    StaysRetired lid s' := by
  intro hclean
  rcases h (statement_evictions hstep hclean) with ⟨hissued, hinactive⟩
  cases hstep with
  | insertLearning row key admitted =>
      constructor
      · exact Nat.lt_succ_of_lt hissued
      · intro other hother hid
        rcases List.mem_append.mp hother with hold | hnew
        · exact hinactive other hold hid
        · rw [List.mem_singleton.mp hnew, key] at hid
          omega
  | updateLearning target f keeps =>
      constructor
      · exact hissued
      · intro row hrow hid
        rcases mem_updateLearning hrow with ⟨old, hold, heq⟩
        rcases heq with heq | heq
        · rw [heq] at hid ⊢
          exact hinactive old hold hid
        · rw [heq, keeps.learning_id] at hid
          have hold' := hinactive old hold hid
          cases hactive : row.isActive with
          | false => rfl
          | true =>
              rw [heq] at hactive
              rw [keeps.active old hactive] at hold'
              exact hold'
  | evict target =>
      constructor
      · exact hissued
      · intro row hrow hid
        rcases mem_evict hrow with ⟨_, old, hold, hkey, _, _, heq⟩
        rw [hkey] at hid
        have hold' := hinactive old hold hid
        rcases heq with ⟨heq, _⟩ | ⟨heq, hnamed⟩
        · rw [heq]
          exact hold'
        · -- the eviction found the row, which its status retires
          have hclosed : old.openStatus = false :=
            hclean { learning_id := target, learnings := s.learnings }
              (List.mem_append.mpr (Or.inr (List.mem_singleton.mpr rfl)))
              old hold hnamed
          rw [heq]
          show (true && old.openStatus) = false
          rw [hclosed]
          rfl
  | bookkeeping _ learnings nextLearning evictions =>
      constructor
      · rw [nextLearning]
        exact hissued
      · intro row hrow hid
        rw [learnings] at hrow
        exact hinactive row hrow hid

/-- Conversely, an eviction that is not clean brings a learning back. -/
theorem evict_resurrects
    {s : Store} {lid : Nat} {row : Learning}
    (hrow : row ∈ s.learnings) (hid : row.learning_id ≠ lid)
    (hnamed : row.superseded_by = some lid)
    (hopen : row.openStatus = true) :
    row.isActive = false ∧
      exists back, back ∈ (s.evict lid).learnings ∧
        back.learning_id = row.learning_id ∧ back.isActive = true := by
  constructor
  · simp [Learning.isActive, hnamed]
  · refine ⟨{ row with superseded_by := none }, ?_, rfl, ?_⟩
    · apply List.mem_filter.mpr
      constructor
      · apply List.mem_map.mpr
        exact ⟨row, hrow, by simp [hnamed]⟩
      · simpa using hid
    · show (true && row.openStatus) = true
      rw [hopen]
      rfl

/-!
## Calls and runs
-/

theorem gate_any (host : Host) : Gate host (fun _ => True) where
  learn := fun _ _ _ _ => trivial
  stage := fun _ _ _ _ => trivial
  resolve := fun _ _ _ _ => trivial
  contradiction := fun _ _ _ _ => trivial
  promote := fun _ _ _ _ _ _ _ _ _ => trivial

/-- A property that every statement keeps is kept by every call. -/
theorem perform_keeps
    {host : Host} {P : Store -> Prop}
    (hP : forall s s', Statement (fun _ => True) s s' -> P s -> P s')
    (call : LearningCall) {c : Connection Store} (hc : Throughout P c) :
    Throughout P (call.perform host c) := by
  have gate := gate_any host
  cases call with
  | learn env caller params =>
      exact performs_handleLearn gate.toCallGate env caller params P hP c hc
  | store env params =>
      exact @performs_storeLearning host _ _ _ (fun _ => trivial) P hP c hc
  | resolveContradiction env caller params =>
      exact performs_handleResolveContradiction gate.toCallGate env caller
        params P hP c hc
  | resolve env caller params =>
      exact performs_resolveCandidate gate.toCallGate env caller params P hP c
        hc
  | stage env caller params =>
      exact performs_stageCandidate gate.toCallGate env caller params P hP c
        hc
  | promote env cid reason verdict =>
      exact performs_promote gate env cid reason verdict P hP c hc
  | applyResult env now result =>
      exact performs_applyConsolidationResult env now result
        (fun cid _ => performs_applyPromotion gate env result cid) P hP c hc
  | dedup env agent_id evict_to_archive =>
      exact performs_dedupActiveLearnings env agent_id evict_to_archive P hP c
        hc
  | evict env lid =>
      exact performs_cursor (performs_evict env lid) P hP c hc

theorem run_keeps
    {host : Host} {P : Store -> Prop}
    (hP : forall s s', Statement (fun _ => True) s s' -> P s -> P s')
    {c c' : Connection Store} (hrun : CallRun host c c')
    (hc : Throughout P c) : Throughout P c' := by
  induction hrun with
  | refl => exact hc
  | tail _ hlast ih =>
      rcases hlast with ⟨call, hcall⟩
      rw [hcall]
      exact perform_keeps hP call ih

theorem perform_idle
    {host : Host} (call : LearningCall) (s : Store) :
    exists s', call.perform host (Connection.idle s) = Connection.idle s' := by
  cases call with
  | learn env caller params => exact closes_handleLearn env caller params s
  | store env params => exact closes_cursor _ s
  | resolveContradiction env caller params =>
      exact closes_handleResolveContradiction env caller params s
  | resolve env caller params => exact closes_resolveCandidate env caller params s
  | stage env caller params => exact closes_stageCandidate env caller params s
  | promote env cid reason verdict =>
      exact closes_promote env cid reason verdict s
  | applyResult env now result =>
      exact closes_applyConsolidationResult env now result s
  | dedup env agent_id evict_to_archive =>
      exact closes_dedupActiveLearnings env agent_id evict_to_archive s
  | evict env lid => exact closes_cursor _ s

theorem run_idle
    {host : Host} {s : Store} {c : Connection Store}
    (hrun : CallRun host (Connection.idle s) c) :
    exists s', c = Connection.idle s' := by
  induction hrun with
  | refl => exact ⟨s, rfl⟩
  | tail _ hlast ih =>
      rcases hlast with ⟨call, hcall⟩
      rcases ih with ⟨s', hidle⟩
      rw [hcall, hidle]
      exact perform_idle call s'

/-!
## Once retired
-/

theorem run_keysIssued
    {host : Host} {c : Connection Store}
    (hrun : CallRun host (Connection.idle Store.empty) c) :
    KeysIssued c.committed :=
  (run_keeps (fun _ _ hstep h => statement_keysIssued hstep h) hrun
    (throughout_idle keysIssued_empty)).left

theorem KeysIssued.notActive
    {s : Store} (h : KeysIssued s) {lid : Nat} (hretired : Retired lid s) :
    lid < s.nextLearning ∧ NotActive lid s := by
  rcases hretired with ⟨row, hrow, hid, hinactive⟩
  constructor
  · rw [← hid]
    exact h.below row hrow
  · intro other hother hother_id
    have heq : other = row := h.row_eq hother hrow (hother_id.trans hid.symm)
    rw [heq]
    exact hinactive

/-- Once retired, a learning is never selected again. -/
def NoResurrection (host : Host) : Prop :=
  forall first later : Connection Store, forall lid : Nat,
    CallRun host (Connection.idle Store.empty) first ->
    CallRun host first later ->
    Retired lid first.committed ->
    NotActive lid later.committed

theorem retired_stays_retired
    (host : Host) (first later : Connection Store) (lid : Nat)
    (hfirst : CallRun host (Connection.idle Store.empty) first)
    (hlater : CallRun host first later)
    (hclean : later.committed.CleanEvictions)
    (hretired : Retired lid first.committed) :
    NotActive lid later.committed := by
  have hstays : StaysRetired lid first.committed :=
    fun _ => (run_keysIssued hfirst).notActive hretired
  -- between calls the connection reads what is committed
  rcases run_idle hfirst with ⟨s, hidle⟩
  have hthroughout : Throughout (StaysRetired lid) first := by
    rw [hidle] at hstays ⊢
    exact throughout_idle hstays
  have hfinal := run_keeps
    (fun _ _ hstep h => statement_staysRetired hstep h) hlater hthroughout
  exact (hfinal.left hclean).right

def learnText (now : Nat) (content : String) (supersedes : Option Nat) :
    LearningCall :=
  LearningCall.learn (plainEnv now) (Except.ok localOperator)
    { LearnParams.ofContent content with
      force := true
      supersedes := supersedes }

/-- A correction retires its predecessor by the status too, and the eviction of
the correction leaves it retired. -/
def correctedConnection : Connection Store :=
  (LearningCall.resolveContradiction (plainEnv 2) (Except.ok localOperator)
    { new_content := "the gateway listens on port 9090"
      supersede_ids := some [some 1]
      category := none }).perform plainHost
    ((learnText 1 "the gateway listens on port 8080" none).perform plainHost
      (Connection.idle Store.empty))

theorem corrected_stays_retired :
    NotActive 1 ((LearningCall.evict (plainEnv 3) 2).perform plainHost
      correctedConnection).committed :=
  retired_stays_retired plainHost correctedConnection _ 1
    ((Relation.ReflTransGen.single ⟨_, rfl⟩).tail ⟨_, rfl⟩)
    (Relation.ReflTransGen.single ⟨_, rfl⟩)
    (by decide +kernel) (by decide +kernel)

/-- A learn that replaces another sets its successor only; when the successor
is evicted, the replaced learning is active again. -/
def replacedConnection : Connection Store :=
  (learnText 2 "the gateway listens on port 9090" (some 1)).perform plainHost
    ((learnText 1 "the gateway listens on port 8080" none).perform plainHost
      (Connection.idle Store.empty))

def evictedConnection : Connection Store :=
  (LearningCall.evict (plainEnv 3) 2).perform plainHost replacedConnection

theorem replaced_then_evicted :
    (replacedConnection.committed.learnings.any fun row =>
      row.learning_id = 1 && !row.isActive) = true ∧
    (evictedConnection.committed.learnings.any fun row =>
      row.learning_id = 1 && row.isActive) = true := by
  decide +kernel

theorem retired_resurrected : ¬ NoResurrection plainHost := by
  intro h
  have hrun : CallRun plainHost (Connection.idle Store.empty)
      replacedConnection :=
    (Relation.ReflTransGen.single ⟨_, rfl⟩).tail ⟨_, rfl⟩
  have hevict : CallRun plainHost replacedConnection evictedConnection :=
    Relation.ReflTransGen.single ⟨_, rfl⟩
  rcases replaced_then_evicted with ⟨hbefore, hafter⟩
  rcases List.any_eq_true.mp hbefore with ⟨old, hold, hretired⟩
  rcases List.any_eq_true.mp hafter with ⟨row, hrow, hactive⟩
  simp only [Bool.and_eq_true, decide_eq_true_eq, Bool.not_eq_true'] at hretired
  simp only [Bool.and_eq_true, decide_eq_true_eq] at hactive
  have hinactive := h replacedConnection evictedConnection 1 hrun hevict
    ⟨old, hold, hretired⟩ row hrow hactive.left
  rw [hinactive] at hactive
  cases hactive.right

/-!
## What a key stands for
-/

def SameRow (old row : Learning) : Prop :=
  row.learning_id = old.learning_id ∧ row.agent_id = old.agent_id ∧
    row.content = old.content ∧ row.writer = old.writer

/-- A row was there before, or has a key that was not given out then. -/
def RowsFrom (before s : Store) : Prop :=
  before.nextLearning ≤ s.nextLearning ∧
    forall row, row ∈ s.learnings ->
      (exists old, old ∈ before.learnings ∧ SameRow old row) ∨
        before.nextLearning ≤ row.learning_id

theorem rowsFrom_refl (s : Store) : RowsFrom s s :=
  ⟨Nat.le_refl _, fun row hrow => Or.inl ⟨row, hrow, rfl, rfl, rfl, rfl⟩⟩

/-- A row that is another one under its key comes from where that one does. -/
theorem RowsFrom.same
    {before s : Store} (h : RowsFrom before s) {old row : Learning}
    (hold : old ∈ s.learnings) (hsame : SameRow old row) :
    (exists first, first ∈ before.learnings ∧ SameRow first row) ∨
      before.nextLearning ≤ row.learning_id := by
  rcases hsame with ⟨hid, hagent, hcontent, hwriter⟩
  rcases h.right old hold with ⟨first, hfirst, hid', hagent', hcontent',
    hwriter'⟩ | hnew
  · exact Or.inl ⟨first, hfirst, hid.trans hid', hagent.trans hagent',
      hcontent.trans hcontent', hwriter.trans hwriter'⟩
  · right
    rw [hid]
    exact hnew

theorem statement_rowsFrom
    {admits : Learning -> Prop} {before s s' : Store}
    (hstep : Statement admits s s') (h : RowsFrom before s) :
    RowsFrom before s' := by
  cases hstep with
  | insertLearning row key admitted =>
      constructor
      · exact Nat.le_succ_of_le h.left
      · intro other hother
        rcases List.mem_append.mp hother with hold | hnew
        · exact h.right other hold
        · right
          rw [List.mem_singleton.mp hnew, key]
          exact h.left
  | updateLearning lid f keeps =>
      constructor
      · exact h.left
      · intro row hrow
        rcases mem_updateLearning hrow with ⟨old, hold, rfl | rfl⟩
        · exact h.right row hold
        · exact h.same hold ⟨keeps.learning_id old, keeps.agent_id old,
            keeps.content old, keeps.writer old⟩
  | evict lid =>
      constructor
      · exact h.left
      · intro row hrow
        rcases mem_evict hrow with
          ⟨_, old, hold, _, _, _, ⟨rfl, _⟩ | ⟨rfl, _⟩⟩
        · exact h.right row hold
        · exact h.same hold ⟨rfl, rfl, rfl, rfl⟩
  | bookkeeping _ learnings nextLearning evictions =>
      constructor
      · rw [nextLearning]
        exact h.left
      · rw [learnings]
        exact h.right

/-- In every run a key stands for one owner, text and writer, and when its row
is gone it is given to no other. -/
theorem key_names_one_text
    (host : Host) (first later : Connection Store)
    (hfirst : CallRun host (Connection.idle Store.empty) first)
    (hlater : CallRun host first later) :
    (later.committed.learnings.map (·.learning_id)).Nodup ∧
      forall row, row ∈ later.committed.learnings ->
        row.learning_id < first.committed.nextLearning ->
          exists old, old ∈ first.committed.learnings ∧ SameRow old row := by
  constructor
  · exact (run_keysIssued (hfirst.trans hlater)).distinct
  · rcases run_idle hfirst with ⟨s, rfl⟩
    have hrows : RowsFrom s later.committed :=
      (run_keeps (fun _ _ hstep h => statement_rowsFrom hstep h) hlater
        (throughout_idle (rowsFrom_refl s))).left
    intro row hrow hissued
    rcases hrows.right row hrow with hold | hnew
    · exact hold
    · exact absurd hissued (Nat.not_lt.mpr hnew)

/-- The second learn leaves the first one its text. -/
theorem replaced_key_names_one_text :
    exists row old, row ∈ replacedConnection.committed.learnings ∧
      row.learning_id = 1 ∧ SameRow old row := by
  have hlearned : (replacedConnection.committed.learnings.any fun row =>
      row.learning_id = 1) = true := by
    decide +kernel
  rcases List.any_eq_true.mp hlearned with ⟨row, hrow, hid⟩
  have hkey : row.learning_id = 1 := of_decide_eq_true hid
  have hissued : row.learning_id <
      ((learnText 1 "the gateway listens on port 8080" none).perform plainHost
        (Connection.idle Store.empty)).committed.nextLearning := by
    rw [hkey]
    decide +kernel
  rcases (key_names_one_text plainHost _ replacedConnection
    (Relation.ReflTransGen.single ⟨_, rfl⟩)
    (Relation.ReflTransGen.single ⟨_, rfl⟩)).right row hrow hissued with
      ⟨old, _, hsame⟩
  exact ⟨row, old, hrow, hkey, hsame⟩

end Daemon
end Minni
