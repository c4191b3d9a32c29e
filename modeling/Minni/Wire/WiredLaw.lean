import Minni.Foundation.History
import Minni.Wire.Wired

/-!
# Registrations that stay

What the registry promises: a published record stays until it is replaced or
retired, a recorded gate stays until it is recorded again, and the generation
grows with every write.  The runs that keep the promise are exactly those in
which each unlocked writer finds, when it writes, the file it has read.
-/

namespace Minni
namespace Wire

open Foundation

/-!
## The promise
-/

def Publishes (w : Written) (record : WireRecord) : Prop :=
  exists expected_record, w.call = Call.upsert_wire record expected_record

/-- The write replaced the record or retired its platform. -/
def Displaces (w : Written) (record : WireRecord) : Prop :=
  match w.call with
  | Call.upsert_wire other _ => sameWire other record = true
  | Call.retire_platform platform => record.platform = platform
  | _ => False

def RecordsGate (w : Written) (gate : UiScannerHost × UiScannerGate) : Prop :=
  exists args, w.call = Call.record_ui_scanner_gate args ∧
    gate = (args.host_id, gateRecord args)

/-- The write recorded a gate of the same host. -/
def OverwritesGate (w : Written) (gate : UiScannerHost × UiScannerGate) :
    Prop :=
  match w.call with
  | Call.record_ui_scanner_gate args => args.host_id = gate.1
  | _ => False

def gateIn (data : WiredDoc) (host : UiScannerHost) : Option UiScannerGate :=
  (data.hosts.bind (·.lookup host.id)).bind (·.ui_scanner_gate)

def RecordsPresent (s : Registry) : Prop :=
  forall record, History.Stands Publishes Displaces s.writes record ->
    record ∈ (loadWired s.file).wires

def GatesPresent (s : Registry) : Prop :=
  forall gate, History.Stands RecordsGate OverwritesGate s.writes gate ->
    gateIn (loadWired s.file) gate.1 = some gate.2

def GenerationsIncrease (s : Registry) : Prop :=
  s.writes.Pairwise fun w later => w.doc.generation < later.doc.generation

structure NothingLost (s : Registry) : Prop where
  records : RecordsPresent s
  gates : GatesPresent s
  generations : GenerationsIncrease s

/-- No process is in a call. -/
def Completed (s : Registry) : Prop :=
  forall pid, s.processes pid = none

/-!
## What one document takes over from another
-/

theorem mem_putWire (record : WireRecord) (wires : List WireRecord) :
    record ∈ putWire record wires := by
  induction wires with
  | nil =>
      exact List.mem_singleton.mpr rfl
  | cons wire rest ih =>
      unfold putWire
      by_cases hsame : sameWire record wire = true
      · rw [if_pos hsame]
        exact List.mem_cons_self
      · rw [if_neg hsame]
        exact List.mem_cons_of_mem _ ih

theorem mem_putWire_of_other
    {record other : WireRecord} {wires : List WireRecord}
    (hmem : other ∈ wires) (hother : ¬ sameWire record other = true) :
    other ∈ putWire record wires := by
  induction wires with
  | nil => cases hmem
  | cons wire rest ih =>
      unfold putWire
      by_cases hsame : sameWire record wire = true
      · rw [if_pos hsame]
        cases hmem with
        | head => exact absurd hsame hother
        | tail _ hrest => exact List.mem_cons_of_mem _ hrest
      · rw [if_neg hsame]
        cases hmem with
        | head => exact List.mem_cons_self
        | tail _ hrest => exact List.mem_cons_of_mem _ (ih hrest)

theorem uiScannerHost_id_injective {host other : UiScannerHost}
    (h : host.id = other.id) : host = other := by
  cases host with
  | antigravity =>
      cases other with
      | antigravity => rfl
      | cursor => simp [UiScannerHost.id] at h
  | cursor =>
      cases other with
      | antigravity => simp [UiScannerHost.id] at h
      | cursor => rfl

/-- The catalog lists the hosts that have a gate, so a new document keeps it. -/
theorem gateIn_buildWiredV2
    {catalog : Catalog} {prior : WiredDoc} {host : UiScannerHost}
    {gate : UiScannerGate} (h : gateIn prior host = some gate)
    (active_version base_semver git_commit_sha updated_at : String) :
    gateIn (buildWiredV2 catalog active_version base_semver git_commit_sha
      updated_at prior) host = some gate := by
  unfold gateIn at h
  unfold gateIn buildWiredV2
  have hlisted := catalog.listed base_semver host
  rcases Option.isSome_iff_exists.mp hlisted with ⟨entry, hentry⟩
  dsimp only
  rw [Option.bind_some, Dict.lookup_map (preserveHost prior.hosts), hentry,
    Option.map_some, Option.bind_some]
  unfold preserveHost
  cases hprior : prior.hosts.bind (·.lookup host.id) with
  | none =>
      rw [hprior] at h
      cases h
  | some prior_host =>
      rw [hprior, Option.bind_some] at h
      dsimp only
      rw [h]
      rfl

theorem gateIn_gateBase
    {catalog : Catalog} {existing : WiredDoc} {host : UiScannerHost}
    {gate : UiScannerGate} (h : gateIn existing host = some gate)
    (args : GateArgs) :
    gateIn (gateBase catalog args existing) host = some gate := by
  unfold gateBase
  by_cases hold : existing.schema_version ≠ some 2 ∨ existing.hosts = none
  · rw [if_pos hold]
    exact gateIn_buildWiredV2 h _ _ _ _
  · rw [if_neg hold]
    exact h

theorem gateBase_hosts
    (catalog : Catalog) (args : GateArgs) (existing : WiredDoc) :
    (gateBase catalog args existing).hosts =
      some ((gateBase catalog args existing).hosts.getD []) := by
  unfold gateBase
  by_cases hold : existing.schema_version ≠ some 2 ∨ existing.hosts = none
  · rw [if_pos hold]
    rfl
  · rw [if_neg hold]
    rw [not_or] at hold
    cases hhosts : existing.hosts with
    | none => exact absurd hhosts hold.right
    | some hosts => rfl

theorem gateBase_generation
    (catalog : Catalog) (args : GateArgs) (existing : WiredDoc) :
    (gateBase catalog args existing).generation =
      existing.generation + 1 := by
  unfold gateBase
  by_cases hold : existing.schema_version ≠ some 2 ∨ existing.hosts = none
  · rw [if_pos hold]
    rfl
  · rw [if_neg hold]

theorem gateBase_wires
    (catalog : Catalog) (args : GateArgs) (existing : WiredDoc) :
    (gateBase catalog args existing).wires = existing.wires := by
  unfold gateBase
  by_cases hold : existing.schema_version ≠ some 2 ∨ existing.hosts = none
  · rw [if_pos hold]
    rfl
  · rw [if_neg hold]

theorem gateIn_gateDoc_self
    (catalog : Catalog) (args : GateArgs) (existing : WiredDoc) :
    gateIn (gateDoc catalog args existing) args.host_id =
      some (gateRecord args) := by
  unfold gateIn gateDoc
  dsimp only
  rw [Option.bind_some, Dict.lookup_set, if_pos rfl]
  rfl

theorem gateIn_gateDoc_other
    {catalog : Catalog} {args : GateArgs} {existing : WiredDoc}
    {host : UiScannerHost} {gate : UiScannerGate}
    (hhost : args.host_id ≠ host) (h : gateIn existing host = some gate) :
    gateIn (gateDoc catalog args existing) host = some gate := by
  have hbase : gateIn (gateBase catalog args existing) host = some gate :=
    gateIn_gateBase h args
  have hid : host.id ≠ args.host_id.id := by
    intro hsame
    exact hhost (uiScannerHost_id_injective hsame.symm)
  unfold gateIn at hbase
  rw [gateBase_hosts] at hbase
  unfold gateIn gateDoc
  dsimp only
  rw [Option.bind_some, Dict.lookup_set, if_neg hid]
  exact hbase

/-- How a write changes the document it was computed from. -/
structure Changes (w : Written) (data : WiredDoc) : Prop where
  generation : w.doc.generation = data.generation + 1
  publishes : forall record, Publishes w record -> record ∈ w.doc.wires
  keeps_wires : forall record, record ∈ data.wires -> ¬ Displaces w record ->
    record ∈ w.doc.wires
  records : forall gate, RecordsGate w gate ->
    gateIn w.doc gate.1 = some gate.2
  keeps_gates : forall host gate, gateIn data host = some gate ->
    ¬ OverwritesGate w (host, gate) -> gateIn w.doc host = some gate

theorem newDoc_changes
    {catalog : Catalog} {call : Call} {data doc : WiredDoc}
    (h : newDoc catalog call data = some doc) (warning : Option String) :
    Changes ⟨call, doc, warning⟩ data := by
  cases call with
  | upsert_wire record expected_record =>
      unfold newDoc at h
      dsimp only at h
      by_cases hexpected : expectedHolds record expected_record data = true
      · rw [if_pos hexpected] at h
        cases h
        constructor
        · rfl
        · intro other hother
          rcases hother with ⟨_, hcall⟩
          cases hcall
          exact mem_putWire record data.wires
        · intro other hmem hnot
          exact mem_putWire_of_other hmem hnot
        · intro gate hgate
          rcases hgate with ⟨_, hcall, _⟩
          cases hcall
        · intro host gate hgate _
          exact hgate
      · rw [if_neg hexpected] at h
        cases h
  | retire_platform platform =>
      unfold newDoc at h
      dsimp only at h
      by_cases hnone : (keptWires platform data).length = data.wires.length
      · rw [if_pos hnone] at h
        cases h
      · rw [if_neg hnone] at h
        cases h
        constructor
        · rfl
        · intro other hother
          rcases hother with ⟨_, hcall⟩
          cases hcall
        · intro other hmem hnot
          exact List.mem_filter.mpr ⟨hmem, decide_eq_true hnot⟩
        · intro gate hgate
          rcases hgate with ⟨_, hcall, _⟩
          cases hcall
        · intro host gate hgate _
          exact hgate
  | record_ui_scanner_gate args =>
      cases h
      constructor
      · exact gateBase_generation catalog args data
      · intro other hother
        rcases hother with ⟨_, hcall⟩
        cases hcall
      · intro other hmem _
        change other ∈ (gateBase catalog args data).wires
        rw [gateBase_wires]
        exact hmem
      · intro gate hgate
        rcases hgate with ⟨_, hcall, hvalue⟩
        cases hcall
        rw [hvalue]
        exact gateIn_gateDoc_self catalog args data
      · intro host gate hgate hnot
        exact gateIn_gateDoc_other hnot hgate
  | execute_atomic_cutover args =>
      unfold newDoc at h
      dsimp only at h
      by_cases hsame : alreadyWiredV2Identical catalog args data = true
      · rw [if_pos hsame] at h
        cases h
      · rw [if_neg hsame] at h
        cases h
        constructor
        · rfl
        · intro other hother
          rcases hother with ⟨_, hcall⟩
          cases hcall
        · intro other hmem _
          exact hmem
        · intro gate hgate
          rcases hgate with ⟨_, hcall, _⟩
          cases hcall
        · intro host gate hgate _
          exact gateIn_buildWiredV2 hgate _ _ _ _

/-!
## What an event does
-/

inductive Step (catalog : Catalog) (s : Registry) :
    Event -> Registry -> Prop where
  | call {pid : Nat} (call : Call) :
      s.processes pid = none ->
      Step catalog s (Event.call pid call)
        (s.enter pid ⟨call, Stage.called⟩)
  | lockFirst {pid : Nat} {p : Process} :
      s.processes pid = some p -> p.stage = Stage.called -> s.lock = none ->
      Step catalog s (Event.lock pid)
        ({ s with lock := some pid }.enter pid { p with stage := Stage.locked })
  | lockThen {pid : Nat} {p : Process} {data : WiredDoc} :
      s.processes pid = some p -> p.stage = Stage.readAhead data ->
      s.lock = none ->
      Step catalog s (Event.lock pid)
        ({ s with lock := some pid }.enter pid
          { p with stage := Stage.ready data })
  | loadFirst {pid : Nat} {p : Process} :
      s.processes pid = some p -> p.stage = Stage.called ->
      readsUnderLock p.call = false ->
      Step catalog s (Event.load pid)
        (s.enter pid { p with stage := Stage.readAhead (loadWired s.file) })
  | loadThen {pid : Nat} {p : Process} :
      s.processes pid = some p -> p.stage = Stage.locked ->
      Step catalog s (Event.load pid)
        (s.enter pid { p with stage := Stage.ready (loadWired s.file) })
  | write {pid : Nat} {p : Process} {data doc : WiredDoc} :
      s.processes pid = some p -> p.stage = Stage.ready data ->
      newDoc catalog p.call data = some doc ->
      Step catalog s (Event.write pid)
        ({ s with
          file := some doc
          writes := s.writes ++
            [Written.mk p.call doc (outOfBandWarning s p.call data)] }.enter
              pid { p with stage := Stage.written })
  | leave {pid : Nat} :
      Step catalog s (Event.leave pid) (s.exit pid)
  | abort {pid : Nat} :
      Step catalog s (Event.abort pid) (s.exit pid)

theorem takeLock_step
    {catalog : Catalog} {s s' : Registry} {pid : Nat} {p : Process}
    (hp : s.processes pid = some p)
    (h : takeLock catalog s pid p = some s') :
    Step catalog s (Event.lock pid) s' := by
  unfold takeLock at h
  by_cases hfree : s.lock = none
  · rw [if_pos hfree] at h
    cases hstage : p.stage with
    | called =>
        rw [hstage] at h
        dsimp only at h
        by_cases hcall : readsUnderLock p.call = true
        · rw [if_pos hcall] at h
          cases h
          exact Step.lockFirst hp hstage hfree
        · rw [if_neg hcall] at h
          cases h
    | readAhead data =>
        rw [hstage] at h
        dsimp only at h
        by_cases hnew : (newDoc catalog p.call data).isSome = true
        · rw [if_pos hnew] at h
          cases h
          exact Step.lockThen hp hstage hfree
        · rw [if_neg hnew] at h
          cases h
    | locked =>
        rw [hstage] at h
        cases h
    | ready data =>
        rw [hstage] at h
        cases h
    | written =>
        rw [hstage] at h
        cases h
  · rw [if_neg hfree] at h
    cases h

theorem load_step
    {catalog : Catalog} {s s' : Registry} {pid : Nat} {p : Process}
    (hp : s.processes pid = some p) (h : load s pid p = some s') :
    Step catalog s (Event.load pid) s' := by
  unfold load at h
  cases hstage : p.stage with
  | called =>
      rw [hstage] at h
      dsimp only at h
      by_cases hcall : readsUnderLock p.call = true
      · rw [if_pos hcall] at h
        cases h
      · rw [if_neg hcall] at h
        cases h
        exact Step.loadFirst hp hstage (Bool.eq_false_iff.mpr hcall)
  | locked =>
      rw [hstage] at h
      cases h
      exact Step.loadThen hp hstage
  | readAhead data =>
      rw [hstage] at h
      cases h
  | ready data =>
      rw [hstage] at h
      cases h
  | written =>
      rw [hstage] at h
      cases h

theorem write_step
    {catalog : Catalog} {s s' : Registry} {pid : Nat} {p : Process}
    (hp : s.processes pid = some p) (h : write catalog s pid p = some s') :
    Step catalog s (Event.write pid) s' := by
  unfold write at h
  cases hstage : p.stage with
  | ready data =>
      rw [hstage] at h
      dsimp only at h
      cases hnew : newDoc catalog p.call data with
      | none =>
          rw [hnew] at h
          cases h
      | some doc =>
          rw [hnew] at h
          cases h
          exact Step.write hp hstage hnew
  | called =>
      rw [hstage] at h
      cases h
  | locked =>
      rw [hstage] at h
      cases h
  | readAhead data =>
      rw [hstage] at h
      cases h
  | written =>
      rw [hstage] at h
      cases h

theorem next_step
    {catalog : Catalog} {s s' : Registry} {event : Event}
    (h : next catalog s event = some s') :
    Step catalog s event s' := by
  cases event with
  | call pid call =>
      unfold next at h
      dsimp only at h
      cases hp : s.processes pid with
      | none =>
          rw [hp] at h
          cases h
          exact Step.call call hp
      | some p =>
          rw [hp] at h
          cases h
  | lock pid =>
      rcases Option.bind_eq_some_iff.mp h with ⟨p, hp, htake⟩
      exact takeLock_step hp htake
  | load pid =>
      rcases Option.bind_eq_some_iff.mp h with ⟨p, hp, hload⟩
      exact load_step hp hload
  | write pid =>
      rcases Option.bind_eq_some_iff.mp h with ⟨p, hp, hwrite⟩
      exact write_step hp hwrite
  | leave pid =>
      rcases Option.bind_eq_some_iff.mp h with ⟨p, hp, hleave⟩
      by_cases hends : leaves catalog p = true
      · rw [if_pos hends] at hleave
        cases hleave
        exact Step.leave
      · rw [if_neg hends] at hleave
        cases hleave
  | abort pid =>
      rcases Option.map_eq_some_iff.mp h with ⟨p, hp, hexit⟩
      cases hexit
      exact Step.abort

/-!
## The invariant

A process that holds the lock is the only one that writes.  What a process has
read is the document of the file, or has a smaller generation.
-/

structure SoundProcess (s : Registry) (pid : Nat) (p : Process) : Prop where
  lock : p.stage.holdsLock = true -> s.lock = some pid
  ahead : forall data, p.stage = Stage.readAhead data ->
    readsUnderLock p.call = false
  fresh : forall data, p.stage = Stage.ready data ->
    readsUnderLock p.call = true -> data = loadWired s.file
  read : forall data, p.stage.data? = some data ->
    data = loadWired s.file ∨
      (s.writes ≠ [] ∧ data.generation < (loadWired s.file).generation)

structure Sound (s : Registry) : Prop where
  processes : forall pid p, s.processes pid = some p -> SoundProcess s pid p
  file : forall w, w ∈ s.writes.getLast? -> s.file = some w.doc
  nothing : NothingLost s

/-- An unlocked writer finds, when it writes, the document it has read. -/
def findsWhatItRead (s : Registry) (event : Event) : Bool :=
  match event with
  | Event.write pid =>
      match s.processes pid with
      | none => true
      | some p =>
          readsUnderLock p.call ||
            (match p.stage.data? with
              | none => true
              | some data => decide (data = loadWired s.file))
  | _ => true

def FindsWhatItRead (s : Registry) (event : Event) : Prop :=
  findsWhatItRead s event = true

theorem initial_sound {s : Registry} (h : initial s) : Sound s := by
  rcases h with ⟨_, hprocesses, hwrites⟩
  constructor
  · intro pid p hp
    rw [hprocesses] at hp
    cases hp
  · intro w hw
    rw [hwrites] at hw
    cases hw
  · constructor
    · intro record hstands
      rw [hwrites] at hstands
      exact absurd hstands (History.not_stands_nil _ _ record)
    · intro gate hstands
      rw [hwrites] at hstands
      exact absurd hstands (History.not_stands_nil _ _ gate)
    · unfold GenerationsIncrease
      rw [hwrites]
      exact List.Pairwise.nil

theorem processes_enter (s : Registry) (pid q : Nat) (p : Process) :
    (s.enter pid p).processes q =
      if q = pid then some p else s.processes q :=
  Function.update_apply _ _ _ _

theorem processes_exit (s : Registry) (pid q : Nat) :
    (s.exit pid).processes q = if q = pid then none else s.processes q :=
  Function.update_apply _ _ _ _

/-- The states have the same file with the same history. -/
structure SameFile (s s' : Registry) : Prop where
  file : s'.file = s.file
  writes : s'.writes = s.writes

theorem NothingLost.of_sameFile
    {s s' : Registry} (h : NothingLost s) (hsame : SameFile s s') :
    NothingLost s' := by
  constructor
  · unfold RecordsPresent
    rw [hsame.file, hsame.writes]
    exact h.records
  · unfold GatesPresent
    rw [hsame.file, hsame.writes]
    exact h.gates
  · unfold GenerationsIncrease
    rw [hsame.writes]
    exact h.generations

theorem SoundProcess.of_sameFile
    {s s' : Registry} {pid : Nat} {p : Process} (h : SoundProcess s pid p)
    (hsame : SameFile s s')
    (hlock : s.lock = some pid -> s'.lock = some pid) :
    SoundProcess s' pid p := by
  constructor
  · intro hholds
    exact hlock (h.lock hholds)
  · exact h.ahead
  · rw [hsame.file]
    exact h.fresh
  · rw [hsame.file, hsame.writes]
    exact h.read

/-- A step that writes nothing: the other processes keep the lock if they have
it, and the process that steps is sound where it arrives. -/
theorem Sound.of_enter
    {s t : Registry} {pid : Nat} {p : Process} (h : Sound s)
    (hsame : SameFile s t) (hprocesses : t.processes = s.processes)
    (hlock : forall q, q ≠ pid -> s.lock = some q -> t.lock = some q)
    (hp : SoundProcess (t.enter pid p) pid p) :
    Sound (t.enter pid p) := by
  have hafter : SameFile s (t.enter pid p) := ⟨hsame.file, hsame.writes⟩
  constructor
  · intro q other hq
    rw [processes_enter, hprocesses] at hq
    by_cases hsamePid : q = pid
    · rw [if_pos hsamePid] at hq
      cases hq
      rw [hsamePid]
      exact hp
    · rw [if_neg hsamePid] at hq
      exact (h.processes q other hq).of_sameFile hafter (hlock q hsamePid)
  · rw [hafter.writes, hafter.file]
    exact h.file
  · exact h.nothing.of_sameFile hafter

theorem Sound.exit {s : Registry} (h : Sound s) (pid : Nat) :
    Sound (s.exit pid) := by
  constructor
  · intro q p hq
    rw [processes_exit] at hq
    by_cases hsame : q = pid
    · rw [if_pos hsame] at hq
      cases hq
    · rw [if_neg hsame] at hq
      have hexit : SameFile s (s.exit pid) := ⟨rfl, rfl⟩
      apply (h.processes q p hq).of_sameFile hexit
      intro hlock
      have hother : s.lock ≠ some pid := by
        rw [hlock]
        intro heq
        exact hsame (Option.some.inj heq)
      change (if s.lock = some pid then none else s.lock) = some q
      rw [if_neg hother]
      exact hlock
  · exact h.file
  · exact h.nothing.of_sameFile ⟨rfl, rfl⟩

theorem lastWritten {s : Registry} (h : Sound s) (hwrites : s.writes ≠ []) :
    exists w, w ∈ s.writes ∧ s.file = some w.doc ∧
      forall other, other ∈ s.writes ->
        other.doc.generation <= w.doc.generation := by
  rcases List.eq_nil_or_concat s.writes with hnil | ⟨front, w, hsplit⟩
  · exact absurd hnil hwrites
  · rw [List.concat_eq_append] at hsplit
    exists w
    constructor
    · rw [hsplit]
      exact List.mem_append_right _ (List.mem_singleton.mpr rfl)
    constructor
    · apply h.file
      rw [hsplit, List.getLast?_append]
      rfl
    · intro other hother
      have hgenerations := h.nothing.generations
      unfold GenerationsIncrease at hgenerations
      rw [hsplit] at hother hgenerations
      rcases List.mem_append.mp hother with hfront | hlast
      · exact Int.le_of_lt ((List.pairwise_append.mp hgenerations).right.right
          other hfront w (List.mem_singleton.mpr rfl))
      · rewrite [List.mem_singleton.mp hlast]
        exact Int.le_refl _

theorem generation_le {s : Registry} (h : Sound s) {w : Written}
    (hw : w ∈ s.writes) :
    w.doc.generation <= (loadWired s.file).generation := by
  rcases lastWritten h (List.ne_nil_of_mem hw) with ⟨last, _, hfile, hle⟩
  rw [hfile]
  exact hle w hw

/-!
## A write
-/

/-- The document was computed from the one in the file. -/
theorem NothingLost.write
    {s s' : Registry} {w : Written} (h : Sound s)
    (hwrites : s'.writes = s.writes ++ [w]) (hfile : s'.file = some w.doc)
    (hchanges : Changes w (loadWired s.file)) :
    NothingLost s' := by
  constructor
  · intro record hstands
    rw [hwrites] at hstands
    rw [hfile]
    rcases History.stands_snoc _ _ hstands with hpublished | ⟨hbefore, hnot⟩
    · exact hchanges.publishes record hpublished
    · exact hchanges.keeps_wires record (h.nothing.records record hbefore) hnot
  · intro gate hstands
    rw [hwrites] at hstands
    rw [hfile]
    rcases History.stands_snoc _ _ hstands with hrecorded | ⟨hbefore, hnot⟩
    · exact hchanges.records gate hrecorded
    · exact hchanges.keeps_gates gate.1 gate.2
        (h.nothing.gates gate hbefore) hnot
  · unfold GenerationsIncrease
    rw [hwrites]
    apply List.pairwise_append.mpr
    constructor
    · exact h.nothing.generations
    constructor
    · exact List.pairwise_singleton _ _
    · intro other hother last hlast
      rw [List.mem_singleton.mp hlast, hchanges.generation]
      exact Int.lt_add_one_of_le (generation_le h hother)

theorem Sound.write
    {catalog : Catalog} {s : Registry} {pid : Nat} {p : Process}
    {data doc : WiredDoc} (h : Sound s) (hp : s.processes pid = some p)
    (hstage : p.stage = Stage.ready data)
    (hnew : newDoc catalog p.call data = some doc)
    (hdata : data = loadWired s.file) (warning : Option String) :
    Sound ({ s with
      file := some doc
      writes := s.writes ++ [Written.mk p.call doc warning] }.enter pid
        { p with stage := Stage.written }) := by
  have hchanges := newDoc_changes hnew warning
  rw [hdata] at hchanges
  have hlock : s.lock = some pid := by
    apply (h.processes pid p hp).lock
    rw [hstage]
    rfl
  constructor
  · intro q other hq
    rw [processes_enter] at hq
    by_cases hsame : q = pid
    · rw [if_pos hsame] at hq
      cases hq
      rw [hsame]
      constructor
      · intro _
        exact hlock
      · intro _ habsurd
        cases habsurd
      · intro _ habsurd
        cases habsurd
      · intro _ habsurd
        cases habsurd
    · rw [if_neg hsame] at hq
      have hother := h.processes q other hq
      have hfree : ¬ other.stage.holdsLock = true := by
        intro hholds
        have hlockOther := hother.lock hholds
        rw [hlock] at hlockOther
        exact hsame (Option.some.inj hlockOther).symm
      constructor
      · intro hholds
        exact absurd hholds hfree
      · exact hother.ahead
      · intro read hready
        rw [hready] at hfree
        exact absurd rfl hfree
      · intro read hread
        right
        constructor
        · exact List.append_ne_nil_of_right_ne_nil _ (List.cons_ne_nil _ _)
        · change read.generation < doc.generation
          have hgeneration : doc.generation =
              (loadWired s.file).generation + 1 := hchanges.generation
          rw [hgeneration]
          rcases hother.read read hread with hcurrent | ⟨_, hsmaller⟩
          · rw [hcurrent]
            exact Int.lt_succ _
          · exact Int.lt_trans hsmaller (Int.lt_succ _)
  · intro w hw
    change w ∈ (s.writes ++ [_]).getLast? at hw
    rw [List.getLast?_append] at hw
    cases hw
    rfl
  · exact NothingLost.write h rfl rfl hchanges

/-!
## Runs
-/

theorem findsWhatItRead_write
    {s : Registry} {pid : Nat} {p : Process} {data : WiredDoc}
    (hp : s.processes pid = some p) (hstage : p.stage = Stage.ready data) :
    FindsWhatItRead s (Event.write pid) <->
      (readsUnderLock p.call = true ∨ data = loadWired s.file) := by
  unfold FindsWhatItRead findsWhatItRead
  dsimp only
  rw [hp]
  dsimp only
  rw [hstage, Bool.or_eq_true]
  unfold Stage.data?
  dsimp only
  rw [decide_eq_true_iff]

theorem step_sound
    {catalog : Catalog} {s s' : Registry} {event : Event} (h : Sound s)
    (hfinds : FindsWhatItRead s event) (hstep : Step catalog s event s') :
    Sound s' := by
  cases hstep with
  | @call pid call hnone =>
      apply Sound.of_enter h ⟨rfl, rfl⟩ rfl
      · intro q _ hlock
        exact hlock
      · constructor
        · intro habsurd
          cases habsurd
        · intro _ habsurd
          cases habsurd
        · intro _ habsurd
          cases habsurd
        · intro _ habsurd
          cases habsurd
  | @lockFirst pid p hp hstage hfree =>
      have hsame : SameFile s { s with lock := some pid } := ⟨rfl, rfl⟩
      apply Sound.of_enter h hsame rfl
      · intro q _ hlock
        rw [hfree] at hlock
        cases hlock
      · constructor
        · intro _
          rfl
        · intro _ habsurd
          cases habsurd
        · intro _ habsurd
          cases habsurd
        · intro _ habsurd
          cases habsurd
  | @lockThen pid p data hp hstage hfree =>
      have hsound := h.processes pid p hp
      have hsame : SameFile s { s with lock := some pid } := ⟨rfl, rfl⟩
      apply Sound.of_enter h hsame rfl
      · intro q _ hlock
        rw [hfree] at hlock
        cases hlock
      · constructor
        · intro _
          rfl
        · intro _ habsurd
          cases habsurd
        · intro _ _ hlocked
          have hahead := hsound.ahead data hstage
          dsimp only at hlocked
          rw [hahead] at hlocked
          cases hlocked
        · intro read hread
          apply hsound.read read
          rw [hstage]
          exact hread
  | @loadFirst pid p hp hstage hahead =>
      apply Sound.of_enter h ⟨rfl, rfl⟩ rfl
      · intro q _ hlock
        exact hlock
      · constructor
        · intro habsurd
          cases habsurd
        · intro _ _
          exact hahead
        · intro _ habsurd
          cases habsurd
        · intro read hread
          cases hread
          exact Or.inl rfl
  | @loadThen pid p hp hstage =>
      have hsound := h.processes pid p hp
      apply Sound.of_enter h ⟨rfl, rfl⟩ rfl
      · intro q _ hlock
        exact hlock
      · constructor
        · intro _
          apply hsound.lock
          rw [hstage]
          rfl
        · intro _ habsurd
          cases habsurd
        · intro read hready _
          cases hready
          rfl
        · intro read hread
          cases hread
          exact Or.inl rfl
  | @write pid p data doc hp hstage hnew =>
      have hdata : data = loadWired s.file := by
        rcases (findsWhatItRead_write hp hstage).mp hfinds with hlocked | hsame
        · exact (h.processes pid p hp).fresh data hstage hlocked
        · exact hsame
      exact h.write hp hstage hnew hdata _
  | @leave pid => exact h.exit pid
  | @abort pid => exact h.exit pid

/-- A writer that does not find what it has read repeats a generation. -/
theorem findsWhatItRead_of_nothingLost
    {catalog : Catalog} {s s' : Registry} {event : Event} (h : Sound s)
    (hstep : Step catalog s event s') (hnothing : NothingLost s') :
    FindsWhatItRead s event := by
  cases hstep with
  | @write pid p data doc hp hstage hnew =>
      apply (findsWhatItRead_write hp hstage).mpr
      right
      have hread := (h.processes pid p hp).read data
      rw [hstage] at hread
      rcases hread rfl with hsame | ⟨hwrites, hsmaller⟩
      · exact hsame
      · rcases lastWritten h hwrites with ⟨last, hlast, hfile, _⟩
        have hchanges :=
          newDoc_changes hnew (outOfBandWarning s p.call data)
        have hgrows : last.doc.generation < doc.generation :=
          (List.pairwise_append.mp hnothing.generations).right.right last hlast
            _ (List.mem_singleton.mpr rfl)
        have hgeneration : doc.generation = data.generation + 1 :=
          hchanges.generation
        have hcurrent : (loadWired s.file).generation =
            last.doc.generation := by
          rw [hfile]
          rfl
        rw [hcurrent] at hsmaller
        omega
  | call call hnone => rfl
  | lockFirst hp hstage hfree => rfl
  | lockThen hp hstage hfree => rfl
  | loadFirst hp hstage hahead => rfl
  | loadThen hp hstage => rfl
  | leave => rfl
  | abort => rfl

/-- Whatever the event leads to, nothing is lost there. -/
def LosesNothing (catalog : Catalog) (s : Registry) (event : Event) : Prop :=
  forall s', next catalog s event = some s' -> NothingLost s'

theorem run_sound
    {catalog : Catalog} {s s' : Registry} {events : List Event}
    (hrun : ((registry catalog).Restrict FindsWhatItRead).Run s events s')
    (h : Sound s) :
    Sound s' := by
  apply TransitionSystem.run_preserves _ hrun h
  intro x event x' hx hstep
  exact step_sound hx hstep.left (next_step hstep.right)

/-- No record, no gate and no generation is lost in a run whose unlocked writers
find what they have read, and these are all the runs in which nothing is ever
lost. -/
theorem nothingLost_iff_findsWhatItRead
    (catalog : Catalog) (events : List Event) {s0 s : Registry}
    (h0 : initial s0) :
    (((registry catalog).Restrict FindsWhatItRead).Run s0 events s ->
      NothingLost s) ∧
    (((registry catalog).Restrict FindsWhatItRead).Run s0 events s <->
      ((registry catalog).Restrict (LosesNothing catalog)).Run s0 events s)
    := by
  constructor
  · intro hrun
    exact (run_sound hrun (initial_sound h0)).nothing
  · apply TransitionSystem.run_restrict_iff (P := Sound) _ _ (initial_sound h0)
    · intro x event x' hx hfinds hstep
      exact step_sound hx hfinds (next_step hstep)
    · intro x event x' hx hstep
      constructor
      · intro hfinds y hy
        exact (step_sound hx hfinds (next_step hy)).nothing
      · intro hloses
        exact findsWhatItRead_of_nothingLost hx (next_step hstep)
          (hloses x' hstep)

/-!
## Two orders of one gate and one registration
-/

def Event.pid : Event -> Nat
  | call pid _ => pid
  | lock pid => pid
  | load pid => pid
  | write pid => pid
  | leave pid => pid
  | abort pid => pid

theorem step_other
    {catalog : Catalog} {s s' : Registry} {event : Event}
    (h : Step catalog s event s') {q : Nat} (hq : q ≠ event.pid) :
    s'.processes q = s.processes q := by
  cases h with
  | call call hnone => exact (processes_enter _ _ q _).trans (if_neg hq)
  | lockFirst hp hstage hfree =>
      exact (processes_enter _ _ q _).trans (if_neg hq)
  | lockThen hp hstage hfree =>
      exact (processes_enter _ _ q _).trans (if_neg hq)
  | loadFirst hp hstage hahead =>
      exact (processes_enter _ _ q _).trans (if_neg hq)
  | loadThen hp hstage => exact (processes_enter _ _ q _).trans (if_neg hq)
  | write hp hstage hnew => exact (processes_enter _ _ q _).trans (if_neg hq)
  | leave => exact (processes_exit _ _ q).trans (if_neg hq)
  | abort => exact (processes_exit _ _ q).trans (if_neg hq)

/-- A process that takes no step in the run stays where it is. -/
theorem run_other
    {catalog : Catalog} {s s' : Registry} {events : List Event}
    (hrun : (registry catalog).Run s events s') {q : Nat}
    (hq : forall event, event ∈ events -> q ≠ event.pid) :
    s'.processes q = s.processes q := by
  induction hrun with
  | nil s => rfl
  | cons hfirst _ ih =>
      have hrest := ih fun event hmem => hq event (List.mem_cons_of_mem _ hmem)
      rw [hrest]
      exact step_other (next_step hfirst) (hq _ List.mem_cons_self)

/-- A catalog of the two hosts that have a gate. -/
def twoHosts : Catalog where
  plugin_base := "/home/a/.minni/plugin"
  expand_host_surface_catalog := fun _ =>
    [("antigravity", emptyHost), ("cursor", emptyHost)]
  listed := by
    intro base_semver host
    cases host with
    | antigravity => rfl
    | cursor => rfl

def unwired : Registry where
  file := none
  lock := none
  processes := fun _ => none
  writes := []

def codexRecord : WireRecord where
  platform := "codex"
  config_path := "/home/a/.codex/config.toml"
  install_root := "/home/a/.minni/plugin/v1"
  version := "v1"
  workspace := none
  wired_at := "2026-01-01T00:00:00Z"

def cursorGate : GateArgs where
  host_id := UiScannerHost.cursor
  container_mode := ContainerMode.symlink_subtrees
  evidence := "seen"
  verified := true
  updated_at := "2026-01-01T00:00:01Z"
  verified_at := "2026-01-01T00:00:01Z"

def upsertEvents (pid : Nat) : List Event :=
  [Event.lock pid, Event.load pid, Event.write pid, Event.leave pid]

def gateEvents (pid : Nat) : List Event :=
  [Event.lock pid, Event.write pid, Event.leave pid]

/-- The gate is read after the registration is written. -/
def inOrder : List Event :=
  Event.call 1 (Call.upsert_wire codexRecord none) :: upsertEvents 1 ++
    Event.call 2 (Call.record_ui_scanner_gate cursorGate) ::
      Event.load 2 :: gateEvents 2

/-- The gate is read before the registration is written. -/
def overtaken : List Event :=
  Event.call 2 (Call.record_ui_scanner_gate cursorGate) :: Event.load 2 ::
    Event.call 1 (Call.upsert_wire codexRecord none) :: upsertEvents 1 ++
      gateEvents 2

theorem nothingLost_iff_findsWhatItRead_inOrder :
    exists s,
      ((registry twoHosts).Restrict FindsWhatItRead).Run unwired inOrder s ∧
      ((registry twoHosts).Restrict (LosesNothing twoHosts)).Run
        unwired inOrder s ∧
      NothingLost s := by
  have h0 : initial unwired := ⟨rfl, rfl, rfl⟩
  have hexec : (TransitionSystem.execWhere (next twoHosts) findsWhatItRead
      unwired inOrder).isSome = true := by
    decide +kernel
  rcases Option.isSome_iff_exists.mp hexec with ⟨s, hs⟩
  have hrun :
      ((registry twoHosts).Restrict FindsWhatItRead).Run unwired inOrder s :=
    TransitionSystem.run_of_execWhere (fun _ _ h => h) hs
  have hlaw := nothingLost_iff_findsWhatItRead twoHosts inOrder (s := s) h0
  exact ⟨s, hrun, hlaw.right.mp hrun, hlaw.left hrun⟩

theorem overtaken_pid :
    forall event, event ∈ overtaken -> event.pid = 1 ∨ event.pid = 2 := by
  decide

/-- Both calls are over, each has written the first generation, and the record
is not in the file. -/
def recordGone (s : Registry) : Bool :=
  (s.processes 1).isNone && (s.processes 2).isNone &&
    decide (codexRecord ∉ (loadWired s.file).wires) &&
    decide (s.writes.map (fun w => (w.call, w.doc.generation)) =
      [(Call.upsert_wire codexRecord none, 1),
        (Call.record_ui_scanner_gate cursorGate, 1)])

/-- The registration is gone after both calls, and the generation that published
it is used again. -/
theorem record_lost_by_gate :
    exists s, (registry twoHosts).Reachable s ∧ Completed s ∧
      ¬ RecordsPresent s ∧ ¬ GenerationsIncrease s := by
  have hexec :
      (match TransitionSystem.exec (next twoHosts) unwired overtaken with
      | none => false
      | some s => recordGone s) = true := by
    decide +kernel
  cases hs : TransitionSystem.exec (next twoHosts) unwired overtaken with
  | none =>
      rw [hs] at hexec
      cases hexec
  | some s =>
      rw [hs] at hexec
      have hrun : (registry twoHosts).Run unwired overtaken s :=
        TransitionSystem.run_of_exec hs
      simp only [recordGone, Bool.and_eq_true, Option.isNone_iff_eq_none,
        decide_eq_true_eq] at hexec
      rcases hexec with ⟨⟨⟨hone, htwo⟩, habsent⟩, hwrites⟩
      exists s
      constructor
      · exact ⟨unwired, overtaken, ⟨rfl, rfl, rfl⟩, hrun⟩
      constructor
      · intro pid
        by_cases hpidOne : pid = 1
        · rw [hpidOne]
          exact hone
        · by_cases hpidTwo : pid = 2
          · rw [hpidTwo]
            exact htwo
          · apply run_other hrun
            intro event hevent
            rcases overtaken_pid event hevent with hone | htwo
            · rw [hone]
              exact hpidOne
            · rw [htwo]
              exact hpidTwo
      constructor
      · intro hpresent
        apply habsent
        apply hpresent
        rcases List.map_eq_cons_iff.mp hwrites with
          ⟨w, rest, hsplit, hw, hrest⟩
        exists [], w, rest
        constructor
        · exact hsplit
        constructor
        · exists none
          exact (Prod.mk.inj hw).left
        · intro later hlater hdisplaces
          have hmem := List.mem_map_of_mem
            (f := fun w => (w.call, w.doc.generation)) hlater
          rw [hrest] at hmem
          have hcall := (Prod.mk.inj (List.mem_singleton.mp hmem)).left
          unfold Displaces at hdisplaces
          rw [hcall] at hdisplaces
          exact hdisplaces
      · intro hincrease
        have hpairs : (s.writes.map
            (fun w => (w.call, w.doc.generation))).Pairwise
              (fun p q => p.2 < q.2) :=
          List.pairwise_map.mpr hincrease
        rw [hwrites] at hpairs
        simp at hpairs

end Wire
end Minni
