import Minni.Hooks.JevHarvest

/-!
# What is harvested once

No complete line is passed over, no trigger is learned again after its learning
succeeded, and no stored cursor goes back.  This holds in the runs in which no
harvest learns or writes beside another one that has learned, none writes over
what another one has stored, and none is lost after it has learned.
-/

namespace Minni
namespace Hooks

open Foundation

section Law

variable {entry options : Type}

/-!
## The promise
-/

/-- All lines up to the offset that are JSON have been screened. -/
structure Covered (host : HarvestHost entry options)
    (s : HarvestVault options) (path : String) (upTo : Nat) : Prop where
  within : upTo <= (s.transcripts path).length
  screened : forall offset line,
    Tailing.LineAt newline (s.transcripts path) offset line ->
    offset + line.length < upTo -> (host.parseLine line).isSome = true ->
    (path, offset) ∈ s.screened

structure HarvestedOnce (host : HarvestHost entry options)
    (s : HarvestVault options) : Prop where
  reads : forall read, read ∈ s.reads -> Covered host s read.1 read.2
  behind : forall path, Covered host s path (cursorOf s.stored path)
  calls : s.calls.Pairwise fun call later =>
    call.ok = true -> later.triggerHash ≠ call.triggerHash
  forward : s.writes.Pairwise fun w later =>
    forall path, cursorOf w path <= cursorOf later path
  atLine : forall path,
    Tailing.StartsLine newline (s.transcripts path) (cursorOf s.stored path)

/-!
## The condition
-/

def isScalar (host : HarvestHost entry options) (line : List UInt8) : Bool :=
  match host.parseLine line with
  | some ParsedLine.other => true
  | _ => false

/-- No complete line of the chunk is JSON without being an entry. -/
def readsEntriesOnly (host : HarvestHost entry options)
    (s : HarvestVault options) (bytesRead : Nat) (run : Harvest options) :
    Bool :=
  match run.stage with
  | HarvestStage.stateRead state =>
      let currentOffset := cursorOf state run.transcriptPath
      let chunk := chunkOf (s.transcripts run.transcriptPath) currentOffset
        bytesRead
      (Tailing.completeLines newline currentOffset [] chunk).all fun line =>
        !isScalar host line.2
  | _ => true

/-- What is stored is what the harvest began with, and no other harvest under
way has learned anything. -/
def learnsAlone (s : HarvestVault options) (pid : Nat)
    (run : Harvest options) : Bool :=
  match run.stage with
  | HarvestStage.learning read _ _ _ =>
      decide (s.stored.harvested = read.harvested) &&
        s.runs.all fun other =>
          decide (other.1 = pid) || other.2.stage.learned.isEmpty
  | _ => true

def hasLearned (run : Harvest options) : Bool :=
  !run.stage.learned.isEmpty

def attemptFinds (s : HarvestVault options) (pid : Nat) (attempt : Attempt)
    (run : Harvest options) : Bool :=
  match attempt with
  | Attempt.extractThrows => !hasLearned run
  | Attempt.noPayload => true
  | Attempt.learn answers =>
      learnsAlone s pid run &&
        ((executeLearnPipeline answers).isSome || !hasLearned run)

/-- What is stored is what the harvest began with, but for the cursor of its own
transcript, which is not ahead of where the harvest has read to. -/
def storedIsRead (s : HarvestVault options) (run : Harvest options) : Bool :=
  match run.stage with
  | HarvestStage.learning read state _ _ =>
      decide (s.stored.harvested = read.harvested) &&
        Dict.allKeys
          (fun path =>
            if path = run.transcriptPath then
              decide (cursorOf s.stored path <= cursorOf state path)
            else
              decide (cursorOf s.stored path = cursorOf read path))
          s.stored.cursors state.cursors
  | _ => true

def undisturbed (host : HarvestHost entry options) (s : HarvestVault options)
    (event : HarvestEvent options) : Bool :=
  match event with
  | HarvestEvent.readDelta pid bytesRead =>
      (s.runs.lookup pid).all (readsEntriesOnly host s bytesRead)
  | HarvestEvent.attempt pid attempt =>
      (s.runs.lookup pid).all (attemptFinds s pid attempt)
  | HarvestEvent.write pid => (s.runs.lookup pid).all (storedIsRead s)
  | HarvestEvent.abort pid => (s.runs.lookup pid).all fun run =>
      !hasLearned run
  | _ => true

def Undisturbed (host : HarvestHost entry options) (s : HarvestVault options)
    (event : HarvestEvent options) : Prop :=
  undisturbed host s event = true

/-!
## The invariant
-/

/-- The state moves no cursor over a line that was not screened. -/
structure SoundState (host : HarvestHost entry options)
    (s : HarvestVault options) (state : JevHarvestState) : Prop where
  atLine : forall path,
    Tailing.StartsLine newline (s.transcripts path) (cursorOf state path)
  covered : forall path, Covered host s path (cursorOf state path)

def SoundStage (host : HarvestHost entry options) (s : HarvestVault options)
    (transcriptPath : String) (stage : HarvestStage) : Prop :=
  match stage with
  | HarvestStage.started => True
  | HarvestStage.stateRead state => SoundState host s state
  | HarvestStage.learning read state _ learned =>
      SoundState host s state ∧
        (forall h, h ∈ state.harvested <-> h ∈ read.harvested ∨ h ∈ learned) ∧
        forall path, path ≠ transcriptPath ->
          cursorOf state path = cursorOf read path

/-- The hash is stored, or in a harvest that has yet to store it. -/
def Remembered (s : HarvestVault options) (h : String) : Prop :=
  h ∈ s.stored.harvested ∨
    exists pid run, s.runs.lookup pid = some run ∧ h ∈ run.stage.learned

structure SoundHarvest (host : HarvestHost entry options)
    (s : HarvestVault options) : Prop where
  once : HarvestedOnce host s
  runs : forall pid run, s.runs.lookup pid = some run ->
    SoundStage host s run.transcriptPath run.stage
  remembered : forall call, call ∈ s.calls -> call.ok = true ->
    Remembered s call.triggerHash
  last : forall w, w ∈ s.writes -> forall path,
    cursorOf w path <= cursorOf s.stored path

/-!
## Files and screenings only grow
-/

structure Later (s s' : HarvestVault options) : Prop where
  transcripts : forall path, exists more,
    s'.transcripts path = s.transcripts path ++ more
  screened : forall line, line ∈ s.screened -> line ∈ s'.screened

theorem Later.of_same {s s' : HarvestVault options}
    (htranscripts : s'.transcripts = s.transcripts)
    (hscreened : s'.screened = s.screened) :
    Later s s' := by
  constructor
  · intro path
    exists []
    rw [htranscripts, List.append_nil]
  · intro line hline
    rw [hscreened]
    exact hline

theorem Covered.later
    {host : HarvestHost entry options} {s s' : HarvestVault options}
    {path : String} {upTo : Nat} (h : Covered host s path upTo)
    (hlater : Later s s') :
    Covered host s' path upTo := by
  rcases hlater.transcripts path with ⟨more, hmore⟩
  have hwithin := h.within
  constructor
  · rw [hmore, List.length_append]
    omega
  · intro offset line hline hends hparsed
    rw [hmore] at hline
    have hold := Tailing.lineAt_of_append newline hline (by omega)
    exact hlater.screened _ (h.screened offset line hold hends hparsed)

theorem Covered.mono
    {host : HarvestHost entry options} {s : HarvestVault options}
    {path : String} {upTo shorter : Nat} (h : Covered host s path upTo)
    (hle : shorter <= upTo) :
    Covered host s path shorter := by
  have hwithin := h.within
  constructor
  · omega
  · intro offset line hline hends hparsed
    exact h.screened offset line hline (by omega) hparsed

theorem SoundState.later
    {host : HarvestHost entry options} {s s' : HarvestVault options}
    {state : JevHarvestState} (h : SoundState host s state)
    (hlater : Later s s') :
    SoundState host s' state := by
  constructor
  · intro path
    rcases hlater.transcripts path with ⟨more, hmore⟩
    rw [hmore]
    exact Tailing.startsLine_append newline (h.atLine path) more
  · intro path
    exact (h.covered path).later hlater

theorem SoundStage.later
    {host : HarvestHost entry options} {s s' : HarvestVault options}
    {path : String} {stage : HarvestStage} (h : SoundStage host s path stage)
    (hlater : Later s s') :
    SoundStage host s' path stage := by
  cases stage with
  | started => exact h
  | stateRead state =>
      exact SoundState.later h hlater
  | learning read state todo learned =>
      rcases h with ⟨hstate, hharvested, hcursors⟩
      exact ⟨hstate.later hlater, hharvested, hcursors⟩

theorem soundState_noHarvestState
    (host : HarvestHost entry options) (s : HarvestVault options) :
    SoundState host s noHarvestState := by
  constructor
  · intro path
    exact Or.inl rfl
  · intro path
    constructor
    · exact Nat.zero_le _
    · intro offset line _ hends _
      exact absurd hends (Nat.not_lt_zero _)

theorem SoundHarvest.stored
    {host : HarvestHost entry options} {s : HarvestVault options}
    (h : SoundHarvest host s) :
    SoundState host s s.stored :=
  ⟨h.once.atLine, h.once.behind⟩

theorem initial_soundHarvest
    {host : HarvestHost entry options} {s : HarvestVault options}
    (h : harvestInitial s) :
    SoundHarvest host s := by
  rcases h with ⟨hstored, hruns, hscreened, hreads, hcalls, hwrites⟩
  have hempty := soundState_noHarvestState host s
  rw [← hstored] at hempty
  constructor
  · constructor
    · intro read hread
      rw [hreads] at hread
      cases hread
    · exact hempty.covered
    · rw [hcalls]
      exact List.Pairwise.nil
    · rw [hwrites]
      exact List.Pairwise.nil
    · exact hempty.atLine
  · intro pid run hrun
    rw [hruns] at hrun
    cases hrun
  · intro call hcall
    rw [hcalls] at hcall
    cases hcall
  · intro w hw
    rw [hwrites] at hw
    cases hw

/-!
## Steps that store nothing
-/

/-- The step learns nothing and stores nothing, and no learned hash goes with a
harvest that ends. -/
structure StoresNothing (s s' : HarvestVault options) : Prop where
  later : Later s s'
  stored : s'.stored = s.stored
  calls : s'.calls = s.calls
  writes : s'.writes = s.writes
  kept : forall pid run h, s.runs.lookup pid = some run ->
    h ∈ run.stage.learned ->
    exists run', s'.runs.lookup pid = some run' ∧ h ∈ run'.stage.learned

theorem SoundHarvest.storesNothing
    {host : HarvestHost entry options} {s s' : HarvestVault options}
    (h : SoundHarvest host s) (hnothing : StoresNothing s s')
    (hreads : forall read, read ∈ s'.reads -> Covered host s' read.1 read.2)
    (hruns : forall pid run, s'.runs.lookup pid = some run ->
      SoundStage host s' run.transcriptPath run.stage) :
    SoundHarvest host s' := by
  have hstored := h.stored.later hnothing.later
  rw [← hnothing.stored] at hstored
  constructor
  · constructor
    · exact hreads
    · exact hstored.covered
    · rw [hnothing.calls]
      exact h.once.calls
    · rw [hnothing.writes]
      exact h.once.forward
    · exact hstored.atLine
  · exact hruns
  · intro call hcall hok
    rw [hnothing.calls] at hcall
    rcases h.remembered call hcall hok with hin | ⟨pid, run, hrun, hlearned⟩
    · left
      rw [hnothing.stored]
      exact hin
    · right
      rcases hnothing.kept pid run _ hrun hlearned with ⟨run', hrun', hin⟩
      exact ⟨pid, run', hrun', hin⟩
  · intro w hw path
    rw [hnothing.writes] at hw
    rw [hnothing.stored]
    exact h.last w hw path

/-- The reads and the runs of a later state that has the same of them. -/
theorem SoundHarvest.reads_later
    {host : HarvestHost entry options} {s s' : HarvestVault options}
    (h : SoundHarvest host s) (hlater : Later s s')
    (hreads : s'.reads = s.reads) :
    forall read, read ∈ s'.reads -> Covered host s' read.1 read.2 := by
  intro read hread
  rw [hreads] at hread
  exact (h.once.reads read hread).later hlater

theorem lookup_enter (s : HarvestVault options) (pid other : Nat)
    (run : Harvest options) :
    (s.enter pid run).runs.lookup other =
      if other = pid then some run else s.runs.lookup other :=
  Dict.lookup_set pid run s.runs other

theorem lookup_leave (s : HarvestVault options) (pid other : Nat) :
    (s.leave pid).runs.lookup other =
      if other = pid then none else s.runs.lookup other :=
  Dict.lookup_erase pid s.runs other

/-- A harvest that goes from one stage to another and learns nothing. -/
theorem SoundHarvest.move
    {host : HarvestHost entry options} {s : HarvestVault options} {pid : Nat}
    {moved : Harvest options} (h : SoundHarvest host s)
    (hlearned : forall old, s.runs.lookup pid = some old ->
      old.stage.learned = moved.stage.learned)
    (hmoved : SoundStage host s moved.transcriptPath moved.stage) :
    SoundHarvest host (s.enter pid moved) := by
  have hlater : Later s (s.enter pid moved) := Later.of_same rfl rfl
  apply h.storesNothing
  · constructor
    · exact hlater
    · rfl
    · rfl
    · rfl
    · intro other old hash hold hhash
      rw [lookup_enter]
      by_cases hsame : other = pid
      · rw [if_pos hsame]
        rw [hsame] at hold
        exact ⟨moved, rfl, hlearned old hold ▸ hhash⟩
      · rw [if_neg hsame]
        exact ⟨old, hold, hhash⟩
  · exact h.reads_later hlater rfl
  · intro other old hold
    rw [lookup_enter] at hold
    by_cases hsame : other = pid
    · rw [if_pos hsame] at hold
      cases hold
      exact hmoved.later hlater
    · rw [if_neg hsame] at hold
      exact (h.runs other old hold).later hlater

/-- A harvest that ends and has learned nothing. -/
theorem SoundHarvest.leave
    {host : HarvestHost entry options} {s : HarvestVault options} {pid : Nat}
    {run : Harvest options} (h : SoundHarvest host s)
    (hrun : s.runs.lookup pid = some run) (hnone : run.stage.learned = []) :
    SoundHarvest host (s.leave pid) := by
  have hlater : Later s (s.leave pid) := Later.of_same rfl rfl
  apply h.storesNothing
  · constructor
    · exact hlater
    · rfl
    · rfl
    · rfl
    · intro other old hash hold hhash
      rw [lookup_leave]
      by_cases hsame : other = pid
      · rw [hsame, hrun] at hold
        cases hold
        rw [hnone] at hhash
        cases hhash
      · rw [if_neg hsame]
        exact ⟨old, hold, hhash⟩
  · exact h.reads_later hlater rfl
  · intro other old hold
    rw [lookup_leave] at hold
    by_cases hsame : other = pid
    · rw [if_pos hsame] at hold
      cases hold
    · rw [if_neg hsame] at hold
      exact (h.runs other old hold).later hlater

/-!
## A delta that is read
-/

theorem mem_deltaEntries
    {host : HarvestHost entry options} {chunk line : List UInt8} {i : Nat}
    {e : entry} (h : Tailing.LineAt newline chunk i line)
    (hentry : host.parseLine line = some (ParsedLine.entry e))
    (fromOffset : Nat) :
    (fromOffset + i, e) ∈ deltaEntries host fromOffset chunk := by
  unfold deltaEntries
  dsimp only
  rw [Tailing.completeLines_take_lineEnd]
  apply List.mem_filterMap.mpr
  exists (fromOffset + i, line)
  constructor
  · apply Tailing.mem_completeLines_of_lineAt newline
    · exact h
    · exact List.not_mem_nil
  · unfold entryOf
    rw [hentry]
    rfl

/-- After the read, the lines of the chunk are screened with those before it. -/
theorem covered_delta
    {host : HarvestHost entry options} {s s' : HarvestVault options}
    {path : String} {cursor bytesRead : Nat}
    (hlater : Later s s') (hsame : s'.transcripts path = s.transcripts path)
    (hcursor : Tailing.StartsLine newline (s.transcripts path) cursor)
    (hcovered : Covered host s path cursor)
    (hentries : forall line, line ∈ Tailing.completeLines newline cursor []
      (chunkOf (s.transcripts path) cursor bytesRead) ->
      isScalar host line.2 = false)
    (hscreened : forall e, e ∈ deltaEntries host cursor
      (chunkOf (s.transcripts path) cursor bytesRead) ->
      (path, e.1) ∈ s'.screened) :
    Covered host s' path
      (cursor + (chunkOf (s.transcripts path) cursor bytesRead).length) := by
  have hbefore := hcovered.later hlater
  have hwithin := hcovered.within
  constructor
  · rw [hsame]
    unfold chunkOf
    rw [List.length_take, List.length_drop]
    omega
  · intro offset line hline hends hparsed
    rw [hsame] at hline
    rcases Tailing.lineAt_behind_or_ahead newline hline hcursor with
      hbehind | hahead
    · apply hbefore.screened offset line _ hbehind hparsed
      rw [hsame]
      exact hline
    · have hcount : offset + line.length < cursor + bytesRead := by
        unfold chunkOf at hends
        rw [List.length_take] at hends
        omega
      have hchunk := Tailing.lineAt_chunk newline hline hahead hcount
      have hplace : cursor + (offset - cursor) = offset := by omega
      have hmem := @Tailing.mem_completeLines_of_lineAt _ newline _
        _ [] _ _ hchunk List.not_mem_nil cursor
      rw [hplace] at hmem
      have hentry := hentries _ hmem
      rcases Option.isSome_iff_exists.mp hparsed with ⟨parsed, hparsedLine⟩
      cases parsed with
      | other =>
          unfold isScalar at hentry
          rw [hparsedLine] at hentry
          cases hentry
      | entry e =>
          have hdelta := mem_deltaEntries hchunk hparsedLine cursor
          rw [hplace] at hdelta
          exact hscreened _ hdelta

theorem cursorOf_moveCursor (state : JevHarvestState) (path : String)
    (newOffset : Nat) (other : String) :
    cursorOf (moveCursor state path newOffset) other =
      if other = path then newOffset else cursorOf state other := by
  unfold cursorOf moveCursor
  rw [Dict.lookup_set]
  by_cases hsame : other = path
  · rw [if_pos hsame, if_pos hsame]
    rfl
  · rw [if_neg hsame, if_neg hsame]

theorem SoundState.moveCursor
    {host : HarvestHost entry options} {s : HarvestVault options}
    {state : JevHarvestState} {path : String} {newOffset : Nat}
    (h : SoundState host s state)
    (hline : Tailing.StartsLine newline (s.transcripts path) newOffset)
    (hcovered : Covered host s path newOffset) :
    SoundState host s (moveCursor state path newOffset) := by
  constructor
  · intro other
    rw [cursorOf_moveCursor]
    by_cases hsame : other = path
    · rw [if_pos hsame, hsame]
      exact hline
    · rw [if_neg hsame]
      exact h.atLine other
  · intro other
    rw [cursorOf_moveCursor]
    by_cases hsame : other = path
    · rw [if_pos hsame, hsame]
      exact hcovered
    · rw [if_neg hsame]
      exact h.covered other

/-- The read is entered into the history, and nothing else happens. -/
def HarvestVault.recordRead (s : HarvestVault options) (read : String × Nat)
    (screened : List (String × Nat)) : HarvestVault options :=
  { s with
    reads := s.reads ++ [read]
    screened := s.screened ++ screened }

theorem later_recordRead (s : HarvestVault options) (read : String × Nat)
    (screened : List (String × Nat)) :
    Later s (s.recordRead read screened) := by
  constructor
  · intro path
    exact ⟨[], (List.append_nil _).symm⟩
  · intro line hline
    exact List.mem_append_left _ hline

theorem SoundHarvest.recordRead
    {host : HarvestHost entry options} {s : HarvestVault options}
    {read : String × Nat} {screened : List (String × Nat)}
    (h : SoundHarvest host s)
    (hread : Covered host (s.recordRead read screened) read.1 read.2) :
    SoundHarvest host (s.recordRead read screened) := by
  have hlater := later_recordRead s read screened
  apply h.storesNothing
  · constructor
    · exact hlater
    · rfl
    · rfl
    · rfl
    · intro other old hash hold hhash
      exact ⟨old, hold, hhash⟩
  · intro other hmem
    rcases List.mem_append.mp hmem with hold | hnew
    · exact (h.once.reads other hold).later hlater
    · rw [List.mem_singleton.mp hnew]
      exact hread
  · intro other old hold
    exact (h.runs other old hold).later hlater

theorem SoundHarvest.readDelta
    {host : HarvestHost entry options} {s s' : HarvestVault options}
    {pid bytesRead : Nat} {run : Harvest options} (h : SoundHarvest host s)
    (hrun : s.runs.lookup pid = some run)
    (hentries : readsEntriesOnly host s bytesRead run = true)
    (hnext : readDelta host s pid bytesRead run = some s') :
    SoundHarvest host s' := by
  unfold Hooks.readDelta at hnext
  cases hstage : run.stage with
  | started =>
      rw [hstage] at hnext
      cases hnext
  | learning read state todo learned =>
      rw [hstage] at hnext
      cases hnext
  | stateRead state =>
      rw [hstage] at hnext
      unfold readsEntriesOnly at hentries
      rw [hstage] at hentries
      dsimp only at hnext hentries
      have hstate : SoundState host s state := by
        have hsound := h.runs pid run hrun
        rw [hstage] at hsound
        exact hsound
      have hcursor := hstate.atLine run.transcriptPath
      have hcovered := hstate.covered run.transcriptPath
      have hscalars : forall line, line ∈ Tailing.completeLines newline
          (cursorOf state run.transcriptPath) []
          (chunkOf (s.transcripts run.transcriptPath)
            (cursorOf state run.transcriptPath) bytesRead) ->
          isScalar host line.2 = false := by
        intro line hline
        have hnot := List.all_eq_true.mp hentries line hline
        rw [Bool.not_eq_true'] at hnot
        exact hnot
      have hlearned : run.stage.learned = [] := by
        rw [hstage]
        rfl
      have hread : forall screened, (forall e, e ∈ deltaEntries host
            (cursorOf state run.transcriptPath)
            (chunkOf (s.transcripts run.transcriptPath)
              (cursorOf state run.transcriptPath) bytesRead) ->
            (run.transcriptPath, e.1) ∈ s.screened ++ screened) ->
          SoundHarvest host (s.recordRead
            (run.transcriptPath, cursorOf state run.transcriptPath +
              (chunkOf (s.transcripts run.transcriptPath)
                (cursorOf state run.transcriptPath) bytesRead).length)
            screened) := by
        intro screened hscreened
        apply h.recordRead
        exact covered_delta (later_recordRead s _ screened) rfl hcursor
          hcovered hscalars hscreened
      by_cases hempty : (readTranscriptDelta host
          (s.transcripts run.transcriptPath)
          (cursorOf state run.transcriptPath) bytesRead).1.isEmpty = true
      · rw [if_pos hempty] at hnext
        cases hnext
        have hnone := List.isEmpty_iff.mp hempty
        have hscreen := hread [] (by
          intro e he
          change e ∈ (readTranscriptDelta host _ _ _).1 at he
          rw [hnone] at he
          cases he)
        unfold HarvestVault.recordRead at hscreen
        rw [List.append_nil] at hscreen
        exact hscreen.leave hrun hlearned
      · rw [if_neg hempty] at hnext
        cases hnext
        have hscreen := hread _ (by
          intro e he
          apply List.mem_append_right
          exact List.mem_map.mpr ⟨e, he, rfl⟩)
        have hcoveredNew := hscreen.once.reads _
          (List.mem_append_right _ (List.mem_singleton.mpr rfl))
        apply hscreen.move
        · intro old hold
          change s.runs.lookup pid = some old at hold
          rw [hrun] at hold
          cases hold
          exact hlearned
        · constructor
          · have hsound := hscreen.runs pid run hrun
            rw [hstage] at hsound
            apply SoundState.moveCursor hsound
            · exact Tailing.startsLine_lineEnd newline hcursor bytesRead
            · apply hcoveredNew.mono
              exact Nat.add_le_add_left (Tailing.lineEnd_le newline _) _
          constructor
          · intro hash
            constructor
            · intro hmem
              exact Or.inl hmem
            · intro hmem
              rcases hmem with hin | hnone
              · exact hin
              · cases hnone
          · intro path hpath
            rw [cursorOf_moveCursor, if_neg hpath]

/-!
## A learn call
-/

/-- What the guard of a learn call gives: no call for this trigger has
succeeded. -/
theorem fresh_of_learnsAlone
    {host : HarvestHost entry options} {s : HarvestVault options} {pid : Nat}
    {run : Harvest options} {read state : JevHarvestState}
    {todo : List JevTrigger} {learned : List String} {triggerHash : String}
    (h : SoundHarvest host s) (hrun : s.runs.lookup pid = some run)
    (hstage : run.stage = HarvestStage.learning read state todo learned)
    (halone : learnsAlone s pid run = true)
    (hnew : triggerHash ∉ state.harvested) :
    forall call, call ∈ s.calls -> call.ok = true ->
      triggerHash ≠ call.triggerHash := by
  intro call hcall hok hsame
  have hsound := h.runs pid run hrun
  unfold learnsAlone at halone
  rw [hstage] at halone hsound
  dsimp only at halone
  rw [Bool.and_eq_true, decide_eq_true_iff, List.all_eq_true] at halone
  have hmem := (hsound.right.left triggerHash).mpr
  apply hnew
  apply hmem
  rcases h.remembered call hcall hok with hin | ⟨other, old, hold, hlearned⟩
  · left
    rw [hsame, ← halone.left]
    exact hin
  · right
    have hother := halone.right (other, old) (Dict.mem_of_lookup hold)
    rw [Bool.or_eq_true, decide_eq_true_iff] at hother
    rcases hother with hpid | hempty
    · have hpid' : other = pid := hpid
      rw [hpid', hrun] at hold
      cases hold
      rw [hstage] at hlearned
      rw [hsame]
      exact hlearned
    · rw [List.isEmpty_iff.mp hempty] at hlearned
      cases hlearned

theorem calls_snoc
    {s : HarvestVault options} {triggerHash : String} {ok : Bool}
    (h : s.calls.Pairwise fun call later =>
      call.ok = true -> later.triggerHash ≠ call.triggerHash)
    (hfresh : forall call, call ∈ s.calls -> call.ok = true ->
      triggerHash ≠ call.triggerHash) :
    (s.called triggerHash ok).calls.Pairwise fun call later =>
      call.ok = true -> later.triggerHash ≠ call.triggerHash := by
  apply List.pairwise_append.mpr
  constructor
  · exact h
  constructor
  · exact List.pairwise_singleton _ _
  · intro call hcall later hlater hok
    rw [List.mem_singleton.mp hlater]
    exact hfresh call hcall hok

/-- A call that does not succeed. -/
theorem SoundHarvest.called
    {host : HarvestHost entry options} {s : HarvestVault options}
    {triggerHash : String} (h : SoundHarvest host s)
    (hfresh : forall call, call ∈ s.calls -> call.ok = true ->
      triggerHash ≠ call.triggerHash) :
    SoundHarvest host (s.called triggerHash false) := by
  have hlater : Later s (s.called triggerHash false) := Later.of_same rfl rfl
  have hstored := h.stored.later hlater
  constructor
  · constructor
    · exact h.reads_later hlater rfl
    · exact hstored.covered
    · exact calls_snoc h.once.calls hfresh
    · exact h.once.forward
    · exact hstored.atLine
  · intro other old hold
    exact (h.runs other old hold).later hlater
  · intro call hcall hok
    rcases List.mem_append.mp hcall with hold | hnew
    · exact h.remembered call hold hok
    · rw [List.mem_singleton.mp hnew] at hok
      cases hok
  · exact h.last

theorem SoundState.markHarvested
    {host : HarvestHost entry options} {s : HarvestVault options}
    {state : JevHarvestState} (h : SoundState host s state)
    (triggerHash : String) :
    SoundState host s (markHarvested state triggerHash) :=
  ⟨h.atLine, h.covered⟩

/-- A call that succeeds: its harvest keeps the hash until it stores it. -/
theorem SoundHarvest.learn
    {host : HarvestHost entry options} {s : HarvestVault options} {pid : Nat}
    {run : Harvest options} {read state : JevHarvestState}
    {trigger : JevTrigger} {todo : List JevTrigger} {learned : List String}
    {triggerHash : String} (h : SoundHarvest host s)
    (hrun : s.runs.lookup pid = some run)
    (hstage : run.stage =
      HarvestStage.learning read state (trigger :: todo) learned)
    (hfresh : forall call, call ∈ s.calls -> call.ok = true ->
      triggerHash ≠ call.triggerHash) :
    SoundHarvest host ((s.called triggerHash true).enter pid
      { run with
        stage := HarvestStage.learning read (markHarvested state triggerHash)
          todo (learned ++ [triggerHash]) }) := by
  generalize hs' : HarvestVault.enter _ pid _ = s'
  have hlater : Later s s' := by
    rw [← hs']
    exact Later.of_same rfl rfl
  have hstored := h.stored.later hlater
  have hsound := h.runs pid run hrun
  rw [hstage] at hsound
  have hlookup : forall other, s'.runs.lookup other =
      if other = pid then
        some { run with
          stage := HarvestStage.learning read
            (Hooks.markHarvested state triggerHash) todo
            (learned ++ [triggerHash]) }
      else s.runs.lookup other := by
    intro other
    rw [← hs']
    exact lookup_enter (s.called triggerHash true) pid other _
  have hsame : s'.stored = s.stored := by
    rw [← hs']
    rfl
  have hcalls : s'.calls = (s.called triggerHash true).calls := by
    rw [← hs']
    rfl
  have hwrites : s'.writes = s.writes := by
    rw [← hs']
    rfl
  rw [← hsame] at hstored
  constructor
  · constructor
    · apply h.reads_later hlater
      rw [← hs']
      rfl
    · exact hstored.covered
    · rw [hcalls]
      exact calls_snoc h.once.calls hfresh
    · rw [hwrites]
      exact h.once.forward
    · exact hstored.atLine
  · intro other old hold
    rw [hlookup] at hold
    by_cases hpid : other = pid
    · rw [if_pos hpid] at hold
      cases hold
      constructor
      · exact (SoundState.later hsound.left hlater).markHarvested triggerHash
      constructor
      · intro hash
        change hash ∈ state.harvested ++ [triggerHash] <-> _
        rw [List.mem_append, List.mem_append, hsound.right.left hash, or_assoc]
      · exact hsound.right.right
    · rw [if_neg hpid] at hold
      exact (h.runs other old hold).later hlater
  · intro call hcall hok
    rw [hcalls] at hcall
    rcases List.mem_append.mp hcall with hold | hnew
    · rcases h.remembered call hold hok with hin | ⟨other, old, hother, hhash⟩
      · left
        rw [hsame]
        exact hin
      · right
        exists other
        rw [hlookup]
        by_cases hpid : other = pid
        · rw [if_pos hpid]
          rw [hpid, hrun] at hother
          cases hother
          rw [hstage] at hhash
          exact ⟨_, rfl, List.mem_append_left _ hhash⟩
        · rw [if_neg hpid]
          exact ⟨old, hother, hhash⟩
    · right
      exists pid
      rw [hlookup, if_pos rfl, List.mem_singleton.mp hnew]
      exact ⟨_, rfl, List.mem_append_right _ (List.mem_singleton.mpr rfl)⟩
  · intro w hw path
    rw [hwrites] at hw
    rw [hsame]
    exact h.last w hw path

/-!
## The state that is written
-/

theorem cursorOf_of_not_mem {state : JevHarvestState} {path : String}
    (h : path ∉ state.cursors.map (·.1)) :
    cursorOf state path = 0 := by
  unfold cursorOf
  rw [Dict.lookup_eq_none h]
  rfl

theorem SoundHarvest.write
    {host : HarvestHost entry options} {s : HarvestVault options} {pid : Nat}
    {run : Harvest options} {read state : JevHarvestState}
    {learned : List String} (h : SoundHarvest host s)
    (hrun : s.runs.lookup pid = some run)
    (hstage : run.stage = HarvestStage.learning read state [] learned)
    (hread : storedIsRead s run = true) :
    SoundHarvest host ({ s with
      stored := state
      writes := s.writes ++ [state] }.leave pid) := by
  have hsound := h.runs pid run hrun
  unfold storedIsRead at hread
  rw [hstage] at hread hsound
  dsimp only at hread
  rw [Bool.and_eq_true, decide_eq_true_iff, Dict.allKeys_iff] at hread
  have hforward : forall path,
      cursorOf s.stored path <= cursorOf state path := by
    intro path
    by_cases hmem : path ∈ s.stored.cursors.map (·.1)
    · have hcheck := hread.right path (Or.inl hmem)
      by_cases hown : path = run.transcriptPath
      · rw [if_pos hown, decide_eq_true_iff] at hcheck
        exact hcheck
      · rw [if_neg hown, decide_eq_true_iff] at hcheck
        exact Nat.le_of_eq
          (hcheck.trans (hsound.right.right path hown).symm)
    · rw [cursorOf_of_not_mem hmem]
      exact Nat.zero_le _
  generalize hs' : HarvestVault.leave _ pid = s'
  have hlater : Later s s' := by
    rw [← hs']
    exact Later.of_same rfl rfl
  have hstored : s'.stored = state := by
    rw [← hs']
    rfl
  have hcalls : s'.calls = s.calls := by
    rw [← hs']
    rfl
  have hwrites : s'.writes = s.writes ++ [state] := by
    rw [← hs']
    rfl
  have hlookup : forall other, s'.runs.lookup other =
      if other = pid then none else s.runs.lookup other := by
    intro other
    rw [← hs']
    exact lookup_leave _ pid other
  have hstate := SoundState.later hsound.left hlater
  rw [← hstored] at hstate
  constructor
  · constructor
    · apply h.reads_later hlater
      rw [← hs']
      rfl
    · exact hstate.covered
    · rw [hcalls]
      exact h.once.calls
    · rw [hwrites]
      apply List.pairwise_append.mpr
      constructor
      · exact h.once.forward
      constructor
      · exact List.pairwise_singleton _ _
      · intro w hw later hlast path
        rw [List.mem_singleton.mp hlast]
        exact Nat.le_trans (h.last w hw path) (hforward path)
    · exact hstate.atLine
  · intro other old hold
    rw [hlookup] at hold
    by_cases hpid : other = pid
    · rw [if_pos hpid] at hold
      cases hold
    · rw [if_neg hpid] at hold
      exact (h.runs other old hold).later hlater
  · intro call hcall hok
    rw [hcalls] at hcall
    have hharvested := hsound.right.left call.triggerHash
    rcases h.remembered call hcall hok with hin | ⟨other, old, hold, hhash⟩
    · left
      rw [hstored]
      apply hharvested.mpr
      left
      rw [← hread.left]
      exact hin
    · by_cases hpid : other = pid
      · left
        rw [hpid, hrun] at hold
        cases hold
        rw [hstage] at hhash
        rw [hstored]
        exact hharvested.mpr (Or.inr hhash)
      · right
        exists other, old
        rw [hlookup, if_neg hpid]
        exact ⟨hold, hhash⟩
  · intro w hw path
    rw [hwrites] at hw
    rw [hstored]
    rcases List.mem_append.mp hw with hold | hnew
    · exact Nat.le_trans (h.last w hold path) (hforward path)
    · rewrite [List.mem_singleton.mp hnew]
      exact Nat.le_refl _

/-!
## Runs
-/

theorem SoundHarvest.grow
    {host : HarvestHost entry options} {s : HarvestVault options}
    (h : SoundHarvest host s) (path : String) (bytes : List UInt8) :
    SoundHarvest host { s with
      transcripts :=
        Function.update s.transcripts path (s.transcripts path ++ bytes) } := by
  have hlater : Later s { s with
      transcripts :=
        Function.update s.transcripts path (s.transcripts path ++ bytes) } := by
    constructor
    · intro other
      by_cases hsame : other = path
      · exists bytes
        rw [hsame]
        exact Function.update_self _ _ _
      · exists []
        rw [List.append_nil]
        exact Function.update_of_ne hsame _ _
    · intro line hline
      exact hline
  apply h.storesNothing
  · constructor
    · exact hlater
    · rfl
    · rfl
    · rfl
    · intro other old hash hold hhash
      exact ⟨old, hold, hhash⟩
  · exact h.reads_later hlater rfl
  · intro other old hold
    exact (h.runs other old hold).later hlater

theorem learned_of_not_hasLearned {run : Harvest options}
    (h : (!hasLearned run) = true) :
    run.stage.learned = [] := by
  unfold hasLearned at h
  rw [Bool.not_not] at h
  exact List.isEmpty_iff.mp h

theorem SoundHarvest.attempt
    {host : HarvestHost entry options} {s s' : HarvestVault options}
    {pid : Nat} {attempt : Attempt} {run : Harvest options}
    (h : SoundHarvest host s) (hrun : s.runs.lookup pid = some run)
    (hfinds : attemptFinds s pid attempt run = true)
    (hnext : attemptTrigger host s pid attempt run = some s') :
    SoundHarvest host s' := by
  unfold attemptTrigger at hnext
  cases hstage : run.stage with
  | started =>
      rw [hstage] at hnext
      cases hnext
  | stateRead state =>
      rw [hstage] at hnext
      cases hnext
  | learning read state todo learned =>
      rw [hstage] at hnext
      cases todo with
      | nil => cases hnext
      | cons trigger todo =>
          have hsound := h.runs pid run hrun
          rw [hstage] at hsound
          have hstays : forall old, s.runs.lookup pid = some old ->
              old.stage.learned = learned := by
            intro old hold
            rw [hrun] at hold
            cases hold
            rw [hstage]
            rfl
          dsimp only at hnext
          by_cases hdone :
              host.sha1 trigger.triggerText ∈ state.harvested
          · rw [if_pos hdone] at hnext
            cases hnext
          · rw [if_neg hdone] at hnext
            cases attempt with
            | extractThrows =>
                cases hnext
                exact h.leave hrun (learned_of_not_hasLearned hfinds)
            | noPayload =>
                cases hnext
                exact h.move hstays hsound
            | learn answers =>
                unfold attemptFinds at hfinds
                rw [Bool.and_eq_true] at hfinds
                have hfresh :=
                  fresh_of_learnsAlone h hrun hstage hfinds.left hdone
                dsimp only at hnext
                cases hresult : executeLearnPipeline answers with
                | none =>
                    rw [hresult] at hnext hfinds
                    cases hnext
                    have hthrows : (!hasLearned run) = true := hfinds.right
                    exact (h.called hfresh).leave hrun
                      (learned_of_not_hasLearned hthrows)
                | some learnRes =>
                    rw [hresult] at hnext
                    dsimp only at hnext
                    by_cases hok : learnRes.ok = true
                    · rw [if_pos hok] at hnext
                      cases hnext
                      exact h.learn hrun hstage hfresh
                    · rw [if_neg hok] at hnext
                      cases hnext
                      apply (h.called hfresh).move hstays
                      exact SoundStage.later hsound (Later.of_same rfl rfl)

theorem SoundHarvest.skip
    {host : HarvestHost entry options} {s s' : HarvestVault options}
    {pid : Nat} {run : Harvest options} (h : SoundHarvest host s)
    (hrun : s.runs.lookup pid = some run)
    (hnext : skipTrigger host s pid run = some s') :
    SoundHarvest host s' := by
  unfold skipTrigger at hnext
  cases hstage : run.stage with
  | started =>
      rw [hstage] at hnext
      cases hnext
  | stateRead state =>
      rw [hstage] at hnext
      cases hnext
  | learning read state todo learned =>
      rw [hstage] at hnext
      cases todo with
      | nil => cases hnext
      | cons trigger todo =>
          have hsound := h.runs pid run hrun
          rw [hstage] at hsound
          dsimp only at hnext
          by_cases hdone :
              host.sha1 trigger.triggerText ∈ state.harvested
          · rw [if_pos hdone] at hnext
            cases hnext
            apply h.move
            · intro old hold
              rw [hrun] at hold
              cases hold
              rw [hstage]
              rfl
            · exact hsound
          · rw [if_neg hdone] at hnext
            cases hnext

theorem SoundHarvest.readState
    {host : HarvestHost entry options} {s s' : HarvestVault options}
    {pid : Nat} {readable : Bool} {run : Harvest options}
    (h : SoundHarvest host s) (hrun : s.runs.lookup pid = some run)
    (hnext : readState s pid readable run = some s') :
    SoundHarvest host s' := by
  unfold Hooks.readState at hnext
  cases hstage : run.stage with
  | started =>
      rw [hstage] at hnext
      cases hnext
      apply h.move
      · intro old hold
        rw [hrun] at hold
        cases hold
        rw [hstage]
        rfl
      · change SoundState host s (readJevHarvestState s readable)
        cases readable with
        | true => exact h.stored
        | false => exact soundState_noHarvestState host s
  | stateRead state =>
      rw [hstage] at hnext
      cases hnext
  | learning read state todo learned =>
      rw [hstage] at hnext
      cases hnext

theorem all_of_lookup {found : Option (Harvest options)}
    {check : Harvest options -> Bool} {run : Harvest options}
    (h : found.all check = true) (hrun : found = some run) :
    check run = true := by
  rw [hrun] at h
  exact h

theorem harvestNext_sound
    {host : HarvestHost entry options} {s s' : HarvestVault options}
    {event : HarvestEvent options} (h : SoundHarvest host s)
    (hfinds : Undisturbed host s event)
    (hnext : harvestNext host s event = some s') :
    SoundHarvest host s' := by
  cases event with
  | grow path bytes =>
      cases hnext
      exact h.grow path bytes
  | start pid path options =>
      unfold harvestNext at hnext
      dsimp only at hnext
      cases hlookup : s.runs.lookup pid with
      | some run =>
          rw [hlookup] at hnext
          cases hnext
      | none =>
          rw [hlookup] at hnext
          dsimp only at hnext
          by_cases hpath : path = ""
          · rw [if_pos hpath] at hnext
            cases hnext
          · rw [if_neg hpath] at hnext
            cases hnext
            apply h.move
            · intro old hold
              rw [hlookup] at hold
              cases hold
            · exact trivial
  | readState pid readable =>
      rcases Option.bind_eq_some_iff.mp hnext with ⟨run, hrun, hread⟩
      exact h.readState hrun hread
  | readDelta pid bytesRead =>
      rcases Option.bind_eq_some_iff.mp hnext with ⟨run, hrun, hread⟩
      exact h.readDelta hrun (all_of_lookup hfinds hrun) hread
  | skip pid =>
      rcases Option.bind_eq_some_iff.mp hnext with ⟨run, hrun, hskip⟩
      exact h.skip hrun hskip
  | attempt pid attempt =>
      rcases Option.bind_eq_some_iff.mp hnext with ⟨run, hrun, hattempt⟩
      exact h.attempt hrun (all_of_lookup hfinds hrun) hattempt
  | write pid =>
      rcases Option.bind_eq_some_iff.mp hnext with ⟨run, hrun, hwrite⟩
      have hread := all_of_lookup hfinds hrun
      unfold writeJevHarvestState at hwrite
      cases hstage : run.stage with
      | started =>
          rw [hstage] at hwrite
          cases hwrite
      | stateRead state =>
          rw [hstage] at hwrite
          cases hwrite
      | learning read state todo learned =>
          rw [hstage] at hwrite
          cases todo with
          | nil =>
              cases hwrite
              exact h.write hrun hstage hread
          | cons trigger todo => cases hwrite
  | abort pid =>
      rcases Option.map_eq_some_iff.mp hnext with ⟨run, hrun, hleave⟩
      cases hleave
      exact h.leave hrun
        (learned_of_not_hasLearned (all_of_lookup hfinds hrun))

/-- In every run in which no harvest is disturbed. -/
theorem harvestedOnce_of_undisturbed
    {host : HarvestHost entry options} {s : HarvestVault options}
    (h : ((harvests host).Restrict (Undisturbed host)).Reachable s) :
    HarvestedOnce host s := by
  have hsound : SoundHarvest host s := by
    apply TransitionSystem.reachable_induction _ _ h
    · intro s0 h0
      exact initial_soundHarvest h0
    · intro x event x' _ hx hstep
      exact harvestNext_sound hx hstep.left hstep.right
  exact hsound.once

end Law

/-!
## Two sessions on one vault
-/

def asciiBytes (text : String) : List UInt8 :=
  text.toList.map fun c => UInt8.ofNat c.toNat

def directiveLine : List UInt8 :=
  asciiBytes "\x7b\"type\":\"user\",\"content\":\"always run the tests\"\x7d"

def answerLine : List UInt8 :=
  asciiBytes "\x7b\"type\":\"assistant\",\"content\":\"done\"\x7d"

def directive : JevTrigger where
  triggerText := "always run the tests"

/-- The entries of the two lines; only the first one is a directive. -/
def twoLines : HarvestHost Bool Unit where
  parseLine := fun line =>
    if line = directiveLine then some (ParsedLine.entry true)
    else if line = answerLine then some (ParsedLine.entry false)
    else none
  screenTranscriptChunk := fun entries _ =>
    (entries.filter fun isDirective => isDirective).map fun _ => directive
  sha1 := fun text =>
    if text = "always run the tests" then
      "77f1014ccc6f31be38c22359db0ec1baeb8c7a60"
    else
      text

def directiveHash : String :=
  twoLines.sha1 directive.triggerText

def emptyVault : HarvestVault Unit where
  transcripts := fun _ => []
  stored := noHarvestState
  runs := []
  screened := []
  reads := []
  calls := []
  writes := []

def learnedByStore : Attempt :=
  Attempt.learn
    { assessLearningQuality := some ⟨false, true⟩
      recordAudit := true
      durable := true
      isSessionStatusChatter := false
      runStage2JevTriage := true
      appendHandoff := true
      learnMemory := true
      vaultFirstLearn := true }

def harvestDirective (pid : Nat) : List (HarvestEvent Unit) :=
  [HarvestEvent.readDelta pid 4096, HarvestEvent.attempt pid learnedByStore,
    HarvestEvent.write pid]

def begin (pid : Nat) (path : String) : List (HarvestEvent Unit) :=
  [HarvestEvent.start pid path (), HarvestEvent.readState pid true]

def oneSession : List (HarvestEvent Unit) :=
  HarvestEvent.grow "/b.jsonl" (directiveLine ++ [newline]) ::
    begin 1 "/b.jsonl" ++ harvestDirective 1

/-- The first session has read the state before the second one stores its own
progress, and writes after it. -/
def staleSession : List (HarvestEvent Unit) :=
  HarvestEvent.grow "/a.jsonl" (answerLine ++ [newline]) ::
    HarvestEvent.grow "/b.jsonl" (directiveLine ++ [newline]) ::
    begin 1 "/a.jsonl" ++ begin 2 "/b.jsonl" ++
    harvestDirective 2 ++
    [HarvestEvent.readDelta 1 4096, HarvestEvent.write 1] ++
    begin 3 "/b.jsonl" ++ harvestDirective 3

theorem harvestedOnce_of_undisturbed_oneSession :
    exists s, ((harvests twoLines).Restrict (Undisturbed twoLines)).Reachable s ∧
      s.calls = [⟨directiveHash, true⟩] ∧ HarvestedOnce twoLines s := by
  have hexec : (match TransitionSystem.execWhere (harvestNext twoLines)
      (undisturbed twoLines) emptyVault oneSession with
      | none => false
      | some s => decide (s.calls = [⟨directiveHash, true⟩])) = true := by
    decide +kernel
  cases hs : TransitionSystem.execWhere (harvestNext twoLines)
      (undisturbed twoLines) emptyVault oneSession with
  | none =>
      rw [hs] at hexec
      cases hexec
  | some s =>
      rw [hs] at hexec
      have hreach :
          ((harvests twoLines).Restrict (Undisturbed twoLines)).Reachable s :=
        ⟨emptyVault, oneSession, ⟨rfl, rfl, rfl, rfl, rfl, rfl⟩,
          TransitionSystem.run_of_execWhere (fun _ _ h => h) hs⟩
      exact ⟨s, hreach, of_decide_eq_true hexec,
        harvestedOnce_of_undisturbed hreach⟩

/-- The cursor of the second session goes back to the start, and its trigger is
learned twice. -/
theorem relearned_after_stale_write :
    exists s, (harvests twoLines).Reachable s ∧ s.runs = [] ∧
      s.calls = [⟨directiveHash, true⟩, ⟨directiveHash, true⟩] ∧
      s.writes.map (cursorOf · "/b.jsonl") = [49, 0, 49] ∧
      ¬ HarvestedOnce twoLines s := by
  have hexec : (match TransitionSystem.exec (harvestNext twoLines)
      emptyVault staleSession with
      | none => false
      | some s => s.runs.isEmpty &&
          decide (s.calls =
            [⟨directiveHash, true⟩, ⟨directiveHash, true⟩]) &&
          decide (s.writes.map (cursorOf · "/b.jsonl") = [49, 0, 49])) =
        true := by
    decide +kernel
  cases hs : TransitionSystem.exec (harvestNext twoLines) emptyVault
      staleSession with
  | none =>
      rw [hs] at hexec
      cases hexec
  | some s =>
      rw [hs] at hexec
      rcases (Bool.and_eq_true_iff.mp hexec) with ⟨hfirst, hwritesEq⟩
      rcases (Bool.and_eq_true_iff.mp hfirst) with ⟨hrunsEmpty, hcallsEq⟩
      have hruns := List.isEmpty_iff.mp hrunsEmpty
      have hcalls := of_decide_eq_true hcallsEq
      have hwrites := of_decide_eq_true hwritesEq
      apply Exists.intro s
      constructor
      · exact ⟨emptyVault, staleSession, ⟨rfl, rfl, rfl, rfl, rfl, rfl⟩,
          TransitionSystem.run_of_exec hs⟩
      constructor
      · exact hruns
      constructor
      · exact hcalls
      constructor
      · exact hwrites
      · intro honce
        have hpair := honce.calls
        rw [hcalls] at hpair
        have hne := (List.pairwise_cons.mp hpair).left _
          (List.mem_singleton.mpr rfl) rfl
        exact hne rfl

end Hooks
end Minni
