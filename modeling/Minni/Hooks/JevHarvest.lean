import Mathlib.Logic.Function.Basic
import Minni.Foundation.Dict
import Minni.Foundation.Tailing
import Minni.Foundation.TransitionSystem

/-!
# The transcript harvest

A hook reads what a transcript has grown by, screens it for triggers, learns
from each trigger it has not learned from before, and stores how far it has
read.  The cursors and the learned triggers of all sessions of a vault are in
one file, which is read when a harvest begins and written when it ends.
-/

namespace Minni
namespace Hooks

open Foundation

/-!
## The delta of a transcript
-/

structure JevTrigger where
  triggerText : String
  deriving DecidableEq, Repr

/-- What a line is as JSON: an object or a list, which is a transcript entry, or
another value. -/
inductive ParsedLine (entry : Type) where
  | entry (e : entry)
  | other

/-- What the harvest uses and does not say itself. -/
structure HarvestHost (entry options : Type) where
  parseLine : List UInt8 -> Option (ParsedLine entry)
  screenTranscriptChunk : List entry -> options -> List JevTrigger
  sha1 : String -> String

def newline : UInt8 := 0x0a

def entryOf {entry options : Type} (host : HarvestHost entry options)
    (line : List UInt8) : Option entry :=
  match host.parseLine line with
  | some (ParsedLine.entry e) => some e
  | _ => none

/-- The entries of a chunk, each with the offset of its line. -/
def deltaEntries {entry options : Type} (host : HarvestHost entry options)
    (fromOffset : Nat) (chunk : List UInt8) : List (Nat × entry) :=
  let validChunk := chunk.take (Tailing.lineEnd newline chunk)
  (Tailing.completeLines newline fromOffset [] validChunk).filterMap
    fun line => (entryOf host line.2).map fun e => (line.1, e)

/-- A read of `bytesRead` bytes.  It may stop short of what the file has, and
one that fails is one of no bytes. -/
def chunkOf (transcript : List UInt8) (fromOffset bytesRead : Nat) :
    List UInt8 :=
  (transcript.drop fromOffset).take bytesRead

def readTranscriptDelta {entry options : Type}
    (host : HarvestHost entry options) (transcript : List UInt8)
    (fromOffset bytesRead : Nat) : List (Nat × entry) × Nat :=
  let chunk := chunkOf transcript fromOffset bytesRead
  (deltaEntries host fromOffset chunk,
    fromOffset + Tailing.lineEnd newline chunk)

/-!
## One learning

The answers are those of the functions that the pipeline calls, where `none`
and `false` stand for a call that throws.  The store is the exception: what it
throws is caught.
-/

structure LearningQualityReport where
  flagsSensitiveMaterial : Bool
  ok : Bool
  deriving DecidableEq, Repr

structure LearnAnswers where
  assessLearningQuality : Option LearningQualityReport
  recordAudit : Bool
  durable : Bool
  isSessionStatusChatter : Bool
  runStage2JevTriage : Bool
  appendHandoff : Bool
  learnMemory : Bool
  vaultFirstLearn : Bool
  deriving DecidableEq, Repr

inductive LearnStatus where
  | qualityBlocked
  | routedToSessionHandoff
  | learned
  deriving DecidableEq, Repr

structure LearnResult where
  ok : Bool
  status : LearnStatus
  deriving DecidableEq, Repr

def executeLearnPipeline (answers : LearnAnswers) : Option LearnResult :=
  match answers.assessLearningQuality with
  | none => none
  | some quality =>
      if quality.flagsSensitiveMaterial || !quality.ok then
        if answers.recordAudit then some ⟨false, LearnStatus.qualityBlocked⟩
        else none
      else
        let triageAccepted :=
          if answers.durable && !answers.isSessionStatusChatter then
            answers.runStage2JevTriage
          else
            false
        if !answers.durable || answers.isSessionStatusChatter ||
            !triageAccepted then
          if answers.appendHandoff then
            some ⟨true, LearnStatus.routedToSessionHandoff⟩
          else
            none
        else if !answers.learnMemory then
          if answers.vaultFirstLearn then some ⟨true, LearnStatus.learned⟩
          else none
        else
          if answers.recordAudit then some ⟨true, LearnStatus.learned⟩
          else none

/-- What becomes of a trigger: the extraction throws, gives no payload, or gives
one that is passed on to be learned. -/
inductive Attempt where
  | extractThrows
  | noPayload
  | learn (answers : LearnAnswers)
  deriving DecidableEq, Repr

/-!
## The stored state
-/

/-- Of a harvested trigger only its hash is kept; nothing reads its time. -/
structure JevHarvestState where
  cursors : List (String × Nat)
  harvested : List String
  deriving DecidableEq, Repr

def noHarvestState : JevHarvestState where
  cursors := []
  harvested := []

def cursorOf (state : JevHarvestState) (transcriptPath : String) : Nat :=
  (state.cursors.lookup transcriptPath).getD 0

def moveCursor (state : JevHarvestState) (transcriptPath : String)
    (newOffset : Nat) : JevHarvestState :=
  { state with cursors := Dict.set transcriptPath newOffset state.cursors }

def markHarvested (state : JevHarvestState) (triggerHash : String) :
    JevHarvestState :=
  { state with harvested := state.harvested ++ [triggerHash] }

/-!
## Runs of the harvest
-/

/-- While it learns, a harvest has the state it will write and the triggers that
are left.  The state it began with is `read`, the hashes it added `learned`. -/
inductive HarvestStage where
  | started
  | stateRead (state : JevHarvestState)
  | learning (read state : JevHarvestState) (todo : List JevTrigger)
      (learned : List String)
  deriving DecidableEq, Repr

def HarvestStage.learned : HarvestStage -> List String
  | started => []
  | stateRead _ => []
  | learning _ _ _ learned => learned

structure Harvest (options : Type) where
  transcriptPath : String
  options : options
  stage : HarvestStage

structure LearnCall where
  triggerHash : String
  ok : Bool
  deriving DecidableEq, Repr

/-- The last four fields are history: which lines were screened, how far each
read went, the learn calls, and the states that were written. -/
structure HarvestVault (options : Type) where
  transcripts : String -> List UInt8
  stored : JevHarvestState
  runs : List (Nat × Harvest options)
  screened : List (String × Nat)
  reads : List (String × Nat)
  calls : List LearnCall
  writes : List JevHarvestState

inductive HarvestEvent (options : Type) where
  | grow (transcriptPath : String) (bytes : List UInt8)
  | start (pid : Nat) (transcriptPath : String) (options : options)
  | readState (pid : Nat) (readable : Bool)
  | readDelta (pid : Nat) (bytesRead : Nat)
  | skip (pid : Nat)
  | attempt (pid : Nat) (attempt : Attempt)
  | write (pid : Nat)
  | abort (pid : Nat)

section Runs

variable {entry options : Type}

def HarvestVault.enter (s : HarvestVault options) (pid : Nat)
    (run : Harvest options) : HarvestVault options :=
  { s with runs := Dict.set pid run s.runs }

def HarvestVault.leave (s : HarvestVault options) (pid : Nat) :
    HarvestVault options :=
  { s with runs := Dict.erase pid s.runs }

def HarvestVault.called (s : HarvestVault options) (triggerHash : String)
    (ok : Bool) : HarvestVault options :=
  { s with calls := s.calls ++ [⟨triggerHash, ok⟩] }

/-- A state file that is missing or does not parse is one without entries. -/
def readJevHarvestState (s : HarvestVault options) (readable : Bool) :
    JevHarvestState :=
  if readable then s.stored else noHarvestState

def readState (s : HarvestVault options) (pid : Nat) (readable : Bool)
    (run : Harvest options) : Option (HarvestVault options) :=
  match run.stage with
  | HarvestStage.started =>
      some (s.enter pid { run with
        stage := HarvestStage.stateRead (readJevHarvestState s readable) })
  | _ => none

def readDelta (host : HarvestHost entry options) (s : HarvestVault options)
    (pid bytesRead : Nat) (run : Harvest options) :
    Option (HarvestVault options) :=
  match run.stage with
  | HarvestStage.stateRead state =>
      let transcript := s.transcripts run.transcriptPath
      let currentOffset := cursorOf state run.transcriptPath
      let delta := readTranscriptDelta host transcript currentOffset bytesRead
      let chunk := chunkOf transcript currentOffset bytesRead
      let reads := s.reads ++
        [(run.transcriptPath, currentOffset + chunk.length)]
      if delta.1.isEmpty then
        some ({ s with reads := reads }.leave pid)
      else
        some ({ s with
          reads := reads
          screened := s.screened ++
            delta.1.map fun (e : Nat × entry) => (run.transcriptPath, e.1)
          }.enter pid
              { run with
                stage := HarvestStage.learning state
                  (moveCursor state run.transcriptPath delta.2)
                  (host.screenTranscriptChunk (delta.1.map Prod.snd)
                    run.options) [] })
  | _ => none

/-- The next trigger was harvested before. -/
def skipTrigger (host : HarvestHost entry options) (s : HarvestVault options)
    (pid : Nat) (run : Harvest options) : Option (HarvestVault options) :=
  match run.stage with
  | HarvestStage.learning read state (trigger :: todo) learned =>
      if host.sha1 trigger.triggerText ∈ state.harvested then
        some (s.enter pid { run with
          stage := HarvestStage.learning read state todo learned })
      else
        none
  | _ => none

def attemptTrigger (host : HarvestHost entry options)
    (s : HarvestVault options) (pid : Nat) (attempt : Attempt)
    (run : Harvest options) : Option (HarvestVault options) :=
  match run.stage with
  | HarvestStage.learning read state (trigger :: todo) learned =>
      let triggerHash := host.sha1 trigger.triggerText
      if triggerHash ∈ state.harvested then none
      else
        match attempt with
        | Attempt.extractThrows => some (s.leave pid)
        | Attempt.noPayload =>
            some (s.enter pid { run with
              stage := HarvestStage.learning read state todo learned })
        | Attempt.learn answers =>
            match executeLearnPipeline answers with
            | none =>
                some ((s.called triggerHash false).leave pid)
            | some learnRes =>
                if learnRes.ok then
                  some ((s.called triggerHash true).enter pid
                      { run with
                        stage := HarvestStage.learning read
                          (markHarvested state triggerHash) todo
                          (learned ++ [triggerHash]) })
                else
                  some ((s.called triggerHash false).enter pid
                      { run with
                        stage := HarvestStage.learning read state todo
                          learned })
  | _ => none

def writeJevHarvestState (s : HarvestVault options) (pid : Nat)
    (run : Harvest options) : Option (HarvestVault options) :=
  match run.stage with
  | HarvestStage.learning _ state [] _ =>
      some ({ s with
        stored := state
        writes := s.writes ++ [state] }.leave pid)
  | _ => none

/-- Every step of a harvest is an event of its own, so that the harvests of any
number of processes interleave in any order. -/
def harvestNext (host : HarvestHost entry options) (s : HarvestVault options)
    (event : HarvestEvent options) : Option (HarvestVault options) :=
  match event with
  | HarvestEvent.grow path bytes =>
      some { s with
        transcripts :=
          Function.update s.transcripts path (s.transcripts path ++ bytes) }
  | HarvestEvent.start pid path options =>
      match s.runs.lookup pid with
      | some _ => none
      | none =>
          if path = "" then none
          else some (s.enter pid ⟨path, options, HarvestStage.started⟩)
  | HarvestEvent.readState pid readable =>
      (s.runs.lookup pid).bind (readState s pid readable)
  | HarvestEvent.readDelta pid bytesRead =>
      (s.runs.lookup pid).bind (readDelta host s pid bytesRead)
  | HarvestEvent.skip pid =>
      (s.runs.lookup pid).bind (skipTrigger host s pid)
  | HarvestEvent.attempt pid attempt =>
      (s.runs.lookup pid).bind (attemptTrigger host s pid attempt)
  | HarvestEvent.write pid =>
      (s.runs.lookup pid).bind (writeJevHarvestState s pid)
  | HarvestEvent.abort pid =>
      (s.runs.lookup pid).map fun _ => s.leave pid

def harvestInitial (s : HarvestVault options) : Prop :=
  s.stored = noHarvestState ∧ s.runs = [] ∧ s.screened = [] ∧
    s.reads = [] ∧ s.calls = [] ∧ s.writes = []

def harvests (host : HarvestHost entry options) :
    TransitionSystem (HarvestVault options) (HarvestEvent options) :=
  TransitionSystem.OfNext harvestInitial (harvestNext host)

end Runs

end Hooks
end Minni
