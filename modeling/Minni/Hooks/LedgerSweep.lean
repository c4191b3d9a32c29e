import Mathlib.Algebra.Order.Ring.Rat
import Mathlib.Data.String.Basic
import Minni.Foundation.Json

/-!
# The sweep of the use ledger

A run goes through the session directories of the ledger in the order of their
names.  A directory whose entries are all past the horizon is removed when the
detector holds no open work for its session.  Where it does, the directory is a
candidate: at the end of the run the detector closes the candidates, and those
that are closed then are removed.  A run that is cut off leaves a cursor for the
next one.
-/

namespace Minni
namespace Hooks

open Foundation

/-!
## Names
-/

def isAlnum (c : Char) : Bool :=
  ('A' ≤ c && c ≤ 'Z') || ('a' ≤ c && c ≤ 'z') || ('0' ≤ c && c ≤ '9')

/-- `[A-Za-z0-9][A-Za-z0-9_-]{0,63}` -/
def isKey : List Char -> Bool
  | [] => false
  | c :: rest =>
      isAlnum c && decide (rest.length ≤ 63) &&
        rest.all fun d => isAlnum d || d = '_' || d = '-'

/-- `SESSION_KEY_RE` -/
def isSessionKey (name : String) : Bool :=
  isKey name.toList

/-- `TRASH_RE` -/
def isTrash (name : String) : Bool :=
  let start := ".trash-".toList
  let rest := name.toList.drop start.length
  let digits := rest.takeWhile Char.isDigit
  start.isPrefixOf name.toList && !digits.isEmpty &&
    decide (digits.length ≤ 16) &&
    match rest.dropWhile Char.isDigit with
    | '-' :: key => isKey key
    | _ => false

/-!
## The detector
-/

inductive DetectorSessionState where
  | none
  | closed
  | open
  | locked
  | unknown
  deriving DecidableEq, Repr

def isRecord : Json -> Bool
  | Json.obj _ => true
  | _ => false

def isEmptyArray : Option Json -> Bool
  | some (Json.arr []) => true
  | _ => false

def agentHasOpenWork (agent : Json) : Bool :=
  !isRecord agent ||
    !isEmptyArray (agent.field? "windows") ||
    !isEmptyArray (agent.field? "exposures") ||
    match agent.field? "turn" with
    | none => false
    | some turn => isRecord turn && (turn.field? "ended").isSome

/-- What the containment walk finds. -/
inductive WalkResult where
  | fails
  | missing
  | found
  deriving DecidableEq, Repr

inductive LockStat where
  | missing
  | fails
  | at (mtimeMs : Rat)
  deriving DecidableEq, Repr

/-- What a read of the state file gives; the bytes may not be JSON. -/
inductive StateRead where
  | missing
  | fails
  | refused
  | bytes (raw : Option Json)

structure DetectorFiles where
  dir : WalkResult
  lock : LockStat
  state : StateRead

def detectorLockStaleMs : Rat := 30000

def isFresh (now : Rat) : LockStat -> Bool
  | .at mtimeMs => decide (now - mtimeMs ≤ detectorLockStaleMs)
  | _ => false

def stateIn (sessionKey : String) (raw : Json) : DetectorSessionState :=
  match raw.field? "v", raw.field? "session_key", raw.field? "agents" with
  | some (Json.num (JsonNumber.int 1)), some (Json.str key),
      some (Json.obj agents) =>
      if key = sessionKey then
        if agents.any fun agent => agentHasOpenWork agent.2 then .open
        else .closed
      else .unknown
  | _, _, _ => .unknown

def detectorSessionState (files : DetectorFiles) (sessionKey : String)
    (now : Rat) : DetectorSessionState :=
  if !isSessionKey sessionKey then .unknown
  else
    match files.dir with
    | .fails => .unknown
    | .missing => .none
    | .found =>
        if files.lock = .fails then .unknown
        else if isFresh now files.lock then .locked
        else
          match files.state with
          | .missing => .none
          | .fails => .unknown
          | .refused => .unknown
          | .bytes none => .unknown
          | .bytes (some raw) => stateIn sessionKey raw

/-!
## One name
-/

/-- What a run finds under a name, and whether the name can be renamed and the
trash emptied. -/
structure SessionLook where
  /-- Whether it is a directory; `lstat` may fail. -/
  isDirectory : Option Bool
  mtimeMs : Rat
  /-- The times of the entries; the listing and each `lstat` may fail. -/
  entries : Option (List (Option Rat))
  files : DetectorFiles
  renames : Bool
  empties : Bool

def ledgerIdleMaxMs : Rat := 90 * 24 * 60 * 60 * 1000

def maxEntriesPerDir : Nat := 256

/-- The times of all entries, where none of them fails. -/
def allTimes : List (Option Rat) -> Option (List Rat)
  | [] => some []
  | none :: _ => none
  | some t :: rest => (allTimes rest).map fun times => t :: times

def isPastHorizon (look : SessionLook) (now : Rat) : Option Bool :=
  match look.entries with
  | none => none
  | some entries =>
      if maxEntriesPerDir < entries.length then some false
      else
        (allTimes entries).map fun times =>
          decide (ledgerIdleMaxMs < now - times.foldl max look.mtimeMs)

inductive SweepOutcome where
  | removed
  | kept
  | kept_open
  | candidate
  deriving DecidableEq, Repr

/-- What is done with a name: the outcome, which an error leaves out, and
whether a session directory is renamed or removed. -/
structure NameResult where
  outcome : Option SweepOutcome
  taken : Bool
  deriving DecidableEq, Repr

/-- `removeSessionDir` -/
def removeSessionDir (renames empties : Bool) : NameResult :=
  { outcome := if renames && empties then some .removed else none
    taken := true }

def sweepOne (look : SessionLook) (name : String) (now : Rat) : NameResult :=
  match look.isDirectory with
  | none => { outcome := none, taken := false }
  | some false => { outcome := some .kept, taken := false }
  | some true =>
      if isTrash name then
        { outcome := if look.empties then some .removed else none
          taken := false }
      else
        match isPastHorizon look now with
        | none => { outcome := none, taken := false }
        | some false => { outcome := some .kept, taken := false }
        | some true =>
            match detectorSessionState look.files name now with
            | .open => { outcome := some .candidate, taken := false }
            | .locked => { outcome := some .kept_open, taken := false }
            | .unknown => { outcome := some .kept_open, taken := false }
            | .none => removeSessionDir look.renames look.empties
            | .closed => removeSessionDir look.renames look.empties

/-!
## The input of a run
-/

structure SweepState where
  next_after : Rat
  cursor : Option String
  deriving DecidableEq, Repr

/-- What the close of the candidates answers: nothing when it cannot be loaded
or fails, and else the number of candidates that remain, if it gives one. -/
inductive FinalizerAnswer where
  | fails
  | closed (remaining : Option Rat)
  deriving DecidableEq, Repr

/-- What a run finds when it comes back to a candidate. -/
structure AfterLook where
  files : DetectorFiles
  renames : Bool
  empties : Bool

structure SweepInput where
  budgetMs : Option Rat
  deadline : Option Rat
  now : Option Rat
  dateNow : Rat
  /-- The readings of the clock, in the order in which they are taken. -/
  clock : Nat -> Rat
  root : WalkResult
  /-- Whether the state file can be read. -/
  readable : Bool
  listing : Option (List String)
  look : String -> SessionLook
  finalize : List String -> Rat -> FinalizerAnswer
  after : String -> AfterLook
  /-- Whether the state file can be written. -/
  writes : Bool
  distinct : forall names, listing = some names -> names.Nodup

def ledgerSweepBudgetMs : Rat := 150

def ledgerSweepIntervalMs : Rat := 24 * 60 * 60 * 1000

def ledgerSweepMaxRemovals : Nat := 20

namespace SweepInput

variable (input : SweepInput)

def started : Option Rat :=
  match input.deadline with
  | none => some (input.clock 0)
  | some _ => none

def deadlineHere : Rat :=
  input.deadline.getD
    (input.clock 0 + input.budgetMs.getD ledgerSweepBudgetMs)

def nowHere : Rat :=
  (input.now.or input.started).getD input.dateNow

/-- The budget that the run has; on either path it is known after the first
reading of the clock. -/
def budgetHere : Rat :=
  match input.deadline with
  | none => input.budgetMs.getD ledgerSweepBudgetMs
  | some deadline => deadline - input.clock 0

/-- The budget left at a reading. -/
def left (tick : Nat) : Rat :=
  input.deadlineHere - input.clock tick

def spent (tick : Nat) : Bool :=
  decide (input.left tick ≤ 0)

/-!
## The scan
-/

structure Scan where
  /-- The number of the next reading of the clock. -/
  tick : Nat
  examined : List String
  taken : List String
  removed : Nat
  kept_open : Nat
  candidates : List String
  last : Option String
  /-- The names that are not reached. -/
  rest : List String

def Scan.add (scan : Scan) (name : String) (result : NameResult) : Scan :=
  { scan with
    examined := scan.examined ++ [name]
    taken := if result.taken then scan.taken ++ [name] else scan.taken
    removed :=
      if result.outcome = some .removed then scan.removed + 1
      else scan.removed
    kept_open :=
      if result.outcome = some .kept_open then scan.kept_open + 1
      else scan.kept_open
    candidates :=
      if result.outcome = some .candidate then scan.candidates ++ [name]
      else scan.candidates
    last := some name }

/-- The loop over the names, from a point on. -/
def scanFrom (scan : Scan) : List String -> Scan
  | [] => { scan with rest := [] }
  | name :: names =>
      if input.spent scan.tick ||
          decide (ledgerSweepMaxRemovals ≤
            scan.removed + scan.candidates.length) then
        { scan with tick := scan.tick + 1, rest := name :: names }
      else if scan.candidates.isEmpty then
        scanFrom
          ({ scan with tick := scan.tick + 1 }.add name
            (sweepOne (input.look name) name input.nowHere)) names
      else if input.left (scan.tick + 1) ≤ input.budgetHere / 2 then
        { scan with tick := scan.tick + 2, rest := name :: names }
      else
        scanFrom
          ({ scan with tick := scan.tick + 2 }.add name
            (sweepOne (input.look name) name input.nowHere)) names

def sortNames (names : List String) : List String :=
  (names.filter fun name => isSessionKey name || isTrash name).mergeSort
    fun a b => decide (a ≤ b)

/-- The names after the cursor. -/
def namesAfter (cursor : Option String) (names : List String) : List String :=
  match cursor with
  | none => names
  | some c => names.drop (names.findIdx fun name => decide (c < name))

/-- The scan before the loop. -/
def Scan.begin (cursor : Option String) : Scan :=
  { tick := 1
    examined := []
    taken := []
    removed := 0
    kept_open := 0
    candidates := []
    last := cursor
    rest := [] }

def scan (cursor : Option String) (names : List String) : Scan :=
  input.scanFrom (Scan.begin cursor) (namesAfter cursor names)

/-!
## The close of the candidates
-/

def maxSafeInteger : Rat := 9007199254740991

/-- How many of the batch the close has examined. -/
def examinedCount (batch : List String) : FinalizerAnswer -> Nat
  | .fails => batch.length
  | .closed none => batch.length
  | .closed (some remaining) =>
      if remaining.den = 1 ∧ remaining ≤ maxSafeInteger ∧ 0 < remaining ∧
          remaining ≤ batch.length then
        batch.length - remaining.num.toNat
      else batch.length

structure Close where
  taken : List String
  removed : Nat
  kept_open : Nat
  deriving DecidableEq, Repr

/-- What becomes of a candidate that the close has examined. -/
def closeOne (name : String) (done : Close) : Close :=
  let after := input.after name
  match detectorSessionState after.files name input.nowHere with
  | .none | .closed =>
      if (removeSessionDir after.renames after.empties).outcome =
          some .removed then
        { done with
          taken := done.taken ++ [name]
          removed := done.removed + 1 }
      else
        { done with
          taken := done.taken ++ [name]
          kept_open := done.kept_open + 1 }
  | _ => { done with kept_open := done.kept_open + 1 }

def batch (scan : Scan) : List String :=
  if input.spent scan.tick then scan.candidates.take 1 else scan.candidates

/-- The candidates that the close examines. -/
def reached (scan : Scan) : List String :=
  let batch := input.batch scan
  batch.take (examinedCount batch
    (input.finalize batch (max 1 (input.left (scan.tick + 1)))))

def close (scan : Scan) : Close :=
  (input.reached scan).foldl (fun done name => input.closeOne name done)
    { taken := [], removed := 0, kept_open := 0 }

/-- The candidates that are left for a later run. -/
def carried (scan : Scan) : List String :=
  scan.candidates.drop (input.reached scan).length

end SweepInput

/-!
## A run
-/

structure LedgerSweepResult where
  removed : Nat
  scanned : Nat
  kept_open : Nat
  finalized : Nat
  carried : Nat
  complete : Bool
  skipped : Bool
  deriving DecidableEq, Repr

def noResult : LedgerSweepResult :=
  { removed := 0
    scanned := 0
    kept_open := 0
    finalized := 0
    carried := 0
    complete := false
    skipped := false }

structure SweepReport where
  result : LedgerSweepResult
  /-- The names that are looked at, in order. -/
  examined : List String
  /-- The session directories that are renamed or removed. -/
  taken : List String
  candidates : List String
  /-- The candidates that the close examines, and those left for a later
  run. -/
  reached : List String
  carried : List String
  /-- What is stored afterwards. -/
  stored : Option SweepState

/-- A run that does nothing. -/
def idle (skipped : Bool) (stored : Option SweepState) : SweepReport :=
  { result := { noResult with skipped := skipped }
    examined := []
    taken := []
    candidates := []
    reached := []
    carried := []
    stored := stored }

/-- The cursor in front of a name that is not reached. -/
def cursorBefore (cursor : Option String) (names : List String)
    (name : String) : Option String :=
  match names.idxOf name with
  | 0 => cursor
  | i + 1 =>
      match names[i]? with
      | none => cursor
      | some before =>
          if cursor.getD "" < before then some before else cursor

/-- The state that a run begins with. -/
def SweepInput.stateHere (input : SweepInput) (stored : Option SweepState) :
    SweepState :=
  (if input.readable then stored else none).getD
    { next_after := 0, cursor := none }

def SweepInput.writeState (input : SweepInput) (stored : Option SweepState)
    (state : SweepState) : Option SweepState :=
  if input.writes then some state else stored

/-- The part of a run after the names are listed. -/
def sweepNames (input : SweepInput) (stored : Option SweepState)
    (names : List String) : SweepReport :=
  let state := input.stateHere stored
  let scan := input.scan state.cursor names
  let close := input.close scan
  let carried := input.carried scan
  let complete := scan.rest.isEmpty && carried.isEmpty
  let last :=
    match carried with
    | [] => scan.last
    | name :: _ => cursorBefore state.cursor names name
  { result :=
      { removed := scan.removed + close.removed
        scanned := scan.examined.length
        kept_open := scan.kept_open + close.kept_open
        finalized := close.removed
        carried := carried.length
        complete := complete
        skipped := false }
    examined := scan.examined
    taken := scan.taken ++ close.taken
    candidates := scan.candidates
    reached := input.reached scan
    carried := carried
    stored :=
      input.writeState stored
        (if complete then
          { next_after := input.nowHere + ledgerSweepIntervalMs
            cursor := none }
        else { next_after := state.next_after, cursor := last }) }

def sweepLedgerDirs (input : SweepInput) (stored : Option SweepState) :
    SweepReport :=
  if 0 < input.budgetHere then
    match input.root with
    | .fails => idle false stored
    | .missing => idle true stored
    | .found =>
        let state := input.stateHere stored
        if state.cursor = none ∧ input.nowHere < state.next_after then
          idle true stored
        else
          match input.listing with
          | none => idle false stored
          | some listing =>
              sweepNames input stored (SweepInput.sortNames listing)
  else idle true stored

/-- A run with what was stored before it. -/
structure SweepRun where
  stored : Option SweepState
  input : SweepInput
  report : SweepReport

/-- One run after the other. -/
def sweepRuns : Option SweepState -> List SweepInput -> List SweepRun
  | _, [] => []
  | stored, input :: inputs =>
      let report := sweepLedgerDirs input stored
      { stored := stored, input := input, report := report } ::
        sweepRuns report.stored inputs

end Hooks
end Minni
