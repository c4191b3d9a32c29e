import Minni.Foundation.TransitionSystem
import Minni.Lock.Owner

/-!
# The exclusive replan reservation

`withExclusiveReplanReservation` as a step function.  A reservation is one file
whose name is the claim to it: published whole by `link` where the filesystem
has hard links, else created empty and filled.  Recovery of a dead or damaged
reservation reads the file, judges it and removes whatever then has the name.
-/

namespace Minni
namespace Lock

open Foundation

/-!
## The shared file
-/

/-- The content is what `parseOwner` makes of the file: `none` is an empty or
damaged file.  `serial` and `writer` tell apart files of one name. -/
structure ReservationFile (Call : Type) where
  serial : Nat
  writer : Call
  mtime : Nat
  content : Option ThreadLockOwner
deriving DecidableEq

inductive ReservePhase where
  | publish
  | fallbackCreate
  | fallbackFill (serial : Nat)
  | fallbackRemove
  | readFile
  | judge (serial : Nat) (observed : ThreadLockOwner)
  | statAge (serial : Nat)
  | removeStale (serial : Nat) (observed : Option ThreadLockOwner)
  | poll
  | inside
  | readRelease
  | removeRelease
  | returned
  | threw
deriving DecidableEq

/-- How the environment answers the operation of a step. -/
inductive ReserveAnswer where
  | ok
  /-- The filesystem rejects hard links. -/
  | unsupported
  | fail
deriving DecidableEq

structure ReserveState (Call Proc : Type) where
  clock : Nat
  procs : ProcessTable Proc
  file : Option (ReservationFile Call)
  phase : Call -> ReservePhase
  /-- The serial of the file that the call has published and not given up. -/
  made : Call -> Option Nat
  nextSerial : Nat

inductive ReserveLabel (Call Proc : Type) where
  | tick (ms : Nat)
  | spawn (p : Proc)
  | crash (p : Proc)
  | call (c : Call) (answer : ReserveAnswer)

namespace ReserveState

variable {Call Proc : Type}

def goto [DecidableEq Call] (s : ReserveState Call Proc) (c : Call)
    (ph : ReservePhase) : ReserveState Call Proc :=
  { s with phase := Function.update s.phase c ph }

def giveUp [DecidableEq Call] (s : ReserveState Call Proc) (c : Call) :
    ReserveState Call Proc :=
  { s with made := Function.update s.made c none }

def create [DecidableEq Call] (s : ReserveState Call Proc) (c : Call)
    (content : Option ThreadLockOwner) : ReserveState Call Proc :=
  { s with
    file := some
      { serial := s.nextSerial
        writer := c
        mtime := s.clock
        content := content }
    made := Function.update s.made c (some s.nextSerial)
    nextSerial := s.nextSerial + 1 }

def fill (s : ReserveState Call Proc) (file : ReservationFile Call)
    (owner : ThreadLockOwner) : ReserveState Call Proc :=
  { s with file := some { file with mtime := s.clock, content := some owner } }

end ReserveState

/-!
## Observers
-/

def reservationOlderThanStale (cfg : LockConfig Call Proc)
    (s : ReserveState Call Proc) : Bool :=
  match s.file with
  | none => false
  | some file => decide (s.clock - file.mtime > cfg.staleMs)

/-- What a drain or an acceptor sees: an empty or damaged file counts as live
while it is young. -/
def exclusiveReplanReservationIsLive (cfg : LockConfig Call Proc)
    (s : ReserveState Call Proc) : Bool :=
  match s.file with
  | none => false
  | some file =>
      match file.content with
      | none => !reservationOlderThanStale cfg s
      | some owner =>
          ownerLooksLive owner s.procs.isProcessAlive
            (s.procs.getProcessStartMarker cfg) = Liveness.live

/-!
## Publication
-/

section Steps

variable {Call Proc : Type} [DecidableEq Call]

def stepPublish (cfg : LockConfig Call Proc) (s : ReserveState Call Proc)
    (c : Call) (ans : ReserveAnswer) : ReserveState Call Proc :=
  match ans, s.file with
  | ReserveAnswer.fail, _ => s.goto c ReservePhase.threw
  | ReserveAnswer.unsupported, _ => s.goto c ReservePhase.fallbackCreate
  | ReserveAnswer.ok, some _ => s.goto c ReservePhase.readFile
  | ReserveAnswer.ok, none =>
      (s.create c (some (ownerOf cfg c))).goto c ReservePhase.inside

def stepFallbackCreate (s : ReserveState Call Proc) (c : Call)
    (ans : ReserveAnswer) : ReserveState Call Proc :=
  match ans, s.file with
  | ReserveAnswer.fail, _ => s.goto c ReservePhase.fallbackRemove
  | _, some _ => s.goto c ReservePhase.readFile
  | _, none =>
      (s.create c none).goto c (ReservePhase.fallbackFill s.nextSerial)

def stepFallbackFill (cfg : LockConfig Call Proc) (s : ReserveState Call Proc)
    (c : Call) (serial : Nat) (ans : ReserveAnswer) :
    ReserveState Call Proc :=
  match ans, s.file with
  | ReserveAnswer.fail, _ => s.goto c ReservePhase.fallbackRemove
  | _, none => s.goto c ReservePhase.inside
  | _, some file =>
      if file.serial = serial then
        (s.fill file (ownerOf cfg c)).goto c ReservePhase.inside
      else
        s.goto c ReservePhase.inside

/-- The cleanup of a failed fallback write removes the path, whatever it
names. -/
def stepFallbackRemove (s : ReserveState Call Proc) (c : Call)
    (ans : ReserveAnswer) : ReserveState Call Proc :=
  match ans with
  | ReserveAnswer.fail => (s.giveUp c).goto c ReservePhase.threw
  | _ => ({ s with file := none }.giveUp c).goto c ReservePhase.threw

/-!
## Observation and recovery
-/

def stepReadFile (s : ReserveState Call Proc) (c : Call)
    (ans : ReserveAnswer) : ReserveState Call Proc :=
  match ans, s.file with
  | ReserveAnswer.fail, _ => s.goto c ReservePhase.threw
  | _, none => s.goto c ReservePhase.publish
  | _, some file =>
      match file.content with
      | none => s.goto c (ReservePhase.statAge file.serial)
      | some owner => s.goto c (ReservePhase.judge file.serial owner)

def stepJudge (cfg : LockConfig Call Proc) (s : ReserveState Call Proc)
    (c : Call) (serial : Nat) (observed : ThreadLockOwner) :
    ReserveState Call Proc :=
  match ownerLooksLive observed s.procs.isProcessAlive
      (s.procs.getProcessStartMarker cfg) with
  | Liveness.live => s.goto c ReservePhase.poll
  | Liveness.stale _ =>
      s.goto c (ReservePhase.removeStale serial (some observed))

def stepStatAge (cfg : LockConfig Call Proc) (s : ReserveState Call Proc)
    (c : Call) (serial : Nat) (ans : ReserveAnswer) :
    ReserveState Call Proc :=
  match ans with
  | ReserveAnswer.fail => s.goto c ReservePhase.threw
  | _ =>
      if reservationOlderThanStale cfg s then
        s.goto c (ReservePhase.removeStale serial none)
      else
        s.goto c ReservePhase.poll

def stepRemoveStale (s : ReserveState Call Proc) (c : Call)
    (ans : ReserveAnswer) : ReserveState Call Proc :=
  match ans with
  | ReserveAnswer.fail => s.goto c ReservePhase.publish
  | _ => { s with file := none }.goto c ReservePhase.publish

/-- The deadline has passed when the environment answers with a failure. -/
def stepReservePoll (s : ReserveState Call Proc) (c : Call)
    (ans : ReserveAnswer) : ReserveState Call Proc :=
  match ans with
  | ReserveAnswer.fail => s.goto c ReservePhase.threw
  | _ => s.goto c ReservePhase.publish

/-!
## Release
-/

def stepReserveReadRelease (cfg : LockConfig Call Proc)
    (s : ReserveState Call Proc) (c : Call) (ans : ReserveAnswer) :
    ReserveState Call Proc :=
  match ans, s.file.bind (fun file => file.content) with
  | ReserveAnswer.fail, _ => (s.giveUp c).goto c ReservePhase.returned
  | _, none => (s.giveUp c).goto c ReservePhase.returned
  | _, some owner =>
      if owner.operationId = cfg.operationId c then
        s.goto c ReservePhase.removeRelease
      else
        (s.giveUp c).goto c ReservePhase.returned

def stepReserveRemoveRelease (s : ReserveState Call Proc) (c : Call)
    (ans : ReserveAnswer) : ReserveState Call Proc :=
  match ans with
  | ReserveAnswer.fail => (s.giveUp c).goto c ReservePhase.returned
  | _ => ({ s with file := none }.giveUp c).goto c ReservePhase.returned

/-!
## The system
-/

def reserveCallStep (cfg : LockConfig Call Proc) (s : ReserveState Call Proc)
    (c : Call) (ans : ReserveAnswer) : Option (ReserveState Call Proc) :=
  match s.phase c with
  | ReservePhase.publish => some (stepPublish cfg s c ans)
  | ReservePhase.fallbackCreate => some (stepFallbackCreate s c ans)
  | ReservePhase.fallbackFill serial =>
      some (stepFallbackFill cfg s c serial ans)
  | ReservePhase.fallbackRemove => some (stepFallbackRemove s c ans)
  | ReservePhase.readFile => some (stepReadFile s c ans)
  | ReservePhase.judge serial observed =>
      some (stepJudge cfg s c serial observed)
  | ReservePhase.statAge serial => some (stepStatAge cfg s c serial ans)
  | ReservePhase.removeStale _ _ => some (stepRemoveStale s c ans)
  | ReservePhase.poll => some (stepReservePoll s c ans)
  | ReservePhase.inside => some (s.goto c ReservePhase.readRelease)
  | ReservePhase.readRelease => some (stepReserveReadRelease cfg s c ans)
  | ReservePhase.removeRelease => some (stepReserveRemoveRelease s c ans)
  | ReservePhase.returned => none
  | ReservePhase.threw => none

def reserveNext [DecidableEq Proc] (cfg : LockConfig Call Proc)
    (s : ReserveState Call Proc) :
    ReserveLabel Call Proc -> Option (ReserveState Call Proc)
  | ReserveLabel.tick ms => some { s with clock := s.clock + ms }
  | ReserveLabel.spawn p =>
      (s.procs.spawn cfg p).map fun procs => { s with procs := procs }
  | ReserveLabel.crash p =>
      (s.procs.crash cfg p).map fun procs => { s with procs := procs }
  | ReserveLabel.call c ans =>
      if s.procs.Alive cfg c then reserveCallStep cfg s c ans else none

end Steps

def initialReserveState : ReserveState Call Proc where
  clock := 0
  procs := ProcessTable.empty
  file := none
  phase := fun _ => ReservePhase.publish
  made := fun _ => none
  nextSerial := 0

def reserveSystem [DecidableEq Call] [DecidableEq Proc]
    (cfg : LockConfig Call Proc) :
    TransitionSystem (ReserveState Call Proc) (ReserveLabel Call Proc) :=
  TransitionSystem.OfNext (fun s => s = initialReserveState) (reserveNext cfg)

end Lock
end Minni
