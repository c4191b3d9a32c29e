import Minni.Foundation.TransitionSystem
import Minni.Lock.Owner

/-!
# The filesystem lock of a plan

`withThreadLock` as a step function.  Every call walks through the phases of
the loop, one filesystem operation at a step, and any number of calls of any
number of processes interleave.  The directory entry of the lock, the reap lock
beside it and the clock are shared.
-/

namespace Minni
namespace Lock

open Foundation

/-!
## The shared filesystem
-/

/-- What reading `owner.json` finds: `readOwnerStrict` tells the three apart. -/
inductive OwnerFile where
  | missing
  | unparseable
  | owner (value : ThreadLockOwner)
deriving DecidableEq

/-- `readOwner` of the acquire path: any failure is no observable owner. -/
def OwnerFile.readOwner : OwnerFile -> Option ThreadLockOwner
  | OwnerFile.owner value => some value
  | _ => none

/-- `serial` and `maker` tell apart directories that share an inode number; no
step of the protocol branches on them. -/
structure LockDir (Call : Type) where
  serial : Nat
  maker : Call
  ino : Nat
  mtime : Nat
  owner : OwnerFile
deriving DecidableEq

structure ReapLock (Call : Type) where
  taker : Call
  mtime : Nat
deriving DecidableEq

/-- The result of `stat` on the lock directory, with its age by the clock. -/
structure DirStat where
  ino : Nat
  ageMs : Nat
deriving DecidableEq

/-!
## Phases of a call

Each phase is named after the operation that the call does next.
-/

/-- Where a call goes on after it has dropped the reap lock. -/
inductive AfterReap where
  | retry
  | wait
  | threw
deriving DecidableEq

inductive Phase where
  | mkdirLock
  | writeOwner
  | fillOwner (serial : Nat)
  | removeOwn (retry : Bool)
  | statLock
  | readLockOwner (before : DirStat)
  | judgeOwner (before : DirStat) (observed : Option ThreadLockOwner)
  | takeReap (before : DirStat) (observed : Option ThreadLockOwner)
  | statReap
  | removeReap
  | restat (before : DirStat) (observed : Option ThreadLockOwner)
  | reread (observed : ThreadLockOwner)
  | renameLock
  | dropReap (next : AfterReap)
  | poll
  | statOwn
  | critical (acquired : Option Nat)
  | readRelease (acquired : Option Nat) (attempt : Nat)
  | statRelease (acquired : Nat)
  | removeRelease
  | returned
  | threw
deriving DecidableEq

/-- The critical section is the run of the locked function. -/
def Phase.inside : Phase -> Bool
  | Phase.critical _ => true
  | _ => false

/-- The phases in which a call relies on holding the reap lock. -/
def Phase.reaping : Phase -> Bool
  | Phase.restat _ _ => true
  | Phase.reread _ => true
  | Phase.renameLock => true
  | Phase.dropReap _ => true
  | _ => false

/-- How the environment answers the operation of a step. -/
inductive Answer where
  | ok
  /-- `mkdir` succeeds and the filesystem picks this inode number. -/
  | inode (ino : Nat)
  /-- The operation has no effect and fails. -/
  | fail
  /-- An exclusive create succeeds and the write of its content fails. -/
  | failLanded
deriving DecidableEq

structure LockState (Call Proc : Type) where
  clock : Nat
  procs : ProcessTable Proc
  lockDir : Option (LockDir Call)
  reap : Option (ReapLock Call)
  phase : Call -> Phase
  /-- The serial of the directory that the call has made and not given up. -/
  made : Call -> Option Nat
  nextSerial : Nat

inductive LockLabel (Call Proc : Type) where
  | tick (ms : Nat)
  | spawn (p : Proc)
  | crash (p : Proc)
  | call (c : Call) (answer : Answer)

def RELEASE_OWNER_READ_ATTEMPTS : Nat := 3

def reapLockStaleMs : Nat := 5000

namespace LockState

variable {Call Proc : Type}

def goto [DecidableEq Call] (s : LockState Call Proc) (c : Call) (ph : Phase) :
    LockState Call Proc :=
  { s with phase := Function.update s.phase c ph }

def putOwner (s : LockState Call Proc) (dir : LockDir Call) (owner : OwnerFile) :
    LockState Call Proc :=
  { s with lockDir := some { dir with owner := owner } }

/-- The call gives up its directory, whether or not the directory is gone. -/
def giveUp [DecidableEq Call] (s : LockState Call Proc) (c : Call) :
    LockState Call Proc :=
  { s with made := Function.update s.made c none }

def makeDir [DecidableEq Call] (s : LockState Call Proc) (c : Call)
    (ino : Nat) : LockState Call Proc :=
  { s with
    lockDir := some
      { serial := s.nextSerial
        maker := c
        ino := ino
        mtime := s.clock
        owner := OwnerFile.missing }
    made := Function.update s.made c (some s.nextSerial)
    nextSerial := s.nextSerial + 1 }

end LockState

/-!
## Staleness
-/

/-- The recovery decision of one pass through the loop. -/
def judgedStale (cfg : LockConfig Call Proc) (t : ProcessTable Proc)
    (before : DirStat) (observed : Option ThreadLockOwner) : Bool :=
  match observed with
  | some owner =>
      match ownerLooksLive owner t.isProcessAlive
          (t.getProcessStartMarker cfg) with
      | Liveness.live => false
      | Liveness.stale _ => true
  | none => decide (before.ageMs > cfg.staleMs)

def AfterReap.phase : AfterReap -> Phase
  | AfterReap.retry => Phase.mkdirLock
  | AfterReap.wait => Phase.poll
  | AfterReap.threw => Phase.threw

/-!
## Acquisition

`mkdir`, then the exclusive write of `owner.json`: creating the file and filling
it are two steps.  The file is created through its path, in whatever directory
then has the name, and filled through its descriptor.
-/

section Steps

variable {Call Proc : Type} [DecidableEq Call]

def stepMkdirLock (s : LockState Call Proc) (c : Call) (ans : Answer) :
    LockState Call Proc :=
  match ans, s.lockDir with
  | Answer.inode ino, none => (s.makeDir c ino).goto c Phase.writeOwner
  | Answer.ok, none => (s.makeDir c s.nextSerial).goto c Phase.writeOwner
  | Answer.fail, _ => s.goto c Phase.threw
  | Answer.failLanded, _ => s.goto c Phase.threw
  | _, some _ => s.goto c Phase.statLock

def stepWriteOwner (s : LockState Call Proc) (c : Call) (ans : Answer) :
    LockState Call Proc :=
  match ans, s.lockDir with
  | Answer.fail, _ => s.goto c (Phase.removeOwn false)
  | _, none => s.goto c (Phase.removeOwn false)
  | _, some dir =>
      match dir.owner with
      | OwnerFile.missing =>
          (s.putOwner { dir with mtime := s.clock } OwnerFile.unparseable).goto c
            (Phase.fillOwner dir.serial)
      | _ => s.goto c (Phase.removeOwn true)

def stepFillOwner (cfg : LockConfig Call Proc) (s : LockState Call Proc)
    (c : Call) (serial : Nat) (ans : Answer) : LockState Call Proc :=
  match ans, s.lockDir with
  | Answer.fail, _ => s.goto c (Phase.removeOwn false)
  | Answer.failLanded, _ => s.goto c (Phase.removeOwn false)
  | _, none => s.goto c Phase.statOwn
  | _, some dir =>
      if dir.serial = serial then
        (s.putOwner dir (OwnerFile.owner (ownerOf cfg c))).goto c Phase.statOwn
      else
        s.goto c Phase.statOwn

def afterRemoveOwn (retry : Bool) : Phase :=
  if retry then Phase.statLock else Phase.threw

/-- The cleanup of a failed owner write removes the path, whatever it names.
An `EEXIST` of the write is caught by the handler of `mkdir` and retried. -/
def stepRemoveOwn (s : LockState Call Proc) (c : Call) (retry : Bool)
    (ans : Answer) : LockState Call Proc :=
  match ans with
  | Answer.fail => (s.giveUp c).goto c (afterRemoveOwn retry)
  | _ => ({ s with lockDir := none }.giveUp c).goto c (afterRemoveOwn retry)

/-!
## Observation and recovery
-/

def stepStatLock (s : LockState Call Proc) (c : Call) (ans : Answer) :
    LockState Call Proc :=
  match ans, s.lockDir with
  | Answer.fail, _ => s.goto c Phase.threw
  | _, none => s.goto c Phase.mkdirLock
  | _, some dir =>
      s.goto c (Phase.readLockOwner
        { ino := dir.ino
          ageMs := s.clock - dir.mtime })

def stepReadLockOwner (s : LockState Call Proc) (c : Call) (before : DirStat)
    (ans : Answer) : LockState Call Proc :=
  match ans, s.lockDir with
  | Answer.fail, _ => s.goto c (Phase.judgeOwner before none)
  | _, none => s.goto c (Phase.judgeOwner before none)
  | _, some dir => s.goto c (Phase.judgeOwner before dir.owner.readOwner)

def stepJudgeOwner (cfg : LockConfig Call Proc) (s : LockState Call Proc)
    (c : Call) (before : DirStat) (observed : Option ThreadLockOwner) :
    LockState Call Proc :=
  if judgedStale cfg s.procs before observed then
    s.goto c (Phase.takeReap before observed)
  else
    s.goto c Phase.poll

def stepTakeReap (s : LockState Call Proc) (c : Call) (before : DirStat)
    (observed : Option ThreadLockOwner) (ans : Answer) : LockState Call Proc :=
  match ans, s.reap with
  | Answer.fail, _ => s.goto c Phase.threw
  | _, some _ => s.goto c Phase.statReap
  | Answer.failLanded, none =>
      { s with reap := some { taker := c, mtime := s.clock } }.goto c Phase.threw
  | _, none =>
      { s with reap := some { taker := c, mtime := s.clock } }.goto c
        (Phase.restat before observed)

def stepStatReap (s : LockState Call Proc) (c : Call) (ans : Answer) :
    LockState Call Proc :=
  match ans, s.reap with
  | Answer.fail, _ => s.goto c Phase.poll
  | _, none => s.goto c Phase.poll
  | _, some reap =>
      if s.clock - reap.mtime > reapLockStaleMs then
        s.goto c Phase.removeReap
      else
        s.goto c Phase.poll

def stepRemoveReap (s : LockState Call Proc) (c : Call) (ans : Answer) :
    LockState Call Proc :=
  match ans with
  | Answer.fail => s.goto c Phase.poll
  | _ => { s with reap := none }.goto c Phase.poll

/-- The identity check: equal inode numbers, and where an owner was observed a
second read of it. -/
def stepRestat (s : LockState Call Proc) (c : Call) (before : DirStat)
    (observed : Option ThreadLockOwner) (ans : Answer) : LockState Call Proc :=
  match ans, s.lockDir with
  | Answer.fail, _ => s.goto c (Phase.dropReap AfterReap.threw)
  | _, none => s.goto c (Phase.dropReap AfterReap.wait)
  | _, some dir =>
      if dir.ino = before.ino then
        match observed with
        | none => s.goto c Phase.renameLock
        | some owner => s.goto c (Phase.reread owner)
      else
        s.goto c (Phase.dropReap AfterReap.wait)

def sameOwner (current observed : ThreadLockOwner) : Bool :=
  current.operationId = observed.operationId && current.pid = observed.pid

def stepReread (s : LockState Call Proc) (c : Call)
    (observed : ThreadLockOwner) (ans : Answer) : LockState Call Proc :=
  match ans, s.lockDir.bind (fun dir => dir.owner.readOwner) with
  | Answer.fail, _ => s.goto c (Phase.dropReap AfterReap.wait)
  | _, none => s.goto c (Phase.dropReap AfterReap.wait)
  | _, some current =>
      if sameOwner current observed then
        s.goto c Phase.renameLock
      else
        s.goto c (Phase.dropReap AfterReap.wait)

def stepRenameLock (s : LockState Call Proc) (c : Call) (ans : Answer) :
    LockState Call Proc :=
  match ans with
  | Answer.fail => s.goto c (Phase.dropReap AfterReap.threw)
  | _ => { s with lockDir := none }.goto c (Phase.dropReap AfterReap.retry)

def stepDropReap (s : LockState Call Proc) (c : Call) (next : AfterReap)
    (ans : Answer) : LockState Call Proc :=
  match ans with
  | Answer.fail => s.goto c next.phase
  | _ => { s with reap := none }.goto c next.phase

/-- The deadline has passed when the environment answers with a failure. -/
def stepPoll (s : LockState Call Proc) (c : Call) (ans : Answer) :
    LockState Call Proc :=
  match ans with
  | Answer.fail => s.goto c Phase.threw
  | _ => s.goto c Phase.mkdirLock

/-!
## The critical section and the release
-/

def stepStatOwn (s : LockState Call Proc) (c : Call) (ans : Answer) :
    LockState Call Proc :=
  match ans with
  | Answer.fail => s.goto c (Phase.critical none)
  | _ => s.goto c (Phase.critical (s.lockDir.map fun dir => dir.ino))

def stepReadRelease (cfg : LockConfig Call Proc) (s : LockState Call Proc)
    (c : Call) (acquired : Option Nat) (attempt : Nat) (ans : Answer) :
    LockState Call Proc :=
  match ans, s.lockDir.bind (fun dir => dir.owner.readOwner) with
  | Answer.fail, _ =>
      if attempt < RELEASE_OWNER_READ_ATTEMPTS then
        s.goto c (Phase.readRelease acquired (attempt + 1))
      else
        (s.giveUp c).goto c Phase.threw
  | _, none => (s.giveUp c).goto c Phase.returned
  | _, some owner =>
      if owner.operationId = cfg.operationId c then
        match acquired with
        | some ino => s.goto c (Phase.statRelease ino)
        | none => s.goto c Phase.removeRelease
      else
        (s.giveUp c).goto c Phase.returned

def stepStatRelease (s : LockState Call Proc) (c : Call) (acquired : Nat)
    (ans : Answer) : LockState Call Proc :=
  match ans, s.lockDir with
  | Answer.fail, _ => (s.giveUp c).goto c Phase.threw
  | _, none => (s.giveUp c).goto c Phase.returned
  | _, some dir =>
      if dir.ino = acquired then
        s.goto c Phase.removeRelease
      else
        (s.giveUp c).goto c Phase.returned

def stepRemoveRelease (s : LockState Call Proc) (c : Call) (ans : Answer) :
    LockState Call Proc :=
  match ans with
  | Answer.fail => (s.giveUp c).goto c Phase.threw
  | _ => ({ s with lockDir := none }.giveUp c).goto c Phase.returned

/-!
## The system

A call takes steps while its process runs.  A process that stalls is one whose
calls are not scheduled.
-/

def callStep (cfg : LockConfig Call Proc) (s : LockState Call Proc) (c : Call)
    (ans : Answer) : Option (LockState Call Proc) :=
  match s.phase c with
  | Phase.mkdirLock => some (stepMkdirLock s c ans)
  | Phase.writeOwner => some (stepWriteOwner s c ans)
  | Phase.fillOwner serial => some (stepFillOwner cfg s c serial ans)
  | Phase.removeOwn retry => some (stepRemoveOwn s c retry ans)
  | Phase.statLock => some (stepStatLock s c ans)
  | Phase.readLockOwner before => some (stepReadLockOwner s c before ans)
  | Phase.judgeOwner before observed =>
      some (stepJudgeOwner cfg s c before observed)
  | Phase.takeReap before observed =>
      some (stepTakeReap s c before observed ans)
  | Phase.statReap => some (stepStatReap s c ans)
  | Phase.removeReap => some (stepRemoveReap s c ans)
  | Phase.restat before observed => some (stepRestat s c before observed ans)
  | Phase.reread observed => some (stepReread s c observed ans)
  | Phase.renameLock => some (stepRenameLock s c ans)
  | Phase.dropReap next => some (stepDropReap s c next ans)
  | Phase.poll => some (stepPoll s c ans)
  | Phase.statOwn => some (stepStatOwn s c ans)
  | Phase.critical acquired => some (s.goto c (Phase.readRelease acquired 1))
  | Phase.readRelease acquired attempt =>
      some (stepReadRelease cfg s c acquired attempt ans)
  | Phase.statRelease acquired => some (stepStatRelease s c acquired ans)
  | Phase.removeRelease => some (stepRemoveRelease s c ans)
  | Phase.returned => none
  | Phase.threw => none

def lockNext [DecidableEq Proc] (cfg : LockConfig Call Proc)
    (s : LockState Call Proc) : LockLabel Call Proc -> Option (LockState Call Proc)
  | LockLabel.tick ms => some { s with clock := s.clock + ms }
  | LockLabel.spawn p =>
      (s.procs.spawn cfg p).map fun procs => { s with procs := procs }
  | LockLabel.crash p =>
      (s.procs.crash cfg p).map fun procs => { s with procs := procs }
  | LockLabel.call c ans =>
      if s.procs.Alive cfg c then callStep cfg s c ans else none

end Steps

def initialLockState : LockState Call Proc where
  clock := 0
  procs := ProcessTable.empty
  lockDir := none
  reap := none
  phase := fun _ => Phase.mkdirLock
  made := fun _ => none
  nextSerial := 0

def lockSystem [DecidableEq Call] [DecidableEq Proc]
    (cfg : LockConfig Call Proc) :
    TransitionSystem (LockState Call Proc) (LockLabel Call Proc) :=
  TransitionSystem.OfNext (fun s => s = initialLockState) (lockNext cfg)

end Lock
end Minni
