import Mathlib.Logic.Function.Basic

/-!
# Lock owners and process liveness

A lock directory and a replan reservation both name their holder by an owner
record: a pid, the nonce of the operation and, where the platform has one, the
start marker of the process.  This module has the record, the judgement
`ownerLooksLive`, and the table of processes against which it is made.
-/

namespace Minni
namespace Lock

/-!
## Owner records

`parseOwner` accepts a record only with a positive pid and a nonempty operation
id, so a parsed owner carries both facts.
-/

structure ThreadLockOwner where
  pid : Nat
  operationId : String
  acquiredAt : String
  processStartMarker : Option String
  pid_pos : 0 < pid
  operationId_ne : operationId ≠ ""
deriving DecidableEq

inductive ThreadLockRecoveryReason where
  | staleDead
  | stalePidReuse
deriving DecidableEq, Repr

inductive Liveness where
  | live
  | stale (reasonIfStale : ThreadLockRecoveryReason)
deriving DecidableEq, Repr

def ownerLooksLive (owner : ThreadLockOwner)
    (isProcessAlive : Nat -> Bool)
    (getProcessStartMarker : Nat -> Option String) : Liveness :=
  if isProcessAlive owner.pid = false then
    Liveness.stale ThreadLockRecoveryReason.staleDead
  else
    match owner.processStartMarker with
    | none => Liveness.live
    | some ownerMarker =>
        if ownerMarker.length > 0 then
          match getProcessStartMarker owner.pid with
          | none => Liveness.live
          | some liveMarker =>
              if liveMarker.length > 0 ∧ liveMarker ≠ ownerMarker then
                Liveness.stale ThreadLockRecoveryReason.stalePidReuse
              else
                Liveness.live
        else
          Liveness.live

/-!
## Calls and processes

A process is one incarnation of a pid: a pid that comes back after a crash
belongs to another process.  Every call runs in one process and has a nonce of
its own, since each caller draws its operation id from `randomUUID`.
-/

structure LockConfig (Call Proc : Type) where
  proc : Call -> Proc
  pid : Proc -> Nat
  pid_pos : forall p, 0 < pid p
  startMarker : Proc -> Option String
  operationId : Call -> String
  operationId_ne : forall c, operationId c ≠ ""
  operationId_injective : Function.Injective operationId
  acquiredAt : Call -> String
  staleMs : Nat

def ownerOf (cfg : LockConfig Call Proc) (c : Call) : ThreadLockOwner where
  pid := cfg.pid (cfg.proc c)
  operationId := cfg.operationId c
  acquiredAt := cfg.acquiredAt c
  processStartMarker := cfg.startMarker (cfg.proc c)
  pid_pos := cfg.pid_pos (cfg.proc c)
  operationId_ne := cfg.operationId_ne c

/-!
## The process table

At most one process runs under a pid, and a process runs at most once.
-/

structure ProcessTable (Proc : Type) where
  running : Nat -> Option Proc
  started : Proc -> Bool

namespace ProcessTable

variable {Call Proc : Type}

def empty : ProcessTable Proc where
  running := fun _ => none
  started := fun _ => false

def isProcessAlive (t : ProcessTable Proc) (pid : Nat) : Bool :=
  (t.running pid).isSome

def getProcessStartMarker (cfg : LockConfig Call Proc) (t : ProcessTable Proc)
    (pid : Nat) : Option String :=
  (t.running pid).bind cfg.startMarker

def AliveProc (cfg : LockConfig Call Proc) (t : ProcessTable Proc)
    (p : Proc) : Prop :=
  t.running (cfg.pid p) = some p

def Alive (cfg : LockConfig Call Proc) (t : ProcessTable Proc)
    (c : Call) : Prop :=
  AliveProc cfg t (cfg.proc c)

instance [DecidableEq Proc] (cfg : LockConfig Call Proc) (t : ProcessTable Proc) (c : Call) :
    Decidable (Alive cfg t c) :=
  inferInstanceAs (Decidable (_ = _))

/-- The process starts, under a pid that is free. -/
def spawn [DecidableEq Proc] (cfg : LockConfig Call Proc)
    (t : ProcessTable Proc) (p : Proc) :
    Option (ProcessTable Proc) :=
  if t.started p = false ∧ t.running (cfg.pid p) = none then
    some
      { running := Function.update t.running (cfg.pid p) (some p)
        started := Function.update t.started p true }
  else
    none

/-- The process ends, and its pid is free again. -/
def crash [DecidableEq Proc] (cfg : LockConfig Call Proc)
    (t : ProcessTable Proc) (p : Proc) :
    Option (ProcessTable Proc) :=
  if t.running (cfg.pid p) = some p then
    some { t with running := Function.update t.running (cfg.pid p) none }
  else
    none

/-- Whoever runs has been started. -/
def Ok (cfg : LockConfig Call Proc) (t : ProcessTable Proc) : Prop :=
  forall p, AliveProc cfg t p -> t.started p = true

theorem ok_empty (cfg : LockConfig Call Proc) :
    Ok cfg (empty : ProcessTable Proc) := by
  intro p halive
  simp [AliveProc, empty] at halive

/-!
## Succession of process tables

`Later` says what any number of starts and crashes can do: a started process
stays started, and nothing that ended runs again.
-/

structure Later (cfg : LockConfig Call Proc) (t t' : ProcessTable Proc) :
    Prop where
  started : forall p, t.started p = true -> t'.started p = true
  alive : forall p, AliveProc cfg t' p ->
    AliveProc cfg t p ∨ t.started p = false

theorem later_refl (cfg : LockConfig Call Proc) (t : ProcessTable Proc) :
    Later cfg t t := by
  constructor
  · intro p h
    exact h
  · intro p h
    exact Or.inl h

theorem later_spawn [DecidableEq Proc]
    {cfg : LockConfig Call Proc} {t t' : ProcessTable Proc} {p : Proc}
    (h : spawn cfg t p = some t') :
    Later cfg t t' := by
  unfold spawn at h
  split at h
  · rename_i hfree
    cases h
    constructor
    · intro q hq
      by_cases hqp : q = p
      · simp [hqp]
      · simp [Function.update_of_ne hqp, hq]
    · intro q hq
      by_cases hpid : cfg.pid q = cfg.pid p
      · have hqp : p = q := by
          simpa [AliveProc, hpid] using hq
        exact Or.inr (hqp ▸ hfree.left)
      · apply Or.inl
        simpa [AliveProc, Function.update_of_ne hpid] using hq
  · cases h

theorem later_crash [DecidableEq Proc]
    {cfg : LockConfig Call Proc} {t t' : ProcessTable Proc} {p : Proc}
    (h : crash cfg t p = some t') :
    Later cfg t t' := by
  unfold crash at h
  split at h
  · cases h
    constructor
    · intro q hq
      exact hq
    · intro q hq
      by_cases hpid : cfg.pid q = cfg.pid p
      · simp [AliveProc, hpid] at hq
      · apply Or.inl
        simpa [AliveProc, Function.update_of_ne hpid] using hq
  · cases h

theorem ok_spawn [DecidableEq Proc]
    {cfg : LockConfig Call Proc} {t t' : ProcessTable Proc} {p : Proc}
    (hok : Ok cfg t) (h : spawn cfg t p = some t') :
    Ok cfg t' := by
  have hlater := later_spawn h
  intro q hq
  rcases hlater.alive q hq with hold | hnew
  · exact hlater.started q (hok q hold)
  · unfold spawn at h
    split at h
    · cases h
      by_cases hqp : q = p
      · simp [hqp]
      · have hne : cfg.pid q ≠ cfg.pid p := by
          intro hpid
          apply hqp
          have hrun : p = q := by
            simpa [AliveProc, hpid] using hq
          exact hrun.symm
        have hold : AliveProc cfg t q := by
          simpa [AliveProc, Function.update_of_ne hne] using hq
        simp [Function.update_of_ne hqp, hok q hold]
    · cases h

theorem ok_crash [DecidableEq Proc]
    {cfg : LockConfig Call Proc} {t t' : ProcessTable Proc} {p : Proc}
    (hok : Ok cfg t) (h : crash cfg t p = some t') :
    Ok cfg t' := by
  have hlater := later_crash h
  intro q hq
  rcases hlater.alive q hq with hold | hnew
  · exact hlater.started q (hok q hold)
  · unfold crash at h
    split at h
    · cases h
      by_cases hpid : cfg.pid q = cfg.pid p
      · simp [AliveProc, hpid] at hq
      · have hold : AliveProc cfg t q := by
          simpa [AliveProc, Function.update_of_ne hpid] using hq
        exact hok q hold
    · cases h

/-!
## Accuracy of the judgement

An owner that looks stale belongs to a call whose process does not run.  The
converse needs more: a pid that was reused by a process without a start marker
keeps a dead owner looking live.
-/

theorem ownerLooksLive_of_alive
    {cfg : LockConfig Call Proc} {t : ProcessTable Proc} {c : Call}
    (h : Alive cfg t c) :
    ownerLooksLive (ownerOf cfg c) t.isProcessAlive
      (t.getProcessStartMarker cfg) = Liveness.live := by
  have hrun : t.running (cfg.pid (cfg.proc c)) = some (cfg.proc c) := h
  unfold ownerLooksLive
  cases hmarker : cfg.startMarker (cfg.proc c) with
  | none =>
      simp [ownerOf, isProcessAlive, hrun, hmarker]
  | some marker =>
      simp [ownerOf, isProcessAlive, getProcessStartMarker, hrun, hmarker]

theorem not_alive_of_stale
    {cfg : LockConfig Call Proc} {t : ProcessTable Proc} {c : Call}
    {reason : ThreadLockRecoveryReason}
    (h : ownerLooksLive (ownerOf cfg c) t.isProcessAlive
      (t.getProcessStartMarker cfg) = Liveness.stale reason) :
    ¬ Alive cfg t c := by
  intro halive
  rw [ownerLooksLive_of_alive halive] at h
  cases h

end ProcessTable

end Lock
end Minni
