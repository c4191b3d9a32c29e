import Minni.Lock.Reservation

/-!
# Exclusiveness of the replan reservation

The recovery of a reservation removes a name, not the file that it judged.  As
long as each such removal finds the file that was judged, and the cleanup of a
failed publication finds no other call's file, at most one live call is inside
and every observer sees the reservation as live.
-/

namespace Minni
namespace Lock

open Foundation

section Promises

variable {Call Proc : Type}

/-!
## What the reservation promises
-/

def InsideReservation (cfg : LockConfig Call Proc)
    (s : ReserveState Call Proc) (c : Call) : Prop :=
  s.procs.Alive cfg c ∧ s.phase c = ReservePhase.inside

def ReservationExclusive (cfg : LockConfig Call Proc)
    (s : ReserveState Call Proc) : Prop :=
  forall c d, InsideReservation cfg s c -> InsideReservation cfg s d -> c = d

def ReservationVisible (cfg : LockConfig Call Proc)
    (s : ReserveState Call Proc) : Prop :=
  forall c, InsideReservation cfg s c ->
    exclusiveReplanReservationIsLive cfg s = true

/-!
## The discipline
-/

/-- No live call is between publishing the file and giving it up. -/
def FileNotHeld (cfg : LockConfig Call Proc) (s : ReserveState Call Proc)
    (serial : Nat) : Prop :=
  forall c, s.procs.Alive cfg c -> s.made c ≠ some serial

/-- The removal that follows a judgement on an owner finds the file that was
judged, or one that no live call holds. -/
def RemovesJudged (cfg : LockConfig Call Proc) (s : ReserveState Call Proc)
    (c : Call) : Prop :=
  forall serial owner file,
    s.phase c = ReservePhase.removeStale serial (some owner) ->
    s.file = some file ->
      file.serial = serial ∨ FileNotHeld cfg s file.serial

/-- The removal that follows a judgement on the age alone finds a file that no
live call holds. -/
def AgeRemovesAbandoned (cfg : LockConfig Call Proc)
    (s : ReserveState Call Proc) (c : Call) : Prop :=
  forall serial file,
    s.phase c = ReservePhase.removeStale serial none ->
    s.file = some file -> FileNotHeld cfg s file.serial

/-- The cleanup of a failed publication finds its own file, or one that no live
call holds. -/
def CleanupRemovesOwn (cfg : LockConfig Call Proc)
    (s : ReserveState Call Proc) (c : Call) : Prop :=
  forall file, s.phase c = ReservePhase.fallbackRemove ->
    s.file = some file ->
      s.made c = some file.serial ∨ FileNotHeld cfg s file.serial

def ReserveDisciplined (cfg : LockConfig Call Proc)
    (s : ReserveState Call Proc) : ReserveLabel Call Proc -> Prop
  | ReserveLabel.call c _ =>
      RemovesJudged cfg s c ∧ AgeRemovesAbandoned cfg s c ∧
        CleanupRemovesOwn cfg s c
  | _ => True

/-!
## The invariant
-/

def HoldsFile (s : ReserveState Call Proc) (c : Call)
    (content : Option ThreadLockOwner) : Prop :=
  exists file, s.file = some file ∧ file.writer = c ∧
    s.made c = some file.serial ∧ file.content = content

/-- The owner was read from a file that only its writer can hold. -/
def ReadFrom (cfg : LockConfig Call Proc) (s : ReserveState Call Proc)
    (serial : Nat) (owner : ThreadLockOwner) : Prop :=
  serial < s.nextSerial ∧
    exists d, owner = ownerOf cfg d ∧
      forall e, s.procs.Alive cfg e -> s.made e = some serial -> e = d

def ReserveCallAt (cfg : LockConfig Call Proc) (s : ReserveState Call Proc)
    (c : Call) : ReservePhase -> Prop
  | ReservePhase.fallbackFill serial =>
      HoldsFile s c none ∧ s.made c = some serial
  | ReservePhase.fallbackRemove =>
      s.made c = none ∨ exists content, HoldsFile s c content
  | ReservePhase.judge serial owner =>
      s.made c = none ∧ ReadFrom cfg s serial owner
  | ReservePhase.removeStale serial observed =>
      s.made c = none ∧
        forall owner, observed = some owner ->
          serial < s.nextSerial ∧ FileNotHeld cfg s serial
  | ReservePhase.inside => HoldsFile s c (some (ownerOf cfg c))
  | ReservePhase.readRelease => HoldsFile s c (some (ownerOf cfg c))
  | ReservePhase.removeRelease => HoldsFile s c (some (ownerOf cfg c))
  | _ => s.made c = none

structure FileOk (cfg : LockConfig Call Proc) (s : ReserveState Call Proc)
    (file : ReservationFile Call) : Prop where
  serial : file.serial < s.nextSerial
  content : forall owner, file.content = some owner ->
    owner = ownerOf cfg file.writer

structure ReserveInv (cfg : LockConfig Call Proc)
    (s : ReserveState Call Proc) : Prop where
  procs : s.procs.Ok cfg
  file : forall file, s.file = some file -> FileOk cfg s file
  calls : forall c, s.procs.Alive cfg c -> ReserveCallAt cfg s c (s.phase c)
  unborn : forall c, s.procs.started (cfg.proc c) = false ->
    s.phase c = ReservePhase.publish ∧ s.made c = none

theorem reserveInv_initial (cfg : LockConfig Call Proc) :
    ReserveInv cfg initialReserveState := by
  constructor
  · exact ProcessTable.ok_empty cfg
  · intro file hfile
    cases hfile
  · intro c halive
    cases halive
  · intro c _
    exact ⟨rfl, rfl⟩

theorem holdsFile_unique
    {s : ReserveState Call Proc} {c d : Call}
    {o o' : Option ThreadLockOwner}
    (hc : HoldsFile s c o) (hd : HoldsFile s d o') :
    c = d := by
  rcases hc with ⟨file, hfile, hwriter, _, _⟩
  rcases hd with ⟨file', hfile', hwriter', _, _⟩
  rw [hfile] at hfile'
  cases hfile'
  rw [← hwriter, hwriter']

theorem holdsFile_of_made
    {cfg : LockConfig Call Proc} {s : ReserveState Call Proc} {c : Call}
    {n : Nat}
    (hinv : ReserveInv cfg s) (hlive : s.procs.Alive cfg c)
    (hmade : s.made c = some n) :
    exists content, HoldsFile s c content := by
  have hat := hinv.calls c hlive
  cases hphase : s.phase c <;> rw [hphase] at hat
  case fallbackFill => exact ⟨_, hat.left⟩
  case fallbackRemove =>
    rcases hat with hnone | hholds
    · rw [hmade] at hnone
      cases hnone
    · exact hholds
  case inside => exact ⟨_, hat⟩
  case readRelease => exact ⟨_, hat⟩
  case removeRelease => exact ⟨_, hat⟩
  case judge => exact absurd (hmade.symm.trans hat.left) (by simp)
  case removeStale => exact absurd (hmade.symm.trans hat.left) (by simp)
  all_goals exact absurd (hmade.symm.trans hat) (by simp)

/-!
## Frames

A file goes away only when a moving call held it or when no live call does.
-/

structure ReserveFrame (cfg : LockConfig Call Proc) (moved : Call -> Prop)
    (s s' : ReserveState Call Proc) : Prop where
  later : ProcessTable.Later cfg s.procs s'.procs
  phase : forall e, ¬ moved e -> s'.phase e = s.phase e
  made : forall e, ¬ moved e -> s'.made e = s.made e
  fresh : forall e n, s'.made e = some n ->
    s.made e = some n ∨ n = s.nextSerial
  serial : s.nextSerial ≤ s'.nextSerial
  file : forall file, s.file = some file ->
    s'.file = some file ∨ moved file.writer ∨
      FileNotHeld cfg s file.serial

/-- Whoever holds an old file after a step held it before. -/
theorem made_before
    {cfg : LockConfig Call Proc} {moved : Call -> Prop}
    {s s' : ReserveState Call Proc} {e : Call} {n : Nat}
    (hinv : ReserveInv cfg s) (hframe : ReserveFrame cfg moved s s')
    (hn : n < s.nextSerial)
    (halive : s'.procs.Alive cfg e) (hmade : s'.made e = some n) :
    s.procs.Alive cfg e ∧ s.made e = some n := by
  rcases hframe.fresh e n hmade with hold | hnew
  · rcases hframe.later.alive _ halive with hlive | hunborn
    · exact ⟨hlive, hold⟩
    · have hnone := (hinv.unborn e hunborn).right
      rw [hnone] at hold
      cases hold
  · omega

theorem fileNotHeld_frame
    {cfg : LockConfig Call Proc} {moved : Call -> Prop}
    {s s' : ReserveState Call Proc} {n : Nat}
    (hinv : ReserveInv cfg s) (hframe : ReserveFrame cfg moved s s')
    (hn : n < s.nextSerial) (hnot : FileNotHeld cfg s n) :
    FileNotHeld cfg s' n := by
  intro e halive hmade
  have hbefore := made_before hinv hframe hn halive hmade
  exact hnot e hbefore.left hbefore.right

theorem readFrom_frame
    {cfg : LockConfig Call Proc} {moved : Call -> Prop}
    {s s' : ReserveState Call Proc} {n : Nat} {owner : ThreadLockOwner}
    (hinv : ReserveInv cfg s) (hframe : ReserveFrame cfg moved s s')
    (h : ReadFrom cfg s n owner) :
    ReadFrom cfg s' n owner := by
  rcases h with ⟨hn, d, howner, honly⟩
  refine ⟨Nat.lt_of_lt_of_le hn hframe.serial, d, howner, ?_⟩
  intro e halive hmade
  have hbefore := made_before hinv hframe hn halive hmade
  exact honly e hbefore.left hbefore.right

theorem holdsFile_frame
    {cfg : LockConfig Call Proc} {moved : Call -> Prop}
    {s s' : ReserveState Call Proc} {e : Call}
    {o : Option ThreadLockOwner}
    (hframe : ReserveFrame cfg moved s s') (hlive : s.procs.Alive cfg e)
    (he : ¬ moved e) (h : HoldsFile s e o) :
    HoldsFile s' e o := by
  rcases h with ⟨file, hfile, hwriter, hmade, hcontent⟩
  refine ⟨file, ?_, hwriter, ?_, hcontent⟩
  · rcases hframe.file file hfile with hkeep | hown | hnot
    · exact hkeep
    · rw [hwriter] at hown
      exact absurd hown he
    · exact absurd hmade (hnot e hlive)
  · rw [hframe.made e he]
    exact hmade

theorem reserveCallAt_frame
    {cfg : LockConfig Call Proc} {moved : Call -> Prop}
    {s s' : ReserveState Call Proc} {e : Call}
    (hinv : ReserveInv cfg s) (hframe : ReserveFrame cfg moved s s')
    (hlive : s.procs.Alive cfg e) (he : ¬ moved e) :
    ReserveCallAt cfg s' e (s.phase e) := by
  have hat := hinv.calls e hlive
  have hmade : s'.made e = s.made e := hframe.made e he
  have hholds : forall o, HoldsFile s e o -> HoldsFile s' e o := by
    intro o
    exact holdsFile_frame hframe hlive he
  cases hphase : s.phase e <;> rw [hphase] at hat
  case fallbackFill => exact ⟨hholds _ hat.left, hmade.trans hat.right⟩
  case fallbackRemove =>
    rcases hat with hnone | ⟨content, hcontent⟩
    · exact Or.inl (hmade.trans hnone)
    · exact Or.inr ⟨content, hholds _ hcontent⟩
  case judge =>
    exact ⟨hmade.trans hat.left, readFrom_frame hinv hframe hat.right⟩
  case removeStale =>
    refine ⟨hmade.trans hat.left, ?_⟩
    intro owner hobserved
    rcases hat.right owner hobserved with ⟨hn, hnot⟩
    exact ⟨Nat.lt_of_lt_of_le hn hframe.serial,
      fileNotHeld_frame hinv hframe hn hnot⟩
  case inside => exact hholds _ hat
  case readRelease => exact hholds _ hat
  case removeRelease => exact hholds _ hat
  all_goals exact hmade.trans hat

theorem reserveInv_of_frame
    {cfg : LockConfig Call Proc} {moved : Call -> Prop}
    {s s' : ReserveState Call Proc}
    (hinv : ReserveInv cfg s) (hframe : ReserveFrame cfg moved s s')
    (hprocs : s'.procs.Ok cfg)
    (hfile : forall file, s'.file = some file -> FileOk cfg s' file)
    (hborn : forall c, moved c -> s'.procs.started (cfg.proc c) = true)
    (hmoved : forall c, moved c -> ReserveCallAt cfg s' c (s'.phase c)) :
    ReserveInv cfg s' := by
  constructor
  · exact hprocs
  · exact hfile
  · intro e halive
    by_cases he : moved e
    · exact hmoved e he
    · rw [hframe.phase e he]
      rcases hframe.later.alive _ halive with hlive | hunborn
      · exact reserveCallAt_frame hinv hframe hlive he
      · have hidle := hinv.unborn e hunborn
        rw [hidle.left]
        exact (hframe.made e he).trans hidle.right
  · intro e hunborn
    have he : ¬ moved e := by
      intro hmovedE
      rw [hborn e hmovedE] at hunborn
      cases hunborn
    have hunbornBefore : s.procs.started (cfg.proc e) = false := by
      cases hstarted : s.procs.started (cfg.proc e) with
      | false =>
          rfl
      | true =>
          rw [hframe.later.started _ hstarted] at hunborn
          cases hunborn
    have hidle := hinv.unborn e hunbornBefore
    exact ⟨(hframe.phase e he).trans hidle.left,
      (hframe.made e he).trans hidle.right⟩

section Operations

variable [DecidableEq Call] {cfg : LockConfig Call Proc}
  {s : ReserveState Call Proc} {c : Call} {ans : ReserveAnswer}

theorem reservePhase_goto (s : ReserveState Call Proc) (c : Call)
    (ph : ReservePhase) :
    (s.goto c ph).phase c = ph := by
  simp [ReserveState.goto]

omit [DecidableEq Call] in
theorem reserveInv_of_callFrame
    {s' : ReserveState Call Proc} {ph : ReservePhase}
    (hinv : ReserveInv cfg s) (hlive : s.procs.Alive cfg c)
    (hframe : ReserveFrame cfg (fun e => e = c) s s')
    (hprocs : s'.procs = s.procs) (hphase : s'.phase c = ph)
    (hfile : forall file, s'.file = some file -> FileOk cfg s' file)
    (hat : ReserveCallAt cfg s' c ph) :
    ReserveInv cfg s' := by
  apply reserveInv_of_frame hinv hframe _ hfile
  · intro e he
    rw [he, hprocs]
    exact hinv.procs _ hlive
  · intro e he
    rw [he, hphase]
    exact hat
  · rw [hprocs]
    exact hinv.procs

/-!
## Effects of a step

A step moves the call, gives up its file, creates one, fills its own or removes
one that nobody else holds.
-/

theorem reserveInv_goto
    {ph : ReservePhase}
    (hinv : ReserveInv cfg s) (hlive : s.procs.Alive cfg c)
    (hat : ReserveCallAt cfg s c ph) :
    ReserveInv cfg (s.goto c ph) := by
  have hframe : ReserveFrame cfg (fun e => e = c) s (s.goto c ph) :=
    { later := ProcessTable.later_refl cfg s.procs
      phase := fun _ he => Function.update_of_ne he _ _
      made := fun _ _ => rfl
      fresh := fun _ _ h => Or.inl h
      serial := Nat.le_refl _
      file := fun _ h => Or.inl h }
  apply reserveInv_of_callFrame hinv hlive hframe rfl (reservePhase_goto _ c _)
  · intro file hfile
    have hok := hinv.file file hfile
    exact ⟨hok.serial, hok.content⟩
  · cases ph <;> exact hat

/-- The phases in which nothing is held. -/
def ReservePhase.idle : ReservePhase -> Bool
  | ReservePhase.publish => true
  | ReservePhase.returned => true
  | ReservePhase.threw => true
  | _ => false

omit [DecidableEq Call] in
theorem reserveCallAt_idle
    {ph : ReservePhase}
    (hidle : ph.idle = true) (hmade : s.made c = none) :
    ReserveCallAt cfg s c ph := by
  cases ph <;> first
    | exact hmade
    | cases hidle

/-- Giving up, with the file gone or left behind. -/
theorem reserveInv_giveUp
    {ph : ReservePhase} {file' : Option (ReservationFile Call)}
    (hinv : ReserveInv cfg s) (hlive : s.procs.Alive cfg c)
    (hidle : ph.idle = true)
    (hfile' : file' = s.file ∨ file' = none)
    (hgone : forall file, s.file = some file ->
      file' = some file ∨ file.writer = c ∨ FileNotHeld cfg s file.serial) :
    ReserveInv cfg (({ s with file := file' }.giveUp c).goto c ph) := by
  have hframe : ReserveFrame cfg (fun e => e = c) s
      (({ s with file := file' }.giveUp c).goto c ph) := by
    refine
      { later := ProcessTable.later_refl cfg s.procs
        phase := fun _ he => Function.update_of_ne he _ _
        made := fun _ he => Function.update_of_ne he _ _
        fresh := ?_
        serial := Nat.le_refl _
        file := hgone }
    intro e n hmade
    by_cases he : e = c
    · simp [ReserveState.giveUp, ReserveState.goto, he] at hmade
    · apply Or.inl
      simpa [ReserveState.giveUp, ReserveState.goto,
        Function.update_of_ne he] using hmade
  apply reserveInv_of_callFrame hinv hlive hframe rfl (reservePhase_goto _ c _)
  · intro file hfile
    have hold : s.file = some file := by
      rcases hfile' with hsame | hnone
      · rw [← hsame]
        exact hfile
      · rw [hnone] at hfile
        cases hfile
    have hok := hinv.file file hold
    exact ⟨hok.serial, hok.content⟩
  · apply reserveCallAt_idle hidle
    simp [ReserveState.giveUp, ReserveState.goto]

theorem reserveInv_abandon
    {ph : ReservePhase}
    (hinv : ReserveInv cfg s) (hlive : s.procs.Alive cfg c)
    (hidle : ph.idle = true) :
    ReserveInv cfg ((s.giveUp c).goto c ph) :=
  reserveInv_giveUp hinv hlive hidle (Or.inl rfl) (fun _ h => Or.inl h)

theorem reserveInv_remove
    {ph : ReservePhase}
    (hinv : ReserveInv cfg s) (hlive : s.procs.Alive cfg c)
    (hidle : ph.idle = true)
    (hgone : forall file, s.file = some file ->
      file.writer = c ∨ FileNotHeld cfg s file.serial) :
    ReserveInv cfg (({ s with file := none }.giveUp c).goto c ph) :=
  reserveInv_giveUp hinv hlive hidle (Or.inr rfl)
    (fun file h => Or.inr (hgone file h))

theorem reserveInv_create
    {ph : ReservePhase} {content : Option ThreadLockOwner}
    (hinv : ReserveInv cfg s) (hlive : s.procs.Alive cfg c)
    (hfree : s.file = none)
    (hcontent : forall owner, content = some owner -> owner = ownerOf cfg c)
    (hat : HoldsFile (s.create c content) c content ->
      ReserveCallAt cfg ((s.create c content).goto c ph) c ph) :
    ReserveInv cfg ((s.create c content).goto c ph) := by
  have hframe : ReserveFrame cfg (fun e => e = c) s
      ((s.create c content).goto c ph) := by
    refine
      { later := ProcessTable.later_refl cfg s.procs
        phase := fun _ he => Function.update_of_ne he _ _
        made := fun _ he => Function.update_of_ne he _ _
        fresh := ?_
        serial := Nat.le_succ _
        file := ?_ }
    · intro e n hmade
      by_cases he : e = c
      · apply Or.inr
        simpa [ReserveState.create, ReserveState.goto, he, eq_comm] using hmade
      · apply Or.inl
        simpa [ReserveState.create, ReserveState.goto,
          Function.update_of_ne he] using hmade
    · intro file hfile
      rw [hfree] at hfile
      cases hfile
  apply reserveInv_of_callFrame hinv hlive hframe rfl (reservePhase_goto _ c _)
  · intro file hfile
    cases hfile
    exact ⟨Nat.lt_succ_self _, hcontent⟩
  · apply hat
    refine ⟨_, rfl, rfl, ?_, rfl⟩
    simp [ReserveState.create]

theorem reserveInv_fill
    {file : ReservationFile Call}
    (hinv : ReserveInv cfg s) (hlive : s.procs.Alive cfg c)
    (hfile : s.file = some file) (hwriter : file.writer = c)
    (hmade : s.made c = some file.serial) :
    ReserveInv cfg
      ((s.fill file (ownerOf cfg c)).goto c ReservePhase.inside) := by
  have hframe : ReserveFrame cfg (fun e => e = c) s
      ((s.fill file (ownerOf cfg c)).goto c ReservePhase.inside) := by
    refine
      { later := ProcessTable.later_refl cfg s.procs
        phase := fun _ he => Function.update_of_ne he _ _
        made := fun _ _ => rfl
        fresh := fun _ _ h => Or.inl h
        serial := Nat.le_refl _
        file := ?_ }
    intro file' hfile'
    rw [hfile] at hfile'
    cases hfile'
    exact Or.inr (Or.inl hwriter)
  apply reserveInv_of_callFrame hinv hlive hframe rfl (reservePhase_goto _ c _)
  · intro file' hfile'
    cases hfile'
    refine ⟨(hinv.file file hfile).serial, ?_⟩
    intro owner howner
    cases howner
    rw [hwriter]
  · exact ⟨_, rfl, hwriter, hmade, rfl⟩

/-!
## One lemma for each operation
-/

theorem reserveInv_stepPublish
    (hinv : ReserveInv cfg s) (hlive : s.procs.Alive cfg c)
    (hat : ReserveCallAt cfg s c ReservePhase.publish) :
    ReserveInv cfg (stepPublish cfg s c ans) := by
  have hmade : s.made c = none := hat
  unfold stepPublish
  split
  · exact reserveInv_goto hinv hlive hmade
  · exact reserveInv_goto hinv hlive hmade
  · exact reserveInv_goto hinv hlive hmade
  · rename_i hfree
    apply reserveInv_create hinv hlive hfree
    · intro owner howner
      cases howner
      rfl
    · intro hholds
      exact hholds

theorem reserveInv_stepFallbackCreate
    (hinv : ReserveInv cfg s) (hlive : s.procs.Alive cfg c)
    (hat : ReserveCallAt cfg s c ReservePhase.fallbackCreate) :
    ReserveInv cfg (stepFallbackCreate s c ans) := by
  have hmade : s.made c = none := hat
  unfold stepFallbackCreate
  split
  · exact reserveInv_goto hinv hlive (Or.inl hmade)
  · exact reserveInv_goto hinv hlive hmade
  · rename_i hfree
    apply reserveInv_create hinv hlive hfree
    · intro owner howner
      cases howner
    · intro hholds
      refine ⟨hholds, ?_⟩
      simp [ReserveState.create, ReserveState.goto]

theorem reserveInv_stepFallbackFill
    {serial : Nat}
    (hinv : ReserveInv cfg s) (hlive : s.procs.Alive cfg c)
    (hat : ReserveCallAt cfg s c (ReservePhase.fallbackFill serial)) :
    ReserveInv cfg (stepFallbackFill cfg s c serial ans) := by
  rcases hat with ⟨hholds, hserial⟩
  have hholdsFile := hholds
  rcases hholds with ⟨file, hfile, hwriter, hmade, _⟩
  have hsame : file.serial = serial := by
    rw [hmade] at hserial
    cases hserial
    rfl
  unfold stepFallbackFill
  split
  · exact reserveInv_goto hinv hlive (Or.inr ⟨_, hholdsFile⟩)
  · rename_i hnone
    rw [hfile] at hnone
    cases hnone
  · rename_i file' _ hfile'
    rw [hfile] at hfile'
    cases hfile'
    rw [if_pos hsame]
    exact reserveInv_fill hinv hlive hfile hwriter hmade

theorem reserveInv_stepFallbackRemove
    (hinv : ReserveInv cfg s) (hlive : s.procs.Alive cfg c)
    (hphase : s.phase c = ReservePhase.fallbackRemove)
    (hcleanup : CleanupRemovesOwn cfg s c) :
    ReserveInv cfg (stepFallbackRemove s c ans) := by
  unfold stepFallbackRemove
  split
  · exact reserveInv_abandon hinv hlive rfl
  · apply reserveInv_remove hinv hlive rfl
    intro file hfile
    rcases hcleanup file hphase hfile with hown | hnot
    · rcases holdsFile_of_made hinv hlive hown with
        ⟨content, file', hfile', hwriter, _, _⟩
      rw [hfile] at hfile'
      cases hfile'
      exact Or.inl hwriter
    · exact Or.inr hnot

theorem reserveInv_stepReadFile
    (hinv : ReserveInv cfg s) (hlive : s.procs.Alive cfg c)
    (hat : ReserveCallAt cfg s c ReservePhase.readFile) :
    ReserveInv cfg (stepReadFile s c ans) := by
  have hmade : s.made c = none := hat
  unfold stepReadFile
  split
  · exact reserveInv_goto hinv hlive hmade
  · exact reserveInv_goto hinv hlive hmade
  · rename_i file _ hfile
    have hok := hinv.file file hfile
    split
    · exact reserveInv_goto hinv hlive hmade
    · rename_i owner hcontent
      apply reserveInv_goto hinv hlive
      refine ⟨hmade, hok.serial, file.writer, hok.content owner hcontent, ?_⟩
      intro e halive hmadeE
      rcases holdsFile_of_made hinv halive hmadeE with
        ⟨_, file', hfile', hwriter, _, _⟩
      rw [hfile] at hfile'
      cases hfile'
      exact hwriter.symm

/-- A judged owner has ended, so nobody holds the file it was read from. -/
theorem reserveInv_stepJudge
    {serial : Nat} {owner : ThreadLockOwner}
    (hinv : ReserveInv cfg s) (hlive : s.procs.Alive cfg c)
    (hat : ReserveCallAt cfg s c (ReservePhase.judge serial owner)) :
    ReserveInv cfg (stepJudge cfg s c serial owner) := by
  rcases hat with ⟨hmade, hn, d, howner, honly⟩
  unfold stepJudge
  split
  · exact reserveInv_goto hinv hlive hmade
  · rename_i reason hstale
    apply reserveInv_goto hinv hlive
    refine ⟨hmade, ?_⟩
    intro _ _
    refine ⟨hn, ?_⟩
    intro e halive hmadeE
    rw [howner] at hstale
    have hdead := ProcessTable.not_alive_of_stale hstale
    exact hdead (honly e halive hmadeE ▸ halive)

theorem reserveInv_stepStatAge
    {serial : Nat}
    (hinv : ReserveInv cfg s) (hlive : s.procs.Alive cfg c)
    (hat : ReserveCallAt cfg s c (ReservePhase.statAge serial)) :
    ReserveInv cfg (stepStatAge cfg s c serial ans) := by
  have hmade : s.made c = none := hat
  unfold stepStatAge
  split
  · exact reserveInv_goto hinv hlive hmade
  · split
    · apply reserveInv_goto hinv hlive
      refine ⟨hmade, ?_⟩
      intro owner howner
      cases howner
    · exact reserveInv_goto hinv hlive hmade

theorem reserveInv_stepRemoveStale
    {serial : Nat} {observed : Option ThreadLockOwner}
    (hinv : ReserveInv cfg s) (hlive : s.procs.Alive cfg c)
    (hat : ReserveCallAt cfg s c (ReservePhase.removeStale serial observed))
    (hphase : s.phase c = ReservePhase.removeStale serial observed)
    (hjudged : RemovesJudged cfg s c)
    (haged : AgeRemovesAbandoned cfg s c) :
    ReserveInv cfg (stepRemoveStale s c ans) := by
  have hmade : s.made c = none := hat.left
  have hnot : forall file, s.file = some file ->
      FileNotHeld cfg s file.serial := by
    intro file hfile
    cases observed with
    | none =>
        exact haged serial file hphase hfile
    | some owner =>
        rcases hjudged serial owner file hphase hfile with hsame | habandoned
        · rw [hsame]
          exact (hat.right owner rfl).right
        · exact habandoned
  unfold stepRemoveStale
  split
  · exact reserveInv_goto hinv hlive hmade
  · have hframe : ReserveFrame cfg (fun e => e = c) s
        ({ s with file := none }.goto c ReservePhase.publish) :=
      { later := ProcessTable.later_refl cfg s.procs
        phase := fun _ he => Function.update_of_ne he _ _
        made := fun _ _ => rfl
        fresh := fun _ _ h => Or.inl h
        serial := Nat.le_refl _
        file := fun file h => Or.inr (Or.inr (hnot file h)) }
    apply reserveInv_of_callFrame hinv hlive hframe rfl
      (reservePhase_goto _ c _)
    · intro file hfile
      cases hfile
    · exact hmade

theorem reserveInv_stepReservePoll
    (hinv : ReserveInv cfg s) (hlive : s.procs.Alive cfg c)
    (hat : ReserveCallAt cfg s c ReservePhase.poll) :
    ReserveInv cfg (stepReservePoll s c ans) := by
  have hmade : s.made c = none := hat
  unfold stepReservePoll
  split
  · exact reserveInv_goto hinv hlive hmade
  · exact reserveInv_goto hinv hlive hmade

theorem reserveInv_stepReadRelease
    (hinv : ReserveInv cfg s) (hlive : s.procs.Alive cfg c)
    (hat : ReserveCallAt cfg s c ReservePhase.readRelease) :
    ReserveInv cfg (stepReserveReadRelease cfg s c ans) := by
  unfold stepReserveReadRelease
  split
  · exact reserveInv_abandon hinv hlive rfl
  · exact reserveInv_abandon hinv hlive rfl
  · split
    · exact reserveInv_goto hinv hlive hat
    · exact reserveInv_abandon hinv hlive rfl

theorem reserveInv_stepRemoveRelease
    (hinv : ReserveInv cfg s) (hlive : s.procs.Alive cfg c)
    (hat : ReserveCallAt cfg s c ReservePhase.removeRelease) :
    ReserveInv cfg (stepReserveRemoveRelease s c ans) := by
  unfold stepReserveRemoveRelease
  split
  · exact reserveInv_abandon hinv hlive rfl
  · apply reserveInv_remove hinv hlive rfl
    intro file hfile
    rcases hat with ⟨file', hfile', hwriter, _, _⟩
    rw [hfile] at hfile'
    cases hfile'
    exact Or.inl hwriter

/-!
## Every step and every run
-/

theorem reserveInv_callStep
    {s' : ReserveState Call Proc}
    (hinv : ReserveInv cfg s) (hlive : s.procs.Alive cfg c)
    (hdisc : ReserveDisciplined cfg s (ReserveLabel.call c ans))
    (hstep : reserveCallStep cfg s c ans = some s') :
    ReserveInv cfg s' := by
  have hat := hinv.calls c hlive
  rcases hdisc with ⟨hjudged, haged, hcleanup⟩
  unfold reserveCallStep at hstep
  cases hphase : s.phase c <;> rw [hphase] at hat <;>
    simp only [hphase, Option.some.injEq] at hstep
  case publish => exact hstep ▸ reserveInv_stepPublish hinv hlive hat
  case fallbackCreate =>
    exact hstep ▸ reserveInv_stepFallbackCreate hinv hlive hat
  case fallbackFill => exact hstep ▸ reserveInv_stepFallbackFill hinv hlive hat
  case fallbackRemove =>
    exact hstep ▸ reserveInv_stepFallbackRemove hinv hlive hphase hcleanup
  case readFile => exact hstep ▸ reserveInv_stepReadFile hinv hlive hat
  case judge => exact hstep ▸ reserveInv_stepJudge hinv hlive hat
  case statAge => exact hstep ▸ reserveInv_stepStatAge hinv hlive hat
  case removeStale =>
    exact hstep ▸
      reserveInv_stepRemoveStale hinv hlive hat hphase hjudged haged
  case poll => exact hstep ▸ reserveInv_stepReservePoll hinv hlive hat
  case inside => exact hstep ▸ reserveInv_goto hinv hlive hat
  case readRelease => exact hstep ▸ reserveInv_stepReadRelease hinv hlive hat
  case removeRelease =>
    exact hstep ▸ reserveInv_stepRemoveRelease hinv hlive hat
  case returned => cases hstep
  case threw => cases hstep

omit [DecidableEq Call] in
theorem reserveInv_environment
    {s' : ReserveState Call Proc}
    (hinv : ReserveInv cfg s)
    (hlater : ProcessTable.Later cfg s.procs s'.procs)
    (hprocs : s'.procs.Ok cfg)
    (hfile : s'.file = s.file) (hphase : s'.phase = s.phase)
    (hmade : s'.made = s.made) (hserial : s'.nextSerial = s.nextSerial) :
    ReserveInv cfg s' := by
  have hframe : ReserveFrame cfg (fun _ => False) s s' := by
    refine
      { later := hlater
        phase := fun e _ => congrFun hphase e
        made := fun e _ => congrFun hmade e
        fresh := ?_
        serial := Nat.le_of_eq hserial.symm
        file := fun file h => Or.inl (hfile.trans h) }
    intro e n hn
    rw [hmade] at hn
    exact Or.inl hn
  apply reserveInv_of_frame hinv hframe hprocs
  · intro file hfile'
    rw [hfile] at hfile'
    have hok := hinv.file file hfile'
    refine ⟨?_, hok.content⟩
    rw [hserial]
    exact hok.serial
  · intro e he
    cases he
  · intro e he
    cases he

theorem reserveInv_next [DecidableEq Proc]
    {s' : ReserveState Call Proc} {l : ReserveLabel Call Proc}
    (hinv : ReserveInv cfg s) (hdisc : ReserveDisciplined cfg s l)
    (hstep : reserveNext cfg s l = some s') :
    ReserveInv cfg s' := by
  cases l with
  | tick ms =>
      cases hstep
      exact reserveInv_environment hinv (ProcessTable.later_refl cfg s.procs)
        hinv.procs rfl rfl rfl rfl
  | spawn p =>
      rcases Option.map_eq_some_iff.mp hstep with ⟨procs, hspawn, hs'⟩
      cases hs'
      exact reserveInv_environment hinv (ProcessTable.later_spawn hspawn)
        (ProcessTable.ok_spawn hinv.procs hspawn) rfl rfl rfl rfl
  | crash p =>
      rcases Option.map_eq_some_iff.mp hstep with ⟨procs, hcrash, hs'⟩
      cases hs'
      exact reserveInv_environment hinv (ProcessTable.later_crash hcrash)
        (ProcessTable.ok_crash hinv.procs hcrash) rfl rfl rfl rfl
  | call c ans =>
      simp only [reserveNext] at hstep
      split at hstep
      · rename_i hlive
        exact reserveInv_callStep hinv hlive hdisc hstep
      · cases hstep

theorem reserveInv_reachable [DecidableEq Proc]
    (hreach :
      ((reserveSystem cfg).Restrict (ReserveDisciplined cfg)).Reachable s) :
    ReserveInv cfg s := by
  apply TransitionSystem.reachable_induction _ _ hreach
  · intro s0 hs0
    cases hs0
    exact reserveInv_initial cfg
  · intro s0 l s' _ hinv hstep
    exact reserveInv_next hinv hstep.left hstep.right

omit [DecidableEq Call] in
theorem holdsFile_of_inside
    (hinv : ReserveInv cfg s) (hinside : InsideReservation cfg s c) :
    HoldsFile s c (some (ownerOf cfg c)) := by
  have hat := hinv.calls c hinside.left
  rw [hinside.right] at hat
  exact hat

/-- In every run whose removals find what was judged, at most one live call is
inside, and every observer sees its reservation. -/
theorem withExclusiveReplanReservation_excludes [DecidableEq Proc]
    (hreach :
      ((reserveSystem cfg).Restrict (ReserveDisciplined cfg)).Reachable s) :
    ReservationExclusive cfg s ∧ ReservationVisible cfg s := by
  have hinv := reserveInv_reachable hreach
  constructor
  · intro c d hc hd
    exact holdsFile_unique (holdsFile_of_inside hinv hc)
      (holdsFile_of_inside hinv hd)
  · intro c hc
    rcases holdsFile_of_inside hinv hc with ⟨file, hfile, _, _, hcontent⟩
    have hlive := ProcessTable.ownerLooksLive_of_alive hc.left
    simp [exclusiveReplanReservationIsLive, hfile, hcontent, hlive]

end Operations

/-!
## Three calls

A run with one call at work at a time is disciplined when every file that is
removed is the one in the call's phase.
-/

/-- The removals of a step are those of the judged file. -/
def removesKnown (s : ReserveState Call Proc) : ReserveLabel Call Proc -> Bool
  | ReserveLabel.call c _ =>
      match s.phase c with
      | ReservePhase.removeStale serial (some _) =>
          s.file.all fun file => file.serial = serial
      | ReservePhase.removeStale _ none => false
      | ReservePhase.fallbackRemove => false
      | _ => true
  | _ => true

theorem reserveDisciplined_of_removesKnown
    (cfg : LockConfig Call Proc) (s : ReserveState Call Proc)
    (l : ReserveLabel Call Proc) (h : removesKnown s l = true) :
    ReserveDisciplined cfg s l := by
  cases l with
  | call c ans =>
      refine ⟨?_, ?_, ?_⟩
      · intro serial owner file hphase hfile
        apply Or.inl
        simpa [removesKnown, hphase, hfile] using h
      · intro serial file hphase _
        simp [removesKnown, hphase] at h
      · intro file hphase _
        simp [removesKnown, hphase] at h
  | _ =>
      exact True.intro

end Promises

/-- Calls `0`, `1` and `2` of three processes. -/
def threeCalls : LockConfig (Fin 3) (Fin 3) where
  proc := id
  pid := fun p => p.val + 1
  pid_pos := by decide
  startMarker := fun _ => none
  operationId := fun c => if c = 0 then "zero" else if c = 1 then "one" else "two"
  operationId_ne := by decide
  operationId_injective := by
    intro c d
    decide +revert
  acquiredAt := fun _ => "2026-01-01T00:00:00.000Z"
  staleMs := 120000

def reserveSteps (c : Fin 3) (n : Nat) : List (ReserveLabel (Fin 3) (Fin 3)) :=
  List.replicate n (ReserveLabel.call c ReserveAnswer.ok)

/-- The first call crashes inside, and the second recovers its reservation. -/
def recovery : List (ReserveLabel (Fin 3) (Fin 3)) :=
  [ReserveLabel.spawn 0] ++ reserveSteps 0 1 ++
    [ReserveLabel.crash 0, ReserveLabel.spawn 1] ++ reserveSteps 1 5

def recoveryState : ReserveState (Fin 3) (Fin 3) :=
  (TransitionSystem.execWhere (reserveNext threeCalls) removesKnown
    initialReserveState recovery).getD initialReserveState

theorem reachable_recoveryState :
    ((reserveSystem threeCalls).Restrict
      (ReserveDisciplined threeCalls)).Reachable recoveryState := by
  refine ⟨initialReserveState, recovery, rfl, ?_⟩
  apply TransitionSystem.run_of_execWhere
    (reserveDisciplined_of_removesKnown threeCalls)
  rfl

theorem withExclusiveReplanReservation_excludes_recovery :
    InsideReservation threeCalls recoveryState 1 ∧
      ReservationExclusive threeCalls recoveryState ∧
      ReservationVisible threeCalls recoveryState := by
  refine ⟨⟨by decide, by decide⟩, ?_⟩
  exact withExclusiveReplanReservation_excludes reachable_recoveryState

/-- Calls `1` and `2` both judge the reservation of the crashed call `0` dead.
Call `1` removes it, publishes and enters; the late removal of call `2` deletes
that fresh reservation, and call `2` enters as well. -/
def lateRemoval : List (ReserveLabel (Fin 3) (Fin 3)) :=
  [ReserveLabel.spawn 0] ++ reserveSteps 0 1 ++
    [ReserveLabel.crash 0, ReserveLabel.spawn 1, ReserveLabel.spawn 2] ++
    reserveSteps 1 3 ++ reserveSteps 2 3 ++ reserveSteps 1 2 ++
    reserveSteps 2 2

def lateRemovalState : ReserveState (Fin 3) (Fin 3) :=
  (TransitionSystem.exec (reserveNext threeCalls) initialReserveState
    lateRemoval).getD initialReserveState

theorem reachable_lateRemovalState :
    (reserveSystem threeCalls).Reachable lateRemovalState := by
  refine ⟨initialReserveState, lateRemoval, rfl, ?_⟩
  apply TransitionSystem.run_of_exec
  rfl

theorem withExclusiveReplanReservation_not_exclusive :
    ¬ forall s, (reserveSystem threeCalls).Reachable s ->
      ReservationExclusive threeCalls s ∧ ReservationVisible threeCalls s := by
  intro hall
  have hexcl := (hall lateRemovalState reachable_lateRemovalState).left
  have hboth : (1 : Fin 3) = 2 := by
    apply hexcl 1 2
    · exact ⟨by decide, by decide⟩
    · exact ⟨by decide, by decide⟩
  cases hboth

end Lock
end Minni
