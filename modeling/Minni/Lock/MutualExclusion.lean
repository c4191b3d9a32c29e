import Minni.Lock.ThreadLock

/-!
# Mutual exclusion of the plan lock

`withThreadLock` excludes two live holders as long as two kinds of step keep to
a discipline: the recheck of a directory whose owner nobody could read finds an
abandoned one, and a reap lock is not stolen from a live reaper.  Recovery from
an owner that was read needs no discipline.
-/

namespace Minni
namespace Lock

open Foundation

/-!
## What the lock promises
-/

section Promises

variable {Call Proc : Type}

def Inside (cfg : LockConfig Call Proc) (s : LockState Call Proc)
    (c : Call) : Prop :=
  s.procs.Alive cfg c ∧ (s.phase c).inside = true

def MutualExclusion (cfg : LockConfig Call Proc)
    (s : LockState Call Proc) : Prop :=
  forall c d, Inside cfg s c -> Inside cfg s d -> c = d

/-- What `releaseOwnLock` is about to remove is owned by its own operation. -/
def ReleasesOwn (cfg : LockConfig Call Proc)
    (s : LockState Call Proc) : Prop :=
  forall c dir, s.procs.Alive cfg c -> s.phase c = Phase.removeRelease ->
    s.lockDir = some dir -> dir.owner = OwnerFile.owner (ownerOf cfg c)

/-!
## The discipline
-/

/-- No live call is between making the directory and giving it up. -/
def NotHeld (cfg : LockConfig Call Proc) (s : LockState Call Proc)
    (serial : Nat) : Prop :=
  forall c, s.procs.Alive cfg c -> s.made c ≠ some serial

/-- Where no owner was observed, the recheck compares inode numbers only.  The
directory that passes it is in no live call's hands: neither is its maker still
about to write the owner, nor did the inode number come back for a new one. -/
def RecheckFindsAbandoned (cfg : LockConfig Call Proc)
    (s : LockState Call Proc) (c : Call) : Prop :=
  forall before dir, s.phase c = Phase.restat before none ->
    s.lockDir = some dir -> dir.ino = before.ino -> NotHeld cfg s dir.serial

/-- A reap lock is removed by its age only when no live call relies on it. -/
def AgeFreesReapLock (cfg : LockConfig Call Proc)
    (s : LockState Call Proc) (c : Call) : Prop :=
  s.phase c = Phase.removeReap ->
    forall reap, s.reap = some reap -> s.procs.Alive cfg reap.taker ->
      (s.phase reap.taker).reaping = false

def Disciplined (cfg : LockConfig Call Proc) (s : LockState Call Proc) :
    LockLabel Call Proc -> Prop
  | LockLabel.call c _ =>
      RecheckFindsAbandoned cfg s c ∧ AgeFreesReapLock cfg s c
  | _ => True

/-!
## The invariant
-/

def OwnerEnded (cfg : LockConfig Call Proc) (t : ProcessTable Proc)
    (owner : ThreadLockOwner) : Prop :=
  exists d, owner = ownerOf cfg d ∧ t.started (cfg.proc d) = true ∧
    ¬ t.Alive cfg d

def StaleTarget (cfg : LockConfig Call Proc) (t : ProcessTable Proc)
    (observed : Option ThreadLockOwner) : Prop :=
  forall owner, observed = some owner -> OwnerEnded cfg t owner

def Holds (s : LockState Call Proc) (c : Call) (owner : OwnerFile) : Prop :=
  exists dir, s.lockDir = some dir ∧ dir.maker = c ∧
    s.made c = some dir.serial ∧ dir.owner = owner

def HoldsReap (s : LockState Call Proc) (c : Call) : Prop :=
  exists reap, s.reap = some reap ∧ reap.taker = c

/-- What a live call may rely on in each phase. -/
def CallAt (cfg : LockConfig Call Proc) (s : LockState Call Proc) (c : Call) :
    Phase -> Prop
  | Phase.writeOwner => Holds s c OwnerFile.missing
  | Phase.fillOwner serial =>
      Holds s c OwnerFile.unparseable ∧ s.made c = some serial
  | Phase.removeOwn _ => exists owner, Holds s c owner
  | Phase.judgeOwner _ observed =>
      s.made c = none ∧
        forall owner, observed = some owner ->
          exists d, owner = ownerOf cfg d ∧
            s.procs.started (cfg.proc d) = true
  | Phase.takeReap _ observed =>
      s.made c = none ∧ StaleTarget cfg s.procs observed
  | Phase.restat _ observed =>
      s.made c = none ∧ HoldsReap s c ∧ StaleTarget cfg s.procs observed
  | Phase.reread observed =>
      s.made c = none ∧ HoldsReap s c ∧ OwnerEnded cfg s.procs observed
  | Phase.renameLock =>
      s.made c = none ∧ HoldsReap s c ∧
        exists dir, s.lockDir = some dir ∧ NotHeld cfg s dir.serial
  | Phase.dropReap _ => s.made c = none ∧ HoldsReap s c
  | Phase.statOwn => Holds s c (OwnerFile.owner (ownerOf cfg c))
  | Phase.critical _ => Holds s c (OwnerFile.owner (ownerOf cfg c))
  | Phase.readRelease _ _ => Holds s c (OwnerFile.owner (ownerOf cfg c))
  | Phase.statRelease _ => Holds s c (OwnerFile.owner (ownerOf cfg c))
  | Phase.removeRelease => Holds s c (OwnerFile.owner (ownerOf cfg c))
  | _ => s.made c = none

structure DirOk (cfg : LockConfig Call Proc) (s : LockState Call Proc)
    (dir : LockDir Call) : Prop where
  serial : dir.serial < s.nextSerial
  started : s.procs.started (cfg.proc dir.maker) = true
  owner : forall owner, dir.owner = OwnerFile.owner owner ->
    owner = ownerOf cfg dir.maker

structure LockInv (cfg : LockConfig Call Proc) (s : LockState Call Proc) :
    Prop where
  procs : s.procs.Ok cfg
  dir : forall dir, s.lockDir = some dir -> DirOk cfg s dir
  calls : forall c, s.procs.Alive cfg c -> CallAt cfg s c (s.phase c)
  unborn : forall c, s.procs.started (cfg.proc c) = false ->
    s.phase c = Phase.mkdirLock ∧ s.made c = none

theorem lockInv_initial (cfg : LockConfig Call Proc) :
    LockInv cfg initialLockState := by
  constructor
  · exact ProcessTable.ok_empty cfg
  · intro dir hdir
    cases hdir
  · intro c halive
    cases halive
  · intro c _
    exact ⟨rfl, rfl⟩

theorem holds_unique
    {s : LockState Call Proc} {c d : Call} {o o' : OwnerFile}
    (hc : Holds s c o) (hd : Holds s d o') :
    c = d := by
  rcases hc with ⟨dir, hdir, hmaker, _, _⟩
  rcases hd with ⟨dir', hdir', hmaker', _, _⟩
  rw [hdir] at hdir'
  cases hdir'
  rw [← hmaker, hmaker']

theorem holdsReap_unique
    {s : LockState Call Proc} {c d : Call}
    (hc : HoldsReap s c) (hd : HoldsReap s d) :
    c = d := by
  rcases hc with ⟨reap, hreap, htaker⟩
  rcases hd with ⟨reap', hreap', htaker'⟩
  rw [hreap] at hreap'
  cases hreap'
  rw [← htaker, htaker']

/-!
## Frames

`Frame` collects what a step may do to the calls that do not take it.  A
directory goes away only when a moving call held it, or when a moving call with
the reap lock renamed an abandoned one; a reap lock goes away only when a moving
call held it or nobody relied on it.
-/

structure Frame (cfg : LockConfig Call Proc) (moved : Call -> Prop)
    (s s' : LockState Call Proc) : Prop where
  later : ProcessTable.Later cfg s.procs s'.procs
  phase : forall e, ¬ moved e -> s'.phase e = s.phase e
  made : forall e, ¬ moved e -> s'.made e = s.made e
  fresh : forall e n, s'.made e = some n ->
    s.made e = some n ∨ n = s.nextSerial
  serial : s.nextSerial ≤ s'.nextSerial
  lockDir : forall dir, s.lockDir = some dir ->
    s'.lockDir = some dir ∨
      (moved dir.maker ∧ s.procs.Alive cfg dir.maker ∧
        s.made dir.maker = some dir.serial) ∨
      (NotHeld cfg s dir.serial ∧ exists c, moved c ∧ HoldsReap s c)
  reap : forall reap, s.reap = some reap ->
    s'.reap = some reap ∨ moved reap.taker ∨
      (s.procs.Alive cfg reap.taker ->
        (s.phase reap.taker).reaping = false)

theorem notHeld_frame
    {cfg : LockConfig Call Proc} {moved : Call -> Prop}
    {s s' : LockState Call Proc} {n : Nat}
    (hinv : LockInv cfg s) (hframe : Frame cfg moved s s')
    (hn : n < s.nextSerial) (hnot : NotHeld cfg s n) :
    NotHeld cfg s' n := by
  intro e halive hmade
  rcases hframe.fresh e n hmade with hold | hnew
  · rcases hframe.later.alive _ halive with hlive | hunborn
    · exact hnot e hlive hold
    · have hnone := (hinv.unborn e hunborn).right
      rw [hnone] at hold
      cases hold
  · omega

theorem ownerEnded_later
    {cfg : LockConfig Call Proc} {t t' : ProcessTable Proc}
    {owner : ThreadLockOwner}
    (hlater : ProcessTable.Later cfg t t') (h : OwnerEnded cfg t owner) :
    OwnerEnded cfg t' owner := by
  rcases h with ⟨d, howner, hstarted, hdead⟩
  refine ⟨d, howner, hlater.started _ hstarted, ?_⟩
  intro halive
  rcases hlater.alive _ halive with hlive | hunborn
  · exact hdead hlive
  · rw [hstarted] at hunborn
    cases hunborn

theorem staleTarget_later
    {cfg : LockConfig Call Proc} {t t' : ProcessTable Proc}
    {observed : Option ThreadLockOwner}
    (hlater : ProcessTable.Later cfg t t') (h : StaleTarget cfg t observed) :
    StaleTarget cfg t' observed := by
  intro owner hobserved
  exact ownerEnded_later hlater (h owner hobserved)

theorem holds_frame
    {cfg : LockConfig Call Proc} {moved : Call -> Prop}
    {s s' : LockState Call Proc} {e : Call} {o : OwnerFile}
    (hframe : Frame cfg moved s s') (hlive : s.procs.Alive cfg e)
    (he : ¬ moved e) (h : Holds s e o) :
    Holds s' e o := by
  rcases h with ⟨dir, hdir, hmaker, hmade, howner⟩
  refine ⟨dir, ?_, hmaker, ?_, howner⟩
  · rcases hframe.lockDir dir hdir with hkeep | hown | hnot
    · exact hkeep
    · rw [hmaker] at hown
      exact absurd hown.left he
    · exact absurd hmade (hnot.left e hlive)
  · rw [hframe.made e he]
    exact hmade

theorem holdsReap_frame
    {cfg : LockConfig Call Proc} {moved : Call -> Prop}
    {s s' : LockState Call Proc} {e : Call}
    (hframe : Frame cfg moved s s') (hlive : s.procs.Alive cfg e)
    (he : ¬ moved e) (hreaping : (s.phase e).reaping = true)
    (h : HoldsReap s e) :
    HoldsReap s' e := by
  rcases h with ⟨reap, hreap, htaker⟩
  refine ⟨reap, ?_, htaker⟩
  rcases hframe.reap reap hreap with hkeep | hown | hidle
  · exact hkeep
  · rw [htaker] at hown
    exact absurd hown he
  · rw [htaker, hreaping] at hidle
    cases hidle hlive

/-- A call that a step does not move keeps what it relies on. -/
theorem callAt_frame
    {cfg : LockConfig Call Proc} {moved : Call -> Prop}
    {s s' : LockState Call Proc} {e : Call}
    (hinv : LockInv cfg s) (hframe : Frame cfg moved s s')
    (hlive : s.procs.Alive cfg e) (he : ¬ moved e) :
    CallAt cfg s' e (s.phase e) := by
  have hat := hinv.calls e hlive
  have hmade : s'.made e = s.made e := hframe.made e he
  have hreap : (s.phase e).reaping = true -> HoldsReap s e ->
      HoldsReap s' e := holdsReap_frame hframe hlive he
  have hholds : forall o, Holds s e o -> Holds s' e o := by
    intro o
    exact holds_frame hframe hlive he
  cases hphase : s.phase e with
  | writeOwner =>
      rw [hphase] at hat
      exact hholds _ hat
  | fillOwner serial =>
      rw [hphase] at hat
      exact ⟨hholds _ hat.left, hmade.trans hat.right⟩
  | removeOwn retry =>
      rw [hphase] at hat
      rcases hat with ⟨o, ho⟩
      exact ⟨o, hholds o ho⟩
  | readLockOwner before =>
      rw [hphase] at hat
      exact hmade.trans hat
  | judgeOwner before observed =>
      rw [hphase] at hat
      refine ⟨hmade.trans hat.left, ?_⟩
      intro owner hobserved
      rcases hat.right owner hobserved with ⟨d, howner, hstarted⟩
      exact ⟨d, howner, hframe.later.started _ hstarted⟩
  | takeReap before observed =>
      rw [hphase] at hat
      exact ⟨hmade.trans hat.left,
        staleTarget_later hframe.later hat.right⟩
  | restat before observed =>
      rw [hphase] at hat hreap
      exact ⟨hmade.trans hat.left, hreap rfl hat.right.left,
        staleTarget_later hframe.later hat.right.right⟩
  | reread observed =>
      rw [hphase] at hat hreap
      exact ⟨hmade.trans hat.left, hreap rfl hat.right.left,
        ownerEnded_later hframe.later hat.right.right⟩
  | renameLock =>
      rw [hphase] at hat hreap
      rcases hat with ⟨hnone, hholdsReap, dir, hdir, hnot⟩
      refine ⟨hmade.trans hnone, hreap rfl hholdsReap, dir, ?_, ?_⟩
      · rcases hframe.lockDir dir hdir with hkeep | hown | hother
        · exact hkeep
        · exact absurd hown.right.right (hnot _ hown.right.left)
        · rcases hother.right with ⟨c, hc, hcReap⟩
          rw [holdsReap_unique hcReap hholdsReap] at hc
          exact absurd hc he
      · exact notHeld_frame hinv hframe (hinv.dir dir hdir).serial hnot
  | dropReap next =>
      rw [hphase] at hat hreap
      exact ⟨hmade.trans hat.left, hreap rfl hat.right⟩
  | statOwn =>
      rw [hphase] at hat
      exact hholds _ hat
  | critical acquired =>
      rw [hphase] at hat
      exact hholds _ hat
  | readRelease acquired attempt =>
      rw [hphase] at hat
      exact hholds _ hat
  | statRelease acquired =>
      rw [hphase] at hat
      exact hholds _ hat
  | removeRelease =>
      rw [hphase] at hat
      exact hholds _ hat
  | mkdirLock =>
      rw [hphase] at hat
      exact hmade.trans hat
  | statLock =>
      rw [hphase] at hat
      exact hmade.trans hat
  | statReap =>
      rw [hphase] at hat
      exact hmade.trans hat
  | removeReap =>
      rw [hphase] at hat
      exact hmade.trans hat
  | poll =>
      rw [hphase] at hat
      exact hmade.trans hat
  | returned =>
      rw [hphase] at hat
      exact hmade.trans hat
  | threw =>
      rw [hphase] at hat
      exact hmade.trans hat

/-- A framed step keeps the invariant once the moving calls and the directory
are in order. -/
theorem lockInv_of_frame
    {cfg : LockConfig Call Proc} {moved : Call -> Prop}
    {s s' : LockState Call Proc}
    (hinv : LockInv cfg s) (hframe : Frame cfg moved s s')
    (hprocs : s'.procs.Ok cfg)
    (hdir : forall dir, s'.lockDir = some dir -> DirOk cfg s' dir)
    (hborn : forall c, moved c -> s'.procs.started (cfg.proc c) = true)
    (hmoved : forall c, moved c -> CallAt cfg s' c (s'.phase c)) :
    LockInv cfg s' := by
  constructor
  · exact hprocs
  · exact hdir
  · intro e halive
    by_cases he : moved e
    · exact hmoved e he
    · rw [hframe.phase e he]
      rcases hframe.later.alive _ halive with hlive | hunborn
      · exact callAt_frame hinv hframe hlive he
      · have hidle := hinv.unborn e hunborn
        rw [hidle.left]
        exact (hframe.made e he).trans hidle.right
  · intro e hunborn
    have he : ¬ moved e := by
      intro hmovedE
      rw [hborn e hmovedE] at hunborn
      cases hunborn
    have hunbornBefore : s.procs.started (cfg.proc e) = false := by
      cases hstarted : s.procs.started (cfg.proc e) with
      | false =>
          rfl
      | true =>
          rw [hframe.later.started _ hstarted] at hunborn
          cases hunborn
    have hidle := hinv.unborn e hunbornBefore
    exact ⟨(hframe.phase e he).trans hidle.left,
      (hframe.made e he).trans hidle.right⟩

/-!
## Steps that only move the call

Most steps change the phase alone, or the phase together with giving up the
directory.
-/

theorem frame_goto [DecidableEq Call]
    (cfg : LockConfig Call Proc) (s : LockState Call Proc) (c : Call)
    (ph : Phase) :
    Frame cfg (fun e => e = c) s (s.goto c ph) where
  later := ProcessTable.later_refl cfg s.procs
  phase := fun _ he => Function.update_of_ne he _ _
  made := fun _ _ => rfl
  fresh := fun _ _ h => Or.inl h
  serial := Nat.le_refl _
  lockDir := fun _ h => Or.inl h
  reap := fun _ h => Or.inl h

theorem phase_goto [DecidableEq Call]
    (s : LockState Call Proc) (c : Call) (ph : Phase) :
    (s.goto c ph).phase c = ph := by
  simp [LockState.goto]

/-- The case of `lockInv_of_frame` in which one live call moves. -/
theorem lockInv_of_callFrame
    {cfg : LockConfig Call Proc} {s s' : LockState Call Proc} {c : Call}
    {ph : Phase}
    (hinv : LockInv cfg s) (hlive : s.procs.Alive cfg c)
    (hframe : Frame cfg (fun e => e = c) s s')
    (hprocs : s'.procs = s.procs) (hphase : s'.phase c = ph)
    (hdir : forall dir, s'.lockDir = some dir -> DirOk cfg s' dir)
    (hat : CallAt cfg s' c ph) :
    LockInv cfg s' := by
  apply lockInv_of_frame hinv hframe _ hdir
  · intro e he
    rw [he, hprocs]
    exact hinv.procs _ hlive
  · intro e he
    rw [he, hphase]
    exact hat
  · rw [hprocs]
    exact hinv.procs

theorem lockInv_goto [DecidableEq Call]
    {cfg : LockConfig Call Proc} {s : LockState Call Proc} {c : Call}
    {ph : Phase}
    (hinv : LockInv cfg s) (hlive : s.procs.Alive cfg c)
    (hat : CallAt cfg s c ph) :
    LockInv cfg (s.goto c ph) := by
  apply lockInv_of_callFrame hinv hlive (frame_goto cfg s c ph) rfl
    (phase_goto _ c _)
  · intro dir hdir
    have hok := hinv.dir dir hdir
    exact ⟨hok.serial, hok.started, hok.owner⟩
  · cases ph <;> exact hat

/-- The phases in which nothing is held. -/
def Phase.idle : Phase -> Bool
  | Phase.mkdirLock => true
  | Phase.statLock => true
  | Phase.poll => true
  | Phase.returned => true
  | Phase.threw => true
  | _ => false

theorem callAt_idle
    {cfg : LockConfig Call Proc} {s : LockState Call Proc} {c : Call}
    {ph : Phase}
    (hidle : ph.idle = true) (hmade : s.made c = none) :
    CallAt cfg s c ph := by
  cases ph <;> first
    | exact hmade
    | cases hidle

theorem lockInv_giveUp [DecidableEq Call]
    {cfg : LockConfig Call Proc} {s : LockState Call Proc} {c : Call}
    {ph : Phase}
    (hinv : LockInv cfg s) (hlive : s.procs.Alive cfg c)
    (hidle : ph.idle = true) :
    LockInv cfg ((s.giveUp c).goto c ph) := by
  have hframe : Frame cfg (fun e => e = c) s ((s.giveUp c).goto c ph) := by
    refine
      { later := ProcessTable.later_refl cfg s.procs
        phase := fun _ he => Function.update_of_ne he _ _
        made := fun _ he => Function.update_of_ne he _ _
        fresh := ?_
        serial := Nat.le_refl _
        lockDir := fun _ h => Or.inl h
        reap := fun _ h => Or.inl h }
    intro e n hmade
    by_cases he : e = c
    · simp [LockState.giveUp, LockState.goto, he] at hmade
    · apply Or.inl
      simpa [LockState.giveUp, LockState.goto, Function.update_of_ne he]
        using hmade
  apply lockInv_of_callFrame hinv hlive hframe rfl
    (phase_goto _ c _)
  · intro dir hdir
    have hok := hinv.dir dir hdir
    exact ⟨hok.serial, hok.started, hok.owner⟩
  · apply callAt_idle hidle
    simp [LockState.giveUp, LockState.goto]

/-!
## Steps that change the directory
-/

/-- Removing its own directory is safe for everyone else. -/
theorem lockInv_removeHeld [DecidableEq Call]
    {cfg : LockConfig Call Proc} {s : LockState Call Proc} {c : Call}
    {ph : Phase} {o : OwnerFile}
    (hinv : LockInv cfg s) (hlive : s.procs.Alive cfg c)
    (hholds : Holds s c o) (hidle : ph.idle = true) :
    LockInv cfg (({ s with lockDir := none }.giveUp c).goto c ph) := by
  have hframe : Frame cfg (fun e => e = c) s
      (({ s with lockDir := none }.giveUp c).goto c ph) := by
    refine
      { later := ProcessTable.later_refl cfg s.procs
        phase := fun _ he => Function.update_of_ne he _ _
        made := fun _ he => Function.update_of_ne he _ _
        fresh := ?_
        serial := Nat.le_refl _
        lockDir := ?_
        reap := fun _ h => Or.inl h }
    · intro e n hmade
      by_cases he : e = c
      · simp [LockState.giveUp, LockState.goto, he] at hmade
      · apply Or.inl
        simpa [LockState.giveUp, LockState.goto, Function.update_of_ne he]
          using hmade
    · intro dir hdir
      rcases hholds with ⟨dir', hdir', hmaker, hmade, _⟩
      rw [hdir] at hdir'
      cases hdir'
      apply Or.inr
      apply Or.inl
      rw [hmaker]
      exact ⟨rfl, hlive, hmade⟩
  apply lockInv_of_callFrame hinv hlive hframe rfl
    (phase_goto _ c _)
  · intro dir hdir
    cases hdir
  · apply callAt_idle hidle
    simp [LockState.giveUp, LockState.goto]

theorem lockInv_makeDir [DecidableEq Call]
    {cfg : LockConfig Call Proc} {s : LockState Call Proc} {c : Call}
    (ino : Nat)
    (hinv : LockInv cfg s) (hlive : s.procs.Alive cfg c)
    (hfree : s.lockDir = none) :
    LockInv cfg ((s.makeDir c ino).goto c Phase.writeOwner) := by
  have hframe : Frame cfg (fun e => e = c) s
      ((s.makeDir c ino).goto c Phase.writeOwner) := by
    refine
      { later := ProcessTable.later_refl cfg s.procs
        phase := fun _ he => Function.update_of_ne he _ _
        made := fun _ he => Function.update_of_ne he _ _
        fresh := ?_
        serial := Nat.le_succ _
        lockDir := ?_
        reap := fun _ h => Or.inl h }
    · intro e n hmade
      by_cases he : e = c
      · apply Or.inr
        simpa [LockState.makeDir, LockState.goto, he, eq_comm] using hmade
      · apply Or.inl
        simpa [LockState.makeDir, LockState.goto, Function.update_of_ne he]
          using hmade
    · intro dir hdir
      rw [hfree] at hdir
      cases hdir
  apply lockInv_of_callFrame hinv hlive hframe rfl
    (phase_goto _ c _)
  · intro dir hdir
    cases hdir
    refine ⟨Nat.lt_succ_self _, hinv.procs _ hlive, ?_⟩
    intro owner howner
    cases howner
  · refine ⟨_, rfl, rfl, ?_, rfl⟩
    simp [LockState.makeDir, LockState.goto]

/-- Writing into the directory it holds is safe for everyone else. -/
theorem lockInv_putOwner [DecidableEq Call]
    {cfg : LockConfig Call Proc} {s : LockState Call Proc} {c : Call}
    {dir : LockDir Call} {ph : Phase} {o : OwnerFile} (mtime : Nat)
    (hinv : LockInv cfg s) (hlive : s.procs.Alive cfg c)
    (hdir : s.lockDir = some dir) (hmaker : dir.maker = c)
    (hmade : s.made c = some dir.serial)
    (howner : forall owner, o = OwnerFile.owner owner ->
      owner = ownerOf cfg c)
    (hat : CallAt cfg ((s.putOwner { dir with mtime := mtime } o).goto c ph)
      c ph) :
    LockInv cfg ((s.putOwner { dir with mtime := mtime } o).goto c ph) := by
  have hframe : Frame cfg (fun e => e = c) s
      ((s.putOwner { dir with mtime := mtime } o).goto c ph) := by
    refine
      { later := ProcessTable.later_refl cfg s.procs
        phase := fun _ he => Function.update_of_ne he _ _
        made := fun _ _ => rfl
        fresh := fun _ _ h => Or.inl h
        serial := Nat.le_refl _
        lockDir := ?_
        reap := fun _ h => Or.inl h }
    intro dir' hdir'
    rw [hdir] at hdir'
    cases hdir'
    apply Or.inr
    apply Or.inl
    rw [hmaker]
    exact ⟨rfl, hlive, hmade⟩
  apply lockInv_of_callFrame hinv hlive hframe rfl
    (phase_goto _ c _)
  · intro dir' hdir'
    cases hdir'
    have hok := hinv.dir dir hdir
    refine ⟨hok.serial, hok.started, ?_⟩
    intro owner ho
    rw [howner owner ho, hmaker]
  · exact hat

/-- Renaming a directory that no live call holds is safe for everyone. -/
theorem lockInv_rename [DecidableEq Call]
    {cfg : LockConfig Call Proc} {s : LockState Call Proc} {c : Call}
    {next : AfterReap}
    (hinv : LockInv cfg s) (hlive : s.procs.Alive cfg c)
    (hmade : s.made c = none) (hreap : HoldsReap s c)
    (habandoned : forall dir, s.lockDir = some dir ->
      NotHeld cfg s dir.serial) :
    LockInv cfg ({ s with lockDir := none }.goto c (Phase.dropReap next)) := by
  have hframe : Frame cfg (fun e => e = c) s
      ({ s with lockDir := none }.goto c (Phase.dropReap next)) := by
    refine
      { later := ProcessTable.later_refl cfg s.procs
        phase := fun _ he => Function.update_of_ne he _ _
        made := fun _ _ => rfl
        fresh := fun _ _ h => Or.inl h
        serial := Nat.le_refl _
        lockDir := ?_
        reap := fun _ h => Or.inl h }
    intro dir hdir
    exact Or.inr (Or.inr ⟨habandoned dir hdir, c, rfl, hreap⟩)
  apply lockInv_of_callFrame hinv hlive hframe rfl
    (phase_goto _ c _)
  · intro dir hdir
    cases hdir
  · exact ⟨hmade, hreap⟩

/-!
## Steps that change the reap lock
-/

theorem lockInv_setReap [DecidableEq Call]
    {cfg : LockConfig Call Proc} {s : LockState Call Proc} {c : Call}
    {ph : Phase} (reap' : Option (ReapLock Call))
    (hinv : LockInv cfg s) (hlive : s.procs.Alive cfg c)
    (hreap : forall reap, s.reap = some reap ->
      reap.taker = c ∨ (s.procs.Alive cfg reap.taker ->
        (s.phase reap.taker).reaping = false))
    (hat : CallAt cfg { s with reap := reap' } c ph) :
    LockInv cfg ({ s with reap := reap' }.goto c ph) := by
  have hframe : Frame cfg (fun e => e = c) s
      ({ s with reap := reap' }.goto c ph) :=
    { later := ProcessTable.later_refl cfg s.procs
      phase := fun _ he => Function.update_of_ne he _ _
      made := fun _ _ => rfl
      fresh := fun _ _ h => Or.inl h
      serial := Nat.le_refl _
      lockDir := fun _ h => Or.inl h
      reap := fun reap h => Or.inr (hreap reap h) }
  apply lockInv_of_callFrame hinv hlive hframe rfl
    (phase_goto _ c _)
  · intro dir hdir
    have hok := hinv.dir dir hdir
    exact ⟨hok.serial, hok.started, hok.owner⟩
  · cases ph <;> exact hat

/-!
## One lemma for each operation

Each operation keeps the invariant when the call stands in its phase.
-/

section Operations

variable [DecidableEq Call] {cfg : LockConfig Call Proc}
  {s : LockState Call Proc} {c : Call} {ans : Answer}

theorem lockInv_stepMkdirLock
    (hinv : LockInv cfg s) (hlive : s.procs.Alive cfg c)
    (hat : CallAt cfg s c Phase.mkdirLock) :
    LockInv cfg (stepMkdirLock s c ans) := by
  have hmade : s.made c = none := hat
  unfold stepMkdirLock
  split
  · rename_i ino hfree
    exact lockInv_makeDir ino hinv hlive hfree
  · rename_i hfree
    exact lockInv_makeDir s.nextSerial hinv hlive hfree
  · exact lockInv_goto hinv hlive hmade
  · exact lockInv_goto hinv hlive hmade
  · exact lockInv_goto hinv hlive hmade

theorem lockInv_stepWriteOwner
    (hinv : LockInv cfg s) (hlive : s.procs.Alive cfg c)
    (hat : CallAt cfg s c Phase.writeOwner) :
    LockInv cfg (stepWriteOwner s c ans) := by
  have hholds : Holds s c OwnerFile.missing := hat
  rcases hat with ⟨dir, hdir, hmaker, hmade, howner⟩
  unfold stepWriteOwner
  split
  · exact lockInv_goto hinv hlive ⟨_, hholds⟩
  · exact lockInv_goto hinv hlive ⟨_, hholds⟩
  · rename_i dir' _ hdir'
    rw [hdir] at hdir'
    cases hdir'
    simp only [howner]
    apply lockInv_putOwner s.clock hinv hlive hdir hmaker hmade
    · intro owner ho
      cases ho
    · exact ⟨⟨_, rfl, hmaker, hmade, rfl⟩, hmade⟩

theorem lockInv_stepFillOwner
    {serial : Nat}
    (hinv : LockInv cfg s) (hlive : s.procs.Alive cfg c)
    (hat : CallAt cfg s c (Phase.fillOwner serial)) :
    LockInv cfg (stepFillOwner cfg s c serial ans) := by
  rcases hat with ⟨hholds, hserial⟩
  rcases hholds with ⟨dir, hdir, hmaker, hmade, howner⟩
  have hsame : dir.serial = serial := by
    rw [hmade] at hserial
    cases hserial
    rfl
  unfold stepFillOwner
  split
  · exact lockInv_goto hinv hlive ⟨_, dir, hdir, hmaker, hmade, howner⟩
  · exact lockInv_goto hinv hlive ⟨_, dir, hdir, hmaker, hmade, howner⟩
  · rename_i hnone
    rw [hdir] at hnone
    cases hnone
  · rename_i dir' _ _ hdir'
    rw [hdir] at hdir'
    cases hdir'
    rw [if_pos hsame]
    apply lockInv_putOwner dir.mtime hinv hlive hdir hmaker hmade
    · intro owner ho
      cases ho
      rfl
    · exact ⟨_, rfl, hmaker, hmade, rfl⟩

theorem lockInv_stepRemoveOwn
    {retry : Bool}
    (hinv : LockInv cfg s) (hlive : s.procs.Alive cfg c)
    (hat : CallAt cfg s c (Phase.removeOwn retry)) :
    LockInv cfg (stepRemoveOwn s c retry ans) := by
  rcases hat with ⟨o, hholds⟩
  have hidle : (afterRemoveOwn retry).idle = true := by
    cases retry <;> rfl
  unfold stepRemoveOwn
  split
  · exact lockInv_giveUp hinv hlive hidle
  · exact lockInv_removeHeld hinv hlive hholds hidle

theorem lockInv_stepStatLock
    (hinv : LockInv cfg s) (hlive : s.procs.Alive cfg c)
    (hat : CallAt cfg s c Phase.statLock) :
    LockInv cfg (stepStatLock s c ans) := by
  have hmade : s.made c = none := hat
  unfold stepStatLock
  split
  · exact lockInv_goto hinv hlive hmade
  · exact lockInv_goto hinv hlive hmade
  · exact lockInv_goto hinv hlive hmade

theorem lockInv_stepReadLockOwner
    {before : DirStat}
    (hinv : LockInv cfg s) (hlive : s.procs.Alive cfg c)
    (hat : CallAt cfg s c (Phase.readLockOwner before)) :
    LockInv cfg (stepReadLockOwner s c before ans) := by
  have hmade : s.made c = none := hat
  have hnone : CallAt cfg s c (Phase.judgeOwner before none) := by
    refine ⟨hmade, ?_⟩
    intro owner hobserved
    cases hobserved
  unfold stepReadLockOwner
  split
  · exact lockInv_goto hinv hlive hnone
  · exact lockInv_goto hinv hlive hnone
  · rename_i dir _ hdir
    apply lockInv_goto hinv hlive
    refine ⟨hmade, ?_⟩
    intro owner hobserved
    have hok := hinv.dir dir hdir
    cases hfile : dir.owner with
    | missing =>
        simp [hfile, OwnerFile.readOwner] at hobserved
    | unparseable =>
        simp [hfile, OwnerFile.readOwner] at hobserved
    | owner value =>
        simp only [hfile, OwnerFile.readOwner, Option.some.injEq] at hobserved
        exact ⟨dir.maker, hobserved ▸ hok.owner value hfile, hok.started⟩

omit [DecidableEq Call] in
/-- An observed owner that is judged stale has ended. -/
theorem staleTarget_of_judgedStale
    {before : DirStat} {observed : Option ThreadLockOwner}
    (hat : CallAt cfg s c (Phase.judgeOwner before observed))
    (hstale : judgedStale cfg s.procs before observed = true) :
    StaleTarget cfg s.procs observed := by
  intro owner hobserved
  rcases hat.right owner hobserved with ⟨d, howner, hstarted⟩
  refine ⟨d, howner, hstarted, ?_⟩
  intro hlive
  have hlooks := ProcessTable.ownerLooksLive_of_alive hlive
  rw [← howner] at hlooks
  simp [judgedStale, hobserved, hlooks] at hstale

theorem lockInv_stepJudgeOwner
    {before : DirStat} {observed : Option ThreadLockOwner}
    (hinv : LockInv cfg s) (hlive : s.procs.Alive cfg c)
    (hat : CallAt cfg s c (Phase.judgeOwner before observed)) :
    LockInv cfg (stepJudgeOwner cfg s c before observed) := by
  unfold stepJudgeOwner
  split
  · rename_i hstale
    exact lockInv_goto hinv hlive
      ⟨hat.left, staleTarget_of_judgedStale hat hstale⟩
  · exact lockInv_goto hinv hlive hat.left

theorem lockInv_stepTakeReap
    {before : DirStat} {observed : Option ThreadLockOwner}
    (hinv : LockInv cfg s) (hlive : s.procs.Alive cfg c)
    (hat : CallAt cfg s c (Phase.takeReap before observed)) :
    LockInv cfg (stepTakeReap s c before observed ans) := by
  have hfree : s.reap = none -> forall reap, s.reap = some reap ->
      reap.taker = c ∨ (s.procs.Alive cfg reap.taker ->
        (s.phase reap.taker).reaping = false) := by
    intro hnone reap hreap
    rw [hnone] at hreap
    cases hreap
  unfold stepTakeReap
  split
  · exact lockInv_goto hinv hlive hat.left
  · exact lockInv_goto hinv hlive hat.left
  · rename_i hnone
    exact lockInv_setReap _ hinv hlive (hfree hnone) hat.left
  · rename_i hnone
    exact lockInv_setReap _ hinv hlive (hfree hnone)
      ⟨hat.left, ⟨_, rfl, rfl⟩, hat.right⟩

theorem lockInv_stepStatReap
    (hinv : LockInv cfg s) (hlive : s.procs.Alive cfg c)
    (hat : CallAt cfg s c Phase.statReap) :
    LockInv cfg (stepStatReap s c ans) := by
  have hmade : s.made c = none := hat
  unfold stepStatReap
  split
  · exact lockInv_goto hinv hlive hmade
  · exact lockInv_goto hinv hlive hmade
  · split
    · exact lockInv_goto hinv hlive hmade
    · exact lockInv_goto hinv hlive hmade

theorem lockInv_stepRemoveReap
    (hinv : LockInv cfg s) (hlive : s.procs.Alive cfg c)
    (hat : CallAt cfg s c Phase.removeReap)
    (hphase : s.phase c = Phase.removeReap)
    (hfrees : AgeFreesReapLock cfg s c) :
    LockInv cfg (stepRemoveReap s c ans) := by
  have hmade : s.made c = none := hat
  unfold stepRemoveReap
  split
  · exact lockInv_goto hinv hlive hmade
  · apply lockInv_setReap none hinv hlive
    · intro reap hreap
      exact Or.inr (hfrees hphase reap hreap)
    · exact hmade

/-- The identity check finds a directory that no live call holds when no owner
was observed. -/
theorem lockInv_stepRestat
    {before : DirStat} {observed : Option ThreadLockOwner}
    (hinv : LockInv cfg s) (hlive : s.procs.Alive cfg c)
    (hat : CallAt cfg s c (Phase.restat before observed))
    (hphase : s.phase c = Phase.restat before observed)
    (hrecheck : RecheckFindsAbandoned cfg s c) :
    LockInv cfg (stepRestat s c before observed ans) := by
  rcases hat with ⟨hmade, hreap, hstale⟩
  unfold stepRestat
  split
  · exact lockInv_goto hinv hlive ⟨hmade, hreap⟩
  · exact lockInv_goto hinv hlive ⟨hmade, hreap⟩
  · rename_i dir _ hdir
    split
    · rename_i hino
      cases observed with
      | none =>
          exact lockInv_goto hinv hlive
            ⟨hmade, hreap, dir, hdir, hrecheck before dir hphase hdir hino⟩
      | some owner =>
          exact lockInv_goto hinv hlive ⟨hmade, hreap, hstale owner rfl⟩
    · exact lockInv_goto hinv hlive ⟨hmade, hreap⟩

omit [DecidableEq Call] in
theorem holds_of_made
    {n : Nat}
    (hinv : LockInv cfg s) (hlive : s.procs.Alive cfg c)
    (hmade : s.made c = some n) :
    exists o, Holds s c o := by
  have hat := hinv.calls c hlive
  cases hphase : s.phase c <;> rw [hphase] at hat <;> first
    | exact ⟨_, hat⟩
    | exact ⟨_, hat.left⟩
    | exact hat
    | exact absurd (hmade.symm.trans hat) (by simp)
    | exact absurd (hmade.symm.trans hat.left) (by simp)

omit [DecidableEq Call] in
/-- The second read finds the directory of a call whose process has ended. -/
theorem notHeld_of_sameOwner
    {dir : LockDir Call} {current observed : ThreadLockOwner}
    (hinv : LockInv cfg s) (hended : OwnerEnded cfg s.procs observed)
    (hdir : s.lockDir = some dir)
    (hread : dir.owner.readOwner = some current)
    (hsame : sameOwner current observed = true) :
    NotHeld cfg s dir.serial := by
  have hfile : dir.owner = OwnerFile.owner current := by
    cases howner : dir.owner <;>
      simp_all [OwnerFile.readOwner]
  have hcurrent := (hinv.dir dir hdir).owner current hfile
  rcases hended with ⟨d, hobserved, _, hdead⟩
  have hop : current.operationId = observed.operationId := by
    simp only [sameOwner, Bool.and_eq_true, decide_eq_true_eq] at hsame
    exact hsame.left
  have hmaker : dir.maker = d := by
    apply cfg.operationId_injective
    rw [hcurrent, hobserved] at hop
    exact hop
  intro e halive hmade
  rcases holds_of_made hinv halive hmade with ⟨o, dir', hdir', hmaker', _, _⟩
  rw [hdir] at hdir'
  cases hdir'
  rw [hmaker] at hmaker'
  exact hdead (hmaker' ▸ halive)

theorem lockInv_stepReread
    {observed : ThreadLockOwner}
    (hinv : LockInv cfg s) (hlive : s.procs.Alive cfg c)
    (hat : CallAt cfg s c (Phase.reread observed)) :
    LockInv cfg (stepReread s c observed ans) := by
  rcases hat with ⟨hmade, hreap, hended⟩
  unfold stepReread
  split
  · exact lockInv_goto hinv hlive ⟨hmade, hreap⟩
  · exact lockInv_goto hinv hlive ⟨hmade, hreap⟩
  · rename_i current _ hread
    split
    · rename_i hsame
      rcases Option.bind_eq_some_iff.mp hread with ⟨dir, hdir, howner⟩
      apply lockInv_goto hinv hlive
      exact ⟨hmade, hreap, dir, hdir,
        notHeld_of_sameOwner hinv hended hdir howner hsame⟩
    · exact lockInv_goto hinv hlive ⟨hmade, hreap⟩

theorem lockInv_stepRenameLock
    (hinv : LockInv cfg s) (hlive : s.procs.Alive cfg c)
    (hat : CallAt cfg s c Phase.renameLock) :
    LockInv cfg (stepRenameLock s c ans) := by
  rcases hat with ⟨hmade, hreap, dir, hdir, hnot⟩
  unfold stepRenameLock
  split
  · exact lockInv_goto hinv hlive ⟨hmade, hreap⟩
  · apply lockInv_rename hinv hlive hmade hreap
    intro dir' hdir'
    rw [hdir] at hdir'
    cases hdir'
    exact hnot

theorem lockInv_stepDropReap
    {next : AfterReap}
    (hinv : LockInv cfg s) (hlive : s.procs.Alive cfg c)
    (hat : CallAt cfg s c (Phase.dropReap next)) :
    LockInv cfg (stepDropReap s c next ans) := by
  have hidle : next.phase.idle = true := by
    cases next <;> rfl
  rcases hat with ⟨hmade, reap, hreap, htaker⟩
  unfold stepDropReap
  split
  · exact lockInv_goto hinv hlive (callAt_idle hidle hmade)
  · apply lockInv_setReap none hinv hlive
    · intro reap' hreap'
      rw [hreap] at hreap'
      cases hreap'
      exact Or.inl htaker
    · exact callAt_idle hidle hmade

theorem lockInv_stepPoll
    (hinv : LockInv cfg s) (hlive : s.procs.Alive cfg c)
    (hat : CallAt cfg s c Phase.poll) :
    LockInv cfg (stepPoll s c ans) := by
  have hmade : s.made c = none := hat
  unfold stepPoll
  split
  · exact lockInv_goto hinv hlive hmade
  · exact lockInv_goto hinv hlive hmade

theorem lockInv_stepStatOwn
    (hinv : LockInv cfg s) (hlive : s.procs.Alive cfg c)
    (hat : CallAt cfg s c Phase.statOwn) :
    LockInv cfg (stepStatOwn s c ans) := by
  unfold stepStatOwn
  split
  · exact lockInv_goto hinv hlive hat
  · exact lockInv_goto hinv hlive hat

theorem lockInv_stepReadRelease
    {acquired : Option Nat} {attempt : Nat}
    (hinv : LockInv cfg s) (hlive : s.procs.Alive cfg c)
    (hat : CallAt cfg s c (Phase.readRelease acquired attempt)) :
    LockInv cfg (stepReadRelease cfg s c acquired attempt ans) := by
  unfold stepReadRelease
  split
  · split
    · exact lockInv_goto hinv hlive hat
    · exact lockInv_giveUp hinv hlive rfl
  · exact lockInv_giveUp hinv hlive rfl
  · split
    · cases acquired with
      | none =>
          exact lockInv_goto hinv hlive hat
      | some ino =>
          exact lockInv_goto hinv hlive hat
    · exact lockInv_giveUp hinv hlive rfl

theorem lockInv_stepStatRelease
    {acquired : Nat}
    (hinv : LockInv cfg s) (hlive : s.procs.Alive cfg c)
    (hat : CallAt cfg s c (Phase.statRelease acquired)) :
    LockInv cfg (stepStatRelease s c acquired ans) := by
  unfold stepStatRelease
  split
  · exact lockInv_giveUp hinv hlive rfl
  · exact lockInv_giveUp hinv hlive rfl
  · split
    · exact lockInv_goto hinv hlive hat
    · exact lockInv_giveUp hinv hlive rfl

theorem lockInv_stepRemoveRelease
    (hinv : LockInv cfg s) (hlive : s.procs.Alive cfg c)
    (hat : CallAt cfg s c Phase.removeRelease) :
    LockInv cfg (stepRemoveRelease s c ans) := by
  unfold stepRemoveRelease
  split
  · exact lockInv_giveUp hinv hlive rfl
  · exact lockInv_removeHeld hinv hlive hat rfl

/-!
## Every step and every run
-/

theorem lockInv_callStep
    {s' : LockState Call Proc}
    (hinv : LockInv cfg s) (hlive : s.procs.Alive cfg c)
    (hdisc : Disciplined cfg s (LockLabel.call c ans))
    (hstep : callStep cfg s c ans = some s') :
    LockInv cfg s' := by
  have hat := hinv.calls c hlive
  rcases hdisc with ⟨hrecheck, hfrees⟩
  unfold callStep at hstep
  cases hphase : s.phase c <;> rw [hphase] at hat <;>
    simp only [hphase, Option.some.injEq] at hstep
  case mkdirLock => exact hstep ▸ lockInv_stepMkdirLock hinv hlive hat
  case writeOwner => exact hstep ▸ lockInv_stepWriteOwner hinv hlive hat
  case fillOwner => exact hstep ▸ lockInv_stepFillOwner hinv hlive hat
  case removeOwn => exact hstep ▸ lockInv_stepRemoveOwn hinv hlive hat
  case statLock => exact hstep ▸ lockInv_stepStatLock hinv hlive hat
  case readLockOwner => exact hstep ▸ lockInv_stepReadLockOwner hinv hlive hat
  case judgeOwner => exact hstep ▸ lockInv_stepJudgeOwner hinv hlive hat
  case takeReap => exact hstep ▸ lockInv_stepTakeReap hinv hlive hat
  case statReap => exact hstep ▸ lockInv_stepStatReap hinv hlive hat
  case removeReap =>
    exact hstep ▸ lockInv_stepRemoveReap hinv hlive hat hphase hfrees
  case restat =>
    exact hstep ▸ lockInv_stepRestat hinv hlive hat hphase hrecheck
  case reread => exact hstep ▸ lockInv_stepReread hinv hlive hat
  case renameLock => exact hstep ▸ lockInv_stepRenameLock hinv hlive hat
  case dropReap => exact hstep ▸ lockInv_stepDropReap hinv hlive hat
  case poll => exact hstep ▸ lockInv_stepPoll hinv hlive hat
  case statOwn => exact hstep ▸ lockInv_stepStatOwn hinv hlive hat
  case critical => exact hstep ▸ lockInv_goto hinv hlive hat
  case readRelease => exact hstep ▸ lockInv_stepReadRelease hinv hlive hat
  case statRelease => exact hstep ▸ lockInv_stepStatRelease hinv hlive hat
  case removeRelease => exact hstep ▸ lockInv_stepRemoveRelease hinv hlive hat
  case returned => cases hstep
  case threw => cases hstep

omit [DecidableEq Call] in
/-- Time, starts and crashes move no call. -/
theorem lockInv_environment
    {s' : LockState Call Proc}
    (hinv : LockInv cfg s)
    (hlater : ProcessTable.Later cfg s.procs s'.procs)
    (hprocs : s'.procs.Ok cfg)
    (hlockDir : s'.lockDir = s.lockDir) (hreap : s'.reap = s.reap)
    (hphase : s'.phase = s.phase) (hmade : s'.made = s.made)
    (hserial : s'.nextSerial = s.nextSerial) :
    LockInv cfg s' := by
  have hframe : Frame cfg (fun _ => False) s s' := by
    refine
      { later := hlater
        phase := fun e _ => congrFun hphase e
        made := fun e _ => congrFun hmade e
        fresh := ?_
        serial := Nat.le_of_eq hserial.symm
        lockDir := fun dir h => Or.inl (hlockDir.trans h)
        reap := fun reap h => Or.inl (hreap.trans h) }
    intro e n hn
    rw [hmade] at hn
    exact Or.inl hn
  apply lockInv_of_frame hinv hframe hprocs
  · intro dir hdir
    rw [hlockDir] at hdir
    have hok := hinv.dir dir hdir
    refine ⟨?_, hlater.started _ hok.started, hok.owner⟩
    rw [hserial]
    exact hok.serial
  · intro e he
    cases he
  · intro e he
    cases he

theorem lockInv_next [DecidableEq Proc]
    {s' : LockState Call Proc} {l : LockLabel Call Proc}
    (hinv : LockInv cfg s) (hdisc : Disciplined cfg s l)
    (hstep : lockNext cfg s l = some s') :
    LockInv cfg s' := by
  cases l with
  | tick ms =>
      cases hstep
      exact lockInv_environment hinv (ProcessTable.later_refl cfg s.procs)
        hinv.procs rfl rfl rfl rfl rfl
  | spawn p =>
      rcases Option.map_eq_some_iff.mp hstep with ⟨procs, hspawn, hs'⟩
      cases hs'
      exact lockInv_environment hinv (ProcessTable.later_spawn hspawn)
        (ProcessTable.ok_spawn hinv.procs hspawn) rfl rfl rfl rfl rfl
  | crash p =>
      rcases Option.map_eq_some_iff.mp hstep with ⟨procs, hcrash, hs'⟩
      cases hs'
      exact lockInv_environment hinv (ProcessTable.later_crash hcrash)
        (ProcessTable.ok_crash hinv.procs hcrash) rfl rfl rfl rfl rfl
  | call c ans =>
      simp only [lockNext] at hstep
      split at hstep
      · rename_i hlive
        exact lockInv_callStep hinv hlive hdisc hstep
      · cases hstep

theorem lockInv_reachable [DecidableEq Proc]
    (hreach : ((lockSystem cfg).Restrict (Disciplined cfg)).Reachable s) :
    LockInv cfg s := by
  apply TransitionSystem.reachable_induction _ _ hreach
  · intro s0 hs0
    cases hs0
    exact lockInv_initial cfg
  · intro s0 l s' _ hinv hstep
    exact lockInv_next hinv hstep.left hstep.right

omit [DecidableEq Call] in
theorem holds_of_inside
    (hinv : LockInv cfg s) (hinside : Inside cfg s c) :
    Holds s c (OwnerFile.owner (ownerOf cfg c)) := by
  have hat := hinv.calls c hinside.left
  have hin := hinside.right
  cases hphase : s.phase c <;> rw [hphase] at hin hat <;> first
    | exact hat
    | cases hin

/-- In every run whose steps keep to the discipline, at most one live call is
inside the critical section, and a release removes its own directory. -/
theorem withThreadLock_excludes [DecidableEq Proc]
    (hreach : ((lockSystem cfg).Restrict (Disciplined cfg)).Reachable s) :
    MutualExclusion cfg s ∧ ReleasesOwn cfg s := by
  have hinv := lockInv_reachable hreach
  constructor
  · intro c d hc hd
    exact holds_unique (holds_of_inside hinv hc) (holds_of_inside hinv hd)
  · intro c dir hlive hphase hdir
    have hat := hinv.calls c hlive
    rw [hphase] at hat
    rcases hat with ⟨dir', hdir', _, _, howner⟩
    rw [hdir] at hdir'
    cases hdir'
    exact howner

end Operations

/-!
## Recovery by owner

A step that neither rechecks a directory without a readable owner nor steals a
reap lock is disciplined.
-/

def actsOnOwner (s : LockState Call Proc) : LockLabel Call Proc -> Bool
  | LockLabel.call c _ =>
      match s.phase c with
      | Phase.removeReap => false
      | Phase.restat _ none => false
      | _ => true
  | _ => true

theorem disciplined_of_actsOnOwner
    (cfg : LockConfig Call Proc) (s : LockState Call Proc)
    (l : LockLabel Call Proc) (h : actsOnOwner s l = true) :
    Disciplined cfg s l := by
  cases l with
  | call c ans =>
      constructor
      · intro before dir hphase _ _
        simp [actsOnOwner, hphase] at h
      · intro hphase
        simp [actsOnOwner, hphase] at h
  | _ =>
      exact True.intro

end Promises

/-!
## Two calls

`false` and `true` are the calls of two processes.
-/

def twoCalls : LockConfig Bool Bool where
  proc := id
  pid := fun p => if p then 2 else 1
  pid_pos := by decide
  startMarker := fun p => if p then some "200" else some "100"
  operationId := fun c => if c then "second" else "first"
  operationId_ne := by decide
  operationId_injective := by
    intro c d h
    cases c <;> cases d <;> first
      | rfl
      | exact absurd h (by decide)
  acquiredAt := fun _ => "2026-01-01T00:00:00.000Z"
  staleMs := 120000

/-- The given number of successful steps of one call. -/
def steps (c : Bool) (n : Nat) : List (LockLabel Bool Bool) :=
  List.replicate n (LockLabel.call c Answer.ok)

/-- The first call crashes inside, and the second recovers the lock. -/
def handover : List (LockLabel Bool Bool) :=
  [LockLabel.spawn false] ++ steps false 4 ++
    [LockLabel.crash false, LockLabel.spawn true] ++ steps true 13

def handoverState : LockState Bool Bool :=
  (TransitionSystem.execWhere (lockNext twoCalls) actsOnOwner initialLockState
    handover).getD initialLockState

theorem reachable_handoverState :
    ((lockSystem twoCalls).Restrict (Disciplined twoCalls)).Reachable
      handoverState := by
  refine ⟨initialLockState, handover, rfl, ?_⟩
  apply TransitionSystem.run_of_execWhere
    (disciplined_of_actsOnOwner twoCalls)
  rfl

theorem withThreadLock_excludes_handover :
    Inside twoCalls handoverState true ∧
      MutualExclusion twoCalls handoverState ∧
      ReleasesOwn twoCalls handoverState := by
  refine ⟨?_, withThreadLock_excludes reachable_handoverState⟩
  exact ⟨by decide, by decide⟩

/-- The first call stalls between `mkdir` and the owner write for longer than
the stale threshold.  The second recovers the ownerless directory and enters;
the first resumes, finds an owner, removes the path and enters as well. -/
def stalledMaker : List (LockLabel Bool Bool) :=
  [LockLabel.spawn false, LockLabel.spawn true] ++ steps false 1 ++
    [LockLabel.tick 120001] ++ steps true 12 ++ steps false 7

def stalledMakerState : LockState Bool Bool :=
  (TransitionSystem.exec (lockNext twoCalls) initialLockState
    stalledMaker).getD initialLockState

theorem reachable_stalledMakerState :
    (lockSystem twoCalls).Reachable stalledMakerState := by
  refine ⟨initialLockState, stalledMaker, rfl, ?_⟩
  apply TransitionSystem.run_of_exec
  rfl

theorem withThreadLock_not_exclusive :
    ¬ forall s, (lockSystem twoCalls).Reachable s ->
      MutualExclusion twoCalls s ∧ ReleasesOwn twoCalls s := by
  intro hall
  have hexcl := (hall stalledMakerState reachable_stalledMakerState).left
  have hboth : false = true := by
    apply hexcl false true
    · exact ⟨by decide, by decide⟩
    · exact ⟨by decide, by decide⟩
  cases hboth

end Lock
end Minni
