import Minni.Daemon.CompileHandler

/-!
# The consolidation lock is given back

In every run in which each call that holds the lock gets past the three exits
before the `try`, the lock is held by a running wet consolidation or by nobody.
An exit of a call that holds the lock keeps it locked for good.
-/

namespace Minni
namespace Daemon

open Foundation
open TransitionSystem

/-!
## The law
-/

namespace CompilePhase

/-- What the call was asked, while it is between its entry and its return. -/
def running : CompilePhase -> Option CompileParams
  | idle => none
  | entered params => some params
  | authorizing params _ => some params
  | guarding params _ => some params
  | checkingLoop params _ => some params
  | trying params _ => some params
  | finishing params _ _ => some params
  | returned _ => none

def holdsLock : CompilePhase -> Bool
  | authorizing _ held => held
  | guarding _ held => held
  | checkingLoop _ held => held
  | trying _ held => held
  | finishing _ held _ => held
  | _ => false

def RunsWet (phase : CompilePhase) : Prop :=
  exists params, phase.running = some params ∧
    params.isWetConsolidation = true

end CompilePhase

section Law

variable {Call : Type} [DecidableEq Call]

/-- The lock is free, or held by a call that still runs, and an answer `busy`
is given only while another wet consolidation runs. -/
structure LockGivenBack (defaultVault : String) (s : CompileState Call) :
    Prop where
  held : forall c, s.lock = some c -> (s.phase c).RunsWet
  busy : forall l s' c, compileNext defaultVault s l = some s' ->
    s.phase c ≠ CompilePhase.returned CompileReply.busy ->
    s'.phase c = CompilePhase.returned CompileReply.busy ->
    exists d, d ≠ c ∧ (s.phase d).RunsWet

/-!
## The condition
-/

/-- Each check that a call makes while it holds the lock lets it go on: the
stamp is an operator's, its roots allow the vault, and the loop is enabled. -/
def passesChecks (defaultVault : String) (s : CompileState Call) :
    CompileLabel Call -> Bool
  | CompileLabel.authorize c =>
      match s.phase c with
      | CompilePhase.authorizing params true =>
          params.principal.any isOperatorPrincipal
      | _ => true
  | CompileLabel.guardRoot c resolve _ =>
      match s.phase c with
      | CompilePhase.guarding params true =>
          params.principal.any
            (·.allowsVaultRoot resolve (params.vaultPath defaultVault))
      | _ => true
  | CompileLabel.checkLoop c enabled =>
      match s.phase c with
      | CompilePhase.checkingLoop _ true => enabled
      | _ => true
  | _ => true

theorem operatorGate_passes
    {params : CompileParams}
    (h : params.principal.any isOperatorPrincipal = true) :
    operatorGate params = none := by
  rcases (Option.any_eq_true _ _).mp h with ⟨stamped, hstamped, hoperator⟩
  simp [operatorGate, hstamped, hoperator]

theorem guardVaultRoot_passes
    {params : CompileParams} {resolve : EffectivePrincipal.Resolver}
    {resolved : Option String -> ResolvedPrincipal} {path label : String}
    (h : params.principal.any (·.allowsVaultRoot resolve path) = true) :
    guardVaultRoot resolve resolved params path label = none := by
  rcases (Option.any_eq_true _ _).mp h with ⟨stamped, hstamped, hallowed⟩
  simp [guardVaultRoot, handlerPrincipal, hstamped, hallowed]

/-!
## The invariant
-/

/-- Exactly the call that the lock names is past its acquisition and before
its return, and it is a wet consolidation. -/
structure LockNamed (s : CompileState Call) : Prop where
  named : forall c, s.lock = some c <-> (s.phase c).holdsLock = true
  wet : forall c, (s.phase c).holdsLock = true -> (s.phase c).RunsWet

/-- A call that moves on without touching the lock. -/
theorem lockNamed_goto
    {s : CompileState Call} {c : Call} {phase : CompilePhase}
    (hs : LockNamed s)
    (hheld : phase.holdsLock = (s.phase c).holdsLock)
    (hrunning : phase.holdsLock = true ->
      phase.running = (s.phase c).running) :
    LockNamed (s.goto c phase) := by
  constructor
  · intro d
    by_cases hd : d = c
    · rw [hd, CompileState.goto_phase_self, hheld]
      exact hs.named c
    · rw [CompileState.goto_phase_other s phase hd]
      exact hs.named d
  · intro d hholds
    by_cases hd : d = c
    · rw [hd, CompileState.goto_phase_self] at hholds ⊢
      have hwet := hs.wet c (hheld ▸ hholds)
      rcases hwet with ⟨params, hparams, hwet⟩
      exact ⟨params, (hrunning hholds).trans hparams, hwet⟩
    · rw [CompileState.goto_phase_other s phase hd] at hholds ⊢
      exact hs.wet d hholds

/-- A call that takes the free lock. -/
theorem lockNamed_taken
    {s : CompileState Call} {c : Call} {params : CompileParams}
    (hs : LockNamed s) (hfree : s.lock = none)
    (hwet : params.isWetConsolidation = true) :
    LockNamed
      (CompileState.goto { s with lock := some c } c
        (CompilePhase.authorizing params true)) := by
  constructor
  · intro d
    by_cases hd : d = c
    · rw [hd, CompileState.goto_phase_self]
      simp [CompilePhase.holdsLock]
    · rw [CompileState.goto_phase_other _ _ hd]
      constructor
      · intro hlock
        exact absurd (Option.some.inj hlock).symm hd
      · intro hholds
        have hother := (hs.named d).mpr hholds
        rw [hfree] at hother
        cases hother
  · intro d hholds
    by_cases hd : d = c
    · rw [hd, CompileState.goto_phase_self]
      exact ⟨params, rfl, hwet⟩
    · rw [CompileState.goto_phase_other _ _ hd] at hholds ⊢
      exact hs.wet d hholds

/-- The `finally` of the call that holds the lock. -/
theorem lockNamed_released
    {s : CompileState Call} {c : Call} {reply : CompileReply}
    (hs : LockNamed s) (hholds : (s.phase c).holdsLock = true) :
    LockNamed
      (CompileState.goto { s with lock := none } c
        (CompilePhase.returned reply)) := by
  have hlock := (hs.named c).mpr hholds
  constructor
  · intro d
    by_cases hd : d = c
    · rw [hd, CompileState.goto_phase_self]
      simp [CompilePhase.holdsLock]
    · rw [CompileState.goto_phase_other _ _ hd]
      constructor
      · intro hnone
        cases hnone
      · intro hother
        have hsame := (hs.named d).mpr hother
        rw [hlock] at hsame
        exact absurd (Option.some.inj hsame).symm hd
  · intro d hother
    by_cases hd : d = c
    · rw [hd, CompileState.goto_phase_self] at hother
      cases hother
    · rw [CompileState.goto_phase_other _ _ hd] at hother ⊢
      exact hs.wet d hother

omit [DecidableEq Call] in
theorem lockNamed_initial (s : CompileState Call)
    (h : s = { lock := none, phase := fun _ => CompilePhase.idle }) :
    LockNamed s := by
  rw [h]
  constructor
  · intro c
    simp [CompilePhase.holdsLock]
  · intro c hholds
    cases hholds

/-!
## One step
-/

theorem lockNamed_acquire
    {s : CompileState Call} {c : Call} {params : CompileParams}
    (hs : LockNamed s) (hphase : s.phase c = CompilePhase.entered params) :
    LockNamed (stepAcquire s c params) := by
  unfold stepAcquire
  split
  · apply lockNamed_goto hs
    · rw [hphase]
      rfl
    · intro hholds
      cases hholds
  split
  · rename_i hwet
    cases hlock : s.lock with
    | some d =>
        apply lockNamed_goto hs
        · rw [hphase]
          rfl
        · intro hholds
          cases hholds
    | none =>
        exact lockNamed_taken hs hlock hwet
  · apply lockNamed_goto hs
    · rw [hphase]
      rfl
    · intro hholds
      cases hholds

/-- An exit before the `try`: only a call without the lock takes it. -/
theorem lockNamed_exitOr
    {s : CompileState Call} {c : Call} {exit : Option CompileReply}
    {next : CompilePhase} (hs : LockNamed s)
    (hexit : (s.phase c).holdsLock = true -> exit = none)
    (hheld : next.holdsLock = (s.phase c).holdsLock)
    (hrunning : next.running = (s.phase c).running) :
    LockNamed (exitOr s c exit next) := by
  cases exit with
  | none =>
      exact lockNamed_goto hs hheld fun _ => hrunning
  | some reply =>
      apply lockNamed_goto hs
      · cases hholds : (s.phase c).holdsLock with
        | true => cases hexit hholds
        | false => rfl
      · intro hholds
        cases hholds

theorem lockNamed_step
    {defaultVault : String} {s s' : CompileState Call}
    {l : CompileLabel Call} (hs : LockNamed s)
    (hpasses : passesChecks defaultVault s l = true)
    (hstep : compileNext defaultVault s l = some s') :
    LockNamed s' := by
  cases l with
  | call c params =>
      simp only [compileNext] at hstep
      split at hstep
      · rename_i hphase
        cases hstep
        apply lockNamed_goto hs
        · rw [hphase]
          rfl
        · intro hholds
          cases hholds
      · cases hstep
  | acquire c =>
      simp only [compileNext] at hstep
      split at hstep
      · rename_i params hphase
        cases hstep
        exact lockNamed_acquire hs hphase
      · cases hstep
  | authorize c =>
      simp only [compileNext] at hstep
      split at hstep
      · rename_i params held hphase
        cases hstep
        apply lockNamed_exitOr hs
        · intro hholds
          rw [hphase] at hholds
          cases hholds
          simp only [passesChecks, hphase] at hpasses
          exact operatorGate_passes hpasses
        · rw [hphase]
          rfl
        · rw [hphase]
          rfl
      · cases hstep
  | guardRoot c resolve resolved =>
      simp only [compileNext] at hstep
      split at hstep
      · rename_i params held hphase
        cases hstep
        apply lockNamed_exitOr hs
        · intro hholds
          rw [hphase] at hholds
          cases hholds
          simp only [passesChecks, hphase] at hpasses
          exact guardVaultRoot_passes hpasses
        · rw [hphase]
          rfl
        · rw [hphase]
          rfl
      · cases hstep
  | checkLoop c enabled =>
      simp only [compileNext] at hstep
      split at hstep
      · rename_i params held hphase
        cases hstep
        apply lockNamed_exitOr hs
        · intro hholds
          rw [hphase] at hholds
          cases hholds
          simp only [passesChecks, hphase] at hpasses
          simp [hpasses]
        · rw [hphase]
          rfl
        · rw [hphase]
          rfl
      · cases hstep
  | runPass c outcome =>
      simp only [compileNext] at hstep
      split at hstep
      · rename_i params held hphase
        cases hstep
        apply lockNamed_goto hs
        · rw [hphase]
          rfl
        · intro _
          rw [hphase]
          rfl
      · cases hstep
  | finish c =>
      simp only [compileNext] at hstep
      split at hstep
      · rename_i params held outcome hphase
        cases hstep
        cases held with
        | true =>
            apply lockNamed_released hs
            rw [hphase]
            rfl
        | false =>
            apply lockNamed_goto hs
            · rw [hphase]
              rfl
            · intro hholds
              cases hholds
      · cases hstep

/-!
## Who answers `busy`
-/

theorem operatorGate_not_busy
    {params : CompileParams} :
    operatorGate params ≠ some CompileReply.busy := by
  unfold operatorGate
  split
  · intro h
    cases h
  split
  · intro h
    cases h
  split
  · intro h
    cases h
  · intro h
    cases h

theorem guardVaultRoot_not_busy
    {params : CompileParams} {resolve : EffectivePrincipal.Resolver}
    {resolved : Option String -> ResolvedPrincipal} {path label : String} :
    guardVaultRoot resolve resolved params path label ≠
      some CompileReply.busy := by
  unfold guardVaultRoot
  cases handlerPrincipal resolved params with
  | mismatch supplied stamped =>
      intro h
      cases h
  | raised reason =>
      intro h
      cases h
  | principal p =>
      show (if _ then _ else _) ≠ _
      split
      · intro h
        cases h
      · intro h
        cases h

theorem passReply_not_busy
    {params : CompileParams} {outcome : PassOutcome} :
    passReply params outcome ≠ CompileReply.busy := by
  unfold passReply
  split
  · cases outcome with
    | finished status =>
        intro h
        cases h
    | raised writeFault reason =>
        cases writeFault with
        | true =>
            intro h
            have hstatus := (CompileReply.response.inj h).left
            revert hstatus
            decide
        | false =>
            intro h
            have hstatus := (CompileReply.response.inj h).left
            revert hstatus
            decide
  · intro h
    cases h

/-- The call `d` answers `busy` in the step from `s` to `s'`. -/
def TurnsBusy (s s' : CompileState Call) (d : Call) : Prop :=
  s.phase d ≠ CompilePhase.returned CompileReply.busy ∧
    s'.phase d = CompilePhase.returned CompileReply.busy

omit [DecidableEq Call] in
theorem not_turnsBusy_same
    {s s' : CompileState Call} {d : Call} (h : s'.phase d = s.phase d) :
    ¬ TurnsBusy s s' d := by
  intro hbusy
  exact hbusy.left (h ▸ hbusy.right)

theorem not_turnsBusy_goto
    {s t : CompileState Call} {c d : Call} {phase : CompilePhase}
    (ht : t.phase = s.phase)
    (h : phase ≠ CompilePhase.returned CompileReply.busy) :
    ¬ TurnsBusy s (t.goto c phase) d := by
  intro hbusy
  by_cases hd : d = c
  · apply h
    have hphase := hbusy.right
    rw [hd, CompileState.goto_phase_self] at hphase
    exact hphase
  · apply not_turnsBusy_same _ hbusy
    rw [CompileState.goto_phase_other t phase hd, ht]

theorem not_turnsBusy_exitOr
    {s : CompileState Call} {c d : Call} {exit : Option CompileReply}
    {next : CompilePhase} (hexit : exit ≠ some CompileReply.busy)
    (hnext : next ≠ CompilePhase.returned CompileReply.busy) :
    ¬ TurnsBusy s (exitOr s c exit next) d := by
  cases exit with
  | none =>
      exact not_turnsBusy_goto rfl hnext
  | some reply =>
      apply not_turnsBusy_goto rfl
      intro h
      apply hexit
      rw [CompilePhase.returned.inj h]

/-- Only a failed acquisition answers `busy`. -/
theorem turnsBusy_step
    {defaultVault : String} {s s' : CompileState Call}
    {l : CompileLabel Call} {d : Call}
    (hstep : compileNext defaultVault s l = some s')
    (hbusy : TurnsBusy s s' d) :
    (s.phase d).holdsLock = false ∧ exists c, s.lock = some c := by
  cases l with
  | call c params =>
      simp only [compileNext] at hstep
      split at hstep
      · cases hstep
        apply absurd hbusy
        apply not_turnsBusy_goto rfl
        intro h
        cases h
      · cases hstep
  | acquire c =>
      simp only [compileNext] at hstep
      split at hstep
      · rename_i params hphase
        cases hstep
        unfold stepAcquire at hbusy
        split at hbusy
        · apply absurd hbusy
          apply not_turnsBusy_goto rfl
          intro h
          cases h
        split at hbusy
        · cases hlock : s.lock with
          | none =>
              rw [hlock] at hbusy
              apply absurd hbusy
              apply not_turnsBusy_goto rfl
              intro h
              cases h
          | some holder =>
              rw [hlock] at hbusy
              by_cases hd : d = c
              · constructor
                · rw [hd, hphase]
                  rfl
                · exact ⟨holder, rfl⟩
              · exact absurd hbusy
                  (not_turnsBusy_same
                    (CompileState.goto_phase_other s _ hd))
        · apply absurd hbusy
          apply not_turnsBusy_goto rfl
          intro h
          cases h
      · cases hstep
  | authorize c =>
      simp only [compileNext] at hstep
      split at hstep
      · cases hstep
        apply absurd hbusy
        apply not_turnsBusy_exitOr operatorGate_not_busy
        intro h
        cases h
      · cases hstep
  | guardRoot c resolve resolved =>
      simp only [compileNext] at hstep
      split at hstep
      · cases hstep
        apply absurd hbusy
        apply not_turnsBusy_exitOr guardVaultRoot_not_busy
        intro h
        cases h
      · cases hstep
  | checkLoop c enabled =>
      simp only [compileNext] at hstep
      split at hstep
      · cases hstep
        apply absurd hbusy
        apply not_turnsBusy_exitOr
        · cases enabled with
          | true =>
              intro h
              cases h
          | false =>
              intro h
              have hstatus :=
                (CompileReply.response.inj (Option.some.inj h)).left
              revert hstatus
              decide
        · intro h
          cases h
      · cases hstep
  | runPass c outcome =>
      simp only [compileNext] at hstep
      split at hstep
      · cases hstep
        apply absurd hbusy
        apply not_turnsBusy_goto rfl
        intro h
        cases h
      · cases hstep
  | finish c =>
      simp only [compileNext] at hstep
      split at hstep
      · rename_i params held outcome hphase
        cases hstep
        have hreply :
            CompilePhase.returned (passReply params outcome) ≠
              CompilePhase.returned CompileReply.busy := by
          intro h
          exact passReply_not_busy (CompilePhase.returned.inj h)
        apply absurd hbusy
        cases held with
        | true => exact not_turnsBusy_goto rfl hreply
        | false => exact not_turnsBusy_goto rfl hreply
      · cases hstep

/-!
## The lock is given back
-/

theorem lockGivenBack_of_named
    {defaultVault : String} {s : CompileState Call} (hs : LockNamed s) :
    LockGivenBack defaultVault s := by
  constructor
  · intro c hlock
    exact hs.wet c ((hs.named c).mp hlock)
  · intro l s' d hstep hbefore hafter
    rcases turnsBusy_step hstep ⟨hbefore, hafter⟩ with ⟨hfree, c, hlock⟩
    have hholds := (hs.named c).mp hlock
    refine ⟨c, ?_, hs.wet c hholds⟩
    intro hsame
    rw [hsame, hfree] at hholds
    cases hholds

theorem consolidationLock_given_back
    {defaultVault : String} {s : CompileState Call}
    (hreach : Reachable
      ((compileSystem Call defaultVault).Restrict
        fun s l => passesChecks defaultVault s l = true) s) :
    LockGivenBack defaultVault s := by
  apply lockGivenBack_of_named
  apply reachable_induction lockNamed_initial _ hreach
  intro x l x' _ hx hstep
  exact lockNamed_step hx hstep.left hstep.right

end Law

/-!
## Two operators, and a caller who is none
-/

def wetConsolidation (p : EffectivePrincipal) : CompileParams where
  pass_name := some "consolidation"
  dry_run := false
  vault_path := none
  agent_id := none
  principal := some p

def learner : EffectivePrincipal where
  agent_id := "codex"
  workspace_id := "default"
  capabilities := ["read", "learn"]
  allowed_vault_roots := ["/vault"]
  auto_accept_own := false

def noneCalled : CompileState Nat where
  lock := none
  phase := fun _ => CompilePhase.idle

def wholeCall (c : Nat) (p : EffectivePrincipal) : List (CompileLabel Nat) :=
  [CompileLabel.call c (wetConsolidation p),
    CompileLabel.acquire c,
    CompileLabel.authorize c,
    CompileLabel.guardRoot c (fun path => some [path])
      (fun _ => ResolvedPrincipal.raised "unused"),
    CompileLabel.checkLoop c true,
    CompileLabel.runPass c (PassOutcome.finished none),
    CompileLabel.finish c]

/-- One operator's call inside another's: the inner one is told `busy`, and
afterwards the lock is free again. -/
def overlappingCalls : List (CompileLabel Nat) :=
  (wholeCall 0 loopPrincipal).take 4 ++
    [CompileLabel.call 1 (wetConsolidation loopPrincipal),
      CompileLabel.acquire 1] ++
    (wholeCall 0 loopPrincipal).drop 4

theorem consolidationLock_given_back_overlapping :
    exists s,
      execWhere (compileNext "/vault") (passesChecks "/vault") noneCalled
        overlappingCalls = some s ∧
      s.phase 1 = CompilePhase.returned CompileReply.busy ∧
      LockGivenBack "/vault" s := by
  refine ⟨_, rfl, rfl, ?_⟩
  apply consolidationLock_given_back
  exact ⟨noneCalled, overlappingCalls, rfl,
    run_of_execWhere (fun _ _ h => h) rfl⟩

/-- A caller without the capability asks for a wet consolidation and is
refused; the next operator is told `busy` although nothing runs. -/
def refusedThenBusy : List (CompileLabel Nat) :=
  (wholeCall 0 learner).take 3 ++
    [CompileLabel.call 1 (wetConsolidation loopPrincipal)]

theorem consolidationLock_kept :
    ¬ forall s : CompileState Nat,
      Reachable (compileSystem Nat "/vault") s -> LockGivenBack "/vault" s := by
  intro h
  have hreach : exists s,
      exec (compileNext "/vault") noneCalled refusedThenBusy = some s ∧
        s.lock = some 0 ∧ (s.phase 0).running = none :=
    ⟨_, rfl, rfl, rfl⟩
  rcases hreach with ⟨s, hexec, hlock, hreturned⟩
  have hgiven := h s ⟨noneCalled, refusedThenBusy, rfl, run_of_exec hexec⟩
  rcases hgiven.held 0 hlock with ⟨params, hrunning, _⟩
  rw [hreturned] at hrunning
  cases hrunning

end Daemon
end Minni
