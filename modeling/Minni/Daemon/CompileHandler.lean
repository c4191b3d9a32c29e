import Mathlib.Logic.Function.Basic
import Minni.Foundation.TransitionSystem
import Minni.Daemon.Principal

/-!
# The compile handler and its lock

`handle_daemon_compile` as a step function of many calls on one process.  A
wet consolidation takes the process-wide lock without waiting; the checks of
the caller, of the vault root and of the loop switch follow, and only then the
`try` whose `finally` gives the lock back.
-/

namespace Minni
namespace Daemon

open Foundation
open EffectivePrincipal

/-!
## Requests and replies
-/

structure CompileParams where
  pass_name : Option String
  dry_run : Bool
  vault_path : Option String
  agent_id : Option String
  principal : Option EffectivePrincipal
deriving DecidableEq

namespace CompileParams

def passName (params : CompileParams) : String :=
  PyText.strip (params.pass_name.getD "")

/-- An empty `vault_path` counts as absent. -/
def vaultPath (params : CompileParams) (defaultVault : String) : String :=
  (params.vault_path.filter fun path => path ≠ "").getD defaultVault

/-- The calls that take the lock. -/
def isWetConsolidation (params : CompileParams) : Bool :=
  params.passName = "consolidation" && !params.dry_run

end CompileParams

inductive CompileReply where
  | error (code : Int) (message : String)
  | response (status reason : String)
  /-- The result of the pass, as the pass gives it. -/
  | result (status : Option String)
  /-- An exception that leaves the handler. -/
  | raised (reason : String)
deriving DecidableEq

def CompileReply.busy : CompileReply :=
  CompileReply.response "busy" "consolidation_in_progress"

/-- What resolving the principal of a call without a stamp comes to. -/
inductive ResolvedPrincipal where
  | principal (p : EffectivePrincipal)
  | mismatch (supplied stamped : String)
  | raised (reason : String)
deriving DecidableEq

/-- How the pass, the draft writer and the applier of a call end. -/
inductive PassOutcome where
  | finished (status : Option String)
  | raised (writeFault : Bool) (reason : String)
deriving DecidableEq

/-!
## The checks of one call
-/

def pythonText : Option String -> String
  | none => "None"
  | some text => text

def operatorOnly (params : CompileParams) : CompileReply :=
  CompileReply.error (-32004)
    ("operator_only: daemon.compile with dry_run=false promotes candidates " ++
      "to durable learnings and requires an operator/govern principal " ++
      "(caller principal '" ++ pythonText (params.principal.map (·.agent_id)) ++
      "' is not authorized); run with dry_run=true to preview without writing")

def operatorGate (params : CompileParams) : Option CompileReply :=
  if params.dry_run then none
  else
    match params.principal with
    | none => some (operatorOnly params)
    | some stamped =>
        if isOperatorPrincipal stamped then none
        else some (operatorOnly params)

def vaultRootDenied (label : String) : CompileReply :=
  CompileReply.error (-32003)
    ("vault_root_denied: " ++ label ++ " path outside " ++
      "principal.allowed_vault_roots (realpath + relative check; " ++
      "traversal/symlink escape rejected)")

def mismatchError (supplied stamped : String) : CompileReply :=
  CompileReply.error (-32000)
    ("identity_mismatch: supplied agent_id '" ++ supplied ++
      "' does not match server-stamped EffectivePrincipal '" ++ stamped ++ "'")

def handlerPrincipal (resolved : Option String -> ResolvedPrincipal)
    (params : CompileParams) : ResolvedPrincipal :=
  match params.principal with
  | some stamped => ResolvedPrincipal.principal stamped
  | none => resolved params.agent_id

def guardVaultRoot (resolve : Resolver)
    (resolved : Option String -> ResolvedPrincipal) (params : CompileParams)
    (vaultPath label : String) : Option CompileReply :=
  match handlerPrincipal resolved params with
  | ResolvedPrincipal.mismatch supplied stamped =>
      some (mismatchError supplied stamped)
  | ResolvedPrincipal.raised reason => some (CompileReply.raised reason)
  | ResolvedPrincipal.principal p =>
      if p.allowsVaultRoot resolve vaultPath then none
      else some (vaultRootDenied label)

def loopDisabled : CompileReply :=
  CompileReply.response "afm_unavailable" "AFM loop disabled"

def passRunners : List String :=
  ["session_distillation", "synthesis", "procedure_extraction",
    "reorganization", "pruning", "consolidation", "vault_ingest"]

def passReply (params : CompileParams) (outcome : PassOutcome) :
    CompileReply :=
  if passRunners.contains params.passName then
    match outcome with
    | PassOutcome.finished status => CompileReply.result status
    | PassOutcome.raised true reason =>
        CompileReply.response "write_failed" reason
    | PassOutcome.raised false reason =>
        CompileReply.response "afm_unavailable" reason
  else
    CompileReply.error (-32602) ("unsupported pass_name: " ++ params.passName)

/-!
## Calls and their steps
-/

/-- Where a call stands; `held` is its `lock_acquired`. -/
inductive CompilePhase where
  | idle
  | entered (params : CompileParams)
  | authorizing (params : CompileParams) (held : Bool)
  | guarding (params : CompileParams) (held : Bool)
  | checkingLoop (params : CompileParams) (held : Bool)
  | trying (params : CompileParams) (held : Bool)
  | finishing (params : CompileParams) (held : Bool) (outcome : PassOutcome)
  | returned (reply : CompileReply)
deriving DecidableEq

structure CompileState (Call : Type) where
  /-- The call that last acquired the lock, while it is locked. -/
  lock : Option Call
  phase : Call -> CompilePhase

inductive CompileLabel (Call : Type) where
  | call (c : Call) (params : CompileParams)
  | acquire (c : Call)
  | authorize (c : Call)
  | guardRoot (c : Call) (resolve : Resolver)
      (resolved : Option String -> ResolvedPrincipal)
  | checkLoop (c : Call) (enabled : Bool)
  | runPass (c : Call) (outcome : PassOutcome)
  | finish (c : Call)

section Steps

variable {Call : Type} [DecidableEq Call]

namespace CompileState

def goto (s : CompileState Call) (c : Call) (phase : CompilePhase) :
    CompileState Call :=
  { s with phase := Function.update s.phase c phase }

@[simp] theorem goto_lock
    (s : CompileState Call) (c : Call) (phase : CompilePhase) :
    (s.goto c phase).lock = s.lock :=
  rfl

@[simp] theorem goto_phase_self
    (s : CompileState Call) (c : Call) (phase : CompilePhase) :
    (s.goto c phase).phase c = phase := by
  simp [goto]

theorem goto_phase_other
    (s : CompileState Call) {c d : Call} (phase : CompilePhase)
    (h : d ≠ c) :
    (s.goto c phase).phase d = s.phase d := by
  simp [goto, h]

end CompileState

/-- The request is parsed and, for a wet consolidation, the lock is tried. -/
def stepAcquire (s : CompileState Call) (c : Call) (params : CompileParams) :
    CompileState Call :=
  if params.passName = "" then
    s.goto c
      (CompilePhase.returned
        (CompileReply.error (-32602) "pass_name is required"))
  else if params.isWetConsolidation then
    match s.lock with
    | some _ => s.goto c (CompilePhase.returned CompileReply.busy)
    | none =>
        CompileState.goto { s with lock := some c } c
          (CompilePhase.authorizing params true)
  else
    s.goto c (CompilePhase.authorizing params false)

/-- An exit before the `try` returns as it is. -/
def exitOr (s : CompileState Call) (c : Call) (exit : Option CompileReply)
    (next : CompilePhase) : CompileState Call :=
  match exit with
  | some reply => s.goto c (CompilePhase.returned reply)
  | none => s.goto c next

def stepFinish (s : CompileState Call) (c : Call) (held : Bool)
    (reply : CompileReply) : CompileState Call :=
  if held then
    CompileState.goto { s with lock := none } c (CompilePhase.returned reply)
  else
    s.goto c (CompilePhase.returned reply)

def compileNext (defaultVault : String) (s : CompileState Call) :
    CompileLabel Call -> Option (CompileState Call)
  | CompileLabel.call c params =>
      match s.phase c with
      | CompilePhase.idle => some (s.goto c (CompilePhase.entered params))
      | _ => none
  | CompileLabel.acquire c =>
      match s.phase c with
      | CompilePhase.entered params => some (stepAcquire s c params)
      | _ => none
  | CompileLabel.authorize c =>
      match s.phase c with
      | CompilePhase.authorizing params held =>
          some (exitOr s c (operatorGate params)
            (CompilePhase.guarding params held))
      | _ => none
  | CompileLabel.guardRoot c resolve resolved =>
      match s.phase c with
      | CompilePhase.guarding params held =>
          some (exitOr s c
            (guardVaultRoot resolve resolved params
              (params.vaultPath defaultVault) "compile")
            (CompilePhase.checkingLoop params held))
      | _ => none
  | CompileLabel.checkLoop c enabled =>
      match s.phase c with
      | CompilePhase.checkingLoop params held =>
          some (exitOr s c (if enabled then none else some loopDisabled)
            (CompilePhase.trying params held))
      | _ => none
  | CompileLabel.runPass c outcome =>
      match s.phase c with
      | CompilePhase.trying params held =>
          some (s.goto c
            (CompilePhase.finishing params held outcome))
      | _ => none
  | CompileLabel.finish c =>
      match s.phase c with
      | CompilePhase.finishing params held outcome =>
          some (stepFinish s c held (passReply params outcome))
      | _ => none

def compileSystem (Call : Type) [DecidableEq Call] (defaultVault : String) :
    TransitionSystem (CompileState Call) (CompileLabel Call) :=
  TransitionSystem.OfNext
    (fun s => s = { lock := none, phase := fun _ => CompilePhase.idle })
    (compileNext defaultVault)

end Steps

end Daemon
end Minni
