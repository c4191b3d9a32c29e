import Minni.Foundation.PyText

/-!
# Principals

The stamped identity of a caller, and the checks that the handlers of the
daemon make on it.
-/

namespace Minni
namespace Daemon

structure EffectivePrincipal where
  agent_id : String
  workspace_id : String
  capabilities : List String
  allowed_vault_roots : List String
  auto_accept_own : Bool
deriving DecidableEq

namespace EffectivePrincipal

def can (p : EffectivePrincipal) (capability : String) : Bool :=
  p.capabilities.contains "*" || p.capabilities.contains capability

/-- `Path.resolve` on the file system: the components of the real path, or
nothing where it raises. -/
abbrev Resolver := String -> Option (List String)

/-- The loop over the roots: the first root that holds the path allows it, and
a root that does not resolve ends the loop. -/
def underRoot (resolve : Resolver) (path : List String) :
    List String -> Bool
  | [] => false
  | root :: roots =>
      match resolve root with
      | none => false
      | some parts => parts.isPrefixOf path || underRoot resolve path roots

def allowsVaultRoot (p : EffectivePrincipal) (resolve : Resolver)
    (path : String) : Bool :=
  if p.allowed_vault_roots.isEmpty then
    !p.capabilities.isEmpty
  else
    match resolve path with
    | none => false
    | some parts => underRoot resolve parts p.allowed_vault_roots

end EffectivePrincipal

def isOperatorPrincipal (p : EffectivePrincipal) : Bool :=
  if p.capabilities.contains "*" ||
      p.capabilities.contains "resolve_candidate" ||
      p.capabilities.contains "govern" then
    true
  else
    (p.agent_id = "main" || p.agent_id = "operator") &&
      !p.capabilities.isEmpty

/-- The operator of the machine, who may do everything that a capability
grants by `*`. -/
def localOperator : EffectivePrincipal where
  agent_id := "main"
  workspace_id := "default"
  capabilities := ["*"]
  allowed_vault_roots := []
  auto_accept_own := false

/-- The stamp of the background loop. -/
def loopPrincipal : EffectivePrincipal where
  agent_id := "afm-loop"
  workspace_id := "default"
  capabilities := ["govern"]
  allowed_vault_roots := []
  auto_accept_own := false

end Daemon
end Minni
