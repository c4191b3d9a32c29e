import Minni.Daemon.ReadGate

/-!
# Whether another agent's vault is searched

Before a combined search asks another agent's vault, a look at its documents
tells whether the caller may read any of them.  The look is at the rows that a
query selects, and its answer is kept for ten seconds.
-/

namespace Minni
namespace Daemon

open Foundation

/-!
## Rows of a vault
-/

/-- The columns of a document that the look reads. -/
structure VaultRow where
  path : String
  agent : Option String
  sigil : Option String
  page_type : Option String
  privacy_level : Option String
  deriving DecidableEq, Repr

def jsonText : Option String -> Json
  | none => Json.null
  | some text => Json.str text

/-- `dict(row)` -/
def VaultRow.toDict (row : VaultRow) : Json :=
  Json.obj
    [("path", Json.str row.path), ("agent", jsonText row.agent),
      ("sigil", jsonText row.sigil), ("page_type", jsonText row.page_type),
      ("privacy_level", jsonText row.privacy_level)]

/-- `LOWER(COALESCE(value, ''))`, which knows no letters but those of ASCII. -/
def sqlLower (value : Option String) : String :=
  String.ofList ((value.getD "").toList.map Char.toLower)

def allowsCrossAgentRecall (p : EffectivePrincipal) : Bool :=
  p.capabilities.contains "*" || p.capabilities.contains "cross_agent" ||
    p.capabilities.contains "govern" || isOperatorPrincipal p

structure EligKey where
  agent_id : String
  workspace : String
  rootAllowed : Bool
  crossAgent : Bool
  deriving DecidableEq, Repr

structure ForeignVault where
  source_agent : String
  /-- The engine has a database of its own and its own `retrieve`. -/
  plainEngine : Bool
  vault_path : Option String
  documents : List VaultRow
  /-- `_foreign_vault_elig_cache`: when an answer was found, in milliseconds. -/
  cache : List (EligKey × (Nat × Bool))

/-!
## The look
-/

section Look

variable (host : ReadHost) (p : EffectivePrincipal) (vault : ForeignVault)

def searchWorkspace : String :=
  if p.workspace_id = "" then "default" else p.workspace_id

def mayRead (row : VaultRow) : Bool :=
  canReadDocument host (some p) (searchWorkspace p) row.toDict

def rootAllowed : Bool :=
  match vault.vault_path with
  | none => true
  | some root =>
      if p.allowed_vault_roots.isEmpty || root = "" then true
      else p.allowsVaultRoot host.resolve root

def eligKey : EligKey :=
  { agent_id := p.agent_id
    workspace := searchWorkspace p
    rootAllowed := rootAllowed host p vault
    crossAgent := allowsCrossAgentRecall p }

/-- `WHERE agent = ?` -/
def ownRow (row : VaultRow) : Bool :=
  row.agent = some p.agent_id

def selectedRow (row : VaultRow) : Bool :=
  row.agent = some p.agent_id || row.sigil = some p.agent_id ||
    row.agent = some "unknown" ||
    ["wiki", "handoff", "synthesis", "decision"].contains
      (sqlLower row.page_type) ||
    holdsText "wiki" (sqlLower row.agent) ||
    holdsText "handoff" (sqlLower row.agent)

/-- What the queries of the look answer. -/
def lookAnswer : Bool :=
  if !rootAllowed host p vault then
    match vault.documents.find? (ownRow p) with
    | none => false
    | some row => mayRead host p row
  else if allowsCrossAgentRecall p then !vault.documents.isEmpty
  else (vault.documents.filter (selectedRow p)).any (mayRead host p)

def freshAnswer (now : Nat) : Option Bool :=
  match vault.cache.lookup (eligKey host p vault) with
  | none => none
  | some (found, answer) => if now - found < 10000 then some answer else none

end Look

/-- `sqlFails` says whether the look raises. -/
def shouldQueryForeignVault (host : ReadHost)
    (principal : Option EffectivePrincipal) (vault : ForeignVault)
    (now : Nat) (sqlFails : Bool) : Bool × ForeignVault :=
  match principal with
  | none => (true, vault)
  | some p =>
      if vault.source_agent = "" ∨ vault.source_agent = p.agent_id then
        (true, vault)
      else if !vault.plainEngine then (true, vault)
      else
        match freshAnswer host p vault now with
        | some answer => (answer, vault)
        | none =>
            if sqlFails then (true, vault)
            else
              let answer := lookAnswer host p vault
              let kept :=
                vault.cache.filter fun entry =>
                  entry.1 ≠ eligKey host p vault
              (answer,
                { vault with
                  cache :=
                    kept ++ [(eligKey host p vault, (now, answer))] })

/-!
## A combined search
-/

/-- A vault that may be asked in a combined search, and what its engine finds
for the query before the gate. -/
structure VaultLeg where
  vault : ForeignVault
  found : VaultRow -> Bool
  sqlFails : Bool

def VaultLeg.results (host : ReadHost) (p : EffectivePrincipal)
    (leg : VaultLeg) : List VaultRow :=
  (leg.vault.documents.filter leg.found).filter (mayRead host p)

def VaultLeg.asked (host : ReadHost) (p : EffectivePrincipal) (now : Nat)
    (leg : VaultLeg) : Bool :=
  (shouldQueryForeignVault host (some p) leg.vault now leg.sqlFails).1

def combinedResults (host : ReadHost) (p : EffectivePrincipal) (now : Nat)
    (legs : List VaultLeg) : List VaultRow :=
  (legs.filter (VaultLeg.asked host p now)).flatMap (VaultLeg.results host p)

end Daemon
end Minni
