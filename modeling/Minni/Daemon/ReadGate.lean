import Mathlib.Data.List.Infix
import Minni.Daemon.Principal

/-!
# The read gate

Every document passes one gate before a caller sees it.  The gate is a cascade:
the workspace, foreign sessions, the path and blocked documents can only
refuse; then the owner, the documents without one and operators are let in
before the privacy of the document counts.
-/

namespace Minni
namespace Daemon

open Foundation

structure ReadHost where
  /-- `str.lower`. -/
  lower : String -> String
  resolve : EffectivePrincipal.Resolver
  /-- `Path.expanduser` on a path that starts with a tilde. -/
  home : String -> Option String

/-- Roots that hold no document, for an agent whose own list is no list. -/
def platformNoRootsSentinel : String := "/.minni-platform-no-vault-roots"

/-!
## What the gate reads of a document
-/

section Document

variable (host : ReadHost) (doc : Json)

def docAgent : String :=
  PyText.strip ((firstText doc ["agent", "sigil"]).getD "unknown")

def docPageType : String :=
  host.lower ((firstText doc ["page_type"]).getD "")

def docPrivacy : String :=
  PyText.strip
    (host.lower ((firstText doc ["privacy_level", "privacy"]).getD "safe"))

def docWorkspace : Option String :=
  firstText doc ["workspace_id", "workspace", "ws"]

def docPath : Option Json :=
  firstTruthy doc ["path", "source", "filename"]

end Document

def startsWith (start text : String) : Bool :=
  start.toList.isPrefixOf text.toList

def holdsText (part text : String) : Bool :=
  decide (part.toList <:+: text.toList)

/-!
## The gates
-/

section Gates

variable (host : ReadHost) (p : EffectivePrincipal) (workspace : String)
variable (doc : Json)

def sameAgent : Bool :=
  docAgent doc = p.agent_id &&
    !(docPageType host doc = "session" &&
      host.lower (docAgent doc) = "unknown")

/-- A document without a workspace is its owner's in every workspace. -/
def workspaceRefuses : Bool :=
  let doc_ws := (docWorkspace doc).getD "default"
  let call_ws := if workspace = "" then "default" else workspace
  doc_ws ≠ "*" && call_ws ≠ "*" && doc_ws ≠ call_ws &&
    !(sameAgent host p doc && (docWorkspace doc).isNone)

def isSessionPage : Bool :=
  let agent_l := host.lower (docAgent doc)
  docPageType host doc = "session" || agent_l = "wiki:session" ||
    startsWith "session:" agent_l

def sessionRefuses : Bool :=
  !sameAgent host p doc && isSessionPage host doc && !isOperatorPrincipal p

def isAbsolute (path : String) : Bool :=
  startsWith "/" path

def expanduser (path : String) : Option String :=
  if startsWith "~" path then host.home path else some path

def pathRefuses : Bool :=
  match docPath doc with
  | none => false
  | some (Json.str path) =>
      match expanduser host path with
      | none => true
      | some expanded =>
          if isAbsolute expanded then !p.allowsVaultRoot host.resolve path
          else if p.allowed_vault_roots.isEmpty then p.capabilities.isEmpty
          else if !sameAgent host p doc then true
          else p.allowed_vault_roots.all fun root =>
            root = platformNoRootsSentinel
  -- no path can be made of it
  | some _ => true

def isPrivate : Bool :=
  docPrivacy host doc = "private" || docPrivacy host doc = "local-only"

/-- Pages that are shared on purpose. -/
def isSharedPage : Bool :=
  let agent_l := host.lower (docAgent doc)
  ["wiki", "handoff", "synthesis", "decision"].contains
      (docPageType host doc) ||
    startsWith "wiki:" agent_l || startsWith "handoff" agent_l ||
    holdsText "wiki" agent_l || holdsText "handoff" agent_l

def canReadDocument (principal : Option EffectivePrincipal)
    (workspace : String) (doc_metadata : Json) : Bool :=
  match principal, doc_metadata with
  | some p, Json.obj fields =>
      let doc := Json.obj fields
      if workspaceRefuses host p workspace doc then false
      else if sessionRefuses host p doc then false
      else if pathRefuses host p doc then false
      else if docPrivacy host doc = "blocked" then false
      else if sameAgent host p doc then true
      else if docAgent doc = "unknown" &&
          (!p.capabilities.isEmpty || !p.allowed_vault_roots.isEmpty) then true
      else if isOperatorPrincipal p then true
      else if isPrivate host doc then false
      else isSharedPage host doc
  | _, _ => false

end Gates

structure Suppression where
  pre_gate : Nat
  suppressed : Nat
  reason : String
deriving DecidableEq

def applyReadGate (host : ReadHost) (principal : Option EffectivePrincipal)
    (workspace : String) (merged : List Json) :
    List Json × Option Suppression :=
  let filtered := merged.filter (canReadDocument host principal workspace)
  let suppression :=
    if !merged.isEmpty && filtered.isEmpty then
      some
        { pre_gate := merged.length
          suppressed := merged.length
          reason :=
            toString merged.length ++ " candidates suppressed by scope: " ++
              "principal=" ++ (principal.map (·.agent_id)).getD "n/a" ++
              " ws=" ++ workspace }
    else none
  (filtered, suppression)

/-!
## What the gate lets through
-/

section Law

variable {host : ReadHost} {p : EffectivePrincipal} {workspace : String}
variable {doc : Json}

def isRecord : Json -> Bool
  | Json.obj _ => true
  | _ => false

/-- The gates that can only refuse. -/
def refused (host : ReadHost) (p : EffectivePrincipal) (workspace : String)
    (doc : Json) : Bool :=
  !isRecord doc || workspaceRefuses host p workspace doc ||
    sessionRefuses host p doc || pathRefuses host p doc

/-- A document without an owner is let in for whoever can do something. -/
def unattributed (p : EffectivePrincipal) (doc : Json) : Bool :=
  docAgent doc = "unknown" &&
    (!p.capabilities.isEmpty || !p.allowed_vault_roots.isEmpty)

theorem canReadDocument_iff (hoperator : isOperatorPrincipal p = false) :
    canReadDocument host (some p) workspace doc = true <->
      refused host p workspace doc = false ∧
      docPrivacy host doc ≠ "blocked" ∧
      (sameAgent host p doc = true ∨ unattributed p doc = true ∨
        (isPrivate host doc = false ∧ isSharedPage host doc = true)) := by
  cases doc with
  | obj fields =>
      unfold canReadDocument refused unattributed isRecord
      dsimp only
      rw [hoperator]
      cases workspaceRefuses host p workspace (Json.obj fields) with
      | true =>
          simp
      | false =>
          cases sessionRefuses host p (Json.obj fields) with
          | true =>
              simp
          | false =>
              cases pathRefuses host p (Json.obj fields) with
              | true =>
                  simp
              | false =>
                  by_cases hblocked :
                      docPrivacy host (Json.obj fields) = "blocked"
                  · simp [hblocked]
                  · cases isPrivate host (Json.obj fields) with
                    | true =>
                        simp [hblocked]
                    | false =>
                        simp [hblocked]
  | _ =>
      simp [canReadDocument, refused, isRecord]

/-- What a principal may see of a document, by the document alone. -/
structure WithinBounds (host : ReadHost) (p : EffectivePrincipal) (doc : Json) :
    Prop where
  privacy : docPrivacy host doc ≠ "blocked"
  /-- An absolute path is under the roots, or there are none and the principal
  can do something. -/
  path : forall path, docPath doc = some (Json.str path) ->
    isAbsolute path = true -> p.allowsVaultRoot host.resolve path = true
  session : isSessionPage host doc = true -> docAgent doc = p.agent_id
  owner : docAgent doc = p.agent_id ∨ isPrivate host doc = false

/-- A private document without an owner is stopped by the workspace, the
session gate, the path, or for want of any right. -/
def Held (host : ReadHost) (p : EffectivePrincipal) (workspace : String)
    (doc : Json) : Prop :=
  isPrivate host doc = true -> docAgent doc ≠ p.agent_id ->
    unattributed p doc = true -> refused host p workspace doc = true

theorem sameAgent_owner (h : sameAgent host p doc = true) :
    docAgent doc = p.agent_id := by
  unfold sameAgent at h
  rw [Bool.and_eq_true] at h
  exact of_decide_eq_true h.left

theorem sessionRefuses_false
    (hoperator : isOperatorPrincipal p = false)
    (h : sessionRefuses host p doc = false)
    (hsession : isSessionPage host doc = true) :
    docAgent doc = p.agent_id := by
  unfold sessionRefuses at h
  rw [hoperator, hsession, Bool.not_false, Bool.and_true, Bool.and_true,
    Bool.not_eq_false'] at h
  exact sameAgent_owner h

theorem expanduser_absolute
    {path : String} (h : isAbsolute path = true) :
    expanduser host path = some path := by
  have hslash : startsWith "~" path = false := by
    unfold isAbsolute startsWith at h
    unfold startsWith
    cases hchars : path.toList with
    | nil =>
        rfl
    | cons first rest =>
        rw [hchars] at h
        have hfirst : '/' = first := by simpa using h
        rw [← hfirst]
        rfl
  unfold expanduser
  rw [hslash, if_neg Bool.false_ne_true]

theorem pathRefuses_false
    (h : pathRefuses host p doc = false) {path : String}
    (hpath : docPath doc = some (Json.str path))
    (habsolute : isAbsolute path = true) :
    p.allowsVaultRoot host.resolve path = true := by
  unfold pathRefuses at h
  rw [hpath] at h
  dsimp only at h
  rw [expanduser_absolute habsolute] at h
  dsimp only at h
  rw [habsolute, if_pos rfl, Bool.not_eq_false'] at h
  exact h

theorem isPrivate_not_blocked (h : isPrivate host doc = true) :
    docPrivacy host doc ≠ "blocked" := by
  intro hblocked
  unfold isPrivate at h
  rw [hblocked] at h
  exact absurd h (by decide)

theorem refused_false (h : refused host p workspace doc = false) :
    sessionRefuses host p doc = false ∧ pathRefuses host p doc = false := by
  unfold refused at h
  rw [Bool.or_eq_false_iff, Bool.or_eq_false_iff] at h
  exact ⟨h.left.right, h.right⟩

/-- The property of one document holds of the gate exactly where the document
is held. -/
theorem withinBounds_iff (hoperator : isOperatorPrincipal p = false) :
    (canReadDocument host (some p) workspace doc = true ->
      WithinBounds host p doc) <-> Held host p workspace doc := by
  constructor
  · intro hbounds hprivate hforeign hunattributed
    rw [← Bool.not_eq_false]
    intro hrefused
    have hread : canReadDocument host (some p) workspace doc = true :=
      (canReadDocument_iff hoperator).mpr
        ⟨hrefused, isPrivate_not_blocked hprivate,
          Or.inr (Or.inl hunattributed)⟩
    cases (hbounds hread).owner with
    | inl howner =>
        exact hforeign howner
    | inr hpublic =>
        rw [hprivate] at hpublic
        cases hpublic
  · intro hheld hread
    rcases (canReadDocument_iff hoperator).mp hread with
      ⟨hrefused, hblocked, hgranted⟩
    have hgates := refused_false hrefused
    constructor
    · exact hblocked
    · intro path hpath habsolute
      exact pathRefuses_false hgates.right hpath habsolute
    · intro hsession
      exact sessionRefuses_false hoperator hgates.left hsession
    · by_cases howner : docAgent doc = p.agent_id
      · exact Or.inl howner
      · rcases hgranted with hsame | hunattributed | hshared
        · exact Or.inl (sameAgent_owner hsame)
        · cases hprivate : isPrivate host doc with
          | false =>
              exact Or.inr rfl
          | true =>
              have hstopped := hheld hprivate howner hunattributed
              rw [hrefused] at hstopped
              cases hstopped
        · exact Or.inr hshared.left

/-!
## Two stores
-/

/-- A private document of somebody else. -/
def foreignPrivate (host : ReadHost) (p : EffectivePrincipal) (doc : Json) :
    Bool :=
  isPrivate host doc && docAgent doc ≠ p.agent_id

/-- The two lists have the same documents, but for private ones of others. -/
def AgreeForOwner (host : ReadHost) (p : EffectivePrincipal)
    (left right : List Json) : Prop :=
  left.filter (fun doc => !foreignPrivate host p doc) =
    right.filter fun doc => !foreignPrivate host p doc

theorem filter_read
    {store : List Json}
    (h : forall doc, doc ∈ store ->
      canReadDocument host (some p) workspace doc = true ->
      WithinBounds host p doc) :
    store.filter (canReadDocument host (some p) workspace) =
      (store.filter fun doc => !foreignPrivate host p doc).filter
        (canReadDocument host (some p) workspace) := by
  rw [List.filter_filter]
  apply List.filter_congr
  intro doc hdoc
  cases hread : canReadDocument host (some p) workspace doc with
  | false =>
      rfl
  | true =>
      have howner := (h doc hdoc hread).owner
      unfold foreignPrivate
      rcases howner with howner | hpublic
      · simp [howner]
      · simp [hpublic]

end Law

/-- The note of suppression is that of an empty result, and counts. -/
theorem suppression_eq_iff
    (host : ReadHost) (principal : Option EffectivePrincipal)
    (workspace : String) {left right : List Json}
    (h : (applyReadGate host principal workspace left).1 =
      (applyReadGate host principal workspace right).1) :
    ((applyReadGate host principal workspace left).2 =
      (applyReadGate host principal workspace right).2 <->
      ((applyReadGate host principal workspace left).1 ≠ [] ∨
        left.length = right.length)) := by
  unfold applyReadGate at h ⊢
  dsimp only at h ⊢
  rw [← h]
  generalize left.filter (canReadDocument host principal workspace) = shown
  cases shown with
  | cons doc rest =>
      simp
  | nil =>
      cases left with
      | nil =>
          cases right with
          | nil =>
              simp
          | cons doc rest =>
              simp
      | cons doc rest =>
          cases right with
          | nil =>
              simp
          | cons other others =>
              constructor
              · intro heq
                have hcount := congrArg (Option.map Suppression.pre_gate) heq
                exact Or.inr (by simpa using hcount)
              · intro heq
                have hlength : (doc :: rest).length = (other :: others).length := by
                  simpa using heq
                rw [hlength]
                rfl

def plainReadHost : ReadHost where
  lower := id
  resolve := fun _ => some []
  home := fun _ => none

def plainReader : EffectivePrincipal where
  agent_id := "bob"
  workspace_id := "default"
  capabilities := ["read"]
  allowed_vault_roots := []
  auto_accept_own := false

def ownerlessPrivate : Json :=
  Json.obj [("privacy_level", Json.str "private")]

def annPrivate : Json :=
  Json.obj [("agent", Json.str "ann"), ("privacy_level", Json.str "private")]

end Daemon
end Minni
