import Minni.Daemon.ReadGate

/-!
# The stamp of a caller

The daemon stamps every request with a principal, from the principal files of
the operator and the agent id on the wire.  The files are tried in order: the
canonical ones for the local stamp, the file of the agent itself, and the
platform and alias entries of the canonical ones.
-/

namespace Minni
namespace Daemon

open Foundation

/-!
## Principal files
-/

structure PrincipalFile where
  /-- Others may read or write it, or its mode cannot be read. -/
  exposed : Bool
  /-- What the text parses to. -/
  data : Option Json

/-- The `*.json` files of the directory by their stems. -/
structure PrincipalsDir where
  files : List (String × PrincipalFile)

def canonicalPrincipalNames : List String :=
  ["local", "default", "operator", "main"]

def operatorReservedAgentIds : List String := ["operator", "main"]

inductive StampError where
  | identityMismatch (supplied stamped detail : String)
  | runtime (text : String)
  | value (text : String)
  | type (text : String)
deriving DecidableEq

/-- What the process is: its transport context and the paths it knows. -/
structure StampEnv where
  operator_context : Bool
  /-- `MINNI_LOCAL_OPERATOR`. -/
  local_operator : Bool
  /-- The text of a path that is expanded and resolved. -/
  resolveText : String -> Option String
  /-- `_default_platform_roots`. -/
  defaultPlatformRoots : String -> List String

/-- Whether any principal file exists. -/
def PrincipalsDir.strict (dir : PrincipalsDir) : Bool :=
  !dir.files.isEmpty

def loadRawPrincipalFile (dir : PrincipalsDir) (name : String) (strict : Bool) :
    Except StampError (Option Json) :=
  match dir.files.lookup name with
  | none => Except.ok none
  | some file =>
      if strict && file.exposed then
        Except.error (StampError.runtime
          ("principal file " ++ name ++ ".json must be 0600 (world-readable " ++
            "principal config is a security risk for the identity " ++
            "root-of-trust)"))
      else
        match file.data with
        | some (Json.obj fields) => Except.ok (some (Json.obj fields))
        | _ => Except.ok none

/-!
## Reading an entry
-/

def agentIdStart (c : Char) : Bool :=
  ('a' ≤ c && c ≤ 'z') || ('0' ≤ c && c ≤ '9')

def agentIdChar (c : Char) : Bool :=
  agentIdStart c || c = '.' || c = '_' || c = '-'

def agentIdBody : List Char -> Bool
  | [] => false
  | first :: rest =>
      agentIdStart first && rest.all agentIdChar && rest.length ≤ 63

/-- The pattern may end before a last line break. -/
def agentIdMatches (chars : List Char) : Bool :=
  agentIdBody chars ||
    (chars.getLast? = some '\n' && agentIdBody chars.dropLast)

def validateAgentId (agent_id : String) : Except StampError String :=
  if agent_id = "" then
    Except.error (StampError.value
      "agent_id must be a non-empty string, got ''")
  else if agentIdMatches agent_id.toList then Except.ok agent_id
  else
    Except.error (StampError.value
      ("invalid agent_id '" ++ agent_id ++
        "': must match ^[a-z0-9][a-z0-9._-]\x7b0,63\x7d$ (lowercase " ++
        "alphanumeric/dots/underscores/hyphens, max 64 chars)"))

/-- What a loop over the value visits. -/
def iterate : Json -> Except StampError (List Json)
  | Json.arr items => Except.ok items
  | Json.str text =>
      Except.ok (text.toList.map fun c => Json.str (String.ofList [c]))
  | Json.obj fields => Except.ok (fields.map fun field => Json.str field.1)
  | _ => Except.error (StampError.type "object is not iterable")

/-- A capability that is no string gets a text that no check asks for. -/
def capabilityText : Json -> String
  | Json.str text => text
  | value => "not a string: " ++ strOf value

def rawCapabilities (raw : Json) : Except StampError (List String) :=
  match raw.field? "capabilities" with
  | none => Except.ok ["*"]
  | some value => (iterate value).map fun items => items.map capabilityText

def rawVaultRoots (env : StampEnv) (raw : Json) :
    Except StampError (List String) :=
  match firstTruthy raw ["allowed_vault_roots"] with
  | none => Except.ok []
  | some value =>
      (iterate value).map fun items => items.map fun item =>
        (env.resolveText (strOf item)).getD (strOf item)

/-- Only a JSON `true` turns it on. -/
def autoAcceptFlag : Option Json -> Bool
  | some (Json.bool b) => b
  | _ => false

def rawAgentId (raw : Json) : String :=
  (firstText raw ["agent_id", "id"]).getD "main"

def principalFromRaw (env : StampEnv) (raw : Json) :
    Except StampError EffectivePrincipal :=
  match validateAgentId (rawAgentId raw) with
  | Except.error e => Except.error e
  | Except.ok aid =>
      match rawVaultRoots env raw with
      | Except.error e => Except.error e
      | Except.ok roots =>
          match rawCapabilities raw with
          | Except.error e => Except.error e
          | Except.ok capabilities =>
              Except.ok
                { agent_id := aid
                  workspace_id :=
                    ((raw.field? "workspace_id").map strOf).getD "default"
                  capabilities := capabilities
                  allowed_vault_roots := roots
                  auto_accept_own :=
                    autoAcceptFlag (raw.field? "auto_accept_own") }

/-!
## The local stamp
-/

def fromOperatorConfig (env : StampEnv) (dir : PrincipalsDir) (name : String)
    (strict : Bool) : Except StampError (Option EffectivePrincipal) :=
  match loadRawPrincipalFile dir name strict with
  | Except.error e => Except.error e
  | Except.ok none => Except.ok none
  | Except.ok (some raw) => (principalFromRaw env raw).map some

def firstConfigured (env : StampEnv) (dir : PrincipalsDir) (strict : Bool) :
    List String -> Except StampError (Option EffectivePrincipal)
  | [] => Except.ok none
  | name :: rest =>
      match fromOperatorConfig env dir name strict with
      | Except.error e => Except.error e
      | Except.ok (some p) => Except.ok (some p)
      | Except.ok none => firstConfigured env dir strict rest

def deniedPrincipal (agent_id : String) : EffectivePrincipal where
  agent_id := agent_id
  workspace_id := "default"
  capabilities := []
  allowed_vault_roots := []
  auto_accept_own := false

def fromLocalTransport (env : StampEnv) (dir : PrincipalsDir) (strict : Bool) :
    Except StampError EffectivePrincipal :=
  match firstConfigured env dir strict canonicalPrincipalNames with
  | Except.error e => Except.error e
  | Except.ok (some p) => Except.ok p
  | Except.ok none =>
      if strict && !env.local_operator then Except.ok (deniedPrincipal "main")
      else Except.ok localOperator

/-!
## Platform and alias entries
-/

/-- `_string_list`. -/
def stringList : Option Json -> List String
  | some (Json.arr items) =>
      (items.map fun item => PyText.strip (strOf item)).filter (· ≠ "")
  | some (Json.str text) => [PyText.strip text].filter (· ≠ "")
  | _ => []

def principalAliases (raw : Json) : List String :=
  stringList (raw.field? "legacy_agent_ids") ++ stringList (raw.field? "aliases")

def platformAgentIds (raw : Json) : List String :=
  match raw.field? "platform_agent_ids" with
  | some (Json.arr items) => items.map strOf
  | _ => []

/-- The entry of the agent in the first of the maps that has one. -/
def mapEntry (raw : Json) (supplied : String) (keys : List String) :
    Option Json :=
  keys.findSome? fun key =>
    match raw.field? key with
    | some (Json.obj fields) => fields.lookup supplied
    | _ => none

def mappedCapabilities (raw : Json) (supplied : String) (keys : List String) :
    List String :=
  match mapEntry raw supplied keys with
  | some (Json.arr items) => items.map strOf
  | _ => []

def withoutOperatorCaps (capabilities : List String) : List String :=
  capabilities.filter fun c =>
    !(["*", "govern", "resolve_candidate"].contains c)

/-- Roots that do not resolve end the request. -/
def resolveRoots (env : StampEnv) :
    List String -> Except StampError (List String)
  | [] => Except.ok []
  | root :: rest =>
      match env.resolveText root with
      | none => Except.error (StampError.runtime "Could not determine home")
      | some text => (resolveRoots env rest).map fun roots => text :: roots

def rootText : Json -> Option String
  | Json.str text => if PyText.strip text = "" then none else some text
  | _ => none

def mappedRoots (env : StampEnv) (raw : Json) (supplied : String)
    (keys : List String) : Except StampError (List String) :=
  match mapEntry raw supplied keys with
  | none => Except.ok (env.defaultPlatformRoots supplied)
  | some (Json.arr items) =>
      let texts := items.filterMap rootText
      if texts.isEmpty then Except.ok [platformNoRootsSentinel]
      else resolveRoots env texts
  | some _ => Except.ok [platformNoRootsSentinel]

/-- The maps that an entry is read from. -/
structure MapKeys where
  cap_keys : List String
  root_keys : List String
  auto_keys : List String
  strip_operator_caps : Bool

def platformKeys : MapKeys where
  cap_keys := ["platform_agent_capabilities"]
  root_keys := ["platform_agent_vault_roots"]
  auto_keys := ["platform_agent_auto_accept_own"]
  strip_operator_caps := false

def aliasKeys : MapKeys where
  cap_keys := ["legacy_agent_capabilities", "platform_agent_capabilities"]
  root_keys := ["legacy_agent_vault_roots", "platform_agent_vault_roots"]
  auto_keys :=
    ["legacy_agent_auto_accept_own", "platform_agent_auto_accept_own"]
  strip_operator_caps := true

def buildMappedPrincipal (env : StampEnv) (stamped : EffectivePrincipal)
    (supplied : String) (keys : MapKeys) (raw : Json) :
    Except StampError EffectivePrincipal :=
  let resolved_caps := mappedCapabilities raw supplied keys.cap_keys
  (mappedRoots env raw supplied keys.root_keys).map fun resolved_roots =>
    { agent_id := supplied
      workspace_id :=
        match raw.field? "workspace_id" with
        | none => stamped.workspace_id
        | some Json.null => stamped.workspace_id
        | some value => strOf value
      capabilities :=
        if keys.strip_operator_caps then withoutOperatorCaps resolved_caps
        else resolved_caps
      allowed_vault_roots := resolved_roots
      auto_accept_own := autoAcceptFlag (mapEntry raw supplied keys.auto_keys) }

/-- The first canonical file, loaded strictly, that is not empty and that the
test accepts. -/
def findCanonical (dir : PrincipalsDir) (accepts : Json -> Bool) :
    List String -> Except StampError (Option Json)
  | [] => Except.ok none
  | name :: rest =>
      match loadRawPrincipalFile dir name true with
      | Except.error e => Except.error e
      | Except.ok (some raw) =>
          if (truthyText raw).isSome && accepts raw then Except.ok (some raw)
          else findCanonical dir accepts rest
      | Except.ok none => findCanonical dir accepts rest

/-- The aliases of all canonical files. -/
def canonicalAliases (dir : PrincipalsDir) :
    List String -> Except StampError (List String)
  | [] => Except.ok []
  | name :: rest =>
      match loadRawPrincipalFile dir name true with
      | Except.error e => Except.error e
      | Except.ok raw =>
          (canonicalAliases dir rest).map fun aliases =>
            (raw.map principalAliases).getD [] ++ aliases

/-!
## The stamp
-/

/-- The stamp of an operator context. -/
def stampOperator (dir : PrincipalsDir) (stamped : EffectivePrincipal)
    (supplied : String) : Except StampError EffectivePrincipal :=
  if supplied = stamped.agent_id then Except.ok stamped
  else if operatorReservedAgentIds.contains supplied &&
      operatorReservedAgentIds.contains stamped.agent_id then
    Except.ok stamped
  else if dir.strict && operatorReservedAgentIds.contains supplied then
    match canonicalAliases dir canonicalPrincipalNames with
    | Except.error e => Except.error e
    | Except.ok aliases =>
        if aliases.contains supplied then Except.ok stamped
        else Except.error
          (StampError.identityMismatch supplied stamped.agent_id "")
  else
    Except.error (StampError.identityMismatch supplied stamped.agent_id "")

/-- The stamp from the entries of the canonical files, or none at all. -/
def stampMapped (env : StampEnv) (dir : PrincipalsDir)
    (stamped : EffectivePrincipal) (supplied : String) :
    Except StampError EffectivePrincipal :=
  if !dir.strict then Except.ok (deniedPrincipal supplied)
  else
    match findCanonical dir (fun raw => (platformAgentIds raw).contains supplied)
        canonicalPrincipalNames with
    | Except.error e => Except.error e
    | Except.ok (some raw) =>
        buildMappedPrincipal env stamped supplied platformKeys raw
    | Except.ok none =>
        match findCanonical dir
            (fun raw => (principalAliases raw).contains supplied)
            canonicalPrincipalNames with
        | Except.error e => Except.error e
        | Except.ok (some raw) =>
            buildMappedPrincipal env stamped supplied aliasKeys raw
        | Except.ok none =>
            if operatorReservedAgentIds.contains stamped.agent_id then
              Except.ok (deniedPrincipal supplied)
            else Except.error
              (StampError.identityMismatch supplied stamped.agent_id "")

def stampNamed (env : StampEnv) (dir : PrincipalsDir)
    (stamped : EffectivePrincipal) (supplied : String) :
    Except StampError EffectivePrincipal :=
  let reserved := operatorReservedAgentIds.contains supplied
  if reserved && !env.operator_context && !env.local_operator then
    Except.ok (deniedPrincipal supplied)
  else if env.operator_context || reserved then
    stampOperator dir stamped supplied
  else
    match fromOperatorConfig env dir supplied true with
    | Except.error e => Except.error e
    | Except.ok (some p) =>
        if p.agent_id ≠ supplied then
          Except.error (StampError.identityMismatch supplied p.agent_id "")
        else Except.ok p
    | Except.ok none =>
        if supplied = stamped.agent_id then Except.ok stamped
        else stampMapped env dir stamped supplied

def stampEffectivePrincipal (env : StampEnv) (dir : PrincipalsDir)
    (supplied_agent_id : Option String) :
    Except StampError EffectivePrincipal :=
  match fromLocalTransport env dir dir.strict with
  | Except.error e => Except.error e
  | Except.ok stamped =>
      let supplied_raw := PyText.strip (supplied_agent_id.getD "")
      if supplied_raw = "" then Except.ok stamped
      else
        match validateAgentId supplied_raw with
        | Except.error (StampError.value text) =>
            Except.error (StampError.identityMismatch supplied_raw
              stamped.agent_id text)
        | Except.error e => Except.error e
        | Except.ok supplied => stampNamed env dir stamped supplied

/-!
## Who grants a stamp
-/

section Grants

variable (env : StampEnv) (dir : PrincipalsDir) (id : String)
variable (p : EffectivePrincipal)

/-- The file of the name, which names exactly this agent. -/
def StampOfFile (name : String) : Prop :=
  exists raw, loadRawPrincipalFile dir name true = Except.ok (some raw) ∧
    rawAgentId raw = id ∧ principalFromRaw env raw = Except.ok p

/-- A list of capabilities for exactly this agent. -/
def PlatformEntry : Prop :=
  exists name raw fields items, name ∈ canonicalPrincipalNames ∧
    loadRawPrincipalFile dir name true = Except.ok (some raw) ∧
    id ∈ platformAgentIds raw ∧
    raw.field? "platform_agent_capabilities" = some (Json.obj fields) ∧
    fields.lookup id = some (Json.arr items) ∧
    p.capabilities = items.map strOf

/-- A canonical file whose own agent is this one. -/
def CanonicalEntry : Prop :=
  exists name, name ∈ canonicalPrincipalNames ∧ StampOfFile env dir id p name

structure NamedStamp : Prop where
  agent_id : p.agent_id = id
  operator : isOperatorPrincipal p = true ->
    StampOfFile env dir id p id ∨ PlatformEntry dir id p ∨
      CanonicalEntry env dir id p
  reserved : id ∈ operatorReservedAgentIds -> isOperatorPrincipal p = false

end Grants

section Proofs

variable {env : StampEnv} {dir : PrincipalsDir} {id : String}
variable {p stamped : EffectivePrincipal}

theorem deniedPrincipal_not_operator (agent_id : String) :
    isOperatorPrincipal (deniedPrincipal agent_id) = false := by
  simp [isOperatorPrincipal, deniedPrincipal]

theorem namedStamp_denied (id : String) :
    NamedStamp env dir id (deniedPrincipal id) where
  agent_id := rfl
  operator := by
    intro hoperator
    rw [deniedPrincipal_not_operator] at hoperator
    cases hoperator
  reserved := fun _ => deniedPrincipal_not_operator id

theorem validateAgentId_ok
    {agent_id valid : String}
    (h : validateAgentId agent_id = Except.ok valid) : valid = agent_id := by
  unfold validateAgentId at h
  split at h
  · cases h
  · split at h
    · exact (Except.ok.inj h).symm
    · cases h

theorem principalFromRaw_agent_id
    {raw : Json} (h : principalFromRaw env raw = Except.ok p) :
    p.agent_id = rawAgentId raw := by
  unfold principalFromRaw at h
  cases hvalid : validateAgentId (rawAgentId raw) with
  | error e =>
      rw [hvalid] at h
      cases h
  | ok aid =>
      rw [hvalid] at h
      cases hroots : rawVaultRoots env raw with
      | error e =>
          rw [hroots] at h
          cases h
      | ok roots =>
          rw [hroots] at h
          cases hcaps : rawCapabilities raw with
          | error e =>
              rw [hcaps] at h
              cases h
          | ok capabilities =>
              rw [hcaps] at h
              rw [← Except.ok.inj h]
              exact validateAgentId_ok hvalid

theorem fromOperatorConfig_some
    {name : String} {strict : Bool}
    (h : fromOperatorConfig env dir name strict = Except.ok (some p)) :
    exists raw, loadRawPrincipalFile dir name strict = Except.ok (some raw) ∧
      principalFromRaw env raw = Except.ok p := by
  unfold fromOperatorConfig at h
  cases hload : loadRawPrincipalFile dir name strict with
  | error e =>
      rw [hload] at h
      cases h
  | ok loaded =>
      rw [hload] at h
      cases loaded with
      | none =>
          cases h
      | some raw =>
          cases hraw : principalFromRaw env raw with
          | error e =>
              simp [hraw, Except.map] at h
          | ok built =>
              simp [hraw, Except.map] at h
              rw [h] at hraw
              exact ⟨raw, rfl, hraw⟩

theorem firstConfigured_some
    {strict : Bool} {names : List String}
    (h : firstConfigured env dir strict names = Except.ok (some p)) :
    exists name, name ∈ names ∧
      fromOperatorConfig env dir name strict = Except.ok (some p) := by
  induction names with
  | nil =>
      cases h
  | cons name rest ih =>
      unfold firstConfigured at h
      cases hconfig : fromOperatorConfig env dir name strict with
      | error e =>
          rw [hconfig] at h
          cases h
      | ok found =>
          rw [hconfig] at h
          cases found with
          | none =>
              rcases ih h with ⟨other, hother, hstamp⟩
              exact ⟨other, List.mem_cons_of_mem _ hother, hstamp⟩
          | some built =>
              rw [Option.some.inj (Except.ok.inj h)] at hconfig
              exact ⟨name, List.mem_cons_self .., hconfig⟩

/-- A file can only be loaded where there are files. -/
theorem load_strict
    {name : String} {raw : Json}
    (h : loadRawPrincipalFile dir name dir.strict = Except.ok (some raw)) :
    loadRawPrincipalFile dir name true = Except.ok (some raw) := by
  cases hfiles : dir.files with
  | nil =>
      unfold loadRawPrincipalFile at h
      rw [hfiles] at h
      cases h
  | cons file rest =>
      have hstrict : dir.strict = true := by
        unfold PrincipalsDir.strict
        rw [hfiles]
        rfl
      rw [hstrict] at h
      exact h

/-- The local stamp is that of a canonical file, or has a reserved name. -/
theorem fromLocalTransport_cases
    (h : fromLocalTransport env dir dir.strict = Except.ok stamped) :
    stamped.agent_id ∈ operatorReservedAgentIds ∨
      CanonicalEntry env dir stamped.agent_id stamped := by
  unfold fromLocalTransport at h
  cases hfirst : firstConfigured env dir dir.strict canonicalPrincipalNames with
  | error e =>
      rw [hfirst] at h
      cases h
  | ok found =>
      rw [hfirst] at h
      cases found with
      | none =>
          apply Or.inl
          dsimp only at h
          split at h
          · rw [← Except.ok.inj h]
            decide
          · rw [← Except.ok.inj h]
            decide
      | some built =>
          apply Or.inr
          rw [Except.ok.inj h] at hfirst
          rcases firstConfigured_some hfirst with ⟨name, hname, hconfig⟩
          rcases fromOperatorConfig_some hconfig with ⟨raw, hload, hraw⟩
          exact ⟨name, hname, raw, load_strict hload,
            (principalFromRaw_agent_id hraw).symm, hraw⟩

theorem findCanonical_some
    {accepts : Json -> Bool} {names : List String} {raw : Json}
    (h : findCanonical dir accepts names = Except.ok (some raw)) :
    exists name, name ∈ names ∧
      loadRawPrincipalFile dir name true = Except.ok (some raw) ∧
      accepts raw = true := by
  induction names with
  | nil =>
      cases h
  | cons name rest ih =>
      have hlater : findCanonical dir accepts rest = Except.ok (some raw) ->
          exists other, other ∈ name :: rest ∧
            loadRawPrincipalFile dir other true = Except.ok (some raw) ∧
            accepts raw = true := by
        intro hrest
        rcases ih hrest with ⟨other, hother, hfound⟩
        exact ⟨other, List.mem_cons_of_mem _ hother, hfound⟩
      unfold findCanonical at h
      cases hload : loadRawPrincipalFile dir name true with
      | error e =>
          rw [hload] at h
          cases h
      | ok loaded =>
          rw [hload] at h
          cases loaded with
          | none =>
              exact hlater h
          | some found =>
              dsimp only at h
              split at h
              · rename_i haccepts
                rw [Bool.and_eq_true] at haccepts
                rw [Option.some.inj (Except.ok.inj h)] at hload haccepts
                exact ⟨name, List.mem_cons_self .., hload, haccepts.right⟩
              · exact hlater h

/-- An operator by a capability has it in the list. -/
theorem operator_capable
    (hoperator : isOperatorPrincipal p = true)
    (hnamed : p.agent_id ∉ operatorReservedAgentIds) :
    "*" ∈ p.capabilities ∨ "resolve_candidate" ∈ p.capabilities ∨
      "govern" ∈ p.capabilities := by
  unfold isOperatorPrincipal at hoperator
  split at hoperator
  · rename_i hcaps
    rw [Bool.or_eq_true, Bool.or_eq_true, List.contains_iff_mem,
      List.contains_iff_mem, List.contains_iff_mem] at hcaps
    rcases hcaps with (hstar | hresolve) | hgovern
    · exact Or.inl hstar
    · exact Or.inr (Or.inl hresolve)
    · exact Or.inr (Or.inr hgovern)
  · have hname : p.agent_id ∈ operatorReservedAgentIds := by
      simp [operatorReservedAgentIds] at hoperator ⊢
      tauto
    exact absurd hname hnamed

theorem buildMapped_ok
    {keys : MapKeys} {raw : Json}
    (h : buildMappedPrincipal env stamped id keys raw = Except.ok p) :
    p.agent_id = id ∧
    p.capabilities =
      (if keys.strip_operator_caps then
        withoutOperatorCaps (mappedCapabilities raw id keys.cap_keys)
      else mappedCapabilities raw id keys.cap_keys) := by
  unfold buildMappedPrincipal at h
  cases hroots : mappedRoots env raw id keys.root_keys with
  | error e =>
      simp [hroots, Except.map] at h
  | ok roots =>
      simp only [hroots, Except.map] at h
      rw [← Except.ok.inj h]
      exact ⟨rfl, rfl⟩

/-- The entry of an alias loses what makes an operator. -/
theorem alias_not_operator
    {raw : Json} (hnamed : id ∉ operatorReservedAgentIds)
    (h : buildMappedPrincipal env stamped id aliasKeys raw = Except.ok p) :
    isOperatorPrincipal p = false := by
  rcases buildMapped_ok h with ⟨hid, hcaps⟩
  rw [← Bool.not_eq_true]
  intro hoperator
  rw [← hid] at hnamed
  have hcapable := operator_capable hoperator hnamed
  rw [hcaps] at hcapable
  simp [aliasKeys, withoutOperatorCaps] at hcapable

theorem platform_entry
    {raw : Json} {name : String} (hname : name ∈ canonicalPrincipalNames)
    (hload : loadRawPrincipalFile dir name true = Except.ok (some raw))
    (hids : id ∈ platformAgentIds raw)
    (hnamed : id ∉ operatorReservedAgentIds)
    (h : buildMappedPrincipal env stamped id platformKeys raw = Except.ok p)
    (hoperator : isOperatorPrincipal p = true) :
    PlatformEntry dir id p := by
  rcases buildMapped_ok h with ⟨hid, hcaps⟩
  rw [← hid] at hnamed
  have hcapable := operator_capable hoperator hnamed
  have hmapped : p.capabilities =
      mappedCapabilities raw id ["platform_agent_capabilities"] := hcaps
  rw [hmapped] at hcapable
  unfold mappedCapabilities mapEntry at hmapped hcapable
  cases hfield : raw.field? "platform_agent_capabilities" with
  | none =>
      simp [hfield] at hcapable
  | some value =>
      cases value with
      | obj fields =>
          cases hentry : fields.lookup id with
          | none =>
              simp [hfield, hentry] at hcapable
          | some entry =>
              cases entry with
              | arr items =>
                  simp [hfield, hentry] at hmapped
                  exact ⟨name, raw, fields, items, hname, hload, hids, hfield,
                    hentry, hmapped⟩
              | _ =>
                  simp [hfield, hentry] at hcapable
      | _ =>
          simp [hfield] at hcapable

theorem stampMapped_named
    (hnamed : id ∉ operatorReservedAgentIds)
    (h : stampMapped env dir stamped id = Except.ok p) :
    NamedStamp env dir id p := by
  unfold stampMapped at h
  split at h
  · rw [← Except.ok.inj h]
    exact namedStamp_denied id
  · cases hplatform : findCanonical dir
        (fun raw => (platformAgentIds raw).contains id)
        canonicalPrincipalNames with
    | error e =>
        rw [hplatform] at h
        cases h
    | ok found =>
        rw [hplatform] at h
        cases found with
        | some raw =>
            rcases findCanonical_some hplatform with
              ⟨name, hname, hload, haccepts⟩
            constructor
            · exact (buildMapped_ok h).left
            · intro hoperator
              exact Or.inr (Or.inl (platform_entry hname hload
                (List.contains_iff_mem.mp haccepts) hnamed h hoperator))
            · intro hreserved
              exact absurd hreserved hnamed
        | none =>
            cases halias : findCanonical dir
                (fun raw => (principalAliases raw).contains id)
                canonicalPrincipalNames with
            | error e =>
                rw [halias] at h
                cases h
            | ok found =>
                rw [halias] at h
                cases found with
                | some raw =>
                    constructor
                    · exact (buildMapped_ok h).left
                    · intro hoperator
                      rw [alias_not_operator hnamed h] at hoperator
                      cases hoperator
                    · intro hreserved
                      exact absurd hreserved hnamed
                | none =>
                    dsimp only at h
                    split at h
                    · rw [← Except.ok.inj h]
                      exact namedStamp_denied id
                    · cases h

theorem stampNamed_named
    (hcontext : env.operator_context = false)
    (hlocal : env.local_operator = false)
    (hstamped : fromLocalTransport env dir dir.strict = Except.ok stamped)
    (h : stampNamed env dir stamped id = Except.ok p) :
    NamedStamp env dir id p := by
  unfold stampNamed at h
  dsimp only at h
  rw [hcontext, hlocal, Bool.not_false, Bool.and_true, Bool.and_true,
    Bool.false_or] at h
  cases hreserved : operatorReservedAgentIds.contains id with
  | true =>
      rw [hreserved, if_pos rfl] at h
      rw [← Except.ok.inj h]
      exact namedStamp_denied id
  | false =>
      rw [hreserved, if_neg Bool.false_ne_true,
        if_neg Bool.false_ne_true] at h
      have hnamed : id ∉ operatorReservedAgentIds := by
        intro hmem
        rw [List.contains_iff_mem.mpr hmem] at hreserved
        cases hreserved
      cases hown : fromOperatorConfig env dir id true with
      | error e =>
          rw [hown] at h
          cases h
      | ok found =>
          rw [hown] at h
          cases found with
          | some built =>
              dsimp only at h
              split at h
              · cases h
              · rename_i hsame
                rw [Except.ok.inj h] at hown hsame
                rcases fromOperatorConfig_some hown with ⟨raw, hload, hraw⟩
                have hid : p.agent_id = id := not_not.mp hsame
                constructor
                · exact hid
                · intro _
                  exact Or.inl ⟨raw, hload,
                    (principalFromRaw_agent_id hraw).symm.trans hid, hraw⟩
                · intro hmem
                  exact absurd hmem hnamed
          | none =>
              dsimp only at h
              split at h
              · rename_i hsame
                rw [← Except.ok.inj h]
                rcases fromLocalTransport_cases hstamped with
                  hmem | hcanonical
                · rw [← hsame] at hmem
                  exact absurd hmem hnamed
                · rw [← hsame] at hcanonical
                  constructor
                  · exact hsame.symm
                  · intro _
                    exact Or.inr (Or.inr hcanonical)
                  · intro hmem
                    exact absurd hmem hnamed
              · exact stampMapped_named hnamed h

end Proofs

theorem named_stamp
    (env : StampEnv) (dir : PrincipalsDir) (supplied : String)
    (hcontext : env.operator_context = false)
    (hlocal : env.local_operator = false)
    (hsupplied : PyText.strip supplied ≠ "") (p : EffectivePrincipal)
    (h : stampEffectivePrincipal env dir (some supplied) = Except.ok p) :
    NamedStamp env dir (PyText.strip supplied) p := by
  unfold stampEffectivePrincipal at h
  cases hstamped : fromLocalTransport env dir dir.strict with
  | error e =>
      rw [hstamped] at h
      cases h
  | ok stamped =>
      rw [hstamped] at h
      dsimp only [Option.getD] at h
      rw [if_neg hsupplied] at h
      cases hvalid : validateAgentId (PyText.strip supplied) with
      | error e =>
          rw [hvalid] at h
          cases e with
          | _ =>
              cases h
      | ok valid =>
          rw [hvalid, validateAgentId_ok hvalid] at h
          exact stampNamed_named hcontext hlocal hstamped h

/-!
## A local stamp with the name of an agent

The local principal file may itself be that of a named agent.  The agent then
has the local stamp, with no file of its name and no platform entry.
-/

def plainStampEnv : StampEnv where
  operator_context := false
  local_operator := false
  resolveText := some
  defaultPlatformRoots := fun agent_id => ["/vaults/" ++ agent_id]

def localIsCodex : PrincipalsDir where
  files :=
    [("local",
      { exposed := false
        data := some (Json.obj [("agent_id", Json.str "codex")]) })]

def codexStamp : EffectivePrincipal where
  agent_id := "codex"
  workspace_id := "default"
  capabilities := ["*"]
  allowed_vault_roots := []
  auto_accept_own := false

theorem local_stamp_of_agent :
    ¬ forall (env : StampEnv) (dir : PrincipalsDir) (supplied : String) p,
      env.operator_context = false -> env.local_operator = false ->
      PyText.strip supplied ≠ "" ->
      stampEffectivePrincipal env dir (some supplied) = Except.ok p ->
      p.agent_id = PyText.strip supplied ∧
      (isOperatorPrincipal p = true ->
        StampOfFile env dir (PyText.strip supplied) p (PyText.strip supplied) ∨
          PlatformEntry dir (PyText.strip supplied) p) := by
  intro hclaim
  have hstamp : stampEffectivePrincipal plainStampEnv localIsCodex
      (some "codex") = Except.ok codexStamp := by
    decide +kernel
  have hstrip : PyText.strip "codex" = "codex" := by
    decide +kernel
  have hlaw := hclaim plainStampEnv localIsCodex "codex" codexStamp rfl rfl
    (by decide +kernel) hstamp
  rw [hstrip] at hlaw
  rcases hlaw.right (by decide +kernel) with hfile | hentry
  · rcases hfile with ⟨raw, hload, _⟩
    cases hload
  · rcases hentry with ⟨name, raw, fields, items, hname, hload, hids, _⟩
    have hlocal : raw = Json.obj [("agent_id", Json.str "codex")] := by
      simp [canonicalPrincipalNames] at hname
      rcases hname with hname | hname | hname | hname
      · rw [hname] at hload
        exact (Option.some.inj (Except.ok.inj hload)).symm
      · rw [hname] at hload
        cases hload
      · rw [hname] at hload
        cases hload
      · rw [hname] at hload
        cases hload
    rw [hlocal] at hids
    cases hids

theorem named_stamp_codex :
    NamedStamp plainStampEnv localIsCodex "codex" codexStamp := by
  have hnamed := named_stamp plainStampEnv localIsCodex "codex" rfl rfl
    (by decide +kernel) codexStamp (by decide +kernel)
  have hstrip : PyText.strip "codex" = "codex" := by
    decide +kernel
  rw [hstrip] at hnamed
  exact hnamed

end Daemon
end Minni
