import Mathlib.Logic.Function.Basic
import Minni.Foundation.Dict
import Minni.Foundation.TransitionSystem

/-!
# The wire registry

One file, `wired.json`, lists the installations that were wired, the hosts with
what an operator verified about them, and a generation number.  Two of its
writers read and write it under one lock.  The other two read it without the
lock and later write the whole document under it.
-/

namespace Minni
namespace Wire

open Foundation

/-!
## The document
-/

structure WireRecord where
  platform : String
  config_path : String
  install_root : String
  version : String
  workspace : Option String
  wired_at : String
  deriving DecidableEq, Repr

inductive ContainerMode where
  | symlink_subtrees
  | staged_copy
  deriving DecidableEq, Repr

structure UiScannerGate where
  container_mode : ContainerMode
  verified : Bool
  verified_at : Option String
  probe_evidence : String
  deriving DecidableEq, Repr

structure Surface where
  kind : String
  container_mode : Option ContainerMode
  deriving DecidableEq, Repr

structure HostEntry where
  ui_scanner_gate : Option UiScannerGate
  workspace_pinned_by_operator : Option Bool
  surfaces : List Surface
  deriving DecidableEq, Repr

/-- A dictionary in the order of its keys. -/
abbrev Hosts := List (String × HostEntry)

/-- The fields `schema_version` and `hosts` are missing in a document of the
first schema. -/
structure WiredDoc where
  schema_version : Option Nat
  schema : Nat
  generation : Int
  active_version : String
  base_semver : String
  git_commit_sha : String
  active_root : String
  stable_root : String
  updated_at : String
  hosts : Option Hosts
  wires : List WireRecord
  deriving DecidableEq, Repr

def emptyDoc : WiredDoc where
  schema_version := none
  schema := 1
  generation := 0
  active_version := ""
  base_semver := ""
  git_commit_sha := ""
  active_root := ""
  stable_root := ""
  updated_at := ""
  hosts := none
  wires := []

def loadWired (file : Option WiredDoc) : WiredDoc :=
  file.getD emptyDoc

/-!
## Locked updates
-/

/-- The two records have one platform and one config path. -/
def sameWire (record wire : WireRecord) : Bool :=
  decide (wire.platform = record.platform) &&
    decide (wire.config_path = record.config_path)

def putWire (record : WireRecord) : List WireRecord -> List WireRecord
  | [] => [record]
  | wire :: rest =>
      if sameWire record wire then record :: rest
      else wire :: putWire record rest

/-- What `upsert_wire` checks before it publishes. -/
def expectedHolds (record : WireRecord) (expected_record : Option WireRecord)
    (data : WiredDoc) : Bool :=
  match expected_record with
  | none => true
  | some expected => decide (data.wires.filter (sameWire record) = [expected])

def upsertDoc (record : WireRecord) (data : WiredDoc) : WiredDoc :=
  { data with
    wires := putWire record data.wires
    generation := data.generation + 1 }

def keptWires (platform : String) (data : WiredDoc) : List WireRecord :=
  data.wires.filter fun wire => decide (wire.platform ≠ platform)

def retireDoc (platform : String) (data : WiredDoc) : WiredDoc :=
  { data with
    wires := keptWires platform data
    generation := data.generation + 1 }

def detectOutOfBand (pre_write_gen start_gen : Int) : Option String :=
  if pre_write_gen ≠ start_gen then
    some "wired.json generation changed since read; possible out-of-band edit"
  else
    none

/-!
## Documents of the second schema
-/

/-- The hosts whose container an operator verifies. -/
inductive UiScannerHost where
  | antigravity
  | cursor
  deriving DecidableEq, Repr

def UiScannerHost.id : UiScannerHost -> String
  | antigravity => "antigravity"
  | cursor => "cursor"

/-- The host catalog, expanded for one home. -/
structure Catalog where
  plugin_base : String
  expand_host_surface_catalog : String -> Hosts
  listed : forall base_semver (host : UiScannerHost),
    ((expand_host_surface_catalog base_semver).lookup host.id).isSome = true

/-- What a new document keeps of a host of the prior one. -/
def preserveHost (prior_hosts : Option Hosts) (host_id : String)
    (host : HostEntry) : HostEntry :=
  match prior_hosts.bind (·.lookup host_id) with
  | none => host
  | some prior_host =>
      { host with
        ui_scanner_gate := prior_host.ui_scanner_gate.or host.ui_scanner_gate
        workspace_pinned_by_operator :=
          prior_host.workspace_pinned_by_operator.or
            host.workspace_pinned_by_operator }

def rootOf (catalog : Catalog) (name : String) : String :=
  catalog.plugin_base ++ "/" ++ name

def buildWiredV2 (catalog : Catalog)
    (active_version base_semver git_commit_sha updated_at : String)
    (prior : WiredDoc) : WiredDoc where
  schema_version := some 2
  schema := 2
  generation := prior.generation + 1
  active_version := active_version
  base_semver := base_semver
  git_commit_sha := git_commit_sha
  active_root :=
    if active_version ≠ "" then rootOf catalog active_version
    else prior.active_root
  stable_root := rootOf catalog "current"
  updated_at := updated_at
  hosts := some ((catalog.expand_host_surface_catalog base_semver).map
    fun listed => (listed.1, preserveHost prior.hosts listed.1 listed.2))
  wires := prior.wires

/-!
## Unlocked updates
-/

structure GateArgs where
  host_id : UiScannerHost
  container_mode : ContainerMode
  evidence : String
  verified : Bool
  updated_at : String
  verified_at : String
  deriving DecidableEq, Repr

def gateRecord (args : GateArgs) : UiScannerGate where
  container_mode := args.container_mode
  verified := args.verified
  verified_at := if args.verified then some args.verified_at else none
  probe_evidence := args.evidence

def gateSurface (args : GateArgs) (surf : Surface) : Surface :=
  if surf.kind = "plugin_container" then
    { surf with
      container_mode :=
        some (if args.verified then args.container_mode
          else ContainerMode.staged_copy) }
  else
    surf

def emptyHost : HostEntry where
  ui_scanner_gate := none
  workspace_pinned_by_operator := none
  surfaces := []

def orDefault (text default : String) : String :=
  if text = "" then default else text

/-- The document `record_ui_scanner_gate` sets the gate in. -/
def gateBase (catalog : Catalog) (args : GateArgs) (existing : WiredDoc) :
    WiredDoc :=
  if existing.schema_version ≠ some 2 ∨ existing.hosts = none then
    buildWiredV2 catalog existing.active_version
      (orDefault existing.base_semver "0.6.0") existing.git_commit_sha
      args.updated_at existing
  else
    { existing with
      generation := existing.generation + 1
      updated_at := args.updated_at }

def gateDoc (catalog : Catalog) (args : GateArgs) (existing : WiredDoc) :
    WiredDoc :=
  let data := gateBase catalog args existing
  let hosts := data.hosts.getD []
  let host_entry := (hosts.lookup args.host_id.id).getD emptyHost
  { data with
    hosts := some (Dict.set args.host_id.id
      { host_entry with
        ui_scanner_gate := some (gateRecord args)
        surfaces := host_entry.surfaces.map (gateSurface args) }
      hosts) }

/-- What the end of a cutover needs of what the cutover did before: `converged`
says that no surface, no container and no link was changed. -/
structure CutoverArgs where
  target_version : String
  target_git_sha : String
  converged : Bool
  updated_at : String
  deriving DecidableEq, Repr

def cutoverDoc (catalog : Catalog) (args : CutoverArgs)
    (wired_doc : WiredDoc) : WiredDoc :=
  buildWiredV2 catalog args.target_version "0.6.0" args.target_git_sha
    args.updated_at wired_doc

/-- Dictionaries compare without the order of their keys. -/
def sameHosts (hosts others : Hosts) : Bool :=
  Dict.allKeys (fun id => decide (hosts.lookup id = others.lookup id))
    hosts others

def alreadyWiredV2Identical (catalog : Catalog) (args : CutoverArgs)
    (wired_doc : WiredDoc) : Bool :=
  let new_wired := cutoverDoc catalog args wired_doc
  args.converged && decide (wired_doc.schema_version = some 2) &&
    decide (wired_doc.active_version = args.target_version) &&
    decide (wired_doc.git_commit_sha = args.target_git_sha) &&
    (match wired_doc.hosts with
      | none => false
      | some hosts => sameHosts hosts (new_wired.hosts.getD [])) &&
    decide (wired_doc.wires = new_wired.wires)

/-!
## Calls
-/

inductive Call where
  | upsert_wire (record : WireRecord) (expected_record : Option WireRecord)
  | retire_platform (platform : String)
  | record_ui_scanner_gate (args : GateArgs)
  | execute_atomic_cutover (args : CutoverArgs)
  deriving DecidableEq, Repr

def readsUnderLock : Call -> Bool
  | Call.upsert_wire _ _ => true
  | Call.retire_platform _ => true
  | Call.record_ui_scanner_gate _ => false
  | Call.execute_atomic_cutover _ => false

/-- The document the call writes when it has read `data`. -/
def newDoc (catalog : Catalog) (call : Call) (data : WiredDoc) :
    Option WiredDoc :=
  match call with
  | Call.upsert_wire record expected_record =>
      if expectedHolds record expected_record data then
        some (upsertDoc record data)
      else
        none
  | Call.retire_platform platform =>
      if (keptWires platform data).length = data.wires.length then none
      else some (retireDoc platform data)
  | Call.record_ui_scanner_gate args => some (gateDoc catalog args data)
  | Call.execute_atomic_cutover args =>
      if alreadyWiredV2Identical catalog args data then none
      else some (cutoverDoc catalog args data)

/-!
## Processes

A locked call goes from `called` over `locked` to `ready`, an unlocked one from
`called` over `readAhead` to `ready`.  A call that is ready has the lock.
-/

inductive Stage where
  | called
  | locked
  | readAhead (data : WiredDoc)
  | ready (data : WiredDoc)
  | written
  deriving DecidableEq, Repr

def Stage.holdsLock : Stage -> Bool
  | called => false
  | locked => true
  | readAhead _ => false
  | ready _ => true
  | written => true

/-- The document the process has read. -/
def Stage.data? : Stage -> Option WiredDoc
  | called => none
  | locked => none
  | readAhead data => some data
  | ready data => some data
  | written => none

structure Process where
  call : Call
  stage : Stage
  deriving DecidableEq, Repr

/-- One replacement of the file, with the warning its writer gave. -/
structure Written where
  call : Call
  doc : WiredDoc
  warning : Option String
  deriving DecidableEq, Repr

/-- The list `writes` is the history of the file, the last write at its end. -/
structure Registry where
  file : Option WiredDoc
  lock : Option Nat
  processes : Nat -> Option Process
  writes : List Written

inductive Event where
  | call (pid : Nat) (call : Call)
  | lock (pid : Nat)
  | load (pid : Nat)
  | write (pid : Nat)
  | leave (pid : Nat)
  | abort (pid : Nat)
  deriving DecidableEq, Repr

def Registry.enter (s : Registry) (pid : Nat) (p : Process) : Registry :=
  { s with processes := Function.update s.processes pid (some p) }

/-- The process is gone, and with it the lock if it had it. -/
def Registry.exit (s : Registry) (pid : Nat) : Registry :=
  { s with
    lock := if s.lock = some pid then none else s.lock
    processes := Function.update s.processes pid none }

def takeLock (catalog : Catalog) (s : Registry) (pid : Nat) (p : Process) :
    Option Registry :=
  if s.lock = none then
    match p.stage with
    | Stage.called =>
        if readsUnderLock p.call then
          some ({ s with lock := some pid }.enter pid
            { p with stage := Stage.locked })
        else
          none
    | Stage.readAhead data =>
        if (newDoc catalog p.call data).isSome then
          some ({ s with lock := some pid }.enter pid
            { p with stage := Stage.ready data })
        else
          none
    | _ => none
  else
    none

def load (s : Registry) (pid : Nat) (p : Process) : Option Registry :=
  match p.stage with
  | Stage.called =>
      if readsUnderLock p.call then none
      else
        some (s.enter pid
          { p with stage := Stage.readAhead (loadWired s.file) })
  | Stage.locked =>
      some (s.enter pid { p with stage := Stage.ready (loadWired s.file) })
  | _ => none

/-- Only `upsert_wire` reads the file again before it writes. -/
def outOfBandWarning (s : Registry) (call : Call) (data : WiredDoc) :
    Option String :=
  match call with
  | Call.upsert_wire _ _ =>
      detectOutOfBand (loadWired s.file).generation data.generation
  | _ => none

def write (catalog : Catalog) (s : Registry) (pid : Nat) (p : Process) :
    Option Registry :=
  match p.stage with
  | Stage.ready data =>
      match newDoc catalog p.call data with
      | none => none
      | some doc =>
          some ({ s with
            file := some doc
            writes := s.writes ++
              [Written.mk p.call doc (outOfBandWarning s p.call data)] }.enter
                pid { p with stage := Stage.written })
  | _ => none

/-- A call ends when it has written, or when it has nothing to write. -/
def leaves (catalog : Catalog) (p : Process) : Bool :=
  match p.stage with
  | Stage.written => true
  | stage =>
      match stage.data? with
      | none => false
      | some data => (newDoc catalog p.call data).isNone

def next (catalog : Catalog) (s : Registry) (event : Event) :
    Option Registry :=
  match event with
  | Event.call pid call =>
      match s.processes pid with
      | none => some (s.enter pid ⟨call, Stage.called⟩)
      | some _ => none
  | Event.lock pid => (s.processes pid).bind (takeLock catalog s pid)
  | Event.load pid => (s.processes pid).bind (load s pid)
  | Event.write pid => (s.processes pid).bind (write catalog s pid)
  | Event.leave pid =>
      (s.processes pid).bind fun p =>
        if leaves catalog p then some (s.exit pid) else none
  | Event.abort pid => (s.processes pid).map fun _ => s.exit pid

def initial (s : Registry) : Prop :=
  s.lock = none ∧ s.processes = (fun _ => none) ∧ s.writes = []

def registry (catalog : Catalog) : TransitionSystem Registry Event :=
  TransitionSystem.OfNext initial (next catalog)

end Wire
end Minni
