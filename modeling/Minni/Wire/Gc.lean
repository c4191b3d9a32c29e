import Mathlib.Data.List.Infix
import Mathlib.Algebra.Order.Ring.Rat
import Minni.Foundation.PathName
import Minni.Foundation.PyText
import Minni.Wire.Wired

/-!
# The collection of plugin versions

The plugin directory of a home holds one directory for each version that was
installed.  A collection keeps the newest versions and those that something
still uses: the registry, the `current` link, the configurations of the hosts,
leases, open files and processes.  The others are removed, with what is left of
interrupted installs.
-/

namespace Minni
namespace Wire

open Foundation
open Foundation.PathName

/-!
## Versions
-/

/-- `packaging.version.Version`, and `\w` of the regular expressions. -/
structure VersionHost (V : Type) where
  parse : String -> Option V
  isLocal : V -> Bool
  isWord : Char -> Bool
  /-- The name of the link is no version. -/
  current_no_version : parse "current" = none

def startsWith (start text : String) : Bool :=
  start.toList.isPrefixOf text.toList

def contains (part text : String) : Bool :=
  decide (part.toList <:+: text.toList)

/-- The end of the pattern also stands before a last line break. -/
def withoutBreak (chars : List Char) : List Char :=
  if chars.getLast? = some '\n' then chars.dropLast else chars

def isSafeVersionSegment {V : Type} (host : VersionHost V) (value : String) :
    Bool :=
  let body := withoutBreak value.toList
  !body.isEmpty &&
    (body.all fun c => host.isWord c || c = '.' || c = '+' || c = '-') &&
    !contains ".." value && !contains "/" value

/-!
## A home
-/

/-- An entry of the plugin directory; `is_dir` follows links. -/
structure Child where
  name : String
  is_dir : Bool
  is_symlink : Bool
  /-- The time of the manifest, or else that of the directory. -/
  built_epoch : Rat
  deriving DecidableEq, Repr

/-- A file or link at any depth in a directory. -/
structure InsideEntry where
  path : String
  link : Option String
  text : Option String
  deriving DecidableEq, Repr

/-- What is found at a path, through links; a text may not be readable. -/
inductive PathTarget where
  | missing
  | file (text : Option String)
  | dir (inside : List InsideEntry)
  deriving DecidableEq, Repr

structure ScanPath where
  /-- The target of a link. -/
  link : Option String
  target : PathTarget
  deriving DecidableEq, Repr

/-- A lease that can be read. -/
structure Lease where
  pid : Int
  alive : Bool
  version_root : String
  deriving DecidableEq, Repr

structure HomeFiles where
  children : List Child
  /-- The target of the link `current`. -/
  current : Option String
  /-- The entry that `current` resolves to. -/
  current_resolves : Option String
  wired : WiredDoc
  /-- The surfaces of the host catalog. -/
  catalog : List ScanPath
  /-- The other paths that are scanned. -/
  other_paths : List ScanPath
  leases : List Lease
  home_real : String
  base_real : String
  distinct : children.Pairwise fun a b => a.name ≠ b.name
  simple : forall child, child ∈ children -> Simple child.name

structure LiveProcess where
  pid : Int
  command : String
  lstart_epoch : Option Rat
  /-- The open files and the working directory. -/
  open_paths : List String
  deriving DecidableEq, Repr

structure Machine where
  /-- The home of the process that collects. -/
  user_home : String
  homes : String -> HomeFiles
  processes : List LiveProcess

structure GcArgs where
  home : Option String
  keep_last : Nat
  prev_target : Option String
  legacy_unpinned_lstarts : List Rat
  extra_protected : List String

structure GcFlags where
  prune : Option Bool
  stdin_is_tty : Bool
  dry_run : Bool
  /-- The answer to the question, unless the input ends. -/
  answer : Option String

def pluginBase (home : String) : String :=
  home ++ "/.minni/plugin"

section Gc

variable {V : Type} [LinearOrder V] (host : VersionHost V)
variable (m : Machine) (args : GcArgs)

def GcArgs.homeDir : String :=
  args.home.getD m.user_home

def GcArgs.base : String :=
  pluginBase (args.homeDir m)

def GcArgs.files : HomeFiles :=
  m.homes (args.homeDir m)

/-!
## Version directories
-/

def versionOf (child : Child) : Option (Child × V) :=
  if child.is_dir && !child.is_symlink && !startsWith "." child.name &&
      isSafeVersionSegment host child.name then
    (host.parse child.name).map fun version => (child, version)
  else none

/-- `_all_version_dirs`, the newest first. -/
def allVersionDirs : List (Child × V) :=
  ((args.files m).children.filterMap (versionOf host)).mergeSort
    fun a b => decide (b.2 ≤ a.2)

def releaseVersionDirs : List (Child × V) :=
  (allVersionDirs host m args).filter fun entry => !host.isLocal entry.2

/-- `_version_dirs_by_built_at`, the newest first. -/
def versionDirsByBuiltAt : List (String × Rat) :=
  ((allVersionDirs host m args).map fun entry =>
    (entry.1.name, entry.1.built_epoch)).mergeSort
      fun a b => decide (b.2 ≤ a.2)

/-!
## Uses
-/

def wiredInstallRoots (data : WiredDoc) : List String :=
  (data.wires.map fun wire => wire.install_root).filter (fun root => root ≠ "")
    ++ if data.active_root = "" then [] else [data.active_root]

def refersTo (version_dir : String) (text : String) : Bool :=
  contains version_dir text ||
    contains (".minni/plugin/" ++ nameOf version_dir) text

def linkRefers (version_dir : String) (link : Option String) : Bool :=
  match link with
  | none => false
  | some target => refersTo version_dir target

def subtrees : List String :=
  ["dist", "node_modules", "skills", "commands", "hooks"]

def pathRefers (version_dir : String) (path : ScanPath) : Bool :=
  linkRefers version_dir path.link ||
    match path.link, path.target with
    | none, .dir inside =>
        inside.any fun entry =>
          subtrees.contains entry.path && linkRefers version_dir entry.link
    | _, .file text => linkRefers version_dir text
    | _, _ => false

/-- The configuration paths that are scanned hold the catalog. -/
def pathsToScan : List ScanPath :=
  (args.files m).other_paths ++ (args.files m).catalog

def configReferencesDir (version_dir : String) : Bool :=
  (pathsToScan m args).any (pathRefers version_dir)

def liveLeases : List Lease :=
  (args.files m).leases.filter fun lease =>
    lease.alive && lease.version_root ≠ ""

def isServer (process : LiveProcess) : Bool :=
  contains "server.js" process.command

/-- `_discover_live_server_pids_for_home` -/
def discovered : List LiveProcess :=
  m.processes.filter fun process =>
    isServer process &&
      (contains (args.homeDir m) process.command ||
        contains (args.files m).home_real process.command)

def pinnedPids : List Int :=
  (liveLeases m args).map (·.pid)

def allPids : List Int :=
  (discovered m args).map (·.pid) ++ pinnedPids m args

/-- The first segment of a path under a prefix. -/
def segmentUnder (start path : String) : Option String :=
  if startsWith (start ++ "/") path then
    some (String.ofList ((path.toList.drop (start ++ "/").length).takeWhile
      fun c => c ≠ '/'))
  else none

def isSegment (segment : String) : Bool :=
  segment ≠ "" && segment ≠ "current" && !startsWith "." segment

/-- The version directories that the open files of a process are under. -/
def openSegments (process : LiveProcess) : List String :=
  process.open_paths.flatMap fun path =>
    ([args.base m, (args.files m).base_real].filterMap fun start =>
      segmentUnder start path).filter isSegment

/-- What `lsof` is asked about. -/
def inspected : List LiveProcess :=
  m.processes.filter fun process =>
    (allPids m args).contains process.pid

def unpinnedLstarts : List Rat :=
  args.legacy_unpinned_lstarts ++
    (discovered m args).filterMap fun process =>
      if (pinnedPids m args).contains process.pid ||
          ((inspected m args).any fun other =>
            other.pid = process.pid && !(openSegments m args other).isEmpty)
      then none
      else process.lstart_epoch

/-- The directories of one process that was started at a time. -/
def launchWindow (by_built_asc : List (String × Rat)) (t_start : Rat) :
    List String :=
  match (by_built_asc.zipIdx.filter fun entry =>
      decide (entry.1.2 ≤ t_start + 60)).getLast? with
  | none => []
  | some (primary, primary_idx) =>
      primary.1 ::
        match primary_idx with
        | 0 => []
        | before + 1 =>
            match by_built_asc[before]? with
            | none => []
            | some pred =>
                if t_start - pred.2 ≤ 300 then [pred.1] else []

def boundedLstartProtectedVersions (lstarts : List Rat) : List String :=
  lstarts.flatMap (launchWindow (versionDirsByBuiltAt host m args).reverse)

/-!
## What is kept
-/

def textItems : Option String -> List String
  | none => []
  | some text => if text = "" then [] else [nameOf text]

/-- The registry is that of the process, whatever home is collected. -/
def protectedItems : List String :=
  wiredInstallRoots (m.homes m.user_home).wired ++
    args.extra_protected.flatMap (fun item => textItems (some item)) ++
    ((args.files m).current.map nameOf).toList ++
    textItems args.prev_target ++
    ((allVersionDirs host m args).flatMap fun entry =>
      let version_dir := join (args.base m) entry.1.name
      if configReferencesDir m args version_dir then
        [version_dir, entry.1.name]
      else []) ++
    (liveLeases m args).map (fun lease => nameOf lease.version_root) ++
    (inspected m args).flatMap (openSegments m args) ++
    boundedLstartProtectedVersions host m args (unpinnedLstarts m args)

def protectedName (item : String) : String :=
  if nameOf item = "" then item else nameOf item

def protectedVersions : List String :=
  (protectedItems host m args).map protectedName

def retentionSet : List String :=
  ((releaseVersionDirs host m args).take 2).map (fun entry => entry.1.name) ++
    ((versionDirsByBuiltAt host m args).take args.keep_last).map (·.1) ++
    protectedVersions host m args

/-!
## What is removed
-/

def isStaging (name : String) : Bool :=
  startsWith ".staging-" name

def isQuarantine (name : String) : Bool :=
  startsWith ".quarantine-" name

def isCandidate (child : Child) : Bool :=
  child.is_dir && !child.is_symlink &&
    if startsWith "." child.name then
      isStaging child.name || isQuarantine child.name
    else (host.parse child.name).isSome

/-- The candidates of the loop, then the two lists again, links included. -/
def candidateDirs : List Child :=
  (args.files m).children.filter (isCandidate host) ++
    ((args.files m).children.filter fun child =>
      child.is_dir && isStaging child.name) ++
    ((args.files m).children.filter fun child =>
      child.is_dir && isQuarantine child.name)

/-- Each path once, and none that is kept. -/
def uniqueFrom (keep : List String) : List Child -> List String -> List Child
  | [], _ => []
  | child :: rest, seen =>
      if seen.contains child.name || keep.contains child.name then
        uniqueFrom keep rest seen
      else child :: uniqueFrom keep rest (child.name :: seen)

def uniqueDirs : List Child :=
  uniqueFrom (retentionSet host m args) (candidateDirs host m args) []

structure GcResult where
  pruned : List String
  retained_in_use : List String
  skipped_no_tty : Bool
  would_prune : List String
  deriving DecidableEq, Repr

def retainedInUse : List String :=
  ((args.files m).children.filter fun child =>
    child.is_dir && !child.is_symlink && !startsWith "." child.name &&
      (retentionSet host m args).contains child.name).map
    fun child => join (args.base m) child.name

def answersYes (answer : Option String) : Bool :=
  let text := String.ofList
    ((PyText.strip (answer.getD "")).toList.map Char.toLower)
  text = "y" || text = "yes"

def runGc (flags : GcFlags) : GcResult :=
  let paths := (uniqueDirs host m args).map fun child =>
    join (args.base m) child.name
  let result : GcResult :=
    { pruned := []
      retained_in_use := retainedInUse host m args
      skipped_no_tty := false
      would_prune := [] }
  if flags.dry_run then { result with would_prune := paths }
  else
    match flags.prune with
    | none =>
        if !flags.stdin_is_tty then
          { result with skipped_no_tty := true, would_prune := paths }
        else if paths.isEmpty then result
        else if answersYes flags.answer then { result with pruned := paths }
        else result
    | some false => result
    | some true => { result with pruned := paths }

/-- `shutil.rmtree` removes a directory, but no link to one. -/
def removes (flags : GcFlags) (child : Child) : Bool :=
  (runGc host m args flags).pruned.contains (join (args.base m) child.name) &&
    !child.is_symlink

end Gc

end Wire
end Minni
