import Mathlib.Data.List.TakeWhile
import Minni.Wire.Gc

/-!
# What the collection of plugin versions spares

The collection looks at some uses of a version and overlooks others.  It spares
every version in use exactly when each use that it overlooks comes with one that
it looks at, when no running install has a staging directory, and when what is
left of installs holds no links to directories.
-/

namespace Minni
namespace Wire

open Foundation
open Foundation.PathName

section Gc

variable {V : Type} [LinearOrder V] (host : VersionHost V)
variable (m : Machine) (args : GcArgs)

/-!
## Uses of a version
-/

/-- A directory whose name is a version. -/
structure IsVersionDir (child : Child) : Prop where
  is_dir : child.is_dir = true
  no_symlink : child.is_symlink = false
  no_dot : startsWith "." child.name = false
  version : (host.parse child.name).isSome = true

/-- The path of the version, as it is written in texts. -/
def versionDir (name : String) : String :=
  join (args.base m) name

/-- A file or link inside the directory refers to the version. -/
def InsideRefers (version_dir : String) (path : ScanPath) : Prop :=
  exists inside entry, path.target = .dir inside ∧ entry ∈ inside ∧
    (linkRefers version_dir entry.link = true ∨
      linkRefers version_dir entry.text = true)

/-- The surface refers to the version. -/
def SurfaceRefers (version_dir : String) (path : ScanPath) : Prop :=
  linkRefers version_dir path.link = true ∨
    (exists text, path.target = .file text ∧
      linkRefers version_dir text = true) ∨
    InsideRefers version_dir path

/-- An open file of the process is in the version directory. -/
def HasOpen (process : LiveProcess) (name : String) : Prop :=
  exists path start, path ∈ process.open_paths ∧
    start ∈ [args.base m, (args.files m).base_real] ∧
    segmentUnder start path = some name

/-- What makes a version one in use. -/
inductive InUse (name : String) : Prop where
  | current (h : (args.files m).current_resolves = some name)
  | previous {target : String} (h : args.prev_target = some target)
      (hname : nameOf target = name)
  | extra {item : String} (h : item ∈ args.extra_protected)
      (hname : nameOf item = name)
  | registry {root : String}
      (h : root ∈ wiredInstallRoots (args.files m).wired)
      (hname : nameOf root = name)
  | lease {lease : Lease} (h : lease ∈ (args.files m).leases)
      (halive : lease.alive = true) (hname : nameOf lease.version_root = name)
  | server {process : LiveProcess} (h : process ∈ m.processes)
      (hserver : isServer process = true) (hopen : HasOpen m args process name)
  | surface {path : ScanPath} (h : path ∈ (args.files m).catalog)
      (hrefers : SurfaceRefers (versionDir m args name) path)

/-- What makes the collection keep a version. -/
inductive Retained (name : String) : Prop where
  | release (h : name ∈ ((releaseVersionDirs host m args).take 2).map
      fun entry => entry.1.name)
  | built (h : name ∈ ((versionDirsByBuiltAt host m args).take
      args.keep_last).map (·.1))
  | registry {root : String}
      (h : root ∈ wiredInstallRoots (m.homes m.user_home).wired)
      (hname : nameOf root = name)
  | extra {item : String} (h : item ∈ args.extra_protected)
      (hname : nameOf item = name)
  | current {target : String} (h : (args.files m).current = some target)
      (hname : nameOf target = name)
  | previous {target : String} (h : args.prev_target = some target)
      (hname : nameOf target = name)
  | config {child : Child} {version : V}
      (h : (child, version) ∈ allVersionDirs host m args)
      (hname : child.name = name)
      (hrefers : configReferencesDir m args (versionDir m args name) = true)
  | lease {lease : Lease} (h : lease ∈ (args.files m).leases)
      (halive : lease.alive = true) (hname : nameOf lease.version_root = name)
  | server {process : LiveProcess} (h : process ∈ m.processes)
      (hpid : process.pid ∈ allPids m args)
      (hopen : name ∈ openSegments m args process)
  | launched (h : name ∈ boundedLstartProtectedVersions host m args
      (unpinnedLstarts m args))

/-- The uses that the collection does not look at. -/
inductive Overlooked (name : String) : Prop where
  /-- `current` leads to the version through another link. -/
  | current (h : (args.files m).current_resolves = some name)
      (hlink : forall target, (args.files m).current = some target ->
        nameOf target ≠ name)
  /-- The registry of the home is not that of the process. -/
  | registry {root : String}
      (h : root ∈ wiredInstallRoots (args.files m).wired)
      (hname : nameOf root = name) (hhome : args.homeDir m ≠ m.user_home)
  /-- The server's command does not name the home, and it has no lease. -/
  | server {process : LiveProcess} (h : process ∈ m.processes)
      (hserver : isServer process = true) (hopen : HasOpen m args process name)
      (hpid : process.pid ∉ allPids m args)
  /-- Only a file or an unnamed link in the directory refers to it. -/
  | inside {path : ScanPath} (h : path ∈ (args.files m).catalog)
      (hrefers : InsideRefers (versionDir m args name) path)
      (hpath : pathRefers (versionDir m args name) path = false)
  /-- The name is a version, but no safe segment. -/
  | unsafe_name {path : ScanPath} (h : path ∈ (args.files m).catalog)
      (hrefers : SurfaceRefers (versionDir m args name) path)
      (hname : isSafeVersionSegment host name = false)

/-!
## What is kept
-/

theorem mem_textItems {text : Option String} {name : String}
    (hname : name ≠ "") :
    name ∈ textItems text <-> exists t, text = some t ∧ nameOf t = name := by
  cases text with
  | none =>
      constructor
      · intro h
        cases h
      · rintro ⟨t, ht, _⟩
        cases ht
  | some t =>
      unfold textItems
      dsimp only
      split
      · rename_i hempty
        constructor
        · intro h
          cases h
        · rintro ⟨t', ht, hother⟩
          cases ht
          rw [hempty] at hother
          exact absurd hother.symm hname
      · constructor
        · intro h
          exact ⟨t, rfl, (List.mem_singleton.mp h).symm⟩
        · rintro ⟨t', ht, hother⟩
          cases ht
          rw [← hother]
          exact List.mem_singleton.mpr rfl

theorem protectedName_eq_iff {item name : String} (h : Simple name) :
    protectedName item = name <-> nameOf item = name := by
  unfold protectedName
  split
  · rename_i hempty
    constructor
    · intro hitem
      rw [hitem, nameOf_simple h] at hempty
      exact absurd hempty h.2.1
    · intro hitem
      rw [hitem] at hempty
      exact absurd hempty h.2.1
  · exact Iff.rfl

theorem mem_of_allVersionDirs {child : Child} {version : V}
    (h : (child, version) ∈ allVersionDirs host m args) :
    child ∈ (args.files m).children := by
  have hin := (List.mergeSort_perm _ _).mem_iff.mp h
  rcases List.mem_filterMap.mp hin with ⟨other, hother, hversion⟩
  unfold versionOf at hversion
  split at hversion
  · rcases Option.map_eq_some_iff.mp hversion with ⟨_, _, hpair⟩
    cases hpair
    exact hother
  · cases hversion

theorem simple_of_launched {lstarts : List Rat} {name : String}
    (h : name ∈ boundedLstartProtectedVersions host m args lstarts) :
    Simple name := by
  rcases List.mem_flatMap.mp h with ⟨t, _, hwindow⟩
  have hbuilt : exists epoch, (name, epoch) ∈
      (versionDirsByBuiltAt host m args).reverse := by
    unfold launchWindow at hwindow
    split at hwindow
    · cases hwindow
    · rename_i primary primary_idx hlast
      have hmem := List.mem_of_mem_filter (List.mem_of_getLast? hlast)
      rcases List.mem_cons.mp hwindow with rfl | hpred
      · exact ⟨primary.2, List.fst_mem_of_mem_zipIdx hmem⟩
      · split at hpred
        · cases hpred
        · split at hpred
          · cases hpred
          · rename_i pred hget
            split at hpred
            · rw [List.mem_singleton.mp hpred]
              exact ⟨pred.2, List.mem_of_getElem? hget⟩
            · cases hpred
  rcases hbuilt with ⟨epoch, hepoch⟩
  have hin := (List.mergeSort_perm _ _).mem_iff.mp (List.mem_reverse.mp hepoch)
  rcases List.mem_map.mp hin with ⟨entry, hentry, hpair⟩
  have hname : entry.1.name = name := (Prod.ext_iff.mp hpair).1
  rw [← hname]
  exact (args.files m).simple entry.1
    (mem_of_allVersionDirs host m args hentry)

theorem simple_of_openSegments {process : LiveProcess} {name : String}
    (h : name ∈ openSegments m args process) :
    Simple name ∧ HasOpen m args process name := by
  rcases List.mem_flatMap.mp h with ⟨path, hpath, hsegments⟩
  rcases List.mem_filter.mp hsegments with ⟨hin, hsegment⟩
  rcases List.mem_filterMap.mp hin with ⟨start, hstart, hunder⟩
  constructor
  · unfold isSegment at hsegment
    rw [Bool.and_eq_true, Bool.and_eq_true] at hsegment
    rcases hsegment with ⟨⟨hempty, _⟩, hdot⟩
    refine ⟨?_, of_decide_eq_true hempty, ?_⟩
    · have hsome := hunder
      unfold segmentUnder at hsome
      split at hsome
      · rw [← Option.some.inj hsome, String.toList_ofList]
        intro hslash
        have hne := List.mem_takeWhile_imp hslash
        exact of_decide_eq_true hne rfl
      · cases hsome
    · intro hone
      rw [hone] at hdot
      revert hdot
      decide
  · exact ⟨path, start, hpath, hstart, hunder⟩

theorem mem_liveLeases {name : String} (hname : name ≠ "") :
    (exists lease, lease ∈ liveLeases m args ∧
      nameOf lease.version_root = name) <->
    exists lease, lease ∈ (args.files m).leases ∧ lease.alive = true ∧
      nameOf lease.version_root = name := by
  constructor
  · rintro ⟨lease, hlease, hroot⟩
    rcases List.mem_filter.mp hlease with ⟨hin, halive⟩
    exact ⟨lease, hin, (Bool.and_eq_true_iff.mp halive).1, hroot⟩
  · rintro ⟨lease, hin, halive, hroot⟩
    have hne : lease.version_root ≠ "" := by
      intro hempty
      rw [hempty] at hroot
      exact hname hroot.symm
    refine ⟨lease, List.mem_filter.mpr ⟨hin, ?_⟩, hroot⟩
    rw [halive, decide_eq_true hne]
    rfl

theorem mem_inspected {process : LiveProcess} :
    process ∈ inspected m args <->
      process ∈ m.processes ∧ process.pid ∈ allPids m args := by
  unfold inspected
  rw [List.mem_filter, List.contains_iff_mem]

/-- What is kept is what one of the sources names. -/
theorem mem_retentionSet {name : String} (h : Simple name) :
    name ∈ retentionSet host m args <-> Retained host m args name := by
  unfold retentionSet protectedVersions
  rw [List.mem_append, List.mem_append]
  constructor
  · rintro ((hrelease | hbuilt) | hprotected)
    · exact Retained.release hrelease
    · exact Retained.built hbuilt
    · rcases List.mem_map.mp hprotected with ⟨item, hitem, hprotectedName⟩
      have hname := (protectedName_eq_iff h).mp hprotectedName
      unfold protectedItems at hitem
      simp only [List.mem_append] at hitem
      rcases hitem with ((((((hwired | hextra) | hcurrent) | hprev) | hconfig) |
        hlease) | hopen) | hlaunched
      · exact Retained.registry hwired hname
      · rcases List.mem_flatMap.mp hextra with ⟨extra, hin, htext⟩
        have hsame : item = name := by
          have hnonempty : item ≠ "" := by
            intro hempty
            rw [hempty] at hname
            exact h.2.1 hname.symm
          rcases (mem_textItems hnonempty).mp htext with ⟨t, _, ht⟩
          rw [← ht, nameOf_nameOf] at hname
          rw [← ht]
          exact hname
        rw [hsame] at htext
        rcases (mem_textItems h.2.1).mp htext with ⟨t, ht, htname⟩
        rw [Option.some.inj ht] at hin
        exact Retained.extra hin htname
      · rcases Option.mem_toList.mp hcurrent |> Option.map_eq_some_iff.mp with
          ⟨target, htarget, rfl⟩
        rw [nameOf_nameOf] at hname
        exact Retained.current htarget hname
      · have hnonempty : item ≠ "" := by
          intro hempty
          rw [hempty] at hname
          exact h.2.1 hname.symm
        rcases (mem_textItems hnonempty).mp hprev with ⟨t, ht, htname⟩
        rw [← htname, nameOf_nameOf] at hname
        exact Retained.previous ht hname
      · rcases List.mem_flatMap.mp hconfig with ⟨entry, hentry, hin⟩
        split at hin
        · rename_i hrefers
          have hsimple := (args.files m).simple entry.1
            (mem_of_allVersionDirs host m args hentry)
          have hsame : entry.1.name = name := by
            rcases List.mem_cons.mp hin with hdir | hlast
            · rw [hdir, nameOf_join _ hsimple] at hname
              exact hname
            · rw [List.mem_singleton.mp hlast, nameOf_simple hsimple] at hname
              exact hname
          refine Retained.config hentry hsame ?_
          rw [← hsame]
          exact hrefers
        · cases hin
      · rcases List.mem_map.mp hlease with ⟨lease, hin, rfl⟩
        rw [nameOf_nameOf] at hname
        rcases (mem_liveLeases m args h.2.1).mp ⟨lease, hin, hname⟩ with
          ⟨other, hother, halive, hroot⟩
        exact Retained.lease hother halive hroot
      · rcases List.mem_flatMap.mp hopen with ⟨process, hprocess, hin⟩
        rcases (mem_inspected m args).mp hprocess with ⟨hlive, hpid⟩
        have hsimple := (simple_of_openSegments m args hin).1
        rw [nameOf_simple hsimple] at hname
        rw [hname] at hin
        exact Retained.server hlive hpid hin
      · rw [nameOf_simple (simple_of_launched host m args hlaunched)] at hname
        rw [hname] at hlaunched
        exact Retained.launched hlaunched
  · intro hretained
    have hitem : forall {item : String}, nameOf item = name ->
        item ∈ protectedItems host m args ->
        (name ∈ ((releaseVersionDirs host m args).take 2).map
            (fun entry => entry.1.name) ∨
          name ∈ ((versionDirsByBuiltAt host m args).take args.keep_last).map
            (·.1)) ∨
          name ∈ (protectedItems host m args).map protectedName := by
      intro item hname hin
      right
      rw [← (protectedName_eq_iff h).mpr hname]
      exact List.mem_map_of_mem hin
    unfold protectedItems at hitem
    simp only [List.mem_append] at hitem
    unfold protectedItems
    cases hretained with
    | release hrelease => exact Or.inl (Or.inl hrelease)
    | built hbuilt => exact Or.inl (Or.inr hbuilt)
    | registry hwired hname =>
        apply hitem hname
        simp only [hwired, true_or]
    | @extra item hextra hname =>
        apply hitem (nameOf_simple h)
        have hin : name ∈ args.extra_protected.flatMap
            (fun item => textItems (some item)) :=
          List.mem_flatMap.mpr ⟨item, hextra,
            (mem_textItems h.2.1).mpr ⟨item, rfl, hname⟩⟩
        simp only [hin, true_or, or_true]
    | current hcurrent hname =>
        apply hitem (nameOf_simple h)
        have hin : name ∈ ((args.files m).current.map nameOf).toList := by
          rw [hcurrent, Option.mem_toList]
          exact congrArg some hname
        simp only [hin, true_or, or_true]
    | @previous target hprev hname =>
        apply hitem (nameOf_simple h)
        have hin : name ∈ textItems args.prev_target :=
          (mem_textItems h.2.1).mpr ⟨target, hprev, hname⟩
        simp only [hin, true_or, or_true]
    | @config child version hchild hname hrefers =>
        apply hitem (nameOf_simple h)
        have hin : name ∈ (allVersionDirs host m args).flatMap
            (fun entry =>
              if configReferencesDir m args
                  (join (args.base m) entry.1.name) = true then
                [join (args.base m) entry.1.name, entry.1.name]
              else []) := by
          refine List.mem_flatMap.mpr ⟨(child, version), hchild, ?_⟩
          have hdir : configReferencesDir m args
              (join (args.base m) name) = true := hrefers
          rw [hname, if_pos hdir]
          exact List.mem_cons_of_mem _ List.mem_cons_self
        simp only [hin, true_or, or_true]
    | @lease lease hlease halive hname =>
        apply hitem (nameOf_simple h)
        rcases (mem_liveLeases m args h.2.1).mpr ⟨lease, hlease, halive, hname⟩
          with ⟨other, hother, hroot⟩
        have hin : name ∈ (liveLeases m args).map
            (fun lease => nameOf lease.version_root) :=
          List.mem_map.mpr ⟨other, hother, hroot⟩
        simp only [hin, true_or, or_true]
    | @server process hprocess hpid hopen =>
        apply hitem (nameOf_simple h)
        have hin : name ∈ (inspected m args).flatMap (openSegments m args) :=
          List.mem_flatMap.mpr ⟨process,
            (mem_inspected m args).mpr ⟨hprocess, hpid⟩, hopen⟩
        simp only [hin, true_or, or_true]
    | launched hlaunched =>
        apply hitem (nameOf_simple h)
        simp only [hlaunched, or_true]

/-!
## What is removed
-/

/-- Each name of the candidates once, and none that is kept. -/
theorem mem_uniqueFrom {keep : List String} {children : List Child}
    {seen : List String} {name : String} :
    name ∈ (uniqueFrom keep children seen).map (fun child => child.name) <->
      name ∈ children.map (fun child => child.name) ∧ name ∉ keep ∧
        name ∉ seen := by
  induction children generalizing seen with
  | nil =>
      constructor
      · intro h
        cases h
      · rintro ⟨h, _⟩
        cases h
  | cons child rest ih =>
      unfold uniqueFrom
      split
      · rename_i hskip
        rw [Bool.or_eq_true, List.contains_iff_mem, List.contains_iff_mem]
          at hskip
        rw [ih, List.map_cons, List.mem_cons]
        constructor
        · rintro ⟨hin, hout⟩
          exact ⟨Or.inr hin, hout⟩
        · rintro ⟨hin, hkeep, hseen⟩
          rcases hin with rfl | hin
          · rcases hskip with hold | hkept
            · exact absurd hold hseen
            · exact absurd hkept hkeep
          · exact ⟨hin, hkeep, hseen⟩
      · rename_i htake
        rw [Bool.or_eq_true, List.contains_iff_mem, List.contains_iff_mem,
          not_or] at htake
        rw [List.map_cons, List.mem_cons, ih, List.map_cons, List.mem_cons,
          List.mem_cons, not_or]
        constructor
        · rintro (rfl | ⟨hin, hkeep, hseen⟩)
          · exact ⟨Or.inl rfl, htake.2, htake.1⟩
          · exact ⟨Or.inr hin, hkeep, hseen.2⟩
        · rintro ⟨hin, hkeep, hseen⟩
          by_cases hsame : name = child.name
          · exact Or.inl hsame
          · exact Or.inr ⟨hin.resolve_left hsame, hkeep, hsame, hseen⟩

theorem eq_of_name {files : HomeFiles} {child other : Child}
    (hchild : child ∈ files.children) (hother : other ∈ files.children)
    (hname : child.name = other.name) : child = other := by
  have hdistinct := files.distinct
  generalize files.children = children at *
  induction children with
  | nil => cases hchild
  | cons first rest ih =>
      rcases List.pairwise_cons.mp hdistinct with ⟨hfirst, hrest⟩
      rcases List.mem_cons.mp hchild with rfl | hin
      · rcases List.mem_cons.mp hother with rfl | hin'
        · rfl
        · exact absurd hname (hfirst other hin')
      · rcases List.mem_cons.mp hother with rfl | hin'
        · exact absurd hname.symm (hfirst child hin)
        · exact ih hin hin' hrest

/-- A directory, or a link to one, that an install has left. -/
def isLeft (child : Child) : Bool :=
  child.is_dir && (isStaging child.name || isQuarantine child.name)

omit [LinearOrder V] in
theorem mem_candidateDirs {child : Child}
    (hchild : child ∈ (args.files m).children) :
    child.name ∈ (candidateDirs host m args).map (fun child => child.name) <->
      isCandidate host child = true ∨ isLeft child = true := by
  constructor
  · intro h
    rcases List.mem_map.mp h with ⟨other, hother, hname⟩
    unfold candidateDirs at hother
    rw [List.mem_append, List.mem_append, List.mem_filter, List.mem_filter,
      List.mem_filter] at hother
    unfold isLeft
    rcases hother with (⟨hin, hcandidate⟩ | ⟨hin, hleft⟩) | ⟨hin, hleft⟩
    · rw [← eq_of_name hin hchild hname]
      exact Or.inl hcandidate
    · rw [← eq_of_name hin hchild hname]
      rcases Bool.and_eq_true_iff.mp hleft with ⟨hdir, hstaging⟩
      rw [hdir, hstaging]
      exact Or.inr rfl
    · rw [← eq_of_name hin hchild hname]
      rcases Bool.and_eq_true_iff.mp hleft with ⟨hdir, hquarantine⟩
      rw [hdir, hquarantine, Bool.or_true]
      exact Or.inr rfl
  · intro h
    apply List.mem_map_of_mem
    unfold candidateDirs
    rw [List.mem_append, List.mem_append, List.mem_filter, List.mem_filter,
      List.mem_filter]
    rcases h with hcandidate | hleft
    · exact Or.inl (Or.inl ⟨hchild, hcandidate⟩)
    · rcases Bool.and_eq_true_iff.mp hleft with ⟨hdir, hkind⟩
      rcases Bool.or_eq_true_iff.mp hkind with hstaging | hquarantine
      · refine Or.inl (Or.inr ⟨hchild, ?_⟩)
        rw [hdir, hstaging]
        rfl
      · refine Or.inr ⟨hchild, ?_⟩
        rw [hdir, hquarantine]
        rfl

/-- A dry run lists what is a candidate or left over, and not kept. -/
theorem mem_uniqueDirs {child : Child}
    (hchild : child ∈ (args.files m).children) :
    join (args.base m) child.name ∈ (uniqueDirs host m args).map
        (fun child => join (args.base m) child.name) <->
      (isCandidate host child = true ∨ isLeft child = true) ∧
        ¬ Retained host m args child.name := by
  have hsimple := (args.files m).simple child hchild
  rw [← mem_candidateDirs host m args hchild,
    ← mem_retentionSet host m args hsimple]
  have hunique : child.name ∈ (uniqueDirs host m args).map
      (fun child => child.name) <->
      child.name ∈ (candidateDirs host m args).map (fun child => child.name) ∧
        child.name ∉ retentionSet host m args ∧ child.name ∉ [] :=
    mem_uniqueFrom
  constructor
  · intro h
    rcases List.mem_map.mp h with ⟨other, hother, hpath⟩
    have hname := join_injective (args.base m) hpath
    have hin : child.name ∈ (uniqueDirs host m args).map
        (fun child => child.name) := by
      rw [← hname]
      exact List.mem_map_of_mem hother
    rcases hunique.mp hin with ⟨hcandidate, hkeep, _⟩
    exact ⟨hcandidate, hkeep⟩
  · rintro ⟨hcandidate, hkeep⟩
    have hin := hunique.mpr ⟨hcandidate, hkeep, List.not_mem_nil⟩
    rcases List.mem_map.mp hin with ⟨other, hother, hname⟩
    rw [← hname]
    exact List.mem_map_of_mem hother

theorem pruned_cases (flags : GcFlags) :
    (runGc host m args flags).pruned = [] ∨
      (runGc host m args flags).pruned = (uniqueDirs host m args).map
        (fun child => join (args.base m) child.name) := by
  unfold runGc
  dsimp only
  split
  · exact Or.inl rfl
  · split
    · split
      · exact Or.inl rfl
      · split
        · exact Or.inl rfl
        · split
          · exact Or.inr rfl
          · exact Or.inl rfl
    · exact Or.inl rfl
    · exact Or.inr rfl

/-- The run that removes what a dry run lists. -/
def wetFlags : GcFlags where
  prune := some true
  stdin_is_tty := false
  dry_run := false
  answer := none

theorem removes_wet {child : Child}
    (hchild : child ∈ (args.files m).children) :
    removes host m args wetFlags child = true <->
      ((isCandidate host child = true ∨ isLeft child = true) ∧
        ¬ Retained host m args child.name) ∧ child.is_symlink = false := by
  unfold removes
  rw [Bool.and_eq_true, List.contains_iff_mem, Bool.not_eq_true',
    ← mem_uniqueDirs host m args hchild]
  rfl

/-- No run removes more than that one. -/
theorem removes_wet_of_removes {flags : GcFlags} {child : Child}
    (h : removes host m args flags child = true) :
    removes host m args wetFlags child = true := by
  unfold removes at h ⊢
  rw [Bool.and_eq_true, List.contains_iff_mem] at h ⊢
  rcases pruned_cases host m args flags with hnone | hall
  · rw [hnone] at h
    cases h.1
  · rw [hall] at h
    exact h

omit [LinearOrder V] in
theorem isCandidate_of_versionDir {child : Child}
    (h : IsVersionDir host child) : isCandidate host child = true := by
  unfold isCandidate
  rw [h.is_dir, h.no_symlink, if_neg (by rw [h.no_dot]; decide), h.version]
  rfl

/-!
## What is spared
-/

/-- A use is one that the collection looks at, or one that it overlooks. -/
theorem retained_or_overlooked {child : Child}
    (hchild : child ∈ (args.files m).children)
    (hversion : IsVersionDir host child) (h : InUse m args child.name) :
    Retained host m args child.name ∨ Overlooked host m args child.name := by
  have hsimple := (args.files m).simple child hchild
  cases h with
  | current hresolves =>
      by_cases hlink : exists target, (args.files m).current = some target ∧
          nameOf target = child.name
      · rcases hlink with ⟨target, htarget, hname⟩
        exact Or.inl (Retained.current htarget hname)
      · refine Or.inr (Overlooked.current hresolves ?_)
        intro target htarget hname
        exact hlink ⟨target, htarget, hname⟩
  | previous hprev hname => exact Or.inl (Retained.previous hprev hname)
  | extra hextra hname => exact Or.inl (Retained.extra hextra hname)
  | registry hroot hname =>
      by_cases hhome : args.homeDir m = m.user_home
      · left
        unfold GcArgs.files at hroot
        rw [hhome] at hroot
        exact Retained.registry hroot hname
      · exact Or.inr (Overlooked.registry hroot hname hhome)
  | lease hlease halive hname =>
      exact Or.inl (Retained.lease hlease halive hname)
  | server hprocess hserver hopen =>
      rename_i process
      by_cases hpid : process.pid ∈ allPids m args
      · left
        refine Retained.server hprocess hpid ?_
        rcases hopen with ⟨path, start, hpath, hstart, hunder⟩
        refine List.mem_flatMap.mpr ⟨path, hpath, List.mem_filter.mpr
          ⟨List.mem_filterMap.mpr ⟨start, hstart, hunder⟩, ?_⟩⟩
        have hcurrent : child.name ≠ "current" := by
          intro hname
          have hparses := hversion.version
          rw [hname, host.current_no_version] at hparses
          cases hparses
        unfold isSegment
        rw [decide_eq_true hsimple.2.1, decide_eq_true hcurrent,
          hversion.no_dot]
        rfl
      · exact Or.inr (Overlooked.server hprocess hserver hopen hpid)
  | surface hpath hrefers =>
      rename_i path
      by_cases hsafe : isSafeVersionSegment host child.name = true
      · cases hseen : pathRefers (versionDir m args child.name) path with
        | true =>
            left
            rcases Option.isSome_iff_exists.mp hversion.version with
              ⟨version, hparse⟩
            have hentry : (child, version) ∈ allVersionDirs host m args := by
              apply (List.mergeSort_perm _ _).mem_iff.mpr
              refine List.mem_filterMap.mpr ⟨child, hchild, ?_⟩
              unfold versionOf
              rw [hversion.is_dir, hversion.no_symlink, hversion.no_dot, hsafe,
                hparse]
              rfl
            refine Retained.config hentry rfl ?_
            unfold configReferencesDir
            rw [List.any_eq_true]
            exact ⟨path, List.mem_append_right _ hpath, hseen⟩
        | false =>
            right
            have hnone := hseen
            unfold pathRefers at hnone
            rw [Bool.or_eq_false_iff] at hnone
            rcases hrefers with hlink | htext | hinside
            · rw [hnone.1] at hlink
              cases hlink
            · rcases htext with ⟨text, htarget, htext⟩
              have hbody := hnone.2
              rw [htarget] at hbody
              cases hlink : path.link with
              | none =>
                  rw [hlink] at hbody
                  exact absurd (Eq.trans (Eq.symm hbody) htext)
                    Bool.false_ne_true
              | some target =>
                  rw [hlink] at hbody
                  exact absurd (Eq.trans (Eq.symm hbody) htext)
                    Bool.false_ne_true
            · exact Overlooked.inside hpath hinside hseen
      · right
        exact Overlooked.unsafe_name hpath hrefers
          (Bool.eq_false_iff.mpr hsafe)

omit [LinearOrder V] in
theorem inUse_of_overlooked {name : String}
    (h : Overlooked host m args name) : InUse m args name := by
  cases h with
  | current hresolves _ => exact InUse.current hresolves
  | registry hroot hname _ => exact InUse.registry hroot hname
  | server hprocess hserver hopen _ =>
      exact InUse.server hprocess hserver hopen
  | inside hpath hrefers _ =>
      exact InUse.surface hpath (Or.inr (Or.inr hrefers))
  | unsafe_name hpath hrefers _ => exact InUse.surface hpath hrefers

/-- No run removes a version in use or a running install's staging directory,
and a dry run lists what the wet run removes. -/
structure GcSafe (running : String -> Prop) : Prop where
  in_use : forall flags child, child ∈ (args.files m).children ->
    IsVersionDir host child -> removes host m args flags child = true ->
      ¬ InUse m args child.name
  staging : forall flags child, child ∈ (args.files m).children ->
    isStaging child.name = true -> running child.name ->
      removes host m args flags child = false
  dry_run : forall flags child, child ∈ (args.files m).children ->
    flags.dry_run = true ->
      (join (args.base m) child.name ∈
          (runGc host m args flags).would_prune <->
        removes host m args wetFlags child = true)

/-- What the collection overlooks is kept for another reason, and so is what a
running install stages and what is a link to a directory of that kind. -/
structure Spares (running : String -> Prop) : Prop where
  overlooked : forall child, child ∈ (args.files m).children ->
    IsVersionDir host child -> Overlooked host m args child.name ->
      Retained host m args child.name
  staging : forall child, child ∈ (args.files m).children ->
    child.is_dir = true -> child.is_symlink = false ->
      isStaging child.name = true -> running child.name ->
        Retained host m args child.name
  links : forall child, child ∈ (args.files m).children ->
    child.is_symlink = true -> isLeft child = true ->
      Retained host m args child.name

theorem gcSafe_iff (running : String -> Prop) :
    GcSafe host m args running <-> Spares host m args running := by
  constructor
  · intro hsafe
    constructor
    · intro child hchild hversion hoverlooked
      by_contra hkept
      have hremoved := (removes_wet host m args hchild).mpr
        ⟨⟨Or.inl (isCandidate_of_versionDir host hversion), hkept⟩,
          hversion.no_symlink⟩
      exact hsafe.in_use wetFlags child hchild hversion hremoved
        (inUse_of_overlooked host m args hoverlooked)
    · intro child hchild hdir hlink hstaging hrunning
      by_contra hkept
      have hleft : isLeft child = true := by
        unfold isLeft
        rw [hdir, hstaging]
        rfl
      have hremoved := (removes_wet host m args hchild).mpr
        ⟨⟨Or.inr hleft, hkept⟩, hlink⟩
      rw [hsafe.staging wetFlags child hchild hstaging hrunning] at hremoved
      cases hremoved
    · intro child hchild hlink hleft
      by_contra hkept
      have hlisted := (mem_uniqueDirs host m args hchild).mpr
        ⟨Or.inr hleft, hkept⟩
      have hremoved := (hsafe.dry_run { wetFlags with dry_run := true } child
        hchild rfl).mp hlisted
      have hnolink := ((removes_wet host m args hchild).mp hremoved).2
      rw [hlink] at hnolink
      cases hnolink
  · intro hspares
    constructor
    · intro flags child hchild hversion hremoved huse
      have hwet := (removes_wet host m args hchild).mp
        (removes_wet_of_removes host m args hremoved)
      rcases retained_or_overlooked host m args hchild hversion huse with
        hretained | hoverlooked
      · exact hwet.1.2 hretained
      · exact hwet.1.2 (hspares.overlooked child hchild hversion hoverlooked)
    · intro flags child hchild hstaging hrunning
      rw [Bool.eq_false_iff]
      intro hremoved
      have hwet := (removes_wet host m args hchild).mp
        (removes_wet_of_removes host m args hremoved)
      have hdir : child.is_dir = true := by
        rcases hwet.1.1 with hcandidate | hleft
        · unfold isCandidate at hcandidate
          rw [Bool.and_eq_true, Bool.and_eq_true] at hcandidate
          exact hcandidate.1.1
        · exact (Bool.and_eq_true_iff.mp hleft).1
      exact hwet.1.2 (hspares.staging child hchild hdir hwet.2 hstaging
        hrunning)
    · intro flags child hchild hdry
      have hlist : (runGc host m args flags).would_prune =
          (uniqueDirs host m args).map
            (fun child => join (args.base m) child.name) := by
        unfold runGc
        dsimp only
        rw [if_pos hdry]
      rw [hlist, mem_uniqueDirs host m args hchild,
        removes_wet host m args hchild]
      constructor
      · intro hlisted
        refine ⟨hlisted, ?_⟩
        rw [Bool.eq_false_iff]
        intro hlink
        have hleft : isLeft child = true := by
          rcases hlisted.1 with hcandidate | hleft
          · unfold isCandidate at hcandidate
            rw [hlink] at hcandidate
            simp at hcandidate
          · exact hleft
        exact hlisted.2 (hspares.links child hchild hlink hleft)
      · intro hremoved
        exact hremoved.1

end Gc

/-!
## Another home

The registry of the collected home names a version, but the process runs for
another home, whose registry is empty.
-/

namespace OtherHome

def versionName : String := "0.5.0+git.1"

def versions : VersionHost Nat where
  parse := fun name => if name = versionName then some 0 else none
  isLocal := fun _ => true
  isWord := fun c => c.isAlphanum || c = '_'
  current_no_version := by decide

def noFiles : HomeFiles where
  children := []
  current := none
  current_resolves := none
  wired := emptyDoc
  catalog := []
  other_paths := []
  leases := []
  home_real := "/root"
  base_real := "/root/.minni/plugin"
  distinct := List.Pairwise.nil
  simple := fun _ h => nomatch h

def installed : Child where
  name := versionName
  is_dir := true
  is_symlink := false
  built_epoch := 0

def wire : WireRecord where
  platform := "codex"
  config_path := "/srv/home/.codex/config.toml"
  install_root := "/srv/home/.minni/plugin/0.5.0+git.1"
  version := versionName
  workspace := none
  wired_at := ""

def files : HomeFiles where
  children := [installed]
  current := none
  current_resolves := none
  wired := { emptyDoc with wires := [wire] }
  catalog := []
  other_paths := []
  leases := []
  home_real := "/srv/home"
  base_real := "/srv/home/.minni/plugin"
  distinct := List.pairwise_singleton _ _
  simple := by
    intro child hchild
    rw [List.mem_singleton.mp hchild]
    show Simple versionName
    unfold Simple
    decide

def machine : Machine where
  user_home := "/root"
  homes := fun home => if home = "/srv/home" then files else noFiles
  processes := []

def args : GcArgs where
  home := some "/srv/home"
  keep_last := 0
  prev_target := none
  legacy_unpinned_lstarts := []
  extra_protected := []

theorem not_retained : ¬ Retained versions machine args versionName := by
  have hroots : wiredInstallRoots (machine.homes machine.user_home).wired =
      [] := by decide
  have hlstarts : unpinnedLstarts machine args = [] := by decide
  intro h
  cases h with
  | release hrelease =>
      have hnone : releaseVersionDirs versions machine args = [] := by
        unfold releaseVersionDirs
        rw [List.filter_eq_nil_iff]
        intro entry _ hlocal
        cases hlocal
      rw [hnone] at hrelease
      cases hrelease
  | built hbuilt => cases hbuilt
  | registry hroot _ =>
      rw [hroots] at hroot
      cases hroot
  | extra hextra _ => cases hextra
  | current hcurrent _ => cases hcurrent
  | previous hprev _ => cases hprev
  | config _ _ hrefers => cases hrefers
  | lease hlease _ _ => cases hlease
  | server hprocess _ _ => cases hprocess
  | launched hlaunched =>
      rw [hlstarts] at hlaunched
      cases hlaunched

theorem registered_version_removed :
    ¬ GcSafe versions machine args (fun _ => False) := by
  intro hsafe
  have hchild : installed ∈ (args.files machine).children :=
    List.mem_singleton.mpr rfl
  have hversion : IsVersionDir versions installed :=
    { is_dir := rfl
      no_symlink := rfl
      no_dot := by decide
      version := by decide }
  have hremoved := (removes_wet versions machine args hchild).mpr
    ⟨⟨Or.inl (isCandidate_of_versionDir versions hversion), not_retained⟩, rfl⟩
  have huse : InUse machine args installed.name :=
    @InUse.registry machine args installed.name wire.install_root (by decide)
      (by decide)
  exact hsafe.in_use wetFlags installed hchild hversion hremoved huse

end OtherHome

end Wire
end Minni
