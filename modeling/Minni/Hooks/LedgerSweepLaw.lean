import Mathlib.Data.List.Sort
import Mathlib.Data.List.Infix
import Mathlib.Data.List.Induction
import Minni.Foundation.Paging
import Minni.Foundation.Resuming
import Minni.Hooks.LedgerSweep

/-!
# What the sweep of the use ledger takes and what it skips

A directory that is renamed or removed was past the horizon, and the detector
held nothing open for it afterwards.  A pass, from a null cursor to a complete
run, looks at every session that is there all the time.  A run that is cut off
after the close has reached a candidate has moved the cursor forward.
-/

namespace Minni
namespace Hooks

open Foundation
open Foundation.Resuming

/-!
## The horizon
-/

/-- Each entry and the directory itself are older than the horizon. -/
def AllPast (look : SessionLook) (now : Rat) : Prop :=
  look.isDirectory = some true ∧
    ledgerIdleMaxMs < now - look.mtimeMs ∧
    exists entries, look.entries = some entries ∧
      forall entry, entry ∈ entries ->
        exists t, entry = some t ∧ ledgerIdleMaxMs < now - t

theorem mem_allTimes {entries : List (Option Rat)} {times : List Rat}
    (h : allTimes entries = some times) {entry : Option Rat}
    (hentry : entry ∈ entries) : exists t, entry = some t ∧ t ∈ times := by
  induction entries generalizing times with
  | nil => cases hentry
  | cons first rest ih =>
      cases first with
      | none => cases h
      | some t =>
          rcases Option.map_eq_some_iff.mp h with ⟨others, hothers, rfl⟩
          rcases List.mem_cons.mp hentry with rfl | hin
          · exact ⟨t, rfl, List.mem_cons_self⟩
          · rcases ih hothers hin with ⟨u, hu, hmem⟩
            exact ⟨u, hu, List.mem_cons_of_mem t hmem⟩

theorem le_foldl_max (times : List Rat) (start : Rat) :
    start ≤ times.foldl max start ∧
      forall t, t ∈ times -> t ≤ times.foldl max start := by
  induction times generalizing start with
  | nil => exact ⟨le_refl start, fun t ht => nomatch ht⟩
  | cons u rest ih =>
      rcases ih (max start u) with ⟨hstart, hrest⟩
      constructor
      · exact le_trans (le_max_left start u) hstart
      · intro t ht
        rcases List.mem_cons.mp ht with rfl | hin
        · exact le_trans (le_max_right start t) hstart
        · exact hrest t hin

theorem allPast_of_isPastHorizon {look : SessionLook} {now : Rat}
    (hdir : look.isDirectory = some true)
    (h : isPastHorizon look now = some true) : AllPast look now := by
  unfold isPastHorizon at h
  cases hentries : look.entries with
  | none =>
      rw [hentries] at h
      cases h
  | some entries =>
      simp only [hentries] at h
      split at h
      · cases h
      · rcases Option.map_eq_some_iff.mp h with ⟨times, htimes, hold⟩
        have hnewest := of_decide_eq_true hold
        rcases le_foldl_max times look.mtimeMs with ⟨hstart, hall⟩
        constructor
        · exact hdir
        constructor
        · exact lt_of_lt_of_le hnewest (sub_le_sub_left hstart now)
        · use entries, hentries
          intro entry hentry
          rcases mem_allTimes htimes hentry with ⟨t, ht, hmem⟩
          use t, ht
          exact lt_of_lt_of_le hnewest (sub_le_sub_left (hall t hmem) now)

/-!
## What is taken
-/

/-- The detector holds nothing open for the session. -/
def Settled (files : DetectorFiles) (name : String) (now : Rat) : Prop :=
  detectorSessionState files name now = .none ∨
    detectorSessionState files name now = .closed

theorem isSessionKey_of_known (files : DetectorFiles) {name : String}
    (now : Rat) (h : detectorSessionState files name now ≠ .unknown) :
    isSessionKey name = true := by
  cases hkey : isSessionKey name with
  | true => rfl
  | false =>
      exfalso
      apply h
      unfold detectorSessionState
      simp [hkey]

theorem isSessionKey_of_settled {files : DetectorFiles} {name : String}
    {now : Rat} (h : Settled files name now) : isSessionKey name = true := by
  apply isSessionKey_of_known files now
  intro hunknown
  rcases h with hnone | hclosed
  · rw [hunknown] at hnone
    cases hnone
  · rw [hunknown] at hclosed
    cases hclosed

theorem taken_of_sweepOne {look : SessionLook} {name : String} {now : Rat}
    (h : (sweepOne look name now).taken = true) :
    AllPast look now ∧ Settled look.files name now := by
  unfold sweepOne at h
  split at h
  · cases h
  · cases h
  · rename_i hdir
    split at h
    · cases h
    · split at h
      · cases h
      · cases h
      · rename_i hpast
        have hall := allPast_of_isPastHorizon hdir hpast
        split at h
        · cases h
        · cases h
        · cases h
        · rename_i hnone
          exact ⟨hall, Or.inl hnone⟩
        · rename_i hclosed
          exact ⟨hall, Or.inr hclosed⟩

theorem candidate_of_sweepOne {look : SessionLook} {name : String}
    {now : Rat}
    (h : (sweepOne look name now).outcome = some .candidate) :
    AllPast look now ∧ isSessionKey name = true := by
  unfold sweepOne at h
  split at h
  · cases h
  · cases h
  · rename_i hdir
    split at h
    · split at h <;> cases h
    · split at h
      · cases h
      · cases h
      · rename_i hpast
        have hall := allPast_of_isPastHorizon hdir hpast
        split at h
        · rename_i hopen
          constructor
          · exact hall
          · apply isSessionKey_of_known look.files now
            rw [hopen]
            intro h
            cases h
        · cases h
        · cases h
        · unfold removeSessionDir at h
          dsimp only at h
          split at h <;> cases h
        · unfold removeSessionDir at h
          dsimp only at h
          split at h <;> cases h

/-!
## The order of the names
-/

theorem sortNames_sorted {names : List String} (hnodup : names.Nodup) :
    (SweepInput.sortNames names).Pairwise fun a b => a < b := by
  have hdistinct : Paging.Distinct id
      (names.filter fun name => isSessionKey name || isTrash name) :=
    hnodup.filter _
  exact Paging.inOrder_ascending hdistinct

theorem mem_sortNames {names : List String} {name : String} :
    name ∈ SweepInput.sortNames names <->
      name ∈ names ∧ (isSessionKey name || isTrash name) = true := by
  unfold SweepInput.sortNames
  rw [List.mem_mergeSort, List.mem_filter]

theorem nonempty_of_mem_sortNames {names : List String} {name : String}
    (h : name ∈ SweepInput.sortNames names) : "" < name := by
  have hkind := (mem_sortNames.mp h).2
  have hne : name ≠ "" := by
    intro hempty
    rw [hempty] at hkind
    revert hkind
    decide
  have hle : "" ≤ name := by
    apply not_lt.mp
    intro h
    exact List.not_lt_nil _ (String.lt_iff_toList_lt.mp h)
  exact lt_of_le_of_ne hle (Ne.symm hne)

/-!
## The cursor
-/

section Cursor

variable {names : List String}

theorem namesAfter_suffix (cursor : Option String) (names : List String) :
    SweepInput.namesAfter cursor names <:+ names := by
  cases cursor with
  | none => exact List.suffix_refl names
  | some c => exact List.drop_suffix _ names

/-- The names after the cursor are those beyond it. -/
theorem mem_namesAfter (hsorted : names.Pairwise fun a b => a < b)
    {cursor : Option String} {name : String} :
    name ∈ SweepInput.namesAfter cursor names <->
      name ∈ names ∧ Beyond cursor name := by
  cases cursor with
  | none => exact ⟨fun h => ⟨h, beyond_none name⟩, fun h => h.1⟩
  | some c =>
      unfold SweepInput.namesAfter
      induction names with
      | nil => simp
      | cons first rest ih =>
          rcases List.pairwise_cons.mp hsorted with ⟨hfirst, hrest⟩
          by_cases hafter : c < first
          · have hzero : (first :: rest).findIdx
                (fun name => decide (c < name)) = 0 := by
              rw [List.findIdx_cons, decide_eq_true hafter]
              rfl
            dsimp only
            rw [hzero]
            constructor
            · intro h
              refine ⟨h, ?_⟩
              intro d hd
              cases hd
              rcases List.mem_cons.mp h with rfl | hin
              · exact hafter
              · exact lt_trans hafter (hfirst name hin)
            · intro h
              exact h.1
          · have hnext : (first :: rest).findIdx
                (fun name => decide (c < name)) =
                  rest.findIdx (fun name => decide (c < name)) + 1 := by
              rw [List.findIdx_cons, decide_eq_false hafter]
              rfl
            dsimp only at ih ⊢
            rw [hnext, List.drop_succ_cons, ih hrest]
            constructor
            · intro h
              exact ⟨List.mem_cons_of_mem first h.1, h.2⟩
            · intro h
              rcases List.mem_cons.mp h.1 with rfl | hin
              · exact absurd (h.2 c rfl) hafter
              · exact ⟨hin, h.2⟩

/-- The cursor has moved forward. -/
def Forward (old new : Option String) : Prop :=
  exists c, new = some c ∧ Beyond old c ∧ "" < c

/-- The cursor in front of a name stays where it is, or has moved forward; the
name is beyond it. -/
theorem cursorBefore_spec (hsorted : names.Pairwise fun a b => a < b)
    {cursor : Option String} {name : String} (hname : name ∈ names)
    (hbeyond : Beyond cursor name) :
    Beyond (cursorBefore cursor names name) name := by
  unfold cursorBefore
  split
  · exact hbeyond
  · rename_i i hi
    split
    · exact hbeyond
    · rename_i before hbefore
      split
      · have hlt := List.idxOf_lt_length_of_mem hname
        have hget : names[names.idxOf name] = name :=
          List.getElem_idxOf hlt
        rcases List.getElem?_eq_some_iff.mp hbefore with ⟨hlen, rfl⟩
        intro d hd
        cases hd
        have hpair := List.pairwise_iff_getElem.mp hsorted i
          (names.idxOf name) hlen hlt (by rw [hi]; exact Nat.lt_succ_self i)
        rw [hget] at hpair
        exact hpair
      · exact hbeyond

/-- With a name between, the cursor has moved to it or past it. -/
theorem cursorBefore_forward (hsorted : names.Pairwise fun a b => a < b)
    {cursor : Option String} {name earlier : String} (hname : name ∈ names)
    (hearlier : earlier ∈ names) (hbeyond : Beyond cursor earlier)
    (hnonempty : "" < earlier) (hlt : earlier < name) :
    Forward cursor (cursorBefore cursor names name) := by
  have hnamelt := List.idxOf_lt_length_of_mem hname
  have hearlt := List.idxOf_lt_length_of_mem hearlier
  have hgetname : names[names.idxOf name] = name :=
    List.getElem_idxOf hnamelt
  have hgetear : names[names.idxOf earlier] = earlier :=
    List.getElem_idxOf hearlt
  have hidx : names.idxOf earlier < names.idxOf name := by
    rcases Nat.lt_trichotomy (names.idxOf earlier) (names.idxOf name) with
      h | h | h
    · exact h
    · exfalso
      have hsame : earlier = name := by
        rw [← hgetear, ← hgetname]
        simp only [h]
      rw [hsame] at hlt
      exact lt_irrefl name hlt
    · exfalso
      have hpair := List.pairwise_iff_getElem.mp hsorted _ _ hnamelt hearlt h
      rw [hgetname, hgetear] at hpair
      exact lt_asymm hlt hpair
  unfold cursorBefore
  split
  · rename_i hzero
    rw [hzero] at hidx
    cases hidx
  · rename_i i hi
    rw [hi] at hidx
    have hilen : i < names.length := by
      have h := hnamelt
      rw [hi] at h
      exact Nat.lt_of_succ_lt h
    rw [List.getElem?_eq_getElem hilen]
    dsimp only
    have hle : earlier ≤ names[i] := by
      rcases Nat.lt_or_ge (names.idxOf earlier) i with h | h
      · have hpair := List.pairwise_iff_getElem.mp hsorted _ _ hearlt hilen h
        rw [hgetear] at hpair
        exact le_of_lt hpair
      · have hsame : names.idxOf earlier = i :=
          Nat.le_antisymm (Nat.le_of_lt_succ hidx) h
        simp only [← hsame, hgetear, le_refl]
    have hmoves : cursor.getD "" < names[i] := by
      cases cursor with
      | none => exact lt_of_lt_of_le hnonempty hle
      | some c => exact lt_of_lt_of_le (hbeyond c rfl) hle
    rw [if_pos hmoves]
    refine ⟨names[i], rfl, ?_, lt_of_lt_of_le hnonempty hle⟩
    intro c hc
    rw [hc] at hmoves
    exact hmoves

end Cursor

/-!
## The scan
-/

/-- What the loop does with the names that it reaches. -/
structure Scanned (input : SweepInput) (before after : SweepInput.Scan)
    (done : List String) : Prop where
  examined : after.examined = before.examined ++ done
  taken : after.taken = before.taken ++ done.filter fun name =>
    (sweepOne (input.look name) name input.nowHere).taken
  candidates : after.candidates = before.candidates ++ done.filter fun name =>
    decide ((sweepOne (input.look name) name input.nowHere).outcome =
      some .candidate)
  last : after.last = done.getLast?.or before.last

theorem scanned_nil (input : SweepInput) (before : SweepInput.Scan)
    (tick : Nat) (rest : List String) :
    Scanned input before { before with tick := tick, rest := rest } [] where
  examined := (List.append_nil _).symm
  taken := (List.append_nil _).symm
  candidates := (List.append_nil _).symm
  last := rfl

theorem scanned_cons {input : SweepInput} {before after : SweepInput.Scan}
    {name : String} {done : List String} (tick : Nat)
    (h : Scanned input
      (({ before with tick := tick } : SweepInput.Scan).add name
        (sweepOne (input.look name) name input.nowHere)) after done) :
    Scanned input before after (name :: done) where
  examined := by
    rw [h.examined]
    exact List.append_assoc before.examined [name] done
  taken := by
    rw [h.taken]
    unfold SweepInput.Scan.add
    cases htaken : (sweepOne (input.look name) name input.nowHere).taken with
    | true => simp [htaken]
    | false => simp [htaken]
  candidates := by
    rw [h.candidates]
    unfold SweepInput.Scan.add
    by_cases hcandidate :
        (sweepOne (input.look name) name input.nowHere).outcome =
          some .candidate
    · simp [hcandidate]
    · simp [hcandidate]
  last := by
    rw [h.last]
    unfold SweepInput.Scan.add
    cases done with
    | nil => rfl
    | cons next rest =>
        rw [List.getLast?_cons_cons, List.getLast?_cons]
        rfl

theorem scanFrom_spec (input : SweepInput) (scan : SweepInput.Scan)
    (names : List String) :
    exists done, names = done ++ (input.scanFrom scan names).rest ∧
      Scanned input scan (input.scanFrom scan names) done := by
  induction names generalizing scan with
  | nil => exact ⟨[], rfl, scanned_nil input scan scan.tick []⟩
  | cons name names ih =>
      unfold SweepInput.scanFrom
      split
      · exact ⟨[], rfl, scanned_nil input scan (scan.tick + 1) (name :: names)⟩
      · split
        · rcases ih (({ scan with tick := scan.tick + 1 } :
            SweepInput.Scan).add name
              (sweepOne (input.look name) name input.nowHere)) with
            ⟨done, hsplit, hscanned⟩
          use name :: done
          constructor
          · exact congrArg (List.cons name) hsplit
          · exact scanned_cons (scan.tick + 1) hscanned
        · split
          · exact ⟨[], rfl,
              scanned_nil input scan (scan.tick + 2) (name :: names)⟩
          · rcases ih (({ scan with tick := scan.tick + 2 } :
              SweepInput.Scan).add name
                (sweepOne (input.look name) name input.nowHere)) with
              ⟨done, hsplit, hscanned⟩
            use name :: done
            constructor
            · exact congrArg (List.cons name) hsplit
            · exact scanned_cons (scan.tick + 2) hscanned

section Run

variable (input : SweepInput) (cursor : Option String) (names : List String)

theorem scan_split :
    SweepInput.namesAfter cursor names =
      (input.scan cursor names).examined ++ (input.scan cursor names).rest := by
  unfold SweepInput.scan
  rcases scanFrom_spec input (SweepInput.Scan.begin cursor)
    (SweepInput.namesAfter cursor names) with ⟨done, hsplit, hscanned⟩
  rw [hscanned.examined]
  exact hsplit

theorem scan_scanned :
    (input.scan cursor names).taken =
        ((input.scan cursor names).examined.filter fun name =>
          (sweepOne (input.look name) name input.nowHere).taken) ∧
      (input.scan cursor names).candidates =
        ((input.scan cursor names).examined.filter fun name =>
          decide ((sweepOne (input.look name) name input.nowHere).outcome =
            some .candidate)) ∧
      (input.scan cursor names).last =
        (input.scan cursor names).examined.getLast?.or cursor := by
  unfold SweepInput.scan
  rcases scanFrom_spec input (SweepInput.Scan.begin cursor)
    (SweepInput.namesAfter cursor names) with ⟨done, _, hscanned⟩
  have hexamined := hscanned.examined
  rw [hexamined]
  exact ⟨hscanned.taken, hscanned.candidates, hscanned.last⟩

/-- With nothing found to close, the run gets past the first name exactly when
its budget is not spent at the first check. -/
theorem examined_nil_iff {first : String} {rest : List String}
    (hnames : SweepInput.namesAfter cursor names = first :: rest) :
    (input.scan cursor names).examined = [] <-> input.spent 1 = true := by
  unfold SweepInput.scan
  rw [hnames]
  unfold SweepInput.scanFrom SweepInput.Scan.begin
  have hfew : decide (ledgerSweepMaxRemovals ≤ 0 + 0) = false := by decide
  cases hspent : input.spent 1 with
  | true => simp
  | false =>
      simp only [List.isEmpty_nil, Bool.false_or, List.length_nil, hfew,
        Bool.false_eq_true, if_false, if_true]
      constructor
      · intro h
        rcases scanFrom_spec input _ rest with ⟨done, _, hscanned⟩
        rw [hscanned.examined] at h
        cases h
      · intro h
        cases h

end Run

/-!
## The close of the candidates
-/

theorem reached_append_carried (input : SweepInput)
    (scan : SweepInput.Scan) :
    scan.candidates = input.reached scan ++ input.carried scan := by
  have hbatch : input.batch scan <+: scan.candidates := by
    unfold SweepInput.batch
    split
    · exact List.take_prefix 1 scan.candidates
    · exact List.prefix_refl scan.candidates
  have hreached : input.reached scan <+: scan.candidates :=
    (List.take_prefix _ _).trans hbatch
  exact (List.prefix_iff_eq_append.mp hreached).symm

theorem mem_taken_of_close (input : SweepInput) (names : List String)
    (done : SweepInput.Close) {name : String}
    (h : name ∈ (names.foldl (fun done name => input.closeOne name done)
      done).taken) :
    name ∈ done.taken ∨ (name ∈ names ∧
      Settled (input.after name).files name input.nowHere) := by
  induction names generalizing done with
  | nil => exact Or.inl h
  | cons first rest ih =>
      rcases ih (input.closeOne first done) h with hbefore | hlater
      · have hfirst : name ∈ done.taken ∨ (name = first ∧
            Settled (input.after first).files first input.nowHere) := by
          unfold SweepInput.closeOne at hbefore
          dsimp only at hbefore
          split at hbefore
          · rename_i hnone
            split at hbefore
            · rcases List.mem_append.mp hbefore with hin | hnew
              · exact Or.inl hin
              · exact Or.inr ⟨List.mem_singleton.mp hnew, Or.inl hnone⟩
            · rcases List.mem_append.mp hbefore with hin | hnew
              · exact Or.inl hin
              · exact Or.inr ⟨List.mem_singleton.mp hnew, Or.inl hnone⟩
          · rename_i hclosed
            split at hbefore
            · rcases List.mem_append.mp hbefore with hin | hnew
              · exact Or.inl hin
              · exact Or.inr ⟨List.mem_singleton.mp hnew, Or.inr hclosed⟩
            · rcases List.mem_append.mp hbefore with hin | hnew
              · exact Or.inl hin
              · exact Or.inr ⟨List.mem_singleton.mp hnew, Or.inr hclosed⟩
          · exact Or.inl hbefore
        rcases hfirst with hin | ⟨rfl, hsettled⟩
        · exact Or.inl hin
        · exact Or.inr ⟨List.mem_cons_self, hsettled⟩
      · exact Or.inr ⟨List.mem_cons_of_mem first hlater.1, hlater.2⟩

/-!
## The cursor that a run leaves
-/

def cursorLeft (input : SweepInput) (cursor : Option String)
    (names : List String) : Option String :=
  match input.carried (input.scan cursor names) with
  | [] => (input.scan cursor names).last
  | name :: _ => cursorBefore cursor names name

section Left

variable {input : SweepInput} {cursor : Option String} {names : List String}

variable (input cursor) in
theorem after_sorted (hsorted : names.Pairwise fun a b => a < b) :
    ((input.scan cursor names).examined ++
      (input.scan cursor names).rest).Pairwise fun a b => a < b := by
  rw [← scan_split input cursor names]
  exact hsorted.sublist (namesAfter_suffix cursor names).sublist

theorem mem_of_examined (hsorted : names.Pairwise fun a b => a < b)
    {name : String} (h : name ∈ (input.scan cursor names).examined) :
    name ∈ names ∧ Beyond cursor name := by
  have hin : name ∈ SweepInput.namesAfter cursor names := by
    rw [scan_split input cursor names]
    exact List.mem_append_left _ h
  exact (mem_namesAfter hsorted).mp hin

theorem mem_candidates {name : String} :
    name ∈ (input.scan cursor names).candidates <->
      name ∈ (input.scan cursor names).examined ∧
        (sweepOne (input.look name) name input.nowHere).outcome =
          some .candidate := by
  rw [(scan_scanned input cursor names).2.1, List.mem_filter,
    decide_eq_true_eq]

variable (input cursor) in
theorem candidates_sorted (hsorted : names.Pairwise fun a b => a < b) :
    (input.reached (input.scan cursor names) ++
      input.carried (input.scan cursor names)).Pairwise fun a b => a < b := by
  rw [← reached_append_carried, (scan_scanned input cursor names).2.1]
  exact (List.pairwise_append.mp (after_sorted input cursor hsorted)).1.filter _

theorem examined_of_carried {name : String}
    (h : name ∈ input.carried (input.scan cursor names)) :
    name ∈ (input.scan cursor names).examined := by
  have hcandidate : name ∈ (input.scan cursor names).candidates := by
    rw [reached_append_carried input]
    exact List.mem_append_right _ h
  exact (mem_candidates.mp hcandidate).1

/-- The last name that is examined is at or after every one of them. -/
theorem last_spec (hsorted : names.Pairwise fun a b => a < b)
    {name : String} (h : name ∈ (input.scan cursor names).examined) :
    exists last, (input.scan cursor names).last = some last ∧
      last ∈ (input.scan cursor names).examined ∧ name ≤ last := by
  have hpairs := (List.pairwise_append.mp
    (after_sorted input cursor hsorted)).1
  rw [(scan_scanned input cursor names).2.2]
  generalize (input.scan cursor names).examined = examined at h hpairs
  cases hlast : examined.getLast? with
  | none =>
      rw [List.getLast?_eq_none_iff.mp hlast] at h
      cases h
  | some last =>
      rcases List.getLast?_eq_some_iff.mp hlast with ⟨front, rfl⟩
      refine ⟨last, rfl, List.mem_append_right _ List.mem_cons_self, ?_⟩
      rcases List.mem_append.mp h with hfront | hend
      · exact le_of_lt ((List.pairwise_append.mp hpairs).2.2 name hfront last
          List.mem_cons_self)
      · exact le_of_eq (List.mem_singleton.mp hend)

/-- A candidate that is left for a later run is beyond the cursor. -/
theorem beyond_of_carried (hsorted : names.Pairwise fun a b => a < b)
    {name : String} (h : name ∈ input.carried (input.scan cursor names)) :
    Beyond (cursorLeft input cursor names) name := by
  have hpairs :=
    (List.pairwise_append.mp (candidates_sorted input cursor hsorted)).2.1
  have hexamined := examined_of_carried
    (List.head_mem (List.ne_nil_of_mem h))
  unfold cursorLeft
  cases hcarried : input.carried (input.scan cursor names) with
  | nil =>
      rw [hcarried] at h
      cases h
  | cons first rest =>
      simp only [hcarried, List.head_cons] at h hpairs hexamined
      rcases mem_of_examined hsorted hexamined with ⟨hin, hbeyond⟩
      have hfirst := cursorBefore_spec hsorted hin hbeyond
      rcases List.mem_cons.mp h with rfl | hlater
      · exact hfirst
      · intro c hc
        exact lt_trans (hfirst c hc)
          ((List.pairwise_cons.mp hpairs).1 name hlater)

/-- So is a name that the scan has not reached. -/
theorem beyond_of_rest (hsorted : names.Pairwise fun a b => a < b)
    {name : String} (h : name ∈ (input.scan cursor names).rest) :
    Beyond (cursorLeft input cursor names) name := by
  have hafter := (List.pairwise_append.mp
    (after_sorted input cursor hsorted)).2.2
  cases hcarried : input.carried (input.scan cursor names) with
  | cons first rest =>
      have hfirst : first ∈ input.carried (input.scan cursor names) := by
        rw [hcarried]
        exact List.mem_cons_self
      have hlt := hafter first (examined_of_carried hfirst) name h
      have hbeyond := beyond_of_carried hsorted hfirst
      intro c hc
      exact lt_trans (hbeyond c hc) hlt
  | nil =>
      unfold cursorLeft
      rw [hcarried]
      dsimp only
      have hin : name ∈ SweepInput.namesAfter cursor names := by
        rw [scan_split input cursor names]
        exact List.mem_append_right _ h
      have hbeyond := ((mem_namesAfter hsorted).mp hin).2
      rw [(scan_scanned input cursor names).2.2]
      cases hlast : (input.scan cursor names).examined.getLast? with
      | none => exact hbeyond
      | some last =>
          intro c hc
          cases hc
          exact hafter last (List.mem_of_getLast? hlast) name h

/-- When a name is examined and nothing is carried, or the close reaches a
candidate, the cursor moves forward. -/
theorem forward_of_examined (hsorted : names.Pairwise fun a b => a < b)
    (hnonempty : forall name, name ∈ names -> "" < name)
    (hcarried : input.carried (input.scan cursor names) = [])
    {name : String} (h : name ∈ (input.scan cursor names).examined) :
    Forward cursor (cursorLeft input cursor names) := by
  unfold cursorLeft
  rw [hcarried]
  rcases last_spec hsorted h with ⟨last, hlast, hin, _⟩
  rcases mem_of_examined hsorted hin with ⟨hlisted, hbeyond⟩
  exact ⟨last, hlast, hbeyond, hnonempty last hlisted⟩

theorem forward_of_reached (hsorted : names.Pairwise fun a b => a < b)
    (hnonempty : forall name, name ∈ names -> "" < name)
    (hreached : input.reached (input.scan cursor names) ≠ []) :
    Forward cursor (cursorLeft input cursor names) := by
  rcases List.exists_mem_of_ne_nil _ hreached with ⟨earlier, hearlier⟩
  have hcandidate : earlier ∈ (input.scan cursor names).candidates := by
    rw [reached_append_carried input]
    exact List.mem_append_left _ hearlier
  have hexamined := (mem_candidates.mp hcandidate).1
  cases hcarried : input.carried (input.scan cursor names) with
  | nil => exact forward_of_examined hsorted hnonempty hcarried hexamined
  | cons first rest =>
      have hfirst : first ∈ input.carried (input.scan cursor names) := by
        rw [hcarried]
        exact List.mem_cons_self
      have hlt := (List.pairwise_append.mp (candidates_sorted input cursor
        hsorted)).2.2 earlier hearlier first hfirst
      rcases mem_of_examined hsorted hexamined with ⟨hin, hbeyond⟩
      have hname := (mem_of_examined hsorted (examined_of_carried hfirst)).1
      unfold cursorLeft
      rw [hcarried]
      exact cursorBefore_forward hsorted hname hin hbeyond
        (hnonempty earlier hin) hlt

end Left

/-!
## A run
-/

/-- The names that a run goes through, if it gets that far. -/
def SweepInput.listedHere (input : SweepInput)
    (stored : Option SweepState) : Option (List String) :=
  if 0 < input.budgetHere ∧ input.root = .found ∧
      ¬((input.stateHere stored).cursor = none ∧
        input.nowHere < (input.stateHere stored).next_after) then
    input.listing
  else none

theorem sweepLedgerDirs_cases (input : SweepInput)
    (stored : Option SweepState) :
    (input.listedHere stored = none ∧
      exists skipped, sweepLedgerDirs input stored = idle skipped stored) ∨
    exists listing, input.listedHere stored = some listing ∧
      input.listing = some listing ∧
      sweepLedgerDirs input stored =
        sweepNames input stored (SweepInput.sortNames listing) := by
  unfold sweepLedgerDirs
  split
  · rename_i hbudget
    cases hroot : input.root with
    | fails =>
        refine Or.inl ⟨if_neg ?_, false, rfl⟩
        intro h
        rw [hroot] at h
        cases h.2.1
    | missing =>
        refine Or.inl ⟨if_neg ?_, true, rfl⟩
        intro h
        rw [hroot] at h
        cases h.2.1
    | found =>
        dsimp only
        split
        · rename_i hskip
          refine Or.inl ⟨if_neg ?_, true, rfl⟩
          intro h
          exact h.2.2 hskip
        · rename_i hgo
          have hlisted : input.listedHere stored = input.listing :=
            if_pos ⟨hbudget, hroot, hgo⟩
          rw [hlisted]
          cases input.listing with
          | none => exact Or.inl ⟨rfl, false, rfl⟩
          | some listing => exact Or.inr ⟨listing, rfl, rfl, rfl⟩
  · rename_i hbudget
    refine Or.inl ⟨if_neg ?_, true, rfl⟩
    intro h
    exact hbudget h.1

def storedCursor (stored : Option SweepState) : Option String :=
  stored.bind fun state => state.cursor

/-- A run begins at the front, or where the last one has left off. -/
theorem begins_at (input : SweepInput) (stored : Option SweepState) :
    (input.stateHere stored).cursor = none ∨
      (input.stateHere stored).cursor = storedCursor stored := by
  unfold SweepInput.stateHere storedCursor
  cases input.readable with
  | false => exact Or.inl rfl
  | true =>
      cases stored with
      | none => exact Or.inl rfl
      | some state => exact Or.inr rfl

theorem complete_iff {input : SweepInput} {stored : Option SweepState}
    {names : List String} :
    (sweepNames input stored names).result.complete = true <->
      (input.scan (input.stateHere stored).cursor names).rest = [] ∧
        (sweepNames input stored names).carried = [] := by
  show (List.isEmpty _ && List.isEmpty _) = true <-> _
  rw [Bool.and_eq_true, List.isEmpty_iff, List.isEmpty_iff]
  rfl

/-- What a run that is cut off stores, when it can. -/
theorem storedCursor_stored {input : SweepInput} {stored : Option SweepState}
    {names : List String}
    (hcut : (sweepNames input stored names).result.complete = false) :
    storedCursor (sweepNames input stored names).stored =
      if input.writes then
        cursorLeft input (input.stateHere stored).cursor names
      else storedCursor stored := by
  show storedCursor (input.writeState stored (if (sweepNames input stored
    names).result.complete then _ else _)) = _
  rw [hcut]
  unfold SweepInput.writeState
  cases input.writes with
  | false => rfl
  | true => rfl

theorem sorted_of_listing {input : SweepInput} {listing : List String}
    (h : input.listing = some listing) :
    (SweepInput.sortNames listing).Pairwise fun a b => a < b :=
  sortNames_sorted (input.distinct listing h)

/-- Why a directory is taken: it was past the horizon when it was looked at,
and the detector held nothing open for it, then or after the close. -/
def TakenRightly (input : SweepInput) (report : SweepReport)
    (name : String) : Prop :=
  isSessionKey name = true ∧ name ∈ report.examined ∧
    AllPast (input.look name) input.nowHere ∧
    (Settled (input.look name).files name input.nowHere ∨
      name ∈ report.candidates ∧
        Settled (input.after name).files name input.nowHere)

theorem takenRightly_of_taken {input : SweepInput}
    {stored : Option SweepState} {name : String}
    (h : name ∈ (sweepLedgerDirs input stored).taken) :
    TakenRightly input (sweepLedgerDirs input stored) name := by
  rcases sweepLedgerDirs_cases input stored with
    ⟨_, skipped, hidle⟩ | ⟨listing, _, hlisting, hnames⟩
  · rw [hidle] at h
    cases h
  · rw [hnames] at h ⊢
    rcases List.mem_append.mp h with hscan | hclose
    · rw [(scan_scanned input _ _).1] at hscan
      rcases List.mem_filter.mp hscan with ⟨hexamined, htaken⟩
      rcases taken_of_sweepOne htaken with ⟨hpast, hsettled⟩
      exact ⟨isSessionKey_of_settled hsettled, hexamined, hpast,
        Or.inl hsettled⟩
    · rcases mem_taken_of_close input _ _ hclose with hnone | ⟨hin, hsettled⟩
      · cases hnone
      · have hcandidate : name ∈ (input.scan (input.stateHere stored).cursor
            (SweepInput.sortNames listing)).candidates := by
          rw [reached_append_carried input]
          exact List.mem_append_left _ hin
        rcases mem_candidates.mp hcandidate with ⟨hexamined, houtcome⟩
        rcases candidate_of_sweepOne houtcome with ⟨hpast, hkey⟩
        exact ⟨hkey, hexamined, hpast, Or.inr ⟨hcandidate, hsettled⟩⟩

theorem candidates_split (input : SweepInput) (stored : Option SweepState) :
    (sweepLedgerDirs input stored).candidates =
      (sweepLedgerDirs input stored).reached ++
        (sweepLedgerDirs input stored).carried := by
  rcases sweepLedgerDirs_cases input stored with
    ⟨_, skipped, hidle⟩ | ⟨listing, _, _, hnames⟩
  · rw [hidle]
    rfl
  · rw [hnames]
    exact reached_append_carried input _

/-!
## Passes
-/

/-- The name is there whenever the run lists the directory. -/
def Present (input : SweepInput) (name : String) : Prop :=
  forall listing, input.listing = some listing -> name ∈ listing

/-- A pass begins at a null cursor and ends with the first complete run. -/
structure Pass (runs : List SweepRun) : Prop where
  begins : exists first, runs.head? = some first ∧ storedCursor first.stored = none
  ends : exists front last, runs = front ++ [last] ∧
    last.report.result.complete = true ∧
    forall run, run ∈ front -> run.report.result.complete = false

/-- A run as a visit of the session names. -/
def visitOf (run : SweepRun) : Visit String :=
  match run.input.listedHere run.stored with
  | none =>
      { start := storedCursor run.stored
        listed := fun name => isSessionKey name = true ∧ Present run.input name
        seen := run.report.examined
        stop := some (storedCursor run.stored) }
  | some listing =>
      { start := (run.input.stateHere run.stored).cursor
        listed := fun name => isSessionKey name = true ∧ Present run.input name
        seen := run.report.examined
        stop :=
          if run.report.result.complete then none
          else some (cursorLeft run.input (run.input.stateHere run.stored).cursor
            (SweepInput.sortNames listing)) }

theorem visitOf_seen (run : SweepRun) :
    (visitOf run).seen = run.report.examined := by
  unfold visitOf
  split <;> rfl

theorem visitOf_listed (run : SweepRun) (name : String) :
    (visitOf run).listed name <->
      isSessionKey name = true ∧ Present run.input name := by
  unfold visitOf
  split <;> exact Iff.rfl

/-- The report is that of the run. -/
def SweepRun.Made (run : SweepRun) : Prop :=
  run.report = sweepLedgerDirs run.input run.stored

theorem visitOf_sound {run : SweepRun} (hmade : run.Made) :
    (visitOf run).Sound := by
  intro name hlisted hbegins hends
  unfold visitOf at hlisted hbegins hends ⊢
  rcases sweepLedgerDirs_cases run.input run.stored with
    ⟨hnone, _⟩ | ⟨listing, hsome, hlisting, hnames⟩
  · rw [hnone] at hbegins hends
    exact absurd hbegins (hends _ rfl)
  · rw [hsome] at hlisted hbegins hends ⊢
    have hreport := hmade.trans hnames
    dsimp only at hlisted hbegins hends ⊢
    rw [hreport] at hends ⊢
    have hsorted := sorted_of_listing hlisting
    have hin : name ∈ SweepInput.namesAfter
        (run.input.stateHere run.stored).cursor
          (SweepInput.sortNames listing) := by
      apply (mem_namesAfter hsorted).mpr
      refine ⟨mem_sortNames.mpr ⟨hlisted.2 listing hlisting, ?_⟩, hbegins⟩
      rw [hlisted.1]
      rfl
    rw [scan_split run.input] at hin
    rcases List.mem_append.mp hin with hexamined | hrest
    · exact hexamined
    · exfalso
      have hcut : (sweepNames run.input run.stored
          (SweepInput.sortNames listing)).result.complete ≠ true := by
        intro hcomplete
        rw [(complete_iff.mp hcomplete).1] at hrest
        cases hrest
      rw [if_neg hcut] at hends
      exact hends _ rfl (beyond_of_rest hsorted hrest)

theorem visitOf_stop_of_complete {run : SweepRun} (hmade : run.Made)
    (hcomplete : run.report.result.complete = true) :
    (visitOf run).stop = none := by
  unfold visitOf
  rcases sweepLedgerDirs_cases run.input run.stored with
    ⟨_, skipped, hidle⟩ | ⟨listing, hsome, _, _⟩
  · rw [hmade, hidle] at hcomplete
    cases hcomplete
  · rw [hsome]
    dsimp only
    rw [if_pos hcomplete]

theorem visitOf_start (run : SweepRun) :
    (visitOf run).start = none ∨
      (visitOf run).start = storedCursor run.stored := by
  unfold visitOf
  split
  · exact Or.inr rfl
  · exact begins_at run.input run.stored

theorem visitOf_next {run : SweepRun} (hmade : run.Made)
    (c : Option String) (hstop : (visitOf run).stop = some c) :
    storedCursor run.report.stored = storedCursor run.stored ∨
      storedCursor run.report.stored = c := by
  unfold visitOf at hstop
  rcases sweepLedgerDirs_cases run.input run.stored with
    ⟨_, skipped, hidle⟩ | ⟨listing, hsome, _, hnames⟩
  · rw [hmade, hidle]
    exact Or.inl rfl
  · rw [hsome] at hstop
    dsimp only at hstop
    split at hstop
    · cases hstop
    · rename_i hcut
      have hreport := hmade.trans hnames
      rw [hreport] at hcut ⊢
      rw [storedCursor_stored (Bool.eq_false_iff.mpr hcut)]
      split
      · exact Or.inr (Option.some.inj hstop)
      · exact Or.inl rfl

theorem made_of_mem {stored : Option SweepState} {inputs : List SweepInput}
    {run : SweepRun} (h : run ∈ sweepRuns stored inputs) : run.Made := by
  induction inputs generalizing stored with
  | nil => cases h
  | cons input inputs ih =>
      rcases List.mem_cons.mp h with rfl | hin
      · rfl
      · exact ih hin

theorem chain_of_sweepRuns (stored : Option SweepState)
    (inputs : List SweepInput) :
    Chain (storedCursor stored) ((sweepRuns stored inputs).map visitOf) := by
  induction inputs generalizing stored with
  | nil => exact Chain.nil _
  | cons input inputs ih =>
      have hmade : SweepRun.Made
          ⟨stored, input, sweepLedgerDirs input stored⟩ := rfl
      exact Chain.cons (visitOf_start _) (visitOf_next hmade) (ih _)

/-- A part of a sequence of runs is a sequence of runs. -/
theorem sweepRuns_split {stored : Option SweepState}
    {inputs : List SweepInput} {front back : List SweepRun}
    (h : sweepRuns stored inputs = front ++ back) :
    (exists earlier, front = sweepRuns stored earlier) ∧
      exists between later, back = sweepRuns between later ∧
        (forall run, front.getLast? = some run ->
          between = run.report.stored) ∧
        (front = [] -> between = stored) := by
  induction front generalizing stored inputs with
  | nil =>
      constructor
      · exact ⟨[], rfl⟩
      · refine ⟨stored, inputs, h.symm, ?_, fun _ => rfl⟩
        intro run hrun
        cases hrun
  | cons first front ih =>
      cases inputs with
      | nil => cases h
      | cons input inputs =>
          rcases List.cons.inj h with ⟨rfl, htail⟩
          rcases ih htail with
            ⟨⟨earlier, hfront⟩, between, later, hback, hlast, hempty⟩
          constructor
          · refine ⟨input :: earlier, ?_⟩
            rw [hfront]
            rfl
          · refine ⟨between, later, hback, ?_, fun hnil => nomatch hnil⟩
            intro run hrun
            cases front with
            | nil =>
                cases hrun
                exact hempty rfl
            | cons next rest =>
                rw [List.getLast?_cons_cons] at hrun
                exact hlast run hrun

theorem sweepRuns_of_infix {stored : Option SweepState}
    {inputs : List SweepInput} {runs : List SweepRun}
    (h : runs <:+: sweepRuns stored inputs) :
    exists earlier between, runs = sweepRuns earlier between := by
  rcases h with ⟨front, back, hsplit⟩
  rw [List.append_assoc] at hsplit
  rcases (sweepRuns_split hsplit.symm).2 with ⟨earlier, later, hrest, _⟩
  rcases (sweepRuns_split hrest.symm).1 with ⟨between, hruns⟩
  exact ⟨earlier, between, hruns⟩

theorem stored_of_head {stored : Option SweepState}
    {inputs : List SweepInput} {first : SweepRun}
    (h : (sweepRuns stored inputs).head? = some first) :
    first.stored = stored := by
  cases inputs with
  | nil => cases h
  | cons input inputs =>
      cases h
      rfl

/-- What is there all the time, and beyond what is stored, is looked at by the
end of the first complete run. -/
theorem examined_of_complete {stored : Option SweepState}
    {inputs : List SweepInput} {name : String}
    (hkey : isSessionKey name = true)
    (hbeyond : Beyond (storedCursor stored) name)
    (hcomplete : exists run, run ∈ sweepRuns stored inputs ∧
      run.report.result.complete = true)
    (hpresent : forall run, run ∈ sweepRuns stored inputs ->
      Present run.input name) :
    exists run, run ∈ sweepRuns stored inputs ∧
      name ∈ run.report.examined := by
  have hchain := chain_of_sweepRuns stored inputs
  have hsound : forall v, v ∈ (sweepRuns stored inputs).map visitOf ->
      v.Sound := by
    intro v hv
    rcases List.mem_map.mp hv with ⟨run, hrun, rfl⟩
    exact visitOf_sound (made_of_mem hrun)
  have hends : exists v, v ∈ (sweepRuns stored inputs).map visitOf ∧
      v.stop = none := by
    rcases hcomplete with ⟨run, hrun, hdone⟩
    exact ⟨visitOf run, List.mem_map_of_mem hrun,
      visitOf_stop_of_complete (made_of_mem hrun) hdone⟩
  have hlisted : forall v, v ∈ (sweepRuns stored inputs).map visitOf ->
      v.listed name := by
    intro v hv
    rcases List.mem_map.mp hv with ⟨run, hrun, rfl⟩
    exact (visitOf_listed run name).mpr ⟨hkey, hpresent run hrun⟩
  rcases seen_of_chain hchain hsound hends hbeyond hlisted with
    ⟨v, hv, hseen⟩
  rcases List.mem_map.mp hv with ⟨run, hrun, rfl⟩
  rw [visitOf_seen] at hseen
  exact ⟨run, hrun, hseen⟩

/-- A candidate that a run leaves is beyond what is stored after it. -/
theorem beyond_stored_of_carried {run : SweepRun} (hmade : run.Made)
    (hstate : run.input.readable = true ∨ run.input.writes = true)
    {name : String} (h : name ∈ run.report.carried) :
    isSessionKey name = true ∧
      Beyond (storedCursor run.report.stored) name := by
  rcases sweepLedgerDirs_cases run.input run.stored with
    ⟨_, skipped, hidle⟩ | ⟨listing, _, hlisting, hnames⟩
  · rw [hmade, hidle] at h
    cases h
  · have hreport := hmade.trans hnames
    rw [hreport] at h ⊢
    have hsorted := sorted_of_listing hlisting
    have hcarried : name ∈ run.input.carried
        (run.input.scan (run.input.stateHere run.stored).cursor
          (SweepInput.sortNames listing)) := h
    have hcut : (sweepNames run.input run.stored
        (SweepInput.sortNames listing)).result.complete = false := by
      rw [Bool.eq_false_iff]
      intro hcomplete
      rw [(complete_iff.mp hcomplete).2] at h
      cases h
    have hcandidate : name ∈ (run.input.scan
        (run.input.stateHere run.stored).cursor
          (SweepInput.sortNames listing)).candidates := by
      rw [reached_append_carried run.input]
      exact List.mem_append_right _ hcarried
    constructor
    · exact (candidate_of_sweepOne (mem_candidates.mp hcandidate).2).2
    · rw [storedCursor_stored hcut]
      split
      · exact beyond_of_carried hsorted hcarried
      · rename_i hkept
        have hreadable : run.input.readable = true :=
          hstate.resolve_right hkept
        have hsame : (run.input.stateHere run.stored).cursor =
            storedCursor run.stored := by
          unfold SweepInput.stateHere storedCursor
          rw [hreadable]
          cases run.stored with
          | none => rfl
          | some state => rfl
        rw [← hsame]
        exact (mem_of_examined hsorted (examined_of_carried hcarried)).2

/-!
## Progress
-/

/-- The run starts with budget left, gets to the names and is cut off. -/
structure CutOff (run : SweepRun) : Prop where
  budget : 0 < run.input.budgetHere
  root : run.input.root = .found
  listed : run.input.listing ≠ none
  skipped : run.report.result.skipped = false
  complete : run.report.result.complete = false

theorem names_of_cutOff {run : SweepRun} (hmade : run.Made)
    (hcut : CutOff run) :
    exists listing, run.input.listing = some listing ∧
      run.report =
        sweepNames run.input run.stored (SweepInput.sortNames listing) := by
  rcases sweepLedgerDirs_cases run.input run.stored with
    ⟨hnone, skipped, hidle⟩ | ⟨listing, _, hlisting, hnames⟩
  · exfalso
    have hstop : run.report.result.skipped = true := by
      rw [hmade]
      unfold sweepLedgerDirs
      rw [if_pos hcut.budget, hcut.root]
      dsimp only
      split
      · rfl
      · rename_i hgo
        have hlisted : run.input.listedHere run.stored = run.input.listing :=
          if_pos ⟨hcut.budget, hcut.root, hgo⟩
        rw [hnone] at hlisted
        exact absurd hlisted.symm hcut.listed
    rw [hcut.skipped] at hstop
    cases hstop
  · exact ⟨listing, hlisting, hmade.trans hnames⟩

theorem not_forward_self (cursor : Option String) :
    ¬ Forward cursor cursor := by
  intro h
  rcases h with ⟨c, hc, hbeyond, _⟩
  exact lt_irrefl c (hbeyond c hc)

theorem forward_of_cutOff {run : SweepRun} (hmade : run.Made)
    (hcut : CutOff run) (hwrites : run.input.writes = true) :
    (run.report.reached ≠ [] ->
      Forward (run.input.stateHere run.stored).cursor
        (storedCursor run.report.stored)) ∧
    (run.report.candidates = [] ->
      (Forward (run.input.stateHere run.stored).cursor
          (storedCursor run.report.stored) <->
        run.input.spent 1 = false)) := by
  rcases names_of_cutOff hmade hcut with ⟨listing, hlisting, hreport⟩
  have hcomplete := hcut.complete
  rw [hreport] at hcomplete ⊢
  have hsorted := sorted_of_listing hlisting
  have hnonempty : forall name, name ∈ SweepInput.sortNames listing ->
      "" < name := fun name => nonempty_of_mem_sortNames
  rw [storedCursor_stored hcomplete, if_pos hwrites]
  constructor
  · intro hreached
    exact forward_of_reached hsorted hnonempty hreached
  · intro hcandidates
    have hcarried : run.input.carried
        (run.input.scan (run.input.stateHere run.stored).cursor
          (SweepInput.sortNames listing)) = [] := by
      have hsplit := reached_append_carried run.input (run.input.scan
        (run.input.stateHere run.stored).cursor
          (SweepInput.sortNames listing))
      exact (List.append_eq_nil_iff.mp (hsplit.symm.trans hcandidates)).2
    -- A run that is cut off has names in front of it.
    cases hnames : SweepInput.namesAfter
        (run.input.stateHere run.stored).cursor
          (SweepInput.sortNames listing) with
    | nil =>
        exfalso
        rw [scan_split run.input] at hnames
        have hdone : (sweepNames run.input run.stored
            (SweepInput.sortNames listing)).result.complete = true :=
          complete_iff.mpr ⟨(List.append_eq_nil_iff.mp hnames).2, hcarried⟩
        rw [hcomplete] at hdone
        cases hdone
    | cons first rest =>
        have hnil := examined_nil_iff run.input _ _ hnames
        constructor
        · intro hforward
          rw [Bool.eq_false_iff]
          intro hspent
          have hlast : cursorLeft run.input
              (run.input.stateHere run.stored).cursor
                (SweepInput.sortNames listing) =
              (run.input.stateHere run.stored).cursor := by
            unfold cursorLeft
            rw [hcarried]
            dsimp only
            rw [(scan_scanned run.input _ _).2.2, hnil.mpr hspent]
            rfl
          rw [hlast] at hforward
          exact not_forward_self _ hforward
        · intro hspent
          have hexamined : (run.input.scan
              (run.input.stateHere run.stored).cursor
                (SweepInput.sortNames listing)).examined ≠ [] := by
            intro hempty
            have htrue := hnil.mp hempty
            rw [hspent] at htrue
            cases htrue
          rcases List.exists_mem_of_ne_nil _ hexamined with ⟨name, hname⟩
          exact forward_of_examined hsorted hnonempty hcarried hname

/-!
## Sequences of runs
-/

/-- Only settled sessions are removed, and none is skipped. -/
theorem sweep_takes_settled_and_skips_none (stored : Option SweepState)
    (inputs : List SweepInput) :
    (forall run, run ∈ sweepRuns stored inputs ->
      (forall name, name ∈ run.report.taken ->
        TakenRightly run.input run.report name) ∧
      run.report.candidates = run.report.reached ++ run.report.carried) ∧
    (forall runs, runs <:+: sweepRuns stored inputs -> Pass runs ->
      (forall name, isSessionKey name = true ->
        (forall run, run ∈ runs -> Present run.input name) ->
        exists run, run ∈ runs ∧ name ∈ run.report.examined) ∧
      (forall before run after name, runs = before ++ run :: after ->
        name ∈ run.report.carried ->
        (run.input.readable = true ∨ run.input.writes = true) ->
        (forall later, later ∈ after -> Present later.input name) ->
        exists later, later ∈ after ∧ name ∈ later.report.examined)) ∧
    (forall run, run ∈ sweepRuns stored inputs -> CutOff run ->
      run.input.writes = true ->
      (run.report.reached ≠ [] ->
        Forward (run.input.stateHere run.stored).cursor
          (storedCursor run.report.stored)) ∧
      (run.report.candidates = [] ->
        (Forward (run.input.stateHere run.stored).cursor
            (storedCursor run.report.stored) <->
          run.input.spent 1 = false))) := by
  constructor
  · intro run hrun
    have hmade : run.report = sweepLedgerDirs run.input run.stored :=
      made_of_mem hrun
    rw [hmade]
    constructor
    · intro name htaken
      exact takenRightly_of_taken htaken
    · exact candidates_split run.input run.stored
  constructor
  · intro runs hinfixed hpass
    rcases sweepRuns_of_infix hinfixed with ⟨earlier, between, rfl⟩
    rcases hpass.begins with ⟨first, hfirst, hnull⟩
    rcases hpass.ends with ⟨front, last, hends, hdone, _⟩
    rw [stored_of_head hfirst] at hnull
    constructor
    · intro name hkey hpresent
      have hbeyond : Beyond (storedCursor earlier) name := by
        rw [hnull]
        exact beyond_none name
      have hlast : last ∈ sweepRuns earlier between := by
        rw [hends]
        exact List.mem_append_right front List.mem_cons_self
      exact examined_of_complete hkey hbeyond ⟨last, hlast, hdone⟩ hpresent
    · intro before run after name hsplit hcarried hstate hpresent
      have hrun : run ∈ sweepRuns earlier between := by
        rw [hsplit]
        exact List.mem_append_right before List.mem_cons_self
      have hmade := made_of_mem hrun
      rcases beyond_stored_of_carried hmade hstate hcarried with
        ⟨hkey, hbeyond⟩
      have hparts : sweepRuns earlier between =
          (before ++ [run]) ++ after := by
        rw [hsplit, List.append_assoc]
        rfl
      rcases (sweepRuns_split hparts).2 with
        ⟨next, later, hafter, hnext, _⟩
      rw [hnext run (by rw [List.getLast?_concat])] at hafter
      -- The run that leaves a candidate is not the complete one.
      have hlast : last ∈ after := by
        have hsame : before ++ run :: after = front ++ [last] :=
          hsplit.symm.trans hends
        cases after using List.reverseRecOn with
        | nil =>
            exfalso
            have hrunlast := List.append_inj_right' hsame rfl
            rw [← (List.cons.inj hrunlast).1, hmade] at hdone
            rcases sweepLedgerDirs_cases run.input run.stored with
              ⟨_, skipped, hidle⟩ | ⟨listing, _, _, hnames⟩
            · rw [hidle] at hdone
              cases hdone
            · rw [hnames] at hdone
              rw [hmade, hnames, (complete_iff.mp hdone).2] at hcarried
              cases hcarried
        | append_singleton others final _ =>
            have hparts : (before ++ run :: others) ++ [final] =
                front ++ [last] := by
              rw [← hsame, List.append_assoc]
              rfl
            have hfinal := List.append_inj_right' hparts rfl
            rw [← (List.cons.inj hfinal).1]
            exact List.mem_append_right others List.mem_cons_self
      rw [hafter] at hlast hpresent ⊢
      exact examined_of_complete hkey hbeyond ⟨last, hlast, hdone⟩ hpresent
  · intro run hrun hcut hwrites
    exact forward_of_cutOff (made_of_mem hrun) hcut hwrites

end Hooks
end Minni
