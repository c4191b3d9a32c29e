import Minni.Foundation.TransitionSystem
import Minni.Thread.Runs

/-!
# The status of a plan and its slices

Only `updateSlice` maintains the status of a plan.  The other operations that
change the slices keep the status they find, so the status speaks of the slices
exactly as long as none of them closes the last open slice or opens one in a
complete plan.
-/

namespace Minni
namespace Thread

open Foundation

/-!
## Activation
-/

namespace PageStatus

def text : PageStatus -> String
  | draft => "draft"
  | candidate => "candidate"
  | accepted => "accepted"
  | complete => "complete"
  | superseded => "superseded"
  | rejected => "rejected"
  | expired => "expired"

def isTerminal (status : PageStatus) : Bool :=
  status = accepted || status = complete || status = rejected ||
    status = superseded

end PageStatus

section Activation

variable {Claim : Type}

/-- What the check says before it sets the pointer to the plan. -/
def activatePlanChecked (plan : PlanArtifact Claim) : Except String Unit :=
  if plan.status.isTerminal then
    Except.error
      ("plan " ++ plan.plan_id ++ " has terminal status '" ++
        plan.status.text ++
        "' and cannot be re-activated; create a new plan (minni_thread_create) or restore a prior revision (minni_thread_restore) instead")
  else if allSlicesResolved plan.slices then
    Except.error
      ("plan " ++ plan.plan_id ++
        " has every slice resolved (done/superseded) and is effectively complete despite its '" ++
        plan.status.text ++
        "' status; it cannot be re-activated — create a new plan (minni_thread_create) or restore a prior revision (minni_thread_restore) instead")
  else
    Except.ok ()

inductive ActivePlanView (Claim : Type) where
  | absent
  /-- The plan is persisted as complete and not shown. -/
  | healed (plan : PlanArtifact Claim)
  | shown (plan : PlanArtifact Claim)

/-- What the view does with the plan that the pointer names. -/
def resolveActivePlanView (plan : PlanArtifact Claim) :
    ActivePlanView Claim :=
  if plan.status.isTerminal then ActivePlanView.absent
  else if allSlicesResolved plan.slices &&
      (plan.status = PageStatus.draft ||
        plan.status = PageStatus.candidate) then
    ActivePlanView.healed { plan with status := PageStatus.complete }
  else
    ActivePlanView.shown plan

end Activation

/-!
## Histories of a plan
-/

inductive PlanOp where
  | update (slice_id : String) (to_ : PlanSliceStatus)
      (evidence : Option String) (options : Option UpdateSliceOptions)
      (updated : String)
  | scar (entry : ScarTissueEntry) (updated : String)
  | replan (newSlices : List SliceInput) (updated : String)
  | delta (delta : SliceDelta) (updated : String)
  /-- A restore of the plan that stands at this place of the history. -/
  | restore (back : Nat)

/-- The plan and those it has been, the latest first. -/
structure PlanHistory (Claim : Type) where
  current : PlanArtifact Claim
  past : List (PlanArtifact Claim)

namespace PlanHistory

variable {Claim : Type}

def snapshot (h : PlanHistory Claim) (back : Nat) :
    Option (PlanArtifact Claim) :=
  (h.current :: h.past)[back]?

def start (plan : PlanArtifact Claim) : PlanHistory Claim where
  current := plan
  past := []

def push (h : PlanHistory Claim) (plan : PlanArtifact Claim) :
    PlanHistory Claim where
  current := plan
  past := h.current :: h.past

end PlanHistory

def PlanOp.apply {Claim : Type} (host : Host) (h : PlanHistory Claim) :
    PlanOp -> Except String (PlanArtifact Claim)
  | update slice_id to_ evidence options updated =>
      updateSlice host h.current slice_id to_ evidence options updated
  | scar entry updated => Except.ok (addScar h.current entry updated)
  | replan newSlices updated => Thread.replan host h.current newSlices updated
  | delta d updated => applySliceDelta host h.current d updated
  | restore back =>
      match h.snapshot back with
      | none => Except.error "no such revision"
      | some snapshot => restorePlan h.current snapshot

/-- The history after an operation that did not throw. -/
def planNext {Claim : Type} (host : Host) (h : PlanHistory Claim)
    (op : PlanOp) : Option (PlanHistory Claim) :=
  (op.apply host h).toOption.map h.push

/-!
## The law
-/

section Law

variable {Claim : Type}

def HasOpenSlice (plan : PlanArtifact Claim) : Prop :=
  exists s, s ∈ plan.slices ∧ s.status.isResolved = false

/-- The status says whether the work is finished, and a plan with open work can
be activated and is shown. -/
structure StatusAgrees (plan : PlanArtifact Claim) : Prop where
  complete : plan.status = PageStatus.complete <->
    allSlicesResolved plan.slices = true
  activates : HasOpenSlice plan -> activatePlanChecked plan = Except.ok ()
  shown : HasOpenSlice plan ->
    resolveActivePlanView plan = ActivePlanView.shown plan

/-- The law in every plan that a run of operations goes through. -/
def AgreesThroughout (host : Host) :
    PlanHistory Claim -> List PlanOp -> Prop
  | h, [] => StatusAgrees h.current
  | h, op :: ops =>
      StatusAgrees h.current ∧
        match planNext host h op with
        | none => True
        | some h' => AgreesThroughout host h' ops

/-!
## The condition
-/

/-- A proposed slice names a live one by its identifier or its title. -/
def namesLive (host : Host) (ns : SliceInput) (live : String × String) :
    Bool :=
  decide (Text.truthy ns.id = some live.1) || sameTitle host live.2 ns.title

/-- The title of a live slice after the proposed one has refreshed it. -/
def retitled (ns : SliceInput) (live : String × String) : String × String :=
  if Text.truthy ns.id = some live.1 ∧ ns.title ≠ "" then (live.1, ns.title)
  else live

/-- Some proposed slice names none of the live ones when its turn comes. -/
def proposesNew (host : Host) :
    List (String × String) -> List SliceInput -> Bool
  | _, [] => false
  | live, ns :: rest =>
      if live.any (namesLive host ns) then
        proposesNew host (live.map (retitled ns)) rest
      else
        true

/-- The identifiers and titles of the slices that a replan leaves alive. -/
def liveAfterDrop (drops : PlanSlice Claim -> Bool)
    (slices : List (PlanSlice Claim)) : List (String × String) :=
  (slices.filter fun s =>
    decide (s.status ≠ PlanSliceStatus.superseded) && !drops s).map
      fun s => (s.id, s.title)

/-- Nothing is left to do in the slices once these are dropped. -/
def closes (drops : PlanSlice Claim -> Bool)
    (slices : List (PlanSlice Claim)) : Bool :=
  !slices.isEmpty && slices.all fun s => s.status.isResolved || drops s

/-- The operation leaves open work exactly where the status says so: a complete
plan is given no new slice and only restored to a finished one, and an open one
keeps or is given an open slice. -/
def KeepsStatus (host : Host) (h : PlanHistory Claim) : PlanOp -> Prop
  | PlanOp.update .. => True
  | PlanOp.scar .. => True
  | PlanOp.replan newSlices _ =>
      h.current.status = PageStatus.complete <->
        (closes (replanDrops host newSlices) h.current.slices = true ∧
          proposesNew host
            (liveAfterDrop (replanDrops host newSlices) h.current.slices)
            newSlices = false)
  | PlanOp.delta d _ =>
      h.current.status = PageStatus.complete <->
        (closes (deltaDrops (d.drop_slice_ids.getD [])) h.current.slices =
            true ∧
          (d.add_slices.getD []).isEmpty = true)
  | PlanOp.restore back =>
      h.current.status = PageStatus.complete <->
        (h.snapshot back).any (fun p => allSlicesResolved p.slices) = true

def KeepsStatusThroughout (host : Host) :
    PlanHistory Claim -> List PlanOp -> Prop
  | _, [] => True
  | h, op :: ops =>
      match planNext host h op with
      | none => True
      | some h' => KeepsStatus host h op ∧ KeepsStatusThroughout host h' ops

instance (host : Host) (h : PlanHistory Claim) (op : PlanOp) :
    Decidable (KeepsStatus host h op) := by
  cases op <;> unfold KeepsStatus <;> infer_instance

instance keepsStatusThroughoutDecidable (host : Host) :
    (h : PlanHistory Claim) -> (ops : List PlanOp) ->
      Decidable (KeepsStatusThroughout host h ops)
  | _, [] => isTrue True.intro
  | h, op :: ops => by
      unfold KeepsStatusThroughout
      match planNext host h op with
      | none => exact isTrue True.intro
      | some h' =>
          have := keepsStatusThroughoutDecidable host h' ops
          infer_instance

/-!
## What an edit leaves open

Only the statuses of the slices matter here, so an edit is the list of
statuses before it followed by those of the slices it adds.
-/

def statuses (slices : List (PlanSlice Claim)) : List PlanSliceStatus :=
  slices.map (·.status)

def allResolved (l : List PlanSliceStatus) : Bool :=
  !l.isEmpty && l.all (·.isResolved)

theorem allSlicesResolved_statuses (slices : List (PlanSlice Claim)) :
    allSlicesResolved slices = allResolved (statuses slices) := by
  unfold allSlicesResolved allResolved statuses
  rw [List.all_map, List.isEmpty_map]
  rfl

theorem statuses_map
    {f : PlanSlice Claim -> PlanSlice Claim}
    (hf : forall s, (f s).status = s.status)
    (slices : List (PlanSlice Claim)) :
    statuses (slices.map f) = statuses slices := by
  unfold statuses
  rw [List.map_map]
  apply List.map_congr_left
  intro s _
  exact hf s

theorem allResolved_append_pending
    {l added : List PlanSliceStatus}
    (hadded : forall x, x ∈ added -> x = PlanSliceStatus.pending) :
    allResolved (l ++ added) = (allResolved l && added.isEmpty) := by
  cases added with
  | nil =>
      simp
  | cons x rest =>
      have hx := hadded x (List.mem_cons_self ..)
      rw [hx]
      simp [allResolved, PlanSliceStatus.isResolved]

theorem refreshedSlice_head (ns : SliceInput) (s : PlanSlice Claim) :
    (refreshedSlice ns s).status = s.status ∧
      (refreshedSlice ns s).id = s.id ∧
      (refreshedSlice ns s).title =
        if ns.title = "" then s.title else ns.title := by
  unfold refreshedSlice
  simp only
  generalize (if ns.title = "" then s.title else ns.title) = title
  split
  · exact ⟨rfl, rfl, rfl⟩
  · exact ⟨rfl, rfl, rfl⟩

theorem remountedSlice_status
    (remounts : List SetDependsOn) (s : PlanSlice Claim) :
    (remountedSlice remounts s).status = s.status := by
  unfold remountedSlice
  split
  · rfl
  split
  · rfl
  · rfl

theorem statuses_stampReplacedBy
    (marker : String) (supersededIds addedIds : List String)
    (slices : List (PlanSlice Claim)) :
    statuses (stampReplacedBy marker supersededIds addedIds slices) =
      statuses slices := by
  unfold stampReplacedBy
  split
  · rfl
  · apply statuses_map
    intro s
    split
    · rfl
    · rfl

/-- What is dropped counts as resolved. -/
theorem allResolved_dropped
    (drops : PlanSlice Claim -> Bool) (marker : String)
    (slices : List (PlanSlice Claim)) :
    allResolved
        (statuses
          (slices.map fun s => if drops s then supersede marker s else s)) =
      closes drops slices := by
  unfold allResolved statuses closes
  rw [List.all_map, List.isEmpty_map, List.isEmpty_map, List.all_map]
  congr 1
  apply List.all_congr rfl
  intro s
  cases hdrops : drops s with
  | true => simp [hdrops, supersede, invalidateSliceGeneration,
      PlanSliceStatus.isResolved]
  | false => simp [hdrops]

/-!
## Additions
-/

/-- The edit keeps the old statuses and adds open slices, some exactly if
`grows`. -/
def AddsPending (before after : List (PlanSlice Claim)) (grows : Bool) :
    Prop :=
  exists added, statuses after = statuses before ++ added ∧
    (forall x, x ∈ added -> x = PlanSliceStatus.pending) ∧
    added.isEmpty = !grows

theorem allSlicesResolved_of_adds
    {before after : List (PlanSlice Claim)} {grows : Bool}
    (h : AddsPending before after grows) :
    allSlicesResolved after = (allResolved (statuses before) && !grows) := by
  rcases h with ⟨added, hstatuses, hpending, hgrows⟩
  rw [allSlicesResolved_statuses, hstatuses,
    allResolved_append_pending hpending, hgrows]

theorem addsPending_append
    {before : List (PlanSlice Claim)} {grows : Bool} {id : String}
    {ns : SliceInput} {after : List (PlanSlice Claim)}
    (h : AddsPending (before ++ [initialSlice id ns]) after grows) :
    AddsPending before after true := by
  rcases h with ⟨added, hstatuses, hpending, _⟩
  refine ⟨PlanSliceStatus.pending :: added, ?_, ?_, rfl⟩
  · rw [hstatuses]
    simp [statuses, initialSlice]
  · intro x hx
    rcases List.mem_cons.mp hx with hx | hx
    · exact hx
    · exact hpending x hx

theorem deltaEntry_slices
    {host : Host} {edit edit' : TopologyEdit Claim} {ns : SliceInput}
    (h : deltaEntry host edit ns = Except.ok edit') :
    exists id, edit'.slices = edit.slices ++ [initialSlice id ns] := by
  unfold deltaEntry at h
  split at h
  · split at h
    · cases h
    · rcases except_bind_ok h with ⟨_, _, hrest⟩
      cases hrest
      exact ⟨_, rfl⟩
  · rcases except_bind_ok h with ⟨_, _, hrest⟩
    cases hrest
    exact ⟨_, rfl⟩

theorem deltaFold_adds
    {host : Host} {inputs : List SliceInput} {edit edit' : TopologyEdit Claim}
    (h : inputs.foldlM (deltaEntry host) edit = Except.ok edit') :
    AddsPending edit.slices edit'.slices (!inputs.isEmpty) := by
  induction inputs generalizing edit with
  | nil =>
      cases h
      refine ⟨[], (List.append_nil _).symm, ?_, rfl⟩
      intro x hx
      cases hx
  | cons ns rest ih =>
      rw [List.foldlM_cons] at h
      rcases except_bind_ok h with ⟨next, hnext, hrest⟩
      rcases deltaEntry_slices hnext with ⟨id, hid⟩
      have hadds := ih hrest
      rw [hid] at hadds
      exact addsPending_append hadds

/-- The live slices under edit, as a proposed slice may name them. -/
def liveHeads (slices : List (PlanSlice Claim)) : List (String × String) :=
  (slices.filter fun s =>
    decide (s.status ≠ PlanSliceStatus.superseded)).map
      fun s => (s.id, s.title)

theorem any_matchesLive
    (host : Host) (ns : SliceInput) (slices : List (PlanSlice Claim)) :
    slices.any (matchesLive host ns) =
      (liveHeads slices).any (namesLive host ns) := by
  unfold liveHeads
  rw [List.any_map, List.any_filter]
  rfl

theorem liveHeads_refreshed
    {ns : SliceInput} {id : String} (hid : Text.truthy ns.id = some id)
    (slices : List (PlanSlice Claim)) :
    liveHeads (replaceById slices id (refreshedSlice ns)) =
      (liveHeads slices).map (retitled ns) := by
  induction slices with
  | nil =>
      rfl
  | cons s rest ih =>
      unfold replaceById liveHeads at ih ⊢
      rw [List.map_cons, List.filter_cons, List.filter_cons]
      have hstatus : (if s.id = id then refreshedSlice ns s else s).status =
          s.status := by
        split
        · exact (refreshedSlice_head ns s).left
        · rfl
      rw [hstatus]
      split
      · rw [List.map_cons, ih, List.map_cons, List.map_cons]
        congr 1
        unfold retitled
        rw [hid]
        by_cases hsame : s.id = id
        · by_cases htitle : ns.title = ""
          · simp [hsame, htitle, refreshedSlice_head ns s]
          · simp [hsame, htitle, refreshedSlice_head ns s]
        · have hother : ¬ id = s.id := fun h => hsame h.symm
          simp [hsame, hother]
      · exact ih

theorem retitled_unnamed
    {ns : SliceInput} (hid : Text.truthy ns.id = none)
    (live : List (String × String)) :
    live.map (retitled ns) = live := by
  have hsame : retitled ns = id := by
    funext head
    simp [retitled, hid]
  rw [hsame, List.map_id]

theorem replanEntry_matched
    {host : Host} {edit edit' : TopologyEdit Claim} {ns : SliceInput}
    (hmatch : edit.slices.any (matchesLive host ns) = true)
    (h : replanEntry host edit ns = Except.ok edit') :
    statuses edit'.slices = statuses edit.slices ∧
      liveHeads edit'.slices = (liveHeads edit.slices).map (retitled ns) := by
  unfold replanEntry at h
  rw [if_pos hmatch] at h
  cases hid : Text.truthy ns.id with
  | none =>
      rw [hid] at h
      cases h
      exact ⟨rfl, (retitled_unnamed hid _).symm⟩
  | some id =>
      rw [hid] at h
      rcases except_bind_ok h with ⟨_, _, hrest⟩
      cases hrest
      constructor
      · apply statuses_map
        intro s
        split
        · exact (refreshedSlice_head ns s).left
        · rfl
      · exact liveHeads_refreshed hid edit.slices

theorem replanEntry_unmatched
    {host : Host} {edit edit' : TopologyEdit Claim} {ns : SliceInput}
    (hmatch : edit.slices.any (matchesLive host ns) = false)
    (h : replanEntry host edit ns = Except.ok edit') :
    exists id, edit'.slices = edit.slices ++ [initialSlice id ns] := by
  unfold replanEntry at h
  rw [if_neg (by rw [hmatch]; exact Bool.false_ne_true)] at h
  split at h
  · split at h
    · cases h
    · rcases except_bind_ok h with ⟨_, _, hrest⟩
      cases hrest
      exact ⟨_, rfl⟩
  · rcases except_bind_ok h with ⟨_, _, hrest⟩
    cases hrest
    exact ⟨_, rfl⟩

theorem replanFold_adds
    {host : Host} {inputs : List SliceInput} {edit edit' : TopologyEdit Claim}
    (h : inputs.foldlM (replanEntry host) edit = Except.ok edit') :
    exists grows, AddsPending edit.slices edit'.slices grows ∧
      grows = proposesNew host (liveHeads edit.slices) inputs := by
  induction inputs generalizing edit with
  | nil =>
      cases h
      refine ⟨false, ⟨[], (List.append_nil _).symm, ?_, rfl⟩, rfl⟩
      intro x hx
      cases hx
  | cons ns rest ih =>
      rw [List.foldlM_cons] at h
      rcases except_bind_ok h with ⟨next, hnext, hrest⟩
      rcases ih hrest with ⟨grows, hadds, hgrows⟩
      unfold proposesNew
      rw [<- any_matchesLive]
      cases hmatch : edit.slices.any (matchesLive host ns) with
      | true =>
          rcases replanEntry_matched hmatch hnext with ⟨hstatuses, hlive⟩
          refine ⟨grows, ?_, ?_⟩
          · unfold AddsPending at hadds ⊢
            rw [<- hstatuses]
            exact hadds
          · rw [hgrows, hlive]
            rfl
      | false =>
          rcases replanEntry_unmatched hmatch hnext with ⟨id, hid⟩
          rw [hid] at hadds
          exact ⟨true, addsPending_append hadds, rfl⟩

theorem liveHeads_dropped
    (drops : PlanSlice Claim -> Bool) (marker : String)
    (slices : List (PlanSlice Claim)) :
    liveHeads
        (slices.map fun s => if drops s then supersede marker s else s) =
      liveAfterDrop drops slices := by
  induction slices with
  | nil =>
      rfl
  | cons s rest ih =>
      unfold liveHeads liveAfterDrop at ih ⊢
      rw [List.map_cons, List.filter_cons, List.filter_cons]
      cases hdrops : drops s with
      | true =>
          simpa [supersede, invalidateSliceGeneration, hdrops] using ih
      | false =>
          simp only [Bool.not_false, Bool.and_true, Bool.false_eq_true,
            if_false]
          split
          · rw [List.map_cons, List.map_cons, ih]
          · exact ih

/-!
## One operation
-/

/-- The only statuses that a plan reaches. -/
def DraftOrComplete (plan : PlanArtifact Claim) : Prop :=
  plan.status = PageStatus.draft ∨ plan.status = PageStatus.complete

def StatusSays (plan : PlanArtifact Claim) : Prop :=
  plan.status = PageStatus.complete <-> allSlicesResolved plan.slices = true

theorem not_allSlicesResolved_of_open
    {plan : PlanArtifact Claim} (h : HasOpenSlice plan) :
    allSlicesResolved plan.slices = false := by
  rcases h with ⟨s, hs, hopen⟩
  cases hall : allSlicesResolved plan.slices with
  | false =>
      rfl
  | true =>
      have hboth := (Bool.and_eq_true_iff.mp hall).right
      have hresolved := List.all_eq_true.mp hboth s hs
      rw [hopen] at hresolved
      cases hresolved

theorem statusAgrees_iff
    {plan : PlanArtifact Claim} (hstatus : DraftOrComplete plan) :
    StatusAgrees plan <-> StatusSays plan := by
  constructor
  · intro h
    exact h.complete
  · intro h
    have hterminal : HasOpenSlice plan -> plan.status.isTerminal = false := by
      intro hopen
      rcases hstatus with hdraft | hcomplete
      · rw [hdraft]
        rfl
      · have hresolved := h.mp hcomplete
        rw [not_allSlicesResolved_of_open hopen] at hresolved
        cases hresolved
    constructor
    · exact h
    · intro hopen
      unfold activatePlanChecked
      simp [hterminal hopen, not_allSlicesResolved_of_open hopen]
    · intro hopen
      unfold resolveActivePlanView
      simp [hterminal hopen, not_allSlicesResolved_of_open hopen]

theorem updateSlice_status
    {host : Host} {plan next : PlanArtifact Claim} {slice_id : String}
    {to_ : PlanSliceStatus} {evidence : Option String}
    {options : Option UpdateSliceOptions} {updated : String}
    (h : updateSlice host plan slice_id to_ evidence options updated =
      Except.ok next) :
    next.status = nextPlanStatus plan.status next.slices := by
  rcases except_bind_ok h with ⟨_, _, h⟩
  rcases except_bind_ok h with ⟨_, _, h⟩
  rcases except_bind_ok h with ⟨_, _, h⟩
  cases h
  rfl

theorem nextPlanStatus_says
    {plan : PlanArtifact Claim} (slices : List (PlanSlice Claim))
    (hstatus : DraftOrComplete plan) :
    (nextPlanStatus plan.status slices = PageStatus.draft ∨
        nextPlanStatus plan.status slices = PageStatus.complete) ∧
      (nextPlanStatus plan.status slices = PageStatus.complete <->
        allSlicesResolved slices = true) := by
  unfold nextPlanStatus
  rcases hstatus with hdraft | hcomplete
  · rw [hdraft]
    cases allSlicesResolved slices with
    | true => simp
    | false => simp
  · rw [hcomplete]
    cases allSlicesResolved slices with
    | true => simp
    | false => simp

theorem replan_spec
    {host : Host} {plan next : PlanArtifact Claim}
    {newSlices : List SliceInput} {updated : String}
    (h : replan host plan newSlices updated = Except.ok next) :
    next.status = plan.status ∧
      allSlicesResolved next.slices =
        (closes (replanDrops host newSlices) plan.slices &&
          !proposesNew host
            (liveAfterDrop (replanDrops host newSlices) plan.slices)
            newSlices) := by
  rcases except_bind_ok h with ⟨_, _, h⟩
  rcases except_bind_ok h with ⟨_, _, h⟩
  rcases except_bind_ok h with ⟨edit, hedit, h⟩
  rcases except_bind_ok h with ⟨_, _, h⟩
  cases h
  refine ⟨rfl, ?_⟩
  rcases replanFold_adds hedit with ⟨grows, hadds, hgrows⟩
  rw [allSlicesResolved_statuses, statuses_stampReplacedBy,
    <- allSlicesResolved_statuses, allSlicesResolved_of_adds hadds,
    allResolved_dropped, hgrows, liveHeads_dropped]

theorem applySliceDelta_spec
    {host : Host} {plan next : PlanArtifact Claim} {delta : SliceDelta}
    {updated : String}
    (h : applySliceDelta host plan delta updated = Except.ok next) :
    next.status = plan.status ∧
      allSlicesResolved next.slices =
        (closes (deltaDrops (delta.drop_slice_ids.getD [])) plan.slices &&
          (delta.add_slices.getD []).isEmpty) := by
  rcases except_bind_ok h with ⟨_, _, h⟩
  rcases except_bind_ok h with ⟨_, _, h⟩
  rcases except_bind_ok h with ⟨edit, hedit, h⟩
  rcases except_bind_ok h with ⟨_, _, h⟩
  rcases except_bind_ok h with ⟨_, _, h⟩
  cases h
  refine ⟨rfl, ?_⟩
  rw [allSlicesResolved_statuses,
    statuses_map (remountedSlice_status _), statuses_stampReplacedBy,
    <- allSlicesResolved_statuses,
    allSlicesResolved_of_adds (deltaFold_adds hedit), allResolved_dropped,
    Bool.not_not]

theorem restorePlan_status
    {current snapshot next : PlanArtifact Claim}
    (h : restorePlan current snapshot = Except.ok next) :
    next.status = current.status ∧
      allSlicesResolved next.slices = allSlicesResolved snapshot.slices := by
  rcases except_bind_ok h with ⟨_, _, h⟩
  rcases except_bind_ok h with ⟨_, _, h⟩
  cases h
  refine ⟨rfl, ?_⟩
  rw [allSlicesResolved_statuses, allSlicesResolved_statuses]
  exact congrArg allResolved
    (statuses_map
      (f := fun slice => { slice with
        generation := some (generationFloor current snapshot)
        claim := none })
      (fun _ => rfl) snapshot.slices)

theorem planOp_statusSays
    {host : Host} {h : PlanHistory Claim} {op : PlanOp}
    {next : PlanArtifact Claim} (hstatus : DraftOrComplete h.current)
    (htold : StatusSays h.current) (happly : op.apply host h = Except.ok next) :
    DraftOrComplete next ∧ (StatusSays next <-> KeepsStatus host h op) := by
  cases op with
  | update slice_id to_ evidence options updated =>
      have hnext := updateSlice_status happly
      rcases nextPlanStatus_says next.slices hstatus with ⟨hdraft, hcomplete⟩
      rw [<- hnext] at hdraft hcomplete
      exact ⟨hdraft, ⟨fun _ => True.intro, fun _ => hcomplete⟩⟩
  | scar entry updated =>
      cases happly
      exact ⟨hstatus, ⟨fun _ => True.intro, fun _ => htold⟩⟩
  | replan newSlices updated =>
      rcases replan_spec happly with ⟨hsame, hresolved⟩
      unfold DraftOrComplete StatusSays KeepsStatus
      rw [hsame, hresolved]
      refine ⟨hstatus, ?_⟩
      rw [Bool.and_eq_true_iff, Bool.not_eq_true']
  | delta d updated =>
      rcases applySliceDelta_spec happly with ⟨hsame, hresolved⟩
      unfold DraftOrComplete StatusSays KeepsStatus
      rw [hsame, hresolved]
      refine ⟨hstatus, ?_⟩
      rw [Bool.and_eq_true_iff]
  | restore back =>
      simp only [PlanOp.apply] at happly
      cases hsnapshot : h.snapshot back with
      | none =>
          rw [hsnapshot] at happly
          cases happly
      | some snapshot =>
          rw [hsnapshot] at happly
          rcases restorePlan_status happly with ⟨hsame, hresolved⟩
          unfold DraftOrComplete StatusSays KeepsStatus
          rw [hsame, hresolved]
          refine ⟨hstatus, ?_⟩
          simp only [hsnapshot, Option.any_some]

/-!
## Whole runs
-/

theorem initialSlices_pending
    {host : Host} {used : List String} {inputs : List SliceInput}
    {s : PlanSlice Claim} (h : s ∈ initialSlices host used inputs) :
    s.status = PlanSliceStatus.pending := by
  induction inputs generalizing used with
  | nil =>
      cases h
  | cons ns rest ih =>
      rcases List.mem_cons.mp h with h | h
      · rw [h]
        rfl
      · exact ih h

theorem createPlan_statusSays
    {host : Host} {input : CreatePlanInput} {created updated : String}
    {plan : PlanArtifact Claim}
    (h : createPlan host input created updated = Except.ok plan) :
    DraftOrComplete plan ∧ StatusSays plan := by
  rcases except_bind_ok h with ⟨_, _, h⟩
  rcases except_bind_ok h with ⟨_, _, h⟩
  rcases except_bind_ok h with ⟨_, _, h⟩
  cases h
  refine ⟨Or.inl rfl, ?_⟩
  constructor
  · intro hcomplete
    cases hcomplete
  · intro hall
    have hboth := Bool.and_eq_true_iff.mp hall
    rcases List.exists_mem_of_ne_nil _
      (by simpa using hboth.left) with ⟨s, hs⟩
    have hresolved := List.all_eq_true.mp hboth.right s hs
    rw [initialSlices_pending hs] at hresolved
    cases hresolved

theorem agreesThroughout_head
    {host : Host} {ops : List PlanOp} {h : PlanHistory Claim}
    (hagrees : AgreesThroughout host h ops) :
    StatusAgrees h.current := by
  cases ops with
  | nil => exact hagrees
  | cons op ops => exact hagrees.left

theorem agreesThroughout_iff
    {host : Host} {ops : List PlanOp} {h : PlanHistory Claim}
    (hstatus : DraftOrComplete h.current) (htold : StatusSays h.current) :
    AgreesThroughout host h ops <-> KeepsStatusThroughout host h ops := by
  induction ops generalizing h with
  | nil =>
      exact ⟨fun _ => True.intro,
        fun _ => (statusAgrees_iff hstatus).mpr htold⟩
  | cons op ops ih =>
      have hhere := (statusAgrees_iff hstatus).mpr htold
      unfold AgreesThroughout KeepsStatusThroughout planNext
      cases happly : op.apply host h with
      | error text =>
          exact ⟨fun _ => True.intro, fun _ => ⟨hhere, True.intro⟩⟩
      | ok next =>
          rcases planOp_statusSays hstatus htold happly with ⟨hdraft, hiff⟩
          constructor
          · intro hagrees
            have htold' := (statusAgrees_iff hdraft).mp
              (agreesThroughout_head hagrees.right)
            exact ⟨hiff.mp htold',
              (@ih (h.push next) hdraft htold').mp hagrees.right⟩
          · intro hkeeps
            exact ⟨hhere,
              (@ih (h.push next) hdraft (hiff.mpr hkeeps.left)).mpr
                hkeeps.right⟩

/-- A run through which the law holds ends in a plan of which it holds. -/
theorem agreesThroughout_last
    {host : Host} {ops : List PlanOp} {h h' : PlanHistory Claim}
    (hagrees : AgreesThroughout host h ops)
    (hrun : TransitionSystem.exec (planNext host) h ops = some h') :
    StatusAgrees h'.current := by
  induction ops generalizing h with
  | nil =>
      cases hrun
      exact hagrees
  | cons op ops ih =>
      unfold TransitionSystem.exec at hrun
      have hrest := hagrees.right
      cases hnext : planNext host h op with
      | none =>
          rw [hnext] at hrun
          cases hrun
      | some next =>
          rw [hnext] at hrun hrest
          exact ih hrest hrun

end Law

/-- In a run from a created plan the status agrees with the slices throughout
exactly when each operation keeps it. -/
theorem planStatus_agrees_iff
    {Claim : Type} {host : Host} {input : CreatePlanInput}
    {created updated : String} {plan : PlanArtifact Claim}
    (ops : List PlanOp)
    (hcreate : createPlan host input created updated = Except.ok plan) :
    AgreesThroughout host (PlanHistory.start plan) ops <->
      KeepsStatusThroughout host (PlanHistory.start plan) ops := by
  rcases createPlan_statusSays hcreate with ⟨hstatus, htold⟩
  exact agreesThroughout_iff hstatus htold

def finishA : PlanOp :=
  PlanOp.update "a" PlanSliceStatus.done (some "tests/a.log passes") none
    "later"

def addB : PlanOp :=
  PlanOp.delta
    { add_slices := some [plainSlice "b" "B"]
      drop_slice_ids := none
      set_depends_on := none }
    "later"

/-- The slice is finished, the plan restored to its finished self, and the
slice reopened. -/
theorem planStatus_agrees_reopened :
    AgreesThroughout plainHost (PlanHistory.start plainPlan)
      [finishA, PlanOp.restore 0,
        PlanOp.update "a" PlanSliceStatus.in_progress none none "later",
        addB] :=
  (@planStatus_agrees_iff _ plainHost plainInput "now" "now" plainPlan _
    createPlan_plain).mpr (by decide +kernel)

/-- A complete plan that is given a slice stays complete. -/
theorem planStatus_disagrees :
    ¬ forall (host : Host) (input : CreatePlanInput) (created updated : String)
        (plan : ThreadPlan) (ops : List PlanOp),
        createPlan host input created updated = Except.ok plan ->
          AgreesThroughout host (PlanHistory.start plan) ops := by
  intro h
  have hagrees := h plainHost plainInput "now" "now" plainPlan [finishA, addB]
    createPlan_plain
  have hlast :
      (TransitionSystem.exec (planNext plainHost)
        (PlanHistory.start plainPlan) [finishA, addB]).any
          (fun h' => h'.current.status = PageStatus.complete &&
            !allSlicesResolved h'.current.slices) = true := by
    decide +kernel
  rcases (Option.any_eq_true _ _).mp hlast with ⟨h', hrun, hboth⟩
  have htold := (agreesThroughout_last hagrees hrun).complete
  simp at hboth
  rw [htold.mp hboth.left] at hboth
  cases hboth.right

end Thread
end Minni
