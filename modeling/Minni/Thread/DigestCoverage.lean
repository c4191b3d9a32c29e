import Minni.Thread.Runs

/-!
# What the digest covers

Plans of one digest agree on everything that agents are shown, up to the order
of the slices: the digest sorts the slices, and the view lists them in the
order of the note.
-/

namespace Minni
namespace Thread

open Foundation

/-!
## The law
-/

/-- Whatever the revisions are, the views and the pointers are the same. -/
structure AgentSeesSame (p q : ThreadPlan) : Prop where
  view : { compactPlanView p with rev := 0 } =
    { compactPlanView q with rev := 0 }
  pointer : forall rev,
    compactPlanPointer p.plan_id rev (compactPlanView p) =
      compactPlanPointer q.plan_id rev (compactPlanView q)

/-- The slices that are pending or in progress stand in the same order, and the
first open slice is the same. -/
structure SameOpenOrder (p q : ThreadPlan) : Prop where
  unfinished :
    (p.slices.map sliceHead).filter (fun s => isPendingStatus s.status) =
      (q.slices.map sliceHead).filter (fun s => isPendingStatus s.status)
  first :
    ((p.slices.map sliceHead).find? fun s => isActiveStatus s.status).map
        (·.id) =
      ((q.slices.map sliceHead).find? fun s => isActiveStatus s.status).map
        (·.id)

/-- The size that a shelf states is a number that the host prints. -/
def ShelfNumberPrints (plan : ThreadPlan) : Prop :=
  forall shelf n, plan.shelf_ref = some shelf ->
    shelf.approx_tokens = some n -> Json.PrintableNumber n

variable {host : Host} {p q : ThreadPlan}

/-!
## The text of the payload is read back
-/

theorem printable_proposedSliceJson (s : SliceInput) :
    Json.Printable (proposedSliceJson s) := by
  apply Json.printable_object
  · simp
  · simp

theorem printable_proposalJson (proposal : StructuralProposal) :
    Json.Printable (proposalJson proposal) := by
  cases proposal with
  | expand reason slices =>
      apply Json.printable_object
      · simp
      · simp [Json.printable_arr_map slices printable_proposedSliceJson]
  | split reason slices =>
      apply Json.printable_object
      · simp
      · simp [Json.printable_arr_map slices printable_proposedSliceJson]
  | contract reason slice_ids =>
      apply Json.printable_object
      · simp
      · simp

theorem printable_claimRecord
    (host : Host) (planId : String) (claim : ThreadClaimRef) :
    Json.Printable (claimRecord host planId claim) := by
  apply Json.printable_object
  · simp
  · simp

theorem sliceRecordFields_keys
    (host : Host) (planId : String) (s : ThreadSlice) :
    ((sliceRecordFields host planId s).map Prod.fst).Nodup := by
  simp [sliceRecordFields]

theorem printable_sliceRecord
    (host : Host) (planId : String) (s : ThreadSlice) :
    Json.Printable (sliceRecord host planId s) := by
  apply Json.printable_object (sliceRecordFields_keys host planId s)
  have hsorted : forall xs, Json.Printable (sortedStrings xs) :=
    fun xs => Json.printable_strings _
  have hproposals : forall proposals : List StructuralProposal,
      Json.Printable (Json.arr (proposals.map proposalJson)) :=
    fun proposals => Json.printable_arr_map proposals printable_proposalJson
  simp [sliceRecordFields, hsorted, hproposals,
    printable_claimRecord host planId]

theorem scarRecordFields_keys (s : ScarTissueEntry) :
    ((scarRecordFields s).map Prod.fst).Nodup := by
  simp [scarRecordFields]

theorem printable_scarRecord (s : ScarTissueEntry) :
    Json.Printable (scarRecord s) := by
  apply Json.printable_object (scarRecordFields_keys s)
  simp [scarRecordFields]

theorem shelfRecordFields_keys (shelf : ShelfRef) :
    ((shelfRecordFields shelf).map Prod.fst).Nodup := by
  simp [shelfRecordFields]

theorem digestFields_keys (host : Host) (plan : ThreadPlan) :
    ((digestFields host plan).map Prod.fst).Nodup := by
  simp [digestFields]

theorem printable_digestPayload (hshelf : ShelfNumberPrints p) :
    Json.Printable (digestPayload host p) := by
  apply Json.printable_object (digestFields_keys host p)
  have hrecord : Json.PrintableOption (p.shelf_ref.map shelfRecord) := by
    intro v hv
    rcases Option.map_eq_some_iff.mp hv with ⟨shelf, hsome, rfl⟩
    apply Json.printable_object (shelfRecordFields_keys shelf)
    have htokens : Json.PrintableOption (shelf.approx_tokens.map Json.num) := by
      intro w hw
      rcases Option.map_eq_some_iff.mp hw with ⟨n, hn, rfl⟩
      exact hshelf shelf n hsome hn
    simp [shelfRecordFields, htokens]
  simp [digestFields, hrecord,
    Json.printable_arr_map _ printable_scarRecord,
    Json.printable_arr_map _ (printable_sliceRecord host p.plan_id)]

/-!
## What plans of one digest agree on
-/

def scarHead (s : ScarTissueEntry) : ScarKind × String :=
  (s.kind, s.signal)

/-- The fields of the payload that reach the view. -/
structure PayloadAgrees (host : Host) (p q : ThreadPlan) : Prop where
  goal : p.goal = q.goal
  next_action : p.next_action = q.next_action
  open_questions : p.open_questions = q.open_questions
  scars : p.scar_tissue.map scarHead = q.scar_tissue.map scarHead
  shelf : p.shelf_ref.map shelfText = q.shelf_ref.map shelfText
  slices : (slicesById host p.slices).map sliceHead =
    (slicesById host q.slices).map sliceHead

theorem sliceHead_of_record
    {planId planId' : String} {s t : ThreadSlice}
    (h : Json.sortKeys (sliceRecord host planId s) =
      Json.sortKeys (sliceRecord host planId' t)) :
    sliceHead s = sliceHead t := by
  have hfield := Json.object_field_eq h (sliceRecordFields_keys host planId s)
    (sliceRecordFields_keys host planId' t)
  have hid := hfield "id"
  have htitle := hfield "title"
  have hstatus := hfield "status"
  simp [sliceRecordFields, List.lookup_cons, Json.sortKeys] at hid htitle hstatus
  unfold sliceHead
  rw [hid, htitle, PlanSliceStatus.text_injective hstatus]

theorem scarHead_of_record
    {s t : ScarTissueEntry}
    (h : Json.sortKeys (scarRecord s) = Json.sortKeys (scarRecord t)) :
    scarHead s = scarHead t := by
  have hfield := Json.object_field_eq h (scarRecordFields_keys s)
    (scarRecordFields_keys t)
  have hkind := hfield "kind"
  have hsignal := hfield "signal"
  simp [scarRecordFields, List.lookup_cons, Json.sortKeys] at hkind hsignal
  unfold scarHead
  rw [ScarKind.text_injective hkind, hsignal]

theorem shelfText_of_record
    {s t : ShelfRef}
    (h : Json.sortKeys (shelfRecord s) = Json.sortKeys (shelfRecord t)) :
    shelfText s = shelfText t := by
  have hfield := Json.object_field_eq h (shelfRecordFields_keys s)
    (shelfRecordFields_keys t)
  have hagent := hfield "agent"
  have hwikilink := hfield "wikilink"
  have hhint := hfield "pull_hint"
  simp [shelfRecordFields, List.lookup_cons, Json.sortKeys] at hagent hwikilink hhint
  unfold shelfText
  rw [hagent, hwikilink, hhint]

theorem payloadAgrees_of_text
    (hp : ShelfNumberPrints p) (hq : ShelfNumberPrints q)
    (h : digestText host p = digestText host q) :
    PayloadAgrees host p q := by
  have hsorted := Json.stableStringify_injective (printable_digestPayload hp)
    (printable_digestPayload hq) h
  have hfield := Json.object_field_eq hsorted (digestFields_keys host p)
    (digestFields_keys host q)
  constructor
  · have hgoal := hfield "goal"
    simpa [digestFields, List.lookup_cons, Json.sortKeys] using hgoal
  · have hnext := hfield "next_action"
    simpa [digestFields, List.lookup_cons, Json.sortKeys] using hnext
  · have hquestions := hfield "open_questions"
    simp only [digestFields, List.lookup_cons] at hquestions
    exact Json.strings_injective (Option.some.inj hquestions)
  · have hscars := hfield "scar_tissue"
    simp only [digestFields, List.lookup_cons] at hscars
    exact Json.arr_map_eq (fun _ _ => scarHead_of_record)
      (Option.some.inj hscars)
  · have hshelf := hfield "shelf_ref"
    simp only [digestFields, List.lookup_cons] at hshelf
    cases hp' : p.shelf_ref with
    | none =>
        cases hq' : q.shelf_ref with
        | none => rfl
        | some t =>
            rw [hp', hq'] at hshelf
            cases hshelf
    | some s =>
        cases hq' : q.shelf_ref with
        | none =>
            rw [hp', hq'] at hshelf
            cases hshelf
        | some t =>
            rw [hp', hq'] at hshelf
            exact congrArg some
              (shelfText_of_record (Option.some.inj hshelf))
  · have hslices := hfield "slices"
    simp only [digestFields, List.lookup_cons] at hslices
    have harr := Option.some.inj hslices
    exact Json.arr_map_eq (fun _ _ => sliceHead_of_record) harr

/-!
## The view as a function of what the payload has
-/

/-- The heads of the slices, in the order of the note. -/
def heads (plan : ThreadPlan) : List PendingSlice :=
  plan.slices.map sliceHead

theorem heads_perm (h : PayloadAgrees host p q) :
    (heads p).Perm (heads q) := by
  have hp := (List.perm_insertionSort
    (fun a b : ThreadSlice => host.localeLe a.id b.id) p.slices).map sliceHead
  have hq := (List.perm_insertionSort
    (fun a b : ThreadSlice => host.localeLe a.id b.id) q.slices).map sliceHead
  have hsame := h.slices
  unfold slicesById at hsame
  rw [hsame] at hp
  exact hp.symm.trans hq

theorem resolved_heads (slices : List ThreadSlice) :
    (slices.filter fun s => s.status.isResolved).length =
      ((slices.map sliceHead).filter fun s => s.status.isResolved).length := by
  rw [List.filter_map, List.length_map]
  rfl

theorem pending_heads (slices : List ThreadSlice) :
    (slices.filter fun s => isPendingStatus s.status).map sliceHead =
      (slices.map sliceHead).filter fun s => isPendingStatus s.status := by
  rw [List.filter_map]
  rfl

theorem active_heads (slices : List ThreadSlice) :
    activeSliceId slices =
      ((slices.map sliceHead).find? fun s => isActiveStatus s.status).map
        (·.id) := by
  rw [List.find?_map, Option.map_map]
  rfl

theorem planProgress_eq (h : PayloadAgrees host p q) :
    planProgress p.slices = planProgress q.slices := by
  have hperm := heads_perm h
  have htotal : p.slices.length = q.slices.length := by
    have hlength := hperm.length_eq
    unfold heads at hlength
    rw [List.length_map, List.length_map] at hlength
    exact hlength
  have hdone : (p.slices.filter fun s => s.status.isResolved).length =
      (q.slices.filter fun s => s.status.isResolved).length := by
    rw [resolved_heads, resolved_heads]
    exact (hperm.filter _).length_eq
  unfold planProgress
  rw [htotal, hdone]

theorem scarTexts_eq (h : PayloadAgrees host p q) :
    (lastThree p.scar_tissue).map scarText =
      (lastThree q.scar_tissue).map scarText := by
  have htext : forall scars : List ScarTissueEntry,
      (lastThree scars).map scarText =
        (lastThree (scars.map scarHead)).map
          fun head => head.1.text ++ ": " ++ head.2 := by
    intro scars
    unfold lastThree
    rw [<- List.map_drop, List.map_map, List.length_map]
    rfl
  rw [htext, htext, h.scars]

/-- Some slice is open in both plans or in neither. -/
theorem active_isSome_iff (h : PayloadAgrees host p q) :
    (activeSliceId p.slices).isSome = true <->
      (activeSliceId q.slices).isSome = true := by
  have hperm := heads_perm h
  rw [active_heads, active_heads, Option.isSome_map, Option.isSome_map,
    List.find?_isSome, List.find?_isSome]
  constructor
  · intro hactive
    rcases hactive with ⟨s, hs, hopen⟩
    exact ⟨s, hperm.mem_iff.mp hs, hopen⟩
  · intro hactive
    rcases hactive with ⟨s, hs, hopen⟩
    exact ⟨s, hperm.mem_iff.mpr hs, hopen⟩

theorem not_active_of_resolved
    {status : PlanSliceStatus} (h : status.isResolved = true) :
    isActiveStatus status = false := by
  cases status with
  | done => rfl
  | superseded => rfl
  | _ => cases h

theorem not_active_of_complete
    {slices : List ThreadSlice}
    (h : (planProgress slices).complete = true) :
    activeSliceId slices = none := by
  have hresolved : forall s, s ∈ slices -> s.status.isResolved = true := by
    have hboth := Bool.and_eq_true_iff.mp h
    have hzero := of_decide_eq_true hboth.right
    have hle : (slices.filter fun s => s.status.isResolved).length ≤
        slices.length := List.length_filter_le _ _
    have hall : (slices.filter fun s => s.status.isResolved).length =
        slices.length := by omega
    exact List.length_filter_eq_length_iff.mp hall
  unfold activeSliceId
  rw [Option.map_eq_none_iff, List.find?_eq_none]
  intro s hs hactive
  rw [not_active_of_resolved (hresolved s hs)] at hactive
  cases hactive

theorem planHeadline_injective
    {progress : PlanProgress} {a b : String}
    (hopen : progress.complete = false)
    (h : planHeadline progress a = planHeadline progress b) :
    a = b := by
  unfold planHeadline at h
  rw [hopen] at h
  simpa only [Bool.false_eq_true, if_false, String.append_left_inj,
    String.append_right_inj] using h

theorem active_eq_of_headline
    (h : PayloadAgrees host p q)
    (hheadline :
      planHeadline (planProgress p.slices)
          ((activeSliceId p.slices).getD p.next_action) =
        planHeadline (planProgress q.slices)
          ((activeSliceId q.slices).getD q.next_action)) :
    activeSliceId p.slices = activeSliceId q.slices := by
  have hprogress := planProgress_eq h
  cases hcomplete : (planProgress p.slices).complete with
  | true =>
      rw [not_active_of_complete hcomplete]
      rw [hprogress] at hcomplete
      rw [not_active_of_complete hcomplete]
  | false =>
      rw [<- hprogress] at hheadline
      have hnext := planHeadline_injective hcomplete hheadline
      have hboth := active_isSome_iff h
      cases hp : activeSliceId p.slices with
      | none =>
          cases hq : activeSliceId q.slices with
          | none => rfl
          | some b =>
              rw [hp, hq] at hboth
              cases hboth.mpr rfl
      | some a =>
          cases hq : activeSliceId q.slices with
          | none =>
              rw [hp, hq] at hboth
              cases hboth.mp rfl
          | some b =>
              rw [hp, hq] at hnext
              exact congrArg some hnext

/-!
## Coverage
-/

theorem view_eq_of_order
    (h : PayloadAgrees host p q) (horder : SameOpenOrder p q) :
    { compactPlanView p with rev := 0 } =
      { compactPlanView q with rev := 0 } := by
  have hactive : activeSliceId p.slices = activeSliceId q.slices := by
    rw [active_heads, active_heads]
    exact horder.first
  have hpending := horder.unfinished
  have hcount : p.scar_tissue.length = q.scar_tissue.length := by
    have hlength := congrArg List.length h.scars
    rw [List.length_map, List.length_map] at hlength
    exact hlength
  simp only [compactPlanView, planProgress_eq h, hactive, h.goal,
    h.next_action, h.open_questions, scarTexts_eq h, h.shelf, hcount,
    pending_heads, hpending]

theorem pointer_eq_of_view
    (hid : p.plan_id = q.plan_id)
    (h : { compactPlanView p with rev := 0 } =
      { compactPlanView q with rev := 0 }) (rev : Nat) :
    compactPlanPointer p.plan_id rev (compactPlanView p) =
      compactPlanPointer q.plan_id rev (compactPlanView q) := by
  have hpointer :=
    congrArg (fun view => compactPlanPointer p.plan_id rev view) h
  rw [hid] at hpointer
  rw [hid]
  exact hpointer

/-- Plans of one identifier and one digest text are shown alike exactly when
their open slices stand in the same order. -/
theorem digest_covers_iff
    (host : Host) (p q : ThreadPlan) (hid : p.plan_id = q.plan_id)
    (hp : ShelfNumberPrints p) (hq : ShelfNumberPrints q)
    (h : digestText host p = digestText host q) :
    AgentSeesSame p q <-> SameOpenOrder p q := by
  have hagrees := payloadAgrees_of_text hp hq h
  constructor
  · intro hsees
    constructor
    · have hpending := congrArg CompactPlanView.pending hsees.view
      simp only [compactPlanView, pending_heads] at hpending
      exact hpending
    · have hheadline := congrArg CompactPlanView.headline hsees.view
      have hactive := active_eq_of_headline hagrees hheadline
      rw [active_heads, active_heads] at hactive
      exact hactive
  · intro horder
    have hview := view_eq_of_order hagrees horder
    exact ⟨hview, pointer_eq_of_view hid hview⟩

/-!
## Reordered slices
-/

def twoSlices (first second : SliceInput) : ThreadPlan :=
  { plainPlan with
    slices := [initialSlice (first.id.getD "") first,
      initialSlice (second.id.getD "") second] }

def planAB : ThreadPlan :=
  twoSlices (plainSlice "a" "A") (plainSlice "b" "B")

def planBA : ThreadPlan :=
  twoSlices (plainSlice "b" "B") (plainSlice "a" "A")

/-- A plan with a finished slice in front, and one with it behind. -/
def finishedFirst : ThreadPlan :=
  { planAB with
    slices := planAB.slices.map fun s =>
      if s.id = "a" then { s with status := PlanSliceStatus.done } else s }

def finishedLast : ThreadPlan :=
  { finishedFirst with slices := finishedFirst.slices.reverse }

theorem digest_covers_finished :
    AgentSeesSame finishedFirst finishedLast :=
  (digest_covers_iff plainHost finishedFirst finishedLast rfl
    (by intro shelf n h; cases h) (by intro shelf n h; cases h)
    (by decide +kernel)).mpr
    ⟨by decide +kernel, by decide +kernel⟩

/-- The slices of a note change places: the digest stays, and the headline
sends the agent to another slice. -/
theorem digest_misses_order :
    ¬ forall (host : Host) (p q : ThreadPlan), p.plan_id = q.plan_id ->
        ShelfNumberPrints p -> ShelfNumberPrints q ->
        digestText host p = digestText host q -> AgentSeesSame p q := by
  intro h
  have hsees := h plainHost planAB planBA rfl
    (by intro shelf n hshelf; cases hshelf)
    (by intro shelf n hshelf; cases hshelf)
    (by decide +kernel)
  exact absurd hsees.view (by decide +kernel)

end Thread
end Minni
