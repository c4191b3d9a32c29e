import Minni.Thread.Transitions

/-!
# Runs of a thread

A property of the vault that every allowed operation preserves is an invariant
of every run whose operations meet a condition.  The run may interleave any
calls, and each of them may fail or crash at any operation.
-/

namespace Minni
namespace Thread

open Foundation

/-- An invariant of the allowed operations under the condition. -/
structure Invariant (host : Host) (A : VaultOp -> Vault -> Prop)
    (P : Vault -> Prop) : Prop where
  step : forall o v, P v -> A o v -> Allowed host o v -> P (Vault.effect o v)
  reserve : forall v live, P v -> P { v with reserved := live }

variable {host : Host} {A : VaultOp -> Vault -> Prop} {P : Vault -> Prop}

theorem call_allowed
    (c : Call) (clock : Clock) (outcomes : List Outcome) (v : Vault) :
    (c.program host clock).Meets vaultInterface (Allowed host) outcomes v :=
  Program.guarded_meets (safe_call c clock) (Program.meets_true _ _ _)

theorem call_invariant
    (h : Invariant host A P) {c : Call} {clock : Clock}
    {outcomes : List Outcome} {v : Vault}
    (hmeets : (c.program host clock).Meets vaultInterface A outcomes v)
    (hv : P v) :
    P ((c.program host clock).run vaultInterface outcomes v).2 := by
  apply Program.run_preserves _ hmeets (call_allowed c clock outcomes v) hv
  intro o x s hs hA hallowed
  cases x with
  | done =>
      exact h.step o s hs hA hallowed
  | failed =>
      exact hs
  | landed =>
      exact h.step o s hs hA hallowed

theorem event_invariant
    (h : Invariant host A P) {event : Event} {v : Vault}
    (hmeets : RunMeets host A v [event]) (hv : P v) :
    P (event.run host v).2 := by
  cases event with
  | call c clock outcomes =>
      exact call_invariant h hmeets.1 hv
  | reserve live =>
      exact h.reserve v live hv

theorem run_invariant
    (h : Invariant host A P) {events : List Event} {v : Vault}
    (hmeets : RunMeets host A v events) (hv : P v) :
    P (runEvents host v events) := by
  induction events generalizing v with
  | nil =>
      exact hv
  | cons event rest ih =>
      exact ih hmeets.2 (event_invariant h ⟨hmeets.1, True.intro⟩ hv)

/-- What a call that returns has left behind. -/
theorem call_result
    {c : Call} {clock : Clock} {outcomes : List Outcome} {v : Vault}
    {result : CallResult}
    (h : ((c.program host clock).run vaultInterface outcomes v).1 =
      some (Except.ok result)) :
    CallPost v c result
      ((c.program host clock).run vaultInterface outcomes v).2 :=
  Program.guarded_result (safe_call c clock) (Program.meets_true _ _ _) h
    result rfl

/-!
## Runs in two parts
-/

theorem runEvents_append
    (v : Vault) (first second : List Event) :
    runEvents host v (first ++ second) =
      runEvents host (runEvents host v first) second := by
  unfold runEvents
  exact List.foldl_append

theorem runMeets_append
    {v : Vault} {first second : List Event} :
    RunMeets host A v (first ++ second) <->
      RunMeets host A v first ∧
        RunMeets host A (runEvents host v first) second := by
  induction first generalizing v with
  | nil =>
      exact ⟨fun h => ⟨True.intro, h⟩, fun h => h.2⟩
  | cons event rest ih =>
      constructor
      · intro h
        rcases ih.mp h.2 with ⟨hrest, hsecond⟩
        exact ⟨⟨h.1, hrest⟩, hsecond⟩
      · intro h
        exact ⟨h.1.1, ih.mpr ⟨h.1.2, h.2⟩⟩

instance decidableRunMeets (host : Host) {A : VaultOp -> Vault -> Prop}
    [forall o v, Decidable (A o v)] :
    (v : Vault) -> (events : List Event) -> Decidable (RunMeets host A v events)
  | _, [] => isTrue True.intro
  | v, Event.call c clock outcomes :: events =>
      have := decidableRunMeets host (A := A)
        ((Event.call c clock outcomes).run host v).2 events
      inferInstanceAs
        (Decidable
          ((c.program host clock).Meets vaultInterface A outcomes v ∧
            RunMeets host A ((Event.call c clock outcomes).run host v).2
              events))
  | v, Event.reserve live :: events =>
      have := decidableRunMeets host (A := A)
        ((Event.reserve live).run host v).2 events
      inferInstanceAs
        (Decidable
          (True ∧ RunMeets host A ((Event.reserve live).run host v).2 events))

/-!
## Invariants of the note and the revisions
-/

/-- Only the writing of a note changes the note or the revisions. -/
theorem invariant_of_notes
    {P : ThreadPlan -> List Landed -> Prop}
    (h : forall plan cause now v, P v.note v.landed ->
      A (VaultOp.writeNote plan cause now) v ->
      NoteStep host v plan now cause ->
      assertUniqueSliceIds plan.slices "persistPlan" = Except.ok () ->
      P plan
        ({ cause := cause, now := now, before := v.note, after := plan } ::
          v.landed)) :
    Invariant host A (fun v => P v.note v.landed) := by
  constructor
  · intro o v hv hA hallowed
    cases o with
    | writeNote plan cause now =>
        exact h plan cause now v hv hA hallowed.1 hallowed.2
    | _ =>
        exact hv
  · intro v live hv
    exact hv

/-!
## A plan and a host for runs on fixed inputs
-/

/-- Lower case for ASCII, and a text for its own hash. -/
def plainHost : Host :=
  { toLowerCase := String.map Char.toLower
    sha256Hex := fun text => text
    localeLe := fun a b => decide (a ≤ b)
    toISOString := fun ms => toString ms
    defaultAgentId := "orchestrator" }

def plainSlice (id title : String) : SliceInput :=
  { id := some id
    title := title
    gate := none
    depends_on := none
    evidence := none }

def plainInput : CreatePlanInput :=
  { goal := "goal"
    constraints := none
    slices := some [plainSlice "a" "A"]
    open_questions := none
    scar_tissue := none
    shelf_ref := none
    next_action := none }

def plainPlan : ThreadPlan :=
  { plan_id := "plan-goalnow"
    goal := "goal"
    status := PageStatus.draft
    constraints := []
    slices := [initialSlice "a" (plainSlice "a" "A")]
    open_questions := []
    scar_tissue := []
    next_action := "a: A"
    shelf_ref := none
    created := "now"
    updated := "now"
    rev := 1 }

theorem createPlan_plain :
    createPlan plainHost plainInput "now" "now" = Except.ok plainPlan := by
  decide +kernel

/-- A call whose operations are all done. -/
def doneAt (now : Nat) (c : Call) : Event :=
  Event.call c { now := now, wall := "later" }
    (List.replicate 60 Outcome.done)

def assignTo (workerAgentId sliceId : String) : Call :=
  Call.assign
    { sliceId := sliceId
      workerAgentId := workerAgentId
      actorAgentId := "orchestrator"
      assignmentProfile := none }

def claimBy (workerAgentId sliceId idempotencyKey : String) : Call :=
  Call.claim
    { sliceId := sliceId
      workerAgentId := workerAgentId
      idempotencyKey := idempotencyKey
      ttlSeconds := none }

def addSlice (id title : String) : Call :=
  Call.replan (ReplanInput.delta
    { add_slices := some [plainSlice id title]
      drop_slice_ids := none
      set_depends_on := none })

end Thread
end Minni
