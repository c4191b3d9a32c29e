import Minni.Thread.Runs

/-!
# Who refuses a completion for want of a start

Two errors refuse a completion that has not been started.  Only the start gate
throws them: no other part of a worker's update does.
-/

namespace Minni
namespace Thread

open Foundation

def isStartRefusal (e : ThreadError) : Bool :=
  decide (e = startMustApply) || decide (e = completeWithoutStart)

abbrev NoRefusal (e : ThreadError) : Prop :=
  isStartRefusal e = false

/-- A computation whose failures all have the property. -/
def Fails {ε α : Type} (E : ε -> Prop) (result : Except ε α) : Prop :=
  forall e, result = Except.error e -> E e

/-- The program never throws one of the two errors. -/
def Quiet {α : Type} (p : Act α) : Prop :=
  forall v, Program.Guarded vaultInterface (fun _ _ => True)
    (fun _ _ => True) p (fun r _ => Fails NoRefusal r) v

abbrev QuietResult {α : Type} (result : Except String α) : Prop :=
  Fails (fun text => NoRefusal (ThreadError.message text)) result

/-- Neither of the two refusals begins like this text. -/
def BeginsOtherwise (text : String) : Prop :=
  2 ≤ text.toList.length ∧ text.toList.take 2 ≠ "st".toList ∧
    text.toList.take 2 ≠ "co".toList

theorem beginsOtherwise_append
    {head : String} (rest : String) (h : BeginsOtherwise head) :
    BeginsOtherwise (head ++ rest) := by
  rcases h with ⟨hlength, hstart, hcomplete⟩
  have htake : (head ++ rest).toList.take 2 = head.toList.take 2 := by
    rw [String.toList_append, List.take_append_of_le_length hlength]
  refine ⟨?_, ?_, ?_⟩
  · rw [String.toList_append, List.length_append]
    omega
  · rw [htake]
    exact hstart
  · rw [htake]
    exact hcomplete

theorem beginsOtherwise_ofList
    {a b : Char} {rest : List Char}
    (hstart : [a, b] ≠ ['s', 't']) (hcomplete : [a, b] ≠ ['c', 'o']) :
    BeginsOtherwise (String.ofList (a :: b :: rest)) := by
  refine ⟨?_, ?_, ?_⟩
  · rw [String.toList_ofList]
    exact Nat.le_add_left 2 rest.length
  · rw [String.toList_ofList]
    exact hstart
  · rw [String.toList_ofList]
    exact hcomplete

theorem noRefusal_message
    {text : String} (h : BeginsOtherwise text) :
    NoRefusal (ThreadError.message text) := by
  rcases h with ⟨_, hst, hco⟩
  have hstart : ¬ text = "start must apply before complete" := by
    rintro rfl
    exact hst (congrArg (List.take 2) String.toList_ofList)
  have hcomplete : ¬ text = "complete cannot persist done without start" := by
    rintro rfl
    exact hco (congrArg (List.take 2) String.toList_ofList)
  simp [NoRefusal, isStartRefusal, startMustApply, completeWithoutStart,
    hstart, hcomplete]

variable {ε α β : Type} {E : ε -> Prop}

/-!
## Failures of pure operations
-/

theorem fails_ok (a : α) : Fails E (Except.ok a) := by
  intro e h
  cases h

theorem fails_error {e : ε} (h : E e) :
    Fails E (Except.error e : Except ε α) := by
  intro other hother
  cases hother
  exact h

theorem fails_bind
    {x : Except ε α} {f : α -> Except ε β}
    (h : Fails E x) (hf : forall a, Fails E (f a)) :
    Fails E (x >>= f) := by
  cases x with
  | ok a =>
      exact hf a
  | error e =>
      exact fails_error (h e rfl)

theorem fails_mapM
    {f : α -> Except ε β} {items : List α} (hf : forall a, Fails E (f a)) :
    Fails E (items.mapM f) := by
  induction items with
  | nil =>
      exact fails_ok _
  | cons item rest ih =>
      rw [List.mapM_cons]
      exact fails_bind (hf item) fun _ => fails_bind ih fun _ => fails_ok _

theorem fails_ensure
    {condition : Bool} {text : String}
    (h : NoRefusal (ThreadError.message text)) :
    QuietResult (ensure condition text) := by
  unfold ensure
  split
  · exact fails_ok _
  · exact fails_error h

/-!
## Worker actions
-/

theorem quiet_assertUniqueSliceIds
    (slices : List ThreadSlice) {context : String}
    (h : forall id,
      NoRefusal (ThreadError.message
        (context ++ ": duplicate slice id \"" ++ id ++ "\""))) :
    QuietResult (assertUniqueSliceIds slices context) := by
  unfold assertUniqueSliceIds
  split
  · exact fails_error (h _)
  · exact fails_ok _

theorem quiet_assertTransition
    (host : Host) (plan : ThreadPlan) (sliceId : String)
    (to_ : PlanSliceStatus) (evidence : Option String)
    (options : Option UpdateSliceOptions) :
    QuietResult
      (assertTransition host plan sliceId to_ evidence options) := by
  have hevidence : NoRefusal (ThreadError.message "updateSlice: substantive evidence is required before a slice may become \"done\" (e.g. refer to a file, command output, test ID, etc.)") :=
    noRefusal_message (by
      with_reducible exact beginsOtherwise_ofList (by decide) (by decide))
  unfold assertTransition
  split
  · split
    · exact fails_error hevidence
    · split
      · exact fails_error hevidence
      · simp only
        split
        · exact fails_ok _
        · split
          · split
            · apply fails_error
              apply noRefusal_message
              with_reducible
                repeat apply beginsOtherwise_append
                exact beginsOtherwise_ofList (by decide) (by decide)
            · exact fails_ok _
          · apply fails_error
            apply noRefusal_message
            with_reducible
              repeat apply beginsOtherwise_append
              exact beginsOtherwise_ofList (by decide) (by decide)
  · split
    · exact fails_error (by decide)
    · exact fails_ok _
  · exact fails_ok _

theorem quiet_updateSlice
    (host : Host) (plan : ThreadPlan) (sliceId : String)
    (to_ : PlanSliceStatus) (evidence : Option String)
    (options : Option UpdateSliceOptions) (wall : String) :
    QuietResult
      (updateSlice host plan sliceId to_ evidence options wall) := by
  apply fails_bind
  · apply quiet_assertUniqueSliceIds
    intro id
    apply noRefusal_message
    with_reducible
      repeat apply beginsOtherwise_append
      exact beginsOtherwise_ofList (by decide) (by decide)
  · intro _
    apply fails_bind
    · apply fails_ensure
      apply noRefusal_message
      with_reducible
        repeat apply beginsOtherwise_append
        exact beginsOtherwise_ofList (by decide) (by decide)
    · intro _
      exact fails_bind (quiet_assertTransition _ _ _ _ _ _)
        fun _ => fails_ok _

theorem quiet_requireEvidence (value label : String) :
    QuietResult (requireEvidence value label) := by
  unfold requireEvidence
  split
  · apply fails_error
    apply noRefusal_message
    with_reducible
      repeat apply beginsOtherwise_append
      exact beginsOtherwise_ofList (by decide) (by decide)
  · exact fails_ok _

theorem quiet_copyProposalSlice (candidate : SliceInput) :
    QuietResult (copyProposalSlice candidate) :=
  fails_bind (fails_ensure (by decide)) fun _ =>
    fails_bind (fails_ensure (by decide)) fun _ => fails_ok _

theorem quiet_copyProposal (proposal : StructuralProposal) :
    QuietResult (copyProposal proposal) := by
  cases proposal with
  | contract reason slice_ids =>
      exact fails_bind (quiet_requireEvidence _ _) fun _ =>
        fails_bind (fails_ensure (by decide)) fun _ => fails_ok _
  | expand reason slices =>
      exact fails_bind (quiet_requireEvidence _ _) fun _ =>
        fails_bind (fails_mapM quiet_copyProposalSlice) fun _ => fails_ok _
  | split reason slices =>
      exact fails_bind (quiet_requireEvidence _ _) fun _ =>
        fails_bind (fails_mapM quiet_copyProposalSlice) fun _ => fails_ok _

theorem quiet_applyWorkerAction
    (host : Host) (plan : ThreadPlan) (sliceId wall : String)
    (action : WorkerUpdateAction) :
    QuietResult (applyWorkerAction host plan sliceId wall action) := by
  cases action with
  | start =>
      exact fails_bind (quiet_updateSlice _ _ _ _ _ _ _) fun _ => fails_ok _
  | progress evidence =>
      exact fails_bind (quiet_requireEvidence _ _) fun _ =>
        fails_bind (quiet_updateSlice _ _ _ _ _ _ _) fun _ => fails_ok _
  | block evidence =>
      exact fails_bind (quiet_requireEvidence _ _) fun _ =>
        fails_bind (quiet_updateSlice _ _ _ _ _ _ _) fun _ => fails_ok _
  | scar kind signal resolution =>
      exact fails_bind (quiet_requireEvidence _ _) fun _ => fails_ok _
  | propose_structure proposal =>
      exact fails_bind (quiet_copyProposal _) fun _ => fails_ok _
  | complete evidence =>
      exact fails_bind (quiet_requireEvidence _ _) fun _ =>
        fails_bind (quiet_updateSlice _ _ _ _ _ _ _) fun _ => fails_ok _

/-!
## Rules for programs
-/

theorem quiet_pure (a : α) : Quiet (pure a : Act α) :=
  fun _ => fails_ok a

theorem quiet_throw {e : ThreadError} (h : NoRefusal e) :
    Quiet (Act.throw e : Act α) :=
  fun _ => fails_error h

theorem quiet_bind
    {p : Act α} {f : α -> Act β}
    (h : Quiet p) (hf : forall a, Quiet (f a)) : Quiet (p >>= f) := by
  intro v
  refine Program.guarded_seq (h v) ?_ ?_
  · intro a s _
    exact hf a s
  · intro e s he
    exact fails_error (he e rfl)

theorem quiet_tryCatch
    {p : Act α} {handle : ThreadError -> Act α}
    (h : Quiet p) (hhandle : forall e, NoRefusal e -> Quiet (handle e)) :
    Quiet (p.tryCatch handle) := by
  intro v
  refine Program.guarded_tryCatch (h v) ?_ ?_
  · intro a s _
    exact fails_ok a
  · intro e s he
    exact hhandle e (he e rfl) s

theorem quiet_perform (o : VaultOp) :
    Quiet (Program.perform o : Act (VaultReply o)) := by
  intro v _
  refine ⟨True.intro, ?_⟩
  intro x
  cases x with
  | done =>
      exact fails_ok _
  | failed =>
      exact fails_error (by decide)
  | landed =>
      exact fails_error (by decide)

theorem quiet_require
    (condition : Bool) {e : ThreadError} (h : NoRefusal e) :
    Quiet (Program.require condition e) := by
  intro v
  exact Program.guarded_require (fun _ => fails_ok ()) fun _ => fails_error h

theorem quiet_ofOption
    (value : Option α) {e : ThreadError} (h : NoRefusal e) :
    Quiet (Program.ofOption value e) := by
  intro v
  exact Program.guarded_ofOption (fun a _ => fails_ok a)
    fun _ => fails_error h

theorem quiet_forEach
    {items : List α} {body : α -> Act Unit} (h : forall item, Quiet (body item)) :
    Quiet (Program.forEach items body) := by
  induction items with
  | nil =>
      exact quiet_pure ()
  | cons item rest ih =>
      exact quiet_bind (h item) fun _ => ih

theorem quiet_ofExcept
    {result : Except String α} (h : QuietResult result) :
    Quiet (Act.ofExcept result) := by
  intro v
  cases hresult : result with
  | ok a =>
      exact fails_ok a
  | error text =>
      exact fails_error (h text hresult)

theorem quiet_bestEffort {act : Act Unit} (h : Quiet act) :
    Quiet (Act.bestEffort act) :=
  quiet_tryCatch h fun _ _ => quiet_pure ()

theorem quiet_if
    {condition : Prop} [Decidable condition] {p q : Act α}
    (hp : Quiet p) (hq : Quiet q) : Quiet (if condition then p else q) := by
  split
  · exact hp
  · exact hq

/-!
## The journal
-/

theorem quiet_assertOperationIdentity
    (event : OrderedThreadEvent) (actor : String) (spec : EventSpec) :
    Fails NoRefusal (assertOperationIdentity event actor spec) := by
  unfold assertOperationIdentity
  split
  · exact fails_ok _
  · apply fails_error
    rfl

theorem quiet_assertExistingEvents
    (ordered : List OrderedThreadEvent) (batch : EventBatch)
    (specs : List EventSpec) :
    Fails NoRefusal (assertExistingEvents ordered batch specs) := by
  induction specs with
  | nil =>
      exact fails_ok _
  | cons spec rest ih =>
      unfold assertExistingEvents
      split
      · exact fails_error (by decide)
      · exact fails_bind (quiet_assertOperationIdentity _ _ _) fun _ => ih

theorem quiet_materializeBatchEvents
    (host : Host) (planId : String) (batch : EventBatch)
    (ordered : List OrderedThreadEvent) (seq : Nat) (specs : List EventSpec) :
    Fails NoRefusal
      (materializeBatchEvents host planId batch ordered seq specs) := by
  induction specs generalizing ordered seq with
  | nil =>
      exact fails_ok _
  | cons spec rest ih =>
      unfold materializeBatchEvents
      split
      · exact fails_bind (quiet_assertOperationIdentity _ _ _) fun _ =>
          fails_bind (ih _ _) fun _ => fails_ok _
      · exact fails_bind (ih _ _) fun _ => fails_ok _

/-- The error that an append attempt hands on is none of the two. -/
theorem quiet_appendOrderedEventAttempt
    (host : Host) (planId : String) (batch : EventBatch)
    (ordered : List OrderedThreadEvent) (v : Vault) :
    Program.Guarded vaultInterface (fun _ _ => True) (fun _ _ => True)
      (appendOrderedEventAttempt host planId batch ordered)
      (fun r _ => Fails NoRefusal r ∧ forall attempt, r = Except.ok attempt ->
        forall e, attempt.2 = some e -> NoRefusal e) v := by
  have hsome : forall (snapshot : List OrderedThreadEvent) (e : ThreadError),
      NoRefusal e ->
      Fails NoRefusal (Except.ok (snapshot, some e)) ∧
        forall attempt : List OrderedThreadEvent × Option ThreadError,
          Except.ok (snapshot, some e) =
            (Except.ok attempt : Except ThreadError _) ->
          forall e', attempt.2 = some e' -> NoRefusal e' := by
    intro snapshot e he
    refine ⟨fails_ok _, ?_⟩
    rintro attempt hattempt e' he'
    cases hattempt
    cases he'
    exact he
  have hnone : forall snapshot : List OrderedThreadEvent,
      Fails NoRefusal (Except.ok (snapshot, (none : Option ThreadError))) ∧
        forall attempt : List OrderedThreadEvent × Option ThreadError,
          Except.ok (snapshot, none) =
            (Except.ok attempt : Except ThreadError _) ->
          forall e', attempt.2 = some e' -> NoRefusal e' := by
    intro snapshot
    refine ⟨fails_ok _, ?_⟩
    rintro attempt hattempt e' he'
    cases hattempt
    cases he'
  unfold appendOrderedEventAttempt
  split
  · split
    · rename_i e he
      exact hsome _ _ (quiet_assertExistingEvents _ _ _ e he)
    · exact hnone _
  · split
    · rename_i e he
      exact hsome _ _ (quiet_materializeBatchEvents _ _ _ _ _ _ e he)
    · refine Program.guarded_tryCatch
        (P := fun r _ => Fails NoRefusal r ∧
          forall a, r = Except.ok a -> a.2 = none) ?_ ?_ ?_
      · refine Program.guarded_seq (quiet_perform _ v) ?_ ?_
        · intro _ s _
          refine ⟨fails_ok _, ?_⟩
          intro a ha
          cases ha
          rfl
        · intro e s he
          refine ⟨fails_error (he e rfl), ?_⟩
          intro a ha
          cases ha
      · rintro ⟨snapshot, e⟩ s ⟨_, ha⟩
        have hnoneE : e = none := ha _ rfl
        rw [hnoneE]
        exact hnone _
      · rintro e s ⟨he, _⟩
        have hquiet : NoRefusal e := he e rfl
        refine Program.guarded_tryCatch
          (P := fun r _ => forall a, r = Except.ok a -> a.2 = some e) ?_ ?_ ?_
        · refine Program.guarded_seq (quiet_perform _ s) ?_ ?_
          · intro disk s' _ a ha
            cases ha
            rfl
          · intro e' s' _ a ha
            cases ha
        · rintro ⟨snapshot, e'⟩ s' ha
          have hsame : e' = some e := ha _ rfl
          rw [hsame]
          exact hsome _ e hquiet
        · intro e' s' _
          exact hsome _ e hquiet

theorem quiet_appendOrderedEventBatch
    (host : Host) (planId : String) (batch : EventBatch)
    (ordered : List OrderedThreadEvent) :
    Quiet (appendOrderedEventBatch host planId batch ordered) := by
  intro v
  refine Program.guarded_seq
    (quiet_appendOrderedEventAttempt host planId batch ordered v) ?_ ?_
  · rintro ⟨snapshot, e⟩ s ⟨_, hattempt⟩
    cases e with
    | none =>
        exact fails_ok _
    | some e =>
        exact fails_error (hattempt _ rfl e rfl)
  · rintro e s ⟨he, _⟩
    exact fails_error (he e rfl)

theorem quiet_prepareThreadMutation
    (host : Host) (actor : String) (plan : ThreadPlan) (now : Nat) :
    Quiet (prepareThreadMutation host actor plan now) := by
  refine quiet_bind (quiet_perform _) fun ordered => quiet_bind ?_ fun _ => ?_
  · unfold reconcileThreadJournal
    refine quiet_if (quiet_pure _) (quiet_if (quiet_throw ?_)
      (quiet_if (quiet_pure _) (quiet_if (quiet_pure _)
        (quiet_appendOrderedEventBatch _ _ _ _))))
    rfl
  · exact quiet_if (quiet_appendOrderedEventBatch _ _ _ _) (quiet_pure _)

theorem quiet_recordThreadMutationEvents
    (host : Host) (m : MutationEvents) (ordered : List OrderedThreadEvent) :
    Quiet (recordThreadMutationEvents host m ordered) := by
  intro v
  refine Program.guarded_seq
    (quiet_appendOrderedEventAttempt host _ _ ordered v) ?_ ?_
  · rintro ⟨snapshot, e⟩ s ⟨_, hattempt⟩
    cases e with
    | none =>
        exact fails_ok _
    | some e =>
        have he : NoRefusal e := hattempt _ rfl e rfl
        refine quiet_if (quiet_throw he) ?_ s
        refine quiet_bind (quiet_bind (quiet_perform _) fun _ => quiet_pure _)
          fun truthful => quiet_if (quiet_if (quiet_pure _) (quiet_throw ?_))
            (quiet_throw he)
        rfl
  · rintro e s ⟨he, _⟩
    exact fails_error (he e rfl)

/-!
## The update of a worker
-/

theorem quiet_findSlice (plan : ThreadPlan) (sliceId : String) :
    Quiet (findSlice plan sliceId) := by
  unfold findSlice
  split
  · apply quiet_throw
    apply noRefusal_message
    with_reducible
      repeat apply beginsOtherwise_append
      exact beginsOtherwise_ofList (by decide) (by decide)
  · exact quiet_pure _
  · apply quiet_throw
    apply noRefusal_message
    with_reducible
      repeat apply beginsOtherwise_append
      exact beginsOtherwise_ofList (by decide) (by decide)

theorem quiet_deleteClaimSecretsBestEffort (ids : List ClaimId) :
    Quiet (deleteClaimSecretsBestEffort ids) := by
  refine quiet_forEach fun id => quiet_bestEffort ?_
  exact quiet_bind (quiet_perform _) fun _ =>
    quiet_if (quiet_perform _) (quiet_pure _)

theorem quiet_prune (sliceId : String) (generation : Nat) :
    Quiet (pruneSliceReceiptsOnGenerationAdvance sliceId generation) :=
  quiet_bestEffort (quiet_bind (quiet_perform _) fun _ =>
    quiet_forEach fun _ => quiet_perform _)

theorem quiet_persistPlan
    (plan : ThreadPlan) (cause : Cause) (clock : Clock) :
    Quiet (persistPlan plan cause clock) := by
  refine quiet_bind (quiet_ofExcept ?_) fun _ =>
    quiet_bind (quiet_perform _) fun _ =>
      quiet_bind (quiet_tryCatch (quiet_perform _) fun _ _ => quiet_throw ?_)
        fun _ => quiet_pure _
  · apply quiet_assertUniqueSliceIds
    intro id
    apply noRefusal_message
    with_reducible
      repeat apply beginsOtherwise_append
      exact beginsOtherwise_ofList (by decide) (by decide)
  · rfl

theorem quiet_judgeCommitted
    (e : ThreadError) (isIntended : ThreadPlan -> Bool) :
    Quiet (judgeCommitted e isIntended) := by
  unfold judgeCommitted
  split
  · exact quiet_pure _
  · exact quiet_tryCatch
      (quiet_bind (quiet_perform _) fun _ => quiet_pure _)
      fun _ _ => quiet_pure _

theorem quiet_persistOrCleanUp
    {plan : ThreadPlan} {cause : Cause} {clock : Clock}
    {isIntended : ThreadPlan -> Bool} {cleanUp : Bool -> Act Unit}
    (h : forall committed, Quiet (cleanUp committed)) :
    Quiet (persistOrCleanUp plan cause clock isIntended cleanUp) :=
  quiet_tryCatch (quiet_persistPlan _ _ _) fun _ he =>
    quiet_bind (quiet_judgeCommitted _ _) fun committed =>
      quiet_bind (h committed) fun _ => quiet_throw he

theorem quiet_expireStaleClaimForSlice
    (host : Host) (actor sliceId : String) (clock : Clock) (plan : ThreadPlan)
    (ordered : List OrderedThreadEvent) :
    Quiet (expireStaleClaimForSlice host actor sliceId clock plan ordered) := by
  refine quiet_bind (quiet_findSlice _ _) fun slice => ?_
  split
  · exact quiet_pure _
  · refine quiet_if (quiet_pure _) ?_
    refine quiet_bind (quiet_persistOrCleanUp fun committed =>
      quiet_if (quiet_deleteClaimSecretsBestEffort _) (quiet_pure _)) fun _ => ?_
    exact quiet_bind (quiet_deleteClaimSecretsBestEffort _) fun _ =>
      quiet_bind (quiet_prune _ _) fun _ =>
        quiet_bind (quiet_recordThreadMutationEvents _ _ _) fun _ =>
          quiet_pure _

theorem quiet_sweep
    (host : Host) (actor : String) (clock : Clock) (slices : List ThreadSlice)
    (plan : ThreadPlan) (ordered : List OrderedThreadEvent) :
    Quiet
      (synchronizeExpiredClaimsForPlan host actor clock slices plan
        ordered) := by
  induction slices generalizing plan ordered with
  | nil =>
      exact quiet_pure _
  | cons slice rest ih =>
      exact quiet_if
        (quiet_bind (quiet_expireStaleClaimForSlice _ _ _ _ _ _)
          fun _ => ih _ _) (ih _ _)

theorem quiet_readWorkerUpdateReceipt
    (id : ReceiptId) (claimId : Option ClaimId) :
    Quiet (readWorkerUpdateReceipt id claimId) := by
  refine quiet_bind (quiet_perform _) fun stored => ?_
  split
  · exact quiet_pure _
  · exact quiet_bind (quiet_require _ (by decide)) fun _ => quiet_pure _

theorem quiet_loadWorkerUpdateReceipt
    (input : UpdateClaimedSliceInput) (generation : Nat)
    (claimId : Option ClaimId) :
    Quiet (loadWorkerUpdateReceipt input generation claimId) := by
  refine quiet_bind (quiet_readWorkerUpdateReceipt _ _) fun stored => ?_
  split
  · exact quiet_pure _
  · refine quiet_bind (quiet_require _ ?_) fun _ =>
      quiet_bind (quiet_require _ (by decide)) fun _ => quiet_pure _
    rfl

theorem quiet_authorizeWorker
    (input : UpdateClaimedSliceInput) (slice : ThreadSlice) (now : Nat) :
    Quiet (authorizeWorker input slice now) := by
  refine quiet_bind (quiet_ofOption _ (by decide)) fun claim =>
    quiet_bind (quiet_require _ (by decide)) fun _ => quiet_bind ?_ fun _ =>
      quiet_bind (quiet_require _ (by decide)) fun _ =>
        quiet_bind (quiet_require _ ?_) fun _ => quiet_pure _
  · exact quiet_bind (quiet_perform _) fun _ =>
      quiet_bind (quiet_ofOption _ (by decide)) fun _ =>
        quiet_bind (quiet_require _ (by decide)) fun _ =>
          quiet_bind (quiet_require _ (by decide)) fun _ =>
            quiet_bind (quiet_require _ (by decide)) fun _ => quiet_pure _
  · apply noRefusal_message
    with_reducible
      repeat apply beginsOtherwise_append
      exact beginsOtherwise_ofList (by decide) (by decide)

theorem quiet_persistWorkerAction
    (host : Host) (input : UpdateClaimedSliceInput) (clock : Clock)
    (plan : ThreadPlan) (claim : ThreadClaimRef) (generation : Nat)
    (ordered : List OrderedThreadEvent) :
    Quiet
      (persistWorkerAction host input clock plan claim generation ordered) := by
  have hdelete : forall completed, Quiet
      (deleteCompletedSecret completed claim.claim_id) := fun _ =>
    quiet_if (quiet_deleteClaimSecretsBestEffort _) (quiet_pure _)
  refine quiet_bind (quiet_ofExcept (quiet_applyWorkerAction _ _ _ _ _))
    fun applied => quiet_bind (quiet_findSlice _ _) fun nextSlice =>
      quiet_bind (quiet_perform _) fun _ =>
        quiet_bind (quiet_persistOrCleanUp fun committed => ?_) fun _ =>
          quiet_bind (hdelete _) fun _ => quiet_bind (quiet_perform _)
            fun _ => quiet_bind (quiet_recordThreadMutationEvents _ _ _)
              fun _ => quiet_pure _
  exact quiet_if
    (quiet_bind (quiet_bestEffort (quiet_perform _)) fun _ => hdelete _)
    (quiet_pure _)

theorem quiet_claimTokenFromExistingStore
    (plan : ThreadPlan) (item : QueuedWorkerWrite) :
    Quiet (claimTokenFromExistingStore plan item) :=
  quiet_bind (quiet_findSlice _ _) fun _ =>
    quiet_bind (quiet_ofOption _ (by decide)) fun _ =>
      quiet_bind (quiet_perform _) fun _ =>
        quiet_bind (quiet_ofOption _ (by decide)) fun _ =>
          quiet_bind (quiet_require _ (by decide)) fun _ =>
            quiet_bind (quiet_require _ (by decide)) fun _ => quiet_pure _

end Thread
end Minni
