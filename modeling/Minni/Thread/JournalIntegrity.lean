import Minni.Foundation.TransitionSystem
import Minni.Thread.JournalFile
import Minni.Thread.Runs

/-!
# The ordered journal stays whole

Calls on the journal file take turns, each from the snapshot that the file
parses to, and each physical append may land, land and throw, be torn at any
character or get lost.  The parsed journal is then numbered from one without a
gap, no key comes twice, and it only grows.
-/

namespace Minni
namespace Thread

open Foundation

structure JournalIntegrity (events : List OrderedThreadEvent) : Prop where
  seqs : events.map (·.seq) = List.range' 1 events.length
  keys : (events.map (·.idempotency_key)).Nodup

/-!
## Events in order
-/

theorem map_seq_prefix
    {start : Nat} {events more : List OrderedThreadEvent}
    (h : (events ++ more).map (·.seq) =
      List.range' start (events ++ more).length) :
    events.map (·.seq) = List.range' start events.length := by
  rw [List.map_append, List.length_append, <- List.range'_append_1] at h
  exact (List.append_inj h (by simp)).left

theorem bySeq_ordered
    {start : Nat} {events : List OrderedThreadEvent}
    (h : events.map (·.seq) = List.range' start events.length) :
    bySeq events = events := by
  have hlt : (events.map (·.seq)).Pairwise (· < ·) := by
    rw [h]
    exact List.pairwise_lt_range' 1
  rw [List.pairwise_map] at hlt
  exact List.Pairwise.insertionSort_eq (hlt.imp Nat.le_of_lt)

theorem foldl_max_range' (n start : Nat) :
    (List.range' 1 n).foldl max start = max start n := by
  induction n with
  | zero =>
      exact (Nat.max_zero start).symm
  | succ n ih =>
      rw [List.range'_1_concat, List.foldl_append, ih]
      show max (max start n) (1 + n) = max start (n + 1)
      omega

theorem nextSequence_ordered
    {ordered : List OrderedThreadEvent}
    (h : ordered.map (·.seq) = List.range' 1 ordered.length) :
    nextSequence ordered = 1 + ordered.length := by
  have hfold : ordered.foldl (fun highest event => max highest event.seq) 0 =
      (ordered.map (·.seq)).foldl max 0 := by
    rw [List.foldl_map]
  unfold nextSequence
  rw [hfold, h, foldl_max_range', Nat.zero_max, Nat.add_comm]

theorem integrity_append
    {events more : List OrderedThreadEvent}
    (h : JournalIntegrity events)
    (hseqs : more.map (·.seq) = List.range' (1 + events.length) more.length)
    (hkeys : (more.map (·.idempotency_key)).Nodup)
    (hnew : forall event, event ∈ more ->
      findOrderedEventByIdempotencyKey events event.idempotency_key = none) :
    JournalIntegrity (events ++ more) := by
  constructor
  · rw [List.map_append, h.seqs, hseqs, List.range'_append_1,
      List.length_append]
  · rw [List.map_append, List.nodup_append]
    refine ⟨h.keys, hkeys, ?_⟩
    intro key hkey key' hkey' hsame
    rcases List.mem_map.mp hkey with ⟨event, hevent, rfl⟩
    rcases List.mem_map.mp hkey' with ⟨event', hevent', rfl⟩
    have hnone := List.find?_eq_none.mp (hnew event' hevent') event hevent
    exact hnone (decide_eq_true hsame)

/-!
## The fresh events of a batch
-/

/-- What the events that a batch adds to `base` have in common. -/
structure FreshEvents (base : List OrderedThreadEvent) (batch : EventBatch)
    (seq : Nat) (specs : List EventSpec) (fresh : List OrderedThreadEvent) :
    Prop where
  seqs : fresh.map (·.seq) = List.range' seq fresh.length
  keys : (fresh.map (·.idempotency_key)).Sublist
    (specs.map (·.idempotencyKey))
  new : forall event, event ∈ fresh ->
    findOrderedEventByIdempotencyKey base event.idempotency_key = none
  rev : forall event, event ∈ fresh -> event.rev = batch.rev
  payload : forall event, event ∈ fresh ->
    exists spec, spec ∈ specs ∧ event.payload = spec.payload

theorem freshEvents_skip
    {base fresh : List OrderedThreadEvent} {batch : EventBatch} {seq : Nat}
    {spec : EventSpec} {specs : List EventSpec}
    (h : FreshEvents base batch seq specs fresh) :
    FreshEvents base batch seq (spec :: specs) fresh := by
  refine ⟨h.seqs, List.Sublist.cons _ h.keys, h.new, h.rev, ?_⟩
  intro event hevent
  rcases h.payload event hevent with ⟨spec', hspec', hpayload⟩
  exact ⟨spec', List.mem_cons_of_mem _ hspec', hpayload⟩

theorem freshEvents_cons
    {host : Host} {planId : String}
    {base fresh : List OrderedThreadEvent} {batch : EventBatch} {seq : Nat}
    {spec : EventSpec} {specs : List EventSpec}
    (h : FreshEvents base batch (seq + 1) specs fresh)
    (hnew : findOrderedEventByIdempotencyKey base spec.idempotencyKey = none) :
    FreshEvents base batch seq (spec :: specs)
      (freshEvent host planId batch seq spec :: fresh) := by
  constructor
  · show seq :: fresh.map (·.seq) = List.range' seq (fresh.length + 1)
    rw [h.seqs]
    rfl
  · exact List.Sublist.cons_cons _ h.keys
  · intro event hevent
    rcases List.mem_cons.mp hevent with rfl | hevent
    · exact hnew
    · exact h.new event hevent
  · intro event hevent
    rcases List.mem_cons.mp hevent with rfl | hevent
    · rfl
    · exact h.rev event hevent
  · intro event hevent
    rcases List.mem_cons.mp hevent with rfl | hevent
    · exact ⟨spec, List.mem_cons_self .., rfl⟩
    · rcases h.payload event hevent with ⟨spec', hspec', hpayload⟩
      exact ⟨spec', List.mem_cons_of_mem _ hspec', hpayload⟩

/-- The loop looks keys up in the journal and the events made so far; the keys
of the batch differ, so only the journal decides. -/
theorem freshEvents_materialize
    {host : Host} {planId : String} {base : List OrderedThreadEvent}
    {batch : EventBatch} {specs : List EventSpec} :
    forall {ordered materialized : List OrderedThreadEvent} {seq : Nat},
      (specs.map (·.idempotencyKey)).Nodup ->
      (forall spec, spec ∈ specs ->
        findOrderedEventByIdempotencyKey ordered spec.idempotencyKey =
          findOrderedEventByIdempotencyKey base spec.idempotencyKey) ->
      materializeBatchEvents host planId batch ordered seq specs =
        Except.ok materialized ->
      FreshEvents base batch seq specs
        (materialized.filter fun event =>
          (findOrderedEventByIdempotencyKey base
            event.idempotency_key).isNone) := by
  induction specs with
  | nil =>
      intro ordered materialized seq _ _ hmade
      cases hmade
      exact ⟨rfl, List.Sublist.refl _, by simp, by simp, by simp⟩
  | cons spec specs ih =>
      intro ordered materialized seq hnodup hfind hmade
      rw [List.map_cons, List.nodup_cons] at hnodup
      have hhead := hfind spec (List.mem_cons_self ..)
      unfold materializeBatchEvents at hmade
      split at hmade
      · rename_i existing hexisting
        cases hassert : assertOperationIdentity existing batch.actor spec with
        | error e =>
            rw [hassert] at hmade
            cases hmade
        | ok checked =>
            rw [hassert] at hmade
            cases hrest : materializeBatchEvents host planId batch ordered seq
                specs with
            | error e =>
                rw [hrest] at hmade
                cases hmade
            | ok rest =>
                rw [hrest] at hmade
                cases hmade
                have hkey : existing.idempotency_key = spec.idempotencyKey := by
                  have hfound := List.find?_some hexisting
                  exact of_decide_eq_true hfound
                have hbase : findOrderedEventByIdempotencyKey base
                    existing.idempotency_key = some existing := by
                  rw [hkey, <- hhead]
                  exact hexisting
                rw [List.filter_cons_of_neg (by simp [hbase])]
                apply freshEvents_skip
                apply ih hnodup.right _ hrest
                intro spec' hspec'
                exact hfind spec' (List.mem_cons_of_mem _ hspec')
      · rename_i hmissing
        dsimp only at hmade
        cases hrest : materializeBatchEvents host planId batch
            (ordered ++ [freshEvent host planId batch seq spec]) (seq + 1)
            specs with
        | error e =>
            rw [hrest] at hmade
            cases hmade
        | ok rest =>
            rw [hrest] at hmade
            cases hmade
            have hbase : findOrderedEventByIdempotencyKey base
                (freshEvent host planId batch seq spec).idempotency_key =
                none := by
              show findOrderedEventByIdempotencyKey base spec.idempotencyKey = _
              rw [<- hhead]
              exact hmissing
            rw [List.filter_cons_of_pos (by simp [hbase])]
            refine freshEvents_cons ?_ hbase
            apply ih hnodup.right _ hrest
            intro spec' hspec'
            rw [<- hfind spec' (List.mem_cons_of_mem _ hspec')]
            have hother : (freshEvent host planId batch seq
                spec).idempotency_key ≠ spec'.idempotencyKey := by
              intro hsame
              apply hnodup.left
              exact List.mem_map.mpr ⟨spec', hspec', hsame.symm⟩
            unfold findOrderedEventByIdempotencyKey
            rw [List.find?_append]
            simp [hother]

/-!
## The readable events of a batch

Numbers that are not safe hide an event, and with it every later event of the
batch.
-/

theorem filter_prefix
    {α : Type} {p : α -> Bool} {xs : List α}
    (h : xs.Pairwise fun a b => p b = true -> p a = true) :
    xs.filter p <+: xs := by
  induction xs with
  | nil =>
      exact List.prefix_refl _
  | cons x xs ih =>
      rw [List.pairwise_cons] at h
      cases hx : p x with
      | true =>
          rw [List.filter_cons_of_pos hx]
          exact (List.prefix_cons_inj x).mpr (ih h.right)
      | false =>
          have hnone : (x :: xs).filter p = [] := by
            rw [List.filter_eq_nil_iff]
            intro y hy hpy
            rcases List.mem_cons.mp hy with rfl | hy
            · rw [hx] at hpy
              cases hpy
            · rw [h.left y hy hpy] at hx
              cases hx
          rw [hnone]
          exact List.nil_prefix

theorem isReadable_of_le
    {a b : OrderedThreadEvent} (h : isReadable b = true)
    (hrev : a.rev = b.rev) (hpos : 0 < a.seq) (hle : a.seq ≤ b.seq) :
    isReadable a = true := by
  unfold isReadable Json.isSafeInteger Json.maxSafeInteger at h ⊢
  simp only [Bool.and_eq_true, decide_eq_true_eq] at h ⊢
  omega

theorem readable_prefix
    {base fresh : List OrderedThreadEvent} {batch : EventBatch} {seq : Nat}
    {specs : List EventSpec} (h : FreshEvents base batch seq specs fresh)
    (hpos : 0 < seq) :
    fresh.filter isReadable <+: fresh := by
  have hlt : (fresh.map (·.seq)).Pairwise (· < ·) := by
    rw [h.seqs]
    exact List.pairwise_lt_range' 1
  rw [List.pairwise_map] at hlt
  apply filter_prefix
  apply List.Pairwise.imp_of_mem _ hlt
  intro a b ha hb hab hreadable
  have hseq : a.seq ∈ List.range' seq fresh.length := by
    rw [<- h.seqs]
    exact List.mem_map.mpr ⟨a, ha, rfl⟩
  have hstart : seq ≤ a.seq := (List.mem_range'_1.mp hseq).left
  exact isReadable_of_le hreadable ((h.rev a ha).trans (h.rev b hb).symm)
    (Nat.lt_of_lt_of_le hpos hstart) (Nat.le_of_lt hab)

/-!
## One call
-/

/-- A batch of the callers: its keys differ, and its payloads are values of the
host language. -/
structure OrderedBatch extends EventBatch where
  keys_differ : (events.map (·.idempotencyKey)).Nodup
  payload_printable : forall spec, spec ∈ events ->
    Json.PrintableOption spec.payload

inductive JournalCall where
  | appendOrderedEventBatch (planId : String) (batch : OrderedBatch)
  | reconcileThreadJournal (input : JournalFile.ReconcileInput)
  | ensureOrderedBaseline (input : JournalFile.ReconcileInput)
  | appendJournal (event : PlanEvent)

/-- A call from the snapshot that the file parses to.  The older format leaves
the snapshot of its caller alone. -/
def journalCall (host : Host) (file : JournalFile) (call : JournalCall)
    (landing : LineFile.Landing) : AppendOutcome :=
  match call with
  | JournalCall.appendOrderedEventBatch planId batch =>
      JournalFile.appendOrderedEventBatch host planId batch.toEventBatch
        (fileEvents file) file landing
  | JournalCall.reconcileThreadJournal input =>
      JournalFile.reconcileThreadJournal host input (fileEvents file) file
        landing
  | JournalCall.ensureOrderedBaseline input =>
      JournalFile.ensureOrderedBaseline host input (fileEvents file) file
        landing
  | JournalCall.appendJournal event =>
      let written := appendJournal file event landing
      { file := written.1
        snapshot := fileEvents file
        error := if written.2 then none else some ThreadError.io }

/-- The events of the file are in order before they are sorted. -/
def Whole (file : JournalFile) : Prop :=
  JournalIntegrity (unsortedEvents file)

theorem fileEvents_whole {file : JournalFile} (h : Whole file) :
    fileEvents file = unsortedEvents file := by
  rw [fileEvents_eq]
  exact bySeq_ordered h.seqs

/-- What a call may do to a whole file. -/
structure CallKeeps (file : JournalFile) (outcome : AppendOutcome) : Prop where
  whole : Whole outcome.file
  grows : unsortedEvents file <+: unsortedEvents outcome.file
  refreshed : outcome.error ≠ none ->
    outcome.snapshot = fileEvents outcome.file

theorem callKeeps_idle
    {file : JournalFile} (h : Whole file) (e : Option ThreadError) :
    CallKeeps file
      { file := file, snapshot := fileEvents file, error := e } :=
  ⟨h, List.prefix_refl _, fun _ => rfl⟩

theorem whole_appendJournalLine
    {file : JournalFile} {batch : EventBatch} {specs : List EventSpec}
    {fresh : List OrderedThreadEvent} (landing : LineFile.Landing)
    (h : Whole file)
    (hfresh : FreshEvents (unsortedEvents file) batch
      (1 + (unsortedEvents file).length) specs fresh)
    (hkeys : (specs.map (·.idempotencyKey)).Nodup)
    (hpayload : forall spec, spec ∈ specs ->
      Json.PrintableOption spec.payload) :
    Whole (appendJournalLine file (batchLineJson fresh) landing).1 ∧
      unsortedEvents file <+:
        unsortedEvents
          (appendJournalLine file (batchLineJson fresh) landing).1 := by
  have hprintable : Json.Printable (batchLineJson fresh) := by
    apply printable_batchLineJson
    intro event hevent
    rcases hfresh.payload event hevent with ⟨spec, hspec, hsame⟩
    rw [hsame]
    exact hpayload spec hspec
  rcases unsortedEvents_appendJournalLine file landing hprintable with
    ⟨hsame, _⟩ | hmore
  · unfold batchLineJson Json.object Whole
    rw [hsame]
    exact ⟨h, List.prefix_refl _⟩
  · have hvalue := valueEvents_batchLineJson fresh
    have hprefixed := readable_prefix hfresh (by omega)
    rcases hprefixed with ⟨hidden, hhidden⟩
    have hraw : unsortedEvents
        (appendJournalLine file (batchLineJson fresh) landing).1 =
        unsortedEvents file ++ fresh.filter isReadable := by
      rw [<- hvalue]
      exact hmore
    unfold Whole
    rw [hraw]
    constructor
    · apply integrity_append h
      · have hseqs := hfresh.seqs
        rw [<- hhidden] at hseqs
        exact map_seq_prefix hseqs
      · have hsub := (List.filter_sublist (p := isReadable) (l := fresh)).map
          (·.idempotency_key)
        exact (hsub.trans hfresh.keys).nodup hkeys
      · intro event hevent
        exact hfresh.new event (List.mem_of_mem_filter hevent)
    · exact List.prefix_append _ _

theorem callKeeps_appendOrderedEventBatch
    {file : JournalFile} {batch : EventBatch} (host : Host) (planId : String)
    (landing : LineFile.Landing) (h : Whole file)
    (hkeys : (batch.events.map (·.idempotencyKey)).Nodup)
    (hpayload : forall spec, spec ∈ batch.events ->
      Json.PrintableOption spec.payload) :
    CallKeeps file
      (JournalFile.appendOrderedEventBatch host planId batch (fileEvents file)
        file landing) := by
  unfold JournalFile.appendOrderedEventBatch
  split
  · split
    · exact callKeeps_idle h _
    · exact callKeeps_idle h _
  · split
    · exact callKeeps_idle h _
    · rename_i materialized hmade
      rw [fileEvents_whole h, nextSequence_ordered h.seqs] at hmade
      have hfresh := freshEvents_materialize hkeys (fun _ _ => rfl) hmade
      rw [<- fileEvents_whole h] at hfresh
      dsimp only
      split
      · exact callKeeps_idle h _
      · rw [fileEvents_whole h] at hfresh ⊢
        have hwhole :=
          whole_appendJournalLine landing h hfresh hkeys hpayload
        split
        · exact ⟨hwhole.left, hwhole.right, fun herror => absurd rfl herror⟩
        · exact ⟨hwhole.left, hwhole.right, fun _ => rfl⟩

/-- The batch of a system event has one event. -/
theorem callKeeps_systemBatch
    {file : JournalFile} (host : Host) (input : JournalFile.ReconcileInput)
    (key kind : String) (landing : LineFile.Landing) (h : Whole file) :
    CallKeeps file
      (JournalFile.appendOrderedEventBatch host input.planId
        (systemBatch input.rev input.actor input.at_ key kind
          (JournalFile.readySummaryJson input.readySummary))
        (fileEvents file) file landing) := by
  have hsummary :
      Json.Printable (JournalFile.readySummaryJson input.readySummary) := by
    apply Json.printable_object (by simp)
    intro entry hentry
    rw [List.mem_singleton.mp hentry, Json.printableOption_some]
    apply Json.printable_arr_map
    intro slice
    apply Json.printable_object (by simp)
    simp
  apply callKeeps_appendOrderedEventBatch host input.planId landing h
  · exact List.nodup_singleton _
  · intro spec hspec
    rw [List.mem_singleton.mp hspec, Json.printableOption_some]
    exact ⟨List.nodup_singleton _, hsummary, True.intro⟩

theorem callKeeps_appendJournal
    {file : JournalFile} (event : PlanEvent) (landing : LineFile.Landing)
    (h : Whole file) (e : Option ThreadError) :
    CallKeeps file
      { file := (appendJournal file event landing).1
        snapshot := fileEvents file
        error := e } := by
  have hraw : unsortedEvents (appendJournal file event landing).1 =
      unsortedEvents file := by
    have hvalue := valueEvents_planEventJson event
    rcases unsortedEvents_appendJournalLine file landing
        (printable_planEventJson event) with ⟨hsame, _⟩ | hmore
    · exact hsame
    · refine Eq.trans hmore ?_
      show unsortedEvents file ++ valueEvents (planEventJson event) = _
      rw [hvalue, List.append_nil]
  constructor
  · unfold Whole
    rw [hraw]
    exact h
  · exact hraw.symm ▸ List.prefix_refl (unsortedEvents file)
  · intro _
    rw [fileEvents_eq, fileEvents_eq, hraw]

theorem callKeeps_journalCall
    (host : Host) {file : JournalFile} (call : JournalCall)
    (landing : LineFile.Landing) (h : Whole file) :
    CallKeeps file (journalCall host file call landing) := by
  cases call with
  | appendOrderedEventBatch planId batch =>
      exact callKeeps_appendOrderedEventBatch host planId landing h
        batch.keys_differ batch.payload_printable
  | reconcileThreadJournal input =>
      show CallKeeps file (JournalFile.reconcileThreadJournal host input
        (fileEvents file) file landing)
      unfold JournalFile.reconcileThreadJournal
      dsimp only
      split
      · exact callKeeps_idle h _
      split
      · exact callKeeps_idle h _
      split
      · exact callKeeps_idle h _
      split
      · exact callKeeps_idle h _
      · exact callKeeps_systemBatch host input _ _ landing h
  | ensureOrderedBaseline input =>
      show CallKeeps file (JournalFile.ensureOrderedBaseline host input
        (fileEvents file) file landing)
      unfold JournalFile.ensureOrderedBaseline
      split
      · exact callKeeps_systemBatch host input _ _ landing h
      · exact callKeeps_idle h _
  | appendJournal event =>
      exact callKeeps_appendJournal event landing h _

/-!
## Every sequence of calls
-/

/-- The journal starts without ordered events, as where the file is missing. -/
def journalSystem (host : Host) :
    TransitionSystem JournalFile (JournalCall × LineFile.Landing) :=
  TransitionSystem.OfNext (fun file => fileEvents file = [])
    fun file label => some (journalCall host file label.1 label.2).file

theorem whole_initial {file : JournalFile} (h : fileEvents file = []) :
    Whole file := by
  have hraw : unsortedEvents file = [] := by
    rw [fileEvents_eq] at h
    have hperm := List.perm_insertionSort
      (fun left right : OrderedThreadEvent => left.seq ≤ right.seq)
      (unsortedEvents file)
    have hnil : ([] : List OrderedThreadEvent).Perm (unsortedEvents file) := by
      rw [<- h]
      exact hperm
    exact hnil.nil_eq.symm
  unfold Whole
  rw [hraw]
  exact ⟨rfl, List.nodup_nil⟩

theorem whole_run
    {host : Host} {file file' : JournalFile}
    {calls : List (JournalCall × LineFile.Landing)}
    (hrun : (journalSystem host).Run file calls file') (h : Whole file) :
    Whole file' ∧ unsortedEvents file <+: unsortedEvents file' := by
  induction hrun with
  | nil file =>
      exact ⟨h, List.prefix_refl _⟩
  | @cons file mid last label labels hstep _ ih =>
      have hmid : (journalCall host file label.1 label.2).file = mid :=
        Option.some.inj hstep
      have hkeeps := callKeeps_journalCall host label.1 label.2 h
      rw [<- hmid] at ih
      have hrest := ih hkeeps.whole
      exact ⟨hrest.left, hkeeps.grows.trans hrest.right⟩

/-- In every sequence of calls and landings the parsed journal is numbered from
one with distinct keys, what was parsed stays, and a call that throws hands on
the journal as it is parsed then. -/
theorem orderedJournal_integrity
    (host : Host) {file file' : JournalFile}
    {calls : List (JournalCall × LineFile.Landing)}
    (hreach : (journalSystem host).Reachable file)
    (hrun : (journalSystem host).Run file calls file') :
    JournalIntegrity (fileEvents file') ∧
      fileEvents file <+: fileEvents file' ∧
      forall call landing,
        (journalCall host file' call landing).error ≠ none ->
        (journalCall host file' call landing).snapshot =
          fileEvents (journalCall host file' call landing).file := by
  have hwhole : Whole file := by
    rcases hreach with ⟨start, before, hstart, hbefore⟩
    exact (whole_run hbefore (whole_initial hstart)).left
  have hafter := whole_run hrun hwhole
  rw [fileEvents_whole hwhole, fileEvents_whole hafter.left]
  refine ⟨hafter.left, hafter.right, ?_⟩
  intro call landing
  exact (callKeeps_journalCall host call landing hafter.left).refreshed

/-!
## A line that breaks off
-/

def plainBatch (key : String) : OrderedBatch where
  rev := 1
  actor := "worker"
  at_ := "2026-01-01T00:00:00.000Z"
  events :=
    [{ idempotencyKey := key
       kind := "slice.claimed"
       sliceId := some "s1"
       payload := none }]
  keys_differ := List.nodup_singleton _
  payload_printable := by
    intro spec hspec
    rw [List.mem_singleton.mp hspec]
    intro v hv
    cases hv

/-- A batch, a second one whose line is torn, a plan event behind the broken
line, and the second batch again. -/
def tornCalls : List (JournalCall × LineFile.Landing) :=
  [(JournalCall.appendOrderedEventBatch "p1" (plainBatch "k1"),
      LineFile.Landing.landed),
    (JournalCall.appendOrderedEventBatch "p1" (plainBatch "k2"),
      LineFile.Landing.torn 40 false),
    (JournalCall.appendJournal
        (PlanEvent.rehydrated "2026-01-01T00:00:01.000Z"),
      LineFile.Landing.landed),
    (JournalCall.appendOrderedEventBatch "p1" (plainBatch "k2"),
      LineFile.Landing.landedThrows)]

def fileAfter (calls : List (JournalCall × LineFile.Landing)) : JournalFile :=
  calls.foldl
    (fun file label =>
      (journalCall plainHost file label.1 label.2).file) none

/-- Every sequence of calls is a run. -/
theorem run_calls (host : Host)
    (calls : List (JournalCall × LineFile.Landing)) (file : JournalFile) :
    (journalSystem host).Run file calls
      (calls.foldl
        (fun file label =>
          (journalCall host file label.1 label.2).file) file) := by
  induction calls generalizing file with
  | nil => exact TransitionSystem.Run.nil file
  | cons label rest ih => exact TransitionSystem.Run.cons rfl (ih _)

theorem orderedJournal_integrity_torn :
    (fileEvents (fileAfter tornCalls)).map (·.seq) = [1, 2] ∧
      JournalIntegrity (fileEvents (fileAfter tornCalls)) := by
  have hrun : (journalSystem plainHost).Run none tornCalls
      (fileAfter tornCalls) :=
    run_calls plainHost tornCalls none
  have hreach : (journalSystem plainHost).Reachable none :=
    TransitionSystem.reachable_initial rfl
  exact ⟨by decide +kernel,
    (orderedJournal_integrity plainHost hreach hrun).left⟩

end Thread
end Minni
