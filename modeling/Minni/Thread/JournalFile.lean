import Minni.Foundation.JsonLine
import Minni.Thread.Digest
import Minni.Thread.PlanStatus

/-!
# The journal as a file

The journal is a Markdown file with a header and one JSON object to a line: a
batch of ordered events, an ordered event alone, or a plan event of the older
format.  Both writers read the file first, start it with the header where it is
missing, and end an unfinished last line before their own.
-/

namespace Minni
namespace Thread

open Foundation

/-!
## Ordered events
-/

def orderedEventFields (event : OrderedThreadEvent) :
    List (String × Option Json) :=
  [("seq", some (Json.int event.seq)),
    ("rev", some (Json.int event.rev)),
    ("event_id", some (Json.str event.event_id)),
    ("idempotency_key", some (Json.str event.idempotency_key)),
    ("actor", some (Json.str event.actor)),
    ("kind", some (Json.str event.kind)),
    ("at", some (Json.str event.at_)),
    ("slice_id", event.slice_id.map Json.str),
    ("payload", event.payload)]

def orderedEventJson (event : OrderedThreadEvent) : Json :=
  Json.object (orderedEventFields event)

def batchLineJson (events : List OrderedThreadEvent) : Json :=
  Json.object
    [("thread_event_batch", some (Json.arr (events.map orderedEventJson)))]

/-- The event that a value is, where its fields have the right types. -/
def isOrderedThreadEvent (value : Json) : Option OrderedThreadEvent := do
  let seq <- (value.field? "seq").bind Json.safeInteger?
  let rev <- (value.field? "rev").bind Json.safeInteger?
  let event_id <- (value.field? "event_id").bind Json.str?
  let idempotency_key <- (value.field? "idempotency_key").bind Json.str?
  let actor <- (value.field? "actor").bind Json.str?
  let kind <- (value.field? "kind").bind Json.str?
  let at_ <- (value.field? "at").bind Json.str?
  if 0 < seq ∧ 0 ≤ rev then
    some
      { seq := seq.toNat
        rev := rev.toNat
        event_id := event_id
        idempotency_key := idempotency_key
        actor := actor
        kind := kind
        at_ := at_
        slice_id := (value.field? "slice_id").bind Json.str?
        payload := value.field? "payload" }
  else
    none

/-- The events of one parsed line. -/
def valueEvents (parsed : Json) : List OrderedThreadEvent :=
  match parsed.field? "thread_event_batch" with
  | some (Json.arr items) => items.filterMap isOrderedThreadEvent
  | _ => (isOrderedThreadEvent parsed).toList

/-!
## Plan events of the older format
-/

structure DependsOnOverride where
  unmet : List String
  reason : Option String
  forced_by : String

inductive PlanEvent where
  | status_changed (slice_id : String) (from_ to_ : PlanSliceStatus)
      (at_ : String) (evidence : Option String)
      (depends_on_override : Option DependsOnOverride)
  | replan (at_ : String) (note : Option String)
      (depends_on_changed : Option (List DependsOnChange))
      (depends_on_superseded : Option (List DependsOnSuperseded))
      (add_slices : Option (List SliceInput))
      (drop_slice_ids : Option (List String))
  | gate_passed (slice_id evidence at_ : String)
  | rehydrated (at_ : String)
  | restored (from_rev : Nat) (at_ : String)
  | scar_added (signal at_ : String)
  | status_reconciled (from_ to_ : PageStatus) (at_ : String)

def overrideJson (record : DependsOnOverride) : Json :=
  Json.object
    [("unmet", some (Json.strings record.unmet)),
      ("reason", record.reason.map Json.str),
      ("forced_by", some (Json.str record.forced_by))]

def planEventFields : PlanEvent -> List (String × Option Json)
  | PlanEvent.status_changed slice_id from_ to_ at_ evidence override =>
      [("kind", some (Json.str "status_changed")),
        ("slice_id", some (Json.str slice_id)),
        ("from", some (Json.str from_.text)),
        ("to", some (Json.str to_.text)),
        ("at", some (Json.str at_)),
        ("evidence", evidence.map Json.str),
        ("depends_on_override", override.map overrideJson)]
  | PlanEvent.replan at_ note changed superseded added dropped =>
      [("kind", some (Json.str "replan")),
        ("at", some (Json.str at_)),
        ("note", note.map Json.str),
        ("depends_on_changed",
          changed.map fun changes => Json.arr (changes.map changeJson)),
        ("depends_on_superseded",
          superseded.map fun entries => Json.arr (entries.map supersededJson)),
        ("add_slices",
          added.map fun slices => Json.arr (slices.map proposedSliceJson)),
        ("drop_slice_ids", dropped.map Json.strings)]
  | PlanEvent.gate_passed slice_id evidence at_ =>
      [("kind", some (Json.str "gate_passed")),
        ("slice_id", some (Json.str slice_id)),
        ("evidence", some (Json.str evidence)),
        ("at", some (Json.str at_))]
  | PlanEvent.rehydrated at_ =>
      [("kind", some (Json.str "rehydrated")),
        ("at", some (Json.str at_))]
  | PlanEvent.restored from_rev at_ =>
      [("kind", some (Json.str "restored")),
        ("from_rev", some (Json.int from_rev)),
        ("at", some (Json.str at_))]
  | PlanEvent.scar_added signal at_ =>
      [("kind", some (Json.str "scar_added")),
        ("signal", some (Json.str signal)),
        ("at", some (Json.str at_))]
  | PlanEvent.status_reconciled from_ to_ at_ =>
      [("kind", some (Json.str "status_reconciled")),
        ("from", some (Json.str from_.text)),
        ("to", some (Json.str to_.text)),
        ("at", some (Json.str at_))]

def planEventJson (event : PlanEvent) : Json :=
  Json.object (planEventFields event)

/-!
## Parsing

A carriage return before the newline is white space of its line.
-/

def isIncompleteJsonLine (trimmed : List Char) (lineIndex lineCount : Nat)
    (journalText : List Char) : Bool :=
  if trimmed.head? ≠ some '\x7b' then
    true
  else if lineIndex = lineCount - 1 ∧ journalText.getLast? ≠ some '\n' then
    (Json.parse trimmed).isNone
  else
    false

def trimmedLineEvents (trimmed : List Char) : List OrderedThreadEvent :=
  match Json.parse trimmed with
  | none => []
  | some parsed => valueEvents parsed

def scannedEvents (journalText : List Char) : List OrderedThreadEvent :=
  let lines := LineFile.splitLines journalText
  lines.zipIdx.flatMap fun entry =>
    let trimmed := Text.trimChars entry.1
    if trimmed.head? ≠ some '\x7b' then
      []
    else if isIncompleteJsonLine trimmed entry.2 lines.length journalText then
      []
    else
      trimmedLineEvents trimmed

def bySeq (events : List OrderedThreadEvent) : List OrderedThreadEvent :=
  events.insertionSort fun left right => left.seq ≤ right.seq

def parseJournalText (journalText : List Char) : List OrderedThreadEvent :=
  bySeq (scannedEvents journalText)

/-- The text of the file, where there is one. -/
abbrev JournalFile := Option (List Char)

def fileEvents (file : JournalFile) : List OrderedThreadEvent :=
  match file with
  | none => []
  | some text => parseJournalText text

/-!
## Appending one line
-/

def journalHeader : List Char :=
  "# Minni Plan Journal\n\n## events\n".toList

/-- What the file holds then, and whether the writer is told that it
succeeded.  `appendJournal` of the older format has the same body. -/
def appendJournalLine (file : JournalFile) (payload : Json)
    (landing : LineFile.Landing) : JournalFile × Bool :=
  match file with
  | none =>
      LineFile.writeAtomic
        (journalHeader ++ (Json.stringify payload ++ ['\n'])) landing
  | some existing =>
      let written :=
        LineFile.appendLine existing (Json.stringify payload) landing
      (some written.1, written.2)

def appendJournal (file : JournalFile) (event : PlanEvent)
    (landing : LineFile.Landing) : JournalFile × Bool :=
  appendJournalLine file (planEventJson event) landing

/-!
## The calls

A call starts from the snapshot that it is given and returns the one that the
caller goes on with.
-/

structure AppendOutcome where
  file : JournalFile
  snapshot : List OrderedThreadEvent
  error : Option ThreadError

namespace JournalFile

variable (host : Host)

def appendOrderedEventBatch (planId : String) (batch : EventBatch)
    (ordered : List OrderedThreadEvent) (file : JournalFile)
    (landing : LineFile.Landing) : AppendOutcome :=
  if batch.events.all fun spec =>
      (findOrderedEventByIdempotencyKey ordered spec.idempotencyKey).isSome
  then
    match assertExistingEvents ordered batch batch.events with
    | Except.error e => { file := file, snapshot := ordered, error := some e }
    | Except.ok () => { file := file, snapshot := ordered, error := none }
  else
    match materializeBatchEvents host planId batch ordered
        (nextSequence ordered) batch.events with
    | Except.error e => { file := file, snapshot := ordered, error := some e }
    | Except.ok materialized =>
        let fresh := materialized.filter fun event =>
          (findOrderedEventByIdempotencyKey ordered
            event.idempotency_key).isNone
        if fresh.isEmpty then
          { file := file, snapshot := ordered, error := none }
        else
          let written := appendJournalLine file (batchLineJson fresh) landing
          if written.2 then
            { file := written.1, snapshot := ordered ++ fresh, error := none }
          else
            -- the snapshot is read again from the file
            { file := written.1
              snapshot := fileEvents written.1
              error := some ThreadError.io }

structure ReadySlice where
  id : String
  title : String

def readySummaryJson (slices : List ReadySlice) : Json :=
  Json.object
    [("slices",
      some (Json.arr (slices.map fun slice =>
        Json.object
          [("id", some (Json.str slice.id)),
            ("title", some (Json.str slice.title))])))]

structure ReconcileInput where
  planId : String
  rev : Nat
  actor : String
  at_ : String
  readySummary : List ReadySlice

def reconcileThreadJournal (input : ReconcileInput)
    (ordered : List OrderedThreadEvent) (file : JournalFile)
    (landing : LineFile.Landing) : AppendOutcome :=
  let journalRev :=
    ordered.foldl (fun highest event => max highest event.rev) 0
  if ordered.isEmpty then
    { file := file, snapshot := ordered, error := none }
  else if input.rev < journalRev then
    { file := file
      snapshot := ordered
      error := some (ThreadError.inconsistent input.rev journalRev) }
  else if input.rev = journalRev then
    { file := file, snapshot := ordered, error := none }
  else if ordered.any (isRecoveryOf input.rev) then
    { file := file, snapshot := ordered, error := none }
  else
    appendOrderedEventBatch host input.planId
      (systemBatch input.rev input.actor input.at_
        (deriveRecoveryEventKey host ordered input.rev) "state.recovered"
        (readySummaryJson input.readySummary))
      ordered file landing

def ensureOrderedBaseline (input : ReconcileInput)
    (ordered : List OrderedThreadEvent) (file : JournalFile)
    (landing : LineFile.Landing) : AppendOutcome :=
  if ordered.isEmpty then
    appendOrderedEventBatch host input.planId
      (systemBatch input.rev input.actor input.at_
        (deriveSystemEventKey "state.baseline" [revText input.rev])
        "state.baseline" (readySummaryJson input.readySummary))
      ordered file landing
  else
    { file := file, snapshot := ordered, error := none }

end JournalFile

/-!
## Reading what was written
-/

def readEventLine : List Char -> List OrderedThreadEvent :=
  Json.readObjectLine valueEvents

theorem scannedEvents_eq (journalText : List Char) :
    scannedEvents journalText =
      LineFile.readLines readEventLine journalText := by
  unfold scannedEvents LineFile.readLines
  have hline : forall entry : List Char × Nat,
      (if (Text.trimChars entry.1).head? ≠ some '\x7b' then
        []
      else if isIncompleteJsonLine (Text.trimChars entry.1) entry.2
          (LineFile.splitLines journalText).length journalText then
        []
      else
        trimmedLineEvents (Text.trimChars entry.1)) =
        readEventLine entry.1 := by
    intro entry
    unfold readEventLine Json.readObjectLine isIncompleteJsonLine
      trimmedLineEvents
    -- an unfinished last line is one that does not parse
    by_cases hhead : (Text.trimChars entry.1).head? = some '\x7b'
    · cases hparse : Json.parse (Text.trimChars entry.1) with
      | none => simp [hhead, hparse]
      | some parsed => simp [hhead, hparse]
    · simp [hhead]
  simp only [hline]
  conv => rhs; rw [<- List.zipIdx_map_fst 0 (LineFile.splitLines journalText)]
  rw [List.flatMap_map]

theorem object_field?
    {entries : List (String × Option Json)} (name : String)
    (h : (entries.map Prod.fst).Nodup) :
    (Json.object entries).field? name = (entries.lookup name).join :=
  Json.lookup_filterMap h

/-- The parser takes an event only when its numbers are safe. -/
def isReadable (event : OrderedThreadEvent) : Bool :=
  Json.isSafeInteger event.seq && Json.isSafeInteger event.rev &&
    decide (0 < event.seq)

theorem orderedEventFields_keys (event : OrderedThreadEvent) :
    ((orderedEventFields event).map Prod.fst).Nodup := by
  simp [orderedEventFields]

/-- The fields of a row, as its parser looks them up. -/
theorem lookup_orderedEventFields (event : OrderedThreadEvent) :
    forall entry, entry ∈ orderedEventFields event ->
      (orderedEventFields event).lookup entry.1 = some entry.2 :=
  fun _ h => (Json.lookup_eq_some_iff (orderedEventFields_keys event)).mpr h

theorem isOrderedThreadEvent_orderedEventJson (event : OrderedThreadEvent) :
    isOrderedThreadEvent (orderedEventJson event) =
      if isReadable event then some event else none := by
  have hstr : forall s : String, Json.str? (Json.str s) = some s := fun _ => rfl
  have hslice : (event.slice_id.map Json.str).bind Json.str? =
      event.slice_id := by
    cases event.slice_id with
    | none => rfl
    | some s => rfl
  have hint : forall n : Nat, Json.safeInteger? (Json.int n) =
      if Json.isSafeInteger n then some (n : Int) else none := fun _ => rfl
  unfold isOrderedThreadEvent orderedEventJson
  simp only [object_field? _ (orderedEventFields_keys event)]
  have hfields := lookup_orderedEventFields event
  simp only [orderedEventFields, List.forall_mem_cons] at hfields
  rcases hfields with ⟨hseq', hrev', hid, hkey, hactor, hkind, hat, hslices,
    hpayload, _⟩
  simp only [orderedEventFields, hseq', hrev', hid, hkey, hactor, hkind, hat,
    hslices, hpayload]
  cases hseq : Json.isSafeInteger event.seq with
  | false =>
      simp [isReadable, hint, hseq]
  | true =>
      cases hrev : Json.isSafeInteger event.rev with
      | false =>
          simp [isReadable, hint, hseq, hrev]
      | true =>
          simp [isReadable, hint, hstr, hslice, hseq, hrev]

theorem valueEvents_batchLineJson (events : List OrderedThreadEvent) :
    valueEvents (batchLineJson events) = events.filter isReadable := by
  have hfield : (batchLineJson events).field? "thread_event_batch" =
      some (Json.arr (events.map orderedEventJson)) := rfl
  unfold valueEvents
  rw [hfield]
  show (events.map orderedEventJson).filterMap isOrderedThreadEvent = _
  rw [List.filterMap_map, <- List.filterMap_eq_filter]
  apply List.filterMap_congr
  intro event _
  show isOrderedThreadEvent (orderedEventJson event) = _
  rw [isOrderedThreadEvent_orderedEventJson]
  rfl

/-- The older format has no sequence numbers and no batches. -/
theorem planEventFields_lookup
    (event : PlanEvent) {name : String}
    (h : name = "seq" ∨ name = "thread_event_batch") :
    ((planEventFields event).lookup name).join = none := by
  rcases h with rfl | rfl
  · cases event <;> rfl
  · cases event <;> rfl

theorem planEventFields_keys (event : PlanEvent) :
    ((planEventFields event).map Prod.fst).Nodup := by
  cases event <;> simp [planEventFields]

theorem valueEvents_planEventJson (event : PlanEvent) :
    valueEvents (planEventJson event) = [] := by
  have hkeys := planEventFields_keys event
  have hbatch : (planEventJson event).field? "thread_event_batch" = none := by
    unfold planEventJson
    rw [object_field? _ hkeys]
    exact planEventFields_lookup event (Or.inr rfl)
  have hseq : (planEventJson event).field? "seq" = none := by
    unfold planEventJson
    rw [object_field? _ hkeys]
    exact planEventFields_lookup event (Or.inl rfl)
  have hnone : isOrderedThreadEvent (planEventJson event) = none := by
    unfold isOrderedThreadEvent
    rw [hseq]
    rfl
  unfold valueEvents
  rw [hbatch, hnone]
  rfl

/-!
## Printable lines
-/

theorem printable_orderedEventJson
    {event : OrderedThreadEvent} (h : Json.PrintableOption event.payload) :
    Json.Printable (orderedEventJson event) := by
  apply Json.printable_object (orderedEventFields_keys event)
  intro entry hentry
  simp only [orderedEventFields, List.mem_cons, List.not_mem_nil,
    or_false] at hentry
  rcases hentry with rfl | rfl | rfl | rfl | rfl | rfl | rfl | rfl | rfl
  · simp
  · simp
  · simp
  · simp
  · simp
  · simp
  · simp
  · simp
  · exact h

theorem printable_batchLineJson
    {events : List OrderedThreadEvent}
    (h : forall event, event ∈ events -> Json.PrintableOption event.payload) :
    Json.Printable (batchLineJson events) := by
  apply Json.printable_object (by simp)
  intro entry hentry
  rw [List.mem_singleton.mp hentry, Json.printableOption_some]
  apply Json.printable_arr
  intro v hv
  rcases List.mem_map.mp hv with ⟨event, hevent, rfl⟩
  exact printable_orderedEventJson (h event hevent)

theorem printable_overrideJson (record : DependsOnOverride) :
    Json.Printable (overrideJson record) := by
  apply Json.printable_object (by simp)
  simp

theorem printable_changeJson (change : DependsOnChange) :
    Json.Printable (changeJson change) := by
  apply Json.printable_object (by simp)
  simp

theorem printable_supersededJson (entry : DependsOnSuperseded) :
    Json.Printable (supersededJson entry) := by
  apply Json.printable_object (by simp)
  simp

theorem printable_proposedJson (slice : SliceInput) :
    Json.Printable (proposedSliceJson slice) := by
  apply Json.printable_object (by simp)
  simp

theorem printable_planEventJson (event : PlanEvent) :
    Json.Printable (planEventJson event) := by
  apply Json.printable_object (planEventFields_keys event)
  cases event with
  | status_changed slice_id from_ to_ at_ evidence override =>
      simp [planEventFields, printable_overrideJson]
  | replan at_ note changed superseded added dropped =>
      simp [planEventFields, Json.printable_arr_map, printable_changeJson,
        printable_supersededJson, printable_proposedJson]
  | gate_passed slice_id evidence at_ => simp [planEventFields]
  | rehydrated at_ => simp [planEventFields]
  | restored from_rev at_ => simp [planEventFields]
  | scar_added signal at_ => simp [planEventFields]
  | status_reconciled from_ to_ at_ => simp [planEventFields]

/-!
## One append, as the reader sees it
-/

def unsortedEvents (file : JournalFile) : List OrderedThreadEvent :=
  match file with
  | none => []
  | some text => LineFile.readLines readEventLine text

theorem fileEvents_eq (file : JournalFile) :
    fileEvents file = bySeq (unsortedEvents file) := by
  cases file with
  | none => rfl
  | some text =>
      show bySeq (scannedEvents text) = _
      rw [scannedEvents_eq]
      rfl

theorem readLines_newFile
    {fields : List (String × Json)} (h : Json.Printable (Json.obj fields)) :
    LineFile.readLines readEventLine
        (journalHeader ++ (Json.stringify (Json.obj fields) ++ ['\n'])) =
      valueEvents (Json.obj fields) := by
  have hlast : journalHeader =
      "# Minni Plan Journal\n\n## events".toList ++ ['\n'] := by
    decide +kernel
  have hsplit : journalHeader ++ (Json.stringify (Json.obj fields) ++ ['\n']) =
      "# Minni Plan Journal\n\n## events".toList ++
        '\n' :: (Json.stringify (Json.obj fields) ++ '\n' :: []) := by
    rw [hlast, List.append_assoc]
    rfl
  have hheader : LineFile.readLines readEventLine
      "# Minni Plan Journal\n\n## events".toList = [] := by
    decide +kernel
  rw [hsplit, LineFile.readLines_append, LineFile.readLines_append,
    LineFile.readLines_line (Json.newline_not_mem_stringify _ h), hheader]
  show [] ++ (readEventLine (Json.stringify (Json.obj fields)) ++ []) = _
  rw [List.nil_append, List.append_nil]
  exact Json.readObjectLine_stringify h

/-- An append adds the events of its line, or none and then the writer is told
that it failed. -/
theorem unsortedEvents_appendJournalLine
    {fields : List (String × Json)} (file : JournalFile)
    (landing : LineFile.Landing) (h : Json.Printable (Json.obj fields)) :
    (unsortedEvents (appendJournalLine file (Json.obj fields) landing).1 =
        unsortedEvents file ∧
      (appendJournalLine file (Json.obj fields) landing).2 = false) ∨
    unsortedEvents (appendJournalLine file (Json.obj fields) landing).1 =
      unsortedEvents file ++ valueEvents (Json.obj fields) := by
  cases file with
  | some text => exact Json.readLines_appendObject text landing h
  | none =>
      cases landing with
      | landed => exact Or.inr (readLines_newFile h)
      | landedThrows => exact Or.inr (readLines_newFile h)
      | torn n damaged => exact Or.inl ⟨rfl, rfl⟩
      | lost => exact Or.inl ⟨rfl, rfl⟩

end Thread
end Minni
