import Mathlib.Algebra.Ring.Nat
import Minni.Thread.Events

/-!
# The event cursor

`readThreadEvents` and the byte-bounded load under it.  A journal is a list of
lines; a line is its length in bytes, newline included, and the ordered events
that the parser finds in it.
-/

namespace Minni
namespace Thread

open Foundation

structure JournalLine where
  bytes : Nat
  events : List OrderedThreadEvent

def ORDERED_JOURNAL_HEAD_PEEK_BYTES : Nat := 8 * 1024

def fileSize (journal : List JournalLine) : Nat :=
  (journal.map fun line => line.bytes).sum

def parseOrderedThreadEvents (journal : List JournalLine) :
    List OrderedThreadEvent :=
  (journal.flatMap fun line => line.events).insertionSort
    fun left right => left.seq ≤ right.seq

def isKept (event : OrderedThreadEvent) : Bool :=
  !isJournalGapKind event.kind

/-!
## Bounded reads

A read of the tail starts in the middle of a line, or at its very start, and
drops everything up to the next newline.  A read of the head keeps the complete
lines.
-/

/-- The lines that start after the offset `start`; the first of `journal`
starts at `offset`. -/
def linesAfter (start : Nat) : Nat -> List JournalLine -> List JournalLine
  | _, [] => []
  | offset, line :: rest =>
      if start < offset then
        line :: rest
      else
        linesAfter start (offset + line.bytes) rest

/-- The lines that end within the first `length` bytes. -/
def linesWithin (length : Nat) : List JournalLine -> List JournalLine
  | [] => []
  | line :: rest =>
      if line.bytes ≤ length then
        line :: linesWithin (length - line.bytes) rest
      else
        []

structure BoundedText where
  text : List JournalLine
  prefixTruncated : Bool

def readOrderedJournalTextBounded (journal : List JournalLine)
    (maxReadBytes : Nat) : BoundedText :=
  if fileSize journal ≤ maxReadBytes then
    { text := journal, prefixTruncated := false }
  else
    { text := linesAfter (fileSize journal - maxReadBytes) 0 journal
      prefixTruncated := true }

def peekOrderedJournalHead (journal : List JournalLine) :
    List OrderedThreadEvent :=
  if fileSize journal > ORDERED_JOURNAL_HEAD_PEEK_BYTES then
    parseOrderedThreadEvents
      (linesWithin ORDERED_JOURNAL_HEAD_PEEK_BYTES journal)
  else
    parseOrderedThreadEvents journal

def findCoveringGapMarker (ordered : List OrderedThreadEvent)
    (sinceSeq firstKeptSeq : Nat) : Option OrderedThreadEvent :=
  ordered.find? fun event =>
    match journalTruncationPayload event with
    | none => false
    | some payload =>
        payload.first_kept_seq = firstKeptSeq &&
          decide (sinceSeq < payload.first_kept_seq)

section Load

variable (sha256Hex : List Char -> String)

def synthesizeCursorGapForReadBound (firstKept : OrderedThreadEvent) :
    OrderedThreadEvent where
  seq := firstKept.seq - 1
  rev := firstKept.rev
  event_id :=
    let digest := sha256Hex (Json.stableStringify (Json.obj
      [("kind", Json.str CURSOR_GAP_KIND),
        ("last_dropped_seq", Json.int (firstKept.seq - 1 : Nat)),
        ("first_kept_seq", Json.int firstKept.seq)]))
    String.ofList (digest.toList.take 32)
  idempotency_key :=
    deriveSystemEventKey CURSOR_GAP_KIND
      [toString (firstKept.seq - 1), toString firstKept.seq]
  actor := "minni"
  kind := CURSOR_GAP_KIND
  at_ := firstKept.at_
  slice_id := none
  payload := some (Json.obj
    [("last_dropped_seq", Json.int (firstKept.seq - 1 : Nat)),
      ("first_kept_seq", Json.int firstKept.seq)])

def applyCursorReadBound (events : List OrderedThreadEvent)
    (prefixTruncated : Bool) : Option (List OrderedThreadEvent) :=
  if prefixTruncated then
    match events.find? isKept with
    | none => none
    | some firstKept =>
        if firstKept.seq ≤ 1 then
          some events
        else if events.any fun event =>
            match journalTruncationPayload event with
            | none => false
            | some payload => payload.first_kept_seq = firstKept.seq then
          some events
        else
          some (synthesizeCursorGapForReadBound sha256Hex firstKept :: events)
  else
    some events

def tailBoundWouldHideHole (journal : List JournalLine) (sinceSeq : Nat)
    (tailEvents : List OrderedThreadEvent)
    (tailFirstKept : OrderedThreadEvent) : Bool :=
  if (findCoveringGapMarker tailEvents sinceSeq tailFirstKept.seq).isSome then
    false
  else if tailFirstKept.seq ≤ sinceSeq + 1 then
    false
  else if sinceSeq > 0 then
    true
  else
    match (peekOrderedJournalHead journal).find? isKept with
    | none => true
    | some headFirstKept => decide (headFirstKept.seq > 1)

def loadOrderedEventsForCursor (journal : List JournalLine)
    (maxReadBytes sinceSeq : Nat) : List OrderedThreadEvent :=
  if maxReadBytes < 1 then
    parseOrderedThreadEvents journal
  else
    let loaded := readOrderedJournalTextBounded journal maxReadBytes
    if loaded.prefixTruncated then
      let tailEvents := parseOrderedThreadEvents loaded.text
      match tailEvents.find? isKept with
      | none => parseOrderedThreadEvents journal
      | some tailFirstKept =>
          if tailBoundWouldHideHole journal sinceSeq tailEvents
              tailFirstKept then
            parseOrderedThreadEvents journal
          else
            match applyCursorReadBound sha256Hex tailEvents true with
            | none => parseOrderedThreadEvents journal
            | some bounded => bounded
    else
      parseOrderedThreadEvents loaded.text

/-!
## The page
-/

structure ThreadCursorGapError where
  sinceSeq : Nat
  firstKeptSeq : Nat
deriving DecidableEq

structure EventPage where
  events : List OrderedThreadEvent
  next_seq : Nat

/-- The marker that explains the step from the cursor to the first kept event
after it, when that step skips anything. -/
def leadingGap (ordered : List OrderedThreadEvent) (sinceSeq : Nat) :
    Except ThreadCursorGapError (Option OrderedThreadEvent) :=
  match ordered.find? fun event => decide (event.seq > sinceSeq) && isKept event with
  | none => Except.ok none
  | some firstKept =>
      if firstKept.seq > sinceSeq + 1 then
        match findCoveringGapMarker ordered sinceSeq firstKept.seq with
        | none =>
            Except.error
              { sinceSeq := sinceSeq, firstKeptSeq := firstKept.seq }
        | some marker => Except.ok (some marker)
      else
        Except.ok none

def eventsAfter (ordered : List OrderedThreadEvent) (sinceSeq : Nat) :
    List OrderedThreadEvent :=
  ordered.filter fun event => event.seq > sinceSeq

/-- The marker comes first when it is not among the events of the page. -/
def frontOf (filtered : List OrderedThreadEvent) :
    Option OrderedThreadEvent -> List OrderedThreadEvent
  | none => []
  | some marker =>
      if filtered.any fun event => event.event_id = marker.event_id then
        []
      else
        [marker]

/-- The cursor that a page ending in `event` hands on. -/
def cursorAfter (event : OrderedThreadEvent) : Nat :=
  match journalTruncationPayload event with
  | none => event.seq
  | some payload => max event.seq (payload.first_kept_seq - 1)

def nextSeq (sinceSeq : Nat) (page : List OrderedThreadEvent) : Nat :=
  match page.getLast? with
  | none => sinceSeq
  | some last => cursorAfter last

def readThreadEvents (journal : List JournalLine)
    (maxReadBytes sinceSeq limit : Nat) :
    Except ThreadCursorGapError EventPage :=
  let ordered := loadOrderedEventsForCursor sha256Hex journal maxReadBytes
    sinceSeq
  match leadingGap ordered sinceSeq with
  | Except.error gap => Except.error gap
  | Except.ok lead =>
      let filtered := eventsAfter ordered sinceSeq
      let front := frontOf filtered lead
      let page := front ++ filtered.take (limit - front.length)
      Except.ok { events := page, next_seq := nextSeq sinceSeq page }

end Load

end Thread
end Minni
