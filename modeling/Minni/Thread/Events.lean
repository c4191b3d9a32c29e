import Minni.Foundation.Json

/-!
# Ordered thread events

The records of the ordered journal, the two wire kinds that announce a hole in
it, and the namespaced keys under which events are written.
-/

namespace Minni
namespace Thread

open Foundation

structure OrderedThreadEvent where
  seq : Nat
  rev : Nat
  event_id : String
  idempotency_key : String
  actor : String
  kind : String
  at_ : String
  slice_id : Option String
  payload : Option Json

/-!
## Holes

A gap marker names the last dropped and the first kept sequence number.  The
payload is read only when both are in order.
-/

def JOURNAL_TRUNCATION_KIND : String := "journal_truncated"

def CURSOR_GAP_KIND : String := "cursor_gap"

structure JournalTruncationPayload where
  last_dropped_seq : Nat
  first_kept_seq : Nat
  dropped_pos : 1 ≤ last_dropped_seq
  dropped_lt_kept : last_dropped_seq < first_kept_seq

def isJournalGapKind (kind : String) : Bool :=
  kind = JOURNAL_TRUNCATION_KIND || kind = CURSOR_GAP_KIND

def truncationBounds (lastDropped firstKept : Int) :
    Option JournalTruncationPayload :=
  if h : 1 ≤ lastDropped ∧ lastDropped < firstKept then
    some
      { last_dropped_seq := lastDropped.toNat
        first_kept_seq := firstKept.toNat
        dropped_pos := by omega
        dropped_lt_kept := by omega }
  else
    none

def journalTruncationPayload (event : OrderedThreadEvent) :
    Option JournalTruncationPayload :=
  if isJournalGapKind event.kind then
    match event.payload.bind fun payload =>
        (payload.field? "last_dropped_seq").bind Json.safeInteger? with
    | none => none
    | some lastDropped =>
        match event.payload.bind fun payload =>
            (payload.field? "first_kept_seq").bind Json.safeInteger? with
        | none => none
        | some firstKept => truncationBounds lastDropped firstKept
  else
    none

theorem gapKind_of_journalTruncationPayload
    {event : OrderedThreadEvent} {payload : JournalTruncationPayload}
    (h : journalTruncationPayload event = some payload) :
    isJournalGapKind event.kind = true := by
  unfold journalTruncationPayload at h
  split at h
  · assumption
  · cases h

/-!
## Keys
-/

def deriveSystemEventKey (kind : String) (parts : List String) : String :=
  "system:" ++ kind ++ ":" ++ String.intercalate ":" parts

def deriveReadyChangedKey (operationKey : String) : String :=
  operationKey ++ ":ready"

end Thread
end Minni
