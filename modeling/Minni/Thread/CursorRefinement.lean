import Minni.Thread.CursorHoles
import Minni.Thread.JournalIntegrity

/-!
# Bounded reads of an appended journal

A journal that is only appended to is numbered from one without a hole and has
no markers of its own.  After a cursor the bounded read is then the full read,
and a reader that starts before the journal misses at most a prefix, which the
first marker names.
-/

namespace Minni
namespace Thread

open Foundation

/-!
## Appended journals
-/

/-- A journal of ordered batches, whose kinds are the writers' own, and of lines
of other kinds. -/
structure Appended (journal : List JournalLine) : Prop where
  whole : JournalIntegrity (rawEvents journal)
  named : forall event, event ∈ rawEvents journal -> isKept event = true
  readable : forall event, event ∈ rawEvents journal -> isReadable event = true

theorem rawEvents_append (journal more : List JournalLine) :
    rawEvents (journal ++ more) = rawEvents journal ++ rawEvents more := by
  simp [rawEvents]

theorem materialize_kinds
    {host : Host} {planId : String} {batch : EventBatch}
    {specs : List EventSpec} :
    forall {ordered materialized : List OrderedThreadEvent} {seq : Nat},
      materializeBatchEvents host planId batch ordered seq specs =
        Except.ok materialized ->
      forall event, event ∈ materialized ->
        exists spec, spec ∈ specs ∧ event.kind = spec.kind := by
  induction specs with
  | nil =>
      intro ordered materialized seq hmade event hevent
      cases hmade
      cases hevent
  | cons spec specs ih =>
      intro ordered materialized seq hmade event hevent
      unfold materializeBatchEvents at hmade
      split at hmade
      · rename_i existing hexisting
        cases hassert : assertOperationIdentity existing batch.actor spec with
        | error e =>
            rw [hassert] at hmade
            cases hmade
        | ok checked =>
            rw [hassert] at hmade
            cases hrest : materializeBatchEvents host planId batch ordered seq
                specs with
            | error e =>
                rw [hrest] at hmade
                cases hmade
            | ok rest =>
                rw [hrest] at hmade
                cases hmade
                rcases List.mem_cons.mp hevent with rfl | hlater
                · refine ⟨spec, List.mem_cons_self .., ?_⟩
                  unfold assertOperationIdentity at hassert
                  split at hassert
                  · rename_i hmatches
                    simp only [operationIdentityMatches, Bool.and_eq_true,
                      decide_eq_true_eq] at hmatches
                    exact hmatches.left.left.right
                  · cases hassert
                · rcases ih hrest event hlater with ⟨other, hother, hkind⟩
                  exact ⟨other, List.mem_cons_of_mem _ hother, hkind⟩
      · dsimp only at hmade
        cases hrest : materializeBatchEvents host planId batch
            (ordered ++ [freshEvent host planId batch seq spec]) (seq + 1)
            specs with
        | error e =>
            rw [hrest] at hmade
            cases hmade
        | ok rest =>
            rw [hrest] at hmade
            cases hmade
            rcases List.mem_cons.mp hevent with rfl | hlater
            · exact ⟨spec, List.mem_cons_self .., rfl⟩
            · rcases ih hrest event hlater with ⟨other, hother, hkind⟩
              exact ⟨other, List.mem_cons_of_mem _ hother, hkind⟩

def newEvents (journal materialized : List OrderedThreadEvent) :
    List OrderedThreadEvent :=
  materialized.filter fun event =>
    (findOrderedEventByIdempotencyKey journal event.idempotency_key).isNone

/-- The line of one batch keeps a journal appended. -/
theorem Appended.batch
    {journal : List JournalLine} (h : Appended journal) (host : Host)
    {planId : String} {batch : OrderedBatch}
    {materialized : List OrderedThreadEvent} {line : JournalLine}
    (hkinds : forall spec, spec ∈ batch.events ->
      isJournalGapKind spec.kind = false)
    (hmade : materializeBatchEvents host planId batch.toEventBatch
      (rawEvents journal) (nextSequence (rawEvents journal)) batch.events =
        Except.ok materialized)
    (hline : line.events = (newEvents (rawEvents journal)
      materialized).filter isReadable) :
    Appended (journal ++ [line]) := by
  have hraw : rawEvents (journal ++ [line]) =
      rawEvents journal ++ line.events := by
    rw [rawEvents_append]
    simp [rawEvents]
  have hnext := hmade
  rw [nextSequence_ordered h.whole.seqs] at hnext
  have hfresh := freshEvents_materialize batch.keys_differ (fun _ _ => rfl)
    hnext
  have hsub : line.events.Sublist (newEvents (rawEvents journal)
      materialized) := by
    rw [hline]
    exact List.filter_sublist
  rcases readable_prefix hfresh (by omega) with ⟨hidden, hhidden⟩
  constructor
  · rw [hraw]
    apply integrity_append h.whole
    · have hseqs := hfresh.seqs
      rw [<- hhidden] at hseqs
      rw [hline]
      exact map_seq_prefix hseqs
    · exact ((hsub.map _).trans hfresh.keys).nodup batch.keys_differ
    · intro event hevent
      exact hfresh.new event (hsub.subset hevent)
  · intro event hevent
    rw [hraw] at hevent
    rcases List.mem_append.mp hevent with hold | hnew
    · exact h.named event hold
    · have hmem := List.mem_of_mem_filter (hsub.subset hnew)
      rcases materialize_kinds hmade event hmem with ⟨spec, hspec, hkind⟩
      unfold isKept
      rw [hkind, hkinds spec hspec]
      rfl
  · intro event hevent
    rw [hraw] at hevent
    rcases List.mem_append.mp hevent with hold | hnew
    · exact h.readable event hold
    · rw [hline] at hnew
      exact (List.mem_filter.mp hnew).right

/-- A line without ordered events keeps it too. -/
theorem Appended.other
    {journal : List JournalLine} (h : Appended journal) {line : JournalLine}
    (hline : line.events = []) :
    Appended (journal ++ [line]) := by
  have hraw : rawEvents (journal ++ [line]) = rawEvents journal := by
    rw [rawEvents_append]
    simp [rawEvents, hline]
  constructor
  · rw [hraw]
    exact h.whole
  · rw [hraw]
    exact h.named
  · rw [hraw]
    exact h.readable

/-- The journals that are written by ordered batches.  No caller gives an event
one of the two gap kinds; the parser reads what it takes of a written line, and
the lines of the older format have no ordered events. -/
inductive Written (host : Host) : List JournalLine -> Prop where
  | empty : Written host []
  | batch {journal : List JournalLine} {planId : String}
      {batch : OrderedBatch} {materialized : List OrderedThreadEvent}
      {line : JournalLine} (before : Written host journal)
      (kinds : forall spec, spec ∈ batch.events ->
        isJournalGapKind spec.kind = false)
      (made : materializeBatchEvents host planId batch.toEventBatch
        (rawEvents journal) (nextSequence (rawEvents journal)) batch.events =
          Except.ok materialized)
      (parsed : line.events = (newEvents (rawEvents journal)
        materialized).filter isReadable) :
      Written host (journal ++ [line])
  | other {journal : List JournalLine} {line : JournalLine}
      (before : Written host journal) (parsed : line.events = []) :
      Written host (journal ++ [line])

theorem Written.appended
    {host : Host} {journal : List JournalLine} (h : Written host journal) :
    Appended journal := by
  induction h with
  | empty =>
      constructor
      · exact ⟨rfl, List.nodup_nil⟩
      · intro event hevent
        cases hevent
      · intro event hevent
        cases hevent
  | batch before kinds made parsed ih =>
      exact ih.batch host kinds made parsed
  | other before parsed ih =>
      exact ih.other parsed

/-!
## Numbered lists

Events that are numbered one after the other are cut by their numbers as by
their positions.
-/

/-- The events are numbered from `start` on. -/
def Numbered (start : Nat) (events : List OrderedThreadEvent) : Prop :=
  events.map (·.seq) = List.range' start events.length

theorem Numbered.tail
    {start : Nat} {event : OrderedThreadEvent}
    {rest : List OrderedThreadEvent} (h : Numbered start (event :: rest)) :
    event.seq = start ∧ Numbered (start + 1) rest := by
  unfold Numbered at h
  rw [List.map_cons, List.length_cons, List.range'_succ] at h
  injection h with hseq hrest
  exact ⟨hseq, hrest⟩

theorem Numbered.drop
    {start : Nat} {events : List OrderedThreadEvent}
    (h : Numbered start events) (count : Nat) :
    Numbered (start + count) (events.drop count) := by
  induction count generalizing start events with
  | zero => exact h
  | succ count ih =>
      cases events with
      | nil => exact rfl
      | cons event rest =>
          have hrest := ih h.tail.right
          rw [show start + (count + 1) = start + 1 + count by omega]
          exact hrest

theorem Numbered.take
    {start : Nat} {events : List OrderedThreadEvent}
    (h : Numbered start events) (count : Nat) :
    Numbered start (events.take count) := by
  have happend : Numbered start (events.take count ++ events.drop count) := by
    rw [List.take_append_drop]
    exact h
  exact map_seq_prefix happend

theorem Numbered.append
    {start : Nat} {events more : List OrderedThreadEvent}
    (h : Numbered start (events ++ more)) :
    Numbered start events ∧ Numbered (start + events.length) more := by
  constructor
  · exact map_seq_prefix h
  · have hdrop := h.drop events.length
    rw [List.drop_left] at hdrop
    exact hdrop

theorem Numbered.increasing
    {start : Nat} {events : List OrderedThreadEvent}
    (h : Numbered start events) :
    Increasing events := by
  have hlt : (events.map (·.seq)).Pairwise (· < ·) := by
    rw [h]
    exact List.pairwise_lt_range' 1
  rw [List.pairwise_map] at hlt
  exact hlt

theorem Numbered.bounds
    {start : Nat} {events : List OrderedThreadEvent}
    (h : Numbered start events) {event : OrderedThreadEvent}
    (hevent : event ∈ events) :
    start ≤ event.seq ∧ event.seq < start + events.length := by
  have hseq : event.seq ∈ events.map (·.seq) :=
    List.mem_map.mpr ⟨event, hevent, rfl⟩
  rw [h] at hseq
  exact List.mem_range'_1.mp hseq

theorem Numbered.after
    {start : Nat} {events : List OrderedThreadEvent}
    (h : Numbered start events) (cursor : Nat) :
    eventsAfter events cursor = events.drop (cursor + 1 - start) := by
  induction events generalizing start with
  | nil => simp [eventsAfter]
  | cons event rest ih =>
      rcases h.tail with ⟨hseq, hrest⟩
      by_cases hafter : cursor < start
      · have hzero : cursor + 1 - start = 0 := by omega
        rw [hzero, List.drop_zero]
        apply List.filter_eq_self.mpr
        intro other hother
        have hbound := (h.bounds hother).left
        simp only [gt_iff_lt, decide_eq_true_eq]
        omega
      · have hone : cursor + 1 - start = (cursor + 1 - (start + 1)) + 1 := by
          omega
        rw [hone, List.drop_succ_cons, <- ih hrest]
        unfold eventsAfter
        rw [List.filter_cons_of_neg]
        simp only [gt_iff_lt, decide_eq_true_eq]
        omega

theorem Numbered.upto
    {start : Nat} {events : List OrderedThreadEvent}
    (h : Numbered start events) (cursor : Nat) :
    events.filter (fun event => event.seq ≤ cursor) =
      events.take (cursor + 1 - start) := by
  induction events generalizing start with
  | nil => simp
  | cons event rest ih =>
      rcases h.tail with ⟨hseq, hrest⟩
      by_cases hafter : cursor < start
      · have hzero : cursor + 1 - start = 0 := by omega
        rw [hzero, List.take_zero]
        apply List.filter_eq_nil_iff.mpr
        intro other hother
        have hbound := (h.bounds hother).left
        simp only [decide_eq_true_eq]
        omega
      · have hone : cursor + 1 - start = (cursor + 1 - (start + 1)) + 1 := by
          omega
        rw [hone, List.take_succ_cons, <- ih hrest]
        rw [List.filter_cons_of_pos]
        simp only [decide_eq_true_eq]
        omega

/-- The events after one cursor up to another. -/
def between (events : List OrderedThreadEvent) (lower upper : Nat) :
    List OrderedThreadEvent :=
  (eventsAfter events lower).filter fun event => event.seq ≤ upper

theorem Numbered.between
    {events : List OrderedThreadEvent} (h : Numbered 1 events)
    (lower count : Nat) :
    between events lower (lower + count) = (events.drop lower).take count := by
  unfold Thread.between
  rw [h.after, show lower + 1 - 1 = lower by omega,
    (h.drop lower).upto, show lower + count + 1 - (1 + lower) = count by omega]

/-- The cursor that a numbered page hands on. -/
theorem Numbered.next
    {cursor : Nat} {page : List OrderedThreadEvent}
    (h : Numbered (cursor + 1) page)
    (hkept : forall event, event ∈ page -> isKept event = true) :
    nextSeq cursor page = cursor + page.length := by
  unfold nextSeq
  cases hlast : page.getLast? with
  | none =>
      rw [List.getLast?_eq_none_iff.mp hlast]
      rfl
  | some last =>
      have hmem := List.mem_of_getLast? hlast
      dsimp only
      rw [cursorAfter_of_kept (hkept last hmem)]
      have hseq := congrArg List.getLast? h
      rw [List.getLast?_map, hlast, List.getLast?_range'] at hseq
      have hlength : page.length ≠ 0 := by
        intro hzero
        rw [List.length_eq_zero_iff.mp hzero] at hmem
        cases hmem
      rw [if_neg hlength, Option.map_some] at hseq
      have hlast := Option.some.inj hseq
      omega

/-!
## What the bounded load returns

The tail of an appended journal has no marker, so the load either is the whole
journal or puts a synthesized marker before the tail.
-/

section Load

variable (sha256Hex : List Char -> String) {journal : List JournalLine}

theorem Appended.numbered (h : Appended journal) :
    Numbered 1 (rawEvents journal) :=
  h.whole.seqs

theorem payload_of_kept
    {event : OrderedThreadEvent} (h : isKept event = true) :
    journalTruncationPayload event = none := by
  cases hpayload : journalTruncationPayload event with
  | none => rfl
  | some payload =>
      have hgap := gapKind_of_journalTruncationPayload hpayload
      simp [isKept, hgap] at h

theorem find_isKept
    {events : List OrderedThreadEvent}
    (h : forall event, event ∈ events -> isKept event = true) :
    events.find? isKept = events.head? := by
  cases events with
  | nil => rfl
  | cons event rest =>
      rw [List.find?_cons_of_pos (h event (List.mem_cons_self ..))]
      rfl

theorem findCoveringGapMarker_kept
    {events : List OrderedThreadEvent}
    (h : forall event, event ∈ events -> isKept event = true)
    (sinceSeq firstKeptSeq : Nat) :
    findCoveringGapMarker events sinceSeq firstKeptSeq = none := by
  apply List.find?_eq_none.mpr
  intro event hevent
  rw [payload_of_kept (h event hevent)]
  simp

theorem applyCursorReadBound_kept
    {tail : List OrderedThreadEvent} {first : OrderedThreadEvent}
    (h : forall event, event ∈ tail -> isKept event = true)
    (hfirst : tail.head? = some first) :
    applyCursorReadBound sha256Hex tail true =
      some (if first.seq ≤ 1 then
        tail
      else
        synthesizeCursorGapForReadBound sha256Hex first :: tail) := by
  have hnone : forall event, event ∈ tail ->
      journalTruncationPayload event = none := by
    intro event hevent
    exact payload_of_kept (h event hevent)
  unfold applyCursorReadBound
  rw [find_isKept h, hfirst]
  by_cases hstart : first.seq ≤ 1
  · simp [hstart]
  · simp only [if_true, if_neg hstart]
    rw [if_neg]
    rw [Bool.not_eq_true]
    apply List.any_eq_false.mpr
    intro event hevent
    rw [hnone event hevent]
    simp

/-- The window of a cursor: everything, or a marker and the events after the
first `dropped` ones. -/
def Bounded (sha256Hex : List Char -> String)
    (events : List OrderedThreadEvent) (sinceSeq : Nat)
    (window : List OrderedThreadEvent) : Prop :=
  exists dropped first, 1 ≤ dropped ∧
    (events.drop dropped).head? = some first ∧
    (sinceSeq = 0 ∨ dropped ≤ sinceSeq) ∧
    window = synthesizeCursorGapForReadBound sha256Hex first ::
      events.drop dropped

theorem Appended.window
    (h : Appended journal) (maxReadBytes sinceSeq : Nat) :
    windowAt sha256Hex journal maxReadBytes sinceSeq = rawEvents journal ∨
      Bounded sha256Hex (rawEvents journal) sinceSeq
        (windowAt sha256Hex journal maxReadBytes sinceSeq) := by
  have hinc := h.numbered.increasing
  have hparse := parse_of_increasing hinc
  by_cases hfull : maxReadBytes < 1
  · left
    simp [windowAt, loadOrderedEventsForCursor, hfull, hparse]
  by_cases hsmall : fileSize journal ≤ maxReadBytes
  · left
    simp [windowAt, loadOrderedEventsForCursor, hfull,
      readOrderedJournalTextBounded, hsmall, hparse]
  rcases linesAfter_events (fileSize journal - maxReadBytes) hinc with
    ⟨skipped, hevents, _⟩
  generalize htail : parseOrderedThreadEvents
    (linesAfter (fileSize journal - maxReadBytes) 0 journal) = tail at hevents
  have hkept : forall event, event ∈ tail -> isKept event = true := by
    intro event hevent
    apply h.named event
    rw [hevents]
    exact List.mem_append_right _ hevent
  have hdrop : (rawEvents journal).drop skipped.length = tail := by
    rw [hevents, List.drop_left]
  cases hfirst : tail.head? with
  | none =>
      left
      have hfind : tail.find? isKept = none := by
        rw [find_isKept hkept, hfirst]
      simp [windowAt, loadOrderedEventsForCursor, hfull,
        readOrderedJournalTextBounded, hsmall, hparse, htail, hfind]
  | some first =>
      have hfind : tail.find? isKept = some first := by
        rw [find_isKept hkept, hfirst]
      have hbound := applyCursorReadBound_kept sha256Hex hkept hfirst
      cases hhide : tailBoundWouldHideHole journal sinceSeq tail first with
      | true =>
          left
          simp [windowAt, loadOrderedEventsForCursor, hfull,
            readOrderedJournalTextBounded, hsmall, hparse, htail, hfind, hhide]
      | false =>
          have hseq : first.seq = 1 + skipped.length := by
            have hnumbered := h.numbered.drop skipped.length
            rw [hdrop] at hnumbered
            rcases List.head?_eq_some_iff.mp hfirst with ⟨rest, hrest⟩
            rw [hrest] at hnumbered
            exact hnumbered.tail.left
          have hwindow :
              windowAt sha256Hex journal maxReadBytes sinceSeq =
                if first.seq ≤ 1 then
                  tail
                else
                  synthesizeCursorGapForReadBound sha256Hex first :: tail := by
            simp [windowAt, loadOrderedEventsForCursor, hfull,
              readOrderedJournalTextBounded, hsmall, htail, hfind, hhide,
              hbound]
          by_cases hstart : first.seq ≤ 1
          · left
            rw [hwindow, if_pos hstart, hevents,
              List.length_eq_zero_iff.mp (by omega : skipped.length = 0)]
            rfl
          · right
            rw [hwindow, if_neg hstart]
            exists skipped.length, first
            rw [hdrop]
            have hnear : sinceSeq = 0 ∨ skipped.length ≤ sinceSeq := by
              rcases tailBoundWouldHideHole_false hhide with
                hmarker | hnear | hzero
              · rw [findCoveringGapMarker_kept hkept] at hmarker
                cases hmarker
              · right
                omega
              · exact Or.inl hzero
            exact ⟨by omega, hfirst, hnear, rfl⟩

/-!
## One poll
-/

/-- The marker names the numbers up to `dropped`. -/
structure GapMarker (marker : OrderedThreadEvent) (dropped : Nat) : Prop where
  kind : marker.kind = CURSOR_GAP_KIND
  seq : marker.seq = dropped
  payload : exists payload, journalTruncationPayload marker = some payload ∧
    payload.last_dropped_seq = dropped ∧ payload.first_kept_seq = dropped + 1

theorem journalTruncationPayload_eq
    {event : OrderedThreadEvent} {lastDropped firstKept : Int}
    (hkind : event.kind = CURSOR_GAP_KIND)
    (hpayload : event.payload = some (Json.obj
      [("last_dropped_seq", Json.int lastDropped),
        ("first_kept_seq", Json.int firstKept)]))
    (hlast : Json.isSafeInteger lastDropped = true)
    (hfirst : Json.isSafeInteger firstKept = true) :
    journalTruncationPayload event =
      truncationBounds lastDropped firstKept := by
  have hlast' : (Json.obj
      [("last_dropped_seq", Json.int lastDropped),
        ("first_kept_seq", Json.int firstKept)]).field? "last_dropped_seq" =
          some (Json.int lastDropped) := rfl
  have hfirst' : (Json.obj
      [("last_dropped_seq", Json.int lastDropped),
        ("first_kept_seq", Json.int firstKept)]).field? "first_kept_seq" =
          some (Json.int firstKept) := rfl
  have hsafe : forall n, Json.isSafeInteger n = true ->
      Json.safeInteger? (Json.int n) = some n := by
    intro n hn
    simp [Json.safeInteger?, Json.int, hn]
  unfold journalTruncationPayload
  rw [if_pos (by simp [isJournalGapKind, hkind]), hpayload]
  simp only [Option.bind_some, hlast', hfirst', hsafe _ hlast,
    hsafe _ hfirst]

theorem isSafeInteger_of_le
    {n m : Nat} (hle : n ≤ m)
    (hm : Json.isSafeInteger (m : Int) = true) :
    Json.isSafeInteger (n : Int) = true := by
  unfold Json.isSafeInteger at hm ⊢
  simp only [Bool.and_eq_true, decide_eq_true_eq] at hm ⊢
  have hcast : (n : Int) ≤ (m : Int) := Int.ofNat_le.mpr hle
  have hzero : (0 : Int) ≤ Json.maxSafeInteger := by decide
  omega

theorem gapMarker_synthesized
    {first : OrderedThreadEvent} {dropped : Nat}
    (hreadable : isReadable first = true) (hseq : first.seq = dropped + 1)
    (hpos : 1 ≤ dropped) :
    GapMarker (synthesizeCursorGapForReadBound sha256Hex first) dropped := by
  unfold isReadable at hreadable
  simp only [Bool.and_eq_true] at hreadable
  have hfirst := hreadable.left.left
  have hlast : Json.isSafeInteger ((first.seq - 1 : Nat) : Int) = true :=
    isSafeInteger_of_le (Nat.sub_le first.seq 1) hfirst
  have hpayload := journalTruncationPayload_eq
    (rfl : (synthesizeCursorGapForReadBound sha256Hex first).kind = _) rfl
    hlast hfirst
  have hbounds : 1 ≤ ((first.seq - 1 : Nat) : Int) ∧
      ((first.seq - 1 : Nat) : Int) < ((first.seq : Nat) : Int) := by
    omega
  rw [truncationBounds, dif_pos hbounds] at hpayload
  constructor
  · rfl
  · show first.seq - 1 = dropped
    omega
  · refine ⟨_, hpayload, ?_, ?_⟩
    · show ((first.seq - 1 : Nat) : Int).toNat = dropped
      omega
    · show ((first.seq : Nat) : Int).toNat = dropped + 1
      omega

/-- Behind the marker the window is a part of the journal. -/
theorem explained_raw
    (h : Appended journal) {ordered : List OrderedThreadEvent} {cursor : Nat}
    (hafter : eventsAfter ordered cursor =
      (rawEvents journal).drop cursor) :
    Explained ordered cursor ∧
      windowAfter ordered cursor = (rawEvents journal).drop cursor := by
  have hdrop := h.numbered.drop cursor
  have hkept : kept ((rawEvents journal).drop cursor) =
      (rawEvents journal).drop cursor := by
    apply List.filter_eq_self.mpr
    intro event hevent
    exact h.named event (List.mem_of_mem_drop hevent)
  have hnext : forall first, firstKeptAfter ordered cursor = some first ->
      first.seq = 1 + cursor := by
    intro first hfirst
    rw [firstKeptAfter_eq_head, hafter, hkept] at hfirst
    rcases List.head?_eq_some_iff.mp hfirst with ⟨rest, hrest⟩
    rw [hrest] at hdrop
    exact hdrop.tail.left
  constructor
  · intro first hfirst
    have hseq := hnext first hfirst
    left
    omega
  · have hnone : explainingMarker ordered cursor = none := by
      unfold explainingMarker
      cases hfirst : firstKeptAfter ordered cursor with
      | none => rfl
      | some first =>
          have hseq := hnext first hfirst
          dsimp only
          rw [if_neg (by omega)]
    unfold windowAfter
    rw [hnone, hafter]
    rfl

theorem eventsAfter_synthesized
    (h : Appended journal) {first : OrderedThreadEvent} {dropped cursor : Nat}
    (hfirst : ((rawEvents journal).drop dropped).head? = some first)
    (hle : dropped ≤ cursor) :
    eventsAfter (synthesizeCursorGapForReadBound sha256Hex first ::
      (rawEvents journal).drop dropped) cursor =
        (rawEvents journal).drop cursor := by
  have hdrop := h.numbered.drop dropped
  have hseq : first.seq = 1 + dropped := by
    rcases List.head?_eq_some_iff.mp hfirst with ⟨rest, hrest⟩
    rw [hrest] at hdrop
    exact hdrop.tail.left
  have hmarker : ¬ (synthesizeCursorGapForReadBound sha256Hex first).seq >
      cursor := by
    show ¬ first.seq - 1 > cursor
    omega
  have hcons : eventsAfter (synthesizeCursorGapForReadBound sha256Hex first ::
      (rawEvents journal).drop dropped) cursor =
        eventsAfter ((rawEvents journal).drop dropped) cursor := by
    unfold eventsAfter
    rw [List.filter_cons_of_neg]
    simpa using hmarker
  rw [hcons, hdrop.after, List.drop_drop]
  congr 1
  omega

/-- After a cursor the bound changes nothing. -/
theorem Appended.afterCursor
    (h : Appended journal) (maxReadBytes : Nat) {cursor : Nat}
    (hpos : 0 < cursor) :
    Explained (windowAt sha256Hex journal maxReadBytes cursor) cursor ∧
      windowAfter (windowAt sha256Hex journal maxReadBytes cursor) cursor =
        (rawEvents journal).drop cursor := by
  apply explained_raw h
  rcases h.window sha256Hex maxReadBytes cursor with
    hraw | hbounded
  · rw [hraw, h.numbered.after]
    rfl
  · rcases hbounded with ⟨dropped, first, _, hfirst, hnear, hwindow⟩
    rw [hwindow]
    apply eventsAfter_synthesized sha256Hex h hfirst
    omega

theorem Appended.poll
    (h : Appended journal) (maxReadBytes : Nat) {cursor limit : Nat}
    (hpos : 0 < cursor) (hlimit : 1 ≤ limit) :
    readThreadEvents sha256Hex journal maxReadBytes cursor limit =
      Except.ok
        { events := ((rawEvents journal).drop cursor).take limit
          next_seq := cursor +
            (((rawEvents journal).drop cursor).take limit).length } := by
  rcases h.afterCursor sha256Hex maxReadBytes hpos with
    ⟨hexplained, hwindow⟩
  have hnumbered : Numbered (cursor + 1)
      (((rawEvents journal).drop cursor).take limit) := by
    rw [Nat.add_comm]
    exact (h.numbered.drop cursor).take limit
  have hnext := hnumbered.next fun event hevent =>
    h.named event (List.mem_of_mem_drop (List.mem_of_mem_take hevent))
  rw [readThreadEvents_of_explained hlimit hexplained, hwindow, hnext]

/-- A reader that has everything up to the cursor, or everything after the
numbers that its marker names. -/
def Received (events : List OrderedThreadEvent) (read : EventPage) : Prop :=
  read.events = between events 0 read.next_seq ∨
    exists dropped marker, GapMarker marker dropped ∧
      dropped ≤ read.next_seq ∧
      read.events = marker :: between events dropped read.next_seq

/-- A poll moves the cursor to the right, and not past the journal. -/
structure Moves (events : List OrderedThreadEvent) (cursor next : Nat) :
    Prop where
  forward : cursor ≤ next
  inside : next ≤ max cursor events.length
  progress : cursor < events.length -> cursor < next

theorem nextSeq_marker
    {marker : OrderedThreadEvent} {dropped limit : Nat}
    {tail : List OrderedThreadEvent} (hmarker : GapMarker marker dropped)
    (hnumbered : Numbered (1 + dropped) tail)
    (hkept : forall event, event ∈ tail -> isKept event = true)
    (hlimit : 1 ≤ limit) :
    nextSeq 0 ((marker :: tail).take limit) =
      dropped + (tail.take (limit - 1)).length := by
  have hnumbered' : Numbered (dropped + 1) (tail.take (limit - 1)) := by
    rw [Nat.add_comm]
    exact hnumbered.take (limit - 1)
  have hnext := hnumbered'.next fun event hevent =>
    hkept event (List.mem_of_mem_take hevent)
  rw [List.take_cons (by omega)]
  cases hpage : tail.take (limit - 1) with
  | nil =>
      rcases hmarker.payload with ⟨payload, hpayload, _, hfirst⟩
      have hseq := hmarker.seq
      simp only [nextSeq, List.getLast?_singleton, cursorAfter, hpayload,
        List.length_nil]
      omega
  | cons event rest =>
      rw [hpage] at hnext
      rw [<- hnext]
      unfold nextSeq
      rw [List.getLast?_cons_cons, List.getLast?_cons]

theorem explained_marker
    (h : Appended journal) {first : OrderedThreadEvent} {dropped : Nat}
    (hpos : 1 ≤ dropped)
    (hfirst : ((rawEvents journal).drop dropped).head? = some first) :
    GapMarker (synthesizeCursorGapForReadBound sha256Hex first) dropped ∧
      Explained (synthesizeCursorGapForReadBound sha256Hex first ::
        (rawEvents journal).drop dropped) 0 ∧
      windowAfter (synthesizeCursorGapForReadBound sha256Hex first ::
          (rawEvents journal).drop dropped) 0 =
        synthesizeCursorGapForReadBound sha256Hex first ::
          (rawEvents journal).drop dropped := by
  have hdrop := h.numbered.drop dropped
  have hmem : first ∈ rawEvents journal :=
    List.mem_of_mem_drop (List.mem_of_head? hfirst)
  have hseq : first.seq = dropped + 1 := by
    rcases List.head?_eq_some_iff.mp hfirst with ⟨rest, hrest⟩
    rw [hrest] at hdrop
    rw [hdrop.tail.left, Nat.add_comm]
  have hmarker := gapMarker_synthesized sha256Hex (h.readable first hmem) hseq
    hpos
  have hmarkerSeq := hmarker.seq
  have hnotKept : isKept (synthesizeCursorGapForReadBound sha256Hex first) =
      false := by
    unfold isKept isJournalGapKind
    rw [hmarker.kind]
    simp
  generalize synthesizeCursorGapForReadBound sha256Hex first = marker at *
  have hafter : eventsAfter (marker :: (rawEvents journal).drop dropped) 0 =
      marker :: (rawEvents journal).drop dropped := by
    apply List.filter_eq_self.mpr
    intro event hevent
    simp only [gt_iff_lt, decide_eq_true_eq]
    rcases List.mem_cons.mp hevent with heq | hrest
    · rw [heq]
      omega
    · have hbound := (hdrop.bounds hrest).left
      omega
  have hkept : kept (marker :: (rawEvents journal).drop dropped) =
      (rawEvents journal).drop dropped := by
    unfold kept
    rw [List.filter_cons_of_neg (by simp [hnotKept])]
    apply List.filter_eq_self.mpr
    intro event hevent
    exact h.named event (List.mem_of_mem_drop hevent)
  have hfirstKept : firstKeptAfter
      (marker :: (rawEvents journal).drop dropped) 0 = some first := by
    rw [firstKeptAfter_eq_head, hafter, hkept]
    exact hfirst
  have hcover : findCoveringGapMarker
      (marker :: (rawEvents journal).drop dropped) 0 first.seq =
        some marker := by
    rcases hmarker.payload with ⟨payload, hpayload, _, hbound⟩
    unfold findCoveringGapMarker
    apply List.find?_cons_of_pos
    rw [hpayload]
    simp [hbound, hseq]
  constructor
  · exact hmarker
  constructor
  · intro event hevent
    rw [hfirstKept] at hevent
    cases hevent
    right
    rw [hcover]
    rfl
  · have hexplaining : explainingMarker
        (marker :: (rawEvents journal).drop dropped) 0 = some marker := by
      unfold explainingMarker
      rw [hfirstKept]
      dsimp only
      rw [if_pos (by omega), hcover]
    unfold windowAfter
    rw [hexplaining, hafter]
    simp [frontOf]

theorem Appended.firstPoll
    (h : Appended journal) (maxReadBytes : Nat) {limit : Nat}
    (hlimit : 1 ≤ limit) :
    exists page,
      readThreadEvents sha256Hex journal maxReadBytes 0 limit =
        Except.ok page ∧
      Received (rawEvents journal) page ∧
      Moves (rawEvents journal) 0 page.next_seq := by
  have hbetween := h.numbered.between
  rcases h.window sha256Hex maxReadBytes 0 with
    hraw | hbounded
  · have hafter : eventsAfter (rawEvents journal) 0 =
        (rawEvents journal).drop 0 := h.numbered.after 0
    have hnumbered : Numbered (0 + 1) ((rawEvents journal).take limit) :=
      h.numbered.take limit
    have hnext := hnumbered.next fun event hevent =>
      h.named event (List.mem_of_mem_take hevent)
    rcases explained_raw h hafter with ⟨hexplained, hwindow⟩
    rw [<- hraw] at hexplained hwindow
    rw [readThreadEvents_of_explained hlimit hexplained, hraw]
    rw [hraw] at hwindow
    rw [hwindow, List.drop_zero, hnext]
    refine ⟨_, rfl, Or.inl ?_, ?_⟩
    · rw [hbetween, List.drop_zero, List.length_take]
      rw [List.take_eq_take_iff]
      omega
    · constructor
      · exact Nat.zero_le _
      · simp
      · intro hlt
        simp only [List.length_take]
        omega
  · rcases hbounded with ⟨dropped, first, hpos, hfirst, _, hbounded⟩
    rcases explained_marker sha256Hex h hpos hfirst with
      ⟨hmarker, hexplained, hwindow⟩
    have hshort : dropped < (rawEvents journal).length := by
      have hne : (rawEvents journal).drop dropped ≠ [] := by
        intro hnil
        rw [hnil] at hfirst
        cases hfirst
      rw [ne_eq, List.drop_eq_nil_iff] at hne
      omega
    have hkept : forall event, event ∈ (rawEvents journal).drop dropped ->
        isKept event = true := by
      intro event hevent
      exact h.named event (List.mem_of_mem_drop hevent)
    have hnext := nextSeq_marker hmarker (h.numbered.drop dropped) hkept hlimit
    rw [<- hbounded] at hexplained hwindow
    rw [readThreadEvents_of_explained hlimit hexplained, hwindow, hbounded,
      hnext]
    refine ⟨_, rfl, Or.inr ⟨dropped, _, hmarker, Nat.le_add_right _ _, ?_⟩, ?_⟩
    · dsimp only
      rw [hbetween, List.take_cons (by omega), List.length_take,
        List.take_eq_take_iff.mpr]
      omega
    · constructor
      · exact Nat.zero_le _
      · dsimp only
        rw [List.length_take, List.length_drop]
        omega
      · intro _
        dsimp only
        omega

/-!
## A reader of a growing journal
-/

structure Poll where
  journal : List JournalLine
  maxReadBytes : Nat
  limit : Nat

/-- A reader that hands each page's cursor to the next poll. -/
def readPolls :
    Nat -> List Poll -> Except ThreadCursorGapError EventPage
  | sinceSeq, [] => Except.ok { events := [], next_seq := sinceSeq }
  | sinceSeq, poll :: polls =>
      match readThreadEvents sha256Hex poll.journal poll.maxReadBytes sinceSeq
          poll.limit with
      | Except.error gap => Except.error gap
      | Except.ok page =>
          match readPolls page.next_seq polls with
          | Except.error gap => Except.error gap
          | Except.ok rest =>
              Except.ok
                { events := page.events ++ rest.events
                  next_seq := rest.next_seq }

/-- The poll sees a state of the journal on its way to `events`. -/
structure Poll.Sees (poll : Poll) (events : List OrderedThreadEvent) :
    Prop where
  appended : Appended poll.journal
  grows : rawEvents poll.journal <+: events
  limit : 1 ≤ poll.limit

variable {events : List OrderedThreadEvent}

theorem between_prefix
    {seen : List OrderedThreadEvent} (h : Numbered 1 events)
    (hgrows : seen <+: events) (lower : Nat) {upper : Nat}
    (hupper : upper ≤ seen.length) :
    between seen lower upper = between events lower upper := by
  rcases hgrows with ⟨more, hmore⟩
  rw [<- hmore] at h ⊢
  rcases h.append with ⟨_, hmoreNumbered⟩
  have hnone : (eventsAfter more lower).filter
      (fun event => event.seq ≤ upper) = [] := by
    apply List.filter_eq_nil_iff.mpr
    intro event hevent
    have hbound := (hmoreNumbered.bounds (mem_eventsAfter.mp hevent).left).left
    simp only [decide_eq_true_eq]
    omega
  unfold between
  rw [show eventsAfter (seen ++ more) lower =
      eventsAfter seen lower ++ eventsAfter more lower from
    List.filter_append _ _, List.filter_append, hnone, List.append_nil]

theorem between_append
    (h : Numbered 1 events) {lower middle upper : Nat}
    (hlower : lower ≤ middle) (hupper : middle ≤ upper) :
    between events lower middle ++ between events middle upper =
      between events lower upper := by
  have hleft := h.between lower (middle - lower)
  have hright := h.between middle (upper - middle)
  have hwhole := h.between lower (upper - lower)
  rw [show lower + (middle - lower) = middle by omega] at hleft
  rw [show middle + (upper - middle) = upper by omega] at hright
  rw [show lower + (upper - lower) = upper by omega] at hwhole
  rw [hleft, hright, hwhole,
    show upper - lower = (middle - lower) + (upper - middle) by omega,
    List.take_add, List.drop_drop]
  congr 3
  omega

theorem between_self
    (events : List OrderedThreadEvent) (cursor : Nat) :
    between events cursor cursor = [] := by
  apply List.filter_eq_nil_iff.mpr
  intro event hevent
  have hafter := (mem_eventsAfter.mp hevent).right
  simp only [decide_eq_true_eq]
  omega

/-- A page after the first one goes on where the last one ended. -/
theorem Poll.Sees.page
    {poll : Poll} (h : poll.Sees events) (hevents : Numbered 1 events)
    {cursor : Nat} (hpos : 0 < cursor) :
    exists page,
      readThreadEvents sha256Hex poll.journal poll.maxReadBytes cursor
          poll.limit = Except.ok page ∧
        page.events = between events cursor page.next_seq ∧
        Moves (rawEvents poll.journal) cursor page.next_seq := by
  have hbetween := h.appended.numbered.between cursor
    (((rawEvents poll.journal).drop cursor).take poll.limit).length
  have hlimit := h.limit
  have hlength : ((rawEvents poll.journal).drop cursor).length =
      (rawEvents poll.journal).length - cursor := List.length_drop
  refine ⟨_, h.appended.poll sha256Hex poll.maxReadBytes hpos h.limit, ?_, ?_⟩
  · dsimp only
    by_cases hend : (rawEvents poll.journal).length ≤ cursor
    · rw [List.drop_eq_nil_iff.mpr hend, List.take_nil, List.length_nil,
        Nat.add_zero, between_self]
    · have hinside : cursor +
          (((rawEvents poll.journal).drop cursor).take poll.limit).length ≤
            (rawEvents poll.journal).length := by
        rw [List.length_take]
        omega
      rw [<- between_prefix hevents h.grows cursor hinside, hbetween,
        List.take_eq_take_iff, List.length_take]
      omega
  · constructor
    · exact Nat.le_add_right _ _
    · dsimp only
      rw [List.length_take]
      omega
    · intro hlt
      dsimp only
      rw [List.length_take]
      omega

theorem readPolls_cons
    {cursor : Nat} {poll : Poll} {polls : List Poll} {page rest : EventPage}
    (hpage : readThreadEvents sha256Hex poll.journal poll.maxReadBytes cursor
      poll.limit = Except.ok page)
    (hrest : readPolls sha256Hex page.next_seq polls = Except.ok rest) :
    readPolls sha256Hex cursor (poll :: polls) =
      Except.ok
        { events := page.events ++ rest.events
          next_seq := rest.next_seq } := by
  unfold readPolls
  rw [hpage]
  dsimp only
  rw [hrest]

theorem readPolls_split
    {cursor : Nat} {poll : Poll} {polls : List Poll} {page read : EventPage}
    (hpage : readThreadEvents sha256Hex poll.journal poll.maxReadBytes cursor
      poll.limit = Except.ok page)
    (hread : readPolls sha256Hex cursor (poll :: polls) = Except.ok read) :
    exists rest, readPolls sha256Hex page.next_seq polls = Except.ok rest ∧
      read.next_seq = rest.next_seq := by
  unfold readPolls at hread
  rw [hpage] at hread
  dsimp only at hread
  cases hrest : readPolls sha256Hex page.next_seq polls with
  | error gap =>
      rw [hrest] at hread
      cases hread
  | ok rest =>
      rw [hrest] at hread
      cases hread
      exact ⟨rest, rfl, rfl⟩

theorem Poll.Sees.moves
    {poll : Poll} (h : poll.Sees events) (hevents : Numbered 1 events)
    (cursor : Nat) :
    exists page,
      readThreadEvents sha256Hex poll.journal poll.maxReadBytes cursor
          poll.limit = Except.ok page ∧
        Moves (rawEvents poll.journal) cursor page.next_seq := by
  by_cases hzero : cursor = 0
  · rcases h.appended.firstPoll sha256Hex poll.maxReadBytes h.limit with
      ⟨page, hpage, _, hmoves⟩
    rw [hzero]
    exact ⟨page, hpage, hmoves⟩
  · rcases h.page sha256Hex hevents (Nat.pos_of_ne_zero hzero) with
      ⟨page, hpage, _, hmoves⟩
    exact ⟨page, hpage, hmoves⟩

/-- The polls after the first page, by induction on them. -/
theorem readPolls_after
    {polls : List Poll} (hevents : Numbered 1 events)
    (hsees : forall poll, poll ∈ polls -> poll.Sees events) {cursor : Nat}
    (hpos : 0 < cursor) :
    exists read, readPolls sha256Hex cursor polls = Except.ok read ∧
      cursor ≤ read.next_seq ∧
      read.events = between events cursor read.next_seq := by
  induction polls generalizing cursor with
  | nil =>
      exact ⟨_, rfl, Nat.le_refl cursor, (between_self events cursor).symm⟩
  | cons poll polls ih =>
      have hfirst := hsees poll (List.mem_cons_self ..)
      rcases hfirst.page sha256Hex hevents hpos with
        ⟨page, hpage, hpageEvents, hmoves⟩
      have hforward := hmoves.forward
      rcases ih (fun other hother => hsees other
          (List.mem_cons_of_mem _ hother)) (Nat.lt_of_lt_of_le hpos hforward)
        with ⟨rest, hrest, hle, hrestEvents⟩
      refine ⟨_, readPolls_cons sha256Hex hpage hrest,
        Nat.le_trans hforward hle, ?_⟩
      dsimp only
      rw [hpageEvents, hrestEvents]
      exact between_append hevents hforward hle

theorem Received.append
    {page rest : EventPage} (hevents : Numbered 1 events)
    (h : Received events page) (hle : page.next_seq ≤ rest.next_seq)
    (hrest : rest.events = between events page.next_seq rest.next_seq) :
    Received events
      { events := page.events ++ rest.events, next_seq := rest.next_seq } := by
  rcases h with hall | ⟨dropped, marker, hmarker, hdropped, hpage⟩
  · left
    rw [hall, hrest]
    exact between_append hevents (Nat.zero_le _) hle
  · right
    refine ⟨dropped, marker, hmarker, Nat.le_trans hdropped hle, ?_⟩
    rw [hpage, hrest, List.cons_append,
      between_append hevents hdropped hle]

theorem Received.grow
    {seen : List OrderedThreadEvent} {page : EventPage}
    (hevents : Numbered 1 events) (hgrows : seen <+: events)
    (hinside : page.next_seq ≤ seen.length) (h : Received seen page) :
    Received events page := by
  rcases h with hall | ⟨dropped, marker, hmarker, hdropped, hpage⟩
  · left
    rw [hall]
    exact between_prefix hevents hgrows 0 hinside
  · right
    refine ⟨dropped, marker, hmarker, hdropped, ?_⟩
    rw [hpage, between_prefix hevents hgrows dropped hinside]

theorem readPolls_received
    {polls : List Poll} (hevents : Numbered 1 events)
    (hsees : forall poll, poll ∈ polls -> poll.Sees events) :
    exists read, readPolls sha256Hex 0 polls = Except.ok read ∧
      Received events read := by
  induction polls with
  | nil =>
      exact ⟨_, rfl, Or.inl (between_self events 0).symm⟩
  | cons poll polls ih =>
      have hfirst := hsees poll (List.mem_cons_self ..)
      have hlater : forall other, other ∈ polls -> other.Sees events := by
        intro other hother
        exact hsees other (List.mem_cons_of_mem _ hother)
      rcases hfirst.appended.firstPoll sha256Hex poll.maxReadBytes hfirst.limit
        with ⟨page, hpage, hreceived, hmoves⟩
      have hinside : page.next_seq ≤ (rawEvents poll.journal).length := by
        have hmax := hmoves.inside
        omega
      have hgrown := hreceived.grow hevents hfirst.grows hinside
      by_cases hzero : page.next_seq = 0
      · -- The journal had no event yet, and the reader stands where it stood.
        rcases ih hlater with ⟨rest, hrest, hrestReceived⟩
        have hempty : page.events = [] := by
          rcases hgrown with hall | ⟨dropped, marker, hmarker, hdropped, _⟩
          · rw [hall, hzero, between_self]
          · rcases hmarker.payload with ⟨payload, _, hlast, _⟩
            have hpos := payload.dropped_pos
            omega
        rw [<- hzero] at hrest
        refine ⟨_, readPolls_cons sha256Hex hpage hrest, ?_⟩
        rw [hempty, List.nil_append]
        exact hrestReceived
      · rcases readPolls_after sha256Hex hevents hlater
            (Nat.pos_of_ne_zero hzero) with ⟨rest, hrest, hle, hrestEvents⟩
        exact ⟨_, readPolls_cons sha256Hex hpage hrest,
          hgrown.append hevents hle hrestEvents⟩

/-- Every poll of the whole journal brings the cursor nearer to its end. -/
theorem readPolls_reaches
    {polls : List Poll} (hevents : Numbered 1 events)
    (hsees : forall poll, poll ∈ polls ->
      poll.Sees events ∧ rawEvents poll.journal = events)
    {cursor : Nat} (hinside : cursor ≤ events.length)
    (hmany : events.length ≤ cursor + polls.length) {read : EventPage}
    (hread : readPolls sha256Hex cursor polls = Except.ok read) :
    read.next_seq = events.length := by
  induction polls generalizing cursor read with
  | nil =>
      cases hread
      simp only [List.length_nil] at hmany
      exact Nat.le_antisymm hinside hmany
  | cons poll polls ih =>
      rcases hsees poll (List.mem_cons_self ..) with ⟨hpoll, hwhole⟩
      rcases hpoll.moves sha256Hex hevents cursor with ⟨page, hpage, hmoves⟩
      rw [hwhole] at hmoves
      have hnextInside := hmoves.inside
      have hforward := hmoves.forward
      have hprogress := hmoves.progress
      rw [List.length_cons] at hmany
      rcases readPolls_split sha256Hex hpage hread with ⟨rest, hrest, hnext⟩
      rw [hnext]
      apply ih (fun other hother => hsees other
        (List.mem_cons_of_mem _ hother)) _ _ hrest
      · omega
      · omega

theorem readPolls_finishes
    {polls later : List Poll} (hevents : Numbered 1 events)
    (hsees : forall poll, poll ∈ polls -> poll.Sees events)
    (hlater : forall poll, poll ∈ later ->
      poll.Sees events ∧ rawEvents poll.journal = events)
    (hmany : events.length ≤ later.length)
    {cursor : Nat} (hinside : cursor ≤ events.length) {read : EventPage}
    (hread : readPolls sha256Hex cursor (polls ++ later) = Except.ok read) :
    read.next_seq = events.length := by
  induction polls generalizing cursor read with
  | nil =>
      apply readPolls_reaches sha256Hex hevents hlater hinside _ hread
      omega
  | cons poll polls ih =>
      have hfirst := hsees poll (List.mem_cons_self ..)
      rcases hfirst.moves sha256Hex hevents cursor with ⟨page, hpage, hmoves⟩
      have hnextInside := hmoves.inside
      have hgrows := hfirst.grows.length_le
      rcases readPolls_split sha256Hex hpage hread with ⟨rest, hrest, hnext⟩
      rw [hnext]
      apply ih (fun other hother => hsees other
        (List.mem_cons_of_mem _ hother)) _ hrest
      omega

end Load

/-- On a journal of ordered batches the bounded read after a cursor is the full
read; a reader from the start gets every event once and in order but for those
that its first marker names, and it comes to the end when it goes on polling. -/
theorem readThreadEvents_refines
    (sha256Hex : List Char -> String) {host : Host}
    {journal : List JournalLine} {polls later : List Poll}
    (hwritten : Written host journal)
    (hpolls : forall poll, poll ∈ polls ->
      Written host poll.journal ∧ 1 ≤ poll.limit ∧
        rawEvents poll.journal <+: rawEvents journal)
    (hlater : forall poll, poll ∈ later ->
      Written host poll.journal ∧ 1 ≤ poll.limit ∧
        rawEvents poll.journal = rawEvents journal)
    (hmany : (rawEvents journal).length ≤ later.length) :
    (forall maxReadBytes sinceSeq limit, 0 < sinceSeq -> 1 ≤ limit ->
      readThreadEvents sha256Hex journal maxReadBytes sinceSeq limit =
        readThreadEvents sha256Hex journal 0 sinceSeq limit) ∧
    (exists read, readPolls sha256Hex 0 polls = Except.ok read ∧
      Received (rawEvents journal) read) ∧
    (exists read, readPolls sha256Hex 0 (polls ++ later) = Except.ok read ∧
      Received (rawEvents journal) read ∧
      read.next_seq = (rawEvents journal).length) := by
  have hevents := hwritten.appended.numbered
  have hsees : forall poll, poll ∈ polls -> poll.Sees (rawEvents journal) := by
    intro poll hpoll
    rcases hpolls poll hpoll with ⟨hwrote, hlimit, hgrows⟩
    exact ⟨hwrote.appended, hgrows, hlimit⟩
  have hwhole : forall poll, poll ∈ later ->
      poll.Sees (rawEvents journal) ∧
        rawEvents poll.journal = rawEvents journal := by
    intro poll hpoll
    rcases hlater poll hpoll with ⟨hwrote, hlimit, hsame⟩
    have hgrows : rawEvents poll.journal ++ [] = rawEvents journal := by
      rw [List.append_nil, hsame]
    exact ⟨⟨hwrote.appended, ⟨[], hgrows⟩, hlimit⟩, hsame⟩
  have hall : forall poll, poll ∈ polls ++ later ->
      poll.Sees (rawEvents journal) := by
    intro poll hpoll
    rcases List.mem_append.mp hpoll with hearly | hlate
    · exact hsees poll hearly
    · exact (hwhole poll hlate).left
  constructor
  · intro maxReadBytes sinceSeq limit hpos hlimit
    rw [hwritten.appended.poll sha256Hex maxReadBytes hpos hlimit,
      hwritten.appended.poll sha256Hex 0 hpos hlimit]
  constructor
  · exact readPolls_received sha256Hex hevents hsees
  · rcases readPolls_received sha256Hex hevents hall with
      ⟨read, hread, hreceived⟩
    exact ⟨read, hread, hreceived, readPolls_finishes sha256Hex hevents hsees
      hwhole hmany (Nat.zero_le _) hread⟩

/-!
## A reader that starts late

Three batches on lines of 200 bytes and one older line.  A poll of 350 bytes
gets the last event behind a marker for the first two.
-/

def batchLine (journal : List JournalLine) (key : String) : JournalLine where
  bytes := 200
  events :=
    match materializeBatchEvents plainHost "p1" (plainBatch key).toEventBatch
        (rawEvents journal) (nextSequence (rawEvents journal))
        (plainBatch key).events with
    | Except.ok materialized =>
        (newEvents (rawEvents journal) materialized).filter isReadable
    | Except.error _ => []

def lateJournal : List JournalLine :=
  ["k1", "k2", "k3"].foldl (fun journal key => journal ++ [batchLine journal key])
    [{ bytes := 50, events := [] }]

def latePoll : Poll :=
  { journal := lateJournal, maxReadBytes := 350, limit := 1 }

theorem written_batchLine
    {journal : List JournalLine} (h : Written plainHost journal) (key : String)
    (hmade : exists materialized,
      materializeBatchEvents plainHost "p1" (plainBatch key).toEventBatch
        (rawEvents journal) (nextSequence (rawEvents journal))
        (plainBatch key).events = Except.ok materialized) :
    Written plainHost (journal ++ [batchLine journal key]) := by
  rcases hmade with ⟨materialized, hmade⟩
  apply Written.batch h _ hmade
  · unfold batchLine
    rw [hmade]
  · intro spec hspec
    rw [List.mem_singleton.mp hspec]
    show isJournalGapKind "slice.claimed" = false
    decide

theorem written_lateJournal : Written plainHost lateJournal := by
  have hstart : Written plainHost ([] ++ [{ bytes := 50, events := [] }]) :=
    Written.other Written.empty rfl
  have hfirst := written_batchLine hstart "k1" ⟨_, rfl⟩
  have hsecond := written_batchLine hfirst "k2" ⟨_, rfl⟩
  exact written_batchLine hsecond "k3" ⟨_, rfl⟩

theorem readThreadEvents_refines_late :
    exists read,
      readPolls (fun _ => "") 0 (List.replicate 3 latePoll) = Except.ok read ∧
        Received (rawEvents lateJournal) read ∧
        read.next_seq = (rawEvents lateJournal).length := by
  have hmany : (rawEvents lateJournal).length ≤
      (List.replicate 3 latePoll).length := by
    decide +kernel
  apply (readThreadEvents_refines (fun _ => "") written_lateJournal
    (List.forall_mem_nil _) _ hmany).right.right
  intro poll hpoll
  rw [List.eq_of_mem_replicate hpoll]
  exact ⟨written_lateJournal, Nat.le_refl 1, rfl⟩

example :
    (match readPolls (fun _ => "") 0 (List.replicate 3 latePoll) with
      | Except.ok read => read.events.map (·.seq)
      | Except.error _ => []) = [2, 3] := by
  decide +kernel

end Thread
end Minni
