import Minni.Thread.Cursor

/-!
# Windows of the event cursor

What `readThreadEvents` cuts its pages from.  The load is bounded by bytes, so
two cursors may see different windows of one journal; this module says how the
windows of successive cursors agree.
-/

namespace Minni
namespace Thread

open Foundation

def kept (events : List OrderedThreadEvent) : List OrderedThreadEvent :=
  events.filter isKept

def firstKeptAfter (ordered : List OrderedThreadEvent) (sinceSeq : Nat) :
    Option OrderedThreadEvent :=
  ordered.find? fun event => decide (event.seq > sinceSeq) && isKept event

/-- The first kept event after the cursor is the next one, or a marker of the
window explains the step to it. -/
def Explained (ordered : List OrderedThreadEvent) (sinceSeq : Nat) : Prop :=
  forall firstKept, firstKeptAfter ordered sinceSeq = some firstKept ->
    firstKept.seq ≤ sinceSeq + 1 ∨
      (findCoveringGapMarker ordered sinceSeq firstKept.seq).isSome = true

def explainingMarker (ordered : List OrderedThreadEvent) (sinceSeq : Nat) :
    Option OrderedThreadEvent :=
  match firstKeptAfter ordered sinceSeq with
  | none => none
  | some firstKept =>
      if firstKept.seq > sinceSeq + 1 then
        findCoveringGapMarker ordered sinceSeq firstKept.seq
      else
        none

/-- The events that the pages after a cursor are cut from. -/
def windowAfter (ordered : List OrderedThreadEvent) (sinceSeq : Nat) :
    List OrderedThreadEvent :=
  frontOf (eventsAfter ordered sinceSeq) (explainingMarker ordered sinceSeq) ++
    eventsAfter ordered sinceSeq

def windowAt (sha256Hex : List Char -> String) (journal : List JournalLine)
    (maxReadBytes sinceSeq : Nat) : List OrderedThreadEvent :=
  loadOrderedEventsForCursor sha256Hex journal maxReadBytes sinceSeq

/-!
## What the bounded load can return

Either every cursor gets the whole journal, or there is a fixed tail and every
cursor gets the whole journal or the tail.  The tail may come with a synthesized
marker in front.
-/

def Increasing (events : List OrderedThreadEvent) : Prop :=
  events.Pairwise fun left right => left.seq < right.seq

def rawEvents (journal : List JournalLine) : List OrderedThreadEvent :=
  journal.flatMap fun line => line.events

theorem parse_of_increasing
    {journal : List JournalLine} (h : Increasing (rawEvents journal)) :
    parseOrderedThreadEvents journal = rawEvents journal := by
  apply List.Pairwise.insertionSort_eq
  exact h.imp Nat.le_of_lt

theorem linesAfter_suffix
    (start offset : Nat) (journal : List JournalLine) :
    exists skipped, journal = skipped ++ linesAfter start offset journal := by
  induction journal generalizing offset with
  | nil =>
      exact ⟨[], rfl⟩
  | cons line rest ih =>
      unfold linesAfter
      split
      · exact ⟨[], rfl⟩
      · rcases ih (offset + line.bytes) with ⟨skipped, hskipped⟩
        refine ⟨line :: skipped, ?_⟩
        rw [List.cons_append, ← hskipped]

theorem linesAfter_events
    (start : Nat) {journal : List JournalLine}
    (h : Increasing (rawEvents journal)) :
    exists skipped,
      rawEvents journal =
          skipped ++ parseOrderedThreadEvents (linesAfter start 0 journal) ∧
        Increasing (parseOrderedThreadEvents (linesAfter start 0 journal)) := by
  rcases linesAfter_suffix start 0 journal with ⟨lines, hlines⟩
  have hsplit : rawEvents journal =
      rawEvents lines ++ rawEvents (linesAfter start 0 journal) := by
    have hraw := congrArg rawEvents hlines
    rw [hraw]
    simp [rawEvents]
  have htail : Increasing (rawEvents (linesAfter start 0 journal)) := by
    rw [hsplit] at h
    exact (List.pairwise_append.mp h).right.left
  refine ⟨rawEvents lines, ?_, ?_⟩
  · rw [parse_of_increasing htail]
    exact hsplit
  · rw [parse_of_increasing htail]
    exact htail

/-- The tail as it is returned. -/
def BoundedTail (firstKept : OrderedThreadEvent)
    (tail bounded : List OrderedThreadEvent) : Prop :=
  bounded = tail ∨
    exists marker, bounded = marker :: tail ∧ isKept marker = false ∧
      marker.seq < firstKept.seq ∧ firstKept.seq ≤ marker.seq + 1

theorem applyCursorReadBound_spec
    (sha256Hex : List Char -> String) {tail : List OrderedThreadEvent}
    {firstKept : OrderedThreadEvent}
    (hfirst : tail.find? isKept = some firstKept) :
    exists bounded, applyCursorReadBound sha256Hex tail true = some bounded ∧
      BoundedTail firstKept tail bounded := by
  unfold applyCursorReadBound
  simp only [hfirst, if_true]
  split
  · exact ⟨tail, rfl, Or.inl rfl⟩
  · split
    · exact ⟨tail, rfl, Or.inl rfl⟩
    · refine ⟨_, rfl, Or.inr ⟨_, rfl, ?_, ?_, ?_⟩⟩
      · simp [isKept, synthesizeCursorGapForReadBound, isJournalGapKind]
      · simp only [synthesizeCursorGapForReadBound]
        omega
      · simp only [synthesizeCursorGapForReadBound]
        omega

structure TailLoad (sha256Hex : List Char -> String)
    (journal : List JournalLine) (maxReadBytes : Nat)
    (skipped tail bounded : List OrderedThreadEvent)
    (firstKept : OrderedThreadEvent) : Prop where
  events : rawEvents journal = skipped ++ tail
  first : tail.find? isKept = some firstKept
  shape : BoundedTail firstKept tail bounded
  load : forall sinceSeq,
    windowAt sha256Hex journal maxReadBytes sinceSeq =
      if tailBoundWouldHideHole journal sinceSeq tail firstKept then
        rawEvents journal
      else
        bounded

theorem load_cases
    (sha256Hex : List Char -> String) {journal : List JournalLine}
    (maxReadBytes : Nat) (h : Increasing (rawEvents journal)) :
    (forall sinceSeq,
      windowAt sha256Hex journal maxReadBytes sinceSeq = rawEvents journal) ∨
    exists skipped tail bounded firstKept,
      TailLoad sha256Hex journal maxReadBytes skipped tail bounded
        firstKept := by
  have hparse := parse_of_increasing h
  by_cases hfull : maxReadBytes < 1
  · apply Or.inl
    intro sinceSeq
    simp [windowAt, loadOrderedEventsForCursor, hfull, hparse]
  · by_cases hsmall : fileSize journal ≤ maxReadBytes
    · apply Or.inl
      intro sinceSeq
      simp [windowAt, loadOrderedEventsForCursor, hfull,
        readOrderedJournalTextBounded, hsmall, hparse]
    · rcases linesAfter_events (fileSize journal - maxReadBytes) h with
        ⟨skipped, hevents, _⟩
      cases hfirst : (parseOrderedThreadEvents
          (linesAfter (fileSize journal - maxReadBytes) 0 journal)).find?
            isKept with
      | none =>
          apply Or.inl
          intro sinceSeq
          simp [windowAt, loadOrderedEventsForCursor, hfull,
            readOrderedJournalTextBounded, hsmall, hparse, hfirst]
      | some firstKept =>
          rcases applyCursorReadBound_spec sha256Hex hfirst with
            ⟨bounded, happly, hbounded⟩
          refine Or.inr ⟨skipped, _, bounded, firstKept, hevents, hfirst,
            hbounded, ?_⟩
          intro sinceSeq
          simp [windowAt, loadOrderedEventsForCursor, hfull,
            readOrderedJournalTextBounded, hsmall, hparse, hfirst, happly]

/-!
## Order of a window

Kept events come in increasing order, and a marker that stands out of order
stands in front of all kept events that are larger.
-/

/-- Two events of which one is kept are in increasing order. -/
def InOrder (left right : OrderedThreadEvent) : Prop :=
  isKept left = true ∨ isKept right = true -> left.seq < right.seq

theorem firstKept_le
    {events : List OrderedThreadEvent} {firstKept event : OrderedThreadEvent}
    (hinc : Increasing events)
    (hfirst : events.find? isKept = some firstKept)
    (hevent : event ∈ events) (hkept : isKept event = true) :
    firstKept.seq ≤ event.seq := by
  rcases List.find?_eq_some_iff_append.mp hfirst with
    ⟨_, before, after, hsplit, hnone⟩
  rw [hsplit] at hevent hinc
  rcases List.mem_append.mp hevent with hbefore | hafter
  · have hnot := hnone event hbefore
    rw [hkept] at hnot
    cases hnot
  · rcases List.mem_cons.mp hafter with heq | hrest
    · rw [heq]
    · have htail := (List.pairwise_append.mp hinc).right.left
      exact Nat.le_of_lt ((List.pairwise_cons.mp htail).left event hrest)

theorem windowAt_inOrder
    (sha256Hex : List Char -> String) {journal : List JournalLine}
    (maxReadBytes sinceSeq : Nat) (h : Increasing (rawEvents journal)) :
    (windowAt sha256Hex journal maxReadBytes sinceSeq).Pairwise InOrder := by
  have hfull : (rawEvents journal).Pairwise InOrder := by
    apply h.imp
    intro left right hlt _
    exact hlt
  rcases load_cases sha256Hex maxReadBytes h with hwhole | htail
  · rw [hwhole]
    exact hfull
  · rcases htail with ⟨skipped, tail, bounded, firstKept, hload⟩
    rw [hload.load]
    split
    · exact hfull
    · have hinc : Increasing tail := by
        have hevents := hload.events
        rw [hevents] at h
        exact (List.pairwise_append.mp h).right.left
      have htailOrder : tail.Pairwise InOrder := by
        apply hinc.imp
        intro left right hlt _
        exact hlt
      rcases hload.shape with hsame | ⟨marker, hcons, hnotKept, hlt, _⟩
      · rw [hsame]
        exact htailOrder
      · rw [hcons]
        apply List.pairwise_cons.mpr
        refine ⟨?_, htailOrder⟩
        intro event hevent hone
        have hkept : isKept event = true := by
          rcases hone with hmarker | hevent'
          · rw [hnotKept] at hmarker
            cases hmarker
          · exact hevent'
        exact Nat.lt_of_lt_of_le hlt
          (firstKept_le hinc hload.first hevent hkept)

/-!
## Moving the cursor

A page hands on a cursor under which the load may return another window.  After
that cursor both windows have the same events, but for a synthesized marker that
the second may lack.
-/

theorem seq_le_cursorAfter (event : OrderedThreadEvent) :
    event.seq ≤ cursorAfter event := by
  unfold cursorAfter
  split
  · exact Nat.le_refl _
  · exact Nat.le_max_left _ _

theorem cursorAfter_of_kept
    {event : OrderedThreadEvent} (h : isKept event = true) :
    cursorAfter event = event.seq := by
  unfold cursorAfter
  cases hpayload : journalTruncationPayload event with
  | none =>
      rfl
  | some payload =>
      have hgap := gapKind_of_journalTruncationPayload hpayload
      simp [isKept, hgap] at h

theorem mem_eventsAfter
    {ordered : List OrderedThreadEvent} {sinceSeq : Nat}
    {event : OrderedThreadEvent} :
    event ∈ eventsAfter ordered sinceSeq <->
      event ∈ ordered ∧ sinceSeq < event.seq := by
  simp [eventsAfter]

theorem firstKeptAfter_spec
    {ordered : List OrderedThreadEvent} {sinceSeq : Nat}
    {firstKept : OrderedThreadEvent}
    (h : firstKeptAfter ordered sinceSeq = some firstKept) :
    firstKept ∈ ordered ∧ sinceSeq < firstKept.seq ∧
      isKept firstKept = true := by
  have hmem := List.mem_of_find?_eq_some h
  have hpred := List.find?_some h
  simp only [Bool.and_eq_true, decide_eq_true_eq] at hpred
  exact ⟨hmem, hpred.left, hpred.right⟩

theorem findCoveringGapMarker_spec
    {ordered : List OrderedThreadEvent} {sinceSeq firstKeptSeq : Nat}
    {marker : OrderedThreadEvent}
    (h : findCoveringGapMarker ordered sinceSeq firstKeptSeq = some marker) :
    marker ∈ ordered ∧
      exists payload, journalTruncationPayload marker = some payload ∧
        payload.first_kept_seq = firstKeptSeq := by
  refine ⟨List.mem_of_find?_eq_some h, ?_⟩
  have hpred := List.find?_some h
  cases hpayload : journalTruncationPayload marker with
  | none =>
      simp [hpayload] at hpred
  | some payload =>
      simp only [hpayload, Bool.and_eq_true, decide_eq_true_eq] at hpred
      exact ⟨payload, rfl, hpred.left⟩

theorem findCoveringGapMarker_isSome_of_lt
    {ordered : List OrderedThreadEvent} {sinceSeq firstKeptSeq : Nat}
    (sinceSeq' : Nat) (hlt : sinceSeq' < firstKeptSeq)
    (h : (findCoveringGapMarker ordered sinceSeq firstKeptSeq).isSome = true) :
    (findCoveringGapMarker ordered sinceSeq' firstKeptSeq).isSome = true := by
  unfold findCoveringGapMarker at h ⊢
  rw [List.find?_isSome] at h ⊢
  rcases h with ⟨event, hevent, hpred⟩
  refine ⟨event, hevent, ?_⟩
  cases hpayload : journalTruncationPayload event with
  | none =>
      simp [hpayload] at hpred
  | some payload =>
      simp only [hpayload, Bool.and_eq_true, decide_eq_true_eq] at hpred ⊢
      exact ⟨hpred.left, by omega⟩

theorem eq_of_mem_frontOf
    {filtered : List OrderedThreadEvent} {lead : Option OrderedThreadEvent}
    {event : OrderedThreadEvent} (h : event ∈ frontOf filtered lead) :
    lead = some event := by
  cases lead with
  | none =>
      cases h
  | some marker =>
      simp only [frontOf] at h
      split at h
      · cases h
      · rw [List.mem_singleton.mp h]

theorem explainingMarker_spec
    {ordered : List OrderedThreadEvent} {sinceSeq : Nat}
    {marker : OrderedThreadEvent}
    (h : explainingMarker ordered sinceSeq = some marker) :
    exists firstKept, firstKeptAfter ordered sinceSeq = some firstKept ∧
      sinceSeq + 1 < firstKept.seq ∧
      findCoveringGapMarker ordered sinceSeq firstKept.seq = some marker := by
  unfold explainingMarker at h
  cases hfirst : firstKeptAfter ordered sinceSeq with
  | none =>
      simp [hfirst] at h
  | some firstKept =>
      simp only [hfirst] at h
      split at h
      · rename_i hstep
        exact ⟨firstKept, rfl, hstep, h⟩
      · cases h

/-- What stands in a window after the cursor is either an event after it, or the
marker in front, from which the cursor moves right before the first kept
event. -/
theorem mem_windowAfter
    {ordered : List OrderedThreadEvent} {sinceSeq : Nat}
    {event : OrderedThreadEvent}
    (h : event ∈ windowAfter ordered sinceSeq) :
    event ∈ eventsAfter ordered sinceSeq ∨
      (event ∈ ordered ∧ isKept event = false ∧ event.seq ≤ sinceSeq ∧
        exists firstKept, firstKeptAfter ordered sinceSeq = some firstKept ∧
          sinceSeq + 1 < firstKept.seq ∧
          cursorAfter event + 1 = firstKept.seq) := by
  rcases List.mem_append.mp h with hfront | hevent
  · have hlead := eq_of_mem_frontOf hfront
    rcases explainingMarker_spec hlead with
      ⟨firstKept, hfirst, hstep, hmarker⟩
    rcases findCoveringGapMarker_spec hmarker with
      ⟨hmem, payload, hpayload, hbound⟩
    by_cases hsince : sinceSeq < event.seq
    · exact Or.inl (mem_eventsAfter.mpr ⟨hmem, hsince⟩)
    · have hgap := gapKind_of_journalTruncationPayload hpayload
      refine Or.inr ⟨hmem, by simp [isKept, hgap], by omega, firstKept,
        hfirst, hstep, ?_⟩
      simp only [cursorAfter, hpayload]
      omega
  · exact Or.inl hevent

theorem lt_cursorAfter
    {ordered : List OrderedThreadEvent} {sinceSeq : Nat}
    {event : OrderedThreadEvent}
    (h : event ∈ windowAfter ordered sinceSeq) :
    sinceSeq < cursorAfter event := by
  rcases mem_windowAfter h with hevent | ⟨_, _, _, firstKept, _, hstep, hafter⟩
  · have hseq := (mem_eventsAfter.mp hevent).right
    exact Nat.lt_of_lt_of_le hseq (seq_le_cursorAfter event)
  · omega

theorem mem_of_mem_windowAfter
    {ordered : List OrderedThreadEvent} {sinceSeq : Nat}
    {event : OrderedThreadEvent}
    (h : event ∈ windowAfter ordered sinceSeq) :
    event ∈ ordered := by
  rcases mem_windowAfter h with hevent | hlead
  · exact (mem_eventsAfter.mp hevent).left
  · exact hlead.left

theorem tailBoundWouldHideHole_false
    {journal : List JournalLine} {sinceSeq : Nat}
    {tail : List OrderedThreadEvent} {firstKept : OrderedThreadEvent}
    (h : tailBoundWouldHideHole journal sinceSeq tail firstKept = false) :
    (findCoveringGapMarker tail sinceSeq firstKept.seq).isSome = true ∨
      firstKept.seq ≤ sinceSeq + 1 ∨ sinceSeq = 0 := by
  unfold tailBoundWouldHideHole at h
  split at h
  · exact Or.inl ‹_›
  · split at h
    · exact Or.inr (Or.inl ‹_›)
    · split at h
      · cases h
      · exact Or.inr (Or.inr (by omega))

theorem tailBoundWouldHideHole_true
    {journal : List JournalLine} {sinceSeq : Nat}
    {tail : List OrderedThreadEvent} {firstKept : OrderedThreadEvent}
    (h : tailBoundWouldHideHole journal sinceSeq tail firstKept = true) :
    (findCoveringGapMarker tail sinceSeq firstKept.seq).isSome = false ∧
      sinceSeq + 1 < firstKept.seq := by
  unfold tailBoundWouldHideHole at h
  split at h
  · cases h
  · split at h
    · cases h
    · rename_i hnone hfar
      exact ⟨(Bool.not_eq_true _).mp hnone, by omega⟩

/-- Events that come before the tail lie behind a cursor that has reached the
tail. -/
theorem eventsAfter_append
    {skipped tail : List OrderedThreadEvent} {cursor : Nat}
    (h : forall event, event ∈ skipped -> event.seq ≤ cursor) :
    eventsAfter (skipped ++ tail) cursor = eventsAfter tail cursor := by
  have hnone : eventsAfter skipped cursor = [] := by
    apply List.filter_eq_nil_iff.mpr
    intro event hevent
    have hle := h event hevent
    simp only [decide_eq_true_eq]
    omega
  have happend : eventsAfter (skipped ++ tail) cursor =
      eventsAfter skipped cursor ++ eventsAfter tail cursor :=
    List.filter_append _ _
  rw [happend, hnone, List.nil_append]

theorem eventsAfter_bounded
    {firstKept : OrderedThreadEvent} {tail bounded : List OrderedThreadEvent}
    (hshape : BoundedTail firstKept tail bounded) (cursor : Nat) :
    exists front, (forall event, event ∈ front ->
        isKept event = false ∧ event.seq < firstKept.seq) ∧
      eventsAfter bounded cursor = front ++ eventsAfter tail cursor := by
  rcases hshape with hsame | ⟨marker, hcons, hnotKept, hlt, _⟩
  · refine ⟨[], ?_, ?_⟩
    · intro event hevent
      cases hevent
    · rw [hsame, List.nil_append]
  · by_cases hafter : cursor < marker.seq
    · refine ⟨[marker], ?_, ?_⟩
      · intro event hevent
        rw [List.mem_singleton.mp hevent]
        exact ⟨hnotKept, hlt⟩
      · rw [hcons]
        simp [eventsAfter, hafter]
    · refine ⟨[], ?_, ?_⟩
      · intro event hevent
        cases hevent
      · rw [hcons]
        simp [eventsAfter, hafter]

section Advance

variable {sha256Hex : List Char -> String} {journal : List JournalLine}
  {maxReadBytes sinceSeq : Nat} {event : OrderedThreadEvent}

/-- After the cursor that an event hands on, the new window has the events of
the old one, less a marker in front. -/
theorem eventsAfter_advance
    (h : Increasing (rawEvents journal))
    (hevent : event ∈ windowAfter
      (windowAt sha256Hex journal maxReadBytes sinceSeq) sinceSeq) :
    exists front, (forall other, other ∈ front -> isKept other = false) ∧
      eventsAfter (windowAt sha256Hex journal maxReadBytes sinceSeq)
          (cursorAfter event) =
        front ++ eventsAfter
          (windowAt sha256Hex journal maxReadBytes (cursorAfter event))
          (cursorAfter event) := by
  have hlt := lt_cursorAfter hevent
  have hmem := mem_of_mem_windowAfter hevent
  have hreached := seq_le_cursorAfter event
  generalize hcursor : cursorAfter event = cursor at *
  rcases load_cases sha256Hex maxReadBytes h with hwhole | htail
  · rw [hwhole, hwhole]
    refine ⟨[], ?_, rfl⟩
    intro other hother
    cases hother
  · rcases htail with ⟨skipped, tail, bounded, firstKept, hload⟩
    have hinc := h
    rw [hload.events] at hinc
    have hbefore := (List.pairwise_append.mp hinc).right.right
    have hfirstMem := List.mem_of_find?_eq_some hload.first
    rw [hload.load] at hmem ⊢
    rw [hload.load]
    cases hhide : tailBoundWouldHideHole journal sinceSeq tail firstKept <;>
      cases hhide' : tailBoundWouldHideHole journal cursor tail firstKept
    · -- Both cursors get the tail.
      refine ⟨[], ?_, rfl⟩
      intro other hother
      cases hother
    · -- The first cursor got the tail from the start of the journal only.
      rcases tailBoundWouldHideHole_true hhide' with ⟨hnone, hfar⟩
      have hskipped : forall other, other ∈ skipped -> other.seq ≤ cursor := by
        intro other hother
        simp only [hhide] at hmem
        have hinTail : event ∈ tail := by
          rcases hload.shape with hsame | ⟨marker, hcons, _, _, hnear⟩
          · rw [← hsame]
            exact hmem
          · have hmem' : event ∈ marker :: tail := by
              rw [← hcons]
              exact hmem
            rcases List.mem_cons.mp hmem' with hmarker | hin
            · rw [hmarker] at hreached
              omega
            · exact hin
        have hless := hbefore other hother event hinTail
        omega
      rcases eventsAfter_bounded hload.shape cursor with
        ⟨front, hfront, hbounded⟩
      refine ⟨front, fun other hother => (hfront other hother).left, ?_⟩
      simp only [if_true, Bool.false_eq_true, if_false]
      rw [hload.events, eventsAfter_append hskipped]
      exact hbounded
    · -- The second cursor has reached the tail.
      rcases tailBoundWouldHideHole_true hhide with ⟨hnone, hfar⟩
      have hnear : firstKept.seq ≤ cursor + 1 := by
        rcases tailBoundWouldHideHole_false hhide' with hsome | hnear | hzero
        · by_cases hpast : cursor < firstKept.seq
          · have hsome' := findCoveringGapMarker_isSome_of_lt
              sinceSeq (by omega) hsome
            rw [hsome'] at hnone
            cases hnone
          · omega
        · exact hnear
        · omega
      have hskipped : forall other, other ∈ skipped -> other.seq ≤ cursor := by
        intro other hother
        have hless := hbefore other hother firstKept hfirstMem
        omega
      rcases eventsAfter_bounded hload.shape cursor with
        ⟨front, hfront, hbounded⟩
      refine ⟨[], ?_, ?_⟩
      · intro other hother
        cases hother
      · simp only [if_true, Bool.false_eq_true, if_false]
        rw [hload.events, eventsAfter_append hskipped, hbounded]
        have hempty : front = [] := by
          apply List.eq_nil_iff_forall_not_mem.mpr
          intro other hother
          have hmemAfter : other ∈ eventsAfter bounded cursor := by
            rw [hbounded]
            exact List.mem_append_left _ hother
          have hafter := (mem_eventsAfter.mp hmemAfter).right
          have hsmall := (hfront other hother).right
          omega
        rw [hempty]
        rfl
    · -- Both cursors get the whole journal.
      refine ⟨[], ?_, rfl⟩
      intro other hother
      cases hother

theorem eventsAfter_filter
    {ordered : List OrderedThreadEvent} {cursor : Nat}
    (hle : sinceSeq ≤ cursor) :
    (eventsAfter ordered sinceSeq).filter (fun other => cursor < other.seq) =
      eventsAfter ordered cursor := by
  unfold eventsAfter
  rw [List.filter_filter]
  apply List.filter_congr
  intro other _
  simp only [gt_iff_lt, Bool.and_eq_left_iff_imp, decide_eq_true_eq]
  omega

theorem kept_eventsAfter_advance
    (h : Increasing (rawEvents journal))
    (hevent : event ∈ windowAfter
      (windowAt sha256Hex journal maxReadBytes sinceSeq) sinceSeq) :
    kept (eventsAfter
        (windowAt sha256Hex journal maxReadBytes (cursorAfter event))
        (cursorAfter event)) =
      (kept (eventsAfter (windowAt sha256Hex journal maxReadBytes sinceSeq)
        sinceSeq)).filter fun other => cursorAfter event < other.seq := by
  rcases eventsAfter_advance h hevent with ⟨front, hfront, hsplit⟩
  have hle := Nat.le_of_lt (lt_cursorAfter hevent)
  have hnone : kept front = [] := by
    apply List.filter_eq_nil_iff.mpr
    intro other hother
    simp [hfront other hother]
  have hkept := congrArg kept hsplit
  unfold kept at hkept hnone ⊢
  rw [List.filter_append, hnone, List.nil_append] at hkept
  rw [← hkept, ← eventsAfter_filter hle, List.filter_filter,
    List.filter_filter]
  apply List.filter_congr
  intro other _
  rw [Bool.and_comm]

/-- The first kept event after a cursor is the head of the kept events. -/
theorem firstKeptAfter_eq_head
    (ordered : List OrderedThreadEvent) (cursor : Nat) :
    firstKeptAfter ordered cursor = (kept (eventsAfter ordered cursor)).head? := by
  unfold firstKeptAfter kept eventsAfter
  rw [List.filter_filter, List.head?_filter]
  congr 1
  funext other
  rw [Bool.and_comm]

theorem kept_increasing
    (sha256Hex : List Char -> String) (maxReadBytes sinceSeq : Nat)
    (h : Increasing (rawEvents journal)) (cursor : Nat) :
    Increasing (kept (eventsAfter
      (windowAt sha256Hex journal maxReadBytes sinceSeq) cursor)) := by
  have horder := windowAt_inOrder sha256Hex maxReadBytes sinceSeq h
  have hsub : (kept (eventsAfter
      (windowAt sha256Hex journal maxReadBytes sinceSeq) cursor)).Pairwise
        InOrder :=
    (horder.filter _).filter _
  apply List.Pairwise.imp_of_mem _ hsub
  intro left right hleft _ hin
  apply hin
  apply Or.inl
  exact (List.mem_filter.mp hleft).right

/-- Nothing kept lies between a cursor and the first kept event after it. -/
theorem firstKeptAfter_le
    (h : Increasing (rawEvents journal)) {firstKept other : OrderedThreadEvent}
    (hfirst : firstKeptAfter (windowAt sha256Hex journal maxReadBytes sinceSeq)
      sinceSeq = some firstKept)
    (hother : other ∈ eventsAfter
      (windowAt sha256Hex journal maxReadBytes sinceSeq) sinceSeq)
    (hkept : isKept other = true) :
    firstKept.seq ≤ other.seq := by
  have hinc := kept_increasing sha256Hex maxReadBytes sinceSeq h sinceSeq
  rw [firstKeptAfter_eq_head] at hfirst
  have hmem : other ∈ kept (eventsAfter
      (windowAt sha256Hex journal maxReadBytes sinceSeq) sinceSeq) :=
    List.mem_filter.mpr ⟨hother, hkept⟩
  rcases List.head?_eq_some_iff.mp hfirst with ⟨rest, hrest⟩
  rw [hrest] at hmem hinc
  rcases List.mem_cons.mp hmem with heq | hin
  · rw [heq]
  · exact Nat.le_of_lt ((List.pairwise_cons.mp hinc).left other hin)

/-- The step out of a cursor that stands right before the next kept event needs
no marker. -/
theorem explained_before_firstKept
    (h : Increasing (rawEvents journal)) {firstKept : OrderedThreadEvent}
    (hevent : event ∈ windowAfter
      (windowAt sha256Hex journal maxReadBytes sinceSeq) sinceSeq)
    (hfirst : firstKeptAfter (windowAt sha256Hex journal maxReadBytes sinceSeq)
      sinceSeq = some firstKept)
    (hbefore : cursorAfter event + 1 = firstKept.seq) :
    Explained (windowAt sha256Hex journal maxReadBytes (cursorAfter event))
      (cursorAfter event) := by
  intro next hnext
  apply Or.inl
  have hinc := kept_increasing sha256Hex maxReadBytes sinceSeq h sinceSeq
  rw [firstKeptAfter_eq_head] at hfirst hnext
  rw [kept_eventsAfter_advance h hevent] at hnext
  rcases List.head?_eq_some_iff.mp hfirst with ⟨rest, hrest⟩
  rw [hrest, List.filter_cons] at hnext
  have hpast : cursorAfter event < firstKept.seq := by omega
  simp only [hpast, decide_true, if_true, List.head?_cons,
    Option.some.injEq] at hnext
  rw [← hnext]
  omega

/-- Two events of a window of which one is kept are in increasing order. -/
theorem windowAfter_inOrder
    (sha256Hex : List Char -> String) (maxReadBytes sinceSeq : Nat)
    (h : Increasing (rawEvents journal)) :
    (windowAfter (windowAt sha256Hex journal maxReadBytes sinceSeq)
      sinceSeq).Pairwise InOrder := by
  have horder := windowAt_inOrder sha256Hex maxReadBytes sinceSeq h
  apply List.pairwise_append.mpr
  refine ⟨?_, horder.filter _, ?_⟩
  · unfold frontOf
    split
    · exact List.Pairwise.nil
    · split
      · exact List.Pairwise.nil
      · exact List.pairwise_singleton _ _
  · intro marker hmarker other hother hone
    have hlead := eq_of_mem_frontOf hmarker
    rcases explainingMarker_spec hlead with ⟨firstKept, _, _, hfound⟩
    rcases findCoveringGapMarker_spec hfound with ⟨hmem, payload, hpayload, _⟩
    have hafter := (mem_eventsAfter.mp hother).right
    by_cases hsince : sinceSeq < marker.seq
    · exfalso
      have hin : marker ∈ eventsAfter
          (windowAt sha256Hex journal maxReadBytes sinceSeq) sinceSeq :=
        mem_eventsAfter.mpr ⟨hmem, hsince⟩
      rw [hlead] at hmarker
      simp only [frontOf] at hmarker
      split at hmarker
      · cases hmarker
      · rename_i hany
        apply hany
        apply List.any_eq_true.mpr
        exact ⟨marker, hin, by simp⟩
    · omega

theorem kept_windowAfter
    (ordered : List OrderedThreadEvent) (cursor : Nat) :
    kept (windowAfter ordered cursor) = kept (eventsAfter ordered cursor) := by
  have hnone : kept (frontOf (eventsAfter ordered cursor)
      (explainingMarker ordered cursor)) = [] := by
    apply List.filter_eq_nil_iff.mpr
    intro marker hmarker
    have hlead := eq_of_mem_frontOf hmarker
    rcases explainingMarker_spec hlead with ⟨firstKept, _, _, hfound⟩
    rcases findCoveringGapMarker_spec hfound with ⟨_, payload, hpayload, _⟩
    have hgap := gapKind_of_journalTruncationPayload hpayload
    simp [isKept, hgap]
  have happend : kept (windowAfter ordered cursor) =
      kept (frontOf (eventsAfter ordered cursor)
        (explainingMarker ordered cursor)) ++
        kept (eventsAfter ordered cursor) :=
    List.filter_append _ _
  rw [happend, hnone, List.nil_append]

end Advance

end Thread
end Minni
