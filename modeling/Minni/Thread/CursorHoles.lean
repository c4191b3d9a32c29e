import Minni.Thread.CursorWindow

/-!
# Holes under the event cursor

A reader polls with the cursor that the last page handed on.  This module says
exactly when no page of such a reader jumps silently over a hole, and when the
events it gets do not depend on the limits it chose.
-/

namespace Minni
namespace Thread

open Foundation

/-!
## What the cursor promises
-/

/-- The marker names the sequence number as dropped. -/
def Names (marker : OrderedThreadEvent) (seq : Nat) : Prop :=
  exists payload, journalTruncationPayload marker = some payload ∧
    seq ≤ payload.last_dropped_seq

/-- Every sequence number that is missing between the cursor and the last event
of the page is named by a marker of the page. -/
def NamesMissing (sinceSeq : Nat) (page : List OrderedThreadEvent) : Prop :=
  forall last, page.getLast? = some last ->
    forall seq, sinceSeq < seq -> seq ≤ last.seq ->
      (forall event, event ∈ page -> event.seq ≠ seq) ->
        exists marker, marker ∈ page ∧ Names marker seq

section Reader

variable (sha256Hex : List Char -> String)

def NoSilentJump (journal : List JournalLine)
    (maxReadBytes sinceSeq : Nat) : Prop :=
  forall limit page, 1 ≤ limit ->
    readThreadEvents sha256Hex journal maxReadBytes sinceSeq limit =
      Except.ok page ->
    NamesMissing sinceSeq page.events

/-- A reader that polls once for each limit. -/
def readPages (journal : List JournalLine) (maxReadBytes : Nat) :
    Nat -> List Nat -> Except ThreadCursorGapError EventPage
  | sinceSeq, [] => Except.ok { events := [], next_seq := sinceSeq }
  | sinceSeq, limit :: limits =>
      match readThreadEvents sha256Hex journal maxReadBytes sinceSeq limit with
      | Except.error gap => Except.error gap
      | Except.ok page =>
          match readPages journal maxReadBytes page.next_seq limits with
          | Except.error gap => Except.error gap
          | Except.ok rest =>
              Except.ok
                { events := page.events ++ rest.events
                  next_seq := rest.next_seq }

/-- Two readers agree on the range that both have covered, and where one of them
got past a cursor the other does not throw at it. -/
def SplitIndependent (journal : List JournalLine)
    (maxReadBytes sinceSeq : Nat) : Prop :=
  forall limits limits' read read',
    (forall limit, limit ∈ limits -> 1 ≤ limit) ->
    (forall limit, limit ∈ limits' -> 1 ≤ limit) ->
    readPages sha256Hex journal maxReadBytes sinceSeq limits =
      Except.ok read ->
    readPages sha256Hex journal maxReadBytes sinceSeq limits' =
      Except.ok read' ->
    read.next_seq ≤ read'.next_seq ->
      kept read.events =
          (kept read'.events).filter (fun event => event.seq ≤ read.next_seq) ∧
        (read.next_seq < read'.next_seq ->
          forall limit, 1 ≤ limit ->
            exists page, readThreadEvents sha256Hex journal maxReadBytes
              read.next_seq limit = Except.ok page)

/-!
## The condition on the journal
-/

/-- Wherever the predecessor of an event is missing, a marker at or before the
event reaches up to it. -/
def HolesAnnounced (sinceSeq : Nat) (window : List OrderedThreadEvent) :
    Prop :=
  forall before event after, window = before ++ event :: after ->
    sinceSeq < event.seq - 1 ->
    (forall other, other ∈ before ++ [event] -> other.seq ≠ event.seq - 1) ->
      exists marker, marker ∈ before ++ [event] ∧ Names marker (event.seq - 1)

/-- Whichever event a page ends in, the cursor it hands on steps over no kept
event, and the step from that cursor is explained. -/
def Resumes (journal : List JournalLine) (maxReadBytes sinceSeq : Nat) :
    Prop :=
  let ordered := windowAt sha256Hex journal maxReadBytes sinceSeq
  forall event, event ∈ windowAfter ordered sinceSeq ->
    (forall other, other ∈ eventsAfter ordered sinceSeq -> isKept other = true ->
      event.seq < other.seq -> cursorAfter event < other.seq) ∧
    Explained (windowAt sha256Hex journal maxReadBytes (cursorAfter event))
      (cursorAfter event)

end Reader

/-!
## Pages are prefixes of the window
-/

theorem leadingGap_of_explained
    {ordered : List OrderedThreadEvent} {sinceSeq : Nat}
    (h : Explained ordered sinceSeq) :
    leadingGap ordered sinceSeq =
      Except.ok (explainingMarker ordered sinceSeq) := by
  have hfind : firstKeptAfter ordered sinceSeq =
      ordered.find? fun event =>
        decide (event.seq > sinceSeq) && isKept event := rfl
  unfold leadingGap explainingMarker
  rw [← hfind]
  cases hfirst : firstKeptAfter ordered sinceSeq with
  | none =>
      rfl
  | some firstKept =>
      by_cases hstep : firstKept.seq > sinceSeq + 1
      · rcases h firstKept hfirst with hnext | hmarker
        · omega
        · rcases Option.isSome_iff_exists.mp hmarker with ⟨marker, hfound⟩
          simp [hstep, hfound]
      · simp [hstep]

theorem explained_of_leadingGap
    {ordered : List OrderedThreadEvent} {sinceSeq : Nat}
    {lead : Option OrderedThreadEvent}
    (h : leadingGap ordered sinceSeq = Except.ok lead) :
    Explained ordered sinceSeq := by
  intro firstKept hfirst
  have hfind : (ordered.find? fun event =>
      decide (event.seq > sinceSeq) && isKept event) = some firstKept := hfirst
  unfold leadingGap at h
  rw [hfind] at h
  by_cases hstep : firstKept.seq > sinceSeq + 1
  · apply Or.inr
    cases hmarker : findCoveringGapMarker ordered sinceSeq firstKept.seq with
    | none =>
        simp [hstep, hmarker] at h
    | some marker =>
        rfl
  · exact Or.inl (by omega)

theorem front_append_take
    (filtered : List OrderedThreadEvent) (lead : Option OrderedThreadEvent)
    {limit : Nat} (hlimit : 1 ≤ limit) :
    frontOf filtered lead ++
        filtered.take (limit - (frontOf filtered lead).length) =
      (frontOf filtered lead ++ filtered).take limit := by
  have hlength : (frontOf filtered lead).length ≤ limit := by
    cases lead with
    | none =>
        simp [frontOf]
    | some marker =>
        simp only [frontOf]
        split
        · exact Nat.zero_le limit
        · exact hlimit
  rw [List.take_append, List.take_of_length_le hlength]

theorem readThreadEvents_of_explained
    {sha256Hex : List Char -> String} {journal : List JournalLine}
    {maxReadBytes sinceSeq limit : Nat} (hlimit : 1 ≤ limit)
    (h : Explained (windowAt sha256Hex journal maxReadBytes sinceSeq)
      sinceSeq) :
    readThreadEvents sha256Hex journal maxReadBytes sinceSeq limit =
      Except.ok
        { events := (windowAfter
            (windowAt sha256Hex journal maxReadBytes sinceSeq)
            sinceSeq).take limit
          next_seq := nextSeq sinceSeq ((windowAfter
            (windowAt sha256Hex journal maxReadBytes sinceSeq)
            sinceSeq).take limit) } := by
  have hlead := leadingGap_of_explained h
  unfold windowAt at hlead
  unfold readThreadEvents
  simp only [hlead, front_append_take _ _ hlimit]
  rfl

theorem explained_of_readThreadEvents
    {sha256Hex : List Char -> String} {journal : List JournalLine}
    {maxReadBytes sinceSeq limit : Nat} {page : EventPage}
    (h : readThreadEvents sha256Hex journal maxReadBytes sinceSeq limit =
      Except.ok page) :
    Explained (windowAt sha256Hex journal maxReadBytes sinceSeq) sinceSeq := by
  unfold readThreadEvents at h
  cases hlead : leadingGap
      (loadOrderedEventsForCursor sha256Hex journal maxReadBytes sinceSeq)
      sinceSeq with
  | error gap =>
      simp [hlead] at h
  | ok lead =>
      exact explained_of_leadingGap hlead

/-!
## From one missing predecessor to the whole hole

A marker that names a number names all smaller ones, so a hole is announced as
soon as its last number is.
-/

theorem names_of_le
    {marker : OrderedThreadEvent} {seq seq' : Nat}
    (h : Names marker seq) (hle : seq' ≤ seq) :
    Names marker seq' := by
  rcases h with ⟨payload, hpayload, hnamed⟩
  exact ⟨payload, hpayload, Nat.le_trans hle hnamed⟩

theorem names_of_holesAnnounced
    {sinceSeq : Nat} {window before after : List OrderedThreadEvent}
    {event : OrderedThreadEvent} {seq : Nat}
    (hannounced : HolesAnnounced sinceSeq window)
    (hwindow : window = before ++ event :: after)
    (hsince : sinceSeq < seq) (hseq : seq < event.seq)
    (hmissing : forall other, other ∈ before ++ [event] -> other.seq ≠ seq) :
    exists marker, marker ∈ before ++ [event] ∧ Names marker seq := by
  -- Induction on the sequence number of the event: either its predecessor is
  -- missing and announced, or it is the number of an event at or before it.
  generalize hn : event.seq = n
  induction n using Nat.strong_induction_on generalizing before event after with
  | h n ih =>
      by_cases hpred : exists other, other ∈ before ++ [event] ∧
          other.seq = event.seq - 1
      · rcases hpred with ⟨other, hother, hotherSeq⟩
        have hne := hmissing other hother
        rcases List.mem_append.mp hother with hbefore | hself
        · rcases List.append_of_mem hbefore with ⟨before', after', hsplit⟩
          have hwindow' : window =
              before' ++ other :: (after' ++ event :: after) := by
            rw [hwindow, hsplit]
            simp
          have hsub : forall x, x ∈ before' ++ [other] ->
              x ∈ before ++ [event] := by
            intro x hx
            rw [hsplit]
            simp only [List.mem_append, List.mem_cons] at hx ⊢
            tauto
          have hless : other.seq < n := by omega
          rcases ih other.seq hless hwindow' (by omega)
            (fun x hx => hmissing x (hsub x hx)) rfl with
            ⟨marker, hmarker, hnames⟩
          exact ⟨marker, hsub marker hmarker, hnames⟩
        · have hself' : other = event := by simpa using hself
          rw [hself'] at hotherSeq
          omega
      · have hpredMissing : forall other, other ∈ before ++ [event] ->
            other.seq ≠ event.seq - 1 := by
          intro other hother hotherSeq
          exact hpred ⟨other, hother, hotherSeq⟩
        rcases hannounced before event after hwindow (by omega)
          hpredMissing with ⟨marker, hmarker, hnames⟩
        exact ⟨marker, hmarker, names_of_le hnames (by omega)⟩

theorem take_split
    {window before after : List OrderedThreadEvent}
    {event : OrderedThreadEvent}
    (h : window = before ++ event :: after) :
    window.take (before.length + 1) = before ++ [event] := by
  have hassoc : before ++ event :: after = (before ++ [event]) ++ after := by
    simp
  rw [h, hassoc]
  apply List.take_left'
  simp

/-- A nonempty prefix of the window ends in an event of the window. -/
theorem take_getLast
    {window : List OrderedThreadEvent} {limit : Nat}
    {last : OrderedThreadEvent}
    (h : (window.take limit).getLast? = some last) :
    exists before after, window = before ++ last :: after ∧
      window.take limit = before ++ [last] := by
  rcases List.getLast?_eq_some_iff.mp h with ⟨before, hbefore⟩
  refine ⟨before, window.drop limit, ?_, hbefore⟩
  have happend := List.take_append_drop limit window
  rw [hbefore] at happend
  simpa using happend.symm

section Advance

variable {sha256Hex : List Char -> String} {journal : List JournalLine}
  {maxReadBytes sinceSeq : Nat} {event : OrderedThreadEvent}

/-!
## One page
-/

/-- A page keeps the reader in a position from which every further page is
explained. -/
theorem resumes_advance
    (h : Increasing (rawEvents journal))
    (hresumes : Resumes sha256Hex journal maxReadBytes sinceSeq)
    (hevent : event ∈ windowAfter
      (windowAt sha256Hex journal maxReadBytes sinceSeq) sinceSeq) :
    Explained (windowAt sha256Hex journal maxReadBytes (cursorAfter event))
        (cursorAfter event) ∧
      Resumes sha256Hex journal maxReadBytes (cursorAfter event) := by
  refine ⟨(hresumes event hevent).right, ?_⟩
  have hle := Nat.le_of_lt (lt_cursorAfter hevent)
  rcases eventsAfter_advance h hevent with ⟨front, _, hsplit⟩
  have hback : forall other,
      other ∈ eventsAfter
        (windowAt sha256Hex journal maxReadBytes (cursorAfter event))
        (cursorAfter event) ->
      other ∈ eventsAfter (windowAt sha256Hex journal maxReadBytes sinceSeq)
        sinceSeq := by
    intro other hother
    have hin : other ∈ eventsAfter
        (windowAt sha256Hex journal maxReadBytes sinceSeq)
        (cursorAfter event) := by
      rw [hsplit]
      exact List.mem_append_right _ hother
    rw [mem_eventsAfter] at hin ⊢
    exact ⟨hin.left, by omega⟩
  intro next hnext
  rcases mem_windowAfter hnext with hafter |
    ⟨_, _, hbehind, firstKept, hfirst, hstep, hcursor⟩
  · have hold := hresumes next (List.mem_append_right _ (hback next hafter))
    refine ⟨?_, hold.right⟩
    intro other hother hkept hless
    exact hold.left other (hback other hother) hkept hless
  · refine ⟨?_, explained_before_firstKept h hnext hfirst hcursor⟩
    intro other hother hkept _
    have hmin := firstKeptAfter_le h hfirst hother hkept
    omega

/-- A page that ends in `event` has the kept events up to the cursor that the
event hands on. -/
theorem kept_page
    (h : Increasing (rawEvents journal))
    (hresumes : Resumes sha256Hex journal maxReadBytes sinceSeq)
    {before after : List OrderedThreadEvent}
    (hwindow : windowAfter (windowAt sha256Hex journal maxReadBytes sinceSeq)
      sinceSeq = before ++ event :: after) :
    kept (before ++ [event]) =
      (kept (eventsAfter (windowAt sha256Hex journal maxReadBytes sinceSeq)
        sinceSeq)).filter fun other => other.seq ≤ cursorAfter event := by
  have hevent : event ∈ windowAfter
      (windowAt sha256Hex journal maxReadBytes sinceSeq) sinceSeq := by
    rw [hwindow]
    simp
  have horder := windowAfter_inOrder sha256Hex maxReadBytes sinceSeq h
  have hreached := seq_le_cursorAfter event
  have hassoc : before ++ event :: after = (before ++ [event]) ++ after := by
    simp
  rw [hwindow, hassoc] at horder
  rcases List.pairwise_append.mp horder with ⟨hpage, _, hcross⟩
  have hpageBound : forall other, other ∈ kept (before ++ [event]) ->
      other.seq ≤ cursorAfter event := by
    intro other hother
    have hmem := List.mem_filter.mp hother
    rcases List.mem_append.mp hmem.left with hbefore | hself
    · have hless := (List.pairwise_append.mp hpage).right.right other hbefore
        event (by simp) (Or.inl hmem.right)
      omega
    · rw [List.mem_singleton.mp hself]
      exact hreached
  have hrestBound : forall other, other ∈ kept after ->
      ¬ other.seq ≤ cursorAfter event := by
    intro other hother
    have hmem := List.mem_filter.mp hother
    have hless := hcross event (by simp) other hmem.left (Or.inr hmem.right)
    have hin : other ∈ windowAfter
        (windowAt sha256Hex journal maxReadBytes sinceSeq) sinceSeq := by
      rw [hwindow]
      simp [hmem.left]
    have hafter : other ∈ eventsAfter
        (windowAt sha256Hex journal maxReadBytes sinceSeq) sinceSeq := by
      rcases mem_windowAfter hin with hin' | hlead
      · exact hin'
      · rw [hlead.right.left] at hmem
        cases hmem.right
    have hpast := (hresumes event hevent).left other hafter hmem.right hless
    omega
  rw [← kept_windowAfter, hwindow, hassoc]
  have happend : kept ((before ++ [event]) ++ after) =
      kept (before ++ [event]) ++ kept after :=
    List.filter_append _ _
  have hall : (kept (before ++ [event])).filter
      (fun other => other.seq ≤ cursorAfter event) =
        kept (before ++ [event]) := by
    apply List.filter_eq_self.mpr
    intro other hother
    simp [hpageBound other hother]
  have hnone : (kept after).filter
      (fun other => other.seq ≤ cursorAfter event) = [] := by
    apply List.filter_eq_nil_iff.mpr
    intro other hother
    simp [hrestBound other hother]
  rw [happend, List.filter_append, hall, hnone, List.append_nil]

/-!
## Many pages
-/

theorem filter_le_append
    {events : List OrderedThreadEvent} {middle last : Nat}
    (hinc : Increasing events) (hle : middle ≤ last) :
    events.filter (fun event => event.seq ≤ middle) ++
        (events.filter fun event => middle < event.seq).filter
          (fun event => event.seq ≤ last) =
      events.filter fun event => event.seq ≤ last := by
  induction events with
  | nil =>
      rfl
  | cons event rest ih =>
      rcases List.pairwise_cons.mp hinc with ⟨hhead, hrest⟩
      by_cases hbefore : event.seq ≤ middle
      · have hlast : event.seq ≤ last := Nat.le_trans hbefore hle
        have hnot : ¬ middle < event.seq := by omega
        simp only [List.filter_cons, hbefore, hlast, hnot, decide_true,
          decide_false, if_true, Bool.false_eq_true, if_false,
          List.cons_append]
        rw [ih hrest]
      · have hnone : (event :: rest).filter
            (fun other => other.seq ≤ middle) = [] := by
          apply List.filter_eq_nil_iff.mpr
          intro other hother
          rcases List.mem_cons.mp hother with heq | hin
          · simp [heq, hbefore]
          · have hless := hhead other hin
            simp only [decide_eq_true_eq]
            omega
        have hall : (event :: rest).filter
            (fun other => middle < other.seq) = event :: rest := by
          apply List.filter_eq_self.mpr
          intro other hother
          rcases List.mem_cons.mp hother with heq | hin
          · simp only [heq, decide_eq_true_eq]
            omega
          · have hless := hhead other hin
            simp only [decide_eq_true_eq]
            omega
        rw [hnone, hall, List.nil_append]

/-- What a reader has after any number of pages. -/
structure ReadSoFar (sha256Hex : List Char -> String)
    (journal : List JournalLine) (maxReadBytes sinceSeq : Nat)
    (read : EventPage) : Prop where
  reached : sinceSeq ≤ read.next_seq
  kept : kept read.events =
    (kept (eventsAfter (windowAt sha256Hex journal maxReadBytes sinceSeq)
      sinceSeq)).filter fun other => other.seq ≤ read.next_seq
  explained : Explained
    (windowAt sha256Hex journal maxReadBytes read.next_seq) read.next_seq

theorem readPages_spec
    (h : Increasing (rawEvents journal)) {limits : List Nat}
    (hlimits : forall limit, limit ∈ limits -> 1 ≤ limit)
    {read : EventPage}
    (hexplained : Explained
      (windowAt sha256Hex journal maxReadBytes sinceSeq) sinceSeq)
    (hresumes : Resumes sha256Hex journal maxReadBytes sinceSeq)
    (hread : readPages sha256Hex journal maxReadBytes sinceSeq limits =
      Except.ok read) :
    ReadSoFar sha256Hex journal maxReadBytes sinceSeq read := by
  induction limits generalizing sinceSeq read with
  | nil =>
      cases hread
      refine ⟨Nat.le_refl _, ?_, hexplained⟩
      symm
      apply List.filter_eq_nil_iff.mpr
      intro other hother
      have hafter := (mem_eventsAfter.mp (List.mem_filter.mp hother).left).right
      simp only [decide_eq_true_eq]
      omega
  | cons limit limits ih =>
      have hlimit : 1 ≤ limit := hlimits limit (by simp)
      have hlimits' : forall other, other ∈ limits -> 1 ≤ other := by
        intro other hother
        exact hlimits other (List.mem_cons_of_mem _ hother)
      unfold readPages at hread
      rw [readThreadEvents_of_explained hlimit hexplained] at hread
      simp only at hread
      generalize hpage : (windowAfter
        (windowAt sha256Hex journal maxReadBytes sinceSeq)
          sinceSeq).take limit = page at hread
      cases hlast : page.getLast? with
      | none =>
          have hempty : page = [] := List.getLast?_eq_none_iff.mp hlast
          have hnext : nextSeq sinceSeq page = sinceSeq := by
            simp [nextSeq, hlast]
          rw [hnext] at hread
          cases hrest : readPages sha256Hex journal maxReadBytes sinceSeq
              limits with
          | error gap =>
              simp [hrest] at hread
          | ok rest =>
              simp only [hrest, hempty, List.nil_append,
                Except.ok.injEq] at hread
              rw [← hread]
              exact ih hlimits' hexplained hresumes hrest
      | some last =>
          rw [← hpage] at hlast
          rcases take_getLast hlast with ⟨before, after, hwindow, htake⟩
          rw [hpage] at hlast htake
          have hmem : last ∈ windowAfter
              (windowAt sha256Hex journal maxReadBytes sinceSeq) sinceSeq := by
            rw [hwindow]
            simp
          have hnext : nextSeq sinceSeq page = cursorAfter last := by
            simp [nextSeq, hlast]
          rw [hnext] at hread
          rcases resumes_advance h hresumes hmem with
            ⟨hexplained', hresumes'⟩
          cases hrest : readPages sha256Hex journal maxReadBytes
              (cursorAfter last) limits with
          | error gap =>
              simp [hrest] at hread
          | ok rest =>
              simp only [hrest, Except.ok.injEq] at hread
              have hsofar := ih hlimits' hexplained' hresumes' hrest
              have hinc := kept_increasing sha256Hex maxReadBytes
                sinceSeq h sinceSeq
              have hbehind := lt_cursorAfter hmem
              have hreached := hsofar.reached
              rw [← hread]
              refine ⟨by simp only; omega, ?_, hsofar.explained⟩
              have happend : kept (page ++ rest.events) =
                  kept page ++ kept rest.events :=
                List.filter_append _ _
              rw [happend, hsofar.kept, htake,
                kept_page h hresumes hwindow,
                kept_eventsAfter_advance h hmem]
              exact filter_le_append hinc hreached

/-!
## The condition is enough
-/

theorem noSilentJump_of_holesAnnounced
    (hannounced : HolesAnnounced sinceSeq (windowAfter
      (windowAt sha256Hex journal maxReadBytes sinceSeq) sinceSeq)) :
    NoSilentJump sha256Hex journal maxReadBytes sinceSeq := by
  intro limit page hlimit hread
  have hexplained := explained_of_readThreadEvents hread
  rw [readThreadEvents_of_explained hlimit hexplained] at hread
  cases hread
  intro last hlast seq hsince hle hmissing
  rcases take_getLast hlast with ⟨before, after, hwindow, htake⟩
  simp only [htake] at hmissing ⊢
  have hne : last.seq ≠ seq := hmissing last (by simp)
  exact names_of_holesAnnounced hannounced hwindow hsince (by omega) hmissing

theorem splitIndependent_of_resumes
    (h : Increasing (rawEvents journal))
    (hexplained : Explained
      (windowAt sha256Hex journal maxReadBytes sinceSeq) sinceSeq)
    (hresumes : Resumes sha256Hex journal maxReadBytes sinceSeq) :
    SplitIndependent sha256Hex journal maxReadBytes sinceSeq := by
  intro limits limits' read read' hlimits hlimits' hread hread' hle
  have hsofar := readPages_spec h hlimits hexplained hresumes hread
  have hsofar' := readPages_spec h hlimits' hexplained hresumes hread'
  constructor
  · rw [hsofar.kept, hsofar'.kept, List.filter_filter]
    apply List.filter_congr
    intro other _
    rw [← Bool.decide_and]
    apply decide_eq_decide.mpr
    omega
  · intro _ limit hlimit
    exact ⟨_, readThreadEvents_of_explained hlimit hsofar.explained⟩

/-!
## The condition is needed
-/

theorem readPages_one
    {limit : Nat} {page : EventPage}
    (hread : readThreadEvents sha256Hex journal maxReadBytes sinceSeq limit =
      Except.ok page) :
    readPages sha256Hex journal maxReadBytes sinceSeq [limit] =
      Except.ok page := by
  simp [readPages, hread]

theorem holesAnnounced_of_noSilentJump
    (hexplained : Explained
      (windowAt sha256Hex journal maxReadBytes sinceSeq) sinceSeq)
    (hnosilent : NoSilentJump sha256Hex journal maxReadBytes sinceSeq) :
    HolesAnnounced sinceSeq (windowAfter
      (windowAt sha256Hex journal maxReadBytes sinceSeq) sinceSeq) := by
  intro before event after hwindow hsince hmissing
  have hlimit : 1 ≤ before.length + 1 := by omega
  have hnames := hnosilent (before.length + 1) _ hlimit
    (readThreadEvents_of_explained hlimit hexplained)
  simp only [take_split hwindow] at hnames
  apply hnames event (by simp) (event.seq - 1) hsince (by omega)
  exact hmissing

/-- The page that ends in `event` is what one poll returns. -/
theorem readPages_upTo
    (hexplained : Explained
      (windowAt sha256Hex journal maxReadBytes sinceSeq) sinceSeq)
    {before after : List OrderedThreadEvent}
    (hwindow : windowAfter (windowAt sha256Hex journal maxReadBytes sinceSeq)
      sinceSeq = before ++ event :: after) :
    readPages sha256Hex journal maxReadBytes sinceSeq [before.length + 1] =
      Except.ok
        { events := before ++ [event]
          next_seq := cursorAfter event } := by
  have hlimit : 1 ≤ before.length + 1 := by omega
  have hread := readThreadEvents_of_explained hlimit hexplained
  rw [take_split hwindow] at hread
  have hnext : nextSeq sinceSeq (before ++ [event]) = cursorAfter event := by
    simp [nextSeq]
  rw [hnext] at hread
  exact readPages_one hread

theorem resumes_of_splitIndependent
    (h : Increasing (rawEvents journal))
    (hexplained : Explained
      (windowAt sha256Hex journal maxReadBytes sinceSeq) sinceSeq)
    (hsplit : SplitIndependent sha256Hex journal maxReadBytes sinceSeq) :
    Resumes sha256Hex journal maxReadBytes sinceSeq := by
  intro event hevent
  rcases List.append_of_mem hevent with ⟨before, after, hwindow⟩
  have hshort := readPages_upTo hexplained hwindow
  have horder := windowAfter_inOrder sha256Hex maxReadBytes sinceSeq h
  have hone : forall limit, limit ∈ [before.length + 1] -> 1 ≤ limit := by
    intro limit hmem
    rw [List.mem_singleton.mp hmem]
    omega
  -- The kept events of the page are those up to `event`.
  have hpageBound : forall other, other ∈ kept (before ++ [event]) ->
      other.seq ≤ event.seq := by
    intro other hother
    have hmem := List.mem_filter.mp hother
    have hassoc : before ++ event :: after = (before ++ [event]) ++ after := by
      simp
    rw [hwindow, hassoc] at horder
    have hpage := (List.pairwise_append.mp horder).left
    rcases List.mem_append.mp hmem.left with hbefore | hself
    · have hless := (List.pairwise_append.mp hpage).right.right other hbefore
        event (by simp) (Or.inl hmem.right)
      omega
    · rw [List.mem_singleton.mp hself]
  -- A second reader gets everything that a kept event after `event` needs.
  have hsecond : forall other,
      other ∈ eventsAfter (windowAt sha256Hex journal maxReadBytes sinceSeq)
        sinceSeq ->
      isKept other = true ->
      exists limits read',
        (forall limit, limit ∈ limits -> 1 ≤ limit) ∧
        readPages sha256Hex journal maxReadBytes sinceSeq limits =
          Except.ok read' ∧
        read'.next_seq = other.seq ∧ other ∈ kept read'.events := by
    intro other hother hkept
    have hotherWindow : other ∈ windowAfter
        (windowAt sha256Hex journal maxReadBytes sinceSeq) sinceSeq :=
      List.mem_append_right _ hother
    rcases List.append_of_mem hotherWindow with ⟨before', after', hwindow'⟩
    refine ⟨[before'.length + 1], _, ?_,
      readPages_upTo hexplained hwindow', ?_, ?_⟩
    · intro limit hmem
      rw [List.mem_singleton.mp hmem]
      omega
    · exact cursorAfter_of_kept hkept
    · exact List.mem_filter.mpr ⟨by simp, hkept⟩
  constructor
  · intro other hother hkept hless
    rcases Nat.lt_or_ge (cursorAfter event) other.seq with hpast | hskipped
    · exact hpast
    · exfalso
      rcases hsecond other hother hkept with
        ⟨limits, read', hlimits, hread', hnext, hin⟩
      have hle : read'.next_seq ≤ cursorAfter event := by omega
      have hagree := (hsplit _ _ _ _ hlimits hone hread' hshort hle).left
      rw [hagree] at hin
      have hbound := hpageBound other (List.mem_filter.mp hin).left
      omega
  · intro next hnext
    have hspec := firstKeptAfter_spec hnext
    have hin : next ∈ eventsAfter
        (windowAt sha256Hex journal maxReadBytes sinceSeq) sinceSeq := by
      rcases eventsAfter_advance h hevent with ⟨front, _, hevents⟩
      have hafter : next ∈ eventsAfter
          (windowAt sha256Hex journal maxReadBytes sinceSeq)
          (cursorAfter event) := by
        rw [hevents]
        apply List.mem_append_right
        exact mem_eventsAfter.mpr ⟨hspec.left, hspec.right.left⟩
      have hbehind := lt_cursorAfter hevent
      rw [mem_eventsAfter] at hafter ⊢
      exact ⟨hafter.left, by omega⟩
    rcases hsecond next hin hspec.right.right with
      ⟨limits, read', hlimits, hread', hnextSeq, _⟩
    have hlt : cursorAfter event < read'.next_seq := by
      rw [hnextSeq]
      exact hspec.right.left
    have hgoes := (hsplit _ _ _ _ hone hlimits hshort hread'
      (Nat.le_of_lt hlt)).right hlt 1 (Nat.le_refl 1)
    rcases hgoes with ⟨page, hpage⟩
    exact explained_of_readThreadEvents hpage next hnext

/-- From a cursor that throws at once there is nothing to show. -/
theorem promises_of_not_explained
    (hunexplained : ¬ Explained
      (windowAt sha256Hex journal maxReadBytes sinceSeq) sinceSeq) :
    NoSilentJump sha256Hex journal maxReadBytes sinceSeq ∧
      SplitIndependent sha256Hex journal maxReadBytes sinceSeq := by
  have hnever : forall limits read,
      readPages sha256Hex journal maxReadBytes sinceSeq limits =
        Except.ok read -> read = { events := [], next_seq := sinceSeq } := by
    intro limits read hread
    cases limits with
    | nil =>
        cases hread
        rfl
    | cons limit limits =>
        exfalso
        unfold readPages at hread
        cases hone : readThreadEvents sha256Hex journal maxReadBytes sinceSeq
            limit with
        | error gap =>
            simp [hone] at hread
        | ok page =>
            exact hunexplained (explained_of_readThreadEvents hone)
  constructor
  · intro limit page _ hread
    exact absurd (explained_of_readThreadEvents hread) hunexplained
  · intro limits limits' read read' _ _ hread hread' _
    rw [hnever limits read hread, hnever limits' read' hread']
    constructor
    · rfl
    · intro hlt
      exact absurd hlt (Nat.lt_irrefl _)

/-- Polling from a cursor neither jumps silently nor depends on the limits
exactly when the first poll throws, or every hole after the cursor is announced
in time and every cursor handed on can be resumed. -/
theorem readThreadEvents_honest_iff
    (h : Increasing (rawEvents journal)) :
    (NoSilentJump sha256Hex journal maxReadBytes sinceSeq ∧
      SplitIndependent sha256Hex journal maxReadBytes sinceSeq) <->
    (Explained (windowAt sha256Hex journal maxReadBytes sinceSeq) sinceSeq ->
      HolesAnnounced sinceSeq (windowAfter
          (windowAt sha256Hex journal maxReadBytes sinceSeq) sinceSeq) ∧
        Resumes sha256Hex journal maxReadBytes sinceSeq) := by
  constructor
  · intro hpromises hexplained
    exact ⟨holesAnnounced_of_noSilentJump hexplained hpromises.left,
      resumes_of_splitIndependent h hexplained hpromises.right⟩
  · intro hcondition
    by_cases hexplained : Explained
        (windowAt sha256Hex journal maxReadBytes sinceSeq) sinceSeq
    · rcases hcondition hexplained with ⟨hannounced, hresumes⟩
      exact ⟨noSilentJump_of_holesAnnounced hannounced,
        splitIndependent_of_resumes h hexplained hresumes⟩
    · exact promises_of_not_explained hexplained

end Advance

/-!
## A hole behind the first page position

The journal has the events 1, 2, 5 and 6, each on a line of its own, and no
marker.
-/

def plainEvent (seq : Nat) : OrderedThreadEvent where
  seq := seq
  rev := seq
  event_id := "event-" ++ toString seq
  idempotency_key := "key-" ++ toString seq
  actor := "worker"
  kind := "slice.progress"
  at_ := "2026-01-01T00:00:00.000Z"
  slice_id := some "s1"
  payload := none

def holeJournal : List JournalLine :=
  [1, 2, 5, 6].map fun seq => { bytes := 200, events := [plainEvent seq] }

theorem increasing_holeJournal : Increasing (rawEvents holeJournal) := by
  unfold Increasing
  decide

theorem readThreadEvents_honest_iff_holeJournal :
    (NoSilentJump (fun _ => "") holeJournal 0 0 ∧
      SplitIndependent (fun _ => "") holeJournal 0 0) <->
    (Explained (windowAt (fun _ => "") holeJournal 0 0) 0 ->
      HolesAnnounced 0 (windowAfter
          (windowAt (fun _ => "") holeJournal 0 0) 0) ∧
        Resumes (fun _ => "") holeJournal 0 0) :=
  readThreadEvents_honest_iff increasing_holeJournal

/-- One poll from the start returns all four events, and nothing names 3. -/
theorem readThreadEvents_jumps_silently :
    ¬ forall (sha256Hex : List Char -> String) (journal : List JournalLine)
        (maxReadBytes sinceSeq : Nat),
      Increasing (rawEvents journal) ->
        NoSilentJump sha256Hex journal maxReadBytes sinceSeq ∧
          SplitIndependent sha256Hex journal maxReadBytes sinceSeq := by
  intro hall
  have hnosilent := (hall (fun _ => "") holeJournal 0 0
    increasing_holeJournal).left
  have hpage : readThreadEvents (fun _ => "") holeJournal 0 0 100 =
      Except.ok
        { events := [plainEvent 1, plainEvent 2, plainEvent 5, plainEvent 6]
          next_seq := 6 } := rfl
  rcases hnosilent 100 _ (by omega) hpage (plainEvent 6) rfl 3 (by omega)
    (by decide) (by decide) with ⟨marker, hmarker, payload, hpayload, _⟩
  have hgap := gapKind_of_journalTruncationPayload hpayload
  have hplain : forall event,
      event ∈ [plainEvent 1, plainEvent 2, plainEvent 5, plainEvent 6] ->
        isJournalGapKind event.kind = false := by
    decide
  rw [hplain marker hmarker] at hgap
  cases hgap

end Thread
end Minni
