import Minni.Hooks.RecallGuard

/-!
# What each hook may do to the vault

A tool call claims what it has just read and nothing else, and only once.  What
a tool call or a consult writes is a state it has read, consumed.  A prompt
writes one state of its own.
-/

namespace Minni
namespace Hooks

open Foundation

/-!
## The protocol
-/

section Protocol

variable (host : RecallHost)

def labelKey (state : RecallState) : Option String :=
  sessionStateKey host (state.session_id.getD "")

/-- The files of a session. -/
def Sees (session : Option String) (file : StateFile) (state : RecallState) :
    Prop :=
  match session with
  | none => file = StateFile.mirror
  | some key =>
      file = StateFile.sessionFile key ∨
        (file = StateFile.mirror ∧ accepts host key state = true)

/-- The state that a call of `writeRecallState` writes. -/
def Payload (call : Nat) (state : RecallState) : Prop :=
  state.call = call ∧ (state.consumed = false -> state.arming_id = call)

def MayMark (past : HookPast) (file : StateFile) (state : RecallState) : Prop :=
  past.target ≠ none ∧
    exists found, (file, found) ∈ past.known ∧ state = found.consume

def toolMay (tool : ToolCall) (past : HookPast) : FileOp -> Prop
  | FileOp.readState _ => True
  | FileOp.fileOrLinkExists _ => True
  | FileOp.makeClaim segment state =>
      past.target = none ∧ state.consumed = false ∧
        segment = claimSegment host (guardKey tool state) ∧
        exists file, past.last = some (file, state) ∧
          Sees host (sessionStateKey host tool.guardSessionId) file state
  | FileOp.writeStateFileAtomic file state => MayMark past file state
  | _ => False

def consultMay (past : HookPast) : FileOp -> Prop
  | FileOp.readState _ => True
  | FileOp.fileOrLinkExists _ => True
  | FileOp.readdir => True
  | FileOp.makeClaim _ state => exists file, past.last = some (file, state)
  | FileOp.writeStateFileAtomic file state => MayMark past file state
  | _ => False

def promptMay (call : Nat) (past : HookPast) : FileOp -> Prop
  | FileOp.readState _ => past.composed = none ∧ past.target = none
  | FileOp.writeStateFileAtomic file state =>
      past.composed = none ∧ past.target = none ∧ Payload call state ∧
        exists key, file = StateFile.sessionFile key ∧
          labelKey host state = some key
  | FileOp.openMirror state =>
      past.target = none ∧ Payload call state ∧
        (past.composed = none ∨ past.composed = some state)
  | FileOp.writeMirror _ state =>
      past.target = none ∧ past.composed = some state ∧ Payload call state
  | _ => False

def clearMay : FileOp -> Prop
  | FileOp.readState _ => True
  | FileOp.rm _ => True
  | _ => False

def hookMay (call : Nat) (kind : HookKind) (past : HookPast) (op : FileOp) :
    Prop :=
  match kind with
  | HookKind.tool tool => toolMay host tool past op
  | HookKind.consult _ => consultMay past op
  | HookKind.prompt _ => promptMay host call past op
  | HookKind.clear _ => clearMay op

/-- Only a tool call surfaces a recall, the one that it has claimed and won. -/
def hookEnds (kind : HookKind) (past : HookPast)
    (result : Except Unit Answer) : Prop :=
  forall state, result = Except.ok (Answer.surfaced state) ->
    (exists tool, kind = HookKind.tool tool) ∧ past.won = true ∧
      past.target = some state

end Protocol

abbrev HookObeys (may : HookPast -> FileOp -> Prop)
    (ends : HookPast -> Except Unit α -> Prop) (past : HookPast)
    (p : HookProgram α) : Prop :=
  Program.Obeys may HookPast.after ends past p

/-!
## Single operations
-/

section Operations

variable {may : HookPast -> FileOp -> Prop} {past : HookPast}

theorem obeys_run
    (op : FileOp) {ends : HookPast -> Except Unit op.Reply -> Prop}
    (hmay : may past op) (h : forall reply, ends (past.after op reply) reply) :
    HookObeys may ends past (run op) :=
  ⟨hmay, h⟩

theorem obeys_orElse
    {fallback : α} {p : HookProgram α}
    {ends : HookPast -> Except Unit α -> Prop}
    (h : HookObeys may
      (fun past result =>
        match result with
        | Except.ok a => ends past (Except.ok a)
        | Except.error _ => ends past (Except.ok fallback))
      past p) :
    HookObeys may ends past (orElse fallback p) := by
  apply Program.obeys_tryCatch
  apply Program.obeys_mono h
  intro past result hresult
  cases result with
  | ok a => exact hresult
  | error e => exact Program.obeys_pure hresult

/-- What a hook has done, apart from its reads. -/
structure SameDeeds (past past' : HookPast) : Prop where
  target : past'.target = past.target
  won : past'.won = past.won
  composed : past'.composed = past.composed

theorem sameDeeds_sees (file : StateFile)
    (reply : Except Unit (Option RecallState)) :
    SameDeeds past (past.sees file reply) := by
  unfold HookPast.sees
  split
  · exact ⟨rfl, rfl, rfl⟩
  · exact ⟨rfl, rfl, rfl⟩

theorem SameDeeds.trans {past' past'' : HookPast} (h : SameDeeds past past')
    (h' : SameDeeds past' past'') :
    SameDeeds past past'' :=
  ⟨h'.target.trans h.target, h'.won.trans h.won, h'.composed.trans h.composed⟩

theorem sameDeeds_refl : SameDeeds past past :=
  ⟨rfl, rfl, rfl⟩

theorem last_sees {file : StateFile} {state : RecallState}
    {reply : Except Unit (Option RecallState)}
    (h : reply = Except.ok (some state)) :
    (past.sees file reply).last = some (file, state) ∧
      (file, state) ∈ (past.sees file reply).known := by
  rw [h]
  exact ⟨rfl, List.mem_cons_self ..⟩

end Operations

/-!
## Programs
-/

section Programs

variable {host : RecallHost} {may : HookPast -> FileOp -> Prop}
  {past : HookPast}

theorem obeys_readRecallState
    {sessionId : String}
    {ends : HookPast -> Except Unit (Option RecallState) -> Prop}
    (hread : forall past' file, SameDeeds past past' ->
      may past' (FileOp.readState file))
    (hend : forall past' result, SameDeeds past past' ->
      (forall state, result = Except.ok (some state) ->
        exists file, past'.last = some (file, state) ∧
          Sees host (sessionStateKey host sessionId) file state) ->
      ends past' result) :
    HookObeys may ends past (readRecallState host sessionId) := by
  unfold readRecallState
  cases hkey : sessionStateKey host sessionId with
  | none =>
      rw [hkey] at hend
      apply Program.obeys_perform
      · exact hread past _ sameDeeds_refl
      · intro reply
        apply hend _ _ (sameDeeds_sees _ _)
        intro state hstate
        exact ⟨StateFile.mirror, (last_sees hstate).left, rfl⟩
  | some key =>
      rw [hkey] at hend
      apply Program.obeys_bind
      apply Program.obeys_perform
      · exact hread past _ sameDeeds_refl
      intro reply
      have hseen : SameDeeds past
          (past.sees (StateFile.sessionFile key) reply) := sameDeeds_sees _ _
      cases reply with
      | error e =>
          apply hend _ _ hseen
          intro state hstate
          cases hstate
      | ok own =>
          cases own with
          | some found =>
              apply hend _ _ hseen
              intro state hstate
              cases hstate
              exact ⟨_, rfl, Or.inl rfl⟩
          | none =>
              apply Program.obeys_bind
              apply Program.obeys_perform
              · exact hread _ _ hseen
              intro reply
              have hboth := hseen.trans
                (sameDeeds_sees StateFile.mirror reply)
              cases reply with
              | error e =>
                  apply hend _ _ hboth
                  intro state hstate
                  cases hstate
              | ok mirror =>
                  apply hend _ _ hboth
                  intro state hstate
                  have hfilter := Except.ok.inj hstate
                  have hsplit := Option.filter_eq_some_iff.mp hfilter
                  rw [hsplit.left]
                  exact ⟨_, rfl, Or.inr ⟨rfl, hsplit.right⟩⟩

/-- A read whose failure is taken for a file that is missing. -/
theorem obeys_lookup
    {file : StateFile} {next : Option RecallState -> HookProgram α}
    {ends : HookPast -> Except Unit α -> Prop}
    (hread : may past (FileOp.readState file))
    (hnext : forall past' found, SameDeeds past past' ->
      (forall state, found = some state ->
        past'.last = some (file, state)) ->
      HookObeys may ends past' (next found)) :
    HookObeys may ends past
      (orElse none (run (FileOp.readState file)) >>= next) := by
  apply Program.obeys_bind
  apply obeys_orElse
  apply Program.obeys_perform hread
  intro reply
  have hseen : SameDeeds past (past.sees file reply) := sameDeeds_sees _ _
  cases reply with
  | error e =>
      apply hnext _ none hseen
      intro state h
      cases h
  | ok found =>
      apply hnext _ found hseen
      intro state h
      exact (last_sees (congrArg Except.ok h)).left

/-- What a hook may do while it marks what it has claimed. -/
structure AllowsMarking (may : HookPast -> FileOp -> Prop) : Prop where
  readState : forall past file, may past (FileOp.readState file)
  exists_ : forall past file, may past (FileOp.fileOrLinkExists file)
  write : forall past file state, MayMark past file state ->
    may past (FileOp.writeStateFileAtomic file state)

/-- Nothing was claimed in between, and something was before. -/
structure SameClaim (past past' : HookPast) : Prop where
  target : past'.target = past.target
  won : past'.won = past.won

theorem SameClaim.trans {past' past'' : HookPast} (h : SameClaim past past')
    (h' : SameClaim past' past'') :
    SameClaim past past'' :=
  ⟨h'.target.trans h.target, h'.won.trans h.won⟩

theorem SameDeeds.claim {past' : HookPast} (h : SameDeeds past past') :
    SameClaim past past' :=
  ⟨h.target, h.won⟩

theorem sameClaim_write (file : StateFile) (state : RecallState)
    (reply : Except Unit Unit) (h : past.target ≠ none) :
    SameClaim past
      (past.after (FileOp.writeStateFileAtomic file state) reply) := by
  cases htarget : past.target with
  | none => exact absurd htarget h
  | some target =>
      have hafter :
          past.after (FileOp.writeStateFileAtomic file state) reply =
            { past with last := none } := by
        unfold HookPast.after
        dsimp only
        rw [htarget]
      rw [hafter]
      exact ⟨rfl, rfl⟩

section Marking

variable (hmay : AllowsMarking may)
include hmay

theorem obeys_markFileConsumed
    {file : StateFile} {ends : HookPast -> Except Unit Bool -> Prop}
    (htarget : past.target ≠ none)
    (hend : forall past' marked, SameClaim past past' ->
      ends past' (Except.ok marked)) :
    HookObeys may ends past (markFileConsumed file) := by
  apply obeys_orElse
  apply Program.obeys_bind
  apply Program.obeys_perform
  · exact hmay.readState past file
  intro reply
  have hseen : SameClaim past (past.sees file reply) :=
    (sameDeeds_sees file reply).claim
  cases reply with
  | error e => exact hend _ _ hseen
  | ok found =>
      cases found with
      | none => exact hend _ _ hseen
      | some parsed =>
          have hstill : (past.sees file (Except.ok (some parsed))).target ≠
              none := by
            rw [hseen.target]
            exact htarget
          apply Program.obeys_bind
          apply Program.obeys_perform
          · apply hmay.write
            constructor
            · exact hstill
            · exact ⟨parsed, List.mem_cons_self .., rfl⟩
          · intro reply
            have hboth := hseen.trans (sameClaim_write
              file parsed.consume reply hstill)
            cases reply with
            | _ => exact hend _ _ hboth

theorem obeys_markIfExists
    {file : StateFile} {ends : HookPast -> Except Unit (Bool × Bool) -> Prop}
    (htarget : past.target ≠ none)
    (hend : forall past' marked, SameClaim past past' ->
      ends past' (Except.ok marked)) :
    HookObeys may ends past (markIfExists file) := by
  apply Program.obeys_bind
  apply obeys_orElse
  apply Program.obeys_perform
  · exact hmay.exists_ past file
  intro reply
  cases reply with
  | error e => exact hend _ _ ⟨rfl, rfl⟩
  | ok found =>
      cases found with
      | false => exact hend _ _ ⟨rfl, rfl⟩
      | true =>
          apply Program.obeys_bind
          apply obeys_markFileConsumed hmay
          · exact htarget
          · intro past' marked hsame
            exact hend past' _ ⟨hsame.target, hsame.won⟩

theorem obeys_markMirrorFor
    {key : String} {ends : HookPast -> Except Unit Bool -> Prop}
    (htarget : past.target ≠ none)
    (hend : forall past' marked, SameClaim past past' ->
      ends past' (Except.ok marked)) :
    HookObeys may ends past (markMirrorFor host key) := by
  apply obeys_lookup (hmay.readState past _)
  intro past' mirror hseen _
  cases mirror with
  | none => exact hend _ _ hseen.claim
  | some found =>
      dsimp only
      split
      · apply obeys_markFileConsumed hmay
        · rw [hseen.target]
          exact htarget
        · intro past'' marked hsame
          exact hend past'' marked (hseen.claim.trans hsame)
      · exact hend _ _ hseen.claim

theorem obeys_markSessionOf
    {mirror : Option RecallState} {ends : HookPast -> Except Unit Bool -> Prop}
    (htarget : past.target ≠ none)
    (hend : forall past' marked, SameClaim past past' ->
      ends past' (Except.ok marked)) :
    HookObeys may ends past (markSessionOf host mirror) := by
  unfold markSessionOf
  dsimp only
  split
  · exact hend past _ ⟨rfl, rfl⟩
  · apply Program.obeys_bind
    apply obeys_markIfExists hmay htarget
    intro past' marked hsame
    exact hend past' _ hsame

theorem obeys_markRecallConsumed
    {sessionId : String} {ends : HookPast -> Except Unit Bool -> Prop}
    (htarget : past.target ≠ none)
    (hend : forall past' marked, SameClaim past past' ->
      ends past' (Except.ok marked)) :
    HookObeys may ends past (markRecallConsumed host sessionId) := by
  unfold markRecallConsumed
  split
  · apply Program.obeys_bind
    apply obeys_markIfExists hmay htarget
    intro past' own hown
    apply Program.obeys_bind
    apply obeys_markMirrorFor hmay
    · rw [hown.target]
      exact htarget
    · intro past'' mirrorOk hmirror
      exact hend past'' _ (hown.trans hmirror)
  · apply obeys_lookup (hmay.readState past _)
    intro past' mirror hseen _
    apply Program.obeys_bind
    apply obeys_markFileConsumed hmay
    · rw [hseen.target]
      exact htarget
    intro past'' marked hmarked
    have hsame := hseen.claim.trans hmarked
    apply Program.obeys_bind
    apply obeys_markSessionOf hmay
    · rw [hsame.target]
      exact htarget
    · intro past3 other hother
      exact hend past3 _ (hsame.trans hother)

end Marking

theorem obeys_claimArming
    {segment : String} {state : RecallState}
    {ends : HookPast -> Except Unit Bool -> Prop}
    (hclaim : may past (FileOp.makeClaim segment state))
    (hend : forall won, ends
      { past with
        last := none
        target := some state
        won := won } (Except.ok won)) :
    HookObeys may ends past (claimArming segment state) := by
  apply obeys_orElse
  apply Program.obeys_bind
  apply Program.obeys_perform hclaim
  intro reply
  cases reply with
  | error e => exact hend false
  | ok made => exact hend true

end Programs

/-!
## Tool calls
-/

section Hooks

variable {host : RecallHost} {past : HookPast}

theorem allowsMarking_tool (tool : ToolCall) :
    AllowsMarking (toolMay host tool) :=
  ⟨fun _ _ => True.intro, fun _ _ => True.intro, fun _ _ _ h => h⟩

theorem allowsMarking_consult : AllowsMarking consultMay :=
  ⟨fun _ _ => True.intro, fun _ _ => True.intro, fun _ _ _ h => h⟩

theorem hookEnds_allowed (kind : HookKind) :
    hookEnds kind past (Except.ok Answer.allowed) := by
  intro state h
  cases h

theorem hookEnds_finished (kind : HookKind) :
    hookEnds kind past (Except.ok Answer.finished) := by
  intro state h
  cases h

theorem decideGuard_unconsumed {tool : ToolCall} {state : RecallState}
    (h : decideGuard tool state = true) :
    state.consumed = false := by
  unfold decideGuard at h
  split at h
  · cases h
  · rename_i hconsumed
    exact Bool.not_eq_true _ ▸ hconsumed

theorem obeys_handlePreToolUse (tool : ToolCall) :
    HookObeys (toolMay host tool) (hookEnds (HookKind.tool tool))
      HookPast.start (handlePreToolUse host tool) := by
  apply Program.obeys_bind
  apply obeys_orElse
  apply obeys_readRecallState
  · intro _ _ _
    exact True.intro
  intro past result hsame hfound
  cases result with
  | error e => exact hookEnds_allowed _
  | ok found =>
      cases found with
      | none => exact hookEnds_allowed _
      | some state =>
          dsimp only
          split
          · rename_i hguard
            apply Program.obeys_bind
            apply obeys_claimArming
            · exact ⟨hsame.target, decideGuard_unconsumed hguard, rfl,
                hfound state rfl⟩
            intro won
            cases won with
            | false => exact hookEnds_allowed _
            | true =>
                apply Program.obeys_bind
                apply obeys_orElse
                apply obeys_markRecallConsumed (allowsMarking_tool tool)
                · intro h
                  cases h
                intro past' marked hclaim
                cases marked with
                | false => exact hookEnds_allowed _
                | true =>
                    intro surfaced hsurfaced
                    cases hsurfaced
                    exact ⟨⟨tool, rfl⟩, hclaim.won, hclaim.target⟩
          · exact hookEnds_allowed _

/-!
## Consults
-/

theorem obeys_disarmSession
    {sessionId : String} {ends : HookPast -> Except Unit Bool -> Prop}
    (hend : forall past' disarmed, ends past' (Except.ok disarmed)) :
    HookObeys consultMay ends past (disarmSession host sessionId) := by
  apply Program.obeys_bind
  apply obeys_orElse
  apply obeys_readRecallState
  · intro _ _ _
    exact True.intro
  intro past' result _ hfound
  cases result with
  | error e => exact hend _ _
  | ok found =>
      cases found with
      | none => exact hend _ _
      | some st =>
          rcases hfound st rfl with ⟨file, hlast, _⟩
          apply Program.obeys_bind
          apply obeys_claimArming
          · exact ⟨file, hlast⟩
          intro won
          dsimp only
          split
          · exact hend _ _
          · apply obeys_orElse
            apply obeys_markRecallConsumed allowsMarking_consult
            · intro h
              cases h
            · intro past'' marked _
              exact hend past'' marked

theorem obeys_disarmFile
    {file : StateFile} {segment : String} {st : RecallState}
    {ends : HookPast -> Except Unit Bool -> Prop}
    (hlast : past.last = some (file, st))
    (hend : forall past' disarmed, past'.target ≠ none ->
      ends past' (Except.ok disarmed)) :
    HookObeys consultMay ends past (disarmFile file segment st) := by
  apply Program.obeys_bind
  apply obeys_claimArming
  · exact ⟨file, hlast⟩
  intro won
  dsimp only
  split
  · apply hend
    intro h
    cases h
  · apply obeys_markFileConsumed allowsMarking_consult
    · intro h
      cases h
    · intro past' marked hsame
      apply hend
      intro hnone
      have htarget := hsame.target.symm.trans hnone
      cases htarget

theorem obeys_disarmMirror
    {ends : HookPast -> Except Unit Bool -> Prop}
    (hend : forall past' disarmed, ends past' (Except.ok disarmed)) :
    HookObeys consultMay ends past (disarmMirror host) := by
  apply obeys_lookup True.intro
  intro past' mirror _ hlast
  cases mirror with
  | none => exact hend _ _
  | some st =>
      apply Program.obeys_bind
      apply obeys_disarmFile (hlast st rfl)
      intro past'' disarmed htarget
      apply Program.obeys_bind
      apply obeys_markSessionOf allowsMarking_consult htarget
      intro past3 marked _
      exact hend past3 _

theorem obeys_disarmSessionFiles
    {stems : List String} {anyDisarmed : Bool}
    {ends : HookPast -> Except Unit Bool -> Prop}
    (hend : forall past' disarmed, ends past' (Except.ok disarmed)) :
    HookObeys consultMay ends past
      (disarmSessionFiles host anyDisarmed stems) := by
  induction stems generalizing past anyDisarmed with
  | nil => exact hend _ _
  | cons stem rest ih =>
      rw [disarmSessionFiles]
      split
      · apply obeys_lookup True.intro
        intro past' found _ hlast
        cases found with
        | none => exact ih
        | some st =>
            apply Program.obeys_bind
            apply obeys_disarmFile (hlast st rfl)
            intro past'' disarmed _
            exact ih
      · exact ih

theorem obeys_disarmRecallStateOnConsult
    {sessionId : String} {ends : HookPast -> Except Unit Bool -> Prop}
    (hend : forall past' disarmed, ends past' (Except.ok disarmed)) :
    HookObeys consultMay ends past
      (disarmRecallStateOnConsult host sessionId) := by
  unfold disarmRecallStateOnConsult
  split
  · exact obeys_disarmSession hend
  · apply Program.obeys_bind
    apply obeys_disarmMirror
    intro past' anyDisarmed
    apply Program.obeys_bind
    apply obeys_orElse
    apply Program.obeys_perform
    · exact True.intro
    intro reply
    cases reply with
    | _ => exact obeys_disarmSessionFiles hend

/-!
## Prompts
-/

theorem payload_recallPayload (call : Nat) (input : RecallInput)
    (existing : Option RecallState) :
    Payload call (recallPayload call input existing) := by
  constructor
  · rfl
  · intro hconsumed
    have hpreserve : preserveConsumed input existing = false := hconsumed
    unfold recallPayload
    dsimp only
    rw [if_neg (Bool.eq_false_iff.mp hpreserve)]

theorem composed_writes {state : RecallState}
    (h : past.composed = none ∨ past.composed = some state) :
    (past.writes state).composed = some state := by
  show some (past.composed.getD state) = some state
  rcases h with hnone | hsome
  · rw [hnone]
    rfl
  · rw [hsome]
    rfl

theorem obeys_writeMirrorFile
    {call : Nat} {payload : RecallState}
    {ends : HookPast -> Except Unit Unit -> Prop}
    (hpayload : Payload call payload) (htarget : past.target = none)
    (hcomposed : past.composed = none ∨ past.composed = some payload)
    (hend : forall past' result, ends past' result) :
    HookObeys (promptMay host call) ends past (writeMirrorFile payload) := by
  apply Program.obeys_bind
  apply Program.obeys_perform
  · exact ⟨htarget, hpayload, hcomposed⟩
  intro reply
  cases reply with
  | error e => exact hend _ _
  | ok inode =>
      apply Program.obeys_perform
      · exact ⟨htarget, composed_writes hcomposed, hpayload⟩
      · intro written
        exact hend _ _

theorem writes_start
    {file : StateFile} {state : RecallState} {reply : Except Unit Unit}
    (htarget : past.target = none) :
    past.after (FileOp.writeStateFileAtomic file state) reply =
      past.writes state := by
  unfold HookPast.after
  dsimp only
  rw [htarget]

theorem obeys_writePayload
    {call : Nat} {payload : RecallState}
    {ends : HookPast -> Except Unit Unit -> Prop}
    (hpayload : Payload call payload)
    (hstart : SameDeeds HookPast.start past)
    (hend : forall past' result, ends past' result) :
    HookObeys (promptMay host call) ends past (writePayload host payload) := by
  unfold writePayload
  split
  · rename_i key hkey
    apply Program.obeys_bind
    apply Program.obeys_perform
    · exact ⟨hstart.composed, hstart.target, hpayload, key, rfl, hkey⟩
    intro reply
    rw [writes_start hstart.target]
    cases reply with
    | error e => exact hend _ _
    | ok written =>
        apply obeys_writeMirrorFile hpayload
        · exact hstart.target
        · exact Or.inr (composed_writes (Or.inl hstart.composed))
        · exact hend
  · exact obeys_writeMirrorFile hpayload hstart.target
      (Or.inl hstart.composed) hend

theorem obeys_writeRecallState
    {call : Nat} {input : RecallInput}
    {ends : HookPast -> Except Unit Unit -> Prop}
    (hend : forall past' result, ends past' result) :
    HookObeys (promptMay host call) ends HookPast.start
      (writeRecallState host call input) := by
  apply Program.obeys_bind
  apply obeys_orElse
  apply obeys_readRecallState
  · intro past' file hsame
    exact ⟨hsame.composed, hsame.target⟩
  intro past' result hsame _
  cases result with
  | error e =>
      exact obeys_writePayload (payload_recallPayload call input none) hsame
        hend
  | ok existing =>
      exact obeys_writePayload (payload_recallPayload call input existing)
        hsame hend

/-!
## Every hook
-/

theorem obeys_clearRecallState
    {sessionId : String} {ends : HookPast -> Except Unit Unit -> Prop}
    (hend : forall past' result, ends past' result) :
    HookObeys (fun _ op => clearMay op) ends past
      (clearRecallState host sessionId) := by
  unfold clearRecallState
  split
  · rename_i key _
    apply Program.obeys_bind
    apply obeys_run (FileOp.rm (StateFile.sessionFile key))
    · exact True.intro
    intro reply
    cases reply with
    | error e => exact hend _ _
    | ok removed =>
        apply obeys_lookup True.intro
        intro past' mirror _ _
        split
        · exact obeys_run (FileOp.rm _) True.intro (fun _ => hend _ _)
        · exact hend _ _
  · exact obeys_run (FileOp.rm _) True.intro (fun _ => hend _ _)

theorem obeys_bestEffort
    {may : HookPast -> FileOp -> Prop} {p : HookProgram Unit} (kind : HookKind)
    (h : HookObeys may (fun _ _ => True) past p) :
    HookObeys may (hookEnds kind) past (bestEffort p) := by
  apply obeys_orElse
  apply Program.obeys_bind
  apply Program.obeys_mono h
  intro past' result _
  cases result with
  | _ => exact hookEnds_finished kind

theorem obeys_hookProgram (host : RecallHost) (call : Nat)
    (kind : HookKind) :
    HookObeys (hookMay host call kind) (hookEnds kind) HookPast.start
      (hookProgram host call kind) := by
  cases kind with
  | tool tool => exact obeys_handlePreToolUse tool
  | consult sessionId =>
      apply Program.obeys_bind
      apply obeys_disarmRecallStateOnConsult
      intro past disarmed state h
      cases h
  | prompt input =>
      exact obeys_bestEffort _
        (obeys_writeRecallState (fun _ _ => True.intro))
  | clear sessionId =>
      exact obeys_bestEffort _
        (obeys_clearRecallState (fun _ _ => True.intro))

end Hooks

end Hooks
end Minni
