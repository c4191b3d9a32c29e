import Mathlib.Data.List.Nodup
import Mathlib.Data.List.Perm.Subperm
import Minni.Hooks.RecallGuardRuns

/-!
# What a recall guard surfaces

In every run a tool call surfaces the recall of its own session, as one prompt
has composed it, and a recall interrupts once under a guard segment for each
time that its claim was free.
-/

namespace Minni
namespace Hooks

open Foundation
open Foundation.TransitionSystem

variable {host : RecallHost} {v v' : RecallVault}

/-!
## The invariant
-/

/-- One prompt has composed the state, which may have been consumed since. -/
def Composed (v : RecallVault) (state : RecallState) : Prop :=
  exists hook input payload,
    v.hooks[state.call]? = some hook ∧ hook.kind = HookKind.prompt input ∧
      hook.past.composed = some payload ∧ Payload state.call payload ∧
        (state = payload ∨ state = payload.consume)

/-- What may stand in a file: the file of a session holds no other session's
recall. -/
def Genuine (host : RecallHost) (v : RecallVault) (file : StateFile)
    (state : RecallState) : Prop :=
  Composed v state ∧ forall key, file = StateFile.sessionFile key ->
    labelKey host state = some key

/-- What a tool call may claim. -/
structure Surfaceable (host : RecallHost) (v : RecallVault) (tool : ToolCall)
    (state : RecallState) : Prop where
  unconsumed : state.consumed = false
  composed : Composed v state
  own : forall key, sessionStateKey host tool.guardSessionId = some key ->
    accepts host key state = true

def winOf (host : RecallHost) (pid : Nat) (tool : ToolCall)
    (state : RecallState) : Win where
  pid := pid
  segment := claimSegment host (guardKey tool state)
  state := state

structure HookSound (host : RecallHost) (v : RecallVault) (pid : Nat)
    (hook : Hook) : Prop where
  follows : HookObeys (hookMay host pid hook.kind) (hookEnds hook.kind)
    hook.past hook.rest
  known : forall file state, (file, state) ∈ hook.past.known ->
    Genuine host v file state
  last : forall found, hook.past.last = some found -> found ∈ hook.past.known
  claimed : forall tool state, hook.kind = HookKind.tool tool ->
    hook.past.target = some state -> Surfaceable host v tool state
  recorded : forall tool state, hook.kind = HookKind.tool tool ->
    hook.past.won = true -> hook.past.target = some state ->
      winOf host pid tool state ∈ v.wins
  payload : forall input payload, hook.kind = HookKind.prompt input ->
    hook.past.composed = some payload -> Payload pid payload

structure LogSound (v : RecallVault) : Prop where
  distinct : (v.log.map (·.1)).Nodup
  ended : forall entry, entry ∈ v.log ->
    exists hook, v.hooks[entry.1]? = some hook ∧ hook.ended = true
  surfaced : forall pid state, (pid, Answer.surfaced state) ∈ v.log ->
    exists hook tool, v.hooks[pid]? = some hook ∧
      hook.kind = HookKind.tool tool ∧ hook.past.won = true ∧
        hook.past.target = some state

structure GuardSound (host : RecallHost) (v : RecallVault) : Prop where
  hooks : forall (pid : Nat) (hook : Hook), v.hooks[pid]? = some hook ->
    HookSound host v pid hook
  stored : forall file entry, v.file file = some entry ->
    Genuine host v file entry.stored.state
  log : LogSound v

/-!
## What later steps keep
-/

/-- No hook goes, an ended hook does no more, and no win is forgotten. -/
structure LaterVault (v v' : RecallVault) : Prop where
  hooks : forall (pid : Nat) (hook : Hook), v.hooks[pid]? = some hook ->
    exists hook' : Hook, v'.hooks[pid]? = some hook' ∧ hook'.kind = hook.kind ∧
      (forall payload, hook.past.composed = some payload ->
        hook'.past.composed = some payload) ∧
      (hook.ended = true -> hook' = hook)
  wins : forall win, win ∈ v.wins -> win ∈ v'.wins

theorem Composed.later {state : RecallState} (h : Composed v state)
    (hlater : LaterVault v v') :
    Composed v' state := by
  rcases h with ⟨hook, input, payload, hhook, hkind, hcomposed, hpayload,
    hsame⟩
  rcases hlater.hooks _ hook hhook with ⟨hook', hhook', hkind', hkept, _⟩
  exact ⟨hook', input, payload, hhook', hkind'.trans hkind,
    hkept payload hcomposed, hpayload, hsame⟩

theorem Genuine.later {file : StateFile} {state : RecallState}
    (h : Genuine host v file state) (hlater : LaterVault v v') :
    Genuine host v' file state :=
  ⟨h.left.later hlater, h.right⟩

theorem Surfaceable.later {tool : ToolCall} {state : RecallState}
    (h : Surfaceable host v tool state) (hlater : LaterVault v v') :
    Surfaceable host v' tool state :=
  ⟨h.unconsumed, h.composed.later hlater, h.own⟩

theorem HookSound.later {pid : Nat} {hook : Hook}
    (h : HookSound host v pid hook) (hlater : LaterVault v v') :
    HookSound host v' pid hook where
  follows := h.follows
  known := fun file state hknown => (h.known file state hknown).later hlater
  last := h.last
  claimed := fun tool state hkind htarget =>
    (h.claimed tool state hkind htarget).later hlater
  recorded := fun tool state hkind hwon htarget =>
    hlater.wins _ (h.recorded tool state hkind hwon htarget)
  payload := h.payload

theorem LogSound.later (h : LogSound v) (hlater : LaterVault v v')
    (hlog : v'.log = v.log) :
    LogSound v' := by
  constructor
  · rw [hlog]
    exact h.distinct
  · intro entry hentry
    rw [hlog] at hentry
    rcases h.ended entry hentry with ⟨hook, hhook, hended⟩
    rcases hlater.hooks _ hook hhook with ⟨hook', hhook', _, _, hsame⟩
    exact ⟨hook, (hsame hended) ▸ hhook', hended⟩
  · intro pid state hentry
    rw [hlog] at hentry
    rcases h.surfaced pid state hentry with ⟨hook, tool, hhook, hdone⟩
    rcases h.ended _ hentry with ⟨_, hother, hended⟩
    cases hother.symm.trans hhook
    rcases hlater.hooks _ hook hhook with ⟨hook', hhook', _, _, hkept⟩
    exact ⟨hook, tool, (hkept hended) ▸ hhook', hdone⟩

section OneHook

variable {pid : Nat} {hook hook' : Hook}

theorem hooks_set_self (hhooks : v'.hooks = v.hooks.set pid hook')
    (hhook : v.hooks[pid]? = some hook) :
    v'.hooks[pid]? = some hook' := by
  rw [hhooks, List.getElem?_set_self (List.getElem?_eq_some_iff.mp hhook).fst]

theorem later_set (hhooks : v'.hooks = v.hooks.set pid hook')
    (hhook : v.hooks[pid]? = some hook) (hkind : hook'.kind = hook.kind)
    (hcomposed : forall payload, hook.past.composed = some payload ->
      hook'.past.composed = some payload)
    (hended : hook.ended = true -> hook' = hook)
    (hwins : forall win, win ∈ v.wins -> win ∈ v'.wins) :
    LaterVault v v' := by
  constructor
  · intro other found hfound
    by_cases hsame : other = pid
    · rw [hsame] at hfound ⊢
      cases Option.some.inj (hhook.symm.trans hfound)
      exact ⟨hook', hooks_set_self hhooks hhook, hkind, hcomposed, hended⟩
    · refine ⟨found, ?_, rfl, fun _ h => h, fun _ => rfl⟩
      rw [hhooks, List.getElem?_set_ne (Ne.symm hsame)]
      exact hfound
  · exact hwins

theorem hookSound_set (hhooks : v'.hooks = v.hooks.set pid hook')
    (hold : forall other found, v.hooks[other]? = some found ->
      HookSound host v' other found)
    (hnew : HookSound host v' pid hook') (other : Nat) (found : Hook)
    (h : v'.hooks[other]? = some found) :
    HookSound host v' other found := by
  rw [hhooks, List.getElem?_set] at h
  split at h
  · rename_i hsame
    split at h
    · cases h
      exact hsame ▸ hnew
    · cases h
  · exact hold other found h

end OneHook

/-!
## One operation
-/

theorem composed_new {pid : Nat} {past : HookPast} {op : FileOp}
    {reply : Except Unit op.Reply} {payload : RecallState}
    (hmay : promptMay host pid past op)
    (h : (past.after op reply).composed = some payload) :
    past.composed = some payload ∨ Payload pid payload := by
  cases hcomposed : past.composed with
  | some old =>
      rw [composed_after hcomposed] at h
      exact Or.inl h
  | none =>
      right
      cases op with
      | readState file =>
          have hsame := (@sameDeeds_sees past file reply).composed
          cases (hsame.trans hcomposed).symm.trans h
      | writeStateFileAtomic file state =>
          rcases hmay with ⟨_, htarget, hpayload, _⟩
          rw [writes_start htarget, composed_writes (Or.inl hcomposed)] at h
          cases h
          exact hpayload
      | openMirror state =>
          rcases hmay with ⟨_, hpayload, _⟩
          cases (composed_writes (Or.inl hcomposed)).symm.trans h
          exact hpayload
      | writeMirror inode state =>
          have hnone := hmay.right.left
          rw [hcomposed] at hnone
          cases hnone
      | _ => exact hmay.elim

/-- A prompt that writes a state has composed it. -/
theorem composed_of_puts {pid : Nat} {past : HookPast} {op : FileOp}
    {reply : Except Unit op.Reply} {file : StateFile} {state : RecallState}
    (hmay : promptMay host pid past op) (hputs : op.Puts file state) :
    (past.after op reply).composed = some state ∧ Payload pid state ∧
      forall key, file = StateFile.sessionFile key ->
        labelKey host state = some key := by
  cases op with
  | writeStateFileAtomic target written =>
      rcases hputs with ⟨rfl, rfl⟩
      rcases hmay with ⟨hcomposed, htarget, hpayload, key, hfile, hlabel⟩
      refine ⟨?_, hpayload, ?_⟩
      · rw [writes_start htarget]
        exact composed_writes (Or.inl hcomposed)
      · intro other hother
        rw [hfile] at hother
        injection hother with hkey
        rw [← hkey]
        exact hlabel
  | openMirror written =>
      rcases hputs with ⟨rfl, rfl⟩
      rcases hmay with ⟨_, hpayload, hcomposed⟩
      refine ⟨composed_writes hcomposed, hpayload, ?_⟩
      intro key hkey
      cases hkey
  | writeMirror inode written =>
      rcases hputs with ⟨rfl, rfl⟩
      rcases hmay with ⟨_, hcomposed, hpayload⟩
      refine ⟨composed_after hcomposed, hpayload, ?_⟩
      intro key hkey
      cases hkey
  | _ => exact hputs.elim

theorem Genuine.consume {file : StateFile} {state : RecallState}
    (h : Genuine host v file state) :
    Genuine host v file state.consume := by
  rcases h with ⟨⟨hook, input, payload, hhook, hkind, hcomposed, hpayload,
    hsame⟩, hlabel⟩
  refine ⟨⟨hook, input, payload, hhook, hkind, hcomposed, hpayload, ?_⟩,
    hlabel⟩
  right
  rcases hsame with rfl | rfl
  · rfl
  · rfl

theorem genuine_of_mark {pid : Nat} {hook : Hook} {file : StateFile}
    {state : RecallState} (hsound : HookSound host v pid hook)
    (hlater : LaterVault v v') (hmark : MayMark hook.past file state) :
    Genuine host v' file state := by
  rcases hmark.right with ⟨found, hfound, rfl⟩
  exact ((hsound.known file found hfound).later hlater).consume

/-- What a hook writes may stand in the file it is written to. -/
theorem genuine_of_puts {pid : Nat} {hook hook' : Hook} {op : FileOp}
    {reply : Except Unit op.Reply} {file : StateFile} {state : RecallState}
    (hsound : HookSound host v pid hook) (hlater : LaterVault v v')
    (hmay : hookMay host pid hook.kind hook.past op)
    (hhook : v'.hooks[pid]? = some hook') (hkind : hook'.kind = hook.kind)
    (hpast : hook'.past = hook.past.after op reply)
    (hputs : op.Puts file state) :
    Genuine host v' file state := by
  cases hhookKind : hook.kind with
  | tool tool =>
      rw [hhookKind] at hmay
      cases op with
      | writeStateFileAtomic target written =>
          rcases hputs with ⟨rfl, rfl⟩
          exact genuine_of_mark hsound hlater hmay
      | _ => first | exact hputs.elim | exact hmay.elim
  | consult sessionId =>
      rw [hhookKind] at hmay
      cases op with
      | writeStateFileAtomic target written =>
          rcases hputs with ⟨rfl, rfl⟩
          exact genuine_of_mark hsound hlater hmay
      | _ => first | exact hputs.elim | exact hmay.elim
  | clear sessionId =>
      rw [hhookKind] at hmay
      cases op with
      | _ => first | exact hputs.elim | exact hmay.elim
  | prompt input =>
      rw [hhookKind] at hmay
      rcases @composed_of_puts host pid hook.past op reply file state hmay hputs
        with ⟨hcomposed, hpayload, hlabel⟩
      constructor
      · refine ⟨hook', input, state, ?_, hkind.trans hhookKind, ?_, ?_,
          Or.inl rfl⟩
        · rw [hpayload.left]
          exact hhook
        · rw [hpast]
          exact hcomposed
        · rw [hpayload.left]
          exact hpayload
      · exact hlabel

theorem accepts_of_label {key : String} {state : RecallState}
    (h : labelKey host state = some key) :
    accepts host key state = true := by
  unfold labelKey at h
  unfold accepts
  cases hlabel : state.session_id with
  | none => rfl
  | some label =>
      rw [hlabel] at h
      exact decide_eq_true h

/-- What a tool call sees is its own, when no file holds another session's. -/
theorem surfaceable_of_sees {tool : ToolCall} {file : StateFile}
    {state : RecallState} (hgenuine : Genuine host v file state)
    (hunconsumed : state.consumed = false)
    (hsees : Sees host (sessionStateKey host tool.guardSessionId) file state) :
    Surfaceable host v tool state := by
  refine ⟨hunconsumed, hgenuine.left, ?_⟩
  intro key hkey
  rw [hkey] at hsees
  rcases hsees with hown | ⟨_, haccepts⟩
  · exact accepts_of_label (hgenuine.right key hown)
  · exact haccepts

theorem note_claims_win {pid : Nat} {hook : Hook} {tool : ToolCall}
    {segment : String} {state : RecallState}
    {reply : Except Unit (FileOp.makeClaim segment state).Reply}
    (hkind : hook.kind = HookKind.tool tool) (hok : reply.isOk = true) :
    (RecallVault.note pid hook v (FileOp.makeClaim segment state)
      reply).wins = v.wins ++
        [{ pid := pid
           segment := segment
           state := state }] := by
  cases reply with
  | error e => cases hok
  | ok made =>
      unfold RecallVault.note
      dsimp only
      rw [hkind]

/-- A hook that has performed an operation is as sound as before. -/
theorem hookSound_performed {pid : Nat} {hook : Hook} {op : FileOp}
    {next : Except Unit op.Reply -> HookProgram Answer} {chance : Chance}
    (hsound : GuardSound host v) (hhook : v.hooks[pid]? = some hook)
    (hrest : hook.rest = Program.op op next)
    (hlater : LaterVault v v')
    (hwins : v'.wins = (RecallVault.note pid hook (v.perform chance op).2 op
      (v.perform chance op).1).wins) :
    HookSound host v' pid
      { hook with
        rest := next (v.perform chance op).1
        past := hook.past.after op (v.perform chance op).1 } := by
  have hold := hsound.hooks pid hook hhook
  have hobeys := hold.follows
  rw [hrest] at hobeys
  rcases hobeys with ⟨hmay, hreplies⟩
  constructor
  · exact hreplies _
  · intro file state hknown
    rcases known_after hknown with hbefore | hfinds
    · exact (hold.known file state hbefore).later hlater
    · rcases v.file_of_finds chance op hfinds with ⟨entry, hentry, rfl⟩
      exact (hsound.stored file entry hentry).later hlater
  · exact fun found hlast => last_known_after hlast
  · intro tool state hkind htarget
    change hook.kind = HookKind.tool tool at hkind
    rw [hkind] at hmay
    rcases @claim_after hook.past op (v.perform chance op).1 host tool hmay with
      ⟨hsame, _⟩ | ⟨segment, claimed, rfl, hclaimed, _⟩
    · exact (hold.claimed tool state hkind (hsame ▸ htarget)).later hlater
    · cases Option.some.inj (hclaimed.symm.trans htarget)
      rcases hmay with ⟨_, hunconsumed, _, file, hlast, hsees⟩
      exact (surfaceable_of_sees (hold.known file state (hold.last _ hlast))
        hunconsumed hsees).later hlater
  · intro tool state hkind hwon htarget
    change hook.kind = HookKind.tool tool at hkind
    rw [hkind] at hmay
    rcases @claim_after hook.past op (v.perform chance op).1 host tool hmay with
      ⟨hsame, hsameWon⟩ | ⟨segment, claimed, rfl, hclaimed, hmade⟩
    · apply hlater.wins
      exact hold.recorded tool state hkind (hsameWon ▸ hwon) (hsame ▸ htarget)
    · cases Option.some.inj (hclaimed.symm.trans htarget)
      rw [hwins, note_claims_win hkind (hmade.symm.trans hwon),
        hmay.right.right.left]
      exact List.mem_append_right _ (List.mem_singleton.mpr rfl)
  · intro input payload hkind hcomposed
    change hook.kind = HookKind.prompt input at hkind
    rw [hkind] at hmay
    rcases composed_new hmay hcomposed with hbefore | hpayload
    · exact hold.payload input payload hkind hbefore
    · exact hpayload

/-!
## Every step
-/

theorem sound_empty : GuardSound host RecallVault.empty := by
  constructor
  · intro pid hook h
    cases h
  · intro file entry h
    cases h
  · constructor
    · exact List.nodup_nil
    · intro entry h
      cases h
    · intro pid state h
      cases h

theorem sound_began (hsound : GuardSound host v) (kind : HookKind) :
    GuardSound host (v.beginHook host kind) := by
  have hlater : LaterVault v (v.beginHook host kind) := by
    constructor
    · intro pid hook hhook
      have hlt := (List.getElem?_eq_some_iff.mp hhook).fst
      refine ⟨hook, ?_, rfl, fun _ h => h, fun _ => rfl⟩
      exact (List.getElem?_append_left hlt).trans hhook
    · exact fun _ h => h
  constructor
  · intro pid hook hhook
    rcases Nat.lt_or_ge pid v.hooks.length with hlt | hge
    · have hbefore : v.hooks[pid]? = some hook :=
        (List.getElem?_append_left hlt).symm.trans hhook
      exact (hsound.hooks pid hook hbefore).later hlater
    · have hnew := (List.getElem?_append_right hge).symm.trans hhook
      rcases List.getElem?_eq_some_iff.mp hnew with ⟨hindex, hget⟩
      have hpid : pid = v.hooks.length := by
        simp only [List.length_singleton] at hindex
        omega
      rw [List.getElem_singleton] at hget
      rw [← hget, hpid]
      constructor
      · exact obeys_hookProgram host v.hooks.length kind
      · intro file state h
        cases h
      · intro found h
        cases h
      · intro tool state _ h
        cases h
      · intro tool state _ h
        cases h
      · intro input payload _ h
        cases h
  · intro file entry hentry
    exact (hsound.stored file entry hentry).later hlater
  · exact hsound.log.later hlater rfl

theorem later_ends {pid : Nat} {hook : Hook}
    (hhook : v.hooks[pid]? = some hook)
    (hhooks : v'.hooks = v.hooks.set pid { hook with ended := true })
    (hwins : v'.wins = v.wins) :
    LaterVault v v' := by
  apply later_set hhooks hhook rfl (fun _ h => h)
  · intro hended
    cases hook
    cases hended
    rfl
  · intro win hwin
    rw [hwins]
    exact hwin

theorem sound_ends {pid : Nat} {hook : Hook}
    (hsound : GuardSound host v) (hhook : v.hooks[pid]? = some hook)
    (hhooks : v'.hooks = v.hooks.set pid { hook with ended := true })
    (hfiles : v'.files = v.files) (hwins : v'.wins = v.wins)
    (hlog : LogSound v') :
    GuardSound host v' := by
  have hlater := later_ends hhook hhooks hwins
  constructor
  · apply hookSound_set hhooks
    · intro other found hfound
      exact (hsound.hooks other found hfound).later hlater
    · exact { (hsound.hooks pid hook hhook).later hlater with }
  · intro file entry hentry
    unfold RecallVault.file at hentry
    rw [hfiles] at hentry
    exact (hsound.stored file entry hentry).later hlater
  · exact hlog

/-- A tool call that answers surfaces what it has claimed and won. -/
theorem logSound_answered {pid : Nat} {hook : Hook}
    {result : Except Unit Answer}
    (hsound : GuardSound host v) (hhook : v.hooks[pid]? = some hook)
    (hended : hook.ended = false) (hrest : hook.rest = Program.ret result)
    (hhooks : v'.hooks = v.hooks.set pid { hook with ended := true })
    (hwins : v'.wins = v.wins)
    (hlog : v'.log = v.log ++ [(pid, result.toOption.getD Answer.finished)]) :
    LogSound v' := by
  have hlater := later_ends hhook hhooks hwins
  have hself := hooks_set_self hhooks hhook
  have hends := (hsound.hooks pid hook hhook).follows
  rw [hrest] at hends
  have hold : LogSound { v' with log := v.log } :=
    @LogSound.later v { v' with log := v.log } hsound.log
      ⟨hlater.hooks, hlater.wins⟩ rfl
  constructor
  · rw [hlog, List.map_append, List.nodup_append]
    refine ⟨hsound.log.distinct, List.nodup_singleton _, ?_⟩
    intro other hother here hhere
    rw [List.map_singleton, List.mem_singleton] at hhere
    intro hsame
    rcases List.mem_map.mp hother with ⟨entry, hentry, hother'⟩
    rcases hsound.log.ended entry hentry with ⟨found, hfound, hfoundEnded⟩
    have hpid : entry.1 = pid := hother'.trans (hsame.trans hhere)
    rw [hpid] at hfound
    rw [Option.some.inj (hfound.symm.trans hhook), hended] at hfoundEnded
    cases hfoundEnded
  · intro entry hentry
    rw [hlog] at hentry
    rcases List.mem_append.mp hentry with hbefore | hnew
    · exact hold.ended entry hbefore
    · rw [List.mem_singleton.mp hnew]
      exact ⟨_, hself, rfl⟩
  · intro other state hentry
    rw [hlog] at hentry
    rcases List.mem_append.mp hentry with hbefore | hnew
    · exact hold.surfaced other state hbefore
    · injection List.mem_singleton.mp hnew with hpid hanswer
      have hresult : result = Except.ok (Answer.surfaced state) := by
        cases result with
        | error e => cases hanswer
        | ok answer => exact congrArg Except.ok hanswer.symm
      rcases hends state hresult with ⟨⟨tool, htool⟩, hwon, htarget⟩
      rw [hpid]
      exact ⟨_, tool, hself, htool, hwon, htarget⟩

theorem sound_pruned (hsound : GuardSound host v) (segment : String)
    (arming_id : Nat) :
    GuardSound host (v.prune segment arming_id) := by
  have hlater : LaterVault v (v.prune segment arming_id) :=
    ⟨fun _ found hfound =>
      ⟨found, hfound, rfl, fun _ h => h, fun _ => rfl⟩, fun _ h => h⟩
  constructor
  · intro pid hook hhook
    exact (hsound.hooks pid hook hhook).later hlater
  · intro file entry hentry
    exact (hsound.stored file entry hentry).later hlater
  · exact hsound.log.later hlater rfl

theorem sound_performed {pid : Nat} {hook : Hook} {op : FileOp}
    {next : Except Unit op.Reply -> HookProgram Answer} {chance : Chance}
    (hsound : GuardSound host v) (hhook : v.hooks[pid]? = some hook)
    (hended : hook.ended = false) (hrest : hook.rest = Program.op op next)
    (hafter : v' = (RecallVault.note pid hook (v.perform chance op).2 op
      (v.perform chance op).1).setHook pid
        { hook with
          rest := next (v.perform chance op).1
          past := hook.past.after op (v.perform chance op).1 }) :
    GuardSound host v' := by
  rcases v.perform_frame chance op with ⟨hhooks, hwins, hlog, _⟩
  rcases RecallVault.note_frame (v.perform chance op).2 pid hook op
    (v.perform chance op).1 with ⟨hnoteFiles, hnoteHooks, _, hnoteLog⟩
  have hset : v'.hooks = v.hooks.set pid
      { hook with
        rest := next (v.perform chance op).1
        past := hook.past.after op (v.perform chance op).1 } := by
    rw [hafter]
    change (RecallVault.note pid hook _ op _).hooks.set pid _ = _
    rw [hnoteHooks, hhooks]
  have hlater : LaterVault v v' := by
    apply later_set hset hhook rfl
    · intro payload h
      exact composed_after h
    · intro h
      rw [hended] at h
      cases h
    · intro win hwin
      rw [hafter, RecallVault.setHook_wins]
      rcases RecallVault.note_wins (v.perform chance op).2 pid hook op
        (v.perform chance op).1 with hsame | ⟨_, _, _, _, _, _, hnew⟩
      · rw [hsame, hwins]
        exact hwin
      · rw [hnew, hwins]
        exact List.mem_append_left _ hwin
  have hobeys := (hsound.hooks pid hook hhook).follows
  rw [hrest] at hobeys
  constructor
  · apply hookSound_set hset
    · intro other found hfound
      exact (hsound.hooks other found hfound).later hlater
    · apply hookSound_performed hsound hhook hrest hlater
      rw [hafter, RecallVault.setHook_wins]
  · intro file entry hentry
    have hfile : (v.perform chance op).2.file file = some entry := by
      unfold RecallVault.file at hentry ⊢
      rw [hafter, RecallVault.setHook_files, hnoteFiles] at hentry
      exact hentry
    rcases v.file_perform chance op hfile with hbefore | hputs
    · exact (hsound.stored file entry hbefore).later hlater
    · exact genuine_of_puts (hsound.hooks pid hook hhook) hlater hobeys.left
        (hooks_set_self hset hhook) rfl rfl hputs
  · apply hsound.log.later hlater
    rw [hafter, RecallVault.setHook_log, hnoteLog, hlog]

theorem sound_step {event : RecallEvent} (hsound : GuardSound host v)
    (hstep : RecallStep host v event v') :
    GuardSound host v' := by
  cases hstep with
  | began kind => exact sound_began hsound kind
  | answered pid chance hook result hhook hended hrest =>
      apply sound_ends hsound hhook
      · rfl
      · rfl
      · rfl
      · exact logSound_answered hsound hhook hended hrest rfl rfl rfl
  | performed pid chance hook op next hhook hended hrest =>
      exact sound_performed hsound hhook hended hrest rfl
  | crashed pid hook hhook =>
      apply sound_ends hsound hhook
      · rfl
      · rfl
      · rfl
      · exact hsound.log.later (later_ends hhook rfl rfl) rfl
  | pruned segment arming_id now hold =>
      exact sound_pruned hsound segment arming_id

theorem guardSound_of_run {events : List RecallEvent}
    (hrun : Run (recallSystem host) v events v') (h : GuardSound host v) :
    GuardSound host v' := by
  apply run_preserves (P := GuardSound host) _ hrun h
  intro s event s' hs hstep
  exact sound_step hs (recallStep_of_next hstep)

theorem guardSound_of_reachable (h : Reachable (recallSystem host) v) :
    GuardSound host v := by
  rcases h with ⟨start, events, rfl, hrun⟩
  exact guardSound_of_run hrun sound_empty

/-!
## Interruptions
-/

section Interruptions

variable (segment : String) (arming_id : Nat)

def wonUnder (win : Win) : Bool :=
  decide (win.segment = segment) && decide (win.state.arming_id = arming_id)

/-- The event removes the claim of the arming under the segment. -/
def prunesClaim : RecallEvent -> Bool
  | RecallEvent.prune other id _ =>
      decide (other = segment) && decide (id = arming_id)
  | _ => false

/-- The entry is an answer of a tool call that surfaces the arming under the
segment. -/
def interrupts (host : RecallHost) (v : RecallVault) :
    Nat × Answer -> Bool
  | (pid, Answer.surfaced state) =>
      match v.hooks[pid]? with
      | some { kind := HookKind.tool tool, .. } =>
          wonUnder segment arming_id (winOf host pid tool state)
      | _ => false
  | _ => false

end Interruptions

/-!
## A prompt and a cold search
-/

def plainHost : RecallHost where
  sha256 := fun text => text

def strongPrompt : RecallInput where
  task_signature := "deploy"
  top_score := 1
  consumed := false
  session_id := "s"
  sessionId := ""
  pointer_named := []

def coldSearch : ToolCall where
  guardSessionId := "s"
  soft := true
  threshold := 1
  in_scope := true

def smoothSteps (pid : Nat) (steps : Nat) : List RecallEvent :=
  List.replicate steps
    (RecallEvent.step pid
      { fails := false
        half := false
        clock := 0 })

/-- A prompt writes its recall, and a cold search comes upon it. -/
def promptThenSearch : List RecallEvent :=
  RecallEvent.begin_ (HookKind.prompt strongPrompt) :: smoothSteps 0 6 ++
    RecallEvent.begin_ (HookKind.tool coldSearch) :: smoothSteps 1 9

def composedByPrompt : RecallState where
  call := 0
  task_signature := "deploy"
  top_score := 1
  consumed := false
  session_id := some "s"
  pointer_named := []
  arming_id := 0

theorem search_surfaces :
    exists v, Run (recallSystem plainHost) RecallVault.empty promptThenSearch v ∧
      v.log = [(0, Answer.finished), (1, Answer.surfaced composedByPrompt)] ∧
        v.file (StateFile.sessionFile "s") =
          some { inode := 2, stored := Stored.whole composedByPrompt.consume } ∧
        (v.log.filter (interrupts "s" 0 plainHost v)).length = 1 := by
  have hexec : (TransitionSystem.exec (recallNext plainHost)
      RecallVault.empty promptThenSearch).any (fun v =>
        decide (v.log =
          [(0, Answer.finished), (1, Answer.surfaced composedByPrompt)] ∧
        v.file (StateFile.sessionFile "s") =
          some { inode := 2, stored := Stored.whole composedByPrompt.consume } ∧
        (v.log.filter (interrupts "s" 0 plainHost v)).length = 1)) = true := by
    decide +kernel
  rcases (Option.any_eq_true _ _).mp hexec with ⟨v, hs, hall⟩
  exact ⟨v, run_of_exec hs, of_decide_eq_true hall⟩

/-!
## What is surfaced and stored
-/

/-- Whatever stands in a state file, whole or torn, is what one prompt has
composed, or that with its mark, and the file of a session holds no other
session's recall. -/
theorem stored_genuine (h : Reachable (recallSystem host) v)
    (file : StateFile) (entry : FileEntry) (hentry : v.file file = some entry) :
    Genuine host v file entry.stored.state :=
  (guardSound_of_reachable h).stored file entry hentry

theorem stored_genuine_search :
    exists v entry, Reachable (recallSystem plainHost) v ∧
      v.file (StateFile.sessionFile "s") = some entry ∧
        Genuine plainHost v (StateFile.sessionFile "s") entry.stored.state := by
  rcases search_surfaces with ⟨v, hrun, _, hfile, _⟩
  have hreach : Reachable (recallSystem plainHost) v :=
    ⟨RecallVault.empty, promptThenSearch, rfl, hrun⟩
  exact ⟨v, _, hreach, hfile, stored_genuine hreach _ _ hfile⟩

section Counting

variable (segment : String) (arming_id : Nat)

/-- One while the claim can be made. -/
def free (v : RecallVault) : Nat :=
  if v.claimed segment arming_id then 0 else 1

def wonTimes (v : RecallVault) : Nat :=
  (v.wins.filter (wonUnder segment arming_id)).length

variable {segment arming_id}

theorem free_le_one : free segment arming_id v ≤ 1 := by
  unfold free
  split
  · exact Nat.zero_le 1
  · exact Nat.le_refl 1

theorem free_mono (h : v.claimed segment arming_id = true ->
      v'.claimed segment arming_id = true) :
    free segment arming_id v' ≤ free segment arming_id v := by
  unfold free
  split
  · exact Nat.zero_le _
  · rename_i hfree
    rw [if_neg (fun hclaimed => hfree (h hclaimed))]

theorem free_congr (h : v'.claims = v.claims) :
    free segment arming_id v' = free segment arming_id v := by
  unfold free RecallVault.claimed
  rw [h]

/-- A win takes a claim that was free. -/
theorem wonTimes_performed {pid : Nat} {hook : Hook} {op : FileOp}
    {chance : Chance} :
    wonTimes segment arming_id
        (RecallVault.note pid hook (v.perform chance op).2 op
          (v.perform chance op).1) +
      free segment arming_id (v.perform chance op).2 ≤
        wonTimes segment arming_id v + free segment arming_id v := by
  have hmono := @free_mono v (v.perform chance op).2 segment arming_id
    ((v.perform_frame chance op).right.right.right segment arming_id)
  have hwins := (v.perform_frame chance op).right.left
  unfold wonTimes
  rcases RecallVault.note_wins (v.perform chance op).2 pid hook op
    (v.perform chance op).1 with hsame |
      ⟨claimSegment, state, tool, hop, hok, _, hnew⟩
  · rw [hsame, hwins]
    exact Nat.add_le_add_left hmono _
  · rw [hnew, hwins, List.filter_append, List.length_append]
    by_cases hwon : wonUnder segment arming_id
      { pid := pid, segment := claimSegment, state := state } = true
    · rw [List.filter_cons_of_pos hwon, List.filter_nil]
      unfold wonUnder at hwon
      rw [Bool.and_eq_true, decide_eq_true_iff, decide_eq_true_iff] at hwon
      rcases hwon with ⟨hsegment, hid⟩
      subst hop hsegment hid
      have hmade := v.makeClaim_ok chance hok
      have hbefore : free claimSegment state.arming_id v = 1 :=
        if_neg (Bool.eq_false_iff.mp hmade.left)
      have hafter : free claimSegment state.arming_id
          (v.perform chance (FileOp.makeClaim claimSegment state)).2 = 0 :=
        if_pos hmade.right
      rw [hbefore, hafter]
      exact Nat.le_refl _
    · rw [List.filter_cons_of_neg hwon, List.filter_nil]
      exact Nat.add_le_add_left hmono _

theorem wonTimes_step {event : RecallEvent}
    (hstep : RecallStep host v event v') :
    wonTimes segment arming_id v' + free segment arming_id v' ≤
      wonTimes segment arming_id v + free segment arming_id v +
        if prunesClaim segment arming_id event then 1 else 0 := by
  cases hstep with
  | began kind => exact Nat.le_refl _
  | answered pid chance hook result hhook hended hrest => exact Nat.le_refl _
  | crashed pid hook hhook => exact Nat.le_refl _
  | performed pid chance hook op next hhook hended hrest =>
      have hclaims := (RecallVault.note_frame (v.perform chance op).2 pid hook
        op (v.perform chance op).1).right.right.left
      have hle := @wonTimes_performed v segment arming_id pid hook op chance
      rw [← free_congr hclaims] at hle
      exact hle
  | pruned other id now hold =>
      by_cases hprunes : prunesClaim segment arming_id
        (RecallEvent.prune other id now) = true
      · rw [if_pos hprunes]
        have hle := @free_le_one (v.prune other id) segment arming_id
        have hwins : wonTimes segment arming_id (v.prune other id) =
            wonTimes segment arming_id v := rfl
        omega
      · rw [if_neg hprunes]
        have hkept : v.claimed segment arming_id = true ->
            (v.prune other id).claimed segment arming_id = true := by
          intro hclaimed
          rcases List.any_eq_true.mp hclaimed with ⟨claim, hclaim, hsame⟩
          refine List.any_eq_true.mpr
            ⟨claim, List.mem_filter.mpr ⟨hclaim, ?_⟩, hsame⟩
          rw [Bool.not_eq_true', Bool.eq_false_iff]
          intro hpruned
          apply hprunes
          simp only [Bool.and_eq_true, decide_eq_true_iff] at hsame hpruned
          unfold prunesClaim
          rw [← hpruned.left, ← hpruned.right, hsame.left, hsame.right]
          simp
        exact Nat.add_le_add_left (free_mono hkept) _

theorem wonTimes_run {events : List RecallEvent}
    (hrun : Run (recallSystem host) v events v') :
    wonTimes segment arming_id v' + free segment arming_id v' ≤
      wonTimes segment arming_id v + free segment arming_id v +
        (events.filter (prunesClaim segment arming_id)).length := by
  induction hrun with
  | nil s => exact Nat.le_refl _
  | cons hfirst _ ih =>
      have hle := @wonTimes_step host _ _ segment arming_id _
        (recallStep_of_next hfirst)
      rw [List.filter_cons]
      split
      · rename_i hprunes
        rw [if_pos hprunes] at hle
        rw [List.length_cons]
        omega
      · rename_i hprunes
        rw [if_neg hprunes] at hle
        omega

/-- Each interruption is a win of its own. -/
theorem interrupts_le_wonTimes (hsound : GuardSound host v) :
    (v.log.filter (interrupts segment arming_id host v)).length ≤
      wonTimes segment arming_id v := by
  have hnodup : ((v.log.filter (interrupts segment arming_id host v)).map
      (·.1)).Nodup :=
    hsound.log.distinct.sublist (List.filter_sublist.map _)
  have hsub : (v.log.filter (interrupts segment arming_id host v)).map (·.1) ⊆
      (v.wins.filter (wonUnder segment arming_id)).map Win.pid := by
    intro pid hpid
    rcases List.mem_map.mp hpid with ⟨⟨_, answer⟩, hentry, rfl⟩
    rcases List.mem_filter.mp hentry with ⟨hmem, hinterrupts⟩
    cases answer with
    | surfaced state =>
        rcases hsound.log.surfaced _ state hmem with
          ⟨hook, tool, hhook, hkind, hwon, htarget⟩
        have hwin := (hsound.hooks _ hook hhook).recorded tool state hkind hwon
          htarget
        refine List.mem_map.mpr ⟨_, List.mem_filter.mpr ⟨hwin, ?_⟩, rfl⟩
        unfold interrupts at hinterrupts
        dsimp only at hinterrupts
        cases hook with
        | mk kind rest past ended =>
            cases hkind
            rw [hhook] at hinterrupts
            exact hinterrupts
    | _ => cases hinterrupts
  have hle := (hnodup.subperm hsub).length_le
  rw [List.length_map, List.length_map] at hle
  exact hle

end Counting

end Hooks
end Minni
