import Minni.Hooks.RecallProtocol

/-!
# Steps of the recall guard
-/

namespace Minni
namespace Hooks

open Foundation
open Foundation.TransitionSystem

/-!
## What one step can do
-/

/-- The state that a file holds, or that was being written to it. -/
def Stored.state : Stored -> RecallState
  | Stored.whole state => state
  | Stored.part state => state

/-- The operation writes the state to the file. -/
def FileOp.Puts (file : StateFile) (state : RecallState) : FileOp -> Prop
  | FileOp.writeStateFileAtomic target written =>
      target = file ∧ written = state
  | FileOp.openMirror written => file = StateFile.mirror ∧ written = state
  | FileOp.writeMirror _ written => file = StateFile.mirror ∧ written = state
  | _ => False

/-- The operation finds the state in the file. -/
def FileOp.Finds (file : StateFile) (state : RecallState) :
    (op : FileOp) -> Except Unit op.Reply -> Prop
  | FileOp.readState source, Except.ok (some found) =>
      source = file ∧ found = state
  | _, _ => False

inductive RecallStep (host : RecallHost) (v : RecallVault) :
    RecallEvent -> RecallVault -> Prop where
  | began (kind : HookKind) :
      RecallStep host v (RecallEvent.begin_ kind) (v.beginHook host kind)
  | answered (pid : Nat) (chance : Chance) (hook : Hook)
      (result : Except Unit Answer) (hhook : v.hooks[pid]? = some hook)
      (hended : hook.ended = false) (hrest : hook.rest = Program.ret result) :
      RecallStep host v (RecallEvent.step pid chance)
        { v.setHook pid { hook with ended := true } with
          log := v.log ++ [(pid, result.toOption.getD Answer.finished)] }
  | performed (pid : Nat) (chance : Chance) (hook : Hook) (op : FileOp)
      (next : Except Unit op.Reply -> HookProgram Answer)
      (hhook : v.hooks[pid]? = some hook) (hended : hook.ended = false)
      (hrest : hook.rest = Program.op op next) :
      RecallStep host v (RecallEvent.step pid chance)
        ((RecallVault.note pid hook (v.perform chance op).2 op
            (v.perform chance op).1).setHook pid
          { hook with
            rest := next (v.perform chance op).1
            past := hook.past.after op (v.perform chance op).1 })
  | crashed (pid : Nat) (hook : Hook) (hhook : v.hooks[pid]? = some hook) :
      RecallStep host v (RecallEvent.crash pid)
        (v.setHook pid { hook with ended := true })
  | pruned (segment : String) (arming_id now : Nat)
      (hold : oldClaim v segment arming_id now = true) :
      RecallStep host v (RecallEvent.prune segment arming_id now)
        (v.prune segment arming_id)

theorem recallStep_of_next {host : RecallHost} {v v' : RecallVault}
    {event : RecallEvent} (h : recallNext host v event = some v') :
    RecallStep host v event v' := by
  cases event with
  | begin_ kind =>
      cases h
      exact RecallStep.began kind
  | step pid chance =>
      unfold recallNext at h
      dsimp only at h
      split at h
      · cases h
      · rename_i hook hhook
        split at h
        · cases h
        · rename_i hended
          cases h
          unfold RecallVault.stepHook
          split
          · rename_i result hrest
            exact RecallStep.answered pid chance hook result hhook
              (Bool.eq_false_iff.mpr hended) hrest
          · rename_i op next hrest
            exact RecallStep.performed pid chance hook op next hhook
              (Bool.eq_false_iff.mpr hended) hrest
  | crash pid =>
      unfold recallNext at h
      dsimp only at h
      split at h
      · cases h
      · rename_i hook hhook
        cases h
        exact RecallStep.crashed pid hook hhook
  | prune segment arming_id now =>
      unfold recallNext at h
      dsimp only at h
      split at h
      · rename_i hold
        cases h
        exact RecallStep.pruned segment arming_id now hold
      · cases h

namespace RecallVault

/-!
## What an operation changes
-/

section Frames

variable (v : RecallVault) (pid : Nat) (hook : Hook) (chance : Chance)
  (op : FileOp)

@[simp]
theorem setHook_files : (v.setHook pid hook).files = v.files := rfl

@[simp]
theorem setHook_wins : (v.setHook pid hook).wins = v.wins := rfl

@[simp]
theorem setHook_log : (v.setHook pid hook).log = v.log := rfl

/-- The history of an operation leaves what the hooks work on. -/
theorem note_frame (reply : Except Unit op.Reply) :
    (note pid hook v op reply).files = v.files ∧
      (note pid hook v op reply).hooks = v.hooks ∧
      (note pid hook v op reply).claims = v.claims ∧
      (note pid hook v op reply).log = v.log := by
  unfold note
  split
  · split
    · exact ⟨rfl, rfl, rfl, rfl⟩
    · exact ⟨rfl, rfl, rfl, rfl⟩
  · exact ⟨rfl, rfl, rfl, rfl⟩

/-- A claim of a tool call that was made is a win, and nothing else is. -/
theorem note_wins (reply : Except Unit op.Reply) :
    (note pid hook v op reply).wins = v.wins ∨
      exists segment state tool,
        op = FileOp.makeClaim segment state ∧ reply.isOk = true ∧
          hook.kind = HookKind.tool tool ∧
          (note pid hook v op reply).wins = v.wins ++
            [{ pid := pid
               segment := segment
               state := state }] := by
  unfold note
  split
  · rename_i segment state made
    split
    · rename_i tool hkind
      right
      exact ⟨segment, state, tool, rfl, rfl, hkind, rfl⟩
    · exact Or.inl rfl
  · exact Or.inl rfl

theorem unlessFails_keeps {α : Type} {P : RecallVault -> Prop} (hv : P v)
    (outcome : α × RecallVault) (h : P outcome.2) :
    P (v.unlessFails chance outcome).2 := by
  unfold unlessFails
  split
  · exact hv
  · exact h

theorem claimed_addClaim (segment wanted : String) (arming_id id : Nat) :
    (v.addClaim chance segment arming_id).claimed wanted id =
      (v.claimed wanted id ||
        (decide (segment = wanted) && decide (arming_id = id))) := by
  unfold claimed addClaim
  dsimp only
  rw [List.any_append]
  simp

/-- Only `note` records, an operation starts and ends no hook, and none removes
a claim. -/
theorem perform_frame :
    (v.perform chance op).2.hooks = v.hooks ∧
      (v.perform chance op).2.wins = v.wins ∧
      (v.perform chance op).2.log = v.log ∧
      forall segment arming_id, v.claimed segment arming_id = true ->
        (v.perform chance op).2.claimed segment arming_id = true := by
  have hunless := fun {α : Type} => @unlessFails_keeps v chance α
    (fun w => w.hooks = v.hooks ∧ w.wins = v.wins ∧ w.log = v.log ∧
      forall segment arming_id, v.claimed segment arming_id = true ->
        w.claimed segment arming_id = true)
    ⟨rfl, rfl, rfl, fun _ _ h => h⟩
  cases op with
  | openMirror state =>
      apply hunless
      unfold openMirror
      split
      · exact ⟨rfl, rfl, rfl, fun _ _ h => h⟩
      · exact ⟨rfl, rfl, rfl, fun _ _ h => h⟩
  | writeMirror inode state =>
      unfold perform writeMirror
      dsimp only
      split
      · exact ⟨rfl, rfl, rfl, fun _ _ h => h⟩
      · split
        · exact ⟨rfl, rfl, rfl, fun _ _ h => h⟩
        · exact ⟨rfl, rfl, rfl, fun _ _ h => h⟩
  | makeClaim made state =>
      unfold perform makeClaim
      dsimp only
      split
      · exact ⟨rfl, rfl, rfl, fun _ _ h => h⟩
      · refine ⟨rfl, rfl, rfl, ?_⟩
        intro segment arming_id hclaimed
        rw [claimed_addClaim, hclaimed]
        rfl
  | _ =>
      apply hunless
      exact ⟨rfl, rfl, rfl, fun _ _ h => h⟩

theorem file_of_put {target f : StateFile} {new entry : FileEntry}
    (h : (v.put target new).file f = some entry) :
    v.file f = some entry ∨ f = target ∧ new = entry := by
  have hlookup := (Dict.lookup_set target new v.files f).symm.trans h
  split at hlookup
  · rename_i hsame
    exact Or.inr ⟨hsame, Option.some.inj hlookup⟩
  · exact Or.inl hlookup

/-- What stands in a file stood there before, or is written to it now. -/
theorem file_perform {f : StateFile} {entry : FileEntry}
    (h : (v.perform chance op).2.file f = some entry) :
    v.file f = some entry ∨ op.Puts f entry.stored.state := by
  have hunless := fun {α : Type} => @unlessFails_keeps v chance α
    (fun w => w.file f = some entry ->
      v.file f = some entry ∨ op.Puts f entry.stored.state) Or.inl
  cases op with
  | writeStateFileAtomic target state =>
      apply hunless _ _ h
      intro hfile
      rcases v.file_of_put hfile with hold | ⟨rfl, rfl⟩
      · exact Or.inl hold
      · exact Or.inr ⟨rfl, rfl⟩
  | openMirror state =>
      apply hunless _ _ h
      intro hfile
      unfold openMirror at hfile
      split at hfile
      · rcases v.file_of_put hfile with hold | ⟨rfl, rfl⟩
        · exact Or.inl hold
        · exact Or.inr ⟨rfl, rfl⟩
      · rcases v.file_of_put hfile with hold | ⟨rfl, rfl⟩
        · exact Or.inl hold
        · exact Or.inr ⟨rfl, rfl⟩
  | writeMirror inode state =>
      change (v.writeMirror _ inode state).file f = some entry at h
      unfold writeMirror at h
      split at h
      · exact Or.inl h
      · split at h
        · rcases v.file_of_put h with hold | ⟨rfl, rfl⟩
          · exact Or.inl hold
          · refine Or.inr ⟨rfl, ?_⟩
            dsimp only
            split
            · rfl
            · rfl
        · exact Or.inl h
  | rm target =>
      apply hunless _ _ h
      intro hfile
      change (Dict.erase target v.files).lookup f = some entry at hfile
      rw [Dict.lookup_erase] at hfile
      split at hfile
      · cases hfile
      · exact Or.inl hfile
  | makeClaim segment state =>
      change (v.makeClaim _ segment _).2.file f = some entry at h
      unfold makeClaim at h
      split at h
      · exact Or.inl h
      · exact Or.inl h
  | _ =>
      apply hunless _ _ h
      exact Or.inl

theorem file_of_holds {f : StateFile} {state : RecallState}
    (h : v.holds f = some state) :
    exists entry, v.file f = some entry ∧ entry.stored.state = state := by
  unfold holds at h
  split at h
  · rename_i inode found hfile
    cases h
    exact ⟨_, hfile, rfl⟩
  · cases h

theorem holds_of_reply {source : StateFile} {state : RecallState}
    (h : (v.unlessFails chance (v.holds source, v)).1 =
      Except.ok (some state)) :
    v.holds source = some state := by
  unfold unlessFails at h
  split at h
  · cases h
  · injection h

theorem file_of_finds {f : StateFile} {state : RecallState}
    (h : op.Finds f state (v.perform chance op).1) :
    exists entry, v.file f = some entry ∧ entry.stored.state = state := by
  cases op with
  | readState source =>
      change FileOp.Finds f state (FileOp.readState source)
        (v.unlessFails chance (v.holds source, v)).1 at h
      generalize hreply : (v.unlessFails chance (v.holds source, v)).1 =
        reply at h
      rcases reply with e | (_ | found)
      · exact h.elim
      · exact h.elim
      · apply v.file_of_holds
        rw [← h.left, ← h.right]
        exact v.holds_of_reply chance hreply
  | _ => exact h.elim

/-- A claim that is made was not there. -/
theorem makeClaim_ok {segment : String} {arming_id : Nat}
    (h : (v.makeClaim chance segment arming_id).1.isOk = true) :
    v.claimed segment arming_id = false ∧
      (v.makeClaim chance segment arming_id).2.claimed segment arming_id =
        true := by
  unfold makeClaim at h ⊢
  split at h
  · cases h
  · rename_i hfree
    rw [if_neg hfree]
    rw [Bool.or_eq_true, not_or] at hfree
    constructor
    · exact Bool.eq_false_iff.mpr hfree.left
    · dsimp only
      rw [claimed_addClaim]
      simp

end Frames

end RecallVault

/-!
## What a hook has done
-/

section Pasts

variable {past : HookPast} {op : FileOp} {reply : Except Unit op.Reply}

theorem known_sees {file f : StateFile} {state : RecallState}
    {found : Except Unit (Option RecallState)}
    (h : (f, state) ∈ (past.sees file found).known) :
    (f, state) ∈ past.known ∨
      (file = f ∧ found = Except.ok (some state)) := by
  unfold HookPast.sees at h
  split at h
  · rcases List.mem_cons.mp h with hnew | hold
    · injection hnew with hfile hstate
      rw [hfile, hstate]
      exact Or.inr ⟨rfl, rfl⟩
    · exact Or.inl hold
  · exact Or.inl h

theorem known_after {f : StateFile} {state : RecallState}
    (h : (f, state) ∈ (past.after op reply).known) :
    (f, state) ∈ past.known ∨ op.Finds f state reply := by
  unfold HookPast.after at h
  split at h
  · rcases known_sees h with hold | ⟨rfl, rfl⟩
    · exact Or.inl hold
    · exact Or.inr ⟨rfl, rfl⟩
  · exact Or.inl h
  · split at h
    · exact Or.inl h
    · exact Or.inl h
  · exact Or.inl h
  · exact Or.inl h

theorem last_known_sees {file : StateFile} {x : StateFile × RecallState}
    {found : Except Unit (Option RecallState)}
    (h : (past.sees file found).last = some x) :
    x ∈ (past.sees file found).known := by
  unfold HookPast.sees at h ⊢
  split at h
  · cases h
    exact List.mem_cons_self
  · cases h

theorem last_known_after {x : StateFile × RecallState}
    (h : (past.after op reply).last = some x) :
    x ∈ (past.after op reply).known := by
  unfold HookPast.after at h ⊢
  split at h
  · exact last_known_sees h
  · cases h
  · split at h
    · cases h
    · cases h
  · cases h
  · cases h

/-- What a prompt has composed stays as it is. -/
theorem composed_after {payload : RecallState}
    (h : past.composed = some payload) :
    (past.after op reply).composed = some payload := by
  have hwrites : forall state,
      (past.writes state).composed = some payload := by
    intro state
    unfold HookPast.writes
    dsimp only
    rw [h]
    rfl
  unfold HookPast.after
  split
  · exact (sameDeeds_sees _ _).composed.trans h
  · exact h
  · split
    · exact hwrites _
    · exact h
  · exact hwrites _
  · exact h

/-- A tool call claims once, and what it marks does not change what it has
claimed. -/
theorem claim_after {host : RecallHost} {tool : ToolCall}
    (hmay : toolMay host tool past op) :
    ((past.after op reply).target = past.target ∧
        (past.after op reply).won = past.won) ∨
      exists segment state, op = FileOp.makeClaim segment state ∧
        (past.after op reply).target = some state ∧
        (past.after op reply).won = reply.isOk := by
  unfold HookPast.after
  split
  · exact Or.inl ⟨(sameDeeds_sees _ _).target, (sameDeeds_sees _ _).won⟩
  · rename_i segment state made
    exact Or.inr ⟨segment, state, rfl, rfl, rfl⟩
  · left
    split
    · exact ⟨rfl, rfl⟩
    · exact ⟨rfl, rfl⟩
  · exact Or.inl ⟨rfl, rfl⟩
  · exact Or.inl ⟨rfl, rfl⟩

end Pasts

end Hooks
end Minni
