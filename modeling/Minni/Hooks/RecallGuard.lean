import Minni.Foundation.Dict
import Minni.Foundation.TransitionSystem
import Minni.Hooks.RecallState

/-!
# The recall guard

A tool call that starts a cold search while a recall was not consulted is
interrupted once.  The hooks of any number of processes run on one vault and
take single operations on its files in any order; an operation may fail, a
process may die, and old claims may be pruned at any clock.
-/

namespace Minni
namespace Hooks

open Foundation

/-!
## The guard
-/

/-- A tool call outside of a subagent, while the guard is on. -/
structure ToolCall where
  guardSessionId : String
  soft : Bool
  threshold : Rat
  /-- `isToolInScope` of the mode, the tool and its input. -/
  in_scope : Bool
  deriving DecidableEq

def decideGuard (tool : ToolCall) (state : RecallState) : Bool :=
  if state.consumed then false
  else if tool.soft && state.pointer_named.any fun item => !Text.isBlank item
    then false
  else decide (tool.threshold <= state.top_score) && tool.in_scope

inductive Answer where
  | allowed
  | surfaced (state : RecallState)
  | consulted (disarmed : Bool)
  | finished
  deriving DecidableEq

/-- `guardSessionId || state.session_id`. -/
def guardKey (tool : ToolCall) (state : RecallState) : Option String :=
  if tool.guardSessionId = "" then state.session_id
  else some tool.guardSessionId

def handlePreToolUse (host : RecallHost) (tool : ToolCall) :
    HookProgram Answer := do
  match ← orElse none (readRecallState host tool.guardSessionId) with
  | none => pure Answer.allowed
  | some state =>
      if decideGuard tool state then do
        let claimed ←
          claimArming (claimSegment host (guardKey tool state)) state
        if claimed then do
          let consumed ←
            orElse false (markRecallConsumed host tool.guardSessionId)
          pure (if consumed then Answer.surfaced state else Answer.allowed)
        else pure Answer.allowed
      else pure Answer.allowed

/-!
## Hooks
-/

inductive HookKind where
  | tool (tool : ToolCall)
  | consult (sessionId : String)
  | prompt (input : RecallInput)
  | clear (sessionId : String)

/-- What a prompt hook writes and clears is best effort. -/
def bestEffort (p : HookProgram Unit) : HookProgram Answer :=
  orElse Answer.finished do
    p
    pure Answer.finished

def hookProgram (host : RecallHost) (call : Nat) :
    HookKind -> HookProgram Answer
  | HookKind.tool tool => handlePreToolUse host tool
  | HookKind.consult sessionId => do
      let disarmed ← disarmRecallStateOnConsult host sessionId
      pure (Answer.consulted disarmed)
  | HookKind.prompt input => bestEffort (writeRecallState host call input)
  | HookKind.clear sessionId => bestEffort (clearRecallState host sessionId)

/-- What a hook has done so far: the file it has read last, when that was its
last operation, and all it has read; the state it has claimed and whether it has
won the claim; and the state it writes. -/
structure HookPast where
  last : Option (StateFile × RecallState)
  known : List (StateFile × RecallState)
  target : Option RecallState
  won : Bool
  composed : Option RecallState
  deriving DecidableEq

def HookPast.start : HookPast where
  last := none
  known := []
  target := none
  won := false
  composed := none

def HookPast.sees (past : HookPast) (file : StateFile) :
    Except Unit (Option RecallState) -> HookPast
  | Except.ok (some state) =>
      { past with
        last := some (file, state)
        known := (file, state) :: past.known }
  | _ => { past with last := none }

def HookPast.writes (past : HookPast) (state : RecallState) : HookPast :=
  { past with
    last := none
    composed := some (past.composed.getD state) }

/-- The write of a session file is that of a prompt unless something was claimed
before it. -/
def HookPast.after (past : HookPast) (op : FileOp)
    (reply : Except Unit op.Reply) : HookPast :=
  match op, reply with
  | FileOp.readState file, reply => past.sees file reply
  | FileOp.makeClaim _ state, reply =>
      { past with
        last := none
        target := some state
        won := reply.isOk }
  | FileOp.writeStateFileAtomic _ state, _ =>
      match past.target with
      | none => past.writes state
      | some _ => { past with last := none }
  | FileOp.openMirror state, _ => past.writes state
  | _, _ => { past with last := none }

structure Hook where
  kind : HookKind
  rest : HookProgram Answer
  past : HookPast
  ended : Bool

/-!
## The vault
-/

/-- A file that is being written holds part of what is written to it. -/
inductive Stored where
  | whole (state : RecallState)
  | part (state : RecallState)
  deriving DecidableEq

structure FileEntry where
  inode : Nat
  stored : Stored
  deriving DecidableEq

structure Claim where
  segment : String
  arming_id : Nat
  mtime : Nat
  deriving DecidableEq

/-- A claim that a tool call has won. -/
structure Win where
  pid : Nat
  segment : String
  state : RecallState
  deriving DecidableEq

/-- The last two fields are history: the answers in their order, and the claims
that tool calls have won. -/
structure RecallVault where
  files : List (StateFile × FileEntry)
  next_inode : Nat
  claims : List Claim
  hooks : List Hook
  log : List (Nat × Answer)
  wins : List Win

def RecallVault.empty : RecallVault where
  files := []
  next_inode := 0
  claims := []
  hooks := []
  log := []
  wins := []

/-- What chance does to one operation: it may fail, it may be cut short, and it
happens at some clock. -/
structure Chance where
  fails : Bool
  half : Bool
  clock : Nat

namespace RecallVault

def file (v : RecallVault) (f : StateFile) : Option FileEntry :=
  v.files.lookup f

def holds (v : RecallVault) (f : StateFile) : Option RecallState :=
  match v.file f with
  | some { inode := _, stored := Stored.whole state } => some state
  | _ => none

def claimed (v : RecallVault) (segment : String) (arming_id : Nat) : Bool :=
  v.claims.any fun claim =>
    claim.segment = segment && claim.arming_id = arming_id

def put (v : RecallVault) (f : StateFile) (entry : FileEntry) : RecallVault :=
  { v with files := Dict.set f entry v.files }

def writeStateFileAtomic (v : RecallVault) (f : StateFile)
    (state : RecallState) : RecallVault :=
  { v.put f { inode := v.next_inode, stored := Stored.whole state } with
    next_inode := v.next_inode + 1 }

def openMirror (v : RecallVault) (state : RecallState) : Nat × RecallVault :=
  match v.file StateFile.mirror with
  | some entry =>
      (entry.inode,
        v.put StateFile.mirror { entry with stored := Stored.part state })
  | none =>
      (v.next_inode,
        { v.put StateFile.mirror
            { inode := v.next_inode, stored := Stored.part state } with
          next_inode := v.next_inode + 1 })

/-- What goes to a file that was renamed over or removed is lost; what two
processes write to one file at a time may not be whole. -/
def writeMirror (v : RecallVault) (whole : Bool) (inode : Nat)
    (state : RecallState) : RecallVault :=
  match v.file StateFile.mirror with
  | none => v
  | some entry =>
      if entry.inode = inode then
        v.put StateFile.mirror
          { inode := inode
            stored := if whole then Stored.whole state else Stored.part state }
      else v

def rm (v : RecallVault) (f : StateFile) : RecallVault :=
  { v with files := Dict.erase f v.files }

def addClaim (v : RecallVault) (chance : Chance) (segment : String)
    (arming_id : Nat) : RecallVault :=
  { v with
    claims := v.claims ++
      [{ segment := segment
         arming_id := arming_id
         mtime := chance.clock }] }

/-- A claim may fail before its file is made and after. -/
def makeClaim (v : RecallVault) (chance : Chance) (segment : String)
    (arming_id : Nat) : Except Unit Unit × RecallVault :=
  if v.claimed segment arming_id || (chance.fails && !chance.half) then
    (Except.error (), v)
  else
    (if chance.fails then Except.error () else Except.ok (),
      v.addClaim chance segment arming_id)

def sessionFileNames (v : RecallVault) : List String :=
  v.files.filterMap fun entry =>
    match entry.1 with
    | StateFile.sessionFile key => some key
    | StateFile.mirror => none

def unlessFails (chance : Chance) (v : RecallVault) {α : Type}
    (outcome : α × RecallVault) : Except Unit α × RecallVault :=
  if chance.fails then (Except.error (), v)
  else (Except.ok outcome.1, outcome.2)

def perform (v : RecallVault) (chance : Chance) :
    (op : FileOp) -> Except Unit op.Reply × RecallVault
  | FileOp.readState f => v.unlessFails chance (v.holds f, v)
  | FileOp.fileOrLinkExists f => v.unlessFails chance ((v.file f).isSome, v)
  | FileOp.writeStateFileAtomic f state =>
      v.unlessFails chance ((), v.writeStateFileAtomic f state)
  | FileOp.openMirror state => v.unlessFails chance (v.openMirror state)
  -- a write that fails may have been cut short
  | FileOp.writeMirror inode state =>
      (if chance.fails then Except.error () else Except.ok (),
        v.writeMirror (!chance.fails && !chance.half) inode state)
  | FileOp.rm f => v.unlessFails chance ((), v.rm f)
  | FileOp.makeClaim segment state =>
      v.makeClaim chance segment state.arming_id
  | FileOp.readdir => v.unlessFails chance (v.sessionFileNames, v)

/-!
## Steps
-/

/-- The history of one operation. -/
def note (pid : Nat) (hook : Hook) (v : RecallVault) (op : FileOp)
    (reply : Except Unit op.Reply) : RecallVault :=
  match op, reply with
  | FileOp.makeClaim segment state, Except.ok _ =>
      match hook.kind with
      | HookKind.tool _ =>
          { v with
            wins := v.wins ++
              [{ pid := pid
                 segment := segment
                 state := state }] }
      | _ => v
  | _, _ => v

def setHook (v : RecallVault) (pid : Nat) (hook : Hook) : RecallVault :=
  { v with hooks := v.hooks.set pid hook }

/-- A hook takes its next operation, or gives its answer. -/
def stepHook (v : RecallVault) (pid : Nat) (chance : Chance) (hook : Hook) :
    RecallVault :=
  match hook.rest with
  | Program.ret result =>
      { v.setHook pid { hook with ended := true } with
        log := v.log ++ [(pid, result.toOption.getD Answer.finished)] }
  | Program.op op next =>
      let outcome := v.perform chance op
      (note pid hook outcome.2 op outcome.1).setHook pid
        { hook with
          rest := next outcome.1
          past := hook.past.after op outcome.1 }

def beginHook (host : RecallHost) (v : RecallVault) (kind : HookKind) :
    RecallVault :=
  { v with
    hooks := v.hooks ++
      [{ kind := kind
         rest := hookProgram host v.hooks.length kind
         past := HookPast.start
         ended := false }] }

def prune (v : RecallVault) (segment : String) (arming_id : Nat) :
    RecallVault :=
  { v with
    claims := v.claims.filter fun claim =>
      !(claim.segment = segment && claim.arming_id = arming_id) }

end RecallVault

/-- 24 hours. -/
def claimRetentionMs : Nat := 24 * 60 * 60 * 1000

/-- One claim file that `pruneOldClaimFiles` comes to. -/
def oldClaim (v : RecallVault) (segment : String) (arming_id now : Nat) :
    Bool :=
  v.claims.any fun claim =>
    claim.segment = segment && claim.arming_id = arming_id &&
      decide (claim.mtime + claimRetentionMs < now)

inductive RecallEvent where
  | begin_ (kind : HookKind)
  | step (pid : Nat) (chance : Chance)
  | crash (pid : Nat)
  | prune (segment : String) (arming_id now : Nat)

def recallNext (host : RecallHost) (v : RecallVault) :
    RecallEvent -> Option RecallVault
  | RecallEvent.begin_ kind => some (v.beginHook host kind)
  | RecallEvent.step pid chance =>
      match v.hooks[pid]? with
      | none => none
      | some hook =>
          if hook.ended then none else some (v.stepHook pid chance hook)
  | RecallEvent.crash pid =>
      match v.hooks[pid]? with
      | none => none
      | some hook => some (v.setHook pid { hook with ended := true })
  | RecallEvent.prune segment arming_id now =>
      if oldClaim v segment arming_id now then
        some (v.prune segment arming_id)
      else none

def recallSystem (host : RecallHost) :
    TransitionSystem RecallVault RecallEvent :=
  TransitionSystem.OfNext (fun v => v = RecallVault.empty) (recallNext host)

end Hooks
end Minni
