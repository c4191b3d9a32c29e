import Minni.Foundation.Protocol
import Minni.Foundation.Text

/-!
# The recall state of a vault

A prompt with strong recall writes it to a file of its session and to a mirror
that all sessions share.  A tool call reads it, claims it and marks it consumed,
and a consult of the memory does the same to disarm it.  No lock is held: each
of these is a program of single operations on files.
-/

namespace Minni
namespace Hooks

open Foundation

/-!
## Sessions
-/

structure RecallHost where
  /-- The first 16 hexadecimal digits of the SHA-256. -/
  sha256 : String -> String

def isHex16 (text : String) : Bool :=
  text.length = 16 && text.toList.all fun c =>
    ('0' ≤ c && c ≤ '9') || ('a' ≤ c && c ≤ 'f')

/-- `SAFE_TOKEN_RE`. -/
def isSafeToken (text : String) : Bool :=
  let plain := fun (c : Char) =>
    ('0' ≤ c && c ≤ '9') || ('a' ≤ c && c ≤ 'z') || ('A' ≤ c && c ≤ 'Z')
  match text.toList with
  | [] => false
  | first :: rest =>
      plain first && decide (rest.length ≤ 63) &&
        rest.all fun c => plain c || c = '_' || c = '-'

/-- The key of a session.  Without a label, and for the made up `session`, there
is none. -/
@[irreducible] def sessionStateKey (host : RecallHost) (sessionId : String) :
    Option String :=
  let trimmed := Text.trim sessionId
  if trimmed = "" || trimmed = "session" then none
  else if isHex16 trimmed then some trimmed
  else some (host.sha256 trimmed)

def safeClaimSegment (host : RecallHost) (raw fallback : String) : String :=
  let trimmed := Text.trim raw
  if trimmed = "" then fallback
  else if isSafeToken trimmed then trimmed
  else host.sha256 trimmed

/-- The part of a claim's name that says whose claim it is. -/
def claimSegment (host : RecallHost) (sessionKey : Option String) : String :=
  match sessionStateKey host (sessionKey.getD "") with
  | some key => key
  | none => safeClaimSegment host (sessionKey.getD "") "default"

/-!
## What is stored

A state carries the call that has written it, so that the payload of each call
can be told apart.  A new arming id is drawn at random; it is identified with
the call that has drawn it.
-/

structure RecallState where
  call : Nat
  task_signature : String
  top_score : Rat
  consumed : Bool
  session_id : Option String
  pointer_named : List String
  arming_id : Nat
  deriving DecidableEq

inductive StateFile where
  | mirror
  | sessionFile (key : String)
  deriving DecidableEq

inductive FileOp where
  /-- A file that is missing or does not parse has no state. -/
  | readState (file : StateFile)
  | fileOrLinkExists (file : StateFile)
  /-- A temporary file that is renamed. -/
  | writeStateFileAtomic (file : StateFile) (state : RecallState)
  /-- The mirror is opened for writing, and is empty from then on. -/
  | openMirror (state : RecallState)
  | writeMirror (inode : Nat) (state : RecallState)
  | rm (file : StateFile)
  /-- A file that must not be there yet is made and written. -/
  | makeClaim (segment : String) (state : RecallState)
  | readdir
  deriving DecidableEq

@[reducible]
def FileOp.Reply : FileOp -> Type
  | readState _ => Option RecallState
  | fileOrLinkExists _ => Bool
  | openMirror _ => Nat
  | readdir => List String
  | _ => Unit

/-- An operation that fails throws; nobody looks at what it throws. -/
abbrev HookProgram (α : Type) := Program FileOp FileOp.Reply Unit α

def run (op : FileOp) : HookProgram op.Reply :=
  Program.perform op

def orElse (fallback : α) (p : HookProgram α) : HookProgram α :=
  p.tryCatch fun _ => pure fallback

section Programs

variable (host : RecallHost)

/-- Whether a session takes up what it finds in the mirror. -/
def accepts (key : String) (state : RecallState) : Bool :=
  match state.session_id with
  | none => true
  | some sessionId => decide (sessionStateKey host sessionId = some key)

/-!
## Reading
-/

def readRecallState (sessionId : String) : HookProgram (Option RecallState) :=
  match sessionStateKey host sessionId with
  | some key => do
      match ← run (FileOp.readState (StateFile.sessionFile key)) with
      | some state => pure (some state)
      | none => do
          let mirror ← run (FileOp.readState StateFile.mirror)
          pure (mirror.filter (accepts host key))
  | none => run (FileOp.readState StateFile.mirror)

/-!
## Claims
-/

def claimArming (segment : String) (state : RecallState) : HookProgram Bool :=
  orElse false do
    run (FileOp.makeClaim segment state)
    pure true

/-!
## Writing
-/

structure RecallInput where
  task_signature : String
  top_score : Rat
  consumed : Bool
  /-- The session in the state, and the one in the options. -/
  session_id : String
  sessionId : String
  pointer_named : List String

def effectiveSessionId (input : RecallInput) : Option String :=
  let rawSession :=
    if Text.trim input.session_id ≠ "" then Text.trim input.session_id
    else Text.trim input.sessionId
  if rawSession = "" || rawSession = "session" then none else some rawSession

def preserveConsumed (input : RecallInput) (existing : Option RecallState) :
    Bool :=
  input.consumed ||
    match existing with
    | none => false
    | some state =>
        decide (state.task_signature = input.task_signature) && state.consumed

def recallPayload (call : Nat) (input : RecallInput)
    (existing : Option RecallState) : RecallState where
  call := call
  task_signature := input.task_signature
  top_score := input.top_score
  consumed := preserveConsumed input existing
  session_id := effectiveSessionId input
  pointer_named := input.pointer_named
  arming_id :=
    if preserveConsumed input existing then
      (existing.map RecallState.arming_id).getD call
    else call

/-- `writeFile` on the mirror, which is no atomic write. -/
def writeMirrorFile (payload : RecallState) : HookProgram Unit := do
  let inode ← run (FileOp.openMirror payload)
  run (FileOp.writeMirror inode payload)

/-- The file of the session first, then the mirror. -/
def writePayload (payload : RecallState) : HookProgram Unit :=
  match sessionStateKey host (payload.session_id.getD "") with
  | some key => do
      run (FileOp.writeStateFileAtomic (StateFile.sessionFile key) payload)
      writeMirrorFile payload
  | none => writeMirrorFile payload

def writeRecallState (call : Nat) (input : RecallInput) :
    HookProgram Unit := do
  let existing ← orElse none
    (readRecallState host ((effectiveSessionId input).getD ""))
  writePayload host (recallPayload call input existing)

/-!
## Clearing
-/

def clearRecallState (sessionId : String) : HookProgram Unit :=
  match sessionStateKey host sessionId with
  | some key => do
      run (FileOp.rm (StateFile.sessionFile key))
      let mirror ← orElse none (run (FileOp.readState StateFile.mirror))
      if mirror.all (accepts host key) then run (FileOp.rm StateFile.mirror)
      else pure ()
  | none => run (FileOp.rm StateFile.mirror)

/-!
## Marking
-/

def RecallState.consume (state : RecallState) : RecallState :=
  { state with consumed := true }

/-- The read does not check the shape, which whatever is written has. -/
def markFileConsumed (file : StateFile) : HookProgram Bool :=
  orElse false do
    match ← run (FileOp.readState file) with
    | none => pure false
    | some parsed => do
        run (FileOp.writeStateFileAtomic file parsed.consume)
        pure true

/-- Whether the file is there, and whether it was marked. -/
def markIfExists (file : StateFile) : HookProgram (Bool × Bool) := do
  let found ← orElse false (run (FileOp.fileOrLinkExists file))
  if found then do
    let ok ← markFileConsumed file
    pure (true, ok)
  else pure (false, false)

def markMirrorFor (key : String) : HookProgram Bool := do
  match ← orElse none (run (FileOp.readState StateFile.mirror)) with
  | none => pure false
  | some mirror =>
      if accepts host key mirror then markFileConsumed StateFile.mirror
      else pure false

/-- The session file of what was found in the mirror. -/
def markSessionOf (mirror : Option RecallState) : HookProgram Bool :=
  let sessionId := mirror.bind RecallState.session_id
  match sessionStateKey host (sessionId.getD "") with
  | none => pure false
  | some key => do
      let marked ← markIfExists (StateFile.sessionFile key)
      pure marked.2

def markRecallConsumed (sessionId : String) : HookProgram Bool :=
  match sessionStateKey host sessionId with
  | some key => do
      let own ← markIfExists (StateFile.sessionFile key)
      let mirrorOk ← markMirrorFor host key
      pure (if own.1 then own.2 else mirrorOk)
  | none => do
      let mirror ← orElse none (run (FileOp.readState StateFile.mirror))
      let mirrorOk ← markFileConsumed StateFile.mirror
      let _ ← markSessionOf host mirror
      pure mirrorOk

/-!
## Disarming
-/

/-- A consult that knows its session. -/
def disarmSession (sessionId : String) : HookProgram Bool := do
  match ← orElse none (readRecallState host sessionId) with
  | none => pure false
  | some st => do
      let _ ← claimArming (claimSegment host (some sessionId)) st
      if st.consumed then pure true
      else orElse false (markRecallConsumed host sessionId)

/-- The claim is made, and the file is marked where its state is not consumed
yet. -/
def disarmFile (file : StateFile) (segment : String) (st : RecallState) :
    HookProgram Bool := do
  let _ ← claimArming segment st
  if st.consumed then pure true else markFileConsumed file

def disarmMirror : HookProgram Bool := do
  let mirror ← orElse none (run (FileOp.readState StateFile.mirror))
  match mirror with
  | none => pure false
  | some st => do
      let disarmed ←
        disarmFile StateFile.mirror (claimSegment host st.session_id) st
      let marked ← markSessionOf host mirror
      pure (disarmed || marked)

/-- The session files, as far as their names are keys. -/
def disarmSessionFiles (anyDisarmed : Bool) : List String -> HookProgram Bool
  | [] => pure anyDisarmed
  | stem :: rest =>
      if isHex16 stem then do
        let file := StateFile.sessionFile stem
        match ← orElse none (run (FileOp.readState file)) with
        | none => disarmSessionFiles anyDisarmed rest
        | some st => do
            let disarmed ← disarmFile file
              (claimSegment host (st.session_id.or (some stem))) st
            disarmSessionFiles (anyDisarmed || disarmed) rest
      else disarmSessionFiles anyDisarmed rest

def disarmAll : HookProgram Bool := do
  let anyDisarmed ← disarmMirror host
  let names ← orElse [] (run FileOp.readdir)
  disarmSessionFiles host anyDisarmed names

def disarmRecallStateOnConsult (sessionId : String) : HookProgram Bool :=
  match sessionStateKey host sessionId with
  | some _ => disarmSession host sessionId
  | none => disarmAll host

end Programs

end Hooks
end Minni
