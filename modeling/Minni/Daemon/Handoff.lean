import Minni.Foundation.Json
import Minni.Foundation.PyText
import Minni.Daemon.Principal

/-!
# Handoffs between agents

A handoff is a packet in the outbox of its sender and in the inbox of its
recipient, and a lease row in the database.  The two channels are written one
after the other, and each call consults both.
-/

namespace Minni
namespace Daemon

open Foundation

/-!
## Packets and leases
-/

structure Packet where
  from_agent : String
  to_agent : String
  kind : String
  task : String
  envelope : String
  wikilink_refs : List String
  trace_id : String
  created_at : String
  lease_id : String
  requires_ack : Bool
  expires_at : String
  ack_status : Option String
  acked_at : Option String
deriving DecidableEq

/-- An empty status counts as none. -/
def Packet.acked (packet : Packet) : Bool :=
  packet.ack_status.getD "" ≠ ""

inductive Box where
  | inbox
  | outbox
  | archive
deriving DecidableEq

/-- The name of a packet file: its stamp, the slug of its task, and the lease
for which the digest stands; in the archive a number tells copies apart. -/
structure PacketName where
  stamp : String
  slug : String
  lease_id : String
  copy : Nat
deriving DecidableEq

def PacketName.text (name : PacketName) : String :=
  name.stamp ++ "-" ++ name.slug ++ "-" ++ name.lease_id

structure PacketPath where
  vault : String
  box : Box
  name : PacketName
deriving DecidableEq

structure PacketFile where
  path : PacketPath
  packet : Packet
deriving DecidableEq

inductive LeaseStatus where
  | pending
  | not_required
  | acked (status : String)
deriving DecidableEq

def LeaseStatus.text : LeaseStatus -> String
  | pending => "pending"
  | not_required => "not_required"
  | acked status => status

structure Lease where
  lease_id : String
  from_agent : String
  to_agent : String
  task : String
  status : LeaseStatus
  inbox_path : PacketPath
  outbox_path : PacketPath
  created_at : Nat
  expires_at : Option Nat
deriving DecidableEq

structure Channels where
  leases : List Lease
  files : List PacketFile
  now : Nat
deriving DecidableEq

def Channels.empty : Channels where
  leases := []
  files := []
  now := 0

structure HandoffHost where
  /-- The vault of an agent, and whether it is configured. -/
  agent_vault : String -> String × Bool
  parse_iso_ts : String -> Option Nat
  iso_from_epoch : Nat -> String
  /-- The stamp in a file name. -/
  stamp : Nat -> String
  slugify : String -> String
  redact : String -> String
  resolve : EffectivePrincipal.Resolver

/-- `expires_at IS NULL OR expires_at > now`. -/
def unexpired (expires_at : Option Nat) (now : Nat) : Bool :=
  match expires_at with
  | none => true
  | some at_ => now < at_

structure Pending where
  lease_id : String
  from_agent : String
  to_agent : String
  task : String
  path : PacketPath
deriving DecidableEq

inductive HandoffResponse where
  | error (code : Int) (message : String)
  | degraded (to_agent reason : String)
  | delivered (lease_persisted : Bool) (lease_id : String)
      (inbox_path outbox_path : PacketPath)
  | acked (lease_id status : String) (updated_paths : List PacketPath)
      (archived_paths : List PacketPath)
  | pending (agent_id : String) (handoffs : List Pending)
  | reported (lease_id status : String)
deriving DecidableEq

/-- The stamp of the dispatcher, or the code and the text of its error. -/
abbrev HandoffCaller := Except (Int × String) EffectivePrincipal

/-!
## Validating a packet
-/

def handoffKinds : List String :=
  ["answer", "candidate_learning", "handoff", "request"]

def handoffKindsText : String :=
  "['answer', 'candidate_learning', 'handoff', 'request']"

/-- The values that a packet gets where it has none. -/
structure PacketDefaults where
  created_at : String
  trace_id : String
  lease_id : String
  expires_at : String
deriving DecidableEq

/-- One field that has to be a text, after `setdefault`. -/
def requiredText (packet : Json) (key : String) (default_ : Option String) :
    Except String String :=
  match packet.field? key, default_ with
  | none, none => Except.error (key ++ " is required")
  | none, some text =>
      if PyText.strip text = "" then
        Except.error (key ++ " must not be empty")
      else Except.ok text
  | some (Json.str text), _ =>
      if PyText.strip text = "" then
        Except.error (key ++ " must not be empty")
      else Except.ok text
  | some _, _ => Except.error (key ++ " must be str")

def requiredList (packet : Json) (key : String) : Except String (List Json) :=
  match packet.field? key with
  | none => Except.error (key ++ " is required")
  | some (Json.arr items) => Except.ok items
  | some _ => Except.error (key ++ " must be list")

def requiredBool (packet : Json) (key : String) (default_ : Bool) :
    Except String Bool :=
  match packet.field? key with
  | none => Except.ok default_
  | some (Json.bool b) => Except.ok b
  | some _ => Except.error (key ++ " must be bool")

def refText : Json -> Option String
  | Json.str text => if PyText.strip text = "" then none else some text
  | _ => none

def validateHandoffPacket (defaults : PacketDefaults)
    (from_agent to_agent : String) (packet : Json) : Except String Packet :=
  match packet with
  | Json.obj _ => do
      let sender ← requiredText packet "from_agent" (some from_agent)
      let recipient ← requiredText packet "to_agent" (some to_agent)
      let kind ← requiredText packet "kind" none
      let task ← requiredText packet "task" none
      let envelope ← requiredText packet "envelope" none
      let refs ← requiredList packet "wikilink_refs"
      let trace_id ← requiredText packet "trace_id" (some defaults.trace_id)
      let created_at ←
        requiredText packet "created_at" (some defaults.created_at)
      let lease_id ← requiredText packet "lease_id" (some defaults.lease_id)
      let requires_ack ← requiredBool packet "requires_ack" true
      let expires_at ←
        requiredText packet "expires_at" (some defaults.expires_at)
      if sender ≠ from_agent then
        Except.error "from_agent must match params.from_agent"
      else if recipient ≠ to_agent then
        Except.error "to_agent must match params.to_agent"
      else if !handoffKinds.contains kind then
        Except.error ("kind must be one of " ++ handoffKindsText)
      else
        match refs.mapM refText with
        | none => Except.error "wikilink_refs must be a list of strings"
        | some wikilink_refs =>
            Except.ok
              { from_agent := sender
                to_agent := recipient
                kind := kind
                task := task
                envelope := envelope
                wikilink_refs := wikilink_refs
                trace_id := trace_id
                created_at := created_at
                lease_id := lease_id
                requires_ack := requires_ack
                expires_at := expires_at
                -- whatever else the packet carries goes with it
                ack_status := (packet.field? "ack_status").bind truthyText
                acked_at := (packet.field? "acked_at").bind truthyText }
  | _ => Except.error "packet must be an object"

def redactPacket (host : HandoffHost) (packet : Packet) : Packet where
  from_agent := host.redact packet.from_agent
  to_agent := host.redact packet.to_agent
  kind := host.redact packet.kind
  task := host.redact packet.task
  envelope := host.redact packet.envelope
  wikilink_refs := packet.wikilink_refs.map host.redact
  trace_id := host.redact packet.trace_id
  created_at := host.redact packet.created_at
  lease_id := host.redact packet.lease_id
  requires_ack := packet.requires_ack
  expires_at := host.redact packet.expires_at
  ack_status := packet.ack_status.map host.redact
  acked_at := packet.acked_at.map host.redact

/-!
## Files
-/

namespace Channels

/-- The packets of a directory, by name. -/
def directory (c : Channels) (vault : String) (box : Box) :
    List PacketFile :=
  (c.files.filter fun file => file.path.vault = vault && file.path.box = box)
    |>.insertionSort fun left right => left.path.name.text ≤ right.path.name.text

def vaultFiles (c : Channels) (vault : String) : List PacketFile :=
  c.directory vault Box.inbox ++ c.directory vault Box.outbox

/-- `iter_handoff_files` over the vaults that are known. -/
def knownFiles (c : Channels) (known : List String) : List PacketFile :=
  known.eraseDups.flatMap c.vaultFiles

def findLease (c : Channels) (lease_id : String) : Option Lease :=
  c.leases.find? fun row => row.lease_id = lease_id

/-- `write_json`. -/
def writeFile (c : Channels) (path : PacketPath) (packet : Packet) : Channels :=
  { c with
    files := c.files.filter (fun file => file.path ≠ path) ++
      [{ path := path, packet := packet }] }

/-- The upsert of `store_handoff_lease`. -/
def storeLease (c : Channels) (row : Lease) : Channels :=
  if (c.findLease row.lease_id).isSome then
    { c with
      leases := c.leases.map fun old =>
        if old.lease_id = row.lease_id then row else old }
  else { c with leases := c.leases ++ [row] }

def tick (c : Channels) (now : Nat) : Channels :=
  { c with now := max c.now now }

end Channels

/-!
## Sending
-/

/-- What the process finds around one handoff. -/
structure SendEnv where
  defaults : PacketDefaults
  /-- The vault of the recipient exists, or is created. -/
  recipientExists : Bool
  createMissing : Bool
  storeFails : Bool
deriving DecidableEq

structure HandoffParams where
  from_agent : String
  to_agent : String
  packet : Json

/-- The containment of the wikilinks in the wiki of the sender. -/
def wikilinkRefusal (host : HandoffHost) (p : EffectivePrincipal)
    (vault : String) : List String -> Option HandoffResponse
  | [] => none
  | ref :: rest =>
      let wiki := vault ++ "/wiki"
      let target :=
        wiki ++ "/" ++ String.ofList ((PyText.strip ref).toList.dropWhile
          (· = '/'))
      match host.resolve wiki, host.resolve target with
      | some root, some parts =>
          if root.isPrefixOf parts && p.allowsVaultRoot host.resolve target then
            wikilinkRefusal host p vault rest
          else
            some (HandoffResponse.error (-32003)
              ("wikilink_traversal_denied: wikilink escapes allowed vault " ++
                "roots (G23)"))
      | _, _ =>
          some (HandoffResponse.error (-32003)
            "wikilink_traversal_denied: unresolvable ref")

def vaultRefusal (host : HandoffHost) (p : EffectivePrincipal)
    (sender recipient : String) : Option HandoffResponse :=
  if !p.allowsVaultRoot host.resolve sender then
    some (HandoffResponse.error (-32003)
      "vault_root_denied: sender vault outside principal.allowed_vault_roots")
  else if !p.allowsVaultRoot host.resolve recipient then
    some (HandoffResponse.error (-32003)
      ("vault_root_denied: recipient vault outside " ++
        "principal.allowed_vault_roots"))
  else none

def packetName (host : HandoffHost) (now : Nat) (packet : Packet) :
    PacketName where
  stamp := host.stamp now
  slug := host.slugify packet.task
  lease_id := packet.lease_id
  copy := 0

def leaseOf (host : HandoffHost) (now : Nat) (packet : Packet)
    (inbox_path outbox_path : PacketPath) : Lease where
  lease_id := packet.lease_id
  from_agent := packet.from_agent
  to_agent := packet.to_agent
  task := packet.task
  status :=
    if packet.requires_ack then LeaseStatus.pending
    else LeaseStatus.not_required
  inbox_path := inbox_path
  outbox_path := outbox_path
  created_at := (host.parse_iso_ts packet.created_at).getD now
  expires_at := host.parse_iso_ts packet.expires_at

def deliver (host : HandoffHost) (env : SendEnv) (sender recipient : String)
    (packet : Packet) (c : Channels) : HandoffResponse × Channels :=
  let name := packetName host c.now packet
  let outbox_path : PacketPath :=
    { vault := sender, box := Box.outbox, name := name }
  let inbox_path : PacketPath :=
    { vault := recipient, box := Box.inbox, name := name }
  let written :=
    (c.writeFile outbox_path packet).writeFile inbox_path packet
  let stored :=
    if env.storeFails then written
    else written.storeLease (leaseOf host c.now packet inbox_path outbox_path)
  (HandoffResponse.delivered (!env.storeFails) packet.lease_id inbox_path
    outbox_path, stored)

/-- The packet that a call delivers, with the vaults, or its response. -/
def prepareHandoff (host : HandoffHost) (env : SendEnv)
    (caller : HandoffCaller) (params : HandoffParams) :
    Except HandoffResponse (String × String × Packet) :=
  let to_agent := PyText.strip params.to_agent
  if PyText.strip params.from_agent = "" || to_agent = "" then
    Except.error (HandoffResponse.error (-32602)
      "from_agent and to_agent are required")
  else
    match caller with
    | Except.error (code, message) =>
        Except.error (HandoffResponse.error code message)
    | Except.ok p =>
        match validateHandoffPacket env.defaults p.agent_id to_agent
            params.packet with
        | Except.error text =>
            Except.error (HandoffResponse.error (-32602) text)
        | Except.ok packet =>
            let sender := host.agent_vault p.agent_id
            let recipient := host.agent_vault to_agent
            match vaultRefusal host p sender.1 recipient.1 with
            | some refusal => Except.error refusal
            | none =>
                match wikilinkRefusal host p sender.1 packet.wikilink_refs with
                | some refusal => Except.error refusal
                | none =>
                    if !recipient.2 && !env.recipientExists &&
                        !env.createMissing then
                      Except.error (HandoffResponse.degraded to_agent
                        ("destination vault not found for " ++ to_agent))
                    else
                      Except.ok
                        (sender.1, recipient.1, redactPacket host packet)

def handleDaemonHandoff (host : HandoffHost) (env : SendEnv)
    (caller : HandoffCaller) (params : HandoffParams) (c : Channels) :
    HandoffResponse × Channels :=
  match prepareHandoff host env caller params with
  | Except.error response => (response, c)
  | Except.ok (sender, recipient, packet) =>
      deliver host env sender recipient packet c

/-!
## Acknowledging
-/

def handoffAckStatuses : List String :=
  ["accepted", "rejected_contradicts", "rejected_scope", "rejected_stale"]

/-- What the process finds around one acknowledgement: the vaults that are
known, the operations on the database that fail, and the time of the sweep
over the files. -/
structure AckEnv where
  known : List String
  readFails : Bool
  updateFails : Bool
  statusFails : Bool
  sweepAt : Nat
  acked_at : String
deriving DecidableEq

structure AckParams where
  lease_id : String
  status : String
deriving DecidableEq

def fileRecipient (files : List PacketFile) (lease_id : String) :
    Option String :=
  (files.find? fun file =>
    file.packet.lease_id = lease_id && file.packet.to_agent ≠ "").map
      (·.packet.to_agent)

def leaseToAgent (env : AckEnv) (lease_id : String) (c : Channels) :
    Option String :=
  let row := if env.readFails then none else c.findLease lease_id
  match row with
  | some row =>
      if row.to_agent ≠ "" then some row.to_agent
      else fileRecipient (c.knownFiles env.known) lease_id
  | none => fileRecipient (c.knownFiles env.known) lease_id

/-- The row that `update_handoff_lease_status` reaches. -/
def Lease.settleable (now : Nat) (row : Lease) : Bool :=
  (row.status = LeaseStatus.pending || row.status = LeaseStatus.not_required) &&
    unexpired row.expires_at now

def Lease.settle (status : String) (row : Lease) : Lease :=
  { row with
    status :=
      if row.status = LeaseStatus.not_required then LeaseStatus.not_required
      else LeaseStatus.acked status }

def updateHandoffLeaseStatus (env : AckEnv) (lease_id status : String)
    (c : Channels) : Bool × Channels :=
  if env.updateFails then (false, c)
  else
    (c.leases.any fun row => row.lease_id = lease_id && row.settleable c.now,
      { c with
        leases := c.leases.map fun row =>
          if row.lease_id = lease_id && row.settleable c.now then
            row.settle status
          else row })

/-- A packet that the sweep updates. -/
def Packet.open (host : HandoffHost) (lease_id : String) (now : Nat)
    (packet : Packet) : Bool :=
  packet.lease_id = lease_id && !packet.acked &&
    unexpired (host.parse_iso_ts packet.expires_at) now

/-- `write_matching_lease_packets`. -/
def writeMatchingLeasePackets (host : HandoffHost) (env : AckEnv)
    (lease_id status : String) (c : Channels) : List PacketPath × Channels :=
  let changed := ((c.knownFiles env.known).filter fun file =>
    file.packet.open host lease_id c.now).map (·.path)
  (changed,
    { c with
      files := c.files.map fun file =>
        if changed.contains file.path then
          { file with
            packet :=
              { file.packet with
                ack_status := some status
                acked_at := some env.acked_at } }
        else file })

/-- The first free name in the archive, by its number. -/
def freeCopy (files : List PacketFile) (path : PacketPath) :
    Nat -> Nat -> Nat
  | 0, copy => copy
  | fuel + 1, copy =>
      if files.any fun file => file.path =
          { path with
            box := Box.archive
            name := { path.name with copy := copy } } then
        freeCopy files path fuel (copy + 1)
      else copy

def archivedPath (files : List PacketFile) (path : PacketPath) : PacketPath :=
  { path with
    box := Box.archive
    name :=
      { path.name with
        copy := freeCopy files path (files.length + 1) 0 } }

/-- `archive_inbox_file`, by a rename. -/
def archiveInboxFile (c : Channels) (path : PacketPath) : Channels :=
  { c with
    files := c.files.map fun file =>
      if file.path = path then
        { file with path := archivedPath c.files path }
      else file }

def archiveAll (paths : List PacketPath) (c : Channels) :
    List PacketPath × Channels :=
  (paths.filter fun path => path.box = Box.inbox).foldl
    (fun acc path =>
      (acc.1 ++ [archivedPath acc.2.files path],
        archiveInboxFile acc.2 path)) ([], c)

def unknownLease (lease_id : String) : HandoffResponse :=
  HandoffResponse.error (-32000) ("No handoff lease found for " ++ lease_id)

/-- The two writes of an acknowledgement that is authorized. -/
def settleHandoff (host : HandoffHost) (env : AckEnv) (lease_id status : String)
    (c : Channels) : HandoffResponse × Channels :=
  let updated := updateHandoffLeaseStatus env lease_id status c
  let existing :=
    if updated.1 || env.statusFails then none
    else updated.2.findLease lease_id
  match existing with
  | some row =>
      (HandoffResponse.error (-32009)
        ("handoff lease " ++ lease_id ++ " cannot be acked (status='" ++
          row.status.text ++ "' or expired)"), updated.2)
  | none =>
      let swept := writeMatchingLeasePackets host env lease_id status
        (updated.2.tick env.sweepAt)
      if swept.1.isEmpty && !updated.1 then (unknownLease lease_id, swept.2)
      else
        let archived := archiveAll swept.1 swept.2
        (HandoffResponse.acked lease_id status swept.1 archived.1, archived.2)

def handleAckHandoff (host : HandoffHost) (env : AckEnv)
    (caller : HandoffCaller) (params : AckParams) (c : Channels) :
    HandoffResponse × Channels :=
  let lease_id := PyText.strip params.lease_id
  let status := PyText.strip params.status
  if lease_id = "" then
    (HandoffResponse.error (-32602) "lease_id is required", c)
  else if !handoffAckStatuses.contains status then
    (HandoffResponse.error (-32602)
      ("status must be one of ['accepted', 'rejected_contradicts', " ++
        "'rejected_scope', 'rejected_stale']"), c)
  else
    match caller with
    | Except.error (code, message) => (HandoffResponse.error code message, c)
    | Except.ok p =>
        match leaseToAgent env lease_id c with
        | none => (unknownLease lease_id, c)
        | some to_agent =>
            if to_agent ≠ p.agent_id then
              (HandoffResponse.error (-32004)
                ("principal_mismatch: handoff lease " ++ lease_id ++
                  " is addressed to '" ++ to_agent ++
                  "'; caller principal '" ++ p.agent_id ++
                  "' may not ack it"), c)
            else settleHandoff host env lease_id status c

/-!
## Listing
-/

structure ListEnv where
  rowsFail : Bool
  knownFails : Bool
  /-- The time of the read of the files. -/
  filesAt : Nat
deriving DecidableEq

def Lease.pendingFor (agent_id : String) (now : Nat) (row : Lease) : Bool :=
  row.to_agent = agent_id && row.status = LeaseStatus.pending &&
    unexpired row.expires_at now

def Lease.entry (row : Lease) : Pending where
  lease_id := row.lease_id
  from_agent := row.from_agent
  to_agent := row.to_agent
  task := row.task
  path := row.inbox_path

/-- `ORDER BY created_at ASC, lease_id ASC`. -/
def leaseOrder (left right : Lease) : Prop :=
  left.created_at < right.created_at ∨
    (left.created_at = right.created_at ∧ left.lease_id ≤ right.lease_id)

instance : DecidableRel leaseOrder :=
  fun _ _ => inferInstanceAs (Decidable (_ ∨ _))

def pendingHandoffLeases (agent_id : String) (c : Channels) : List Pending :=
  ((c.leases.filter (Lease.pendingFor agent_id c.now)).insertionSort
    leaseOrder).map Lease.entry

/-- The ids that the database has for the agent, whatever their status. -/
def knownLeaseIds (agent_id : String) (c : Channels) : List String :=
  (c.leases.filter fun row => row.to_agent = agent_id).map (·.lease_id)

def Packet.pendingFor (host : HandoffHost) (agent_id : String) (now : Nat)
    (packet : Packet) : Bool :=
  packet.to_agent = agent_id && packet.requires_ack && !packet.acked &&
    unexpired (host.parse_iso_ts packet.expires_at) now

def PacketFile.entry (file : PacketFile) : Pending where
  lease_id := file.packet.lease_id
  from_agent := file.packet.from_agent
  to_agent := file.packet.to_agent
  task := file.packet.task
  path := file.path

def filePending (host : HandoffHost) (agent_id : String) (now : Nat)
    (c : Channels) : List Pending :=
  ((c.vaultFiles (host.agent_vault agent_id).1).filter fun file =>
    file.packet.pendingFor host agent_id now).map PacketFile.entry

/-- The merge by `lease_id`: a later row replaces, a file only fills in. -/
def putPending (merged : List Pending) (entry : Pending) : List Pending :=
  if merged.any fun other => other.lease_id = entry.lease_id then
    merged.map fun other =>
      if other.lease_id = entry.lease_id then entry else other
  else merged ++ [entry]

def fillPending (known : List String) (merged : List Pending)
    (entry : Pending) : List Pending :=
  if known.contains entry.lease_id ||
      merged.any fun other => other.lease_id = entry.lease_id then merged
  else merged ++ [entry]

def mergePending (known : List String) (rows files : List Pending) :
    List Pending :=
  files.foldl (fillPending known) (rows.foldl putPending [])

def handleListPendingHandoffs (host : HandoffHost) (env : ListEnv)
    (caller : HandoffCaller) (c : Channels) : HandoffResponse :=
  match caller with
  | Except.error (code, message) => HandoffResponse.error code message
  | Except.ok p =>
      if p.agent_id = "" then
        HandoffResponse.error (-32602) "agent_id is required"
      else
        let rows := if env.rowsFail then [] else
          pendingHandoffLeases p.agent_id c
        let known := (if env.knownFails then [] else
          knownLeaseIds p.agent_id c) ++ rows.map (·.lease_id)
        let handoffs := mergePending known rows
          (filePending host p.agent_id (max c.now env.filesAt) c)
        if handoffs.isEmpty && env.rowsFail then
          HandoffResponse.error (-32000)
            ("handoff lease store failed while listing pending leases for '" ++
              p.agent_id ++ "'")
        else HandoffResponse.pending p.agent_id handoffs

/-!
## Awaiting
-/

structure PollEnv where
  known : List String
  statusFails : Bool
deriving DecidableEq

/-- `_file_channel_terminal_ack`. -/
def fileAck (files : List PacketFile) (lease_id : String) : Option String :=
  (files.find? fun file =>
    file.packet.lease_id = lease_id && file.packet.acked).bind
      (·.packet.ack_status)

/-- One round of `handle_await_handoff`: the status that it reports. -/
def pollHandoff (env : PollEnv) (lease_id : String) (c : Channels) :
    Option String :=
  let lease := if env.statusFails then none else c.findLease lease_id
  match lease with
  | some row =>
      if row.status = LeaseStatus.pending then
        fileAck (c.knownFiles env.known) lease_id
      else some row.status.text
  | none => fileAck (c.knownFiles env.known) lease_id

end Daemon
end Minni
