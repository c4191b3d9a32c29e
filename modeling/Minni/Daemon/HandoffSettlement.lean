import Minni.Foundation.TransitionSystem
import Minni.Daemon.Handoff

/-!
# Who settles a handoff

The row of a lease names its recipient, and only that agent gets past the
check of an acknowledgement.  A handoff under a lease that is in use replaces
the row without a look at it; where every such handoff is between the same two
agents, only the recipient settles a handoff.
-/

namespace Minni
namespace Daemon

open Foundation

/-!
## Runs
-/

inductive HandoffEvent where
  | send (env : SendEnv) (caller : HandoffCaller) (params : HandoffParams)
  | ack (env : AckEnv) (caller : HandoffCaller) (params : AckParams)
  | list (env : ListEnv) (caller : HandoffCaller)
  | poll (env : PollEnv) (lease_id : String)
  | tick (now : Nat)

namespace HandoffEvent

def after (host : HandoffHost) (c : Channels) : HandoffEvent -> Channels
  | send env caller params => (handleDaemonHandoff host env caller params c).2
  | ack env caller params => (handleAckHandoff host env caller params c).2
  | list env _ => c.tick env.filesAt
  | poll _ _ => c
  | tick now => c.tick now

/-- No operation on the database fails. -/
def healthy : HandoffEvent -> Bool
  | send env _ _ => !env.storeFails
  | ack env _ _ => !env.readFails && !env.updateFails && !env.statusFails
  | list env _ => !env.rowsFail && !env.knownFails
  | poll env _ => !env.statusFails
  | tick _ => true

end HandoffEvent

def handoffSystem (host : HandoffHost) :
    TransitionSystem Channels HandoffEvent where
  initial := fun c => c = Channels.empty
  step := fun c event c' => c' = event.after host c

/-!
## What is in use
-/

def Lease.live (now : Nat) (row : Lease) : Bool :=
  row.status = LeaseStatus.pending && unexpired row.expires_at now

/-- A packet that a sweep could still settle. -/
structure PacketFile.Live (host : HandoffHost) (now : Nat) (file : PacketFile) :
    Prop where
  box : file.path.box ≠ Box.archive
  acked : file.packet.acked = false
  unexpired : unexpired (host.parse_iso_ts file.packet.expires_at) now = true

/-- Whatever is in use under the lease is between the two agents. -/
structure Between (host : HandoffHost) (c : Channels)
    (lease_id from_agent to_agent : String) : Prop where
  row : forall row, row ∈ c.leases -> row.lease_id = lease_id ->
    row.live c.now = true ->
    row.from_agent = from_agent ∧ row.to_agent = to_agent
  packet : forall file, file ∈ c.files -> file.packet.lease_id = lease_id ->
    file.Live host c.now ->
    file.packet.from_agent = from_agent ∧ file.packet.to_agent = to_agent

/-- The names of the two agents and the lease are as they were meant, and the
lease is not in use between others. -/
structure CarefulPacket (host : HandoffHost) (c : Channels)
    (p : EffectivePrincipal) (params : HandoffParams) (packet : Packet) :
    Prop where
  sender : packet.from_agent = p.agent_id
  recipient : packet.to_agent = PyText.strip params.to_agent
  stripped : PyText.strip packet.lease_id = packet.lease_id
  named : packet.lease_id ≠ ""
  between : Between host c packet.lease_id packet.from_agent packet.to_agent

def HandoffEvent.careful (host : HandoffHost) (c : Channels) :
    HandoffEvent -> Prop
  | HandoffEvent.send env caller params =>
      forall p sender recipient packet, caller = Except.ok p ->
        prepareHandoff host env caller params =
          Except.ok (sender, recipient, packet) ->
        CarefulPacket host c p params packet
  | _ => True

def HandoffEvent.guarded (host : HandoffHost) (c : Channels)
    (event : HandoffEvent) : Prop :=
  event.healthy = true ∧ event.careful host c

/-!
## Times
-/

theorem unexpired_mono
    {expires_at : Option Nat} {now later : Nat} (hle : now ≤ later)
    (h : unexpired expires_at later = true) :
    unexpired expires_at now = true := by
  cases expires_at with
  | none => rfl
  | some at_ =>
      have hlater : later < at_ := of_decide_eq_true h
      exact decide_eq_true (Nat.lt_of_le_of_lt hle hlater)

theorem Lease.live_mono
    {row : Lease} {now later : Nat} (hle : now ≤ later)
    (h : row.live later = true) : row.live now = true := by
  unfold Lease.live at h ⊢
  rw [Bool.and_eq_true] at h ⊢
  exact ⟨h.left, unexpired_mono hle h.right⟩

theorem PacketFile.Live.mono
    {host : HandoffHost} {file : PacketFile} {now later : Nat}
    (hle : now ≤ later) (h : file.Live host later) : file.Live host now where
  box := h.box
  acked := h.acked
  unexpired := unexpired_mono hle h.unexpired

/-!
## The invariant
-/

structure Agreed (host : HandoffHost) (c : Channels) : Prop where
  /-- `lease_id` is the primary key. -/
  keys : (c.leases.map (·.lease_id)).Nodup
  named : forall row, row ∈ c.leases ->
    PyText.strip row.lease_id = row.lease_id ∧ row.lease_id ≠ "" ∧
      row.to_agent ≠ ""
  paths : forall file, file ∈ c.files -> forall other, other ∈ c.files ->
    file.path = other.path -> file.path.box ≠ Box.archive -> file = other
  digest : forall file, file ∈ c.files ->
    file.path.name.lease_id = file.packet.lease_id
  /-- A packet in use has its row. -/
  known : forall file, file ∈ c.files -> file.Live host c.now ->
    exists row, row ∈ c.leases ∧ row.lease_id = file.packet.lease_id ∧
      row.from_agent = file.packet.from_agent ∧
      row.to_agent = file.packet.to_agent

theorem agreed_empty (host : HandoffHost) : Agreed host Channels.empty where
  keys := List.nodup_nil
  named := by
    intro row hrow
    cases hrow
  paths := by
    intro file hfile
    cases hfile
  digest := by
    intro file hfile
    cases hfile
  known := by
    intro file hfile
    cases hfile

theorem Agreed.tick
    {host : HandoffHost} {c : Channels} (h : Agreed host c) (now : Nat) :
    Agreed host (c.tick now) where
  keys := h.keys
  named := h.named
  paths := h.paths
  digest := h.digest
  known := by
    intro file hfile hlive
    exact h.known file hfile (hlive.mono (Nat.le_max_left _ _))

theorem Agreed.row_eq
    {host : HandoffHost} {c : Channels} (h : Agreed host c)
    {row row' : Lease} (hrow : row ∈ c.leases) (hrow' : row' ∈ c.leases)
    (hid : row.lease_id = row'.lease_id) : row = row' :=
  List.inj_on_of_nodup_map h.keys hrow hrow' hid

theorem findLease_spec
    {c : Channels} {lease_id : String} {row : Lease}
    (h : c.findLease lease_id = some row) :
    row ∈ c.leases ∧ row.lease_id = lease_id := by
  have hid := List.find?_some h
  exact ⟨List.mem_of_find?_eq_some h, by simpa using hid⟩

theorem Agreed.findLease
    {host : HandoffHost} {c : Channels} (h : Agreed host c) {row : Lease}
    (hrow : row ∈ c.leases) : c.findLease row.lease_id = some row := by
  cases hfind : c.findLease row.lease_id with
  | none =>
      have hnone := List.find?_eq_none.mp hfind row hrow
      simp at hnone
  | some found =>
      rcases findLease_spec hfind with ⟨hfound, hid⟩
      rw [h.row_eq hfound hrow hid]

/-!
## Sending
-/

section Sending

variable {c : Channels} {path : PacketPath} {packet : Packet}

theorem mem_writeFile {file : PacketFile} :
    file ∈ (c.writeFile path packet).files <->
      (file ∈ c.files ∧ file.path ≠ path) ∨
        file = { path := path, packet := packet } := by
  simp [Channels.writeFile]

theorem mem_storeLease {row new : Lease} :
    row ∈ (c.storeLease new).leases <->
      (row ∈ c.leases ∧ row.lease_id ≠ new.lease_id) ∨ row = new := by
  unfold Channels.storeLease
  cases hfind : c.findLease new.lease_id with
  | none =>
      have hnone := List.find?_eq_none.mp hfind
      constructor
      · intro hrow
        rcases List.mem_append.mp hrow with hold | hnew
        · have hne := hnone row hold
          exact Or.inl ⟨hold, by simpa using hne⟩
        · exact Or.inr (List.mem_singleton.mp hnew)
      · intro hrow
        rcases hrow with hold | hnew
        · exact List.mem_append.mpr (Or.inl hold.left)
        · exact List.mem_append.mpr (Or.inr (List.mem_singleton.mpr hnew))
  | some found =>
      rcases findLease_spec hfind with ⟨hfound, hfound_id⟩
      constructor
      · intro hrow
        rcases List.mem_map.mp hrow with ⟨old, hold, heq⟩
        split at heq
        · exact Or.inr heq.symm
        · rename_i hne
          rw [heq] at hold hne
          exact Or.inl ⟨hold, hne⟩
      · intro hrow
        rcases hrow with ⟨hold, hne⟩ | hnew
        · exact List.mem_map.mpr ⟨row, hold, if_neg hne⟩
        · rw [hnew]
          exact List.mem_map.mpr ⟨found, hfound, if_pos hfound_id⟩

theorem storeLease_congr
    {c c' : Channels} (h : c'.leases = c.leases) (new : Lease) :
    (c'.storeLease new).leases = (c.storeLease new).leases := by
  unfold Channels.storeLease Channels.findLease
  rw [h]
  split
  · rfl
  · rfl

theorem storeLease_keys
    {new : Lease} (h : (c.leases.map (·.lease_id)).Nodup) :
    ((c.storeLease new).leases.map (·.lease_id)).Nodup := by
  unfold Channels.storeLease
  cases hfind : c.findLease new.lease_id with
  | none =>
      have hnone := List.find?_eq_none.mp hfind
      show ((c.leases ++ [new]).map (·.lease_id)).Nodup
      rw [List.map_append]
      apply List.Nodup.append h (List.nodup_singleton _)
      intro id hid hnew
      rcases List.mem_map.mp hid with ⟨row, hrow, heq⟩
      have hsame : row.lease_id = new.lease_id :=
        heq.trans (List.mem_singleton.mp hnew)
      have hne := hnone row hrow
      simp [hsame] at hne
  | some found =>
      have hids : (c.leases.map fun old =>
          if old.lease_id = new.lease_id then new else old).map (·.lease_id) =
          c.leases.map (·.lease_id) := by
        rw [List.map_map]
        apply List.map_congr_left
        intro old _
        show (if old.lease_id = new.lease_id then new else old).lease_id = _
        split
        · rename_i heq
          exact heq.symm
        · rfl
      dsimp only [Option.isSome]
      rw [if_pos rfl, hids]
      exact h

/-- The two packets and the row of a delivery. -/
theorem mem_deliver_files
    {host : HandoffHost} {env : SendEnv} {sender recipient : String}
    {file : PacketFile} :
    file ∈ (deliver host env sender recipient packet c).2.files <->
      (file ∈ c.files ∧
        file.path ≠ PacketPath.mk sender Box.outbox
          (packetName host c.now packet) ∧
        file.path ≠ PacketPath.mk recipient Box.inbox
          (packetName host c.now packet)) ∨
      file = PacketFile.mk (PacketPath.mk sender Box.outbox
        (packetName host c.now packet)) packet ∨
      file = PacketFile.mk (PacketPath.mk recipient Box.inbox
        (packetName host c.now packet)) packet := by
  have hfiles : (deliver host env sender recipient packet c).2.files =
      ((c.writeFile (PacketPath.mk sender Box.outbox
        (packetName host c.now packet)) packet).writeFile
        (PacketPath.mk recipient Box.inbox (packetName host c.now packet))
        packet).files := by
    unfold deliver Channels.storeLease
    dsimp only
    split
    · rfl
    · split
      · rfl
      · rfl
  rw [hfiles, mem_writeFile, mem_writeFile]
  constructor
  · intro h
    rcases h with ⟨⟨hold, hout⟩ | hnew, hin⟩ | hnew
    · exact Or.inl ⟨hold, hout, hin⟩
    · exact Or.inr (Or.inl hnew)
    · exact Or.inr (Or.inr hnew)
  · intro h
    rcases h with ⟨hold, hout, hin⟩ | hnew | hnew
    · exact Or.inl ⟨Or.inl ⟨hold, hout⟩, hin⟩
    · apply Or.inl
      refine ⟨Or.inr hnew, ?_⟩
      rw [hnew]
      intro heq
      cases congrArg PacketPath.box heq
    · exact Or.inr hnew

theorem deliver_leases
    {host : HandoffHost} {env : SendEnv} {sender recipient : String}
    (hhealthy : env.storeFails = false) :
    exists row, row.lease_id = packet.lease_id ∧
      row.from_agent = packet.from_agent ∧ row.to_agent = packet.to_agent ∧
      row.status = (if packet.requires_ack then LeaseStatus.pending
        else LeaseStatus.not_required) ∧
      row.expires_at = host.parse_iso_ts packet.expires_at ∧
      (deliver host env sender recipient packet c).2.leases =
        (c.storeLease row).leases := by
  refine ⟨leaseOf host c.now packet
    (PacketPath.mk recipient Box.inbox (packetName host c.now packet))
    (PacketPath.mk sender Box.outbox (packetName host c.now packet)),
    rfl, rfl, rfl, rfl, rfl, ?_⟩
  unfold deliver
  rw [hhealthy]
  dsimp only
  rw [if_neg Bool.false_ne_true]
  apply storeLease_congr
  rfl

theorem deliver_now
    {host : HandoffHost} {env : SendEnv} {sender recipient : String} :
    (deliver host env sender recipient packet c).2.now = c.now := by
  unfold deliver Channels.storeLease
  dsimp only
  split
  · rfl
  · split
    · rfl
    · rfl

end Sending

theorem agreed_deliver
    {host : HandoffHost} {env : SendEnv} {sender recipient : String}
    {packet : Packet} {c : Channels} (h : Agreed host c)
    (hhealthy : env.storeFails = false)
    (hstripped : PyText.strip packet.lease_id = packet.lease_id)
    (hnamed : packet.lease_id ≠ "") (hrecipient : packet.to_agent ≠ "")
    (hbetween : Between host c packet.lease_id packet.from_agent
      packet.to_agent) :
    Agreed host (deliver host env sender recipient packet c).2 := by
  rcases @deliver_leases c packet host _ sender recipient hhealthy with
    ⟨new, hid, hfrom, hto, _, _, hleases⟩
  constructor
  · rw [hleases]
    exact storeLease_keys h.keys
  · intro row hrow
    rw [hleases] at hrow
    rcases mem_storeLease.mp hrow with hold | hnew
    · exact h.named row hold.left
    · rw [hnew, hid, hto]
      exact ⟨hstripped, hnamed, hrecipient⟩
  · intro file hfile other hother hpath hbox
    rcases mem_deliver_files.mp hfile with hold | hnew | hnew
    · rcases mem_deliver_files.mp hother with hold' | hnew' | hnew'
      · exact h.paths file hold.left other hold'.left hpath hbox
      · rw [hnew'] at hpath
        exact absurd hpath hold.right.left
      · rw [hnew'] at hpath
        exact absurd hpath hold.right.right
    · rcases mem_deliver_files.mp hother with hold' | hnew' | hnew'
      · rw [hnew] at hpath
        exact absurd hpath.symm hold'.right.left
      · rw [hnew, hnew']
      · rw [hnew, hnew'] at hpath
        cases congrArg PacketPath.box hpath
    · rcases mem_deliver_files.mp hother with hold' | hnew' | hnew'
      · rw [hnew] at hpath
        exact absurd hpath.symm hold'.right.right
      · rw [hnew, hnew'] at hpath
        cases congrArg PacketPath.box hpath
      · rw [hnew, hnew']
  · intro file hfile
    rcases mem_deliver_files.mp hfile with hold | hnew | hnew
    · exact h.digest file hold.left
    · rw [hnew]
      rfl
    · rw [hnew]
      rfl
  · intro file hfile hlive
    rw [deliver_now] at hlive
    rw [hleases]
    rcases mem_deliver_files.mp hfile with hold | hnew | hnew
    · by_cases hlease : file.packet.lease_id = packet.lease_id
      · have hagents := hbetween.packet file hold.left hlease hlive
        refine ⟨new, mem_storeLease.mpr (Or.inr rfl), ?_, ?_, ?_⟩
        · exact hid.trans hlease.symm
        · exact hfrom.trans hagents.left.symm
        · exact hto.trans hagents.right.symm
      · rcases h.known file hold.left hlive with ⟨row, hrow, hrow_id, hrest⟩
        refine ⟨row, mem_storeLease.mpr (Or.inl ⟨hrow, ?_⟩), hrow_id, hrest⟩
        rw [hrow_id, hid]
        exact hlease
    · rw [hnew]
      exact ⟨new, mem_storeLease.mpr (Or.inr rfl), hid, hfrom, hto⟩
    · rw [hnew]
      exact ⟨new, mem_storeLease.mpr (Or.inr rfl), hid, hfrom, hto⟩

/-!
## Acknowledging
-/

/-- What an acknowledgement of the lease by its recipient may change. -/
structure AckedBy (host : HandoffHost) (agent_id lease_id : String)
    (c c' : Channels) : Prop where
  now : c.now ≤ c'.now
  keys : c'.leases.map (·.lease_id) = c.leases.map (·.lease_id)
  /-- Every row stays, but for the status of the recipient's own. -/
  row : forall row, row ∈ c.leases ->
    row ∈ c'.leases ∨ (row.lease_id = lease_id ∧ row.to_agent = agent_id)
  rowBefore : forall row', row' ∈ c'.leases ->
    exists row, row ∈ c.leases ∧ row'.lease_id = row.lease_id ∧
      row'.from_agent = row.from_agent ∧ row'.to_agent = row.to_agent
  rowAfter : forall row, row ∈ c.leases ->
    exists row', row' ∈ c'.leases ∧ row'.lease_id = row.lease_id ∧
      row'.from_agent = row.from_agent ∧ row'.to_agent = row.to_agent
  /-- Every packet stays, but for the recipient's own. -/
  file : forall file, file ∈ c.files -> file ∈ c'.files ∨
      (file.packet.lease_id = lease_id ∧ file.packet.to_agent = agent_id)
  live : forall file, file ∈ c'.files -> file.Live host c'.now ->
    file ∈ c.files
  paths : forall file, file ∈ c'.files -> forall other, other ∈ c'.files ->
    file.path = other.path -> file.path.box ≠ Box.archive -> file = other
  digest : forall file, file ∈ c'.files ->
    file.path.name.lease_id = file.packet.lease_id

theorem AckedBy.refl
    {host : HandoffHost} {agent_id lease_id : String} {c : Channels}
    (h : Agreed host c) : AckedBy host agent_id lease_id c c where
  now := Nat.le_refl _
  keys := rfl
  row := fun _ hrow => Or.inl hrow
  rowBefore := fun row hrow => ⟨row, hrow, rfl, rfl, rfl⟩
  rowAfter := fun row hrow => ⟨row, hrow, rfl, rfl, rfl⟩
  file := fun _ hfile => Or.inl hfile
  live := fun _ hfile _ => hfile
  paths := h.paths
  digest := h.digest

theorem AckedBy.agreed
    {host : HandoffHost} {agent_id lease_id : String} {c c' : Channels}
    (hacked : AckedBy host agent_id lease_id c c') (h : Agreed host c) :
    Agreed host c' where
  keys := by
    rw [hacked.keys]
    exact h.keys
  named := by
    intro row hrow
    rcases hacked.rowBefore row hrow with ⟨old, hold, hid, _, hto⟩
    rw [hid, hto]
    exact h.named old hold
  paths := hacked.paths
  digest := hacked.digest
  known := by
    intro file hfile hlive
    rcases h.known file (hacked.live file hfile hlive)
      (hlive.mono hacked.now) with ⟨row, hrow, hid, hfrom, hto⟩
    rcases hacked.rowAfter row hrow with ⟨row', hrow', hid', hfrom', hto'⟩
    exact ⟨row', hrow', hid'.trans hid, hfrom'.trans hfrom, hto'.trans hto⟩

/-!
### The files of a sweep
-/

section Sweeping

variable {host : HandoffHost} {c : Channels}

/-- What moving some inbox copies to the archive does to the channels. -/
structure Archived (paths : List PacketPath) (c c' : Channels) : Prop where
  leases : c'.leases = c.leases
  now : c'.now = c.now
  stays : forall file, file ∈ c.files -> file.path ∉ paths -> file ∈ c'.files
  /-- A file is one of before, or the archived copy of one. -/
  origin : forall file, file ∈ c'.files -> exists old, old ∈ c.files ∧
    old.packet = file.packet ∧ old.path.vault = file.path.vault ∧
    old.path.name.lease_id = file.path.name.lease_id ∧
    (old = file ∨ (old.path ∈ paths ∧ old.path.box = Box.inbox ∧
      file.path.box = Box.archive))
  image : forall old, old ∈ c.files -> exists file, file ∈ c'.files ∧
    old.packet = file.packet ∧ old.path.vault = file.path.vault ∧
    old.path.name.lease_id = file.path.name.lease_id ∧
    (old = file ∨ (old.path ∈ paths ∧ old.path.box = Box.inbox ∧
      file.path.box = Box.archive))

theorem Archived.before
    {paths : List PacketPath} {c c' : Channels} (h : Archived paths c c')
    {file : PacketFile} (hfile : file ∈ c'.files)
    (hbox : file.path.box ≠ Box.archive) : file ∈ c.files := by
  rcases h.origin file hfile with ⟨old, hold, _, _, _, hsame | hmoved⟩
  · rw [← hsame]
    exact hold
  · exact absurd hmoved.right.right hbox

theorem archiveInboxFile_archived
    {paths : List PacketPath} {path : PacketPath} (hpath : path ∈ paths)
    (hbox : path.box = Box.inbox) :
    Archived paths c (archiveInboxFile c path) := by
  have hmoved : forall old : PacketFile,
      old.packet = (if old.path = path then
          { old with path := archivedPath c.files path } else old).packet ∧
      old.path.vault = (if old.path = path then
          { old with path := archivedPath c.files path } else old).path.vault ∧
      old.path.name.lease_id = (if old.path = path then
          { old with path := archivedPath c.files path }
        else old).path.name.lease_id ∧
      (old = (if old.path = path then
          { old with path := archivedPath c.files path } else old) ∨
        (old.path ∈ paths ∧ old.path.box = Box.inbox ∧
          (if old.path = path then
            { old with path := archivedPath c.files path }
          else old).path.box = Box.archive)) := by
    intro old
    split
    · rename_i heq
      rw [heq]
      exact ⟨rfl, rfl, rfl, Or.inr ⟨hpath, hbox, rfl⟩⟩
    · exact ⟨rfl, rfl, rfl, Or.inl rfl⟩
  constructor
  · rfl
  · rfl
  · intro file hfile hnot
    apply List.mem_map.mpr
    refine ⟨file, hfile, if_neg ?_⟩
    intro heq
    rw [heq] at hnot
    exact hnot hpath
  · intro file hfile
    rcases List.mem_map.mp hfile with ⟨old, hold, heq⟩
    rw [← heq]
    exact ⟨old, hold, hmoved old⟩
  · intro old hold
    exact ⟨_, List.mem_map.mpr ⟨old, hold, rfl⟩, hmoved old⟩

theorem Archived.trans
    {paths : List PacketPath} {c mid c' : Channels}
    (hfirst : Archived paths c mid) (hsecond : Archived paths mid c') :
    Archived paths c c' where
  leases := hsecond.leases.trans hfirst.leases
  now := hsecond.now.trans hfirst.now
  stays := by
    intro file hfile hpath
    exact hsecond.stays file (hfirst.stays file hfile hpath) hpath
  origin := by
    intro file hfile
    rcases hsecond.origin file hfile with
      ⟨between, hbetween, hpacket, hvault, hname, hsame⟩
    rcases hfirst.origin between hbetween with
      ⟨old, hold, hpacket', hvault', hname', hsame'⟩
    refine ⟨old, hold, hpacket'.trans hpacket, hvault'.trans hvault,
      hname'.trans hname, ?_⟩
    rcases hsame with hsame | hmoved
    · rw [← hsame]
      exact hsame'
    · rcases hsame' with hsame' | hmoved'
      · rw [hsame']
        exact Or.inr hmoved
      · exact Or.inr ⟨hmoved'.left, hmoved'.right.left, hmoved.right.right⟩
  image := by
    intro old hold
    rcases hfirst.image old hold with
      ⟨between, hbetween, hpacket, hvault, hname, hsame⟩
    rcases hsecond.image between hbetween with
      ⟨file, hfile, hpacket', hvault', hname', hsame'⟩
    refine ⟨file, hfile, hpacket.trans hpacket', hvault.trans hvault',
      hname.trans hname', ?_⟩
    rcases hsame with hsame | hmoved
    · rw [hsame]
      exact hsame'
    · rcases hsame' with hsame' | hmoved'
      · rw [← hsame']
        exact Or.inr hmoved
      · exact Or.inr ⟨hmoved.left, hmoved.right.left, hmoved'.right.right⟩

theorem archive_fold
    (paths inboxes : List PacketPath)
    (hsubset : forall path, path ∈ inboxes ->
      path ∈ paths ∧ path.box = Box.inbox)
    (acc : List PacketPath × Channels) :
    Archived paths acc.2 (inboxes.foldl
      (fun acc path =>
        (acc.1 ++ [archivedPath acc.2.files path],
          archiveInboxFile acc.2 path)) acc).2 := by
  induction inboxes generalizing acc with
  | nil =>
      exact ⟨rfl, rfl, fun _ hfile _ => hfile,
        fun file hfile => ⟨file, hfile, rfl, rfl, rfl, Or.inl rfl⟩,
        fun file hfile => ⟨file, hfile, rfl, rfl, rfl, Or.inl rfl⟩⟩
  | cons path rest ih =>
      have hpath := hsubset path (List.mem_cons_self ..)
      have hrest := ih
        (fun other hother => hsubset other (List.mem_cons_of_mem _ hother))
        (acc.1 ++ [archivedPath acc.2.files path],
          archiveInboxFile acc.2 path)
      exact (archiveInboxFile_archived hpath.left hpath.right).trans hrest

theorem archiveAll_spec (paths : List PacketPath) (c : Channels) :
    Archived paths c (archiveAll paths c).2 := by
  apply archive_fold paths _ _ ([], c)
  intro path hpath
  rcases List.mem_filter.mp hpath with ⟨hmem, hbox⟩
  exact ⟨hmem, of_decide_eq_true hbox⟩

theorem mem_directory
    {vault : String} {box : Box} {file : PacketFile} :
    file ∈ c.directory vault box <->
      file ∈ c.files ∧ file.path.vault = vault ∧ file.path.box = box := by
  unfold Channels.directory
  rw [List.mem_insertionSort, List.mem_filter, Bool.and_eq_true,
    decide_eq_true_eq, decide_eq_true_eq]

theorem mem_vaultFiles
    {vault : String} {file : PacketFile} :
    file ∈ c.vaultFiles vault <->
      file ∈ c.files ∧ file.path.vault = vault ∧
        file.path.box ≠ Box.archive := by
  unfold Channels.vaultFiles
  rw [List.mem_append, mem_directory, mem_directory]
  constructor
  · intro h
    rcases h with ⟨hfile, hvault, hbox⟩ | ⟨hfile, hvault, hbox⟩
    · exact ⟨hfile, hvault, by rw [hbox]; decide⟩
    · exact ⟨hfile, hvault, by rw [hbox]; decide⟩
  · intro h
    rcases h with ⟨hfile, hvault, hbox⟩
    cases hkind : file.path.box with
    | inbox => exact Or.inl ⟨hfile, hvault, rfl⟩
    | outbox => exact Or.inr ⟨hfile, hvault, rfl⟩
    | archive => exact absurd hkind hbox

theorem mem_knownFiles
    {known : List String} {file : PacketFile} :
    file ∈ c.knownFiles known <->
      file ∈ c.files ∧ file.path.vault ∈ known ∧
        file.path.box ≠ Box.archive := by
  unfold Channels.knownFiles
  rw [List.mem_flatMap]
  constructor
  · intro h
    rcases h with ⟨vault, hvault, hfile⟩
    rcases mem_vaultFiles.mp hfile with ⟨hmem, heq, hbox⟩
    rw [heq]
    exact ⟨hmem, List.mem_eraseDups.mp hvault, hbox⟩
  · intro h
    exact ⟨file.path.vault, List.mem_eraseDups.mpr h.right.left,
      mem_vaultFiles.mpr ⟨h.left, rfl, h.right.right⟩⟩

end Sweeping

/-!
### The two writes
-/

section Settling

variable {host : HandoffHost} {env : AckEnv} {agent_id lease_id : String}
variable {status : String} {c : Channels}

/-- What the update of the row does to the channels. -/
theorem update_ackedBy
    (h : Agreed host c)
    (haddressed : forall row, row ∈ c.leases -> row.lease_id = lease_id ->
      row.to_agent = agent_id) :
    AckedBy host agent_id lease_id c
      (updateHandoffLeaseStatus env lease_id status c).2 := by
  unfold updateHandoffLeaseStatus
  split
  · exact AckedBy.refl h
  · have hkeeps : forall row : Lease,
        (if row.lease_id = lease_id && row.settleable c.now then
          row.settle status else row).lease_id = row.lease_id ∧
        (if row.lease_id = lease_id && row.settleable c.now then
          row.settle status else row).from_agent = row.from_agent ∧
        (if row.lease_id = lease_id && row.settleable c.now then
          row.settle status else row).to_agent = row.to_agent := by
      intro row
      split
      · exact ⟨rfl, rfl, rfl⟩
      · exact ⟨rfl, rfl, rfl⟩
    constructor
    · exact Nat.le_refl _
    · rw [List.map_map]
      apply List.map_congr_left
      intro row _
      exact (hkeeps row).left
    · intro row hrow
      by_cases hid : row.lease_id = lease_id
      · exact Or.inr ⟨hid, haddressed row hrow hid⟩
      · apply Or.inl
        apply List.mem_map.mpr
        exact ⟨row, hrow, if_neg (by simp [hid])⟩
    · intro row' hrow'
      rcases List.mem_map.mp hrow' with ⟨row, hrow, heq⟩
      rw [← heq]
      exact ⟨row, hrow, hkeeps row⟩
    · intro row hrow
      exact ⟨_, List.mem_map.mpr ⟨row, hrow, rfl⟩, hkeeps row⟩
    · intro file hfile
      exact Or.inl hfile
    · intro file hfile _
      exact hfile
    · exact h.paths
    · exact h.digest

theorem AckedBy.trans
    {mid c' : Channels} (hfirst : AckedBy host agent_id lease_id c mid)
    (hsecond : AckedBy host agent_id lease_id mid c') :
    AckedBy host agent_id lease_id c c' where
  now := Nat.le_trans hfirst.now hsecond.now
  keys := hsecond.keys.trans hfirst.keys
  row := by
    intro row hrow
    rcases hfirst.row row hrow with hmid | howned
    · exact hsecond.row row hmid
    · exact Or.inr howned
  rowBefore := by
    intro row' hrow'
    rcases hsecond.rowBefore row' hrow' with ⟨mid_row, hmid, hid, hfrom, hto⟩
    rcases hfirst.rowBefore mid_row hmid with ⟨row, hrow, hid', hfrom', hto'⟩
    exact ⟨row, hrow, hid.trans hid', hfrom.trans hfrom', hto.trans hto'⟩
  rowAfter := by
    intro row hrow
    rcases hfirst.rowAfter row hrow with ⟨mid_row, hmid, hid, hfrom, hto⟩
    rcases hsecond.rowAfter mid_row hmid with ⟨row', hrow', hid', hfrom', hto'⟩
    exact ⟨row', hrow', hid'.trans hid, hfrom'.trans hfrom, hto'.trans hto⟩
  file := by
    intro file hfile
    rcases hfirst.file file hfile with hmid | howned
    · exact hsecond.file file hmid
    · exact Or.inr howned
  live := by
    intro file hfile hlive
    exact hfirst.live file (hsecond.live file hfile hlive)
      (hlive.mono hsecond.now)
  paths := hsecond.paths
  digest := hsecond.digest

theorem tick_ackedBy
    (h : Agreed host c) (now : Nat) :
    AckedBy host agent_id lease_id c (c.tick now) where
  now := Nat.le_max_left _ _
  keys := rfl
  row := fun _ hrow => Or.inl hrow
  rowBefore := fun row hrow => ⟨row, hrow, rfl, rfl, rfl⟩
  rowAfter := fun row hrow => ⟨row, hrow, rfl, rfl, rfl⟩
  file := fun _ hfile => Or.inl hfile
  live := fun _ hfile _ => hfile
  paths := h.paths
  digest := h.digest

theorem mem_swept
    {path : PacketPath}
    (hpath : path ∈
      (writeMatchingLeasePackets host env lease_id status c).1) :
    exists file, file ∈ c.files ∧ file.path = path ∧
      file.path.box ≠ Box.archive ∧
      file.packet.open host lease_id c.now = true := by
  rcases List.mem_map.mp hpath with ⟨file, hfile, heq⟩
  have hopen := (List.mem_filter.mp hfile).right
  have hknown := mem_knownFiles.mp (List.mem_filter.mp hfile).left
  exact ⟨file, hknown.left, heq, hknown.right.right, hopen⟩

theorem open_spec
    {packet : Packet} {now : Nat} (h : packet.open host lease_id now = true) :
    packet.lease_id = lease_id ∧ packet.acked = false ∧
      unexpired (host.parse_iso_ts packet.expires_at) now = true := by
  unfold Packet.open at h
  rw [Bool.and_eq_true, Bool.and_eq_true] at h
  exact ⟨of_decide_eq_true h.left.left, by simpa using h.left.right, h.right⟩

/-- A packet that the sweep leaves as it was, or one that it settled. -/
theorem swept_file
    {file : PacketFile} (hfile : file ∈
      (writeMatchingLeasePackets host env lease_id status c).2.files) :
    (file ∈ c.files ∧ file.path ∉
      (writeMatchingLeasePackets host env lease_id status c).1) ∨
    (file.packet.ack_status = some status ∧ file.path ∈
        (writeMatchingLeasePackets host env lease_id status c).1 ∧
      exists old, old ∈ c.files ∧ old.path = file.path ∧
        old.packet.lease_id = file.packet.lease_id) := by
  unfold writeMatchingLeasePackets at hfile ⊢
  rcases List.mem_map.mp hfile with ⟨old, hold, heq⟩
  dsimp only at heq ⊢
  split at heq
  · rename_i hpath
    rw [← heq]
    exact Or.inr ⟨rfl, List.contains_iff_mem.mp hpath, old, hold, rfl, rfl⟩
  · rename_i hpath
    rw [← heq]
    refine Or.inl ⟨hold, ?_⟩
    intro hmem
    exact hpath (List.contains_iff_mem.mpr hmem)

theorem sweep_ackedBy
    (h : Agreed host c) (hstatus : status ≠ "")
    (haddressed : forall row, row ∈ c.leases -> row.lease_id = lease_id ->
      row.to_agent = agent_id) :
    AckedBy host agent_id lease_id c (archiveAll
      (writeMatchingLeasePackets host env lease_id status c).1
      (writeMatchingLeasePackets host env lease_id status c).2).2 := by
  have harchived := archiveAll_spec
    (writeMatchingLeasePackets host env lease_id status c).1
    (writeMatchingLeasePackets host env lease_id status c).2
  have hleases : (writeMatchingLeasePackets host env lease_id status
      c).2.leases = c.leases := rfl
  have hnow : (writeMatchingLeasePackets host env lease_id status
      c).2.now = c.now := rfl
  constructor
  · rw [harchived.now, hnow]
  · rw [harchived.leases, hleases]
  · intro row hrow
    rw [harchived.leases, hleases]
    exact Or.inl hrow
  · intro row hrow
    rw [harchived.leases, hleases] at hrow
    exact ⟨row, hrow, rfl, rfl, rfl⟩
  · intro row hrow
    rw [harchived.leases, hleases]
    exact ⟨row, hrow, rfl, rfl, rfl⟩
  · intro file hfile
    by_cases hpath : file.path ∈
        (writeMatchingLeasePackets host env lease_id status c).1
    · rcases mem_swept hpath with ⟨found, hfound, heq, hbox, hopen⟩
      have hsame : found = file := h.paths found hfound file hfile heq hbox
      rw [hsame] at hopen
      rw [hsame] at hbox
      rcases open_spec hopen with ⟨hlease, hacked, hunexpired⟩
      rcases h.known file hfile ⟨hbox, hacked, hunexpired⟩ with
        ⟨row, hrow, hid, _, hto⟩
      refine Or.inr ⟨hlease, ?_⟩
      rw [← hto]
      exact haddressed row hrow (hid.trans hlease)
    · apply Or.inl
      apply harchived.stays file _ hpath
      apply List.mem_map.mpr
      refine ⟨file, hfile, if_neg ?_⟩
      intro hcontains
      exact hpath (List.contains_iff_mem.mp hcontains)
  · intro file hfile hlive
    rcases swept_file (harchived.before hfile hlive.box) with
      hold | ⟨hacked, _⟩
    · exact hold.left
    · have hsettled : file.packet.acked = true := by
        unfold Packet.acked
        rw [hacked]
        simpa using hstatus
      rw [hlive.acked] at hsettled
      cases hsettled
  · intro file hfile other hother hpath hbox
    have hfile' := harchived.before hfile hbox
    have hother' := harchived.before hother (by rw [← hpath]; exact hbox)
    rcases List.mem_map.mp hfile' with ⟨old, hold, heq⟩
    rcases List.mem_map.mp hother' with ⟨old', hold', heq'⟩
    have hpath_old : old.path = file.path := by
      rw [← heq]
      split
      · rfl
      · rfl
    have hpath_old' : old'.path = other.path := by
      rw [← heq']
      split
      · rfl
      · rfl
    have hsame : old = old' := by
      apply h.paths old hold old' hold'
      · rw [hpath_old, hpath_old', hpath]
      · rw [hpath_old]
        exact hbox
    rw [← heq, ← heq', hsame]
  · intro file hfile
    rcases harchived.origin file hfile with ⟨moved, hmoved, hpacket, _, hname, _⟩
    rw [← hpacket, ← hname]
    rcases swept_file hmoved with hold | ⟨_, _, old, hold, hpath, hlease⟩
    · exact h.digest moved hold.left
    · rw [← hpath, ← hlease]
      exact h.digest old hold

theorem settle_ackedBy
    (h : Agreed host c) (hstatus : status ≠ "")
    (haddressed : forall row, row ∈ c.leases -> row.lease_id = lease_id ->
      row.to_agent = agent_id) :
    AckedBy host agent_id lease_id c
      (settleHandoff host env lease_id status c).2 := by
  have hupdate : AckedBy host agent_id lease_id c
      (updateHandoffLeaseStatus env lease_id status c).2 :=
    update_ackedBy h haddressed
  unfold settleHandoff
  dsimp only
  generalize updateHandoffLeaseStatus env lease_id status c = updated
    at hupdate ⊢
  have hagreed := hupdate.agreed h
  have hrows : forall row, row ∈ updated.2.leases ->
      row.lease_id = lease_id -> row.to_agent = agent_id := by
    intro row hrow hid
    rcases hupdate.rowBefore row hrow with ⟨old, hold, hid', _, hto⟩
    rw [hto]
    exact haddressed old hold (hid'.symm.trans hid)
  split
  · exact hupdate
  · have htick : AckedBy host agent_id lease_id updated.2
        (updated.2.tick env.sweepAt) := tick_ackedBy hagreed _
    have hsweep := @sweep_ackedBy _ env _ _ _ _ (htick.agreed hagreed) hstatus
      hrows
    split
    · rename_i hnothing
      rw [Bool.and_eq_true, List.isEmpty_iff] at hnothing
      rw [hnothing.left] at hsweep
      exact hupdate.trans (htick.trans hsweep)
    · exact hupdate.trans (htick.trans hsweep)

/-- A lease has at most one recipient, and `lease_to_agent` finds it. -/
theorem leaseToAgent_addressed
    (h : Agreed host c) (hread : env.readFails = false)
    (hagent : leaseToAgent env lease_id c = some agent_id) :
    forall row, row ∈ c.leases -> row.lease_id = lease_id ->
      row.to_agent = agent_id := by
  intro row hrow hid
  have hfind := h.findLease hrow
  rw [hid] at hfind
  unfold leaseToAgent at hagent
  rw [hread, if_neg Bool.false_ne_true, hfind] at hagent
  dsimp only at hagent
  rw [if_pos (h.named row hrow).right.right] at hagent
  exact Option.some.inj hagent

theorem ack_cases
    (h : Agreed host c) {caller : HandoffCaller} {params : AckParams}
    (hread : env.readFails = false) :
    (handleAckHandoff host env caller params c).2 = c ∨
    exists p, caller = Except.ok p ∧
      AckedBy host p.agent_id (PyText.strip params.lease_id) c
        (handleAckHandoff host env caller params c).2 := by
  unfold handleAckHandoff
  dsimp only
  split
  · exact Or.inl rfl
  · split
    · exact Or.inl rfl
    · rename_i hstatus
      have hnonempty : PyText.strip params.status ≠ "" := by
        intro hempty
        rw [hempty] at hstatus
        exact hstatus (by decide)
      split
      · exact Or.inl rfl
      · rename_i p
        split
        · exact Or.inl rfl
        · rename_i to_agent hagent
          split
          · exact Or.inl rfl
          · rename_i hmine
            have hmine' : to_agent = p.agent_id := not_not.mp hmine
            rw [hmine'] at hagent
            exact Or.inr ⟨p, rfl, settle_ackedBy h hnonempty
              (leaseToAgent_addressed h hread hagent)⟩

end Settling

/-!
## Listing
-/

section Listing

variable {host : HandoffHost} {c : Channels}

theorem foldl_fillPending
    {known : List String} (files merged : List Pending)
    (h : forall entry, entry ∈ files -> entry.lease_id ∈ known) :
    files.foldl (fillPending known) merged = merged := by
  induction files generalizing merged with
  | nil =>
      rfl
  | cons entry rest ih =>
      have hknown : known.contains entry.lease_id = true :=
        List.contains_iff_mem.mpr (h entry (List.mem_cons_self ..))
      rw [List.foldl_cons]
      have hfill : fillPending known merged entry = merged := by
        unfold fillPending
        rw [hknown, Bool.true_or, if_pos rfl]
      rw [hfill]
      exact ih merged fun other hother =>
        h other (List.mem_cons_of_mem _ hother)

theorem foldl_putPending
    (rows merged : List Pending)
    (h : ((merged ++ rows).map (·.lease_id)).Nodup) :
    rows.foldl putPending merged = merged ++ rows := by
  induction rows generalizing merged with
  | nil =>
      rw [List.append_nil]
      rfl
  | cons entry rest ih =>
      have hnew : (merged.any fun other =>
          other.lease_id = entry.lease_id) = false := by
        rw [List.any_eq_false]
        intro other hother heq
        rw [List.map_append, List.nodup_append] at h
        apply h.right.right other.lease_id
          (List.mem_map_of_mem hother) entry.lease_id
          (List.mem_map_of_mem (List.mem_cons_self ..))
        exact of_decide_eq_true heq
      have hput : putPending merged entry = merged ++ [entry] := by
        unfold putPending
        rw [hnew, if_neg Bool.false_ne_true]
      rw [List.foldl_cons, hput, ih (merged ++ [entry])]
      · rw [List.append_assoc]
        rfl
      · rw [List.append_assoc]
        exact h

theorem pendingHandoffLeases_keys
    (h : Agreed host c) (agent_id : String) :
    ((pendingHandoffLeases agent_id c).map (·.lease_id)).Nodup := by
  unfold pendingHandoffLeases
  rw [List.map_map]
  have hperm := (List.perm_insertionSort leaseOrder
    (c.leases.filter (Lease.pendingFor agent_id c.now))).map (·.lease_id)
  have hsub : ((c.leases.filter (Lease.pendingFor agent_id c.now)).map
      (·.lease_id)).Sublist (c.leases.map (·.lease_id)) :=
    List.Sublist.map _ List.filter_sublist
  exact hperm.nodup_iff.mpr (h.keys.sublist hsub)

theorem mem_pendingHandoffLeases
    {agent_id : String} {entry : Pending} :
    entry ∈ pendingHandoffLeases agent_id c <->
      exists row, row ∈ c.leases ∧ row.to_agent = agent_id ∧
        row.live c.now = true ∧ row.entry = entry := by
  unfold pendingHandoffLeases
  rw [List.mem_map]
  constructor
  · intro hentry
    rcases hentry with ⟨row, hrow, heq⟩
    rw [List.mem_insertionSort, List.mem_filter] at hrow
    have hpending := hrow.right
    unfold Lease.pendingFor at hpending
    rw [Bool.and_assoc, Bool.and_eq_true] at hpending
    exact ⟨row, hrow.left, of_decide_eq_true hpending.left, hpending.right,
      heq⟩
  · intro hrow
    rcases hrow with ⟨row, hrow, hto, hlive, heq⟩
    refine ⟨row, ?_, heq⟩
    rw [List.mem_insertionSort, List.mem_filter]
    refine ⟨hrow, ?_⟩
    unfold Lease.pendingFor
    rw [Bool.and_assoc, Bool.and_eq_true]
    exact ⟨decide_eq_true hto, hlive⟩

/-- With both channels healthy, the packets add nothing to the rows. -/
theorem list_eq
    (h : Agreed host c) {env : ListEnv} {p : EffectivePrincipal}
    (hrows : env.rowsFail = false) (hknown : env.knownFails = false)
    (hagent : p.agent_id ≠ "") :
    handleListPendingHandoffs host env (Except.ok p) c =
      HandoffResponse.pending p.agent_id
        (pendingHandoffLeases p.agent_id c) := by
  have hfiles : forall entry, entry ∈ filePending host p.agent_id
      (max c.now env.filesAt) c ->
      entry.lease_id ∈ knownLeaseIds p.agent_id c ++
        (pendingHandoffLeases p.agent_id c).map (·.lease_id) := by
    intro entry hentry
    unfold filePending at hentry
    rcases List.mem_map.mp hentry with ⟨file, hfile, heq⟩
    rw [List.mem_filter] at hfile
    have hvault := mem_vaultFiles.mp hfile.left
    have hpending := hfile.right
    unfold Packet.pendingFor at hpending
    rw [Bool.and_eq_true, Bool.and_eq_true, Bool.and_eq_true] at hpending
    have hlive : file.Live host c.now :=
      ⟨hvault.right.right, by simpa using hpending.left.right,
        unexpired_mono (Nat.le_max_left _ _) hpending.right⟩
    rcases h.known file hvault.left hlive with ⟨row, hrow, hid, _, hto⟩
    apply List.mem_append.mpr
    apply Or.inl
    unfold knownLeaseIds
    apply List.mem_map.mpr
    refine ⟨row, List.mem_filter.mpr ⟨hrow, ?_⟩, ?_⟩
    · rw [hto]
      exact decide_eq_true (of_decide_eq_true hpending.left.left.left)
    · rw [← heq]
      exact hid
  have hmerge : mergePending (knownLeaseIds p.agent_id c ++
      (pendingHandoffLeases p.agent_id c).map (·.lease_id))
      (pendingHandoffLeases p.agent_id c)
      (filePending host p.agent_id (max c.now env.filesAt) c) =
      pendingHandoffLeases p.agent_id c := by
    unfold mergePending
    rw [foldl_putPending _ _ (by simpa using pendingHandoffLeases_keys h _),
      List.nil_append]
    exact foldl_fillPending _ _ hfiles
  unfold handleListPendingHandoffs
  dsimp only
  rw [if_neg hagent, hrows, hknown, if_neg Bool.false_ne_true,
    if_neg Bool.false_ne_true, hmerge, Bool.and_false,
    if_neg Bool.false_ne_true]

end Listing

/-!
## One step
-/

/-- The acknowledgement of the recipient, or another handoff by the sender
under the lease. -/
def HandoffEvent.Concludes (host : HandoffHost)
    (lease_id from_agent to_agent : String) : HandoffEvent -> Prop
  | HandoffEvent.send env caller params =>
      exists p sender recipient packet, caller = Except.ok p ∧
        p.agent_id = from_agent ∧
        prepareHandoff host env caller params =
          Except.ok (sender, recipient, packet) ∧
        packet.lease_id = lease_id
  | HandoffEvent.ack _ caller params =>
      exists p, caller = Except.ok p ∧ p.agent_id = to_agent ∧
        PyText.strip params.lease_id = lease_id
  | _ => False

/-- What a step leaves alone. -/
structure StepKeeps (host : HandoffHost) (event : HandoffEvent)
    (c c' : Channels) : Prop where
  now : c.now ≤ c'.now
  agreed : Agreed host c'
  row : forall row, row ∈ c.leases -> row.live c'.now = true ->
    ¬ event.Concludes host row.lease_id row.from_agent row.to_agent ->
    row ∈ c'.leases
  file : forall file, file ∈ c.files -> file.Live host c'.now ->
    ¬ event.Concludes host file.packet.lease_id file.packet.from_agent
      file.packet.to_agent ->
    file ∈ c'.files

theorem prepareHandoff_ok
    {host : HandoffHost} {env : SendEnv} {caller : HandoffCaller}
    {params : HandoffParams} {sender recipient : String} {packet : Packet}
    (h : prepareHandoff host env caller params =
      Except.ok (sender, recipient, packet)) :
    (exists p, caller = Except.ok p) ∧ PyText.strip params.to_agent ≠ "" := by
  unfold prepareHandoff at h
  dsimp only at h
  split at h
  · cases h
  · rename_i hnamed
    split at h
    · cases h
    · rename_i p
      refine ⟨⟨p, rfl⟩, ?_⟩
      intro hempty
      apply hnamed
      rw [hempty]
      simp

theorem deliver_keeps
    {host : HandoffHost} {env : SendEnv} {p : EffectivePrincipal}
    {params : HandoffParams} {sender recipient : String} {packet : Packet}
    {c : Channels} (h : Agreed host c) (hhealthy : env.storeFails = false)
    (hprepared : prepareHandoff host env (Except.ok p) params =
      Except.ok (sender, recipient, packet))
    (hcareful : CarefulPacket host c p params packet) :
    StepKeeps host (HandoffEvent.send env (Except.ok p) params) c
      (deliver host env sender recipient packet c).2 := by
  have hrecipient : packet.to_agent ≠ "" := by
    rw [hcareful.recipient]
    exact (prepareHandoff_ok hprepared).right
  have hsame : forall lease_id from_agent to_agent,
      ¬ (HandoffEvent.send env (Except.ok p) params).Concludes host lease_id
        from_agent to_agent ->
      lease_id = packet.lease_id -> packet.from_agent ≠ from_agent := by
    intro lease_id from_agent to_agent hnot hid hfrom
    apply hnot
    exact ⟨p, sender, recipient, packet, rfl,
      hcareful.sender.symm.trans hfrom, hprepared, hid.symm⟩
  rcases @deliver_leases c packet host _ sender recipient hhealthy with
    ⟨new, hid, _, _, _, _, hleases⟩
  constructor
  · rw [deliver_now]
  · exact agreed_deliver h hhealthy hcareful.stripped hcareful.named hrecipient
      hcareful.between
  · intro row hrow hlive hnot
    rw [deliver_now] at hlive
    rw [hleases]
    apply mem_storeLease.mpr
    refine Or.inl ⟨hrow, ?_⟩
    rw [hid]
    intro hlease
    exact hsame _ _ _ hnot hlease
      (hcareful.between.row row hrow hlease hlive).left.symm
  · intro file hfile hlive hnot
    rw [deliver_now] at hlive
    apply mem_deliver_files.mpr
    apply Or.inl
    have hother : forall path : PacketPath,
        path.name = packetName host c.now packet -> file.path ≠ path := by
      intro path hname hpath
      have hlease : file.packet.lease_id = packet.lease_id := by
        rw [← h.digest file hfile, hpath, hname]
        rfl
      exact hsame _ _ _ hnot hlease
        (hcareful.between.packet file hfile hlease hlive).left.symm
    exact ⟨hfile, hother _ rfl, hother _ rfl⟩

theorem AckedBy.keeps
    {host : HandoffHost} {env : AckEnv} {p : EffectivePrincipal}
    {params : AckParams} {c c' : Channels} (h : Agreed host c)
    (hacked : AckedBy host p.agent_id (PyText.strip params.lease_id) c c') :
    StepKeeps host (HandoffEvent.ack env (Except.ok p) params) c c' where
  now := hacked.now
  agreed := hacked.agreed h
  row := by
    intro row hrow _ hnot
    rcases hacked.row row hrow with hstays | ⟨hid, hto⟩
    · exact hstays
    · exact absurd ⟨p, rfl, hto.symm, hid.symm⟩ hnot
  file := by
    intro file hfile _ hnot
    rcases hacked.file file hfile with hstays | ⟨hid, hto⟩
    · exact hstays
    · exact absurd ⟨p, rfl, hto.symm, hid.symm⟩ hnot

theorem StepKeeps.refl
    {host : HandoffHost} {event : HandoffEvent} {c : Channels}
    (h : Agreed host c) : StepKeeps host event c c where
  now := Nat.le_refl _
  agreed := h
  row := fun _ hrow _ _ => hrow
  file := fun _ hfile _ _ => hfile

theorem StepKeeps.tick
    {host : HandoffHost} {event : HandoffEvent} {c : Channels}
    (h : Agreed host c) (now : Nat) : StepKeeps host event c (c.tick now) where
  now := Nat.le_max_left _ _
  agreed := h.tick now
  row := fun _ hrow _ _ => hrow
  file := fun _ hfile _ _ => hfile

theorem guarded_keeps
    {host : HandoffHost} {event : HandoffEvent} {c : Channels}
    (h : Agreed host c) (hguarded : event.guarded host c) :
    StepKeeps host event c (event.after host c) := by
  rcases hguarded with ⟨hhealthy, hcareful⟩
  cases event with
  | send env caller params =>
      show StepKeeps host (HandoffEvent.send env caller params) c
        (handleDaemonHandoff host env caller params c).2
      unfold handleDaemonHandoff
      cases hprepared : prepareHandoff host env caller params with
      | error response =>
          exact StepKeeps.refl h
      | ok prepared =>
          rcases prepared with ⟨sender, recipient, packet⟩
          rcases (prepareHandoff_ok hprepared).left with ⟨p, hcaller⟩
          rw [hcaller] at hprepared ⊢
          exact deliver_keeps h (by simpa [HandoffEvent.healthy] using hhealthy)
            hprepared
            (hcareful p sender recipient packet hcaller (by
              rw [hcaller]
              exact hprepared))
  | ack env caller params =>
      have hread : env.readFails = false := by
        unfold HandoffEvent.healthy at hhealthy
        rw [Bool.and_eq_true, Bool.and_eq_true] at hhealthy
        simpa using hhealthy.left.left
      show StepKeeps host (HandoffEvent.ack env caller params) c
        (handleAckHandoff host env caller params c).2
      rcases @ack_cases host env c h caller params hread with
        hsame | ⟨p, hcaller, hacked⟩
      · rw [hsame]
        exact StepKeeps.refl h
      · rw [hcaller] at hacked ⊢
        exact hacked.keeps h
  | list env caller =>
      exact StepKeeps.tick h env.filesAt
  | poll env lease_id =>
      exact StepKeeps.refl h
  | tick now =>
      exact StepKeeps.tick h now

/-!
## Runs of careful steps
-/

def carefulSystem (host : HandoffHost) :
    TransitionSystem Channels HandoffEvent :=
  (handoffSystem host).Restrict fun c event => event.guarded host c

theorem agreed_reachable
    {host : HandoffHost} {c : Channels}
    (hreach : TransitionSystem.Reachable (carefulSystem host) c) :
    Agreed host c := by
  apply TransitionSystem.reachable_induction _ _ hreach
  · intro s hs
    have hempty : s = Channels.empty := hs
    rw [hempty]
    exact agreed_empty host
  · intro s event s' _ hagreed hstep
    rcases hstep with ⟨hguarded, heq⟩
    have hafter : s' = event.after host s := heq
    rw [hafter]
    exact (guarded_keeps hagreed hguarded).agreed

theorem careful_run_keeps
    {host : HandoffHost} {c c' : Channels} {events : List HandoffEvent}
    (hrun : TransitionSystem.Run (carefulSystem host) c events c')
    (h : Agreed host c) :
    c.now ≤ c'.now ∧ Agreed host c' ∧
    (forall row, row ∈ c.leases -> row.live c'.now = true ->
      (forall event, event ∈ events ->
        ¬ event.Concludes host row.lease_id row.from_agent row.to_agent) ->
      row ∈ c'.leases) ∧
    forall file, file ∈ c.files -> file.Live host c'.now ->
      (forall event, event ∈ events ->
        ¬ event.Concludes host file.packet.lease_id file.packet.from_agent
          file.packet.to_agent) ->
      file ∈ c'.files := by
  induction hrun with
  | nil s =>
      exact ⟨Nat.le_refl _, h, fun _ hrow _ _ => hrow,
        fun _ hfile _ _ => hfile⟩
  | cons hstep _ ih =>
      rcases hstep with ⟨hguarded, heq⟩
      have hkeeps := guarded_keeps h hguarded
      rw [show _ = _ from heq] at ih
      rcases ih hkeeps.agreed with ⟨hnow, hagreed, hrows, hfiles⟩
      refine ⟨Nat.le_trans hkeeps.now hnow, hagreed, ?_, ?_⟩
      · intro row hrow hlive hnot
        apply hrows row _ hlive
        · intro event hevent
          exact hnot event (List.mem_cons_of_mem _ hevent)
        · exact hkeeps.row row hrow (Lease.live_mono hnow hlive)
            (hnot _ (List.mem_cons_self ..))
      · intro file hfile hlive hnot
        apply hfiles file _ hlive
        · intro event hevent
          exact hnot event (List.mem_cons_of_mem _ hevent)
        · exact hkeeps.file file hfile (hlive.mono hnow)
            (hnot _ (List.mem_cons_self ..))

/-!
## The law
-/

/-- The lease is in the list of the agent exactly once, whatever the time of
the read of its files. -/
def ListedOnce (host : HandoffHost) (c : Channels) (agent_id lease_id : String) :
    Prop :=
  forall (env : ListEnv) (p : EffectivePrincipal),
    env.rowsFail = false -> env.knownFails = false -> p.agent_id = agent_id ->
    exists handoffs, handleListPendingHandoffs host env (Except.ok p) c =
        HandoffResponse.pending agent_id handoffs ∧
      (handoffs.map (·.lease_id)).count lease_id = 1

structure RecipientSettles (host : HandoffHost)
    (T : TransitionSystem Channels HandoffEvent) (c : Channels) : Prop where
  /-- A handoff with `requires_ack` is in the list of the one it is for. -/
  delivered : forall env p params sender recipient packet c',
    prepareHandoff host env (Except.ok p) params =
      Except.ok (sender, recipient, packet) ->
    packet.requires_ack = true ->
    unexpired (host.parse_iso_ts packet.expires_at) c.now = true ->
    T.step c (HandoffEvent.send env (Except.ok p) params) c' ->
    ListedOnce host c' (PyText.strip params.to_agent) packet.lease_id
  /-- Its row stays as it is and in that list, until one of the two concludes
  it or it expires. -/
  stays : forall row events c', row ∈ c.leases ->
    TransitionSystem.Run T c events c' -> row.live c'.now = true ->
    (forall event, event ∈ events ->
      ¬ event.Concludes host row.lease_id row.from_agent row.to_agent) ->
    row ∈ c'.leases ∧ ListedOnce host c' row.to_agent row.lease_id
  /-- Its packets stay as they are and where they are, likewise. -/
  packets : forall file events c', file ∈ c.files ->
    TransitionSystem.Run T c events c' -> file.Live host c'.now ->
    (forall event, event ∈ events ->
      ¬ event.Concludes host file.packet.lease_id file.packet.from_agent
        file.packet.to_agent) ->
    file ∈ c'.files
  /-- Whatever an agent finds in its list it can acknowledge. -/
  ackable : forall (env : ListEnv) (p : EffectivePrincipal) handoffs entry,
    env.rowsFail = false -> env.knownFails = false ->
    handleListPendingHandoffs host env (Except.ok p) c =
      HandoffResponse.pending p.agent_id handoffs ->
    entry ∈ handoffs ->
    forall (ack : AckEnv) (params : AckParams), ack.readFails = false ->
      ack.updateFails = false -> ack.statusFails = false ->
      params.lease_id = entry.lease_id ->
      handoffAckStatuses.contains (PyText.strip params.status) = true ->
      exists updated archived,
        (handleAckHandoff host ack (Except.ok p) params c).1 =
          HandoffResponse.acked entry.lease_id (PyText.strip params.status)
            updated archived

theorem listedOnce_of_live
    {host : HandoffHost} {c : Channels} (h : Agreed host c) {row : Lease}
    (hrow : row ∈ c.leases) (hlive : row.live c.now = true) :
    ListedOnce host c row.to_agent row.lease_id := by
  intro env p hrows hknown hagent
  have hnamed : p.agent_id ≠ "" := by
    rw [hagent]
    exact (h.named row hrow).right.right
  refine ⟨pendingHandoffLeases p.agent_id c, ?_, ?_⟩
  · rw [← hagent]
    exact list_eq h hrows hknown hnamed
  · apply List.count_eq_one_of_mem (pendingHandoffLeases_keys h _)
    apply List.mem_map.mpr
    refine ⟨row.entry, ?_, rfl⟩
    exact mem_pendingHandoffLeases.mpr ⟨row, hrow, hagent.symm, hlive, rfl⟩

theorem ack_live
    {host : HandoffHost} {c : Channels} (h : Agreed host c)
    {env : AckEnv} {p : EffectivePrincipal} {params : AckParams} {row : Lease}
    (hrow : row ∈ c.leases) (hlive : row.live c.now = true)
    (hagent : row.to_agent = p.agent_id) (hid : params.lease_id = row.lease_id)
    (hread : env.readFails = false) (hupdate : env.updateFails = false)
    (hstatus : handoffAckStatuses.contains (PyText.strip params.status) = true) :
    exists updated archived,
      (handleAckHandoff host env (Except.ok p) params c).1 =
        HandoffResponse.acked row.lease_id (PyText.strip params.status)
          updated archived := by
  have hnamed := h.named row hrow
  have hstripped : PyText.strip params.lease_id = row.lease_id := by
    rw [hid]
    exact hnamed.left
  have hto : leaseToAgent env row.lease_id c = some p.agent_id := by
    unfold leaseToAgent
    rw [hread, if_neg Bool.false_ne_true, h.findLease hrow]
    dsimp only
    rw [if_pos hnamed.right.right, hagent]
  have hpending : (row.status = LeaseStatus.pending) ∧
      unexpired row.expires_at c.now = true := by
    unfold Lease.live at hlive
    rw [Bool.and_eq_true] at hlive
    exact ⟨of_decide_eq_true hlive.left, hlive.right⟩
  have hsettles : (updateHandoffLeaseStatus env row.lease_id
      (PyText.strip params.status) c).1 = true := by
    unfold updateHandoffLeaseStatus
    rw [hupdate, if_neg Bool.false_ne_true]
    dsimp only
    rw [List.any_eq_true]
    refine ⟨row, hrow, ?_⟩
    simp [Lease.settleable, hpending.left, hpending.right]
  unfold handleAckHandoff
  dsimp only
  rw [hstripped, if_neg hnamed.right.left, hstatus, Bool.not_true,
    if_neg Bool.false_ne_true, hto]
  dsimp only
  rw [if_neg (by simp)]
  unfold settleHandoff
  dsimp only
  rw [hsettles, Bool.true_or, if_pos rfl]
  dsimp only
  rw [Bool.not_true, Bool.and_false, if_neg Bool.false_ne_true]
  exact ⟨_, _, rfl⟩

theorem delivered_listed
    {host : HandoffHost} {c : Channels} (h : Agreed host c)
    {env : SendEnv} {p : EffectivePrincipal} {params : HandoffParams}
    {sender recipient : String} {packet : Packet}
    (hguarded : (HandoffEvent.send env (Except.ok p) params).guarded host c)
    (hprepared : prepareHandoff host env (Except.ok p) params =
      Except.ok (sender, recipient, packet))
    (hrequires : packet.requires_ack = true)
    (hunexpired : unexpired (host.parse_iso_ts packet.expires_at) c.now = true) :
    ListedOnce host
      ((HandoffEvent.send env (Except.ok p) params).after host c)
      (PyText.strip params.to_agent) packet.lease_id := by
  have hkeeps := guarded_keeps h hguarded
  have hcareful := hguarded.right p sender recipient packet rfl hprepared
  have hafter : (HandoffEvent.send env (Except.ok p) params).after host c =
      (deliver host env sender recipient packet c).2 := by
    show (handleDaemonHandoff host env (Except.ok p) params c).2 = _
    unfold handleDaemonHandoff
    rw [hprepared]
  rw [hafter] at hkeeps ⊢
  rcases @deliver_leases c packet host _ sender recipient
    (by simpa [HandoffEvent.healthy] using hguarded.left) with
    ⟨new, hid, _, hto, hstatus, hexpires, hleases⟩
  rw [← hcareful.recipient, ← hid, ← hto]
  apply listedOnce_of_live hkeeps.agreed
  · rw [hleases]
    exact mem_storeLease.mpr (Or.inr rfl)
  · rw [deliver_now]
    unfold Lease.live
    rw [hstatus, hexpires, hrequires, hunexpired]
    rfl

def plainHandoffHost : HandoffHost where
  agent_vault := fun agent_id => ("/vaults/" ++ agent_id, true)
  parse_iso_ts := fun text => if text = "later" then some 10 else none
  iso_from_epoch := fun _ => "now"
  stamp := fun _ => "00"
  slugify := fun _ => "task"
  redact := fun text => text
  resolve := fun _ => some []

def plainSendEnv : SendEnv where
  defaults :=
    { created_at := "now"
      trace_id := "trace"
      lease_id := "fresh"
      expires_at := "later" }
  recipientExists := true
  createMissing := false
  storeFails := false

def plainAgent (agent_id : String) : EffectivePrincipal where
  agent_id := agent_id
  workspace_id := "default"
  capabilities := ["write"]
  allowed_vault_roots := []
  auto_accept_own := false

def underLeaseParams (from_agent to_agent : String) : HandoffParams where
  from_agent := from_agent
  to_agent := to_agent
  packet := Json.obj
    [("kind", Json.str "request"), ("task", Json.str "review"),
      ("envelope", Json.str "please"), ("wikilink_refs", Json.arr []),
      ("lease_id", Json.str "lease-1")]

def underLease (from_agent to_agent : String) : HandoffEvent :=
  HandoffEvent.send plainSendEnv (Except.ok (plainAgent from_agent))
    (underLeaseParams from_agent to_agent)

def annToBob : HandoffEvent := underLease "ann" "bob"

def malToMal : HandoffEvent := underLease "mal" "mal"

def healthySystem (host : HandoffHost) :
    TransitionSystem Channels HandoffEvent :=
  (handoffSystem host).Restrict fun _ event => event.healthy = true

end Daemon
end Minni
