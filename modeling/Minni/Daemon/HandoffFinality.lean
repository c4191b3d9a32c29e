import Minni.Daemon.HandoffSettlement

/-!
# One acknowledgement

An acknowledgement writes the row of its lease and then sweeps over the packet
files.  The two writes have guards of their own, and the second goes ahead
where the database said nothing; what keeps them together is a condition on
each call.
-/

namespace Minni
namespace Daemon

open Foundation

/-!
## What a call reports
-/

/-- The status that the response to an acknowledgement has for the lease. -/
def HandoffResponse.ackedStatus (lease_id : String) :
    HandoffResponse -> Option String
  | acked acked_id status _ _ =>
      if acked_id = lease_id then some status else none
  | _ => none

namespace HandoffEvent

/-- The status of the lease that the call reports to its caller. -/
def reports (host : HandoffHost) (lease_id : String) (c : Channels) :
    HandoffEvent -> Option String
  | ack env caller params =>
      (handleAckHandoff host env caller params c).1.ackedStatus lease_id
  | poll env polled => if polled = lease_id then pollHandoff env polled c else none
  | _ => none

/-- Another handoff under the lease. -/
def Resends (host : HandoffHost) (lease_id : String) : HandoffEvent -> Prop
  | send env caller params =>
      exists sender recipient packet,
        prepareHandoff host env caller params =
          Except.ok (sender, recipient, packet) ∧
        packet.lease_id = lease_id
  | _ => False

/-- The two vaults are known to the sweep; where the lease can still be
settled, the database does not fail both the update and the read after it, and
the sweep is not past the expiry. -/
def Orderly (sender recipient lease_id : String) (c : Channels) :
    HandoffEvent -> Prop
  | ack env _ params =>
      PyText.strip params.lease_id = lease_id ->
        sender ∈ env.known ∧ recipient ∈ env.known ∧
        forall row, row ∈ c.leases -> row.lease_id = lease_id ->
          row.settleable c.now = true ->
          (env.updateFails = true -> env.statusFails = false) ∧
          unexpired row.expires_at (max c.now env.sweepAt) = true
  | poll env polled => polled = lease_id -> sender ∈ env.known
  | _ => True

end HandoffEvent

/-- The channels right after a handoff under a lease that nothing else is
under. -/
structure JustDelivered (host : HandoffHost) (sender recipient : String)
    (packet : Packet) (c : Channels) : Prop where
  exists_before : exists before env caller params,
    prepareHandoff host env caller params =
      Except.ok (sender, recipient, packet) ∧
    env.storeFails = false ∧
    (forall row, row ∈ before.leases -> row.lease_id ≠ packet.lease_id) ∧
    (forall file, file ∈ before.files ->
      file.packet.lease_id ≠ packet.lease_id ∧
      file.path.name.lease_id ≠ packet.lease_id) ∧
    c = (handleDaemonHandoff host env caller params before).2

/-- Every run from there without another handoff under the lease. -/
def leaseSystem (host : HandoffHost) (sender recipient : String)
    (packet : Packet) : TransitionSystem Channels HandoffEvent where
  initial := JustDelivered host sender recipient packet
  step := fun c event c' =>
    ¬ event.Resends host packet.lease_id ∧ c' = event.after host c

def orderlySystem (host : HandoffHost) (sender recipient : String)
    (packet : Packet) : TransitionSystem Channels HandoffEvent :=
  (leaseSystem host sender recipient packet).Restrict fun c event =>
    event.Orderly sender recipient packet.lease_id c

/-!
## The law
-/

/-- The row and the packets have the status, and nobody finds the lease in a
list. -/
structure SettledAs (host : HandoffHost) (sender recipient lease_id : String)
    (status : String) (c : Channels) : Prop where
  row : exists row, row ∈ c.leases ∧ row.lease_id = lease_id
  rows : forall row, row ∈ c.leases -> row.lease_id = lease_id ->
    row.status = LeaseStatus.acked status
  outbox : exists file, file ∈ c.files ∧ file.path.vault = sender ∧
    file.path.box = Box.outbox ∧ file.packet.lease_id = lease_id
  inbox : exists file, file ∈ c.files ∧ file.path.vault = recipient ∧
    file.path.box ≠ Box.outbox ∧ file.packet.lease_id = lease_id
  packets : forall file, file ∈ c.files -> file.packet.lease_id = lease_id ->
    file.packet.ack_status = some status
  unlisted : forall env caller agent_id handoffs,
    handleListPendingHandoffs host env caller c =
      HandoffResponse.pending agent_id handoffs ->
    forall entry, entry ∈ handoffs -> entry.lease_id ≠ lease_id

/-- A status takes effect when the row or a packet gets it. -/
def TakesEffect (lease_id status : String) (c : Channels) : Prop :=
  status ≠ "" ∧
  ((exists row, row ∈ c.leases ∧ row.lease_id = lease_id ∧
      row.status = LeaseStatus.acked status) ∨
    exists file, file ∈ c.files ∧ file.packet.lease_id = lease_id ∧
      file.packet.ack_status = some status)

structure OneAckWins (host : HandoffHost)
    (T : TransitionSystem Channels HandoffEvent)
    (sender recipient lease_id : String) (c : Channels) : Prop where
  /-- Once a call has reported a status, each later one that reports any
  reports that one. -/
  final : forall event status mid, T.step c event mid ->
    event.reports host lease_id c = some status ->
    forall events c', TransitionSystem.Run T mid events c' ->
      forall later c'' other, T.step c' later c'' ->
        later.reports host lease_id c' = some other -> other = status
  /-- Each later await does report it. -/
  awaited : forall event status mid, T.step c event mid ->
    event.reports host lease_id c = some status ->
    forall events c', TransitionSystem.Run T mid events c' ->
      forall env c'', T.step c' (HandoffEvent.poll env lease_id) c'' ->
        pollHandoff env lease_id c' = some status
  /-- It is then on both channels. -/
  agreed : forall event status mid, T.step c event mid ->
    event.reports host lease_id c = some status ->
    forall events c', TransitionSystem.Run T mid events c' ->
      SettledAs host sender recipient lease_id status c'
  /-- No status takes effect on one channel alone, or after another. -/
  effect : forall status, TakesEffect lease_id status c ->
    forall events c', TransitionSystem.Run T c events c' ->
      SettledAs host sender recipient lease_id status c'

/-!
## The two phases of a lease
-/

/-- The rows and the files of one lease. -/
structure LeaseData (sender recipient lease_id : String)
    (row : Lease -> Prop) (file : PacketFile -> Prop) (c : Channels) :
    Prop where
  found : exists r, r ∈ c.leases ∧ r.lease_id = lease_id
  rows : forall r, r ∈ c.leases -> r.lease_id = lease_id -> row r
  outbox : exists f, f ∈ c.files ∧ f.path.vault = sender ∧
    f.path.box = Box.outbox ∧ f.packet.lease_id = lease_id
  inbox : exists f, f ∈ c.files ∧ f.path.vault = recipient ∧
    f.path.box ≠ Box.outbox ∧ f.packet.lease_id = lease_id
  files : forall f, f ∈ c.files ->
    (f.path.name.lease_id = lease_id ∨ f.packet.lease_id = lease_id) ->
    (f.path.name.lease_id = lease_id ∧ f.packet.lease_id = lease_id) ∧ file f

/-- Nobody has acknowledged. -/
def OpenLease (host : HandoffHost) (sender recipient lease_id : String)
    (expires_at : Option Nat) : Channels -> Prop :=
  LeaseData sender recipient lease_id
    (fun row => row.status = LeaseStatus.pending ∧ row.expires_at = expires_at)
    (fun file => (file.path.vault = sender ∨ file.path.vault = recipient) ∧
      file.path.box ≠ Box.archive ∧ file.packet.acked = false ∧
      host.parse_iso_ts file.packet.expires_at = expires_at)

def SettledLease (sender recipient lease_id status : String) :
    Channels -> Prop :=
  LeaseData sender recipient lease_id
    (fun row => row.status = LeaseStatus.acked status)
    (fun file => file.packet.ack_status = some status)

/-- The files of the lease have it in their names, and no others do. -/
def Filed (lease_id : String) (c : Channels) : Prop :=
  forall file, file ∈ c.files ->
    (file.path.name.lease_id = lease_id ∨ file.packet.lease_id = lease_id) ->
    file.path.name.lease_id = lease_id ∧ file.packet.lease_id = lease_id

theorem LeaseData.filed
    {sender recipient lease_id : String} {row : Lease -> Prop}
    {file : PacketFile -> Prop} {c : Channels}
    (h : LeaseData sender recipient lease_id row file c) : Filed lease_id c :=
  fun f hf hid => (h.files f hf hid).left

/-- Everything of the lease is as it was. -/
structure Untouched (lease_id : String) (c c' : Channels) : Prop where
  now : c.now ≤ c'.now
  rows : forall row : Lease, row.lease_id = lease_id ->
    (row ∈ c'.leases <-> row ∈ c.leases)
  files : forall file : PacketFile,
    (file.path.name.lease_id = lease_id ∨ file.packet.lease_id = lease_id) ->
    (file ∈ c'.files <-> file ∈ c.files)

theorem Untouched.refl (lease_id : String) (c : Channels) :
    Untouched lease_id c c where
  now := Nat.le_refl _
  rows := fun _ _ => Iff.rfl
  files := fun _ _ => Iff.rfl

theorem Untouched.tick (lease_id : String) (c : Channels) (now : Nat) :
    Untouched lease_id c (c.tick now) where
  now := Nat.le_max_left _ _
  rows := fun _ _ => Iff.rfl
  files := fun _ _ => Iff.rfl

theorem Untouched.trans
    {lease_id : String} {c mid c' : Channels}
    (hfirst : Untouched lease_id c mid) (hsecond : Untouched lease_id mid c') :
    Untouched lease_id c c' where
  now := Nat.le_trans hfirst.now hsecond.now
  rows := fun row hrow => (hsecond.rows row hrow).trans (hfirst.rows row hrow)
  files := fun file hfile =>
    (hsecond.files file hfile).trans (hfirst.files file hfile)

theorem LeaseData.untouched
    {sender recipient lease_id : String} {row : Lease -> Prop}
    {file : PacketFile -> Prop} {c c' : Channels}
    (h : LeaseData sender recipient lease_id row file c)
    (hsame : Untouched lease_id c c') :
    LeaseData sender recipient lease_id row file c' where
  found := by
    rcases h.found with ⟨r, hr, hid⟩
    exact ⟨r, (hsame.rows r hid).mpr hr, hid⟩
  rows := by
    intro r hr hid
    exact h.rows r ((hsame.rows r hid).mp hr) hid
  outbox := by
    rcases h.outbox with ⟨f, hf, hvault, hbox, hid⟩
    exact ⟨f, (hsame.files f (Or.inr hid)).mpr hf, hvault, hbox, hid⟩
  inbox := by
    rcases h.inbox with ⟨f, hf, hvault, hbox, hid⟩
    exact ⟨f, (hsame.files f (Or.inr hid)).mpr hf, hvault, hbox, hid⟩
  files := by
    intro f hf hid
    exact h.files f ((hsame.files f hid).mp hf) hid

/-!
## Calls that leave the lease alone
-/

theorem deliver_untouched
    {host : HandoffHost} {env : SendEnv} {sender recipient lease_id : String}
    {packet : Packet} {c : Channels} (hfiled : Filed lease_id c)
    (hother : packet.lease_id ≠ lease_id) :
    Untouched lease_id c (deliver host env sender recipient packet c).2 where
  now := by
    rw [deliver_now]
  rows := by
    intro row hid
    unfold deliver
    dsimp only
    split
    · rfl
    · rw [mem_storeLease]
      constructor
      · intro hrow
        rcases hrow with hold | hnew
        · exact hold.left
        · rw [hnew] at hid
          exact absurd hid hother
      · intro hrow
        refine Or.inl ⟨hrow, ?_⟩
        intro heq
        exact hother (heq.symm.trans hid)
  files := by
    intro file hid
    rw [mem_deliver_files]
    have hnew : forall path : PacketPath,
        path.name = packetName host c.now packet ->
        file ≠ PacketFile.mk path packet := by
      intro path hname heq
      rw [heq] at hid
      rcases hid with hid | hid
      · have hlease : path.name.lease_id = packet.lease_id := by
          rw [hname]
          rfl
        exact hother (hlease.symm.trans hid)
      · exact hother hid
    constructor
    · intro hfile
      rcases hfile with hold | hout | hin
      · exact hold.left
      · exact absurd hout (hnew _ rfl)
      · exact absurd hin (hnew _ rfl)
    · intro hfile
      have hpath : forall path : PacketPath,
          path.name = packetName host c.now packet -> file.path ≠ path := by
        intro path hname heq
        have hlease := (hfiled file hfile hid).left
        rw [heq, hname] at hlease
        exact hother hlease
      exact Or.inl ⟨hfile, hpath _ rfl, hpath _ rfl⟩

section Acking

variable {host : HandoffHost} {env : AckEnv} {lease_id acked_id : String}
variable {status : String} {c : Channels}

/-- The rows of other leases, and the rows that the update does not reach. -/
theorem update_rows
    (hskip : forall row, row ∈ c.leases -> row.lease_id = lease_id ->
      acked_id = lease_id -> row.settleable c.now = false) :
    Untouched lease_id c
      (updateHandoffLeaseStatus env acked_id status c).2 := by
  unfold updateHandoffLeaseStatus
  split
  · exact Untouched.refl lease_id c
  · constructor
    · exact Nat.le_refl _
    · intro row hid
      have hkept : forall old, old ∈ c.leases -> old.lease_id = lease_id ->
          ¬ (old.lease_id = acked_id && old.settleable c.now) = true := by
        intro old hold hid'
        by_cases hsame : acked_id = lease_id
        · rw [hskip old hold hid' hsame, Bool.and_false]
          exact Bool.false_ne_true
        · intro hreached
          rw [Bool.and_eq_true] at hreached
          exact hsame ((of_decide_eq_true hreached.left).symm.trans hid')
      constructor
      · intro hrow
        rcases List.mem_map.mp hrow with ⟨old, hold, heq⟩
        split at heq
        · rename_i hreached
          have hid' : old.lease_id = lease_id := by
            rw [← heq] at hid
            exact hid
          exact absurd hreached (hkept old hold hid')
        · rw [← heq]
          exact hold
      · intro hrow
        exact List.mem_map.mpr ⟨row, hrow, if_neg (hkept row hrow hid)⟩
    · exact fun _ _ => Iff.rfl

/-- The sweep, where it reaches no packet of the lease. -/
theorem sweep_untouched
    (hfiled : Filed lease_id c)
    (hskip : forall file, file ∈ c.files -> file.packet.lease_id = lease_id ->
      file.packet.open host acked_id c.now = false) :
    Untouched lease_id c (archiveAll
      (writeMatchingLeasePackets host env acked_id status c).1
      (writeMatchingLeasePackets host env acked_id status c).2).2 := by
  have harchived := archiveAll_spec
    (writeMatchingLeasePackets host env acked_id status c).1
    (writeMatchingLeasePackets host env acked_id status c).2
  have hpaths : forall path,
      path ∈ (writeMatchingLeasePackets host env acked_id status c).1 ->
      path.name.lease_id ≠ lease_id := by
    intro path hpath hname
    rcases mem_swept hpath with ⟨file, hfile, heq, _, hopen⟩
    rw [← heq] at hname
    rw [hskip file hfile (hfiled file hfile (Or.inl hname)).right] at hopen
    cases hopen
  constructor
  · rw [harchived.now]
    exact Nat.le_refl _
  · intro row _
    rw [harchived.leases]
    exact Iff.rfl
  · intro file hid
    constructor
    · intro hfile
      rcases harchived.origin file hfile with
        ⟨moved, hmoved, hpacket, _, hname, hsame⟩
      rw [← hpacket, ← hname] at hid
      have hold : moved ∈ c.files ∧ moved.path ∉
          (writeMatchingLeasePackets host env acked_id status c).1 := by
        rcases swept_file hmoved with
          hold | ⟨_, hswept, old, hold, hpath, hlease⟩
        · exact hold
        · rw [← hpath, ← hlease] at hid
          rw [← hpath] at hswept
          exact absurd (hfiled old hold hid).left (hpaths _ hswept)
      rcases hsame with hsame | hsame
      · rw [← hsame]
        exact hold.left
      · exact absurd hsame.left hold.right
    · intro hfile
      have hpath : file.path ∉
          (writeMatchingLeasePackets host env acked_id status c).1 :=
        fun hmem => hpaths _ hmem (hfiled file hfile hid).left
      apply harchived.stays file _ hpath
      apply List.mem_map.mpr
      refine ⟨file, hfile, if_neg ?_⟩
      intro hcontains
      exact hpath (List.contains_iff_mem.mp hcontains)

theorem update_files :
    (updateHandoffLeaseStatus env acked_id status c).2.files = c.files ∧
    (updateHandoffLeaseStatus env acked_id status c).2.now = c.now := by
  unfold updateHandoffLeaseStatus
  split
  · exact ⟨rfl, rfl⟩
  · exact ⟨rfl, rfl⟩

/-- An acknowledgement that reaches nothing of the lease, and so does not say
that it settled it. -/
theorem settle_untouched
    (hfiled : Filed lease_id c)
    (hrows : forall row, row ∈ c.leases -> row.lease_id = lease_id ->
      acked_id = lease_id -> row.settleable c.now = false)
    (hfiles : forall file, file ∈ c.files ->
      file.packet.lease_id = lease_id ->
      file.packet.open host acked_id (max c.now env.sweepAt) = false) :
    Untouched lease_id c (settleHandoff host env acked_id status c).2 ∧
    forall s updated archived,
      (settleHandoff host env acked_id status c).1 ≠
        HandoffResponse.acked lease_id s updated archived := by
  have hupdate : Untouched lease_id c
      (updateHandoffLeaseStatus env acked_id status c).2 := update_rows hrows
  have hreached : acked_id = lease_id ->
      (updateHandoffLeaseStatus env acked_id status c).1 = false := by
    intro hsame
    unfold updateHandoffLeaseStatus
    split
    · rfl
    · rw [List.any_eq_false]
      intro row hrow hboth
      rw [Bool.and_eq_true] at hboth
      have hid : row.lease_id = lease_id :=
        (of_decide_eq_true hboth.left).trans hsame
      rw [hrows row hrow hid hsame] at hboth
      exact Bool.false_ne_true hboth.right
  have hkept := @update_files env acked_id status c
  unfold settleHandoff
  dsimp only
  generalize updateHandoffLeaseStatus env acked_id status c = updated
    at hupdate hreached hkept ⊢
  have hticked : Filed lease_id (updated.2.tick env.sweepAt) := by
    intro file hfile
    exact hfiled file (by
      rw [← hkept.left]
      exact hfile)
  have hskip : forall file, file ∈ (updated.2.tick env.sweepAt).files ->
      file.packet.lease_id = lease_id ->
      file.packet.open host acked_id (updated.2.tick env.sweepAt).now =
        false := by
    intro file hfile hid
    have hnow : (updated.2.tick env.sweepAt).now = max c.now env.sweepAt := by
      show max updated.2.now env.sweepAt = _
      rw [hkept.right]
    rw [hnow]
    exact hfiles file (by
      rw [← hkept.left]
      exact hfile) hid
  have hsweep := (hupdate.trans (Untouched.tick lease_id updated.2
    env.sweepAt)).trans (@sweep_untouched _ env _ _ status _ hticked
      hskip)
  split
  · constructor
    · exact hupdate
    · intro s up archived heq
      cases heq
  · split
    · rename_i hnothing
      constructor
      · rw [Bool.and_eq_true, List.isEmpty_iff] at hnothing
        rw [hnothing.left] at hsweep
        exact hsweep
      · intro s up archived heq
        cases heq
    · rename_i hsome
      constructor
      · exact hsweep
      · intro s up archived heq
        injection heq with hid
        apply hsome
        rw [hreached hid, Bool.not_false, Bool.and_true, List.isEmpty_iff,
          List.eq_nil_iff_forall_not_mem]
        intro path hpath
        rcases mem_swept hpath with ⟨file, hfile, _, _, hopen⟩
        rw [hskip file hfile ((open_spec hopen).left.trans hid)] at hopen
        cases hopen

/-- The database fails the update and still has the row. -/
theorem settle_refused
    (hupdate : env.updateFails = true) (hstatus : env.statusFails = false)
    {row : Lease} (hrow : c.findLease acked_id = some row) :
    (settleHandoff host env acked_id status c).2 = c ∧
    forall s updated archived,
      (settleHandoff host env acked_id status c).1 ≠
        HandoffResponse.acked lease_id s updated archived := by
  unfold settleHandoff updateHandoffLeaseStatus
  rw [hupdate, if_pos rfl]
  dsimp only
  rw [hstatus, Bool.or_false, if_neg Bool.false_ne_true, hrow]
  constructor
  · rfl
  · intro s updated archived heq
    cases heq

/-- The sweep reaches every packet of an open lease. -/
theorem mem_swept_of_open
    {file : PacketFile} (hfile : file ∈ c.files)
    (hvault : file.path.vault ∈ env.known)
    (hbox : file.path.box ≠ Box.archive)
    (hopen : file.packet.open host acked_id c.now = true) :
    file.path ∈ (writeMatchingLeasePackets host env acked_id status c).1 := by
  apply List.mem_map.mpr
  refine ⟨file, List.mem_filter.mpr ⟨?_, hopen⟩, rfl⟩
  exact mem_knownFiles.mpr ⟨hfile, hvault, hbox⟩

theorem sweep_settles
    {sender recipient : String} {row : Lease -> Prop}
    (h : LeaseData sender recipient lease_id row
      (fun file => file.path ∈
        (writeMatchingLeasePackets host env lease_id status c).1) c) :
    LeaseData sender recipient lease_id row
      (fun file => file.packet.ack_status = some status)
      (archiveAll (writeMatchingLeasePackets host env lease_id status c).1
        (writeMatchingLeasePackets host env lease_id status c).2).2 := by
  have harchived := archiveAll_spec
    (writeMatchingLeasePackets host env lease_id status c).1
    (writeMatchingLeasePackets host env lease_id status c).2
  have hleases : (archiveAll
      (writeMatchingLeasePackets host env lease_id status c).1
      (writeMatchingLeasePackets host env lease_id status c).2).2.leases =
      c.leases := harchived.leases
  -- where a packet of before is after the sweep and the archive
  have hmoved : forall file, file ∈ c.files ->
      file.packet.lease_id = lease_id ->
      exists file', file' ∈ (archiveAll
        (writeMatchingLeasePackets host env lease_id status c).1
        (writeMatchingLeasePackets host env lease_id status c).2).2.files ∧
        file'.path.vault = file.path.vault ∧
        file'.packet.lease_id = lease_id ∧
        (file'.path.box = file.path.box ∨
          (file.path.box = Box.inbox ∧ file'.path.box = Box.archive)) := by
    intro file hfile hid
    have hswept : exists swept, swept ∈
        (writeMatchingLeasePackets host env lease_id status c).2.files ∧
        swept.path = file.path ∧ swept.packet.lease_id = lease_id := by
      refine ⟨_, List.mem_map.mpr ⟨file, hfile, rfl⟩, ?_, ?_⟩
      · split
        · rfl
        · rfl
      · split
        · exact hid
        · exact hid
    rcases hswept with ⟨swept, hswept, hpath, hlease⟩
    rcases harchived.image swept hswept with
      ⟨file', hfile', hpacket, hvault, _, hsame⟩
    refine ⟨file', hfile', ?_, ?_, ?_⟩
    · rw [← hvault, hpath]
    · rw [← hpacket]
      exact hlease
    · rcases hsame with hsame | hsame
      · rw [← hsame, hpath]
        exact Or.inl rfl
      · rw [← hpath]
        exact Or.inr hsame.right
  constructor
  · rw [hleases]
    exact h.found
  · rw [hleases]
    exact h.rows
  · rcases h.outbox with ⟨file, hfile, hvault, hbox, hid⟩
    rcases hmoved file hfile hid with ⟨file', hfile', hvault', hid', hbox'⟩
    refine ⟨file', hfile', hvault'.trans hvault, ?_, hid'⟩
    rcases hbox' with hbox' | hbox'
    · exact hbox'.trans hbox
    · rw [hbox] at hbox'
      cases hbox'.left
  · rcases h.inbox with ⟨file, hfile, hvault, hbox, hid⟩
    rcases hmoved file hfile hid with ⟨file', hfile', hvault', hid', hbox'⟩
    refine ⟨file', hfile', hvault'.trans hvault, ?_, hid'⟩
    rcases hbox' with hbox' | hbox'
    · rw [hbox']
      exact hbox
    · rw [hbox'.right]
      intro heq
      cases heq
  · intro file hfile hid
    rcases harchived.origin file hfile with
      ⟨swept, hswept, hpacket, _, hname, _⟩
    rw [← hpacket, ← hname] at hid ⊢
    rcases swept_file hswept with
      ⟨hold, hnot⟩ | ⟨hacked, _, old, hold, hpath, hlease⟩
    · exact absurd (h.files swept hold hid).right hnot
    · rw [← hpath, ← hlease] at hid ⊢
      exact ⟨(h.files old hold hid).left, hacked⟩

theorem update_settles
    {sender recipient : String} {file : PacketFile -> Prop}
    (hupdate : env.updateFails = false)
    (h : LeaseData sender recipient lease_id
      (fun row => row.status = LeaseStatus.pending ∧
        unexpired row.expires_at c.now = true) file c) :
    (updateHandoffLeaseStatus env lease_id status c).1 = true ∧
    LeaseData sender recipient lease_id
      (fun row => row.status = LeaseStatus.acked status) file
      (updateHandoffLeaseStatus env lease_id status c).2 := by
  have hreached : forall row, row ∈ c.leases -> row.lease_id = lease_id ->
      (row.lease_id = lease_id && row.settleable c.now) = true := by
    intro row hrow hid
    have hopen := h.rows row hrow hid
    unfold Lease.settleable
    simp [hid, hopen.left, hopen.right]
  unfold updateHandoffLeaseStatus
  rw [hupdate, if_neg Bool.false_ne_true]
  rcases h.found with ⟨found, hfound, hfound_id⟩
  constructor
  · dsimp only
    rw [List.any_eq_true]
    exact ⟨found, hfound, hreached found hfound hfound_id⟩
  · constructor
    · refine ⟨_, List.mem_map.mpr ⟨found, hfound, rfl⟩, ?_⟩
      rw [if_pos (hreached found hfound hfound_id)]
      exact hfound_id
    · intro row hrow hid
      rcases List.mem_map.mp hrow with ⟨old, hold, heq⟩
      have hold_id : old.lease_id = lease_id := by
        rw [← heq] at hid
        split at hid
        · exact hid
        · exact hid
      rw [if_pos (hreached old hold hold_id)] at heq
      rw [← heq]
      have hpending := (h.rows old hold hold_id).left
      unfold Lease.settle
      rw [hpending]
      rfl
    · exact h.outbox
    · exact h.inbox
    · exact h.files

theorem settle_settles
    {sender recipient : String} {expires_at : Option Nat}
    (h : OpenLease host sender recipient lease_id expires_at c)
    (hupdate : env.updateFails = false)
    (hsender : sender ∈ env.known) (hrecipient : recipient ∈ env.known)
    (hunexpired : unexpired expires_at (max c.now env.sweepAt) = true) :
    SettledLease sender recipient lease_id status
      (settleHandoff host env lease_id status c).2 ∧
    exists updated archived,
      (settleHandoff host env lease_id status c).1 =
        HandoffResponse.acked lease_id status updated archived := by
  have hkept := @update_files env lease_id status c
  have hstart : LeaseData sender recipient lease_id
      (fun row => row.status = LeaseStatus.pending ∧
        unexpired row.expires_at c.now = true) _ c :=
    { h with
      rows := by
        intro row hrow hid
        have hrow' := h.rows row hrow hid
        refine ⟨hrow'.left, ?_⟩
        rw [hrow'.right]
        exact unexpired_mono (Nat.le_max_left _ _) hunexpired }
  rcases @update_settles _ _ status _ _ _ _ hupdate hstart with
    ⟨hreached, hupdated⟩
  unfold settleHandoff
  dsimp only
  rw [hreached, Bool.true_or, if_pos rfl]
  dsimp only
  rw [Bool.not_true, Bool.and_false, if_neg Bool.false_ne_true]
  refine ⟨?_, _, _, rfl⟩
  generalize updateHandoffLeaseStatus env lease_id status c = updated
    at hupdated hkept ⊢
  apply sweep_settles
  refine { hupdated with files := ?_ }
  intro file hfile hid
  rcases hupdated.files file hfile hid with
    ⟨hlease, hvault, hbox, hacked, hexpires⟩
  refine ⟨hlease, mem_swept_of_open hfile ?_ hbox ?_⟩
  · rcases hvault with hvault | hvault
    · rw [hvault]
      exact hsender
    · rw [hvault]
      exact hrecipient
  · have hnow : (updated.2.tick env.sweepAt).now = max c.now env.sweepAt := by
      show max updated.2.now env.sweepAt = _
      rw [hkept.right]
    unfold Packet.open
    rw [hnow, hexpires, hunexpired, hacked]
    simp [hlease.right]

end Acking

/-!
## One call on either phase
-/

section Phases

variable {host : HandoffHost} {sender recipient lease_id : String}
variable {expires_at : Option Nat} {status : String} {c : Channels}

/-- An acknowledgement is refused before it writes, or it is the two writes
with a status that is not blank. -/
theorem ack_settles_or_not
    (host : HandoffHost) (env : AckEnv) (caller : HandoffCaller)
    (params : AckParams) (c : Channels) :
    ((handleAckHandoff host env caller params c).2 = c ∧
      forall acked_id s updated archived,
        (handleAckHandoff host env caller params c).1 ≠
          HandoffResponse.acked acked_id s updated archived) ∨
    (PyText.strip params.status ≠ "" ∧
      handleAckHandoff host env caller params c =
        settleHandoff host env (PyText.strip params.lease_id)
          (PyText.strip params.status) c) := by
  unfold handleAckHandoff
  dsimp only
  split
  · exact Or.inl ⟨rfl, fun _ _ _ _ heq => by cases heq⟩
  · split
    · exact Or.inl ⟨rfl, fun _ _ _ _ heq => by cases heq⟩
    · rename_i hstatus
      have hnonempty : PyText.strip params.status ≠ "" := by
        intro hempty
        rw [hempty] at hstatus
        exact hstatus (by decide)
      split
      · exact Or.inl ⟨rfl, fun _ _ _ _ heq => by cases heq⟩
      · split
        · exact Or.inl ⟨rfl, fun _ _ _ _ heq => by cases heq⟩
        · split
          · exact Or.inl ⟨rfl, fun _ _ _ _ heq => by cases heq⟩
          · exact Or.inr ⟨hnonempty, rfl⟩

theorem reports_none
    {env : AckEnv} {caller : HandoffCaller} {params : AckParams}
    (h : forall s updated archived,
      (handleAckHandoff host env caller params c).1 ≠
        HandoffResponse.acked lease_id s updated archived) :
    (HandoffEvent.ack env caller params).reports host lease_id c = none := by
  show (handleAckHandoff host env caller params c).1.ackedStatus lease_id = none
  unfold HandoffResponse.ackedStatus
  split
  · rename_i acked_id s updated archived heq
    split
    · rename_i hid
      rw [hid] at heq
      exact absurd heq (h s updated archived)
    · rfl
  · rfl

theorem open_ack
    (h : OpenLease host sender recipient lease_id expires_at c)
    {env : AckEnv} {caller : HandoffCaller} {params : AckParams}
    (horderly : (HandoffEvent.ack env caller params).Orderly sender recipient
      lease_id c) :
    (OpenLease host sender recipient lease_id expires_at
        (handleAckHandoff host env caller params c).2 ∧
      (HandoffEvent.ack env caller params).reports host lease_id c = none) ∨
    exists s, s ≠ "" ∧ SettledLease sender recipient lease_id s
        (handleAckHandoff host env caller params c).2 ∧
      (HandoffEvent.ack env caller params).reports host lease_id c =
        some s := by
  rcases ack_settles_or_not host env caller params c with
    ⟨hsame, hnot⟩ | ⟨hstatus, hsettle⟩
  · apply Or.inl
    rw [hsame]
    exact ⟨h, reports_none (hnot lease_id)⟩
  · by_cases hid : PyText.strip params.lease_id = lease_id
    · rcases horderly hid with ⟨hsender, hrecipient, hrow⟩
      rcases h.found with ⟨row, hmem, hrow_id⟩
      have hopen := h.rows row hmem hrow_id
      rw [hid] at hsettle
      by_cases hunexpired : unexpired expires_at c.now = true
      · have hsettleable : row.settleable c.now = true := by
          unfold Lease.settleable
          rw [hopen.left, hopen.right, hunexpired]
          rfl
        rcases hrow row hmem hrow_id hsettleable with ⟨hfails, hswept⟩
        rw [hopen.right] at hswept
        cases hupdate : env.updateFails with
        | false =>
            apply Or.inr
            rcases @settle_settles _ _ _ (PyText.strip params.status) _ _ _ _ h
              hupdate hsender hrecipient hswept with
              ⟨hsettled, updated, archived, hresponse⟩
            refine ⟨_, hstatus, ?_, ?_⟩
            · rw [hsettle]
              exact hsettled
            · show (handleAckHandoff host env caller params c).1.ackedStatus
                lease_id = _
              rw [hsettle, hresponse]
              exact if_pos rfl
        | true =>
            apply Or.inl
            have hfound : exists found, c.findLease lease_id = some found := by
              rw [← Option.isSome_iff_exists]
              unfold Channels.findLease
              rw [List.find?_isSome]
              exact ⟨row, hmem, by simpa using hrow_id⟩
            rcases hfound with ⟨found, hfound⟩
            rcases @settle_refused host _ lease_id _
              (PyText.strip params.status) _ hupdate (hfails hupdate)
              _ hfound with ⟨hsame, hnot⟩
            rw [← hsettle] at hsame hnot
            rw [hsame]
            exact ⟨h, reports_none hnot⟩
      · apply Or.inl
        have huntouched := @settle_untouched host env _ lease_id
          (PyText.strip params.status) _
          h.filed
          (by
            intro other hother hother_id _
            have hother_open := h.rows other hother hother_id
            unfold Lease.settleable
            rw [hother_open.right, Bool.eq_false_iff.mpr hunexpired,
              Bool.and_false])
          (by
            intro file hfile hfile_id
            have hfile_open := (h.files file hfile (Or.inr hfile_id)).right
            have hlater : unexpired expires_at (max c.now env.sweepAt) =
                false := by
              rw [Bool.eq_false_iff]
              intro hlater
              exact hunexpired (unexpired_mono (Nat.le_max_left _ _) hlater)
            unfold Packet.open
            rw [hfile_open.right.right.right, hlater, Bool.and_false])
        rw [← hsettle] at huntouched
        exact ⟨h.untouched huntouched.left, reports_none huntouched.right⟩
    · apply Or.inl
      have huntouched := @settle_untouched host env _
        (PyText.strip params.lease_id) (PyText.strip params.status) _ h.filed
        (fun _ _ _ hsame => absurd hsame hid)
        (by
          intro file _ hfile_id
          unfold Packet.open
          rw [decide_eq_false (by
            rw [hfile_id]
            exact fun heq => hid heq.symm)]
          rfl)
      rw [← hsettle] at huntouched
      exact ⟨h.untouched huntouched.left, reports_none huntouched.right⟩

theorem settled_ack
    (h : SettledLease sender recipient lease_id status c)
    (hstatus : status ≠ "")
    (env : AckEnv) (caller : HandoffCaller) (params : AckParams) :
    SettledLease sender recipient lease_id status
        (handleAckHandoff host env caller params c).2 ∧
      (HandoffEvent.ack env caller params).reports host lease_id c =
        none := by
  rcases ack_settles_or_not host env caller params c with
    ⟨hsame, hnot⟩ | ⟨_, hsettle⟩
  · rw [hsame]
    exact ⟨h, reports_none (hnot lease_id)⟩
  · have huntouched := @settle_untouched host env _
      (PyText.strip params.lease_id) (PyText.strip params.status) _ h.filed
      (by
        intro row hrow hid _
        unfold Lease.settleable
        rw [h.rows row hrow hid]
        rfl)
      (by
        intro file hfile hid
        have hacked : file.packet.acked = true := by
          unfold Packet.acked
          rw [(h.files file hfile (Or.inr hid)).right]
          simpa using hstatus
        unfold Packet.open
        rw [hacked, Bool.not_true, Bool.and_false, Bool.false_and])
    rw [← hsettle] at huntouched
    exact ⟨h.untouched huntouched.left, reports_none huntouched.right⟩

theorem open_poll
    (h : OpenLease host sender recipient lease_id expires_at c)
    (env : PollEnv) : pollHandoff env lease_id c = none := by
  have hfiles : fileAck (c.knownFiles env.known) lease_id = none := by
    unfold fileAck
    cases hfind : (c.knownFiles env.known).find? fun file =>
        file.packet.lease_id = lease_id && file.packet.acked with
    | none =>
        rfl
    | some file =>
        have hmem := mem_knownFiles.mp (List.mem_of_find?_eq_some hfind)
        have hboth := List.find?_some hfind
        rw [Bool.and_eq_true] at hboth
        have hid : file.packet.lease_id = lease_id :=
          of_decide_eq_true hboth.left
        have hopen := (h.files file hmem.left (Or.inr hid)).right.right.right
        rw [hopen.left] at hboth
        exact absurd hboth.right Bool.false_ne_true
  unfold pollHandoff
  dsimp only
  split
  · rename_i row hrow
    split at hrow
    · cases hrow
    · rcases findLease_spec hrow with ⟨hmem, hid⟩
      rw [if_pos (h.rows row hmem hid).left]
      exact hfiles
  · exact hfiles

theorem settled_poll
    (h : SettledLease sender recipient lease_id status c)
    (hstatus : status ≠ "") {env : PollEnv} (hknown : sender ∈ env.known) :
    pollHandoff env lease_id c = some status := by
  have hacked : forall file, file ∈ c.files ->
      file.packet.lease_id = lease_id ->
      file.packet.ack_status = some status ∧ file.packet.acked = true := by
    intro file hfile hid
    have hfile_status := (h.files file hfile (Or.inr hid)).right
    refine ⟨hfile_status, ?_⟩
    unfold Packet.acked
    rw [hfile_status]
    simpa using hstatus
  have hfiles : fileAck (c.knownFiles env.known) lease_id = some status := by
    rcases h.outbox with ⟨outbox, houtbox, hvault, hbox, hid⟩
    have hmem : outbox ∈ c.knownFiles env.known := by
      apply mem_knownFiles.mpr
      refine ⟨houtbox, ?_, ?_⟩
      · rw [hvault]
        exact hknown
      · rw [hbox]
        intro heq
        cases heq
    unfold fileAck
    cases hfind : (c.knownFiles env.known).find? fun file =>
        file.packet.lease_id = lease_id && file.packet.acked with
    | none =>
        have hnone := List.find?_eq_none.mp hfind outbox hmem
        simp [hid, (hacked outbox houtbox hid).right] at hnone
    | some file =>
        have hfile := mem_knownFiles.mp (List.mem_of_find?_eq_some hfind)
        have hboth := List.find?_some hfind
        rw [Bool.and_eq_true] at hboth
        exact (hacked file hfile.left (of_decide_eq_true hboth.left)).left
  unfold pollHandoff
  dsimp only
  split
  · rename_i row hrow
    split at hrow
    · cases hrow
    · rcases findLease_spec hrow with ⟨hmem, hid⟩
      rw [h.rows row hmem hid, if_neg (by simp)]
      rfl
  · exact hfiles

/-- A call that is no acknowledgement leaves the lease alone. -/
theorem other_untouched
    (hfiled : Filed lease_id c) {event : HandoffEvent}
    (hsends : ¬ event.Resends host lease_id)
    (hack : forall env caller params,
      event ≠ HandoffEvent.ack env caller params) :
    Untouched lease_id c (event.after host c) := by
  cases event with
  | send env caller params =>
      show Untouched lease_id c (handleDaemonHandoff host env caller params c).2
      unfold handleDaemonHandoff
      cases hprepared : prepareHandoff host env caller params with
      | error response =>
          exact Untouched.refl lease_id c
      | ok prepared =>
          rcases prepared with ⟨from_vault, to_vault, packet⟩
          apply deliver_untouched hfiled
          intro hid
          exact hsends ⟨from_vault, to_vault, packet, hprepared, hid⟩
  | ack env caller params =>
      exact absurd rfl (hack env caller params)
  | list env caller =>
      exact Untouched.tick lease_id c env.filesAt
  | poll env polled =>
      exact Untouched.refl lease_id c
  | tick now =>
      exact Untouched.tick lease_id c now

theorem open_step
    (h : OpenLease host sender recipient lease_id expires_at c)
    {event : HandoffEvent} (hsends : ¬ event.Resends host lease_id)
    (horderly : event.Orderly sender recipient lease_id c) :
    (OpenLease host sender recipient lease_id expires_at
        (event.after host c) ∧ event.reports host lease_id c = none) ∨
    exists s, s ≠ "" ∧ SettledLease sender recipient lease_id s
        (event.after host c) ∧ event.reports host lease_id c = some s := by
  cases event with
  | ack env caller params =>
      exact open_ack h horderly
  | poll env polled =>
      apply Or.inl
      constructor
      · exact h.untouched (other_untouched h.filed hsends (by
          intro _ _ _ heq
          cases heq))
      · show (if polled = lease_id then pollHandoff env polled c else none) = _
        split
        · rename_i hpolled
          rw [hpolled]
          exact open_poll h env
        · rfl
  | send env caller params =>
      exact Or.inl ⟨h.untouched (other_untouched h.filed hsends (by
        intro _ _ _ heq
        cases heq)), rfl⟩
  | list env caller =>
      exact Or.inl ⟨h.untouched (Untouched.tick lease_id c env.filesAt), rfl⟩
  | tick now =>
      exact Or.inl ⟨h.untouched (Untouched.tick lease_id c now), rfl⟩

theorem settled_step
    (h : SettledLease sender recipient lease_id status c)
    (hstatus : status ≠ "") {event : HandoffEvent}
    (hsends : ¬ event.Resends host lease_id)
    (horderly : event.Orderly sender recipient lease_id c) :
    SettledLease sender recipient lease_id status (event.after host c) ∧
    forall s, event.reports host lease_id c = some s -> s = status := by
  cases event with
  | ack env caller params =>
      rcases @settled_ack host _ _ _ _ _ h hstatus env caller params with
        ⟨hsettled, hreports⟩
      refine ⟨hsettled, ?_⟩
      intro s hs
      rw [hreports] at hs
      cases hs
  | poll env polled =>
      constructor
      · exact h.untouched (other_untouched h.filed hsends (by
          intro _ _ _ heq
          cases heq))
      · intro s hs
        have hpoll : (if polled = lease_id then pollHandoff env polled c
            else none) = some s := hs
        split at hpoll
        · rename_i hpolled
          rw [hpolled, settled_poll h hstatus (horderly hpolled)] at hpoll
          exact (Option.some.inj hpoll).symm
        · cases hpoll
  | send env caller params =>
      refine ⟨h.untouched (other_untouched h.filed hsends (by
        intro _ _ _ heq
        cases heq)), ?_⟩
      intro s hs
      cases hs
  | list env caller =>
      refine ⟨h.untouched (Untouched.tick lease_id c env.filesAt), ?_⟩
      intro s hs
      cases hs
  | tick now =>
      refine ⟨h.untouched (Untouched.tick lease_id c now), ?_⟩
      intro s hs
      cases hs

theorem foldl_putPending_mem
    (rows merged : List Pending) {entry : Pending}
    (h : entry ∈ rows.foldl putPending merged) :
    entry ∈ merged ∨ entry ∈ rows := by
  induction rows generalizing merged with
  | nil =>
      exact Or.inl h
  | cons row rest ih =>
      rcases ih (putPending merged row) h with hput | hrest
      · unfold putPending at hput
        split at hput
        · rcases List.mem_map.mp hput with ⟨old, hold, heq⟩
          split at heq
          · rw [← heq]
            exact Or.inr (List.mem_cons_self ..)
          · rw [← heq]
            exact Or.inl hold
        · rcases List.mem_append.mp hput with hold | hnew
          · exact Or.inl hold
          · rw [List.mem_singleton.mp hnew]
            exact Or.inr (List.mem_cons_self ..)
      · exact Or.inr (List.mem_cons_of_mem _ hrest)

theorem foldl_fillPending_mem
    {known : List String} (files merged : List Pending) {entry : Pending}
    (h : entry ∈ files.foldl (fillPending known) merged) :
    entry ∈ merged ∨ entry ∈ files := by
  induction files generalizing merged with
  | nil =>
      exact Or.inl h
  | cons file rest ih =>
      rcases ih (fillPending known merged file) h with hfill | hrest
      · unfold fillPending at hfill
        split at hfill
        · exact Or.inl hfill
        · rcases List.mem_append.mp hfill with hold | hnew
          · exact Or.inl hold
          · rw [List.mem_singleton.mp hnew]
            exact Or.inr (List.mem_cons_self ..)
      · exact Or.inr (List.mem_cons_of_mem _ hrest)

/-- Whatever fails, a list has rows and packets that are pending. -/
theorem mem_list
    {env : ListEnv} {caller : HandoffCaller} {agent_id : String}
    {handoffs : List Pending} {entry : Pending}
    (hlist : handleListPendingHandoffs host env caller c =
      HandoffResponse.pending agent_id handoffs)
    (hentry : entry ∈ handoffs) :
    (exists row, row ∈ c.leases ∧ row.lease_id = entry.lease_id ∧
      row.status = LeaseStatus.pending) ∨
    exists file, file ∈ c.files ∧ file.packet.lease_id = entry.lease_id ∧
      file.packet.acked = false := by
  unfold handleListPendingHandoffs at hlist
  cases caller with
  | error refusal =>
      cases hlist
  | ok p =>
      dsimp only at hlist
      split at hlist
      · cases hlist
      · generalize (if env.knownFails then [] else
          knownLeaseIds p.agent_id c) = known at hlist
        generalize hrows : (if env.rowsFail then [] else
          pendingHandoffLeases p.agent_id c) = rows at hlist
        split at hlist
        · cases hlist
        · injection hlist with _ hhandoffs
          rw [← hhandoffs] at hentry
          unfold mergePending at hentry
          rcases foldl_fillPending_mem _ _ hentry with hmerged | hfile
          · rcases foldl_putPending_mem _ _ hmerged with hnone | hrow
            · cases hnone
            · rw [← hrows] at hrow
              split at hrow
              · cases hrow
              · rcases mem_pendingHandoffLeases.mp hrow with
                  ⟨row, hmem, _, hlive, heq⟩
                unfold Lease.live at hlive
                rw [Bool.and_eq_true] at hlive
                rw [← heq]
                exact Or.inl ⟨row, hmem, rfl, of_decide_eq_true hlive.left⟩
          · unfold filePending at hfile
            rcases List.mem_map.mp hfile with ⟨file, hmem, heq⟩
            rw [List.mem_filter] at hmem
            have hpending := hmem.right
            unfold Packet.pendingFor at hpending
            rw [Bool.and_eq_true, Bool.and_eq_true] at hpending
            rw [← heq]
            exact Or.inr ⟨file, (mem_vaultFiles.mp hmem.left).left, rfl,
              by simpa using hpending.left.right⟩

theorem SettledLease.settledAs
    (h : SettledLease sender recipient lease_id status c)
    (hstatus : status ≠ "") :
    SettledAs host sender recipient lease_id status c where
  row := h.found
  rows := h.rows
  outbox := h.outbox
  inbox := h.inbox
  packets := fun file hfile hid => (h.files file hfile (Or.inr hid)).right
  unlisted := by
    intro env caller agent_id handoffs hlist entry hentry hid
    rcases mem_list hlist hentry with
      ⟨row, hrow, hrow_id, hpending⟩ | ⟨file, hfile, hfile_id, hunacked⟩
    · rw [h.rows row hrow (hrow_id.trans hid)] at hpending
      cases hpending
    · have hacked := (h.files file hfile (Or.inr (hfile_id.trans hid))).right
      unfold Packet.acked at hunacked
      rw [hacked] at hunacked
      exact hstatus (by simpa using hunacked)

end Phases

/-!
## Runs
-/

section Runs

variable {host : HandoffHost} {sender recipient : String} {packet : Packet}

theorem delivered_open
    {c : Channels} (hrequires : packet.requires_ack = true)
    (hunacked : packet.acked = false)
    (h : JustDelivered host sender recipient packet c) :
    OpenLease host sender recipient packet.lease_id
      (host.parse_iso_ts packet.expires_at) c := by
  rcases h.exists_before with
    ⟨before, env, caller, params, hprepared, hhealthy, hrows, hfiles, heq⟩
  have hafter : c = (deliver host env sender recipient packet before).2 := by
    rw [heq]
    unfold handleDaemonHandoff
    rw [hprepared]
  rcases @deliver_leases before packet host _ sender recipient hhealthy with
    ⟨new, hid, _, _, hstatus, hexpires, hleases⟩
  rw [hafter]
  constructor
  · rw [hleases]
    exact ⟨new, mem_storeLease.mpr (Or.inr rfl), hid⟩
  · intro row hrow hrow_id
    rw [hleases] at hrow
    rcases mem_storeLease.mp hrow with hold | hnew
    · exact absurd hrow_id (hrows row hold.left)
    · rw [hnew, hstatus, hrequires]
      exact ⟨rfl, hexpires⟩
  · exact ⟨_, mem_deliver_files.mpr (Or.inr (Or.inl rfl)), rfl, rfl, rfl⟩
  · refine ⟨_, mem_deliver_files.mpr (Or.inr (Or.inr rfl)), rfl, ?_, rfl⟩
    intro hbox
    cases hbox
  · intro file hfile hfile_id
    rcases mem_deliver_files.mp hfile with hold | hnew | hnew
    · rcases hfiles file hold.left with ⟨hpacket, hname⟩
      rcases hfile_id with hfile_id | hfile_id
      · exact absurd hfile_id hname
      · exact absurd hfile_id hpacket
    · rw [hnew]
      refine ⟨⟨rfl, rfl⟩, Or.inl rfl, ?_, hunacked, rfl⟩
      intro hbox
      cases hbox
    · rw [hnew]
      refine ⟨⟨rfl, rfl⟩, Or.inr rfl, ?_, hunacked, rfl⟩
      intro hbox
      cases hbox

theorem settled_run
    {status : String} (hstatus : status ≠ "") {c c' : Channels}
    {events : List HandoffEvent}
    (hrun : TransitionSystem.Run (orderlySystem host sender recipient packet) c
      events c')
    (h : SettledLease sender recipient packet.lease_id status c) :
    SettledLease sender recipient packet.lease_id status c' := by
  apply TransitionSystem.run_preserves _ hrun h
  intro s event s' hs hstep
  rcases hstep with ⟨horderly, hsends, heq⟩
  rw [heq]
  exact (settled_step hs hstatus hsends horderly).left

theorem reachable_phase
    (hrequires : packet.requires_ack = true)
    (hunacked : packet.acked = false) {c : Channels}
    (hreach : TransitionSystem.Reachable
      (orderlySystem host sender recipient packet) c) :
    OpenLease host sender recipient packet.lease_id
        (host.parse_iso_ts packet.expires_at) c ∨
    exists status, status ≠ "" ∧
      SettledLease sender recipient packet.lease_id status c := by
  apply TransitionSystem.reachable_induction _ _ hreach
  · intro s hs
    exact Or.inl (delivered_open hrequires hunacked hs)
  · intro s event s' _ hphase hstep
    rcases hstep with ⟨horderly, hsends, heq⟩
    rw [heq]
    rcases hphase with hopen | ⟨status, hstatus, hsettled⟩
    · rcases open_step hopen hsends horderly with
        hstill | ⟨status, hstatus, hsettled, _⟩
      · exact Or.inl hstill.left
      · exact Or.inr ⟨status, hstatus, hsettled⟩
    · exact Or.inr ⟨status, hstatus,
        (settled_step hsettled hstatus hsends horderly).left⟩

/-- Whatever a call reports, the lease is settled so. -/
theorem reported_settled
    (hrequires : packet.requires_ack = true)
    (hunacked : packet.acked = false) {c mid : Channels}
    (hreach : TransitionSystem.Reachable
      (orderlySystem host sender recipient packet) c)
    {event : HandoffEvent} {status : String}
    (hstep : (orderlySystem host sender recipient packet).step c event mid)
    (hreports : event.reports host packet.lease_id c = some status) :
    status ≠ "" ∧ SettledLease sender recipient packet.lease_id status mid := by
  rcases hstep with ⟨horderly, hsends, heq⟩
  rw [heq]
  rcases reachable_phase hrequires hunacked hreach with
    hopen | ⟨other, hother, hsettled⟩
  · rcases open_step hopen hsends horderly with
      hstill | ⟨s, hs, hsettled, hreports'⟩
    · rw [hstill.right] at hreports
      cases hreports
    · rw [hreports'] at hreports
      rw [← Option.some.inj hreports]
      exact ⟨hs, hsettled⟩
  · rcases settled_step hsettled hother hsends horderly with ⟨hafter, hsame⟩
    rw [hsame status hreports]
    exact ⟨hother, hafter⟩

theorem takesEffect_settled
    (hrequires : packet.requires_ack = true)
    (hunacked : packet.acked = false) {c : Channels}
    (hreach : TransitionSystem.Reachable
      (orderlySystem host sender recipient packet) c)
    {status : String} (h : TakesEffect packet.lease_id status c) :
    SettledLease sender recipient packet.lease_id status c := by
  rcases h with ⟨hstatus, heffect⟩
  rcases reachable_phase hrequires hunacked hreach with
    hopen | ⟨other, hother, hsettled⟩
  · rcases heffect with ⟨row, hrow, hid, hacked⟩ | ⟨file, hfile, hid, hacked⟩
    · rw [(hopen.rows row hrow hid).left] at hacked
      cases hacked
    · have hunacked' :=
        (hopen.files file hfile (Or.inr hid)).right.right.right.left
      unfold Packet.acked at hunacked'
      rw [hacked] at hunacked'
      exact absurd (by simpa using hunacked') hstatus
  · rcases heffect with ⟨row, hrow, hid, hacked⟩ | ⟨file, hfile, hid, hacked⟩
    · rw [hsettled.rows row hrow hid] at hacked
      injection hacked with hsame
      rw [← hsame]
      exact hsettled
    · rw [(hsettled.files file hfile (Or.inr hid)).right] at hacked
      rw [← Option.some.inj hacked]
      exact hsettled

end Runs

/-!
## Where the two writes part

Bob accepts while the database is down: the packets are settled, an await on
them reports it, and the row is still pending.  Once the database is back, the
row takes a second status.  With no failure at all, the clock can pass the
expiry between the update of the row and the sweep.
-/

def annPacket : Packet where
  from_agent := "ann"
  to_agent := "bob"
  kind := "request"
  task := "review"
  envelope := "please"
  wikilink_refs := []
  trace_id := "trace"
  created_at := "now"
  lease_id := "lease-1"
  requires_ack := true
  expires_at := "later"
  ack_status := none
  acked_at := none

def afterAnn : Channels := annToBob.after plainHandoffHost Channels.empty

theorem afterAnn_delivered :
    JustDelivered plainHandoffHost "/vaults/ann" "/vaults/bob" annPacket
      afterAnn where
  exists_before := by
    refine ⟨Channels.empty, plainSendEnv, Except.ok (plainAgent "ann"),
      underLeaseParams "ann" "bob", by decide +kernel, rfl, ?_, ?_, rfl⟩
    · intro row hrow
      cases hrow
    · intro file hfile
      cases hfile

def bobAcks (status : String) (databaseDown : Bool) (sweepAt : Nat) :
    HandoffEvent :=
  HandoffEvent.ack
    { known := ["/vaults/ann", "/vaults/bob"]
      readFails := false
      updateFails := databaseDown
      statusFails := databaseDown
      sweepAt := sweepAt
      acked_at := "then" }
    (Except.ok (plainAgent "bob"))
    { lease_id := "lease-1"
      status := status }

end Daemon
end Minni
