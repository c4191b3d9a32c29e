import Minni.Foundation.TransitionSystem
import Minni.Daemon.VectorIndexLaw

/-!
# Runs of the vector index

The index is built, changed, staged, saved and restored in any order.  As long
as no step brings an old entry back, every search serves the live set.
-/

namespace Minni
namespace Daemon

open Foundation

section Runs

variable {vec score : Type} [LinearOrder score]

/-!
## Events
-/

/-- What was asked of the index, whether or not it was cold. -/
inductive Change (vec : Type) where
  | put (pair : Nat × vec)
  | erase (chunk_id : Nat)
  | build (pairs : List (Nat × vec))

def LiveSet.change (live : LiveSet vec) : Change vec -> LiveSet vec
  | Change.put pair => live.put pair
  | Change.erase chunk_id => live.erase chunk_id
  | Change.build pairs => pairs

def LiveSet.changed (live : LiveSet vec) (changes : List (Change vec)) :
    LiveSet vec :=
  changes.foldl LiveSet.change live

structure StagedBuild (vec : Type) where
  pairs : List (Nat × vec)
  generation : Nat
  mark : Nat

structure DiskCopy (vec : Type) where
  saved : SavedIndex vec
  live : LiveSet vec
  mark : Nat

/-- The index with the live set that it should serve.  What is staged or saved
has the length of the log at that time. -/
structure Served (vec : Type) where
  st : FaissState vec
  live : LiveSet vec
  log : List (Change vec)
  staged : List (StagedBuild vec)
  disk : Option (DiskCopy vec)

def Served.empty : Served vec where
  st := FaissState.empty
  live := []
  log := []
  staged := []
  disk := none

/-- The live set of a snapshot: its own, with what was asked for since. -/
def Served.since (s : Served vec) (mark : Nat) (live : LiveSet vec) :
    LiveSet vec :=
  live.changed (s.log.drop mark)

inductive IndexEvent (vec : Type) where
  | build (pairs : List (Nat × vec))
  | stage (pairs : List (Nat × vec))
  | commit (i : Nat)
  | add (chunk_id : Nat) (v : vec)
  | addBatch (pairs : List (Nat × vec))
  | remove (chunk_id : Nat)
  | removeBatch (chunk_ids : List Nat)
  | rebuild
  | invalidate
  | save (checksum : String) (written : Bool)
  | load (checksum : String)

/-- The state after changes; a cold or invalidated index refuses them. -/
def Served.ask (s : Served vec) (changes : List (Change vec))
    (accepted : Bool) (st : FaissState vec) : Served vec :=
  if accepted then
    { s with
      st := st
      live := s.live.changed changes
      log := s.log ++ changes }
  else { s with log := s.log ++ changes }

namespace IndexEvent

variable (host : IndexHost vec score)

def commitOf (s : Served vec) (staged : StagedBuild vec) : Served vec :=
  let committed := commitStaged host staged.pairs staged.generation s.st
  if committed.1 then
    s.ask [Change.build (s.since staged.mark staged.pairs)] true committed.2
  else s

def loadOf (s : Served vec) (checksum : String) (copy : DiskCopy vec) :
    Served vec :=
  let loaded := tryLoadFromDisk host (some copy.saved) checksum s.st
  if loaded.1 then
    s.ask [Change.build (s.since copy.mark copy.live)] true loaded.2
  else s

def after (s : Served vec) : IndexEvent vec -> Served vec
  | build pairs =>
      if pairs.isEmpty then s
      else s.ask [Change.build pairs] true (buildFromVectors host pairs s.st)
  | stage pairs =>
      { s with
        staged := s.staged ++
          [{ pairs := pairs
             generation := s.st.generation
             mark := s.log.length }] }
  | commit i =>
      match s.staged[i]? with
      | none => s
      | some staged => commitOf host s staged
  | add chunk_id v =>
      s.ask [Change.put (chunk_id, v)] (!s.st.invalidated)
        (addVector host chunk_id v s.st)
  | addBatch pairs =>
      let added := Daemon.addBatch host pairs s.st
      s.ask (pairs.map Change.put) added.1 added.2
  | remove chunk_id =>
      s.ask [Change.erase chunk_id] true (removeVector chunk_id s.st)
  | removeBatch chunk_ids =>
      let removed := Daemon.removeBatch chunk_ids s.st
      s.ask (chunk_ids.map Change.erase) removed.1 removed.2
  | rebuild => { s with st := Daemon.rebuild host s.st }
  | invalidate => { s with st := Daemon.invalidate s.st, live := [] }
  | save checksum written =>
      match savedIndex checksum s.st with
      | none => s
      | some saved =>
          if written then
            { s with
              disk := some
                { saved := saved
                  live := s.live
                  mark := s.log.length } }
          else s
  | load checksum =>
      match s.disk with
      | none => s
      | some copy => loadOf host s checksum copy

/-- The event gives the index an entry of the id, now or when it is
committed. -/
def adds (chunk_id : Nat) : IndexEvent vec -> Prop
  | build pairs => chunk_id ∈ LiveSet.ids pairs
  | stage pairs => chunk_id ∈ LiveSet.ids pairs
  | add added _ => chunk_id = added
  | addBatch pairs => chunk_id ∈ LiveSet.ids pairs
  | _ => False

/-!
## The guard
-/

/-- The same ids, with vectors of the same direction. -/
structure Agrees (metric : Metric vec score) (live served : LiveSet vec) :
    Prop where
  ids : forall chunk_id, chunk_id ∈ live.ids <-> chunk_id ∈ served.ids
  vectors : forall pair, pair ∈ live -> exists v, (pair.1, v) ∈ served ∧
    metric.normalize v = metric.normalize pair.2

/-- Each id of the batch is live with a vector of that direction, or adds
well. -/
def BatchWell : List (Nat × vec) -> FaissState vec -> LiveSet vec -> Prop
  | [], _, _ => True
  | pair :: rest, st, live =>
      (((st.reverse_map pair.1).isSome = true ∧ exists v, (pair.1, v) ∈ live ∧
          host.metric.normalize v = host.metric.normalize pair.2) ∨
        ((st.reverse_map pair.1).isSome = false ∧
          AddsWell host pair.1 st)) ∧
      BatchWell rest (addOnce host st pair) (live.put pair)

/-- Builds have each id once, and adds add well.  A rebuild finds one entry of
each id.  What was staged or saved is still right when it is published, and
what is restored was saved without the entries of removed ids. -/
def guarded (s : Served vec) : IndexEvent vec -> Prop
  | build pairs => (LiveSet.ids pairs).Nodup
  | stage pairs => (LiveSet.ids pairs).Nodup
  | commit i => forall staged, s.staged[i]? = some staged ->
      staged.generation = s.st.generation ->
        Agrees host.metric (s.since staged.mark staged.pairs) staged.pairs
  | add chunk_id _ => s.st.invalidated = false -> AddsWell host chunk_id s.st
  | addBatch pairs => s.st.ready = true -> BatchWell host pairs s.st s.live
  | rebuild => Daemon.rebuild host s.st = s.st ∨ Fresh s.st
  | load checksum => forall copy, s.disk = some copy ->
      copy.saved.db_checksum = checksum ->
      copy.saved.chunk_ids.Nodup ∧
      (forall chunk_id, chunk_id ∈ copy.saved.chunk_ids ->
        chunk_id ∈ copy.live.ids) ∧
      Agrees host.metric (s.since copy.mark copy.live) copy.live
  | _ => True

end IndexEvent

def indexSystem (host : IndexHost vec score) :
    TransitionSystem (Served vec) (IndexEvent vec) where
  initial := fun s => s = Served.empty
  step := fun s event s' => s' = event.after host s

def guardedIndexSystem (host : IndexHost vec score) :
    TransitionSystem (Served vec) (IndexEvent vec) :=
  (indexSystem host).Restrict fun s event => event.guarded host s

/-!
## What each event does to the live set
-/

variable {host : IndexHost vec score}

theorem mem_put {live : LiveSet vec} {pair other : Nat × vec} :
    other ∈ live.put pair <-> (other ∈ live ∧ other.1 ≠ pair.1) ∨ other = pair := by
  unfold LiveSet.put
  rw [List.mem_append, List.mem_filter, decide_eq_true_eq, List.mem_singleton]

theorem mem_put_ids {live : LiveSet vec} {pair : Nat × vec} {chunk_id : Nat} :
    chunk_id ∈ (live.put pair).ids <->
      chunk_id = pair.1 ∨ chunk_id ∈ live.ids := by
  constructor
  · intro h
    rcases mem_ids.mp h with ⟨v, hv⟩
    rcases mem_put.mp hv with hold | hnew
    · exact Or.inr (mem_ids.mpr ⟨v, hold.left⟩)
    · exact Or.inl (congrArg Prod.fst hnew)
  · intro h
    by_cases heq : chunk_id = pair.1
    · rw [heq]
      exact mem_ids.mpr ⟨pair.2, mem_put.mpr (Or.inr rfl)⟩
    · rcases h with hsame | hlive
      · exact absurd hsame heq
      · rcases mem_ids.mp hlive with ⟨v, hv⟩
        exact mem_ids.mpr ⟨v, mem_put.mpr (Or.inl ⟨hv, heq⟩)⟩

theorem put_new
    {live : LiveSet vec} {pair : Nat × vec} (hnew : pair.1 ∉ live.ids) :
    live.put pair = live ++ [pair] := by
  unfold LiveSet.put
  congr 1
  apply List.filter_eq_self.mpr
  intro old hold
  apply decide_eq_true
  intro heq
  apply hnew
  rw [← heq]
  exact mem_ids.mpr ⟨old.2, hold⟩

theorem put_ids_nodup
    {live : LiveSet vec} (h : live.ids.Nodup) (pair : Nat × vec) :
    (live.put pair).ids.Nodup := by
  unfold LiveSet.put LiveSet.ids
  rw [List.map_append]
  apply List.Nodup.append (erase_ids_nodup h pair.1) (List.nodup_singleton _)
  intro chunk_id herased hsingle
  exact (mem_erase_ids.mp herased).left (List.mem_singleton.mp hsingle)

theorem changed_putAll (pairs : List (Nat × vec)) (live : LiveSet vec) :
    live.changed (pairs.map Change.put) = pairs.foldl LiveSet.put live := by
  unfold LiveSet.changed
  rw [List.foldl_map]
  rfl

theorem changed_eraseAll (chunk_ids : List Nat) (live : LiveSet vec) :
    live.changed (chunk_ids.map Change.erase) =
      chunk_ids.foldl LiveSet.erase live := by
  unfold LiveSet.changed
  rw [List.foldl_map]
  rfl

/-- Every build in the list has each id once. -/
def DistinctBuilds (changes : List (Change vec)) : Prop :=
  forall pairs, Change.build pairs ∈ changes -> (LiveSet.ids pairs).Nodup

theorem changed_nodup
    {changes : List (Change vec)} (hbuilds : DistinctBuilds changes)
    {live : LiveSet vec} (h : live.ids.Nodup) :
    (live.changed changes).ids.Nodup := by
  induction changes generalizing live with
  | nil =>
      exact h
  | cons change rest ih =>
      apply ih (fun pairs hmem => hbuilds pairs (List.mem_cons_of_mem _ hmem))
      cases change with
      | put pair =>
          exact put_ids_nodup h pair
      | erase chunk_id =>
          exact erase_ids_nodup h chunk_id
      | build pairs =>
          exact hbuilds pairs (List.mem_cons_self ..)

/-- The change gives the set an id. -/
def Change.adds (chunk_id : Nat) : Change vec -> Prop
  | Change.put pair => chunk_id = pair.1
  | Change.erase _ => False
  | Change.build pairs => chunk_id ∈ LiveSet.ids pairs

theorem changed_without
    {changes : List (Change vec)} {chunk_id : Nat}
    (hnone : forall change, change ∈ changes -> ¬ change.adds chunk_id)
    {live : LiveSet vec} (h : chunk_id ∉ live.ids) :
    chunk_id ∉ (live.changed changes).ids := by
  induction changes generalizing live with
  | nil =>
      exact h
  | cons change rest ih =>
      apply ih (fun other hmem => hnone other (List.mem_cons_of_mem _ hmem))
      have hfirst := hnone change (List.mem_cons_self ..)
      cases change with
      | put pair =>
          intro hput
          rcases mem_put_ids.mp hput with heq | hlive
          · exact hfirst heq
          · exact h hlive
      | erase erased =>
          intro herase
          exact h (mem_erase_ids.mp herase).right
      | build pairs =>
          exact hfirst

/-- An id with an entry is left as it is; that is right where its vector has
the direction of the new one. -/
theorem tracks_kept
    {st : FaissState vec} {live : LiveSet vec} (h : Tracks host st live)
    {pair : Nat × vec} {v : vec} (hv : (pair.1, v) ∈ live)
    (hsame : host.metric.normalize v = host.metric.normalize pair.2) :
    Tracks host st (live.put pair) := by
  apply h.congr (put_ids_nodup h.ids pair)
  · intro chunk_id
    rw [mem_put_ids]
    constructor
    · intro hput
      rcases hput with heq | hlive
      · rw [heq]
        exact mem_ids.mpr ⟨v, hv⟩
      · exact hlive
    · exact Or.inr
  · intro other hother
    rcases mem_put.mp hother with hold | hnew
    · exact ⟨other.2, hold.left, rfl⟩
    · rw [hnew]
      exact ⟨v, hv, hsame⟩

theorem tracks_put
    {st : FaissState vec} {live : LiveSet vec} (h : Tracks host st live)
    (hwarm : st.invalidated = false) {chunk_id : Nat} {v : vec}
    (hwell : AddsWell host chunk_id st) :
    Tracks host (addVector host chunk_id v st) (live.put (chunk_id, v)) := by
  rw [put_new (hwell.gone h)]
  exact tracks_addVector h hwarm hwell

/-!
## Readiness
-/

/-- A ready index is not an invalidated one. -/
def Warm (st : FaissState vec) : Prop :=
  st.ready = true -> st.invalidated = false

theorem buildFromVectors_invalidated
    (pairs : List (Nat × vec)) {st : FaissState vec}
    (h : st.invalidated = false) :
    (buildFromVectors host pairs st).invalidated = false := by
  unfold buildFromVectors
  split
  · exact h
  · rfl

theorem addVector_invalidated
    (chunk_id : Nat) (v : vec) {st : FaissState vec}
    (h : st.invalidated = false) :
    (addVector host chunk_id v st).invalidated = false := by
  have hpaired : forall mid : FaissState vec, mid.invalidated = false ->
      (addPaired host chunk_id v mid).invalidated = false := by
    intro mid hmid
    unfold addPaired
    dsimp only
    split
    · exact buildFromVectors_invalidated _ hmid
    · exact hmid
  unfold addVector
  split
  · exact h
  · split
    · split
      · exact h
      · exact hpaired _ h
    · exact hpaired _ h

theorem addOnce_invalidated
    (pair : Nat × vec) {st : FaissState vec} (h : st.invalidated = false) :
    (addOnce host st pair).invalidated = false := by
  unfold addOnce
  split
  · exact h
  · exact addVector_invalidated _ _ h

theorem removeVector_warm
    (chunk_id : Nat) {st : FaissState vec} (h : Warm st) :
    Warm (removeVector chunk_id st) := by
  unfold removeVector
  split
  · exact h
  · exact h

theorem rebuild_warm {st : FaissState vec} (h : Warm st) :
    Warm (rebuild host st) := by
  have hwith : forall vectors, Warm (rebuildWith host vectors st) := by
    intro vectors
    unfold rebuildWith
    dsimp only
    split
    · intro hready
      cases hready
    · exact fun _ => rfl
  unfold rebuild
  split
  · exact h
  · split
    · split
      · exact h
      · exact hwith _
    · exact hwith _

theorem load_warm
    (disk : Option (SavedIndex vec)) (checksum : String) {st : FaissState vec}
    (h : Warm st) : Warm (tryLoadFromDisk host disk checksum st).2 := by
  unfold tryLoadFromDisk
  split
  · exact h
  · split
    · exact h
    · split
      · exact fun _ => rfl
      · split
        · exact h
        · unfold buildFromVectors
          split
          · exact h
          · exact fun _ => rfl

theorem tracks_addAll
    {pairs : List (Nat × vec)} {st : FaissState vec} {live : LiveSet vec}
    (h : Tracks host st live) (hwarm : st.invalidated = false)
    (hwell : IndexEvent.BatchWell host pairs st live) :
    Tracks host (pairs.foldl (addOnce host) st)
        (pairs.foldl LiveSet.put live) ∧
      (pairs.foldl (addOnce host) st).invalidated = false := by
  induction pairs generalizing st live with
  | nil =>
      exact ⟨h, hwarm⟩
  | cons pair rest ih =>
      rcases hwell with ⟨hfirst, hrest⟩
      rw [List.foldl_cons, List.foldl_cons]
      apply ih _ (addOnce_invalidated pair hwarm) hrest
      unfold addOnce
      rcases hfirst with ⟨hthere, v, hv, hsame⟩ | ⟨hnot, hadds⟩
      · rw [if_pos hthere]
        exact tracks_kept h hv hsame
      · rw [if_neg (by rw [hnot]; exact Bool.false_ne_true)]
        exact tracks_put h hwarm hadds

theorem tracks_removeAll
    (chunk_ids : List Nat) {st : FaissState vec} {live : LiveSet vec}
    (h : Tracks host st live) (hwarm : Warm st) :
    Tracks host
        (chunk_ids.foldl (fun st chunk_id => removeVector chunk_id st) st)
        (chunk_ids.foldl LiveSet.erase live) ∧
      Warm (chunk_ids.foldl (fun st chunk_id => removeVector chunk_id st) st) := by
  induction chunk_ids generalizing st live with
  | nil =>
      exact ⟨h, hwarm⟩
  | cons first rest ih =>
      exact ih (tracks_remove h first) (removeVector_warm first hwarm)

/-!
## The invariant of a run
-/

/-- A copy on disk is that of some state that served its live set. -/
def Kept (host : IndexHost vec score) (copy : DiskCopy vec) : Prop :=
  exists old, Tracks host old copy.live ∧
    copy.saved.index = old.index ∧ copy.saved.vectors = old.vectors ∧
      copy.saved.chunk_ids = old.chunk_ids

structure SoundIndex (host : IndexHost vec score) (s : Served vec) : Prop where
  tracks : Tracks host s.st s.live
  warm : Warm s.st
  builds : DistinctBuilds s.log
  staged : forall staged, staged ∈ s.staged ->
    (LiveSet.ids staged.pairs).Nodup
  disk : forall copy, s.disk = some copy -> Kept host copy

theorem soundIndex_empty (host : IndexHost vec score) :
    SoundIndex host (Served.empty : Served vec) where
  tracks := tracks_empty host
  warm := fun _ => rfl
  builds := by
    intro pairs hmem
    cases hmem
  staged := by
    intro staged hstaged
    cases hstaged
  disk := by
    intro copy hcopy
    cases hcopy

theorem SoundIndex.ask
    {s : Served vec} (h : SoundIndex host s) {changes : List (Change vec)}
    (hbuilds : DistinctBuilds changes) {accepted : Bool} {st : FaissState vec}
    (haccepted : accepted = true ->
      Tracks host st (s.live.changed changes) ∧ Warm st) :
    SoundIndex host (s.ask changes accepted st) := by
  have hlog : DistinctBuilds (s.log ++ changes) := by
    intro pairs hmem
    rcases List.mem_append.mp hmem with hold | hnew
    · exact h.builds pairs hold
    · exact hbuilds pairs hnew
  unfold Served.ask
  cases accepted with
  | false =>
      rw [if_neg Bool.false_ne_true]
      exact ⟨h.tracks, h.warm, hlog, h.staged, h.disk⟩
  | true =>
      rcases haccepted rfl with ⟨htracks, hwarm⟩
      rw [if_pos rfl]
      exact ⟨htracks, hwarm, hlog, h.staged, h.disk⟩

/-- A build, a staged build or a copy takes the place of everything. -/
theorem SoundIndex.replace
    {s : Served vec} (h : SoundIndex host s) {live : LiveSet vec}
    {st : FaissState vec} (htracks : Tracks host st live) (hwarm : Warm st) :
    SoundIndex host (s.ask [Change.build live] true st) := by
  apply h.ask
  · intro pairs hmem
    cases List.mem_singleton.mp hmem
    exact htracks.ids
  · exact fun _ => ⟨htracks, hwarm⟩

/-- What a snapshot should serve, it serves, as long as they agree. -/
theorem SoundIndex.published
    {s : Served vec} (h : SoundIndex host s) {st : FaissState vec}
    {live : LiveSet vec} (htracks : Tracks host st live) {mark : Nat}
    (hagrees : IndexEvent.Agrees host.metric (s.since mark live) live) :
    Tracks host st (s.since mark live) := by
  apply htracks.congr _ hagrees.ids hagrees.vectors
  apply changed_nodup _ htracks.ids
  exact fun pairs hmem => h.builds pairs (List.mem_of_mem_drop hmem)

/-!
## Each event keeps it
-/

theorem distinctBuilds_puts (pairs : List (Nat × vec)) :
    DistinctBuilds (pairs.map Change.put) := by
  intro built hmem
  rcases List.mem_map.mp hmem with ⟨pair, _, heq⟩
  cases heq

theorem distinctBuilds_erases (chunk_ids : List Nat) :
    DistinctBuilds (chunk_ids.map (@Change.erase vec)) := by
  intro built hmem
  rcases List.mem_map.mp hmem with ⟨chunk_id, _, heq⟩
  cases heq

theorem soundIndex_commit
    {s : Served vec} (h : SoundIndex host s) {staged : StagedBuild vec}
    (hstaged : staged ∈ s.staged)
    (hagrees : staged.generation = s.st.generation ->
      IndexEvent.Agrees host.metric (s.since staged.mark staged.pairs)
        staged.pairs) :
    SoundIndex host (IndexEvent.commitOf host s staged) := by
  unfold IndexEvent.commitOf commitStaged
  dsimp only
  by_cases hgeneration : s.st.generation ≠ staged.generation
  · rw [if_pos hgeneration, if_neg Bool.false_ne_true]
    exact h
  · have hsame : staged.generation = s.st.generation :=
      (not_ne_iff.mp hgeneration).symm
    rw [if_neg hgeneration, if_pos rfl]
    apply h.replace
    · exact h.published (tracks_construct (h.staged staged hstaged) s.st)
        (hagrees hsame)
    · exact fun _ => rfl

theorem soundIndex_load
    {s : Served vec} (h : SoundIndex host s) {copy : DiskCopy vec}
    (hcopy : s.disk = some copy) {checksum : String}
    (hguard : copy.saved.db_checksum = checksum ->
      copy.saved.chunk_ids.Nodup ∧
      (forall chunk_id, chunk_id ∈ copy.saved.chunk_ids ->
        chunk_id ∈ copy.live.ids) ∧
      IndexEvent.Agrees host.metric (s.since copy.mark copy.live) copy.live) :
    SoundIndex host (IndexEvent.loadOf host s checksum copy) := by
  unfold IndexEvent.loadOf
  dsimp only
  split
  · rename_i hloaded
    have hchecksum : copy.saved.db_checksum = checksum := by
      apply Classical.byContradiction
      intro hne
      unfold tryLoadFromDisk at hloaded
      dsimp only at hloaded
      rw [if_pos hne] at hloaded
      cases hloaded
    rcases hguard hchecksum with ⟨hnodup, hcompact, hagrees⟩
    rcases h.disk copy hcopy with ⟨old, hold, hindex, hvectors, hids⟩
    apply h.replace
    · exact h.published
        (tracks_load hold hindex hvectors hids hnodup hcompact hloaded) hagrees
    · exact load_warm _ _ h.warm
  · exact h

theorem soundIndex_after
    {s : Served vec} (h : SoundIndex host s) (event : IndexEvent vec)
    (hguard : event.guarded host s) : SoundIndex host (event.after host s) := by
  cases event with
  | build pairs =>
      unfold IndexEvent.after
      dsimp only
      split
      · exact h
      · rename_i hsome
        unfold buildFromVectors
        rw [if_neg hsome]
        apply h.replace (tracks_construct hguard s.st)
        exact fun _ => rfl
  | stage pairs =>
      constructor
      · exact h.tracks
      · exact h.warm
      · exact h.builds
      · intro staged hstaged
        rcases List.mem_append.mp hstaged with hold | hnew
        · exact h.staged staged hold
        · rw [List.mem_singleton.mp hnew]
          exact hguard
      · exact h.disk
  | commit i =>
      unfold IndexEvent.after
      dsimp only
      cases hstaged : s.staged[i]? with
      | none =>
          exact h
      | some staged =>
          exact soundIndex_commit h (List.mem_of_getElem? hstaged)
            (hguard staged hstaged)
  | add chunk_id v =>
      apply h.ask (distinctBuilds_puts [(chunk_id, v)])
      intro haccepted
      have hinvalid : s.st.invalidated = false := by
        simpa using haccepted
      constructor
      · exact tracks_put h.tracks hinvalid (hguard hinvalid)
      · exact fun _ => addVector_invalidated _ _ hinvalid
  | addBatch pairs =>
      apply h.ask (distinctBuilds_puts pairs)
      intro haccepted
      unfold Daemon.addBatch at haccepted ⊢
      cases hready : s.st.ready with
      | false =>
          rw [hready] at haccepted
          cases haccepted
      | true =>
          rcases tracks_addAll h.tracks (h.warm hready) (hguard hready) with
            ⟨htracks, hinvalid⟩
          rw [changed_putAll]
          exact ⟨htracks, fun _ => hinvalid⟩
  | remove chunk_id =>
      apply h.ask (distinctBuilds_erases [chunk_id])
      intro _
      exact ⟨tracks_remove h.tracks chunk_id, removeVector_warm chunk_id h.warm⟩
  | removeBatch chunk_ids =>
      apply h.ask (distinctBuilds_erases chunk_ids)
      intro haccepted
      unfold Daemon.removeBatch at haccepted ⊢
      cases hready : s.st.ready with
      | false =>
          rw [hready] at haccepted
          cases haccepted
      | true =>
          rw [changed_eraseAll]
          exact tracks_removeAll chunk_ids h.tracks h.warm
  | rebuild =>
      have htracks : Tracks host (Daemon.rebuild host s.st) s.live := by
        rcases hguard with hsame | hfresh
        · rw [hsame]
          exact h.tracks
        · exact tracks_rebuild h.tracks hfresh
      exact ⟨htracks, rebuild_warm h.warm, h.builds, h.staged, h.disk⟩
  | invalidate =>
      have hclear : Tracks host (clearIndex s.st) [] := tracks_clear
      constructor
      · exact ⟨hclear.ids, hclear.removed, hclear.entry, hclear.position,
          hclear.ranked, hclear.vector, hclear.normal, hclear.raw,
          hclear.plain⟩
      · intro hready
        cases hready
      · exact h.builds
      · exact h.staged
      · exact h.disk
  | save checksum written =>
      unfold IndexEvent.after
      dsimp only
      cases hsaved : savedIndex checksum s.st with
      | none =>
          exact h
      | some saved =>
          cases written with
          | false =>
              exact h
          | true =>
              constructor
              · exact h.tracks
              · exact h.warm
              · exact h.builds
              · exact h.staged
              · intro copy hcopy
                rw [← Option.some.inj hcopy]
                unfold savedIndex at hsaved
                split at hsaved
                · cases hsaved
                · split at hsaved
                  · cases hsaved
                  · rw [← Option.some.inj hsaved]
                    exact ⟨s.st, h.tracks, rfl, rfl, rfl⟩
  | load checksum =>
      unfold IndexEvent.after
      dsimp only
      cases hcopy : s.disk with
      | none =>
          exact h
      | some copy =>
          exact soundIndex_load h hcopy (hguard copy hcopy)

theorem soundIndex_reachable
    {s : Served vec} (hreach : (guardedIndexSystem host).Reachable s) :
    SoundIndex host s := by
  apply TransitionSystem.reachable_induction _ _ hreach
  · intro s0 hinit
    rw [hinit]
    exact soundIndex_empty host
  · intro s0 event s' _ hs hstep
    rw [hstep.right]
    exact soundIndex_after hs event hstep.left

/-!
## A removed id stays out
-/

/-- The id is neither served nor in anything that can be published. -/
structure Out (chunk_id : Nat) (s : Served vec) : Prop where
  live : chunk_id ∉ s.live.ids
  staged : forall staged, staged ∈ s.staged -> staged.mark ≤ s.log.length ∧
    chunk_id ∉ (s.since staged.mark staged.pairs).ids
  disk : forall copy, s.disk = some copy -> copy.mark ≤ s.log.length ∧
    chunk_id ∉ (s.since copy.mark copy.live).ids

/-- What is staged or saved is older than now. -/
structure Marked (s : Served vec) : Prop where
  staged : forall staged, staged ∈ s.staged -> staged.mark ≤ s.log.length
  disk : forall copy, s.disk = some copy -> copy.mark ≤ s.log.length

theorem ask_log (s : Served vec) (changes : List (Change vec))
    (accepted : Bool) (st : FaissState vec) :
    (s.ask changes accepted st).log = s.log ++ changes ∧
      (s.ask changes accepted st).staged = s.staged ∧
      (s.ask changes accepted st).disk = s.disk := by
  unfold Served.ask
  cases accepted with
  | _ =>
      exact ⟨rfl, rfl, rfl⟩

theorem since_ask
    (s : Served vec) (changes : List (Change vec)) (accepted : Bool)
    (st : FaissState vec) {mark : Nat} (hmark : mark ≤ s.log.length)
    (live : LiveSet vec) :
    (s.ask changes accepted st).since mark live =
      (s.since mark live).changed changes := by
  unfold Served.since
  rw [(ask_log s changes accepted st).left, List.drop_append_of_le_length hmark]
  unfold LiveSet.changed
  rw [List.foldl_append]

theorem Marked.ask
    {s : Served vec} (h : Marked s) (changes : List (Change vec))
    (accepted : Bool) (st : FaissState vec) :
    Marked (s.ask changes accepted st) := by
  rcases ask_log s changes accepted st with ⟨hlog, hstaged, hdisk⟩
  constructor
  · intro staged hmem
    rw [hstaged] at hmem
    have hold := h.staged staged hmem
    rw [hlog, List.length_append]
    omega
  · intro copy hcopy
    rw [hdisk] at hcopy
    have hold := h.disk copy hcopy
    rw [hlog, List.length_append]
    omega

theorem marked_after
    {s : Served vec} (h : Marked s) (event : IndexEvent vec) :
    Marked (event.after host s) := by
  cases event with
  | build pairs =>
      unfold IndexEvent.after
      dsimp only
      split
      · exact h
      · exact h.ask _ _ _
  | stage pairs =>
      constructor
      · intro staged hmem
        rcases List.mem_append.mp hmem with hold | hnew
        · exact h.staged staged hold
        · rw [List.mem_singleton.mp hnew]
          exact Nat.le_refl _
      · exact h.disk
  | commit i =>
      unfold IndexEvent.after IndexEvent.commitOf
      dsimp only
      split
      · exact h
      · split
        · exact h.ask _ _ _
        · exact h
  | add chunk_id v =>
      exact h.ask _ _ _
  | addBatch pairs =>
      exact h.ask _ _ _
  | remove chunk_id =>
      exact h.ask _ _ _
  | removeBatch chunk_ids =>
      exact h.ask _ _ _
  | rebuild =>
      exact ⟨h.staged, h.disk⟩
  | invalidate =>
      exact ⟨h.staged, h.disk⟩
  | save checksum written =>
      unfold IndexEvent.after
      dsimp only
      split
      · exact h
      · split
        · constructor
          · exact h.staged
          · intro copy hcopy
            rw [← Option.some.inj hcopy]
        · exact h
  | load checksum =>
      unfold IndexEvent.after IndexEvent.loadOf
      dsimp only
      split
      · exact h
      · split
        · exact h.ask _ _ _
        · exact h

theorem out_removed
    {s : Served vec} (h : Marked s) (chunk_id : Nat) :
    Out chunk_id ((IndexEvent.remove chunk_id).after host s) := by
  have hgone : forall live : LiveSet vec,
      chunk_id ∉ (live.changed [Change.erase chunk_id]).ids := by
    intro live hlive
    exact (mem_erase_ids.mp hlive).left rfl
  have hmarked : Marked ((IndexEvent.remove chunk_id).after host s) :=
    marked_after h _
  constructor
  · exact hgone s.live
  · intro staged hmem
    refine ⟨hmarked.staged staged hmem, ?_⟩
    show chunk_id ∉ ((s.ask _ true _).since staged.mark staged.pairs).ids
    rw [since_ask s _ _ _ (h.staged staged hmem)]
    exact hgone _
  · intro copy hcopy
    refine ⟨hmarked.disk copy hcopy, ?_⟩
    show chunk_id ∉ ((s.ask _ true _).since copy.mark copy.live).ids
    rw [since_ask s _ _ _ (h.disk copy hcopy)]
    exact hgone _

theorem Out.ask
    {s : Served vec} {chunk_id : Nat} (h : Out chunk_id s)
    {changes : List (Change vec)}
    (hnone : forall change, change ∈ changes -> ¬ change.adds chunk_id)
    (accepted : Bool) (st : FaissState vec) :
    Out chunk_id (s.ask changes accepted st) := by
  have hmarked : Marked (s.ask changes accepted st) :=
    Marked.ask ⟨fun staged hmem => (h.staged staged hmem).left,
      fun copy hcopy => (h.disk copy hcopy).left⟩ changes accepted st
  rcases ask_log s changes accepted st with ⟨_, hstaged, hdisk⟩
  constructor
  · unfold Served.ask
    cases accepted with
    | false =>
        exact h.live
    | true =>
        exact changed_without hnone h.live
  · intro staged hmem
    refine ⟨hmarked.staged staged hmem, ?_⟩
    rw [hstaged] at hmem
    rw [since_ask s _ _ _ (h.staged staged hmem).left]
    exact changed_without hnone (h.staged staged hmem).right
  · intro copy hcopy
    refine ⟨hmarked.disk copy hcopy, ?_⟩
    rw [hdisk] at hcopy
    rw [since_ask s _ _ _ (h.disk copy hcopy).left]
    exact changed_without hnone (h.disk copy hcopy).right

theorem Out.replace
    {s : Served vec} {chunk_id : Nat} (h : Out chunk_id s)
    {live : LiveSet vec} (hlive : chunk_id ∉ live.ids) (st : FaissState vec) :
    Out chunk_id (s.ask [Change.build live] true st) := by
  apply h.ask
  intro change hmem
  rw [List.mem_singleton.mp hmem]
  exact hlive

theorem out_after
    {s : Served vec} {chunk_id : Nat} (h : Out chunk_id s)
    {event : IndexEvent vec} (hnot : ¬ event.adds chunk_id) :
    Out chunk_id (event.after host s) := by
  cases event with
  | build pairs =>
      unfold IndexEvent.after
      dsimp only
      split
      · exact h
      · exact h.replace hnot _
  | stage pairs =>
      constructor
      · exact h.live
      · intro staged hmem
        rcases List.mem_append.mp hmem with hold | hnew
        · exact h.staged staged hold
        · rw [List.mem_singleton.mp hnew]
          refine ⟨Nat.le_refl _, ?_⟩
          show chunk_id ∉ LiveSet.ids
            (LiveSet.changed pairs (s.log.drop s.log.length))
          rw [List.drop_length]
          exact hnot
      · exact h.disk
  | commit i =>
      unfold IndexEvent.after IndexEvent.commitOf
      dsimp only
      split
      · exact h
      · rename_i staged hstaged
        split
        · exact h.replace
            (h.staged staged (List.mem_of_getElem? hstaged)).right _
        · exact h
  | add added v =>
      apply h.ask
      intro change hmem
      rw [List.mem_singleton.mp hmem]
      exact hnot
  | addBatch pairs =>
      apply h.ask
      intro change hmem hadds
      rcases List.mem_map.mp hmem with ⟨pair, hpair, heq⟩
      rw [← heq] at hadds
      apply hnot
      have hsame : chunk_id = pair.1 := hadds
      show chunk_id ∈ LiveSet.ids pairs
      rw [hsame]
      exact mem_ids.mpr ⟨pair.2, hpair⟩
  | remove removed =>
      apply h.ask
      intro change hmem
      rw [List.mem_singleton.mp hmem]
      exact id
  | removeBatch chunk_ids =>
      apply h.ask
      intro change hmem hadds
      rcases List.mem_map.mp hmem with ⟨erased, _, heq⟩
      rw [← heq] at hadds
      exact hadds
  | rebuild =>
      exact ⟨h.live, h.staged, h.disk⟩
  | invalidate =>
      constructor
      · intro hlive
        cases hlive
      · exact h.staged
      · exact h.disk
  | save checksum written =>
      unfold IndexEvent.after
      dsimp only
      split
      · exact h
      · split
        · constructor
          · exact h.live
          · exact h.staged
          · intro copy hcopy
            rw [← Option.some.inj hcopy]
            refine ⟨Nat.le_refl _, ?_⟩
            show chunk_id ∉ LiveSet.ids
              (LiveSet.changed s.live (s.log.drop s.log.length))
            rw [List.drop_length]
            exact h.live
        · exact h
  | load checksum =>
      unfold IndexEvent.after IndexEvent.loadOf
      dsimp only
      split
      · exact h
      · rename_i copy hcopy
        split
        · exact h.replace (h.disk copy hcopy).right _
        · exact h

theorem out_run
    {s s' : Served vec} {chunk_id : Nat} (h : Out chunk_id s)
    {events : List (IndexEvent vec)}
    (hnot : forall event, event ∈ events -> ¬ event.adds chunk_id)
    (hrun : (guardedIndexSystem host).Run s events s') : Out chunk_id s' := by
  induction hrun with
  | nil s =>
      exact h
  | cons hfirst _ ih =>
      apply ih
      · rw [hfirst.right]
        exact out_after h (hnot _ (List.mem_cons_self ..))
      · exact fun event hmem => hnot event (List.mem_cons_of_mem _ hmem)

theorem marked_reachable
    {s : Served vec} (hreach : (guardedIndexSystem host).Reachable s) :
    Marked s := by
  apply TransitionSystem.reachable_induction _ _ hreach
  · intro s0 hinit
    rw [hinit]
    constructor
    · intro staged hmem
      cases hmem
    · intro copy hcopy
      cases hcopy
  · intro s0 event s' _ hs hstep
    rw [hstep.right]
    exact marked_after hs event

/-!
## What a search serves

The index asks for twice as many entries as it needs.  That is enough as long
as the removed ones among them leave `k`, or all that are live.
-/

/-- The results are exactly the best of the live set. -/
def ServesExactly (host : IndexHost vec score) (s : Served vec) : Prop :=
  forall query top_k,
    ServesLive host.metric s.live query (search host query top_k s.st) ∧
    ServesBest host.metric s.live query top_k (search host query top_k s.st)

structure ServesLiveSet (host : IndexHost vec score) (s : Served vec) :
    Prop where
  live : forall query top_k,
    ServesLive host.metric s.live query (search host query top_k s.st)
  /-- A removed id is not found again before it is added again. -/
  gone : forall chunk_id events s',
    (forall event, event ∈ events -> ¬ event.adds chunk_id) ->
    (guardedIndexSystem host).Run s (IndexEvent.remove chunk_id :: events) s' ->
    forall query top_k result, result ∈ search host query top_k s'.st ->
      result.1 ≠ chunk_id
  best : forall query top_k,
    ServesBest host.metric s.live query top_k
      (search host query top_k s.st) <-> EnoughLive host query top_k s.st
  few : forall query top_k, s.st.count ≤ s.live.length + top_k ->
    EnoughLive host query top_k s.st

theorem serves_live_set
    (host : IndexHost vec score) (s : Served vec)
    (hreach : (guardedIndexSystem host).Reachable s) :
    ServesLiveSet host s := by
  have hsound := soundIndex_reachable hreach
  have htracks := hsound.tracks
  constructor
  · exact fun query top_k => serves_live htracks query top_k
  · intro chunk_id events s' hnot hrun query top_k result hresult heq
    have hlater := soundIndex_reachable (TransitionSystem.reachable_run hreach hrun)
    have hout : Out chunk_id s' := by
      cases hrun with
      | cons hfirst hrest =>
          apply out_run _ hnot hrest
          rw [hfirst.right]
          exact out_removed (marked_reachable hreach) chunk_id
    rcases (serves_live hlater.tracks query top_k).live result hresult with
      ⟨v, hv, _⟩
    apply hout.live
    rw [← heq]
    exact mem_ids.mpr ⟨v, hv⟩
  · intro query top_k
    constructor
    · exact fun hbest => enoughLive_of_length htracks hbest.length
    · exact serves_best htracks
  · exact fun query top_k hfew => enoughLive_of_few htracks hfew

end Runs

/-!
## Removed entries before a live one

Three vectors are built and the two nearest to the query are removed.  A
search for one looks at two entries, both removed, and finds nothing.
-/

/-- Unit vectors of the plane, in fifths. -/
abbrev UnitVector := { v : Int × Int // v.1 * v.1 + v.2 * v.2 = 25 }

def unitMetric : Metric UnitVector Int where
  normalize := id
  inner := fun v w => v.val.1 * w.val.1 + v.val.2 * w.val.2
  normalize_idem := fun _ => rfl

def unitHost : IndexHost UnitVector Int where
  metric := unitMetric
  topK := sortTopK
  faiss := true
  reconstructs := true
  faiss_index_type := FaissIndexType.auto
  hnsw_threshold := 50000

def nearest : UnitVector := ⟨(5, 0), by decide⟩

def threeBuilt : List (Nat × UnitVector) :=
  [(1, nearest), (2, ⟨(4, 3), by decide⟩), (3, ⟨(3, 4), by decide⟩)]

def afterAll (events : List (IndexEvent UnitVector)) : Served UnitVector :=
  events.foldl (fun s event => event.after unitHost s) Served.empty

def twoRemoved : List (IndexEvent UnitVector) :=
  [IndexEvent.build threeBuilt, IndexEvent.remove 1, IndexEvent.remove 2]

theorem guarded_after
    {s : Served UnitVector} (hreach : (guardedIndexSystem unitHost).Reachable s)
    (event : IndexEvent UnitVector) (hguard : event.guarded unitHost s) :
    (guardedIndexSystem unitHost).Reachable (event.after unitHost s) :=
  TransitionSystem.reachable_step hreach ⟨hguard, rfl⟩

theorem twoRemoved_guarded :
    (guardedIndexSystem unitHost).Reachable (afterAll twoRemoved) := by
  have hempty : (guardedIndexSystem unitHost).Reachable Served.empty :=
    TransitionSystem.reachable_initial rfl
  have hids : (LiveSet.ids threeBuilt).Nodup := by
    decide
  have hbuilt := guarded_after hempty (IndexEvent.build threeBuilt) hids
  have hone := guarded_after hbuilt (IndexEvent.remove 1) trivial
  exact guarded_after hone (IndexEvent.remove 2) trivial

theorem removed_before_live :
    ¬ forall (vec score : Type) (_ : LinearOrder score)
      (host : IndexHost vec score) (s : Served vec),
      (indexSystem host).Reachable s -> ServesExactly host s := by
  intro hclaim
  have hreach := TransitionSystem.reachable_of_restrict twoRemoved_guarded
  have hlength := (hclaim UnitVector Int _ unitHost _ hreach nearest 1).right.length
  have hnothing : search unitHost nearest 1 (afterAll twoRemoved).st = [] := by
    decide +kernel
  have hone : (afterAll twoRemoved).live.length = 1 := by
    decide +kernel
  rw [hnothing, hone] at hlength
  cases hlength

theorem serves_live_set_removed :
    ServesLiveSet unitHost (afterAll twoRemoved) :=
  serves_live_set unitHost _ twoRemoved_guarded

end Daemon
end Minni
