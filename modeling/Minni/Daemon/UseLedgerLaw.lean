import Minni.Daemon.UseLedger

/-!
# Who is evicted by the use ledger

The pass counts rows by alias.  It evicts what was shown and never used as long
as the rows under an alias say no more than the rows of the memory itself.
-/

namespace Minni
namespace Daemon

open Foundation

section Law

/-!
## What the rows say
-/

section Rows

variable (host : LedgerHost)

/-- Rows as many as asked for, from as many sessions, and no use. -/
structure Passes (surfaces sessions : Nat) (rows : List ExposureRow) :
    Prop where
  enough : surfaces ≤ rows.length
  spread : sessions ≤ (rows.map ExposureRow.session_key).toFinset.card
  unused : forall row, row ∈ rows -> row.was_used host = false

/-- The rows under an alias. -/
def rowsUnder (k : String) (rows : List ExposureRow) : List ExposureRow :=
  Tally.under (fun row => expandItemKeys host row.mkey) k rows

/-- The rows under the first of the aliases that has any. -/
def aliasRows (rows : List ExposureRow) (candidates : List String) :
    List ExposureRow :=
  match candidates.find? fun k => !(rowsUnder host k rows).isEmpty with
  | none => []
  | some k => rowsUnder host k rows

inductive Memory where
  | learning (learning_id : Nat)
  | document (doc_id : Nat) (path : String)

/-- The row is about the memory: `learning:<id>`, `doc:<src>:<id>` with the tag
of its index, or `vault:<path>` with its path in the vault of the ledger. -/
def Memory.named (index : String) (memory : Memory) (row : ExposureRow) :
    Bool :=
  let mkey := PyText.strip row.mkey
  match memory with
  | Memory.learning lid => mkey = "learning:" ++ toString lid
  | Memory.document did path =>
      mkey = "doc:" ++ index ++ ":" ++ toString did ||
        (textStarts "vault:" mkey &&
          path = row.vault ++ "/" ++ afterFirstColon mkey)

/-- The row is about a document. -/
def aboutDocument (row : ExposureRow) : Bool :=
  textStarts "doc:" (PyText.strip row.mkey) ||
    textStarts "vault:" (PyText.strip row.mkey)

/-- The tag of the index in a document's key. -/
def keyIndex (mkey : String) : String :=
  String.ofList ((afterFirstColon mkey).toList.takeWhile fun c => c ≠ ':')

/-- The row is about a document of another index. -/
def aboutOtherIndex (index : String) (row : ExposureRow) : Bool :=
  textStarts "doc:" (PyText.strip row.mkey) &&
    keyIndex (PyText.strip row.mkey) ≠ index

def withoutDocuments (rows : List ExposureRow) : List ExposureRow :=
  rows.filter fun row => !aboutDocument row

def withoutOtherIndexes (index : String) (rows : List ExposureRow) :
    List ExposureRow :=
  rows.filter fun row => !aboutOtherIndex index row

/-- Its own rows show the memory 25 times in 8 sessions, and none has a use. -/
structure ShownUnused (index : String) (rows : List ExposureRow)
    (memory : Memory) : Prop where
  shown : EVICT_MIN_SURFACES ≤ (rows.filter fun row =>
    memory.named index row && row.visible).length
  spread : EVICT_MIN_SESSIONS ≤ ((rows.filter fun row =>
    memory.named index row && row.visible).map
      ExposureRow.session_key).toFinset.card
  unused : forall row, row ∈ rows -> memory.named index row = true ->
    row.was_used host = false

/-- The learning may be evicted, and would be without the rows about
documents. -/
structure EvictableLearning (index : String) (rows : List ExposureRow)
    (lid : Nat) : Prop where
  own : ShownUnused host index rows (Memory.learning lid)
  without : Passes host EVICT_MIN_SURFACES EVICT_MIN_SESSIONS
    (aliasRows host (withoutDocuments rows) (learningAliases lid))

structure EvictableDocument (index : String) (rows : List ExposureRow)
    (did : Nat) (path : String) : Prop where
  own : ShownUnused host index rows (Memory.document did path)
  without : Passes host EVICT_MIN_SURFACES EVICT_MIN_SESSIONS
    (aliasRows host (withoutOtherIndexes index rows)
      (documentAliases host did path none))

def DemotableLearning (rows : List ExposureRow) (lid : Nat) : Prop :=
  Passes host DEMOTE_MIN_SURFACES DEMOTE_MIN_SESSIONS
    (aliasRows host (withoutDocuments rows) (learningAliases lid))

def DemotableDocument (index : String) (rows : List ExposureRow) (did : Nat)
    (path : String) (linked : Option Nat) : Prop :=
  Passes host DEMOTE_MIN_SURFACES DEMOTE_MIN_SESSIONS
    (aliasRows host (withoutOtherIndexes index rows)
      (documentAliases host did path linked))

/-!
## Fair rows

Rows may be counted for a memory that they do not name, or did not show; they
are fair to it when that does not decide.
-/

def PassesEviction (rows : List ExposureRow) (candidates : List String) :
    Prop :=
  Passes host EVICT_MIN_SURFACES EVICT_MIN_SESSIONS
    (aliasRows host rows candidates)

def PassesDemotion (rows : List ExposureRow) (candidates : List String) :
    Prop :=
  Passes host DEMOTE_MIN_SURFACES DEMOTE_MIN_SESSIONS
    (aliasRows host rows candidates) ∧
  ¬ PassesEviction host rows candidates

structure FairToLearning (index : String) (rows : List ExposureRow)
    (lid : Nat) : Prop where
  evict : PassesEviction host rows (learningAliases lid) ->
    EvictableLearning host index rows lid
  demote : PassesDemotion host rows (learningAliases lid) ->
    DemotableLearning host rows lid

/-- A document that is linked to a learning stands for the learning. -/
def EvictableAs (index : String) (rows : List ExposureRow) (did : Nat)
    (path : String) (linked : Option Nat) : Prop :=
  match linked with
  | none => EvictableDocument host index rows did path
  | some lid => EvictableLearning host index rows lid

structure FairToDocument (index : String) (rows : List ExposureRow)
    (did : Nat) (path : String) (linked : Option Nat) : Prop where
  evict : PassesEviction host rows (documentAliases host did path linked) ->
    EvictableAs host index rows did path linked
  demote : PassesDemotion host rows (documentAliases host did path linked) ->
    DemotableDocument host index rows did path linked

/-- Fair to every memory that there may be. -/
structure FairLedger (index : String) (rows : List ExposureRow) : Prop where
  learning : forall lid, FairToLearning host index rows lid
  document : forall did path linked,
    FairToDocument host index rows did path linked

/-!
## The count of an alias
-/

theorem expandItemKeys_nodup (raw_item : String) :
    (expandItemKeys host raw_item).Nodup := by
  unfold expandItemKeys
  dsimp only
  split
  · exact List.nodup_nil
  · exact nodup_eraseDups _

def statsOf (rows : List ExposureRow) : UseLedgerStats :=
  rows.foldl (fun stats row => addExposure host row stats)
    UseLedgerStats.empty

theorem aggregateUseLedger_apply (rows : List ExposureRow) (k : String) :
    aggregateUseLedger host rows k =
      if (rowsUnder host k rows).isEmpty then none
      else some (statsOf host (rowsUnder host k rows)) := by
  have hnodup : forall row : ExposureRow,
      (expandItemKeys host row.mkey).Nodup := by
    intro row
    exact expandItemKeys_nodup host row.mkey
  unfold aggregateUseLedger rowsUnder statsOf
  rw [Tally.count_apply _ UseLedgerStats.empty (addExposure host) hnodup rows,
    Option.getD_none]

theorem foldl_addExposure (rows : List ExposureRow) (stats : UseLedgerStats) :
    let total := rows.foldl (fun stats row => addExposure host row stats) stats
    total.surfaces = stats.surfaces + rows.length ∧
      (total.uses = 0 <-> stats.uses = 0 ∧
        forall row, row ∈ rows -> row.was_used host = false) ∧
      total.sessions =
        stats.sessions ∪ (rows.map ExposureRow.session_key).toFinset := by
  induction rows generalizing stats with
  | nil =>
      simp
  | cons row rest ih =>
      rcases ih (addExposure host row stats) with ⟨hsurfaces, huses, hsessions⟩
      dsimp only [List.foldl_cons] at hsurfaces huses hsessions ⊢
      constructor
      · rw [hsurfaces, List.length_cons]
        unfold addExposure
        dsimp only
        omega
      constructor
      · rw [huses]
        unfold addExposure
        dsimp only
        cases hused : row.was_used host with
        | true =>
            simp [hused]
        | false =>
            simp [hused]
      · rw [hsessions]
        unfold addExposure
        ext session
        simp

theorem statsOf_passes (rows : List ExposureRow) (surfaces sessions : Nat) :
    ((statsOf host rows).uses = 0 ∧ surfaces ≤ (statsOf host rows).surfaces ∧
        sessions ≤ (statsOf host rows).sessions.card) <->
      Passes host surfaces sessions rows := by
  rcases foldl_addExposure host rows UseLedgerStats.empty with
    ⟨hsurfaces, huses, hsessions⟩
  unfold statsOf
  rw [hsurfaces, huses, hsessions]
  unfold UseLedgerStats.empty
  dsimp only
  rw [Nat.zero_add, Finset.empty_union]
  constructor
  · intro h
    exact ⟨h.right.left, h.right.right, h.left.right⟩
  · intro h
    exact ⟨⟨rfl, h.unused⟩, h.enough, h.spread⟩

theorem should_evict_statsOf (rows : List ExposureRow) :
    (statsOf host rows).should_evict = true <->
      Passes host EVICT_MIN_SURFACES EVICT_MIN_SESSIONS rows := by
  rw [← statsOf_passes]
  unfold UseLedgerStats.should_evict
  simp only [Bool.and_eq_true, decide_eq_true_eq]
  tauto

theorem should_demote_statsOf (rows : List ExposureRow) :
    (statsOf host rows).should_demote = true <->
      Passes host DEMOTE_MIN_SURFACES DEMOTE_MIN_SESSIONS rows ∧
        ¬ Passes host EVICT_MIN_SURFACES EVICT_MIN_SESSIONS rows := by
  rw [← statsOf_passes, ← should_evict_statsOf]
  unfold UseLedgerStats.should_demote
  simp only [Bool.and_eq_true, decide_eq_true_eq, Bool.not_eq_true']
  rw [Bool.not_eq_true]
  tauto

/-- A look-up finds the count of the rows under the first alias that has
any. -/
theorem lookupStats_aggregate
    (rows : List ExposureRow) (candidates : List String) :
    lookupStats (aggregateUseLedger host rows) candidates =
      if (aliasRows host rows candidates).isEmpty then none
      else some (statsOf host (aliasRows host rows candidates)) := by
  unfold lookupStats aliasRows
  induction candidates with
  | nil =>
      rfl
  | cons k rest ih =>
      rw [List.findSome?_cons, List.find?_cons, aggregateUseLedger_apply]
      cases hnone : (rowsUnder host k rows).isEmpty with
      | true =>
          exact ih
      | false =>
          rw [if_neg Bool.false_ne_true, Bool.not_false]
          dsimp only
          rw [hnone, if_neg Bool.false_ne_true]

theorem not_passes_nil {surfaces sessions : Nat} (h : 0 < surfaces) :
    ¬ Passes host surfaces sessions [] := by
  intro hpasses
  have hrows := hpasses.enough
  rw [List.length_nil] at hrows
  omega

theorem evicts_iff (rows : List ExposureRow) (candidates : List String) :
    (lookupStats (aggregateUseLedger host rows) candidates).any
        UseLedgerStats.should_evict = true <->
      PassesEviction host rows candidates := by
  rw [lookupStats_aggregate]
  unfold PassesEviction
  split
  · rename_i hnil
    rw [List.isEmpty_iff.mp hnil]
    constructor
    · intro hfalse
      cases hfalse
    · intro hpasses
      exact absurd hpasses (not_passes_nil host (by decide))
  · exact should_evict_statsOf host _

theorem demotes_iff (rows : List ExposureRow) (candidates : List String) :
    (lookupStats (aggregateUseLedger host rows) candidates).any
        UseLedgerStats.should_demote = true <->
      PassesDemotion host rows candidates := by
  rw [lookupStats_aggregate]
  unfold PassesDemotion PassesEviction
  split
  · rename_i hnil
    rw [List.isEmpty_iff.mp hnil]
    constructor
    · intro hfalse
      cases hfalse
    · intro hpasses
      exact absurd hpasses.left (not_passes_nil host (by decide))
  · exact should_demote_statsOf host _

end Rows

/-!
## The law of a pass
-/

variable {score conf : Type}

/-- Documents have their numbers as primary key. -/
def KeyedDocuments (db : DecayDb score conf) : Prop :=
  (db.documents.map DecayDocument.doc_id).Nodup

structure EvictionLaw (host : LedgerHost) (index : String)
    (rows : List ExposureRow) (db : DecayDb score conf)
    (run : DecayRun score conf) : Prop where
  evictedLearning : forall lid doc_ids,
    Tombstone.learning lid doc_ids ∈ run.tombstones ->
      EvictableLearning host index rows lid
  evictedDocument : forall did path,
    Tombstone.document did path ∈ run.tombstones ->
      EvictableDocument host index rows did path
  demotedLearning : forall lid, lid ∈ run.demoted_learning_ids ->
    DemotableLearning host rows lid
  demotedDocument : forall did, did ∈ run.demoted_doc_ids ->
    exists doc, doc ∈ db.documents ∧ doc.doc_id = did ∧
      DemotableDocument host index rows did doc.path
        (linkedLearning db.learning_documents did)

/-- The rows are fair to each memory that the pass may look up. -/
structure FairTo (host : LedgerHost) (index : String)
    (rows : List ExposureRow) (db : DecayDb score conf) : Prop where
  document : forall doc, doc ∈ db.documents -> isIdentity doc = false ->
    doc.pinned = false ->
      FairToDocument host index rows doc.doc_id doc.path
        (linkedLearning db.learning_documents doc.doc_id)
  learning : forall row, row ∈ db.learnings ->
    row.status.getD "active" = "active" -> row.pinned = false ->
      FairToLearning host index rows row.learning_id

/-- The law so far, over rows that were there at the start. -/
structure DecayInv (host : LedgerHost) (index : String)
    (rows : List ExposureRow) (db : DecayDb score conf)
    (run : DecayRun score conf) : Prop where
  law : EvictionLaw host index rows db run
  documents : forall doc, doc ∈ run.db.documents -> exists old,
    old ∈ db.documents ∧ old.doc_id = doc.doc_id ∧ old.path = doc.path
  learnings : forall row, row ∈ run.db.learnings -> exists old,
    old ∈ db.learnings ∧ old.learning_id = row.learning_id ∧
      old.pinned = row.pinned ∧ old.status = row.status

variable {host : DecayHost score conf} {index : String}
variable {rows : List ExposureRow} {db : DecayDb score conf}
variable {run : DecayRun score conf}

theorem decayInv_start :
    DecayInv host.toLedgerHost index rows db (DecayRun.start db) where
  law :=
    { evictedLearning := by
        intro lid doc_ids hmem
        cases hmem
      evictedDocument := by
        intro did path hmem
        cases hmem
      demotedLearning := by
        intro lid hmem
        cases hmem
      demotedDocument := by
        intro did hmem
        cases hmem }
  documents := fun doc hdoc => ⟨doc, hdoc, rfl, rfl⟩
  learnings := fun row hrow => ⟨row, hrow, rfl, rfl, rfl⟩

/-- What an eviction leaves of the tables. -/
theorem evictLearning_frame (lid : Nat) (db : DecayDb score conf) :
    (forall doc, doc ∈ (evictLearning host lid db).2.2.documents ->
      doc ∈ db.documents) ∧
    (forall row, row ∈ (evictLearning host lid db).2.2.learnings ->
      exists old, old ∈ db.learnings ∧ old.learning_id = row.learning_id ∧
        old.pinned = row.pinned ∧ old.status = row.status) ∧
    (forall tombstone, tombstone ∈ (evictLearning host lid db).1.toList ->
      exists doc_ids, tombstone = Tombstone.learning lid doc_ids) := by
  unfold evictLearning
  dsimp only
  split
  · constructor
    · exact fun _ hdoc => hdoc
    constructor
    · exact fun row hrow => ⟨row, hrow, rfl, rfl, rfl⟩
    · intro tombstone hmem
      cases hmem
  · constructor
    · exact fun _ hdoc => (List.mem_filter.mp hdoc).left
    constructor
    · intro row hrow
      rcases List.mem_map.mp hrow with ⟨old, hold, heq⟩
      refine ⟨old, (List.mem_filter.mp hold).left, ?_⟩
      rw [← heq]
      split
      · exact ⟨rfl, rfl, rfl⟩
      · exact ⟨rfl, rfl, rfl⟩
    · intro tombstone hmem
      exact ⟨_, List.mem_singleton.mp hmem⟩

theorem evictDocument_frame (did : Nat) (db : DecayDb score conf) :
    (forall doc, doc ∈ (evictDocument did db).2.documents ->
      doc ∈ db.documents) ∧
    (evictDocument did db).2.learnings = db.learnings ∧
    (forall tombstone, tombstone ∈ (evictDocument did db).1.toList ->
      exists doc, doc ∈ db.documents ∧ doc.doc_id = did ∧
        tombstone = Tombstone.document did doc.path) := by
  unfold evictDocument
  cases hfound : db.documents.find? fun doc => doc.doc_id = did with
  | none =>
      dsimp only
      constructor
      · exact fun _ hdoc => hdoc
      constructor
      · rfl
      · intro tombstone hmem
        cases hmem
  | some doc =>
      dsimp only
      constructor
      · exact fun _ hdoc => (List.mem_filter.mp hdoc).left
      constructor
      · rfl
      · intro tombstone hmem
        have hdid := List.find?_some hfound
        exact ⟨doc, List.mem_of_find?_eq_some hfound,
          of_decide_eq_true hdid, List.mem_singleton.mp hmem⟩

theorem DecayInv.evictLearning
    (h : DecayInv host.toLedgerHost index rows db run) {lid : Nat}
    (hjust : EvictableLearning host.toLedgerHost index rows lid) :
    DecayInv host.toLedgerHost index rows db (run.evictLearning host lid) := by
  rcases @evictLearning_frame _ _ host lid run.db with
    ⟨hdocuments, hlearnings, htombstones⟩
  have hnew : forall tombstone,
      tombstone ∈ (run.evictLearning host lid).tombstones ->
        tombstone ∈ run.tombstones ∨
          exists doc_ids, tombstone = Tombstone.learning lid doc_ids := by
    intro tombstone hmem
    rcases List.mem_append.mp hmem with hold | hlast
    · exact Or.inl hold
    · exact Or.inr (htombstones tombstone hlast)
  constructor
  · constructor
    · intro other doc_ids hmem
      rcases hnew _ hmem with hold | ⟨ids, heq⟩
      · exact h.law.evictedLearning other doc_ids hold
      · cases heq
        exact hjust
    · intro did path hmem
      rcases hnew _ hmem with hold | ⟨ids, heq⟩
      · exact h.law.evictedDocument did path hold
      · cases heq
    · exact h.law.demotedLearning
    · exact h.law.demotedDocument
  · exact fun doc hdoc => h.documents doc (hdocuments doc hdoc)
  · intro row hrow
    rcases hlearnings row hrow with ⟨mid, hmid, hid, hpinned, hstatus⟩
    rcases h.learnings mid hmid with ⟨old, hold, hid', hpinned', hstatus'⟩
    exact ⟨old, hold, hid'.trans hid, hpinned'.trans hpinned,
      hstatus'.trans hstatus⟩

theorem DecayInv.evictDocument
    (hkeyed : KeyedDocuments db) (h : DecayInv host.toLedgerHost index rows db run)
    {doc : DecayDocument score} (hdoc : doc ∈ db.documents)
    (hjust : EvictableDocument host.toLedgerHost index rows doc.doc_id
      doc.path) :
    DecayInv host.toLedgerHost index rows db
      (run.evictDocument doc.doc_id) := by
  rcases evictDocument_frame doc.doc_id run.db with
    ⟨hdocuments, hlearnings, htombstones⟩
  have hnew : forall tombstone,
      tombstone ∈ (run.evictDocument doc.doc_id).tombstones ->
        tombstone ∈ run.tombstones ∨
          tombstone = Tombstone.document doc.doc_id doc.path := by
    intro tombstone hmem
    rcases List.mem_append.mp hmem with hold | hlast
    · exact Or.inl hold
    · rcases htombstones tombstone hlast with ⟨found, hfound, hid, heq⟩
      rcases h.documents found hfound with ⟨old, hold, hold_id, hold_path⟩
      have hsame : old = doc :=
        List.inj_on_of_nodup_map hkeyed hold hdoc (hold_id.trans hid)
      rw [heq, ← hold_path, hsame]
      exact Or.inr rfl
  constructor
  · constructor
    · intro lid doc_ids hmem
      rcases hnew _ hmem with hold | heq
      · exact h.law.evictedLearning lid doc_ids hold
      · cases heq
    · intro did path hmem
      rcases hnew _ hmem with hold | heq
      · exact h.law.evictedDocument did path hold
      · cases heq
        exact hjust
    · exact h.law.demotedLearning
    · exact h.law.demotedDocument
  · exact fun other hother => h.documents other (hdocuments other hother)
  · intro row hrow
    have hsame : row ∈ run.db.learnings := by
      rw [← hlearnings]
      exact hrow
    exact h.learnings row hsame

theorem DecayInv.setScore
    (h : DecayInv host.toLedgerHost index rows db run)
    (doc : DecayDocument score) (new_score : score) :
    DecayInv host.toLedgerHost index rows db
      (run.setScore host doc new_score) := by
  unfold DecayRun.setScore
  split
  · constructor
    · exact ⟨h.law.evictedLearning, h.law.evictedDocument,
        h.law.demotedLearning, h.law.demotedDocument⟩
    · intro other hother
      rcases List.mem_map.mp hother with ⟨mid, hmid, heq⟩
      rcases h.documents mid hmid with ⟨old, hold, hid, hpath⟩
      refine ⟨old, hold, ?_⟩
      rw [← heq]
      split
      · exact ⟨hid, hpath⟩
      · exact ⟨hid, hpath⟩
    · exact h.learnings
  · exact h

/-!
## One document, one learning
-/

theorem documentStats_evicts
    {linked : Option Nat} {doc : DecayDocument score}
    (hevicts : (documentStats host (aggregateUseLedger host.toLedgerHost rows)
      linked doc).any UseLedgerStats.should_evict = true) :
    isIdentity doc = false ∧ doc.pinned = false ∧
      PassesEviction host.toLedgerHost rows
        (documentAliases host.toLedgerHost doc.doc_id doc.path linked) := by
  unfold documentStats at hevicts
  split at hevicts
  · cases hevicts
  · rename_i hfree
    rw [Bool.or_eq_true, not_or, Bool.not_eq_true, Bool.not_eq_true] at hfree
    exact ⟨hfree.left, hfree.right, (evicts_iff _ _ _).mp hevicts⟩

theorem documentStats_demotes
    {linked : Option Nat} {doc : DecayDocument score}
    (hdemotes : (documentStats host (aggregateUseLedger host.toLedgerHost rows)
      linked doc).any UseLedgerStats.should_demote = true) :
    isIdentity doc = false ∧ doc.pinned = false ∧
      PassesDemotion host.toLedgerHost rows
        (documentAliases host.toLedgerHost doc.doc_id doc.path linked) := by
  unfold documentStats at hdemotes
  split at hdemotes
  · cases hdemotes
  · rename_i hfree
    rw [Bool.or_eq_true, not_or, Bool.not_eq_true, Bool.not_eq_true] at hfree
    exact ⟨hfree.left, hfree.right, (demotes_iff _ _ _).mp hdemotes⟩

theorem decayInv_document
    (hkeyed : KeyedDocuments db) (hfair : FairTo host.toLedgerHost index rows db)
    (h : DecayInv host.toLedgerHost index rows db run)
    {doc : DecayDocument score} (hdoc : doc ∈ db.documents) :
    DecayInv host.toLedgerHost index rows db
      (decayDocument host (aggregateUseLedger host.toLedgerHost rows)
        (linkedLearning db.learning_documents) run doc) := by
  unfold decayDocument
  dsimp only
  split
  · exact h
  · split
    · rename_i hevicts
      rcases documentStats_evicts hevicts with ⟨hidentity, hpinned, hpasses⟩
      have hjust := (hfair.document doc hdoc hidentity hpinned).evict hpasses
      cases hlinked : linkedLearning db.learning_documents doc.doc_id with
      | none =>
          rw [hlinked] at hjust
          exact h.evictDocument hkeyed hdoc hjust
      | some lid =>
          rw [hlinked] at hjust
          exact h.evictLearning hjust
    · split
      · rename_i hdemotes
        rcases documentStats_demotes hdemotes with
          ⟨hidentity, hpinned, hpasses⟩
        have hjust :=
          (hfair.document doc hdoc hidentity hpinned).demote hpasses
        have hscored := h.setScore doc
          (host.demoteScore (host.newScore doc.doc_id))
        constructor
        · constructor
          · exact hscored.law.evictedLearning
          · exact hscored.law.evictedDocument
          · exact hscored.law.demotedLearning
          · intro did hmem
            rcases List.mem_append.mp hmem with hold | hlast
            · exact h.law.demotedDocument did hold
            · rw [List.mem_singleton.mp hlast]
              exact ⟨doc, hdoc, rfl, hjust⟩
        · exact hscored.documents
        · exact hscored.learnings
      · exact h.setScore doc _

theorem decayInv_learning
    (hfair : FairTo host.toLedgerHost index rows db)
    (h : DecayInv host.toLedgerHost index rows db run)
    {row old : DecayLearning conf} (hold : old ∈ db.learnings)
    (hid : old.learning_id = row.learning_id)
    (hpin : old.pinned = row.pinned)
    (hstatus : old.status.getD "active" = "active") :
    DecayInv host.toLedgerHost index rows db
      (decayLearning host (aggregateUseLedger host.toLedgerHost rows) run
        row) := by
  unfold decayLearning
  split
  · exact h
  · rename_i hfree
    rw [Bool.or_eq_true, not_or, Bool.not_eq_true, Bool.not_eq_true] at hfree
    have hfair_row := hfair.learning old hold hstatus (by
      rw [hpin]
      exact hfree.right)
    rw [hid] at hfair_row
    cases hstats : lookupStats (aggregateUseLedger host.toLedgerHost rows)
        (learningAliases row.learning_id) with
    | none =>
        exact h
    | some stats =>
        dsimp only
        split
        · rename_i hevicts
          apply h.evictLearning
          apply hfair_row.evict
          rw [← evicts_iff, hstats]
          exact hevicts
        · split
          · rename_i hdemotes
            rw [Bool.and_eq_true] at hdemotes
            have hjust : DemotableLearning host.toLedgerHost rows
                row.learning_id := by
              apply hfair_row.demote
              rw [← demotes_iff, hstats]
              exact hdemotes.left
            constructor
            · constructor
              · exact h.law.evictedLearning
              · exact h.law.evictedDocument
              · intro lid hmem
                rcases List.mem_append.mp hmem with hbefore | hlast
                · exact h.law.demotedLearning lid hbefore
                · rw [List.mem_singleton.mp hlast]
                  exact hjust
              · exact h.law.demotedDocument
            · exact h.documents
            · intro other hother
              rcases List.mem_map.mp hother with ⟨mid, hmid, heq⟩
              rcases h.learnings mid hmid with
                ⟨first, hfirst, hid', hpinned', hstatus'⟩
              refine ⟨first, hfirst, ?_⟩
              rw [← heq]
              split
              · exact ⟨hid', hpinned', hstatus'⟩
              · exact ⟨hid', hpinned', hstatus'⟩
          · exact h

/-- A pass over rows that are fair keeps the law. -/
theorem evictionLaw_of_fair
    (hkeyed : KeyedDocuments db) (hfair : FairTo host.toLedgerHost index rows db) :
    EvictionLaw host.toLedgerHost index rows db (runDecay host rows db) := by
  unfold runDecay
  dsimp only
  have hdocuments : forall docs : List (DecayDocument score),
      (forall doc, doc ∈ docs -> doc ∈ db.documents) ->
      forall run, DecayInv host.toLedgerHost index rows db run ->
        DecayInv host.toLedgerHost index rows db
          (docs.foldl
            (decayDocument host (aggregateUseLedger host.toLedgerHost rows)
              (linkedLearning db.learning_documents)) run) := by
    intro docs
    induction docs with
    | nil =>
        exact fun _ _ hrun => hrun
    | cons doc rest ih =>
        intro hsub run hrun
        apply ih fun other hmem => hsub other (List.mem_cons_of_mem _ hmem)
        exact decayInv_document hkeyed hfair hrun
          (hsub doc (List.mem_cons_self ..))
  have hlearnings : forall learnings : List (DecayLearning conf),
      (forall row, row ∈ learnings -> exists old, old ∈ db.learnings ∧
        old.learning_id = row.learning_id ∧ old.pinned = row.pinned ∧
        old.status.getD "active" = "active") ->
      forall run, DecayInv host.toLedgerHost index rows db run ->
        DecayInv host.toLedgerHost index rows db
          (learnings.foldl
            (decayLearning host (aggregateUseLedger host.toLedgerHost rows))
            run) := by
    intro learnings
    induction learnings with
    | nil =>
        exact fun _ _ hrun => hrun
    | cons row rest ih =>
        intro hsub run hrun
        apply ih fun other hmem => hsub other (List.mem_cons_of_mem _ hmem)
        rcases hsub row (List.mem_cons_self ..) with
          ⟨old, hold, hid, hpin, hstatus⟩
        exact decayInv_learning hfair hrun hold hid hpin hstatus
  have hmid := hdocuments db.documents (fun _ hdoc => hdoc) _
    (@decayInv_start _ _ host index rows _)
  apply (hlearnings _ _ _ hmid).law
  intro row hrow
  rcases List.mem_filter.mp hrow with ⟨hmem, hcurrent⟩
  rcases hmid.learnings row hmem with ⟨old, hold, hid, hpin, hstatus⟩
  refine ⟨old, hold, hid, hpin, ?_⟩
  unfold DecayLearning.isCurrent at hcurrent
  rw [Bool.and_eq_true, decide_eq_true_eq] at hcurrent
  rw [hstatus]
  exact hcurrent.left

/-!
## One memory alone

Rows that are not fair to a memory break the law where it is the only one.
-/

def onlyLearning (lid : Nat) : DecayDb score conf where
  documents := []
  learnings :=
    [{ learning_id := lid
       agent_id := "main"
       content := ""
       confidence := none
       pinned := false
       status := none
       superseded_by := none }]
  learning_documents := []

def onlyDocument (did : Nat) (path : String) (linked : Option Nat) :
    DecayDb score conf where
  documents :=
    [{ doc_id := did
       path := path
       agent := "main"
       whole_document := false
       pinned := false
       memory_uri := none
       decay_score := none }]
  learnings := []
  learning_documents :=
    match linked with
    | none => []
    | some lid => [{ learning_id := lid, doc_id := did }]

/-- What is there to evict has its tombstone. -/
theorem evictLearning_tombstone
    {lid : Nat} (db : DecayDb score conf)
    (hthere : (db.learnings.any fun row => row.learning_id = lid) = true ∨
      (learningDocIds host lid db).isEmpty = false) :
    Tombstone.learning lid (learningDocIds host lid db) ∈
      ((DecayRun.start db).evictLearning host lid).tombstones := by
  have hneither : ¬ (((db.learnings.any fun row => row.learning_id = lid) =
      false && (learningDocIds host lid db).isEmpty) = true) := by
    intro hboth
    rw [Bool.and_eq_true, decide_eq_true_eq] at hboth
    rcases hthere with hlearning | hdocs
    · rw [hlearning] at hboth
      cases hboth.left
    · rw [hdocs] at hboth
      cases hboth.right
  unfold DecayRun.evictLearning DecayRun.start evictLearning
  dsimp only
  rw [if_neg hneither]
  exact List.mem_singleton.mpr rfl

theorem fairToLearning_of_law
    {lid : Nat}
    (h : EvictionLaw host.toLedgerHost index rows
      (onlyLearning lid : DecayDb score conf)
      (runDecay host rows (onlyLearning lid))) :
    FairToLearning host.toLedgerHost index rows lid := by
  have hevicts := evicts_iff host.toLedgerHost rows (learningAliases lid)
  have hdemotes := demotes_iff host.toLedgerHost rows (learningAliases lid)
  unfold runDecay onlyLearning DecayLearning.isCurrent at h
  simp only [List.foldl_nil, DecayRun.start, Option.getD_none,
    Option.isNone_none, decide_true, Bool.and_self, List.filter_cons_of_pos,
    List.filter_nil, List.foldl_cons] at h
  unfold decayLearning at h
  simp only [List.contains_nil, Bool.or_self, Bool.false_eq_true,
    if_false] at h
  cases hstats : lookupStats (aggregateUseLedger host.toLedgerHost rows)
      (learningAliases lid) with
  | none =>
      rw [hstats] at hevicts hdemotes
      constructor
      · intro hpasses
        cases hevicts.mpr hpasses
      · intro hpasses
        cases hdemotes.mpr hpasses
  | some stats =>
      rw [hstats] at h hevicts hdemotes
      dsimp only at h
      constructor
      · intro hpasses
        have hshould : stats.should_evict = true := hevicts.mpr hpasses
        rw [if_pos hshould] at h
        exact h.evictedLearning lid _
          (evictLearning_tombstone (onlyLearning lid)
            (Or.inl (by simp [onlyLearning])))
      · intro hpasses
        have hshould : stats.should_demote = true := hdemotes.mpr hpasses
        have hnot : ¬ stats.should_evict = true := fun hevict =>
          hpasses.right (hevicts.mp hevict)
        rw [if_neg hnot, hshould, if_pos (by rfl)] at h
        exact h.demotedLearning lid (List.mem_singleton.mpr rfl)

theorem decayDocument_learnings
    {ledger_map : String -> Option UseLedgerStats}
    {doc_to_learning : Nat -> Option Nat} {doc : DecayDocument score}
    (hnone : run.db.learnings = []) :
    (decayDocument host ledger_map doc_to_learning run doc).db.learnings =
      [] := by
  have hscore : forall new_score,
      (run.setScore host doc new_score).db.learnings = [] := by
    intro new_score
    unfold DecayRun.setScore
    split
    · exact hnone
    · exact hnone
  unfold decayDocument
  dsimp only
  split
  · exact hnone
  · split
    · split
      · unfold DecayRun.evictLearning evictLearning
        dsimp only
        split
        · exact hnone
        · rw [hnone]
          rfl
      · exact (evictDocument_frame doc.doc_id run.db).right.left.trans hnone
    · split
      · exact hscore _
      · exact hscore _

theorem fairToDocument_of_law
    {did : Nat} {path : String} {linked : Option Nat}
    (h : EvictionLaw host.toLedgerHost index rows
      (onlyDocument did path linked : DecayDb score conf)
      (runDecay host rows (onlyDocument did path linked))) :
    FairToDocument host.toLedgerHost index rows did path linked := by
  have hevicts := evicts_iff host.toLedgerHost rows
    (documentAliases host.toLedgerHost did path linked)
  have hdemotes := demotes_iff host.toLedgerHost rows
    (documentAliases host.toLedgerHost did path linked)
  have hlinked : linkedLearning
      (onlyDocument did path linked :
        DecayDb score conf).learning_documents did = linked := by
    cases linked with
    | none =>
        rfl
    | some lid =>
        simp [linkedLearning, onlyDocument]
  unfold runDecay at h
  dsimp only at h
  rw [show (onlyDocument did path linked :
    DecayDb score conf).documents = [_] from rfl, List.foldl_cons, List.foldl_nil,
    decayDocument_learnings rfl, List.filter_nil, List.foldl_nil] at h
  have hfree : ¬ ((false || textStarts "identity:" "main" || false) = true) := by
    decide
  unfold decayDocument documentStats isIdentity at h
  dsimp only at h
  rw [hlinked, if_neg hfree, if_neg (by simp [DecayRun.start])] at h
  constructor
  · intro hpasses
    rw [if_pos (hevicts.mpr hpasses)] at h
    cases linked with
    | none =>
        apply h.evictedDocument did path
        unfold DecayRun.evictDocument DecayRun.start evictDocument onlyDocument
        simp
    | some lid =>
        apply h.evictedLearning lid _ (evictLearning_tombstone _ (Or.inr _))
        simp [learningDocIds, onlyDocument, List.eraseDups_cons]
  · intro hpasses
    have hnot : ¬ (lookupStats (aggregateUseLedger host.toLedgerHost rows)
        (documentAliases host.toLedgerHost did path linked)).any
          UseLedgerStats.should_evict = true := fun hevict =>
      hpasses.right (hevicts.mp hevict)
    rw [if_neg hnot, if_pos (hdemotes.mpr hpasses)] at h
    rcases h.demotedDocument did (List.mem_singleton.mpr rfl) with
      ⟨doc, hdoc, _, hjust⟩
    rw [List.mem_singleton.mp hdoc, hlinked] at hjust
    exact hjust

theorem keyed_onlyDocument (did : Nat) (path : String) (linked : Option Nat) :
    KeyedDocuments (onlyDocument did path linked :
      DecayDb score conf) :=
  List.nodup_singleton did

theorem evictions_shown_unused
    (host : DecayHost score conf) (index : String) (rows : List ExposureRow) :
    (forall db : DecayDb score conf, KeyedDocuments db ->
      FairTo host.toLedgerHost index rows db ->
        EvictionLaw host.toLedgerHost index rows db (runDecay host rows db)) ∧
    ((forall db : DecayDb score conf, KeyedDocuments db ->
        EvictionLaw host.toLedgerHost index rows db (runDecay host rows db)) <->
      FairLedger host.toLedgerHost index rows) := by
  constructor
  · intro db hkeyed hfair
    exact evictionLaw_of_fair hkeyed hfair
  constructor
  · intro hlaw
    constructor
    · intro lid
      exact fairToLearning_of_law (hlaw (onlyLearning lid) List.nodup_nil)
    · intro did path linked
      exact fairToDocument_of_law
        (hlaw (onlyDocument did path linked) (keyed_onlyDocument ..))
  · intro hfair db hkeyed
    apply evictionLaw_of_fair hkeyed
    constructor
    · intro doc _ _ _
      exact hfair.document doc.doc_id doc.path _
    · intro row _ _ _
      exact hfair.learning row.learning_id

end Law

/-!
## A document and a learning with one number

Rows about document 7 of the personal index evict learning 7, which no row
names.
-/

def plainDecayHost : DecayHost Nat Nat where
  lower := id
  isdigit := Char.isDigit
  decimal := Char.isDigit
  newScore := fun _ => 0
  demoteScore := id
  roundScore := id
  differs := fun _ _ => false
  aboveHalf := fun _ => true
  demoteConfidence := fun confidence => confidence.getD 1
  durable_doc_path := fun _ _ _ => ""
  vault_path := none

def ignoredRow (mkey : String) (session_key : String) : ExposureRow where
  session_key := session_key
  mkey := mkey
  visible := true
  outcome := "ignored"
  credits := []
  vault := "/vault"

/-- Four rows from each of eight sessions. -/
def ignoredRows (mkey : String) : List ExposureRow :=
  ["a", "b", "c", "d", "e", "f", "g", "h"].flatMap fun session_key =>
    List.replicate 4 (ignoredRow mkey session_key)

theorem learning_evicted_for_document :
    ¬ forall (host : DecayHost Nat Nat) (index : String)
      (rows : List ExposureRow) (db : DecayDb Nat Nat), KeyedDocuments db ->
      EvictionLaw host.toLedgerHost index rows db (runDecay host rows db) := by
  intro hclaim
  have hlaw := hclaim plainDecayHost "personal" (ignoredRows "doc:personal:7")
    (onlyLearning 7) List.nodup_nil
  have hevicted : Tombstone.learning 7 [] ∈
      (runDecay plainDecayHost (ignoredRows "doc:personal:7")
        (onlyLearning 7)).tombstones := by
    decide +kernel
  have hshown := (hlaw.evictedLearning 7 [] hevicted).own.shown
  have hnone : ((ignoredRows "doc:personal:7").filter fun row =>
      (Memory.learning 7).named "personal" row && row.visible).length = 0 := by
    decide +kernel
  rw [hnone] at hshown
  cases hshown

theorem fair_to_learning_7 :
    FairToLearning plainDecayHost.toLedgerHost "personal"
      (ignoredRows "learning:7") 7 := by
  have hpasses : PassesEviction plainDecayHost.toLedgerHost
      (ignoredRows "learning:7") (learningAliases 7) := by
    constructor
    · decide +kernel
    · decide +kernel
    · decide +kernel
  constructor
  · intro _
    constructor
    · constructor
      · decide +kernel
      · decide +kernel
      · decide +kernel
    · constructor
      · decide +kernel
      · decide +kernel
      · decide +kernel
  · intro hdemotes
    exact absurd hpasses hdemotes.right

theorem evictions_shown_unused_learning :
    EvictionLaw plainDecayHost.toLedgerHost "personal"
        (ignoredRows "learning:7") (onlyLearning 7)
        (runDecay plainDecayHost (ignoredRows "learning:7")
          (onlyLearning 7)) ∧
      Tombstone.learning 7 [] ∈
        (runDecay plainDecayHost (ignoredRows "learning:7")
          (onlyLearning 7)).tombstones := by
  constructor
  · apply (evictions_shown_unused plainDecayHost "personal"
      (ignoredRows "learning:7")).left (onlyLearning 7) List.nodup_nil
    constructor
    · intro doc hdoc
      cases hdoc
    · intro row hrow _ _
      rw [List.mem_singleton.mp hrow]
      exact fair_to_learning_7
  · decide +kernel

end Daemon
end Minni
