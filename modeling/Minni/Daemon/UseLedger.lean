import Minni.Foundation.KeyedTally
import Minni.Foundation.PyText
import Mathlib.Data.Finset.Card

/-!
# The use ledger and decay

The plugins log each exposure of a memory under its memory key.  The decay pass
counts the rows under every alias of their keys, looks each document and each
learning up by its own aliases, and demotes or evicts what was shown often and
never used.
-/

namespace Minni
namespace Daemon

open Foundation

/-!
## Rows and their aliases
-/

structure ExposureRow where
  session_key : String
  mkey : String
  visible : Bool
  outcome : String
  credits : List Nat
  /-- The vault under which the ledger file lies. -/
  vault : String
deriving DecidableEq

/-- The host's tables of characters. -/
structure LedgerHost where
  /-- `str.lower`. -/
  lower : String -> String
  /-- `str.isdigit` on one character. -/
  isdigit : Char -> Bool
  /-- What `\d` matches. -/
  decimal : Char -> Bool

/-- `split(":", 1)[1]`. -/
def afterFirstColon (text : String) : String :=
  String.ofList ((text.toList.dropWhile fun c => c ≠ ':').drop 1)

/-- The part after the last of a separator, or everything. -/
def afterLast (separator : Char) (text : String) : String :=
  String.ofList (text.toList.reverse.takeWhile fun c => c ≠ separator).reverse

/-- `os.path.basename`. -/
def basename (path : String) : String :=
  afterLast '/' path

def textStarts (start text : String) : Bool :=
  start.toList.isPrefixOf text.toList

def textEnds (ending text : String) : Bool :=
  ending.toList.isSuffixOf text.toList

section Keys

variable (host : LedgerHost)

def isDigits (text : String) : Bool :=
  !text.toList.isEmpty && text.toList.all host.isdigit

/-- `_expand_item_keys` of a text. -/
def expandItemKeys (raw_item : String) : List String :=
  let s := PyText.strip raw_item
  if s = "" then []
  else
    let numbered :=
      if textStarts "learn:" s then
        ["learning:" ++ afterFirstColon s, afterFirstColon s]
      else if textStarts "learning:" s then
        ["learn:" ++ afterFirstColon s, afterFirstColon s]
      else if textStarts "doc:" s then
        ["doc:" ++ afterLast ':' s, afterLast ':' s]
      else if isDigits host s then
        ["learning:" ++ s, "learn:" ++ s, "doc:" ++ s]
      else []
    let named :=
      if s.toList.contains '/' || textEnds ".md" s then [basename s] else []
    (s :: (numbered ++ named)).eraseDups

/-!
## Counting
-/

structure UseLedgerStats where
  surfaces : Nat
  uses : Nat
  sessions : Finset String
deriving DecidableEq

def UseLedgerStats.empty : UseLedgerStats where
  surfaces := 0
  uses := 0
  sessions := ∅

def EVICT_MIN_SURFACES : Nat := 25
def EVICT_MIN_SESSIONS : Nat := 8
def DEMOTE_MIN_SURFACES : Nat := 15
def DEMOTE_MIN_SESSIONS : Nat := 5

def UseLedgerStats.should_evict (stats : UseLedgerStats) : Bool :=
  stats.uses = 0 && EVICT_MIN_SURFACES ≤ stats.surfaces &&
    EVICT_MIN_SESSIONS ≤ stats.sessions.card

def UseLedgerStats.should_demote (stats : UseLedgerStats) : Bool :=
  stats.uses = 0 && DEMOTE_MIN_SURFACES ≤ stats.surfaces &&
    DEMOTE_MIN_SESSIONS ≤ stats.sessions.card && !stats.should_evict

def usedOutcomes : List String :=
  ["used", "cited", "cited_handle", "applied", "opened"]

def ExposureRow.was_used (row : ExposureRow) : Bool :=
  usedOutcomes.contains (host.lower (PyText.strip row.outcome)) ||
    !row.credits.isEmpty

/-- What one row adds under each of its aliases. -/
def addExposure (row : ExposureRow) (stats : UseLedgerStats) :
    UseLedgerStats where
  surfaces := stats.surfaces + 1
  uses := if row.was_used host then stats.uses + 1 else stats.uses
  sessions := insert row.session_key stats.sessions

/-- `aggregate_use_ledger` for exposure rows. -/
def aggregateUseLedger (rows : List ExposureRow) :
    String -> Option UseLedgerStats :=
  Tally.count (fun row => expandItemKeys host row.mkey) UseLedgerStats.empty
    (addExposure host) rows fun _ => none

/-!
## Looking up
-/

def learningKeys (learning_id : String) : List String :=
  ["learning:" ++ learning_id, "learn:" ++ learning_id, learning_id]

/-- The digits before a dash at the start of a file name. -/
def durableFilenameId (base : String) : Option String :=
  let digits := base.toList.takeWhile host.decimal
  if digits.isEmpty then none
  else if (base.toList.drop digits.length).head? = some '-' then
    some (String.ofList digits)
  else none

/-- The aliases that a learning is looked up by. -/
def learningAliases (learning_id : Nat) : List String :=
  learningKeys (toString learning_id)

/-- The aliases that a document is looked up by. -/
def documentAliases (doc_id : Nat) (path : String)
    (learning_id : Option Nat) : List String :=
  let linked :=
    match learning_id with
    | none => []
    | some lid => learningKeys (toString lid)
  let named :=
    if path = "" then []
    else
      [path, basename path] ++
        match durableFilenameId host (basename path) with
        | none => []
        | some lid => learningKeys lid
  ["doc:" ++ toString doc_id, toString doc_id] ++ linked ++ named

/-- The first alias that the ledger knows. -/
def lookupStats (ledger_map : String -> Option UseLedgerStats)
    (candidates : List String) : Option UseLedgerStats :=
  candidates.findSome? ledger_map

end Keys

/-!
## The tables
-/

structure DecayDocument (score : Type) where
  doc_id : Nat
  path : String
  agent : String
  whole_document : Bool
  pinned : Bool
  memory_uri : Option String
  decay_score : Option score

structure DecayLearning (conf : Type) where
  learning_id : Nat
  agent_id : String
  content : String
  confidence : Option conf
  pinned : Bool
  status : Option String
  superseded_by : Option Nat

structure LearningDocument where
  learning_id : Nat
  doc_id : Nat
deriving DecidableEq

structure DecayDb (score conf : Type) where
  documents : List (DecayDocument score)
  learnings : List (DecayLearning conf)
  learning_documents : List LearningDocument

/-- A line of the cold archive. -/
inductive Tombstone where
  | learning (learning_id : Nat) (doc_ids : List Nat)
  | document (doc_id : Nat) (path : String)
deriving DecidableEq

/-- Scores and confidences are floating point numbers. -/
structure DecayHost (score conf : Type) extends LedgerHost where
  /-- The score of a document from its age and its accesses. -/
  newScore : Nat -> score
  /-- Half of it, rounded. -/
  demoteScore : score -> score
  roundScore : score -> score
  /-- More than a thousandth apart; no score counts as one. -/
  differs : score -> Option score -> Bool
  aboveHalf : conf -> Bool
  demoteConfidence : Option conf -> conf
  /-- `durable_doc_path` of an owner, the vault and a content. -/
  durable_doc_path : String -> String -> String -> String
  vault_path : Option String

section Decay

variable {score conf : Type} (host : DecayHost score conf)

/-- `COALESCE(status, 'active') = 'active' AND superseded_by IS NULL`. -/
def DecayLearning.isCurrent (row : DecayLearning conf) : Bool :=
  row.status.getD "active" = "active" && row.superseded_by.isNone

/-!
## Eviction
-/

/-- The documents of a learning: linked, by their address, or at the path of
its projection. -/
def learningDocIds (lid : Nat) (db : DecayDb score conf) : List Nat :=
  let linked := (db.learning_documents.filter fun link =>
    link.learning_id = lid).map LearningDocument.doc_id
  let addressed := (db.documents.filter fun doc =>
    doc.memory_uri = some ("learning://" ++ toString lid)).map
      DecayDocument.doc_id
  let projected :=
    match db.learnings.find? (fun row => row.learning_id = lid),
        host.vault_path with
    | some row, some vault =>
        let agent := if row.agent_id = "" then "main" else row.agent_id
        (db.documents.filter fun doc =>
          doc.path = host.durable_doc_path agent vault row.content).map
            DecayDocument.doc_id
    | _, _ => []
  (linked ++ addressed ++ projected).eraseDups

/-- `evict_learning_to_cold_archive`: the tombstone if there is anything to
evict, the documents that went with it, and the tables after it. -/
def evictLearning (lid : Nat) (db : DecayDb score conf) :
    Option Tombstone × List Nat × DecayDb score conf :=
  let doc_ids := learningDocIds host lid db
  if (db.learnings.any fun row => row.learning_id = lid) = false &&
      doc_ids.isEmpty then
    (none, [], db)
  else
    let links := db.learning_documents.filter fun link =>
      link.learning_id ≠ lid
    let evicted_doc_ids := doc_ids.filter fun did =>
      !links.any fun link => link.doc_id = did
    (some (Tombstone.learning lid doc_ids), evicted_doc_ids,
      { documents := db.documents.filter fun doc =>
          !evicted_doc_ids.contains doc.doc_id
        learnings := (db.learnings.filter fun row =>
          row.learning_id ≠ lid).map fun row =>
            if row.superseded_by = some lid then
              { row with superseded_by := none }
            else row
        learning_documents := links })

/-- `evict_document_to_cold_archive`. -/
def evictDocument (did : Nat) (db : DecayDb score conf) :
    Option Tombstone × DecayDb score conf :=
  match db.documents.find? fun doc => doc.doc_id = did with
  | none => (none, db)
  | some doc =>
      (some (Tombstone.document did doc.path),
        { db with
          documents := db.documents.filter fun doc => doc.doc_id ≠ did
          learning_documents := db.learning_documents.filter fun link =>
            link.doc_id ≠ did })

/-!
## The pass
-/

/-- The tables during a pass, with what it evicted and demoted so far. -/
structure DecayRun (score conf : Type) where
  db : DecayDb score conf
  evicted_learning_ids : List Nat
  evicted_doc_ids : List Nat
  tombstones : List Tombstone
  demoted_doc_ids : List Nat
  demoted_learning_ids : List Nat

def DecayRun.start (db : DecayDb score conf) : DecayRun score conf where
  db := db
  evicted_learning_ids := []
  evicted_doc_ids := []
  tombstones := []
  demoted_doc_ids := []
  demoted_learning_ids := []

def DecayRun.evictLearning (run : DecayRun score conf) (lid : Nat) :
    DecayRun score conf :=
  let evicted := Daemon.evictLearning host lid run.db
  { run with
    db := evicted.2.2
    evicted_learning_ids := run.evicted_learning_ids ++ [lid]
    evicted_doc_ids := run.evicted_doc_ids ++ evicted.2.1
    tombstones := run.tombstones ++ evicted.1.toList }

def DecayRun.evictDocument (run : DecayRun score conf) (did : Nat) :
    DecayRun score conf :=
  let evicted := Daemon.evictDocument did run.db
  { run with
    db := evicted.2
    evicted_doc_ids := run.evicted_doc_ids ++ [did]
    tombstones := run.tombstones ++ evicted.1.toList }

/-- `UPDATE documents SET decay_score`, where the score has changed. -/
def DecayRun.setScore (run : DecayRun score conf)
    (doc : DecayDocument score) (new_score : score) : DecayRun score conf :=
  if host.differs new_score doc.decay_score then
    { run with
      db := { run.db with
        documents := run.db.documents.map fun other =>
          if other.doc_id = doc.doc_id then
            { other with decay_score := some (host.roundScore new_score) }
          else other } }
  else run

def isIdentity (doc : DecayDocument score) : Bool :=
  doc.whole_document || textStarts "identity:" doc.agent

variable (ledger_map : String -> Option UseLedgerStats)

/-- The stats that count for a document. -/
def documentStats (linked_lid : Option Nat) (doc : DecayDocument score) :
    Option UseLedgerStats :=
  if isIdentity doc || doc.pinned then none
  else
    lookupStats ledger_map
      (documentAliases host.toLedgerHost doc.doc_id doc.path linked_lid)

/-- One document of the pass. -/
def decayDocument (doc_to_learning : Nat -> Option Nat)
    (run : DecayRun score conf) (doc : DecayDocument score) :
    DecayRun score conf :=
  if run.evicted_doc_ids.contains doc.doc_id then run
  else
    let linked_lid := doc_to_learning doc.doc_id
    let ledger_st := documentStats host ledger_map linked_lid doc
    if ledger_st.any UseLedgerStats.should_evict then
      match linked_lid with
      | some lid => run.evictLearning host lid
      | none => run.evictDocument doc.doc_id
    else if ledger_st.any UseLedgerStats.should_demote then
      { run.setScore host doc (host.demoteScore (host.newScore doc.doc_id)) with
        demoted_doc_ids := run.demoted_doc_ids ++ [doc.doc_id] }
    else run.setScore host doc (host.newScore doc.doc_id)

def isAboveHalf (confidence : Option conf) : Bool :=
  match confidence with
  | none => true
  | some c => host.aboveHalf c

/-- One current learning of the pass. -/
def decayLearning (run : DecayRun score conf) (row : DecayLearning conf) :
    DecayRun score conf :=
  if run.evicted_learning_ids.contains row.learning_id || row.pinned then run
  else
    match lookupStats ledger_map (learningAliases row.learning_id) with
    | none => run
    | some stats =>
        if stats.should_evict then run.evictLearning host row.learning_id
        else if stats.should_demote && isAboveHalf host row.confidence then
          { run with
            db := { run.db with
              learnings := run.db.learnings.map fun other =>
                if other.learning_id = row.learning_id then
                  { other with
                    confidence := some (host.demoteConfidence row.confidence) }
                else other }
            demoted_learning_ids :=
              run.demoted_learning_ids ++ [row.learning_id] }
        else run

/-- The learning that each document is linked to, the last one that is read. -/
def linkedLearning (links : List LearningDocument) (doc_id : Nat) :
    Option Nat :=
  (links.reverse.find? fun link => link.doc_id = doc_id).map
    LearningDocument.learning_id

/-- `run_decay`: the documents as they were read at the start, then the
learnings that are current after that. -/
def runDecay (rows : List ExposureRow) (db : DecayDb score conf) :
    DecayRun score conf :=
  let ledger_map := aggregateUseLedger host.toLedgerHost rows
  let run := db.documents.foldl
    (decayDocument host ledger_map (linkedLearning db.learning_documents))
    (DecayRun.start db)
  (run.db.learnings.filter DecayLearning.isCurrent).foldl
    (decayLearning host ledger_map) run

end Decay

end Daemon
end Minni
