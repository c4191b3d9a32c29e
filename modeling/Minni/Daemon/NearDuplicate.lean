import Minni.Daemon.Promotion
import Minni.Foundation.Collapse
import Minni.Foundation.Grams
import Minni.Foundation.Words

/-!
# Near duplicates

How alike two texts are: the share of the pieces of five words, or of five
characters, that their normal forms have in common.  An accepted text evicts
the learnings of its owner and category that are too much like it.
-/

namespace Minni
namespace Daemon

open Foundation

/-!
## Likeness
-/

section Texts

variable (lower : String -> String)

def isShingleChar (c : Char) : Bool :=
  ('a' ≤ c && c ≤ 'z') || ('0' ≤ c && c ≤ '9')

def normalizeForShingles (text : String) : List Char :=
  let cleaned := Collapse.runs ' '
    (fun c => !isShingleChar c && !PyText.isSpace c) (lower text).toList
  PyText.stripChars (Collapse.runs ' ' PyText.isSpace cleaned)

def fiveGrams {α : Type} [DecidableEq α] (xs : List α) : Finset (List α) :=
  (Grams.grams 5 xs).toFinset

def gramScores {α : Type} [DecidableEq α] (xs ys : List α) : List Rat :=
  if 5 ≤ xs.length && 5 ≤ ys.length then
    if fiveGrams xs ∪ fiveGrams ys = ∅ then []
    else [Grams.jaccard (fiveGrams xs) (fiveGrams ys)]
  else []

def maxScore : List Rat -> Rat
  | [] => 0
  | score :: scores => scores.foldl max score

def fiveGramJaccard (text_a text_b : String) : Rat :=
  let norm_a := normalizeForShingles lower text_a
  let norm_b := normalizeForShingles lower text_b
  if norm_a.isEmpty || norm_b.isEmpty then 0
  else if norm_a = norm_b then 1
  else
    maxScore
      (gramScores (Words.split PyText.isSpace norm_a)
          (Words.split PyText.isSpace norm_b) ++
        gramScores norm_a norm_b)

end Texts

def jaccardThreshold : Rat := 13 / 20

/-- The surroundings with the measure that the process has. -/
def Host.withShingles (host : Host) : Host :=
  { host with
    jaccardNear := fun text_a text_b =>
      decide (jaccardThreshold ≤ fiveGramJaccard host.lower text_a text_b) }

/-- The step of an accepting call that makes room for the text it has
stored. -/
def evictNearDuplicates (host : Host) (env : Env)
    (agent_id category content : String) (lid : Nat)
    (embedding : Option Embedding) : Governance Unit := do
  let near_dups ← scanNearDuplicates host env agent_id category content lid
    embedding
  Db.forEach near_dups (evictNearDuplicate env)

/-!
## Shared text
-/

section Shared

variable (lower : String -> String) (isAlnum : Char -> Bool)

/-- In lower case, with one blank for every run of characters that are neither
letters nor digits of any script. -/
def unicodeForm (text : String) : List Char :=
  Collapse.runs ' ' (fun c => !isAlnum c) (lower text).toList

def SharesNone {α : Type} [DecidableEq α] (xs ys : List α) : Prop :=
  fiveGrams xs ∩ fiveGrams ys = ∅

instance {α : Type} [DecidableEq α] (xs ys : List α) :
    Decidable (SharesNone xs ys) :=
  inferInstanceAs (Decidable (_ = _))

/-- Neither a piece of five words nor one of five characters is shared. -/
def SharesNoText (text_a text_b : String) : Prop :=
  SharesNone
      (Words.split PyText.isSpace (unicodeForm lower isAlnum text_a))
      (Words.split PyText.isSpace (unicodeForm lower isAlnum text_b)) ∧
    SharesNone (unicodeForm lower isAlnum text_a)
      (unicodeForm lower isAlnum text_b)

instance (text_a text_b : String) :
    Decidable (SharesNoText lower isAlnum text_a text_b) :=
  inferInstanceAs (Decidable (_ ∧ _))

end Shared

/-- A row of the table, whatever its column of successors holds by now. -/
def Stored (lid : Nat) (content : String) (embedding : Option Embedding)
    (s : Store) : Prop :=
  lid < s.nextLearning ∧
    (exists row, row ∈ s.learnings ∧ row.learning_id = lid) ∧
    forall row, row ∈ s.learnings -> row.learning_id = lid ->
      row.content = content ∧ row.embedding = embedding

/-- An eviction of near duplicates takes away only what shares text. -/
structure EvictsOnSharedText (host : Host) (isAlnum : Char -> Bool)
    (text_a text_b : String) : Prop where
  comm : fiveGramJaccard host.lower text_a text_b =
    fiveGramJaccard host.lower text_b text_a
  range : 0 ≤ fiveGramJaccard host.lower text_a text_b ∧
    fiveGramJaccard host.lower text_a text_b ≤ 1
  below : SharesNoText host.lower isAlnum text_a text_b ->
    fiveGramJaccard host.lower text_a text_b < jaccardThreshold
  not_found : SharesNoText host.lower isAlnum text_a text_b ->
    forall (agent_id category : String) (lid other : Nat)
      (embedding stored : Option Embedding) (s : Store),
      Stored other text_b stored s ->
      cosineReaches host (targetEmbedding lid embedding s) stored = false ->
      other ∉ findNearDuplicates host.withShingles agent_id category text_a
        lid embedding s
  kept : SharesNoText host.lower isAlnum text_a text_b ->
    forall (env : Env) (agent_id category : String) (lid other : Nat)
      (embedding stored : Option Embedding) (c : Connection Store),
      Stored other text_b stored c.committed ->
      Stored other text_b stored c.working ->
      cosineReaches host (targetEmbedding lid embedding c.working) stored =
        false ->
      Stored other text_b stored
          (evictNearDuplicates host.withShingles env agent_id category text_a
            lid embedding c).2.committed ∧
        Stored other text_b stored
          (evictNearDuplicates host.withShingles env agent_id category text_a
            lid embedding c).2.working

end Daemon
end Minni
