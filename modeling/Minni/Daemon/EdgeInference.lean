import Minni.Foundation.PyText

/-!
# What a classifier says about pairs of memories

The classifier is a model: its answer is text that nobody vouches for.  One
validator takes a whole batch or nothing of it, and the coordinator binds the
batch to the prompt it has rendered itself before it looks at an edge.
-/

namespace Minni
namespace Daemon

open Foundation

/-!
## Edges
-/

inductive EdgeLabel where
  | updates
  | extends_
  | contradicts
  | relates
  | none_
  deriving DecidableEq, Repr

inductive EdgeDirection where
  | forward
  | backward
  | mutual_
  | none_
  deriving DecidableEq, Repr

/-- `VALID_EDGE_LABELS`. -/
def validEdgeLabel : String -> Option EdgeLabel
  | "updates" => some EdgeLabel.updates
  | "extends" => some EdgeLabel.extends_
  | "contradicts" => some EdgeLabel.contradicts
  | "relates" => some EdgeLabel.relates
  | "none" => some EdgeLabel.none_
  | _ => none

/-- `VALID_DIRECTIONS`. -/
def validDirection : String -> Option EdgeDirection
  | "forward" => some EdgeDirection.forward
  | "backward" => some EdgeDirection.backward
  | "mutual" => some EdgeDirection.mutual_
  | "none" => some EdgeDirection.none_
  | _ => none

def compatibleDirections : EdgeLabel -> List EdgeDirection
  | EdgeLabel.updates => [EdgeDirection.forward, EdgeDirection.backward]
  | EdgeLabel.extends_ => [EdgeDirection.forward, EdgeDirection.backward]
  | EdgeLabel.contradicts =>
      [EdgeDirection.mutual_, EdgeDirection.forward, EdgeDirection.backward]
  | EdgeLabel.relates => [EdgeDirection.mutual_]
  | EdgeLabel.none_ => [EdgeDirection.none_]

/-!
## One item of an answer

A value of another type than the one wanted is `none`.  A confidence is a
float: its exact value, unless it is not finite.
-/

inductive RawConfidence where
  | number (value : Rat)
  | notFinite
  | notNumber
  deriving DecidableEq

structure RawItem where
  keys : List String
  pair_id : Option String
  label : Option String
  direction : Option String
  confidence : RawConfidence
  supporting_evidence_indices : Option (List (Option Int))
  rationale : Option String
  deriving DecidableEq

structure InferredEdge where
  pair_id : String
  label : EdgeLabel
  direction : EdgeDirection
  confidence : Rat
  supporting_evidence_indices : List Int
  rationale : String
  deriving DecidableEq

def expectedItemKeys : List String :=
  ["pair_id", "label", "direction", "confidence",
    "supporting_evidence_indices", "rationale"]

def exactKeys (keys : List String) : Except String Unit :=
  if expectedItemKeys.any fun key => !keys.contains key then
    Except.error "missing_field"
  else if keys.any fun key => !expectedItemKeys.contains key then
    Except.error "unknown_field"
  else
    Except.ok ()

def checkPairId (expected seen : List String) (pair_id : Option String) :
    Except String String :=
  match pair_id with
  | none => Except.error "missing_or_invalid_pair_id"
  | some id =>
      if id = "" then Except.error "missing_or_invalid_pair_id"
      else if !expected.contains id then Except.error "unknown_pair_id"
      else if seen.contains id then Except.error "duplicate_pair_id"
      else Except.ok id

def checkLabel (label : Option String) : Except String EdgeLabel :=
  match label.bind validEdgeLabel with
  | none => Except.error "invalid_label"
  | some valid => Except.ok valid

def checkDirection (label : EdgeLabel) (direction : Option String) :
    Except String EdgeDirection :=
  match direction.bind validDirection with
  | none => Except.error "invalid_direction"
  | some valid =>
      if (compatibleDirections label).contains valid then Except.ok valid
      else Except.error "incompatible_label_direction"

def checkConfidence (confidence : RawConfidence) : Except String Rat :=
  match confidence with
  | RawConfidence.number value =>
      if 0 <= value ∧ value <= 1 then Except.ok value
      else Except.error "invalid_confidence_range"
  | _ => Except.error "invalid_confidence"

def checkReference (line_count : Nat) (ref : Option Int) :
    Except String Int :=
  match ref with
  | none => Except.error "invalid_evidence_index_type"
  | some index =>
      if index < 1 then Except.error "invalid_evidence_index_value"
      else if index > line_count then
        Except.error "evidence_index_out_of_range"
      else Except.ok index

def checkEvidence (label : EdgeLabel) (line_count : Nat)
    (indices : Option (List (Option Int))) : Except String (List Int) :=
  match indices with
  | none => Except.error "invalid_evidence_indices"
  | some refs =>
      if label ≠ EdgeLabel.none_ ∧ refs = [] then
        Except.error "missing_evidence"
      else
        refs.mapM (checkReference line_count)

def checkRationale (rationale : Option String) : Except String String :=
  match rationale with
  | none => Except.error "missing_or_empty_rationale"
  | some text =>
      if PyText.strip text = "" then Except.error "missing_or_empty_rationale"
      else if text.length > 200 then Except.error "rationale_too_long"
      else Except.ok (PyText.strip text)

/-- One item, when the pairs `seen` were answered before it. -/
def validateItem (expected : List String) (line_counts : String -> Nat)
    (seen : List String) (item : RawItem) : Except String InferredEdge :=
  match exactKeys item.keys with
  | Except.error e => Except.error e
  | Except.ok () =>
  match checkPairId expected seen item.pair_id with
  | Except.error e => Except.error e
  | Except.ok pair_id =>
  match checkLabel item.label with
  | Except.error e => Except.error e
  | Except.ok label =>
  match checkDirection label item.direction with
  | Except.error e => Except.error e
  | Except.ok direction =>
  match checkConfidence item.confidence with
  | Except.error e => Except.error e
  | Except.ok confidence =>
  match checkEvidence label (line_counts pair_id)
      item.supporting_evidence_indices with
  | Except.error e => Except.error e
  | Except.ok indices =>
  match checkRationale item.rationale with
  | Except.error e => Except.error e
  | Except.ok rationale =>
      Except.ok
        { pair_id := pair_id
          label := label
          direction := direction
          confidence := confidence
          supporting_evidence_indices := indices
          rationale := rationale }

def validateItems (expected : List String) (line_counts : String -> Nat) :
    List String -> List RawItem -> Except String (List InferredEdge)
  | _, [] => Except.ok []
  | seen, item :: rest =>
      match validateItem expected line_counts seen item with
      | Except.error e => Except.error e
      | Except.ok edge =>
          match validateItems expected line_counts (edge.pair_id :: seen)
              rest with
          | Except.error e => Except.error e
          | Except.ok edges => Except.ok (edge :: edges)

/-- `validate_edge_inference_response` of a list of items.  The pairs and the
line counts come from the coordinator's own rendering. -/
def validateEdgeInferenceResponse (items : List RawItem)
    (expected_pair_ids : List String) (line_counts : String -> Nat) :
    Except String (List InferredEdge) :=
  if expected_pair_ids.contains "" then
    Except.error "invalid_expected_pair_id"
  else if !decide expected_pair_ids.Nodup then
    Except.error "duplicate_expected_pair_id"
  else
  match validateItems expected_pair_ids line_counts [] items with
  | Except.error e => Except.error e
  | Except.ok edges =>
      if expected_pair_ids.all fun id => (edges.map (·.pair_id)).contains id
      then Except.ok edges
      else Except.error "missing_pair_ids"

/-!
## The thresholds

They are floats; these are the values of the floats that are nearest to 0.88,
0.82, 0.78 and 0.96.
-/

def persistConfidence : EdgeLabel -> Rat
  | EdgeLabel.updates => 7926335344172073 / 9007199254740992
  | EdgeLabel.contradicts => 7926335344172073 / 9007199254740992
  | EdgeLabel.extends_ => 7385903388887613 / 9007199254740992
  | EdgeLabel.relates => 3512807709348987 / 4503599627370496
  -- labels of no edge have no threshold, and are left out before
  | EdgeLabel.none_ => 0

def supersedeConfidence : Rat :=
  4323455642275676 / 4503599627370496

end Daemon
end Minni
