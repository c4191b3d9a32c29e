import Minni.Daemon.ReadGate
import Minni.Foundation.Dict
import Minni.Foundation.Replace
import Mathlib.Data.List.Sort

/-!
# Expanding a result

A result of a search is looked up again at a deeper tier.  Text of a document
leaves the daemon in an envelope that says where it comes from, and the body is
escaped so that it cannot close the envelope or open another one.
-/

namespace Minni
namespace Daemon

open Foundation

/-!
## Envelopes
-/

structure ExpandHost where
  read : ReadHost
  /-- `\w` of a regular expression. -/
  isWord : Char -> Bool
  isInstructionLike : String -> Bool
  /-- The label and the score that a model gives a text for a claim. -/
  scoreAttribution : Option String -> String -> Option (String × Json)
  attribution_model : Json
  /-- A float with three decimals. -/
  format3 : Json -> String
  format3_plain : forall value, '<' ∉ (format3 value).toList ∧
    '>' ∉ (format3 value).toList
  basename : String -> String
  instruction_body_perturbation_enabled : Bool

def replaceChar (c : Char) (new : List Char) (text : List Char) : List Char :=
  text.flatMap fun x => if x = c then new else [x]

/-- `str.replace`. -/
def replaceText (old new : List Char) (text : List Char) : List Char :=
  Replace.replaceHits (fun here => old.isPrefixOf here) old.length new text

def xmlAttrEscape (value : Json) : List Char :=
  let text := (strOf value).toList
  let text := replaceChar '&' "&amp;".toList text
  let text := replaceChar '"' "&quot;".toList text
  let text := replaceChar '<' "&lt;".toList text
  replaceChar '>' "&gt;".toList text

/-- What a letter of a pattern matches when case does not count; the dotless
and the dotted capital letter count as an `i`. -/
def sameLetter (letter c : Char) : Bool :=
  c = letter || c = letter.toLower ||
    (letter = 'I' && (c.toNat = 0x130 || c.toNat = 0x131))

def opensEvidence (here : List Char) : Bool :=
  let pattern := "<EVIDENCE".toList
  pattern.length ≤ here.length &&
    (pattern.zip here).all fun pair => sameLetter pair.1 pair.2

def evidenceBodyEscape (text : List Char) : List Char :=
  let safe := replaceChar '`' ['\\', '`'] text
  let safe := replaceText ['\n', '#'] ['\n', '\\', '#'] safe
  let safe := replaceText ['<', '/'] ['<', '\\', '/'] safe
  Replace.replaceHits opensEvidence 9 "&#60;EVIDENCE".toList safe

/-- `INSTRUCTION_BODY_BOUNDARY`. -/
def instructionBodyBoundary : Char := Char.ofNat 0x2063

section Perturb

variable (isWord : Char -> Bool)

def endsAtWord (text : List Char) : Bool :=
  match text.dropWhile PyText.isSpace with
  | [] => false
  | c :: _ => isWord c

/-- A mark goes in front of each white space between two words. -/
def markBoundaries : Option Char -> List Char -> List Char
  | _, [] => []
  | before, c :: rest =>
      if PyText.isSpace c && before.any isWord && endsAtWord isWord rest then
        instructionBodyBoundary :: c :: markBoundaries (some c) rest
      else c :: markBoundaries (some c) rest

def perturbInstructionLikeBody (escaped_text : List Char) : List Char :=
  markBoundaries isWord none
    (replaceChar instructionBodyBoundary
      [instructionBodyBoundary, instructionBodyBoundary] escaped_text)

end Perturb

section Envelope

variable (host : ExpandHost)

def normalizeAttributionLabel (label : Json) : Option String :=
  match host.read.lower (PyText.strip ((truthyText label).getD "")) with
  | "entailment" => some "entailed"
  | "entailed" => some "entailed"
  | "neutral" => some "neutral"
  | "contradiction" => some "contradicted"
  | "contradicted" => some "contradicted"
  | _ => none

structure Evidence where
  source : Json
  agent : Json
  status : Json
  privacy : Json
  score : Json
  instruction_like : Bool
  visibility : Json
  attribution : Json

def evidenceBody (instruction_like : Bool) (text : String) : List Char :=
  let body := evidenceBodyEscape text.toList
  if instruction_like && host.instruction_body_perturbation_enabled then
    perturbInstructionLikeBody host.isWord body
  else body

/-- The attributes of an envelope, without the end of its tag. -/
def evidenceAttributes (evidence : Evidence) : List Char :=
  let attr := fun (name : String) (value : Json) =>
    " ".toList ++ name.toList ++ "=\"".toList ++ xmlAttrEscape value ++
      "\"".toList
  let attribution :=
    match normalizeAttributionLabel host evidence.attribution with
    | none => []
    | some label => attr "attribution" (Json.str label)
  attr "source" evidence.source ++ attr "agent" evidence.agent ++
    attr "status" evidence.status ++ attr "privacy" evidence.privacy ++
    " score=\"".toList ++ (host.format3 evidence.score).toList ++
    "\" instruction_like=\"".toList ++
    (if evidence.instruction_like then "true" else "false").toList ++
    "\"".toList ++ attribution ++ attr "visibility" evidence.visibility

def openTag (evidence : Evidence) : List Char :=
  "<EVIDENCE".toList ++ evidenceAttributes host evidence ++ ['>']

def closeTag : List Char := "</EVIDENCE>".toList

def buildEvidenceEnvelope (evidence : Evidence) (text : String) : String :=
  String.ofList
    (openTag host evidence ++ evidenceBody host evidence.instruction_like text ++
      closeTag)

end Envelope

/-!
## The store
-/

structure DocumentRow where
  doc_id : Int
  path : String
  agent : Option String
  sigil : Option String
  decay_score : Json
  privacy_level : Option String
  page_type : Option String
  page_status : Option String
  access_count : Int
  last_accessed : Json
  /-- The columns that are not read here. -/
  others : List (String × Json)

structure ChunkRow where
  chunk_id : Int
  doc_id : Int
  chunk_text : String
  heading_context : Option String

structure ExpandStore where
  documents : List DocumentRow
  chunk_embeddings : List ChunkRow
  vault_fts : List (Int × Option String)

namespace ExpandStore

variable (store : ExpandStore)

def document (doc_id : Int) : Option DocumentRow :=
  store.documents.find? fun row => row.doc_id = doc_id

/-- The chunks of a document in the order of their ids. -/
def chunksOf (doc_id : Int) : List ChunkRow :=
  (store.chunk_embeddings.filter fun chunk => chunk.doc_id = doc_id).insertionSort
    fun a b => a.chunk_id ≤ b.chunk_id

def joined (chunk : ChunkRow) : Option (ChunkRow × DocumentRow) :=
  (store.document chunk.doc_id).map fun row => (chunk, row)

def byChunk (result_id : Int) : Option (ChunkRow × DocumentRow) :=
  (store.chunk_embeddings.filter fun chunk =>
    chunk.chunk_id = result_id).findSome? store.joined

def byDocument (result_id : Int) : Option (ChunkRow × DocumentRow) :=
  (store.chunksOf result_id).findSome? store.joined

def fetchFullDocument (doc_id : Int) : Option String :=
  match store.chunksOf doc_id with
  | [] =>
      match store.vault_fts.find? fun row => row.1 = doc_id with
      | some (_, some content) => if content = "" then none else some content
      | _ => none
  | chunks => some ("\n".intercalate (chunks.map (·.chunk_text)))

def recordAccess (now : Json) (doc_id : Int) : ExpandStore :=
  { store with
    documents := store.documents.map fun row =>
      if row.doc_id = doc_id then
        { row with
          access_count := row.access_count + 1
          last_accessed := now }
      else row }

end ExpandStore

/-!
## Results

A result is a dictionary, and a key that is missing reads as null.
-/

abbrev ResultFields := List (String × Json)

namespace ResultFields

def get (result : ResultFields) (key : String) : Json :=
  (result.lookup key).getD Json.null

def getOr (result : ResultFields) (key : String) (default : Json) : Json :=
  (result.lookup key).getD default

def has (result : ResultFields) (key : String) : Bool :=
  (result.lookup key).isSome

def isNone (result : ResultFields) (key : String) : Bool :=
  match result.get key with
  | Json.null => true
  | _ => false

def truthy (result : ResultFields) (key : String) : Bool :=
  (truthyText (result.get key)).isSome

def put (result : ResultFields) (key : String) (value : Json) : ResultFields :=
  Dict.set key value result

def update (result other : ResultFields) : ResultFields :=
  other.foldl (fun into entry => into.put entry.1 entry.2) result

/-- The same keys, as far as the result has them. -/
def keys (result : ResultFields) (names : List String) : ResultFields :=
  names.map fun name => (name, result.get name)

end ResultFields

def optionText : Option String -> Json
  | none => Json.null
  | some text => Json.str text

def orText (text : Option String) (fallback : String) : Json :=
  match text with
  | none => Json.str fallback
  | some "" => Json.str fallback
  | some text => Json.str text

inductive Depth where
  | headline
  | snippet
  | chunk
  | document
  deriving DecidableEq

def validDepth : String -> Option Depth
  | "headline" => some Depth.headline
  | "snippet" => some Depth.snippet
  | "chunk" => some Depth.chunk
  | "document" => some Depth.document
  | _ => none

def Depth.text : Depth -> String
  | headline => "headline"
  | snippet => "snippet"
  | chunk => "chunk"
  | document => "document"

def snippetMaxChars : Nat := 280

def ellipsis : List Char := [Char.ofNat 0x2026]

def cutText (text : List Char) : List Char :=
  if text.length > snippetMaxChars then text.take snippetMaxChars ++ ellipsis
  else text

def effectiveDecay (result : ResultFields) (fallback : Json) : Json :=
  if !result.isNone "decay_applied" then result.get "decay_applied"
  else if !result.isNone "decay_score" then result.get "decay_score"
  else fallback

section Depths

variable (host : ExpandHost) (result : ResultFields)

def pr2Fields (existing : ResultFields) : ResultFields :=
  result.keys ["confidence", "confidence_raw", "rationale", "privacy_level",
      "source_authority", "review_state", "instruction_like", "wikilink",
      "evidence_refs", "recommended_action"] ++
    [("recommended_wiki_updates",
      if result.truthy "recommended_wiki_updates" then
        result.get "recommended_wiki_updates"
      else Json.arr [])] ++
    result.keys ["attribution", "attribution_score", "attribution_model"] ++
    (if result.isNone "full_provenance" then []
    else result.keys ["full_provenance"]) ++
    (if result.isNone "evidence_envelope" then []
    else result.keys ["evidence_envelope"]) ++
    (if existing.has "provenance" then [] else result.keys ["provenance"])

def headlineFields : ResultFields :=
  [("source", result.getOr "source" (Json.str "")),
    ("filename", result.getOr "filename" (Json.str "")),
    ("score", result.getOr "score" (Json.int 0))] ++
    result.keys ["doc_id", "chunk_id", "confidence", "confidence_raw",
      "age_days", "layer"] ++
    [("decay_factor", effectiveDecay result (result.get "decay_factor"))] ++
    result.keys ["privacy_level", "review_state", "instruction_like",
      "attribution", "attribution_score", "attribution_model", "wikilink"] ++
    [("depth", Json.str "headline")] ++
    (if result.isNone "provenance" then [] else result.keys ["provenance"])

/-- The inside of an envelope is cut and its tags are kept. -/
def cutEnvelope (text : List Char) : List Char :=
  if "<EVIDENCE ".toList.isPrefixOf text && closeTag.isSuffixOf text then
    let open_tag := text.takeWhile (· ≠ '>') ++ ['>']
    let inner := (text.drop open_tag.length).take
      (text.length - closeTag.length - open_tag.length)
    open_tag ++ cutText inner ++ closeTag
  else cutText text

def textOf : Json -> String
  | Json.str text => text
  | _ => ""

def snippetText : Json :=
  match result.get "raw_chunk_text" with
  | Json.str raw_body =>
      Json.str (buildEvidenceEnvelope host
        { source := (firstTruthy (Json.obj result)
            ["source", "path", "filename"]).getD (Json.str "?")
          agent := result.getOr "agent" (Json.str "?")
          status := (firstTruthy (Json.obj result)
            ["review_state", "page_status"]).getD (Json.str "?")
          privacy := result.getOr "privacy_level" (Json.str "?")
          score := (firstTruthy (Json.obj result) ["score"]).getD (Json.int 0)
          instruction_like := result.truthy "instruction_like"
          visibility := result.getOr "visibility" (Json.str "authorized")
          attribution := result.get "attribution" }
        (String.ofList (cutText raw_body.toList)))
  | _ =>
      Json.str (String.ofList
        (cutEnvelope (textOf (result.get "chunk_text")).toList))

def snippetFields : ResultFields :=
  let out :=
    [("text", snippetText host result),
      ("source", result.getOr "source" (Json.str "")),
      ("filename", result.getOr "filename" (Json.str "")),
      ("heading", result.getOr "heading_context" (Json.str "")),
      ("score", result.getOr "score" (Json.int 0))] ++
      result.keys ["doc_id", "layer"] ++ [("depth", Json.str "snippet")] ++
      (if result.has "token_count" then result.keys ["token_count"] else [])
  ResultFields.update out (pr2Fields result out)

def builtProvenance : Json :=
  if result.truthy "provenance" then result.get "provenance"
  else
    Json.obj
      [("fts_rank", result.get "fts_rank"),
        ("semantic_rank", result.get "sem_rank"),
        ("rrf_score", result.get "rrf_score"),
        ("cross_encoder_score",
          result.getOr "raw_rerank_score" (result.get "rerank_score")),
        ("decay_factor", effectiveDecay result Json.null),
        ("doc_id", result.get "doc_id"),
        ("chunk_id", result.get "chunk_id"),
        ("agent_origin", result.getOr "agent" (Json.str "")),
        ("backend", Json.str "faiss-disk")]

def chunkFields (depth : Depth) : ResultFields :=
  let out :=
    [("text", result.getOr "chunk_text" (Json.str "")),
      ("source", result.getOr "source" (Json.str "")),
      ("filename", result.getOr "filename" (Json.str "")),
      ("heading", result.getOr "heading_context" (Json.str "")),
      ("score", result.getOr "score" (Json.int 0))] ++
      result.keys ["doc_id", "chunk_id"] ++
      [("agent", result.getOr "agent" (Json.str "")),
        ("sigil", result.getOr "sigil" (Json.str ""))] ++
      result.keys ["layer", "fts_rank", "sem_rank"] ++
      [("provenance", builtProvenance result),
        ("depth", Json.str depth.text)] ++
      (if result.has "token_count" then result.keys ["token_count"] else [])
  let out := ResultFields.update out (pr2Fields result out)
  if depth = Depth.document && result.has "full_document_text" then
    out.put "full_document_text" (result.get "full_document_text")
  else out

def applyDepth (depth : Depth) : ResultFields :=
  match depth with
  | Depth.headline => headlineFields result
  | Depth.snippet => snippetFields host result
  | Depth.chunk => chunkFields result Depth.chunk
  | Depth.document => chunkFields result Depth.document

def hydrationKeys : List String :=
  ["requested_depth", "delivered_depth", "document_hydration"]

def stampProvenance (raw projected : ResultFields) : ResultFields :=
  match projected.get "provenance" with
  | Json.obj prov =>
      projected.put "provenance"
        (Json.obj (ResultFields.update prov (raw.keys hydrationKeys)))
  | _ => projected

def projectDepth (depth : Depth) : ResultFields :=
  let apply_as :=
    match result.truthy "document_hydration",
        validDepth (textOf (result.get "delivered_depth")) with
    | true, some delivered => delivered
    | _, _ => depth
  let projected := (hydrationKeys.filter result.has).foldl
    (fun into key => into.put key (result.get key))
    (applyDepth host result apply_as)
  if result.truthy "document_hydration" then
    stampProvenance result
      (projected.put "depth"
        ((firstTruthy (Json.obj result) ["delivered_depth"]).getD
          (Json.str "chunk")))
  else projected

end Depths

/-!
## Expanding
-/

structure ExpandCall where
  result_id : Int
  depth : String
  update_access : Bool
  principal : Option EffectivePrincipal
  workspace : String
  claim : Option String
  id_kind : String
  /-- The clock, and whether the document is read before the deadline. -/
  now : Json
  in_time : Bool

def ExpandCall.tier (call : ExpandCall) : Depth :=
  (validDepth call.depth).getD Depth.chunk

section Expand

variable (host : ExpandHost)

def normalizedKind (call : ExpandCall) : String :=
  host.read.lower
    (PyText.strip (if call.id_kind = "" then "auto" else call.id_kind))

/-- The row that an id stands for: a chunk's, or else the first chunk of a
document. -/
def resolveRow (store : ExpandStore) (result_id : Int) (kind : String) :
    Option (ChunkRow × DocumentRow) :=
  let chunk :=
    if kind = "auto" || kind = "chunk" then store.byChunk result_id else none
  match chunk with
  | some row => some row
  | none =>
      if kind = "auto" || kind = "doc" then store.byDocument result_id else none

def rawResult (chunk : ChunkRow) (row : DocumentRow) : ResultFields :=
  [("doc_id", Json.int row.doc_id),
    ("chunk_id", Json.int chunk.chunk_id),
    ("path", Json.str row.path),
    ("source", Json.str row.path),
    ("filename", Json.str (host.basename row.path)),
    ("agent", optionText row.agent),
    ("sigil", optionText row.sigil),
    ("score", Json.num (JsonNumber.other "0.0")),
    ("fts_rank", Json.null),
    ("sem_rank", Json.null),
    ("rrf_score", Json.null),
    ("rerank_score", Json.null),
    ("decay_score", row.decay_score),
    ("chunk_text", Json.str chunk.chunk_text),
    ("heading_context", orText chunk.heading_context ""),
    ("token_count", Json.int 0),
    ("confidence", Json.null),
    ("age_days", Json.null),
    ("privacy_level", orText row.privacy_level "safe"),
    ("page_type", optionText row.page_type),
    ("page_status", orText row.page_status "candidate")]

def hydrationDeadline : String := "search deadline; skipped full document"

def stampHydrationDegraded (raw : ResultFields) : ResultFields :=
  let stamps :=
    [("requested_depth", Json.str "document"),
      ("delivered_depth", Json.str "chunk"),
      ("document_hydration", Json.str hydrationDeadline)]
  let raw := ResultFields.update raw stamps
  match raw.get "provenance" with
  | Json.obj prov =>
      raw.put "provenance" (Json.obj (ResultFields.update prov stamps))
  | _ => raw

def hydrate (store : ExpandStore) (call : ExpandCall) (doc_id : Int)
    (raw : ResultFields) : ResultFields :=
  if call.tier = Depth.document then
    if call.in_time then
      raw.put "full_document_text"
        (optionText (store.fetchFullDocument doc_id))
    else stampHydrationDegraded raw
  else raw

def evidenceText (raw : ResultFields) : String :=
  (firstText (Json.obj raw) ["full_document_text", "chunk_text"]).getD ""

def evidenceOf (raw : ResultFields) : Evidence where
  source := raw.getOr "path" (Json.str "?")
  agent := raw.getOr "agent" (Json.str "?")
  status := raw.getOr "page_status" (Json.str "?")
  privacy := raw.getOr "privacy_level" (Json.str "?")
  score := (firstTruthy (Json.obj raw) ["score"]).getD (Json.int 0)
  instruction_like := raw.truthy "instruction_like"
  visibility := raw.getOr "visibility" (Json.str "authorized-via-expand")
  attribution := raw.get "attribution"

def addFullProvenance (raw : ResultFields) : ResultFields :=
  if raw.truthy "instruction_like" || !raw.isNone "attribution_score" then
    let existing_full :=
      match raw.get "full_provenance" with
      | Json.obj fields => fields
      | _ => []
    let scored :=
      if raw.isNone "attribution_score" then []
      else
        raw.keys ["attribution", "attribution_score", "attribution_model"]
    raw.put "full_provenance"
      (Json.obj (ResultFields.update existing_full scored))
  else raw

/-- What is added to a result for a principal that may read it. -/
def discloseTo (p : EffectivePrincipal) (claim : Option String)
    (raw : ResultFields) : ResultFields :=
  let txt := evidenceText raw
  let raw := raw.put "instruction_like" (Json.bool (host.isInstructionLike txt))
  let raw :=
    match host.scoreAttribution claim txt with
    | none => raw
    | some (label, score) =>
        ResultFields.update raw
          [("attribution", Json.str label), ("attribution_score", score),
            ("attribution_model", host.attribution_model)]
  let raw := raw.put "visibility" (Json.str "authorized-via-expand")
  let raw := raw.put "reasoning"
    (Json.str ("expand can_read_document passed for " ++ p.agent_id))
  let envelope := Json.str (buildEvidenceEnvelope host (evidenceOf raw) txt)
  let raw := addFullProvenance (raw.put "evidence_envelope" envelope)
  let raw :=
    if raw.has "chunk_text" then raw.put "chunk_text" envelope else raw
  if raw.has "full_document_text" then raw.put "full_document_text" envelope
  else raw

def expandWorkspace (p : EffectivePrincipal) (call : ExpandCall) : String :=
  if call.workspace = "" then p.workspace_id else call.workspace

def expandResult (store : ExpandStore) (call : ExpandCall) :
    Except String (Option ResultFields) × ExpandStore :=
  let kind := normalizedKind host call
  if ! ["auto", "chunk", "doc"].contains kind then
    (Except.error "unknown id_kind", store)
  else
    match resolveRow store call.result_id kind with
    | none => (Except.ok none, store)
    | some (chunk, row) =>
        let raw := hydrate store call row.doc_id (rawResult host chunk row)
        let store :=
          if call.update_access then store.recordAccess call.now row.doc_id
          else store
        match call.principal with
        | none => (Except.ok (some (projectDepth host raw call.tier)), store)
        | some p =>
            if canReadDocument host.read (some p) (expandWorkspace p call)
                (Json.obj raw) then
              (Except.ok (some (projectDepth host
                (discloseTo host p call.claim raw) call.tier)), store)
            else (Except.ok none, store)

end Expand

end Daemon
end Minni
