import Minni.Daemon.Expand

/-!
# Expanded text stays in one envelope

The escaped body cannot hold a tag of an envelope, no attribute can hold a
bracket, and cutting a body brings in no tag.  The access to a document is
counted before the read gate is asked, so a denied call leaves a trace wherever
it counts accesses at all.
-/

namespace Minni
namespace Daemon

open Foundation

/-!
## Bodies
-/

def openMark : List Char := "<EVIDENCE".toList

/-- No tag of an envelope is inside. -/
structure Tagless (text : List Char) : Prop where
  opens : ¬ openMark <:+: text
  closes : ¬ ['<', '/'] <:+: text

theorem opensEvidence_of_prefix {text : List Char} (h : openMark <+: text) :
    opensEvidence text = true := by
  rcases h with ⟨rest, hrest⟩
  rw [← hrest]
  unfold opensEvidence openMark
  simp [sameLetter]

theorem apart_of_tails {new mark : List Char}
    (h : (new.tails.all fun s =>
      s.isEmpty || (!s.isPrefixOf mark && !mark.isPrefixOf s)) = true) :
    forall s, s ≠ [] -> s <:+ new -> ¬ s <+: mark ∧ ¬ mark <+: s := by
  intro s hs hsuffix
  have hmem := List.all_eq_true.mp h s ((List.mem_tails s new).mpr hsuffix)
  have hempty : s.isEmpty = false := by
    cases s with
    | nil => exact absurd rfl hs
    | cons c s => rfl
  rw [hempty, Bool.false_or, Bool.and_eq_true] at hmem
  constructor
  · intro hprefixed
    have htrue := List.isPrefixOf_iff_prefix.mpr hprefixed
    rw [htrue] at hmem
    cases hmem.left
  · intro hprefixed
    have htrue := List.isPrefixOf_iff_prefix.mpr hprefixed
    rw [htrue] at hmem
    cases hmem.right

theorem tagless_evidenceBodyEscape (text : List Char) :
    Tagless (evidenceBodyEscape text) := by
  unfold evidenceBodyEscape
  dsimp only
  generalize replaceText ['\n', '#'] ['\n', '\\', '#']
    (replaceChar '`' ['\\', '`'] text) = safe
  have hcloses : ¬ ['<', '/'] <:+:
      replaceText ['<', '/'] ['<', '\\', '/'] safe := by
    apply Replace.not_infix_replaceFrom rfl
    · decide
    · exact apart_of_tails (by decide)
    · intro here h
      exact List.isPrefixOf_iff_prefix.mpr h
  constructor
  · apply Replace.not_infix_replaceFrom rfl
    · decide
    · exact apart_of_tails (by decide)
    · intro here h
      exact opensEvidence_of_prefix h
  · apply Replace.not_infix_replaceFrom_of rfl
    · decide
    · exact apart_of_tails (by decide)
    · exact hcloses

theorem tagless_of_inserted {mark : Char} {text out : List Char}
    (h : Replace.Inserted mark text out) (hopen : mark ∉ openMark)
    (hclose : mark ∉ ['<', '/']) (htext : Tagless text) :
    Tagless out where
  opens := by
    intro hinfixed
    exact htext.opens (Replace.infix_of_inserted h hopen (by decide) hinfixed)
  closes := by
    intro hinfixed
    exact htext.closes (Replace.infix_of_inserted h hclose (by decide) hinfixed)

theorem inserted_replaceChar (mark : Char) (text : List Char) :
    Replace.Inserted mark text (replaceChar mark [mark, mark] text) := by
  induction text with
  | nil => exact Replace.Inserted.nil
  | cons c text ih =>
      unfold replaceChar at ih ⊢
      rw [List.flatMap_cons]
      split
      · rename_i hc
        rw [hc]
        exact Replace.Inserted.add (Replace.Inserted.keep mark ih)
      · exact Replace.Inserted.keep c ih

theorem inserted_markBoundaries (isWord : Char -> Bool) (before : Option Char)
    (text : List Char) :
    Replace.Inserted instructionBodyBoundary text
      (markBoundaries isWord before text) := by
  induction text generalizing before with
  | nil => exact Replace.Inserted.nil
  | cons c text ih =>
      rw [markBoundaries]
      split
      · exact Replace.Inserted.add (Replace.Inserted.keep c (ih _))
      · exact Replace.Inserted.keep c (ih _)

theorem tagless_evidenceBody (host : ExpandHost) (instruction_like : Bool)
    (text : String) :
    Tagless (evidenceBody host instruction_like text) := by
  unfold evidenceBody
  dsimp only
  have hbody := tagless_evidenceBodyEscape text.toList
  split
  · unfold perturbInstructionLikeBody
    apply tagless_of_inserted (inserted_markBoundaries ..) (by decide)
      (by decide)
    exact tagless_of_inserted (inserted_replaceChar ..) (by decide) (by decide)
      hbody
  · exact hbody

theorem tagless_cutText {text : List Char} (h : Tagless text) :
    Tagless (cutText text) := by
  unfold cutText
  split
  · have htake : forall mark : List Char, ¬ mark <:+: text ->
        ¬ mark <:+: text.take snippetMaxChars := by
      intro mark hmark hinfixed
      exact hmark (List.IsInfix.trans hinfixed (List.take_prefix ..).isInfix)
    constructor
    · exact Replace.not_infix_concat (by decide) (by decide)
        (htake _ h.opens)
    · exact Replace.not_infix_concat (by decide) (by decide)
        (htake _ h.closes)
  · exact h

/-!
## Tags
-/

/-- Neither bracket is in the text. -/
def Plain (text : List Char) : Prop :=
  '<' ∉ text ∧ '>' ∉ text

theorem plain_append {a b : List Char} (ha : Plain a) (hb : Plain b) :
    Plain (a ++ b) := by
  constructor
  · intro h
    rcases List.mem_append.mp h with h | h
    · exact ha.left h
    · exact hb.left h
  · intro h
    rcases List.mem_append.mp h with h | h
    · exact ha.right h
    · exact hb.right h

theorem mem_replaceChar {c x : Char} {new text : List Char}
    (h : x ∈ replaceChar c new text) :
    x ∈ new ∨ (x ≠ c ∧ x ∈ text) := by
  rcases List.mem_flatMap.mp h with ⟨y, hy, hx⟩
  split at hx
  · exact Or.inl hx
  · rename_i hne
    rw [List.mem_singleton.mp hx]
    exact Or.inr ⟨hne, hy⟩

theorem plain_xmlAttrEscape (value : Json) : Plain (xmlAttrEscape value) := by
  unfold xmlAttrEscape
  dsimp only
  generalize replaceChar '"' "&quot;".toList
    (replaceChar '&' "&amp;".toList (strOf value).toList) = text
  constructor
  · intro h
    rcases mem_replaceChar h with hnew | ⟨_, hbefore⟩
    · revert hnew
      decide
    · rcases mem_replaceChar hbefore with hnew | ⟨hne, _⟩
      · revert hnew
        decide
      · exact hne rfl
  · intro h
    rcases mem_replaceChar h with hnew | ⟨hne, _⟩
    · revert hnew
      decide
    · exact hne rfl

theorem plain_attr (name : String) (value : Json) (hname : Plain name.toList) :
    Plain (" ".toList ++ name.toList ++ "=\"".toList ++ xmlAttrEscape value ++
      "\"".toList) := by
  have hquote : Plain "\"".toList := by unfold Plain; decide
  have hequal : Plain "=\"".toList := by unfold Plain; decide
  have hblank : Plain " ".toList := by unfold Plain; decide
  exact plain_append (plain_append (plain_append (plain_append hblank hname)
    hequal) (plain_xmlAttrEscape value)) hquote

theorem plain_attribution (host : ExpandHost) (attribution : Json) :
    Plain (match normalizeAttributionLabel host attribution with
      | none => []
      | some label =>
          " ".toList ++ "attribution".toList ++ "=\"".toList ++
            xmlAttrEscape (Json.str label) ++ "\"".toList) := by
  split
  · unfold Plain; decide
  · exact plain_attr _ _ (by unfold Plain; decide)

theorem plain_evidenceAttributes (host : ExpandHost) (evidence : Evidence) :
    Plain (evidenceAttributes host evidence) := by
  unfold evidenceAttributes
  dsimp only
  have hscore : Plain (host.format3 evidence.score).toList :=
    host.format3_plain _
  have hbool : Plain
      (if evidence.instruction_like then "true" else "false").toList := by
    cases evidence.instruction_like
    · unfold Plain; decide
    · unfold Plain; decide
  have hattribution := plain_attribution host evidence.attribution
  apply plain_append
  · apply plain_append _ hattribution
    apply plain_append _ (by unfold Plain; decide)
    apply plain_append _ hbool
    apply plain_append _ (by unfold Plain; decide)
    apply plain_append _ hscore
    apply plain_append _ (by unfold Plain; decide)
    apply plain_append _ (plain_attr _ _ (by unfold Plain; decide))
    apply plain_append _ (plain_attr _ _ (by unfold Plain; decide))
    apply plain_append _ (plain_attr _ _ (by unfold Plain; decide))
    exact plain_attr _ _ (by unfold Plain; decide)
  · exact plain_attr _ _ (by unfold Plain; decide)

/-- What is between the tags of an envelope. -/
def enveloped (host : ExpandHost) (evidence : Evidence) (inner : List Char) :
    List Char :=
  openTag host evidence ++ inner ++ closeTag

section Enveloped

variable {host : ExpandHost} {evidence : Evidence} {inner : List Char}

/-- A tag occurs where it stands, and nowhere else. -/
theorem occurrences_enveloped {tail : List Char} (htail : '<' ∉ tail)
    (hinner : ¬ '<' :: tail <:+: inner) :
    Replace.occurrences ('<' :: tail) (enveloped host evidence inner) =
      (if ('<' :: tail).isPrefixOf (enveloped host evidence inner) then 1
        else 0) +
        Replace.occurrences ('<' :: tail) closeTag := by
  rcases plain_evidenceAttributes host evidence with ⟨hattributes, _⟩
  have hsplit : enveloped host evidence inner =
      '<' :: (("EVIDENCE".toList ++ evidenceAttributes host evidence ++
        ['>']) ++ (inner ++ closeTag)) := by
    unfold enveloped openTag
    simp
  have hrest : Replace.occurrences ('<' :: tail)
      (("EVIDENCE".toList ++ evidenceAttributes host evidence ++ ['>']) ++
        (inner ++ closeTag)) = Replace.occurrences ('<' :: tail) closeTag := by
    rw [Replace.occurrences_append, Replace.occurrences_append]
    · exact Replace.not_prefix_seam htail hinner
    · intro s hs hsuffix hprefixed
      cases s with
      | nil => exact hs rfl
      | cons c s =>
          have hc := (List.cons_prefix_cons.mp hprefixed).left
          have hmem := hsuffix.subset (List.mem_cons_self ..)
          rw [← hc] at hmem
          rcases List.mem_append.mp hmem with hleft | hright
          · rcases List.mem_append.mp hleft with hword | hattr
            · revert hword
              decide
            · exact hattributes hattr
          · revert hright
            decide
  rw [hsplit, Replace.occurrences, hrest]

theorem occurrences_open (h : Tagless inner) :
    Replace.occurrences openMark (enveloped host evidence inner) = 1 := by
  have hmark : openMark = '<' :: "EVIDENCE".toList := by decide
  have hprefixed : openMark <+: enveloped host evidence inner := by
    unfold enveloped openTag openMark
    rw [List.append_assoc, List.append_assoc, List.append_assoc]
    exact List.prefix_append _ _
  have hopens := h.opens
  rw [hmark] at hprefixed hopens ⊢
  rw [occurrences_enveloped (by decide) hopens,
    if_pos (List.isPrefixOf_iff_prefix.mpr hprefixed)]
  decide

theorem occurrences_close (h : Tagless inner) :
    Replace.occurrences closeTag (enveloped host evidence inner) = 1 := by
  have hmark : closeTag = '<' :: "/EVIDENCE>".toList := by decide
  have hcloses : ¬ closeTag <:+: inner := by
    intro hinfixed
    apply h.closes
    have hstart : ['<', '/'] <+: closeTag := by decide
    exact hstart.isInfix.trans hinfixed
  have hprefixed : ¬ closeTag <+: enveloped host evidence inner := by
    unfold enveloped openTag
    rw [hmark]
    intro hstart
    have hsecond := (List.cons_prefix_cons.mp hstart).right
    have hletter := (List.cons_prefix_cons.mp hsecond).left
    revert hletter
    decide
  rw [hmark] at hprefixed hcloses
  have hcount := @occurrences_enveloped host evidence _ _
    (by decide) hcloses
  rw [if_neg fun hstart => hprefixed (List.isPrefixOf_iff_prefix.mp hstart)]
    at hcount
  rw [hmark]
  rw [hcount]
  decide

/-- The first closing bracket ends the tag that opens the envelope. -/
theorem cutEnvelope_enveloped :
    cutEnvelope (enveloped host evidence inner) =
      enveloped host evidence (cutText inner) := by
  rcases plain_evidenceAttributes host evidence with ⟨_, hattributes⟩
  have hbefore : forall c, c ∈ "<EVIDENCE".toList ++
      evidenceAttributes host evidence -> (c != '>') = true := by
    intro c hc
    rw [bne_iff_ne]
    intro heq
    rw [heq] at hc
    rcases List.mem_append.mp hc with hword | hattr
    · revert hword
      decide
    · exact hattributes hattr
  have htag : (enveloped host evidence inner).takeWhile (· ≠ '>') ++ ['>'] =
      openTag host evidence := by
    unfold enveloped openTag
    rw [List.append_assoc, List.append_assoc, List.takeWhile_append_of_pos]
    · simp
    · intro c hc
      have hne := hbefore c hc
      simpa using hne
  have hstart : "<EVIDENCE ".toList.isPrefixOf
      (enveloped host evidence inner) = true := by
    apply List.isPrefixOf_iff_prefix.mpr
    unfold enveloped openTag evidenceAttributes
    simp
  have hend : closeTag.isSuffixOf (enveloped host evidence inner) = true :=
    List.isSuffixOf_iff_suffix.mpr (List.suffix_append _ _)
  unfold cutEnvelope
  rw [hstart, hend]
  dsimp only [Bool.and_self, if_true]
  rw [htag]
  have hinner : ((enveloped host evidence inner).drop
      (openTag host evidence).length).take
        ((enveloped host evidence inner).length - closeTag.length -
          (openTag host evidence).length) = inner := by
    unfold enveloped
    rw [List.append_assoc, List.drop_left]
    have hlength : (openTag host evidence ++ (inner ++ closeTag)).length -
        closeTag.length - (openTag host evidence).length = inner.length := by
      simp only [List.length_append]
      omega
    rw [hlength, List.take_left]
  rw [hinner]
  rfl

end Enveloped

/-!
## What a result shows
-/

/-- One envelope around a text, whose body may be cut. -/
structure OneEnvelope (host : ExpandHost) (text : String) (value : Json) :
    Prop where
  built : exists evidence inner,
    value = Json.str (String.ofList (enveloped host evidence inner)) ∧
      (inner = evidenceBody host evidence.instruction_like text ∨
        inner = cutText (evidenceBody host evidence.instruction_like text))
  opens : Replace.occurrences openMark (textOf value).toList = 1
  closes : Replace.occurrences closeTag (textOf value).toList = 1

theorem oneEnvelope_enveloped {host : ExpandHost} {text : String}
    (evidence : Evidence) {inner : List Char}
    (h : inner = evidenceBody host evidence.instruction_like text ∨
      inner = cutText (evidenceBody host evidence.instruction_like text)) :
    OneEnvelope host text
      (Json.str (String.ofList (enveloped host evidence inner))) := by
  have hbody := tagless_evidenceBody host evidence.instruction_like text
  have hinner : Tagless inner := by
    rcases h with hwhole | hcut
    · rw [hwhole]
      exact hbody
    · rw [hcut]
      exact tagless_cutText hbody
  constructor
  · exact ⟨evidence, inner, rfl, h⟩
  · show Replace.occurrences openMark
      (String.ofList (enveloped host evidence inner)).toList = 1
    rw [String.toList_ofList]
    exact occurrences_open hinner
  · show Replace.occurrences closeTag
      (String.ofList (enveloped host evidence inner)).toList = 1
    rw [String.toList_ofList]
    exact occurrences_close hinner

/-- The keys under which a result shows text of its document. -/
def textKeys : List String :=
  ["text", "full_document_text", "evidence_envelope"]

def ShowsOnly (P : Json -> Prop) (result : ResultFields) : Prop :=
  forall entry, entry ∈ result -> entry.1 ∈ textKeys -> P entry.2

section Shows

variable {P : Json -> Prop}

theorem shows_append {a b : ResultFields} (ha : ShowsOnly P a)
    (hb : ShowsOnly P b) :
    ShowsOnly P (a ++ b) := by
  intro entry hentry
  rcases List.mem_append.mp hentry with h | h
  · exact ha entry h
  · exact hb entry h

theorem shows_put {result : ResultFields} {key : String} {value : Json}
    (hresult : ShowsOnly P result) (h : key ∈ textKeys -> P value) :
    ShowsOnly P (result.put key value) := by
  intro entry hentry hkey
  rcases Dict.mem_of_mem_set hentry with hnew | hold
  · rw [hnew] at hkey ⊢
    exact h hkey
  · exact hresult entry hold hkey

theorem shows_update {result other : ResultFields}
    (hresult : ShowsOnly P result) (hother : ShowsOnly P other) :
    ShowsOnly P (ResultFields.update result other) := by
  unfold ResultFields.update
  induction other generalizing result with
  | nil => exact hresult
  | cons entry other ih =>
      rw [List.foldl_cons]
      apply ih
      · exact shows_put hresult (hother entry (List.mem_cons_self ..))
      · intro later hlater
        exact hother later (List.mem_cons_of_mem _ hlater)

/-- Fields whose keys show no text. -/
theorem shows_none {result : ResultFields}
    (h : (result.map (·.1)).all (fun key => !textKeys.contains key) = true) :
    ShowsOnly P result := by
  intro entry hentry hkey
  have hnot := List.all_eq_true.mp h entry.1
    (List.mem_map.mpr ⟨entry, hentry, rfl⟩)
  rw [Bool.not_eq_true'] at hnot
  have htrue := List.contains_iff_mem.mpr hkey
  rw [htrue] at hnot
  cases hnot

theorem shows_keys {result : ResultFields} {names : List String}
    (h : names.all (fun key => !textKeys.contains key) = true) :
    ShowsOnly P (result.keys names) := by
  apply shows_none
  unfold ResultFields.keys
  rw [List.map_map]
  have hnames : names.map ((·.1) ∘ fun name => (name, result.get name)) =
      names := by
    induction names with
    | nil => rfl
    | cons name names ih =>
        rw [List.all_cons, Bool.and_eq_true] at h
        rw [List.map_cons, ih h.right]
        rfl
  rw [hnames]
  exact h

theorem shows_nil : ShowsOnly P [] := by
  intro entry hentry
  cases hentry

theorem shows_pr2Fields {result existing : ResultFields}
    (h : P (result.get "evidence_envelope")) :
    ShowsOnly P (pr2Fields result existing) := by
  unfold pr2Fields
  apply shows_append
  · apply shows_append
    · apply shows_append
      · apply shows_append
        · apply shows_append
          · exact shows_keys (by decide)
          · exact shows_none rfl
        · exact shows_keys (by decide)
      · split
        · exact shows_nil
        · exact shows_keys (by decide)
    · split
      · exact shows_nil
      · intro entry hentry _
        have heq : entry =
            ("evidence_envelope", result.get "evidence_envelope") :=
          List.mem_singleton.mp hentry
        rw [heq]
        exact h
  · split
    · exact shows_nil
    · exact shows_keys (by decide)

theorem shows_headlineFields (result : ResultFields) :
    ShowsOnly P (headlineFields result) := by
  unfold headlineFields
  apply shows_append
  · apply shows_none
    rfl
  · split
    · exact shows_nil
    · exact shows_keys (by decide)

theorem shows_if_keys (result : ResultFields) (condition : Bool)
    (names : List String)
    (h : names.all (fun key => !textKeys.contains key) = true) :
    ShowsOnly P (if condition then result.keys names else []) := by
  cases condition
  · exact shows_nil
  · exact shows_keys h

theorem shows_snippetFields {host : ExpandHost} {result : ResultFields}
    (htext : P (snippetText host result))
    (henvelope : P (result.get "evidence_envelope")) :
    ShowsOnly P (snippetFields host result) := by
  unfold snippetFields
  apply shows_update _ (shows_pr2Fields henvelope)
  apply shows_append
  · intro entry hentry hkey
    rcases List.mem_cons.mp hentry with hfirst | hrest
    · rw [hfirst]
      exact htext
    · exact shows_none rfl entry hrest hkey
  · exact shows_if_keys result _ _ (by decide)

theorem shows_chunkFields {result : ResultFields} {depth : Depth}
    (htext : P (result.getOr "chunk_text" (Json.str "")))
    (henvelope : P (result.get "evidence_envelope"))
    (hfull : result.has "full_document_text" = true ->
      P (result.get "full_document_text")) :
    ShowsOnly P (chunkFields result depth) := by
  unfold chunkFields
  dsimp only
  have hout : forall out : ResultFields, ShowsOnly P out ->
      ShowsOnly P
        (if depth = Depth.document && result.has "full_document_text" then
          out.put "full_document_text" (result.get "full_document_text")
        else out) := by
    intro out hout
    split
    · rename_i hboth
      rw [Bool.and_eq_true] at hboth
      exact shows_put hout fun _ => hfull hboth.right
    · exact hout
  apply hout
  apply shows_update _ (shows_pr2Fields henvelope)
  apply shows_append
  · intro entry hentry hkey
    rcases List.mem_cons.mp hentry with hfirst | hrest
    · rw [hfirst]
      exact htext
    · exact shows_none rfl entry hrest hkey
  · exact shows_if_keys result _ _ (by decide)

/-- The projection adds to a tier what shows no text. -/
theorem shows_projectDepth {host : ExpandHost} {result : ResultFields}
    (h : forall depth, ShowsOnly P (applyDepth host result depth))
    (depth : Depth) :
    ShowsOnly P (projectDepth host result depth) := by
  have hhydration : forall (names : List String) (into : ResultFields),
      names.all (fun key => !textKeys.contains key) = true ->
      ShowsOnly P into ->
      ShowsOnly P
        (names.foldl (fun into key => into.put key (result.get key)) into) := by
    intro names
    induction names with
    | nil => exact fun into _ hinto => hinto
    | cons name names ih =>
        intro into hnames hinto
        rw [List.all_cons, Bool.and_eq_true] at hnames
        rw [List.foldl_cons]
        apply ih _ hnames.right
        apply shows_put hinto
        intro hkey
        have htrue := List.contains_iff_mem.mpr hkey
        rw [htrue] at hnames
        cases hnames.left
  have hnames : (hydrationKeys.filter result.has).all
      (fun key => !textKeys.contains key) = true := by
    apply List.all_eq_true.mpr
    intro key hkey
    have hall : hydrationKeys.all (fun key => !textKeys.contains key) = true :=
      by decide
    exact List.all_eq_true.mp hall key (List.mem_of_mem_filter hkey)
  unfold projectDepth
  dsimp only
  split
  · have hprojected : forall projected, ShowsOnly P projected ->
        ShowsOnly P (stampProvenance result projected) := by
      intro projected hp
      unfold stampProvenance
      split
      · exact shows_put hp fun hkey => absurd hkey (by decide)
      · exact hp
    apply hprojected
    exact shows_put (hhydration _ _ hnames (h _)) fun hkey =>
      absurd hkey (by decide)
  · exact hhydration _ _ hnames (h _)

end Shows

/-!
## Disclosed results
-/

theorem lookup_put_self (result : ResultFields) (key : String) (value : Json) :
    (result.put key value).lookup key = some value := by
  unfold ResultFields.put
  rw [Dict.lookup_set, if_pos rfl]

theorem lookup_put_ne (result : ResultFields) {key wanted : String}
    (value : Json) (h : wanted ≠ key) :
    (result.put key value).lookup wanted = result.lookup wanted := by
  unfold ResultFields.put
  rw [Dict.lookup_set, if_neg h]

theorem lookup_update_ne {result other : ResultFields} {wanted : String}
    (h : wanted ∉ other.map (·.1)) :
    (ResultFields.update result other).lookup wanted =
      result.lookup wanted := by
  unfold ResultFields.update
  induction other generalizing result with
  | nil => rfl
  | cons entry other ih =>
      rw [List.map_cons, List.mem_cons, not_or] at h
      rw [List.foldl_cons, ih h.right, lookup_put_ne _ _ h.left]

theorem lookup_addFullProvenance (result : ResultFields) {wanted : String}
    (h : wanted ≠ "full_provenance") :
    (addFullProvenance result).lookup wanted = result.lookup wanted := by
  unfold addFullProvenance
  split
  · exact lookup_put_ne _ _ h
  · rfl

/-- The fields with the score of their attribution, when there is one. -/
def withAttribution (host : ExpandHost) (claim : Option String)
    (text : String) (judged : ResultFields) : ResultFields :=
  match host.scoreAttribution claim text with
  | none => judged
  | some (label, score) =>
      ResultFields.update judged
        [("attribution", Json.str label), ("attribution_score", score),
          ("attribution_model", host.attribution_model)]

theorem lookup_withAttribution (host : ExpandHost) (claim : Option String)
    (text : String) (judged : ResultFields) {wanted : String}
    (hlabel : wanted ≠ "attribution") (hscore : wanted ≠ "attribution_score")
    (hmodel : wanted ≠ "attribution_model") :
    (withAttribution host claim text judged).lookup wanted =
      judged.lookup wanted := by
  unfold withAttribution
  split
  · rfl
  · apply lookup_update_ne
    simp only [List.map_cons, List.map_nil, List.mem_cons,
      List.not_mem_nil, or_false, not_or]
    exact ⟨hlabel, hscore, hmodel⟩

/-- The envelope takes the place of the text wherever the text was. -/
theorem lookup_discloseTo (host : ExpandHost) (p : EffectivePrincipal)
    (claim : Option String) (raw : ResultFields) :
    exists evidence,
      let envelope := Json.str
        (buildEvidenceEnvelope host evidence (evidenceText raw))
      let disclosed := discloseTo host p claim raw
      disclosed.lookup "evidence_envelope" = some envelope ∧
        (raw.has "chunk_text" = true ->
          disclosed.lookup "chunk_text" = some envelope) ∧
        (disclosed.has "full_document_text" = true ->
          disclosed.lookup "full_document_text" = some envelope) ∧
        disclosed.lookup "raw_chunk_text" = raw.lookup "raw_chunk_text" := by
  let judged := raw.put "instruction_like"
    (Json.bool (host.isInstructionLike (evidenceText raw)))
  let scored := withAttribution host claim (evidenceText raw) judged
  let shown := (scored.put "visibility"
    (Json.str "authorized-via-expand")).put "reasoning"
      (Json.str ("expand can_read_document passed for " ++ p.agent_id))
  let envelope := Json.str
    (buildEvidenceEnvelope host (evidenceOf shown) (evidenceText raw))
  let proven := addFullProvenance (shown.put "evidence_envelope" envelope)
  let chunked :=
    if proven.has "chunk_text" then proven.put "chunk_text" envelope
    else proven
  have hdisclosed : discloseTo host p claim raw =
      if chunked.has "full_document_text" then
        chunked.put "full_document_text" envelope
      else chunked := rfl
  -- the keys that are neither judged, scored nor shown
  have hkept : forall wanted,
      wanted ∉ ["instruction_like", "attribution", "attribution_score",
        "attribution_model", "visibility", "reasoning"] ->
      shown.lookup wanted = raw.lookup wanted := by
    intro wanted hwanted
    simp only [List.mem_cons, List.not_mem_nil, or_false, not_or] at hwanted
    rcases hwanted with ⟨hlike, hlabel, hscore, hmodel, hvisible, hreason⟩
    have hjudged : judged.lookup wanted = raw.lookup wanted :=
      lookup_put_ne _ _ hlike
    have hscored : scored.lookup wanted = judged.lookup wanted :=
      lookup_withAttribution host claim _ judged hlabel hscore hmodel
    show ((scored.put "visibility" _).put "reasoning" _).lookup wanted = _
    rw [lookup_put_ne _ _ hreason, lookup_put_ne _ _ hvisible, hscored, hjudged]
  have hproven : forall wanted, wanted ≠ "full_provenance" ->
      proven.lookup wanted =
        (shown.put "evidence_envelope" envelope).lookup wanted :=
    fun wanted hwanted => lookup_addFullProvenance _ hwanted
  have hchunked : forall wanted, wanted ≠ "chunk_text" ->
      chunked.lookup wanted = proven.lookup wanted := by
    intro wanted hwanted
    show List.lookup wanted
      (if proven.has "chunk_text" then proven.put "chunk_text" envelope
      else proven) = _
    split
    · exact lookup_put_ne _ _ hwanted
    · rfl
  have hfinal : forall wanted, wanted ≠ "full_document_text" ->
      (discloseTo host p claim raw).lookup wanted = chunked.lookup wanted := by
    intro wanted hwanted
    rw [hdisclosed]
    split
    · exact lookup_put_ne _ _ hwanted
    · rfl
  exists evidenceOf shown
  dsimp only
  constructor
  · rw [hfinal _ (by decide), hchunked _ (by decide), hproven _ (by decide)]
    exact lookup_put_self _ _ _
  constructor
  · intro hhas
    rw [hfinal _ (by decide)]
    have hthere : proven.has "chunk_text" = true := by
      unfold ResultFields.has at hhas ⊢
      rw [hproven _ (by decide), lookup_put_ne _ _ (by decide),
        hkept _ (by decide)]
      exact hhas
    show List.lookup "chunk_text"
      (if proven.has "chunk_text" then proven.put "chunk_text" envelope
      else proven) = _
    rw [if_pos hthere]
    exact lookup_put_self _ _ _
  constructor
  · intro hhas
    rw [hdisclosed] at hhas ⊢
    split
    · exact lookup_put_self _ _ _
    · rename_i hno
      rw [if_neg hno] at hhas
      exact absurd hhas hno
  · rw [hfinal _ (by decide), hchunked _ (by decide), hproven _ (by decide),
      lookup_put_ne _ _ (by decide), hkept _ (by decide)]

/-- Every text of a disclosed result is in one envelope. -/
theorem shows_disclosed {host : ExpandHost} {p : EffectivePrincipal}
    {claim : Option String} {raw : ResultFields}
    (hchunk : raw.has "chunk_text" = true)
    (hraw : raw.lookup "raw_chunk_text" = none) (depth : Depth) :
    ShowsOnly (OneEnvelope host (evidenceText raw))
      (projectDepth host (discloseTo host p claim raw) depth) := by
  rcases lookup_discloseTo host p claim raw with
    ⟨evidence, henvelope, htext, hfull, hnone⟩
  generalize discloseTo host p claim raw = disclosed
    at henvelope htext hfull hnone ⊢
  have hbuilt : Json.str
      (buildEvidenceEnvelope host evidence (evidenceText raw)) =
      Json.str (String.ofList (enveloped host evidence
        (evidenceBody host evidence.instruction_like (evidenceText raw)))) :=
    rfl
  have hwhole : OneEnvelope host (evidenceText raw) (Json.str
      (buildEvidenceEnvelope host evidence (evidenceText raw))) := by
    rw [hbuilt]
    exact oneEnvelope_enveloped evidence (Or.inl rfl)
  have hget : forall key, disclosed.lookup key = some (Json.str
      (buildEvidenceEnvelope host evidence (evidenceText raw))) ->
      forall other, disclosed.getOr key other = Json.str
        (buildEvidenceEnvelope host evidence (evidenceText raw)) := by
    intro key hkey other
    unfold ResultFields.getOr
    rw [hkey]
    rfl
  have htextAt := htext hchunk
  have henv : OneEnvelope host (evidenceText raw)
      (disclosed.get "evidence_envelope") := by
    have hvalue := hget _ henvelope Json.null
    unfold ResultFields.getOr at hvalue
    unfold ResultFields.get
    rw [hvalue]
    exact hwhole
  apply shows_projectDepth
  intro depth
  have hchunks : forall tier, ShowsOnly (OneEnvelope host (evidenceText raw))
      (chunkFields disclosed tier) := by
    intro tier
    apply shows_chunkFields
    · rw [hget _ htextAt]
      exact hwhole
    · exact henv
    · intro hhas
      have hvalue := hget _ (hfull hhas) Json.null
      unfold ResultFields.getOr at hvalue
      unfold ResultFields.get
      rw [hvalue]
      exact hwhole
  cases depth with
  | headline => exact shows_headlineFields disclosed
  | snippet =>
      apply shows_snippetFields _ henv
      have hsnippet : snippetText host disclosed =
          Json.str (String.ofList (cutEnvelope (enveloped host evidence
            (evidenceBody host evidence.instruction_like
              (evidenceText raw))))) := by
        unfold snippetText ResultFields.get
        rw [hnone, hraw, htextAt]
        show Json.str (String.ofList (cutEnvelope (String.ofList
          (enveloped host evidence _)).toList)) = _
        rw [String.toList_ofList]
      rw [hsnippet, cutEnvelope_enveloped]
      exact oneEnvelope_enveloped evidence (Or.inr rfl)
  | chunk => exact hchunks Depth.chunk
  | document => exact hchunks Depth.document

/-!
## Denied calls
-/

section Law

variable (host : ExpandHost) (store : ExpandStore) (call : ExpandCall)

/-- The text that a document shows at the tier of a call. -/
def resolvedText (chunk : ChunkRow) (row : DocumentRow) : String :=
  let full :=
    if call.tier = Depth.document && call.in_time then
      (store.fetchFullDocument row.doc_id).getD ""
    else ""
  if full = "" then chunk.chunk_text else full

def readable (chunk : ChunkRow) (row : DocumentRow) : Json :=
  Json.obj (hydrate store call row.doc_id (rawResult host chunk row))

/-- The read gate refuses what the id stands for. -/
def Denied : Prop :=
  exists p chunk row, call.principal = some p ∧
    resolveRow store call.result_id (normalizedKind host call) =
      some (chunk, row) ∧
    canReadDocument host.read (some p) (expandWorkspace p call)
      (readable host store call chunk row) = false

/-- A denied call returns nothing and leaves the documents as they are; for any
other principal all text is in one envelope of its document's text. -/
structure ExpandsSafely : Prop where
  denied : Denied host store call ->
    (expandResult host store call).1 = Except.ok none ∧
      (expandResult host store call).2.documents = store.documents
  allowed : forall p result, call.principal = some p ->
    (expandResult host store call).1 = Except.ok (some result) ->
    exists chunk row,
      resolveRow store call.result_id (normalizedKind host call) =
        some (chunk, row) ∧
      forall key, key ∈ textKeys -> forall value,
        result.lookup key = some value ->
        OneEnvelope host (resolvedText store call chunk row) value

variable {host store call}

theorem has_chunk_text (chunk : ChunkRow) (row : DocumentRow) :
    (hydrate store call row.doc_id (rawResult host chunk row)).has
        "chunk_text" = true ∧
      (hydrate store call row.doc_id (rawResult host chunk row)).lookup
        "raw_chunk_text" = none ∧
      evidenceText (hydrate store call row.doc_id (rawResult host chunk row)) =
        resolvedText store call chunk row := by
  have hraw : (rawResult host chunk row).lookup "chunk_text" =
      some (Json.str chunk.chunk_text) := rfl
  have hnone : (rawResult host chunk row).lookup "raw_chunk_text" = none := rfl
  have hfull : (rawResult host chunk row).lookup "full_document_text" =
      none := rfl
  have htext : forall result : ResultFields,
      result.lookup "full_document_text" = none ->
      result.lookup "chunk_text" = some (Json.str chunk.chunk_text) ->
      evidenceText result = chunk.chunk_text := by
    intro result hno hchunk
    unfold evidenceText firstText firstTruthy
    simp only [List.findSome?_cons, List.findSome?_nil, Json.field?, hno,
      hchunk, Option.filter_none, Option.filter_some]
    by_cases hempty : chunk.chunk_text = ""
    · simp [truthyText, hempty]
    · simp [truthyText, hempty]
  unfold hydrate
  split
  · rename_i htier
    split
    · rename_i hin
      refine ⟨?_, ?_, ?_⟩
      · unfold ResultFields.has
        rw [lookup_put_ne _ _ (by decide), hraw]
        rfl
      · rw [lookup_put_ne _ _ (by decide)]
        exact hnone
      · unfold evidenceText firstText firstTruthy resolvedText
        simp only [List.findSome?_cons, List.findSome?_nil, Json.field?,
          lookup_put_self, lookup_put_ne _ _ (show "chunk_text" ≠
            "full_document_text" by decide), hraw, htier, hin,
          Option.filter_some]
        cases hfetch : store.fetchFullDocument row.doc_id with
        | none =>
            by_cases hempty : chunk.chunk_text = ""
            · simp [optionText, truthyText, hempty]
            · simp [optionText, truthyText, hempty]
        | some content =>
            by_cases hcontent : content = ""
            · by_cases hempty : chunk.chunk_text = ""
              · simp [optionText, truthyText, hempty, hcontent]
              · simp [optionText, truthyText, hempty, hcontent]
            · simp [optionText, truthyText, hcontent]
    · rename_i hin
      have hstamped : stampHydrationDegraded (rawResult host chunk row) =
          ResultFields.update (rawResult host chunk row)
            [("requested_depth", Json.str "document"),
              ("delivered_depth", Json.str "chunk"),
              ("document_hydration", Json.str hydrationDeadline)] := rfl
      rw [hstamped]
      refine ⟨?_, ?_, ?_⟩
      · unfold ResultFields.has
        rw [lookup_update_ne (by decide), hraw]
        rfl
      · rw [lookup_update_ne (by decide)]
        exact hnone
      · have hlate : resolvedText store call chunk row = chunk.chunk_text := by
          unfold resolvedText
          simp [hin]
        rw [hlate]
        apply htext
        · rw [lookup_update_ne (by decide)]
          exact hfull
        · rw [lookup_update_ne (by decide)]
          exact hraw
  · rename_i htier
    refine ⟨?_, hnone, ?_⟩
    · unfold ResultFields.has
      rw [hraw]
      rfl
    · have hshallow : resolvedText store call chunk row = chunk.chunk_text := by
        unfold resolvedText
        simp [htier]
      rw [hshallow]
      exact htext _ hfull hraw

theorem mem_documents_of_joined {chunk : ChunkRow}
    {found : ChunkRow × DocumentRow} (h : store.joined chunk = some found) :
    found.2 ∈ store.documents := by
  rcases Option.map_eq_some_iff.mp h with ⟨row, hrow, heq⟩
  rw [← heq]
  exact List.mem_of_find?_eq_some hrow

theorem mem_documents_of_resolveRow {result_id : Int} {kind : String}
    {found : ChunkRow × DocumentRow}
    (h : resolveRow store result_id kind = some found) :
    found.2 ∈ store.documents := by
  have hjoined : forall chunks : List ChunkRow,
      chunks.findSome? store.joined = some found ->
      found.2 ∈ store.documents := by
    intro chunks hfound
    rcases List.exists_of_findSome?_eq_some hfound with ⟨chunk, _, hchunk⟩
    exact mem_documents_of_joined hchunk
  unfold resolveRow at h
  dsimp only at h
  split at h
  · rename_i row hchunk
    rw [← Option.some.inj h]
    rw [Option.some.inj h] at hchunk ⊢
    split at hchunk
    · exact hjoined _ hchunk
    · cases hchunk
  · split at h
    · exact hjoined _ h
    · cases h

/-- The count of a document goes up. -/
theorem recordAccess_documents_ne {now : Json} {row : DocumentRow}
    (h : row ∈ store.documents) :
    (store.recordAccess now row.doc_id).documents ≠ store.documents := by
  intro hsame
  have hrow := List.map_inj_left.mp (hsame.trans (List.map_id _).symm) row h
  rw [if_pos rfl] at hrow
  have hcount := congrArg DocumentRow.access_count hrow
  have hcount' : row.access_count + 1 = row.access_count := hcount
  exact absurd hcount' (by omega)

theorem kind_of_resolveRow {result_id : Int} {kind : String}
    {found : ChunkRow × DocumentRow}
    (h : resolveRow store result_id kind = some found) :
    ["auto", "chunk", "doc"].contains kind = true := by
  by_cases hauto : kind = "auto"
  · rw [hauto]
    rfl
  by_cases hchunk : kind = "chunk"
  · rw [hchunk]
    rfl
  by_cases hdoc : kind = "doc"
  · rw [hdoc]
    rfl
  unfold resolveRow at h
  simp [hauto, hchunk, hdoc] at h

theorem expandResult_of_resolveRow {p : EffectivePrincipal} {chunk : ChunkRow}
    {row : DocumentRow} (hprincipal : call.principal = some p)
    (hrow : resolveRow store call.result_id (normalizedKind host call) =
      some (chunk, row)) :
    expandResult host store call =
      (if canReadDocument host.read (some p) (expandWorkspace p call)
          (readable host store call chunk row) then
        Except.ok (some (projectDepth host
          (discloseTo host p call.claim
            (hydrate store call row.doc_id (rawResult host chunk row)))
          call.tier))
      else Except.ok none,
      if call.update_access then store.recordAccess call.now row.doc_id
      else store) := by
  unfold expandResult
  dsimp only
  rw [kind_of_resolveRow hrow, hrow, hprincipal]
  simp only [Bool.not_true, Bool.false_eq_true, if_false]
  unfold readable
  split
  · rfl
  · rfl

theorem expandResult_of_unresolved
    (hrow : resolveRow store call.result_id (normalizedKind host call) =
      none) :
    (forall result, (expandResult host store call).1 ≠
      Except.ok (some result)) := by
  intro result
  unfold expandResult
  dsimp only
  rw [hrow]
  split
  · intro h
    cases h
  · intro h
    cases h

/-- A denied call that counts accesses has counted one. -/
theorem denied_access_is_recorded (hdenied : Denied host store call)
    (hupdate : call.update_access = true) :
    (expandResult host store call).2.documents ≠ store.documents := by
  rcases hdenied with ⟨p, chunk, row, hprincipal, hrow, hgate⟩
  rw [expandResult_of_resolveRow hprincipal hrow, hupdate]
  exact recordAccess_documents_ne (mem_documents_of_resolveRow hrow)

theorem denied_without_access (hdenied : Denied host store call)
    (hupdate : call.update_access = false) :
    (expandResult host store call).1 = Except.ok none ∧
      (expandResult host store call).2.documents = store.documents := by
  rcases hdenied with ⟨p, chunk, row, hprincipal, hrow, hgate⟩
  rw [expandResult_of_resolveRow hprincipal hrow, hupdate, hgate]
  exact ⟨rfl, rfl⟩

theorem allowed_is_enveloped {p : EffectivePrincipal} {result : ResultFields}
    (hprincipal : call.principal = some p)
    (h : (expandResult host store call).1 = Except.ok (some result)) :
    exists chunk row,
      resolveRow store call.result_id (normalizedKind host call) =
        some (chunk, row) ∧
      forall key, key ∈ textKeys -> forall value,
        result.lookup key = some value ->
        OneEnvelope host (resolvedText store call chunk row) value := by
  cases hrow : resolveRow store call.result_id
    (normalizedKind host call) with
  | none => exact absurd h (expandResult_of_unresolved hrow result)
  | some found =>
      rcases found with ⟨chunk, row⟩
      exists chunk, row
      constructor
      · rfl
      rw [expandResult_of_resolveRow hprincipal hrow] at h
      dsimp only at h
      split at h
      · have hresult := Option.some.inj (Except.ok.inj h)
        rcases @has_chunk_text host store call
          chunk row with ⟨hchunk, hraw, htext⟩
        intro key hkey value hvalue
        rw [← hresult] at hvalue
        rw [← htext]
        exact shows_disclosed hchunk hraw call.tier (key, value)
          (Dict.mem_of_lookup hvalue) hkey
      · cases Except.ok.inj h

/-- A call expands safely unless it is denied and counts accesses. -/
theorem expandsSafely_iff_uncounted (host : ExpandHost) (store : ExpandStore)
    (call : ExpandCall) :
    ExpandsSafely host store call <->
      (Denied host store call -> call.update_access = false) := by
  constructor
  · intro hsafe hdenied
    cases hupdate : call.update_access with
    | false => rfl
    | true =>
        exact absurd (hsafe.denied hdenied).right
          (denied_access_is_recorded hdenied hupdate)
  · intro huncounted
    constructor
    · intro hdenied
      exact denied_without_access hdenied (huncounted hdenied)
    · intro p result hprincipal h
      exact allowed_is_enveloped hprincipal h

end Law

/-!
## A denied drill
-/

namespace DeniedDrill

def host : ExpandHost where
  read :=
    { lower := fun text => text
      resolve := fun path => some [path]
      home := fun _ => none }
  isWord := fun c => c.isAlphanum
  isInstructionLike := fun _ => false
  scoreAttribution := fun _ _ => none
  attribution_model := Json.str "model"
  format3 := fun _ => "0.000"
  format3_plain := fun _ => by decide
  basename := fun path => path
  instruction_body_perturbation_enabled := true

def store : ExpandStore where
  documents :=
    [{ doc_id := 1
       path := "/vaults/claude-code/wiki/notes/plan.md"
       agent := some "claude-code"
       sigil := none
       decay_score := Json.int 1
       privacy_level := some "private"
       page_type := some "note"
       page_status := some "accepted"
       access_count := 0
       last_accessed := Json.null
       others := [] }]
  chunk_embeddings :=
    [{ chunk_id := 7
       doc_id := 1
       chunk_text := "the plan"
       heading_context := none }]
  vault_fts := []

def caller : EffectivePrincipal where
  agent_id := "codex"
  workspace_id := "default"
  capabilities := []
  allowed_vault_roots := ["/vaults/claude-code/wiki/notes/plan.md"]
  auto_accept_own := false

/-- The defaults of a drill. -/
def call : ExpandCall where
  result_id := 7
  depth := "chunk"
  update_access := true
  principal := some caller
  workspace := "default"
  claim := none
  id_kind := "auto"
  now := Json.int 1
  in_time := true

theorem denied : Denied host store call := by
  exists caller
  refine ⟨_, _, rfl, rfl, ?_⟩
  decide +kernel

theorem leaves_a_trace : ¬ ExpandsSafely host store call := by
  intro hsafe
  exact denied_access_is_recorded denied rfl (hsafe.denied denied).right

end DeniedDrill

end Daemon
end Minni
