import Minni.Daemon.EvidenceLaw
import Minni.Hooks.AgentEnvelope

/-!
# The closing tag of the envelope

The printer of strings keeps the closing tag of the envelope as it stands, so a
wrapped body holds it inside exactly when one of its strings does.  A text that
the daemon has put into an evidence envelope does not, whether it is clipped or
not.
-/

namespace Minni
namespace Hooks

open Foundation
open Foundation.Escaping
open Daemon

/-!
## Strings
-/

/-- The closing tag is in the units. -/
def Marked (units : Units) : Prop :=
  contextClose <:+: units

theorem contextClose_eq :
    contextClose = 0x3c :: ascii "/minni:context>" := by
  decide

/-- What the closing tag has is printed as it is. -/
theorem contextClose_plain (u : Nat) (h : u ∈ contextClose) :
    0x20 ≤ u ∧ u < 0xd800 ∧ u ≠ 0x22 ∧ u ≠ 0x5c := by
  revert h
  revert u
  decide

theorem not_mem_contextClose {u : Nat}
    (h : u < 0x20 ∨ 0xd800 ≤ u ∨ u = 0x22 ∨ u = 0x5c) :
    u ∉ contextClose := by
  intro hmem
  rcases contextClose_plain u hmem with ⟨hlow, hhigh, hquote, hback⟩
  rcases h with h | h | h | h
  · omega
  · omega
  · exact hquote h
  · exact hback h

theorem closed_of_plain {units : Units} (h : 0x3c ∉ units) :
    Closed contextClose units := by
  rw [contextClose_eq]
  exact closed_of_not_mem h

theorem not_marked_of_plain {units : Units} (h : 0x3c ∉ units) :
    ¬ Marked units := by
  intro hmark
  apply h
  apply hmark.subset
  decide

theorem marked_cons_iff {u : Nat} (h : u ≠ 0x3c) (units : Units) :
    Marked (u :: units) <-> Marked units := by
  unfold Marked
  constructor
  · intro hmark
    rcases List.infix_cons_iff.mp hmark with hhere | hlater
    · rw [contextClose_eq] at hhere
      exact absurd (List.cons_prefix_cons.mp hhere).left.symm h
    · exact hlater
  · exact List.infix_cons

theorem marked_concat_iff {u : Nat} (h : u ∉ contextClose) (units : Units) :
    Marked (units ++ [u]) <-> Marked units := by
  constructor
  · intro hmark
    by_contra hnot
    exact Replace.not_infix_concat h (by decide) hnot hmark
  · intro hmark
    exact hmark.trans (List.prefix_append units [u]).isInfix

theorem hexUnit_plain (n : Nat) : hexUnit n ≠ 0x3c := by
  unfold hexUnit
  split
  · omega
  · omega

theorem apart_escape (rest : Units) (h : 0x3c ∉ rest) :
    Apart contextClose (0x5c :: rest) := by
  constructor
  · exact ⟨0x5c, rest, rfl, by decide⟩
  · intro first hfirst
    rw [contextClose_eq] at hfirst
    cases hfirst
    intro hmem
    rcases List.mem_cons.mp hmem with heq | hrest
    · cases heq
    · exact h hrest

theorem apart_unit {u : Nat}
    (h : u < 0x20 ∨ 0xd800 ≤ u ∨ u = 0x22 ∨ u = 0x5c) :
    Apart contextClose [u] := by
  constructor
  · exact ⟨u, [], rfl, not_mem_contextClose h⟩
  · intro first hfirst
    rw [contextClose_eq] at hfirst
    cases hfirst
    intro hmem
    have hu := List.mem_singleton.mp hmem
    omega

theorem apart_unicodeEscape (u : Nat) :
    Apart contextClose (unicodeEscape u) := by
  apply apart_escape
  intro hmem
  simp only [List.mem_cons, List.not_mem_nil, or_false] at hmem
  rcases hmem with h | h | h | h | h
  · cases h
  · exact hexUnit_plain _ h.symm
  · exact hexUnit_plain _ h.symm
  · exact hexUnit_plain _ h.symm
  · exact hexUnit_plain _ h.symm

/-- A unit is printed as it is, or it is not one of the closing tag. -/
theorem escapeUnit_cases (u : Nat) :
    escapeUnit u = [u] ∨
      (Apart contextClose [u] ∧ Apart contextClose (escapeUnit u)) := by
  unfold escapeUnit
  by_cases hquote : u = 0x22
  · rw [if_pos hquote]
    exact Or.inr ⟨apart_unit (by omega), apart_escape _ (by decide)⟩
  · rw [if_neg hquote]
    by_cases hback : u = 0x5c
    · rw [if_pos hback]
      exact Or.inr ⟨apart_unit (by omega), apart_escape _ (by decide)⟩
    · rw [if_neg hback]
      by_cases hcontrol : u < 0x20
      · right
        constructor
        · exact apart_unit (Or.inl hcontrol)
        · rw [if_pos hcontrol]
          split
          · exact apart_escape _ (by decide)
          · split
            · exact apart_escape _ (by decide)
            · split
              · exact apart_escape _ (by decide)
              · split
                · exact apart_escape _ (by decide)
                · split
                  · exact apart_escape _ (by decide)
                  · exact apart_unicodeEscape u
      · rw [if_neg (by omega), if_neg (by omega), if_neg (by omega),
          if_neg (by omega), if_neg (by omega), if_neg hcontrol]
        split
        · rename_i hsurrogate
          right
          constructor
          · apply apart_unit
            right
            left
            rcases (Bool.or_eq_true _ _).mp hsurrogate with h | h
            · exact of_decide_eq_true ((Bool.and_eq_true _ _).mp h).left
            · have hlow := of_decide_eq_true
                ((Bool.and_eq_true _ _).mp h).left
              omega
          · exact apart_unicodeEscape u
        · exact Or.inl rfl

theorem rewritten_quoteFrom (paired : Bool) (s : Units) :
    Rewritten contextClose s (quoteFrom paired s) := by
  induction s generalizing paired with
  | nil =>
      rw [quoteFrom]
      exact Rewritten.nil
  | cons u rest ih =>
      rw [quoteFrom]
      split
      · exact Rewritten.keep u (ih _)
      · split
        · exact Rewritten.keep u (ih _)
        · rcases escapeUnit_cases u with hsame | ⟨hold, hnew⟩
          · rw [hsame]
            exact Rewritten.keep u (ih _)
          · exact Rewritten.swap hold hnew (ih _)

/-- A literal holds the closing tag exactly when its string does. -/
theorem marked_quoteUnits_iff (s : Units) :
    Marked (quoteUnits s) <-> Marked s := by
  unfold quoteUnits
  rw [marked_cons_iff (by decide), marked_concat_iff (by decide)]
  exact (infix_rewritten_iff (rewritten_quoteFrom false s)).symm

theorem closed_quoteUnits (s : Units) : Closed contextClose (quoteUnits s) := by
  unfold quoteUnits
  rw [← List.cons_append]
  exact closed_concat (by decide) _

/-!
## Values
-/

theorem marked_joinUnits_iff {pieces : List Units}
    (h : forall piece, piece ∈ pieces -> Closed contextClose piece) :
    Marked (joinUnits pieces) <->
      exists piece, piece ∈ pieces ∧ Marked piece := by
  induction pieces with
  | nil =>
      rw [joinUnits]
      constructor
      · intro hmark
        exact absurd hmark (not_marked_of_plain List.not_mem_nil)
      · intro hsome
        rcases hsome with ⟨piece, hmem, _⟩
        cases hmem
  | cons piece rest ih =>
      have hrest := ih fun other hother =>
        h other (List.mem_cons_of_mem piece hother)
      have hboth : Marked (joinUnits (piece :: rest)) <->
          Marked piece ∨ Marked (joinUnits rest) := by
        cases rest with
        | nil =>
            rw [joinUnits, joinUnits]
            constructor
            · exact Or.inl
            · intro hcase
              rcases hcase with hmark | hmark
              · exact hmark
              · exact absurd hmark (not_marked_of_plain List.not_mem_nil)
        | cons next more =>
            rw [joinUnits]
            · unfold Marked
              rw [infix_append_iff (h piece List.mem_cons_self)]
              exact or_congr_right (marked_cons_iff (by decide) _)
            · exact List.cons_ne_nil next more
      rw [hboth, hrest]
      constructor
      · intro hcase
        rcases hcase with hmark | ⟨other, hother, hmark⟩
        · exact ⟨piece, List.mem_cons_self, hmark⟩
        · exact ⟨other, List.mem_cons_of_mem piece hother, hmark⟩
      · intro hsome
        rcases hsome with ⟨other, hother, hmark⟩
        rcases List.mem_cons.mp hother with rfl | hlater
        · exact Or.inl hmark
        · exact Or.inr ⟨other, hlater, hmark⟩

theorem marked_bracketed_iff {opening closing : Nat} (hopen : opening ≠ 0x3c)
    (hclose : closing ∉ contextClose) {pieces : List Units}
    (h : forall piece, piece ∈ pieces -> Closed contextClose piece) :
    Marked (bracketed opening closing pieces) <->
      exists piece, piece ∈ pieces ∧ Marked piece := by
  unfold bracketed
  rw [marked_cons_iff hopen, marked_concat_iff hclose,
    marked_joinUnits_iff h]

theorem closed_bracketed {opening closing : Nat}
    (hclose : closing ∉ contextClose) (pieces : List Units) :
    Closed contextClose (bracketed opening closing pieces) := by
  unfold bracketed
  rw [← List.cons_append]
  exact closed_concat hclose _

mutual

/-- The keys and the strings that a value is printed with. -/
def textsOf : EnvelopeValue -> List Units
  | .undefined => []
  | .null => []
  | .bool _ => []
  | .number _ => []
  | .string s => [s]
  | .array items => itemTexts items
  | .object fields => fieldTexts fields

def itemTexts : List EnvelopeValue -> List Units
  | [] => []
  | item :: rest => textsOf item ++ itemTexts rest

def fieldTexts : List (Units × EnvelopeValue) -> List Units
  | [] => []
  | (key, value) :: rest =>
      if isDefined value then key :: (textsOf value ++ fieldTexts rest)
      else fieldTexts rest

end

/-- One of the texts holds the closing tag. -/
def SomeMarked (texts : List Units) : Prop :=
  exists text, text ∈ texts ∧ Marked text

theorem someMarked_append_iff (a b : List Units) :
    SomeMarked (a ++ b) <-> SomeMarked a ∨ SomeMarked b := by
  unfold SomeMarked
  constructor
  · intro h
    rcases h with ⟨text, hmem, hmark⟩
    rcases List.mem_append.mp hmem with hleft | hright
    · exact Or.inl ⟨text, hleft, hmark⟩
    · exact Or.inr ⟨text, hright, hmark⟩
  · intro h
    rcases h with ⟨text, hmem, hmark⟩ | ⟨text, hmem, hmark⟩
    · exact ⟨text, List.mem_append_left b hmem, hmark⟩
    · exact ⟨text, List.mem_append_right a hmem, hmark⟩

theorem someMarked_cons_iff (text : Units) (rest : List Units) :
    SomeMarked (text :: rest) <-> Marked text ∨ SomeMarked rest := by
  unfold SomeMarked
  rw [List.exists_mem_cons_iff]

theorem not_someMarked_nil : ¬ SomeMarked [] := by
  intro h
  rcases h with ⟨text, hmem, _⟩
  cases hmem

section Printed

variable (localeOrder : Units -> Units -> Bool)

/-- An entry of an object is its key and its value. -/
theorem marked_entry_iff {value : Units} (key : Units) :
    Marked (quoteUnits key ++ 0x3a :: value) <-> Marked key ∨ Marked value := by
  unfold Marked
  rw [infix_append_iff (closed_quoteUnits key)]
  exact or_congr (marked_quoteUnits_iff key) (marked_cons_iff (by decide) _)

theorem closed_entry {value : Units} (h : Closed contextClose value)
    (key : Units) :
    Closed contextClose (quoteUnits key ++ 0x3a :: value) := by
  have hcolon : Closed contextClose [0x3a] := closed_of_plain (by decide)
  exact closed_append (closed_quoteUnits key) (closed_append hcolon h)

/-- A text without a bracket is printed for a value without strings. -/
theorem plain_spec {units : Units} (h : 0x3c ∉ units) :
    Closed contextClose units ∧ (Marked units <-> SomeMarked []) := by
  constructor
  · exact closed_of_plain h
  · constructor
    · intro hmark
      exact absurd hmark (not_marked_of_plain h)
    · intro hsome
      exact absurd hsome not_someMarked_nil

mutual

theorem stableStringify_spec : (value : EnvelopeValue) ->
    Closed contextClose (stableStringify localeOrder value) ∧
      (Marked (stableStringify localeOrder value) <->
        SomeMarked (textsOf value))
  | .undefined => plain_spec (show 0x3c ∉ ascii "null" by decide)
  | .null => plain_spec (show 0x3c ∉ ascii "null" by decide)
  | .bool true => plain_spec (show 0x3c ∉ ascii "true" by decide)
  | .bool false => plain_spec (show 0x3c ∉ ascii "false" by decide)
  | .number n => plain_spec n.plain
  | .string s => by
      constructor
      · exact closed_quoteUnits s
      · rw [textsOf, someMarked_cons_iff, stableStringify,
          marked_quoteUnits_iff]
        constructor
        · exact Or.inl
        · intro h
          exact h.resolve_right not_someMarked_nil
  | .array items => by
      rcases stableItems_spec items with ⟨hclosed, hmarked⟩
      rw [stableStringify, textsOf]
      constructor
      · exact closed_bracketed (by decide) _
      · rw [marked_bracketed_iff (by decide) (by decide) hclosed]
        exact hmarked
  | .object fields => by
      rcases stableEntries_spec fields with ⟨hclosed, hmarked⟩
      rw [stableStringify, textsOf]
      have hperm : forall piece,
          piece ∈ ((stableEntries localeOrder fields).mergeSort fun a b =>
            localeOrder a.1 b.1).map Prod.snd <->
          piece ∈ (stableEntries localeOrder fields).map Prod.snd := by
        intro piece
        exact ((List.mergeSort_perm _ _).map Prod.snd).mem_iff
      constructor
      · exact closed_bracketed (by decide) _
      · rw [marked_bracketed_iff (by decide) (by decide)
          fun piece hpiece => hclosed piece ((hperm piece).mp hpiece),
          ← hmarked]
        constructor
        · intro h
          rcases h with ⟨piece, hpiece, hmark⟩
          exact ⟨piece, (hperm piece).mp hpiece, hmark⟩
        · intro h
          rcases h with ⟨piece, hpiece, hmark⟩
          exact ⟨piece, (hperm piece).mpr hpiece, hmark⟩

theorem stableItems_spec : (items : List EnvelopeValue) ->
    (forall piece, piece ∈ stableItems localeOrder items ->
      Closed contextClose piece) ∧
    (SomeMarked (stableItems localeOrder items) <->
      SomeMarked (itemTexts items))
  | [] => by
      constructor
      · intro piece hpiece
        cases hpiece
      · exact Iff.rfl
  | item :: rest => by
      rcases stableStringify_spec item with ⟨hclosed, hmarked⟩
      rcases stableItems_spec rest with ⟨hclosedRest, hmarkedRest⟩
      rw [stableItems, itemTexts]
      constructor
      · intro piece hpiece
        rcases List.mem_cons.mp hpiece with rfl | hlater
        · exact hclosed
        · exact hclosedRest piece hlater
      · rw [someMarked_cons_iff, someMarked_append_iff, hmarked, hmarkedRest]

theorem stableEntries_spec : (fields : List (Units × EnvelopeValue)) ->
    (forall piece, piece ∈ (stableEntries localeOrder fields).map Prod.snd ->
      Closed contextClose piece) ∧
    (SomeMarked ((stableEntries localeOrder fields).map Prod.snd) <->
      SomeMarked (fieldTexts fields))
  | [] => by
      constructor
      · intro piece hpiece
        cases hpiece
      · exact Iff.rfl
  | (key, value) :: rest => by
      rcases stableStringify_spec value with ⟨hclosed, hmarked⟩
      rcases stableEntries_spec rest with ⟨hclosedRest, hmarkedRest⟩
      rw [stableEntries, fieldTexts]
      split
      · rw [List.map_cons]
        constructor
        · intro piece hpiece
          rcases List.mem_cons.mp hpiece with rfl | hlater
          · exact closed_entry hclosed key
          · exact hclosedRest piece hlater
        · rw [someMarked_cons_iff, marked_entry_iff, hmarked, hmarkedRest,
            someMarked_cons_iff, someMarked_append_iff, or_assoc]
      · exact ⟨hclosedRest, hmarkedRest⟩

end

/-!
## Bodies
-/

def EnvelopeBody.texts (body : EnvelopeBody) : List Units :=
  fieldTexts body.fields

/-- A text of an object is a key with a value, or a text of the value. -/
theorem someMarked_fieldTexts_iff (fields : List (Units × EnvelopeValue)) :
    SomeMarked (fieldTexts fields) <->
      exists key value, (key, value) ∈ fields ∧ isDefined value = true ∧
        (Marked key ∨ SomeMarked (textsOf value)) := by
  induction fields with
  | nil =>
      rw [fieldTexts]
      constructor
      · intro h
        exact absurd h not_someMarked_nil
      · intro h
        rcases h with ⟨key, value, hmem, _⟩
        cases hmem
  | cons field rest ih =>
      rcases field with ⟨key, value⟩
      rw [fieldTexts]
      constructor
      · intro h
        split at h
        · rename_i hdefined
          rw [someMarked_cons_iff, someMarked_append_iff, ← or_assoc] at h
          rcases h with hhere | hlater
          · exact ⟨key, value, List.mem_cons_self, hdefined, hhere⟩
          · rcases ih.mp hlater with ⟨k, v, hmem, hboth⟩
            exact ⟨k, v, List.mem_cons_of_mem _ hmem, hboth⟩
        · rcases ih.mp h with ⟨k, v, hmem, hboth⟩
          exact ⟨k, v, List.mem_cons_of_mem _ hmem, hboth⟩
      · intro h
        rcases h with ⟨k, v, hmem, hdefined, hmark⟩
        rcases List.mem_cons.mp hmem with heq | hlater
        · cases heq
          rw [if_pos hdefined, someMarked_cons_iff, someMarked_append_iff,
            ← or_assoc]
          exact Or.inl hmark
        · have hrest := ih.mpr ⟨k, v, hlater, hdefined, hmark⟩
          split
          · rw [someMarked_cons_iff, someMarked_append_iff]
            exact Or.inr (Or.inr hrest)
          · exact hrest

variable {localeOrder}

theorem EnvelopeBody.value_eq_some_iff {body : EnvelopeBody} {key : Units}
    {value : EnvelopeValue} :
    body.value key = some value <->
      (key, value) ∈ body.fields ∧ isDefined value = true := by
  have hdistinct := body.distinct
  unfold EnvelopeBody.value
  rw [Option.filter_eq_some_iff, Option.map_eq_some_iff]
  apply and_congr_left
  intro _
  constructor
  · intro h
    rcases h with ⟨field, hfind, hvalue⟩
    have hkey := List.find?_some hfind
    rw [← of_decide_eq_true hkey, ← hvalue]
    exact List.mem_of_find?_eq_some hfind
  · intro hmem
    cases hfind : body.fields.find? fun field => field.1 = key with
    | none =>
        have hnot := List.find?_eq_none.mp hfind (key, value) hmem
        exact absurd (decide_eq_true rfl) hnot
    | some field =>
        have hkey := List.find?_some hfind
        have hfield := List.mem_of_find?_eq_some hfind
        have heq := List.inj_on_of_nodup_map hdistinct hfield hmem
          (of_decide_eq_true hkey)
        rw [heq]
        exact ⟨(key, value), rfl, rfl⟩

theorem EnvelopeBody.entry_eq_some_iff {body : EnvelopeBody}
    {key piece : Units} :
    body.entry localeOrder key = some piece <->
      exists value, (key, value) ∈ body.fields ∧ isDefined value = true ∧
        quoteUnits key ++ 0x3a :: stableStringify localeOrder value =
          piece := by
  unfold EnvelopeBody.entry
  rw [Option.map_eq_some_iff]
  constructor
  · intro h
    rcases h with ⟨value, hvalue, hpiece⟩
    rcases EnvelopeBody.value_eq_some_iff.mp hvalue with ⟨hmem, hdefined⟩
    exact ⟨value, hmem, hdefined, hpiece⟩
  · intro h
    rcases h with ⟨value, hmem, hdefined, hpiece⟩
    exact ⟨value, EnvelopeBody.value_eq_some_iff.mpr ⟨hmem, hdefined⟩, hpiece⟩

/-- Every key with a value is in the priority or among the others. -/
theorem EnvelopeBody.mem_keys {body : EnvelopeBody} (priority : List Units)
    {key : Units} (hhas : (body.value key).isSome = true)
    (hmem : key ∈ body.fields.map Prod.fst) :
    key ∈ priority ++ body.restKeys localeOrder priority := by
  rw [List.mem_append]
  by_cases hpriority : key ∈ priority
  · exact Or.inl hpriority
  · right
    unfold EnvelopeBody.restKeys
    dsimp only
    rw [List.mem_mergeSort]
    apply List.mem_filter.mpr
    constructor
    · exact hmem
    · rw [hhas, Bool.and_true, Bool.not_eq_true', List.contains_eq_mem,
        decide_eq_false_iff_not]
      intro hseen
      exact hpriority (List.mem_filter.mp hseen).left

theorem serializeEnvelope_spec (body : EnvelopeBody) (priority : List Units) :
    Marked (serializeEnvelope localeOrder body priority) <->
      SomeMarked body.texts := by
  have hclosed : forall piece,
      piece ∈ (priority ++ body.restKeys localeOrder priority).filterMap
        (body.entry localeOrder) -> Closed contextClose piece := by
    intro piece hpiece
    rcases List.mem_filterMap.mp hpiece with ⟨key, _, hentry⟩
    rcases EnvelopeBody.entry_eq_some_iff.mp hentry with ⟨value, _, _, rfl⟩
    exact closed_entry (stableStringify_spec localeOrder value).left key
  unfold serializeEnvelope EnvelopeBody.texts
  rw [marked_bracketed_iff (by decide) (by decide) hclosed,
    someMarked_fieldTexts_iff]
  constructor
  · intro h
    rcases h with ⟨piece, hpiece, hmark⟩
    rcases List.mem_filterMap.mp hpiece with ⟨key, _, hentry⟩
    rcases EnvelopeBody.entry_eq_some_iff.mp hentry with
      ⟨value, hmem, hdefined, rfl⟩
    rw [marked_entry_iff, (stableStringify_spec localeOrder value).right]
      at hmark
    exact ⟨key, value, hmem, hdefined, hmark⟩
  · intro h
    rcases h with ⟨key, value, hmem, hdefined, hmark⟩
    have hvalue := EnvelopeBody.value_eq_some_iff.mpr ⟨hmem, hdefined⟩
    have hhas : (body.value key).isSome = true := by
      rw [hvalue]
      rfl
    have hentry : body.entry localeOrder key =
        some (quoteUnits key ++ 0x3a :: stableStringify localeOrder value) :=
      EnvelopeBody.entry_eq_some_iff.mpr ⟨value, hmem, hdefined, rfl⟩
    have hkey : key ∈ body.fields.map Prod.fst := List.mem_map_of_mem hmem
    exists quoteUnits key ++ 0x3a :: stableStringify localeOrder value
    constructor
    · exact List.mem_filterMap.mpr
        ⟨key, EnvelopeBody.mem_keys priority hhas hkey, hentry⟩
    · rw [marked_entry_iff, (stableStringify_spec localeOrder value).right]
      exact hmark

/-- The line of JSON holds the closing tag exactly when a string of the body
does. -/
theorem marked_json_iff (options : EnvelopeOptions) :
    Marked (options.json localeOrder) <-> SomeMarked options.body.texts := by
  unfold EnvelopeOptions.json
  split
  · exact (stableStringify_spec localeOrder
      (.object options.body.fields)).right
  · exact serializeEnvelope_spec options.body _

/-!
## Wrapped bodies
-/

theorem digits_plain (n : Nat) : 0x3c ∉ digits n := by
  intro h
  rcases List.mem_map.mp h with ⟨c, hc, hunit⟩
  have htext : (toString n).toList = Nat.toDigits 10 n :=
    String.toList_ofList
  rw [htext] at hc
  have hdigit : c.isDigit = true :=
    Nat.isDigit_of_mem_toDigits (by decide) (by decide) hc
  have hbracket : c = '<' := Char.toNat_inj.mp hunit
  rw [hbracket] at hdigit
  revert hdigit
  decide

theorem event_plain (event : EnvelopeEvent) : 0x3c ∉ event.text := by
  cases event
  all_goals decide

theorem plain_append_units {a b : Units} (ha : 0x3c ∉ a) (hb : 0x3c ∉ b) :
    0x3c ∉ a ++ b := by
  intro h
  rcases List.mem_append.mp h with hleft | hright
  · exact ha hleft
  · exact hb hright

theorem budgetText_plain (options : EnvelopeOptions) :
    0x3c ∉ options.budgetText := by
  unfold EnvelopeOptions.budgetText
  split
  · exact List.not_mem_nil
  · rename_i budget _
    exact plain_append_units (plain_append_units (by decide) budget.plain)
      (by decide)

/-- The opening tag holds the closing one exactly when the agent does. -/
theorem marked_open_iff (options : EnvelopeOptions) :
    Marked (options.open_ localeOrder) <-> Marked options.agent := by
  have htail : 0x3c ∉ ascii " tokens=\"" ++
      digits (estimateTokens (options.json localeOrder)) ++ ascii "\"" ++
      options.budgetText ++ ascii ">" :=
    plain_append_units (plain_append_units (plain_append_units
      (plain_append_units (by decide) (digits_plain _)) (by decide))
      (budgetText_plain options)) (by decide)
  have hhead : Closed contextClose
      (ascii "<minni:context version=\"1\" event=\"" ++ options.event.text ++
        ascii "\" agent=\"") := by
    have hsplit : ascii "\" agent=\"" = ascii "\" agent=" ++ [0x22] := by
      decide
    rw [hsplit, ← List.append_assoc]
    exact closed_concat (by decide) _
  have hheadPlain : ¬ Marked
      (ascii "<minni:context version=\"1\" event=\"" ++ options.event.text ++
        ascii "\" agent=\"") := by
    have hstart : Closed contextClose
        (ascii "<minni:context version=\"1\" event=\"") :=
      closed_concat (by decide)
        (ascii "<minni:context version=\"1\" event=")
    unfold Marked
    rw [List.append_assoc, infix_append_iff hstart, not_or]
    constructor
    · decide
    · exact not_marked_of_plain
        (plain_append_units (event_plain _) (by decide))
  have hshape : options.open_ localeOrder =
      (ascii "<minni:context version=\"1\" event=\"" ++ options.event.text ++
        ascii "\" agent=\"") ++ ((options.agent ++ [0x22]) ++
        (ascii " tokens=\"" ++
          digits (estimateTokens (options.json localeOrder)) ++ ascii "\"" ++
          options.budgetText ++ ascii ">")) := by
    have hquote : ascii "\" tokens=\"" = [0x22] ++ ascii " tokens=\"" := by
      decide
    unfold EnvelopeOptions.open_
    rw [hquote]
    simp only [List.append_assoc]
  rw [hshape]
  unfold Marked
  rw [infix_append_iff hhead, infix_append_iff (closed_concat (by decide) _)]
  constructor
  · intro h
    rcases h with h | h | h
    · exact absurd h hheadPlain
    · exact (marked_concat_iff (by decide) _).mp h
    · exact absurd h (not_marked_of_plain htail)
  · intro h
    exact Or.inr (Or.inl ((marked_concat_iff (by decide) _).mpr h))

/-- What is in front of the closing tag. -/
def EnvelopeOptions.front (localeOrder : Units -> Units -> Bool)
    (options : EnvelopeOptions) : Units :=
  options.open_ localeOrder ++ 0x0a :: (options.json localeOrder ++ [0x0a])

theorem wrapEnvelope_eq (options : EnvelopeOptions) :
    wrapEnvelope localeOrder options =
      options.front localeOrder ++ contextClose := by
  unfold wrapEnvelope EnvelopeOptions.front
  simp

theorem closed_front (options : EnvelopeOptions) :
    Closed contextClose (options.front localeOrder) := by
  unfold EnvelopeOptions.front
  rw [← List.cons_append, ← List.append_assoc]
  exact closed_concat (by decide) _

theorem marked_front_iff (options : EnvelopeOptions) :
    Marked (options.front localeOrder) <->
      Marked options.agent ∨ SomeMarked options.body.texts := by
  have hshape : options.front localeOrder =
      (options.open_ localeOrder ++ [0x0a]) ++
        (options.json localeOrder ++ [0x0a]) := by
    unfold EnvelopeOptions.front
    simp
  rw [hshape]
  unfold Marked
  rw [infix_append_iff (closed_concat (by decide) _)]
  exact or_congr
    ((marked_concat_iff (by decide) _).trans (marked_open_iff options))
    ((marked_concat_iff (by decide) _).trans (marked_json_iff options))

theorem found_contextClose (i : Nat) :
    found (fun here => contextClose.isPrefixOf here) i contextClose = [i] := by
  have hself : contextClose.isPrefixOf contextClose = true :=
    List.isPrefixOf_iff_prefix.mpr (List.prefix_refl _)
  have hrest : found (fun here => contextClose.isPrefixOf here) (i + 1)
      (ascii "/minni:context>") = [] := by
    apply found_nil_of
    intro s hs hsuffix
    rw [Bool.eq_false_iff]
    intro hprefixed
    have hinfixed := (List.isPrefixOf_iff_prefix.mp hprefixed).isInfix.trans
      hsuffix.isInfix
    exact not_marked_of_plain (by decide) hinfixed
  nth_rewrite 2 [contextClose_eq]
  rw [found_cons, ← contextClose_eq, if_pos hself, hrest]

/-- The places of the closing tag. -/
def closings (text : Units) : List Nat :=
  found (fun here => contextClose.isPrefixOf here) 0 text

/-- The closing tag stands at the end and nowhere else. -/
def ClosedOnce (text : Units) : Prop :=
  closings text = [text.length - contextClose.length]

theorem closedOnce_append_iff {front : Units}
    (hclosed : Closed contextClose front) :
    ClosedOnce (front ++ contextClose) <-> ¬ Marked front := by
  have hlength : (front ++ contextClose).length - contextClose.length =
      front.length := by
    rw [List.length_append, Nat.add_sub_cancel]
  unfold ClosedOnce closings
  rw [hlength]
  constructor
  · intro h hmark
    rcases hmark with ⟨before, after, hfront⟩
    have hne : contextClose ++ (after ++ contextClose) ≠ [] := by
      rw [contextClose_eq]
      exact List.cons_ne_nil _ _
    have hmem := @mem_found_append _
      (fun here => contextClose.isPrefixOf here) before _ hne
      (List.isPrefixOf_iff_prefix.mpr (List.prefix_append _ _)) 0
    rw [← List.append_assoc, ← List.append_assoc, hfront, h,
      List.mem_singleton] at hmem
    have hlong := congrArg List.length hfront
    rw [List.length_append, List.length_append] at hlong
    have hpos : contextClose.length = 16 := by
      decide
    omega
  · intro hnot
    rw [found_append]
    · rw [Nat.zero_add, found_contextClose]
    · intro s hs hsuffix
      rw [Bool.eq_false_iff]
      intro hprefixed
      rcases List.prefix_or_prefix_of_prefix
        (List.isPrefixOf_iff_prefix.mp hprefixed)
        (List.prefix_append s contextClose) with hin | hout
      · exact hnot (hin.isInfix.trans hsuffix.isInfix)
      · exact hclosed s hs hsuffix hout

/-- A wrapped body has the closing tag once, at its end, exactly when neither
the agent nor a key or a string of the body holds it. -/
theorem closedOnce_wrapEnvelope_iff (options : EnvelopeOptions) :
    ClosedOnce (wrapEnvelope localeOrder options) <->
      ¬ Marked options.agent ∧
        forall text, text ∈ options.body.texts -> ¬ Marked text := by
  rw [wrapEnvelope_eq, closedOnce_append_iff (closed_front options),
    marked_front_iff, not_or]
  apply and_congr_right
  intro _
  constructor
  · intro h text hmem hmark
    exact h ⟨text, hmem, hmark⟩
  · intro h hsome
    rcases hsome with ⟨text, hmem, hmark⟩
    exact h text hmem hmark

end Printed

/-!
## Evidence
-/

/-- The text of a string in units. -/
def unitsOf (text : String) : Units :=
  Text.utf16Units text

/-- The units of a character: itself, or a pair that is not ASCII. -/
def unitOf (c : Char) : Units :=
  if c.toNat < 0x10000 then [c.toNat]
  else
    [0xd800 + (c.toNat - 0x10000) / 0x400,
      0xdc00 + (c.toNat - 0x10000) % 0x400]

theorem prefix_of_units {mark : List Char}
    (hplain : forall c, c ∈ mark -> c.toNat < 0xd800) {text : List Char}
    (h : mark.map Char.toNat <+: text.flatMap unitOf) :
    mark <+: text := by
  induction mark generalizing text with
  | nil => exact List.nil_prefix
  | cons m mark ih =>
      cases text with
      | nil => exact absurd (List.prefix_nil.mp h) (List.cons_ne_nil _ _)
      | cons c text =>
          rw [List.map_cons, List.flatMap_cons] at h
          have hm := hplain m List.mem_cons_self
          unfold unitOf at h
          split at h
          · rcases List.cons_prefix_cons.mp h with ⟨hhead, htail⟩
            rw [Char.toNat_inj.mp hhead]
            apply List.cons_prefix_cons.mpr
            constructor
            · rfl
            · exact ih (fun d hd => hplain d (List.mem_cons_of_mem m hd)) htail
          · have hhead := (List.cons_prefix_cons.mp h).left
            omega

/-- Plain ASCII is in the units only where it is in the text. -/
theorem infix_of_units {first : Char} {rest : List Char}
    (hplain : forall c, c ∈ first :: rest -> c.toNat < 0xd800)
    {text : List Char}
    (h : (first :: rest).map Char.toNat <:+: text.flatMap unitOf) :
    first :: rest <:+: text := by
  induction text with
  | nil =>
      exact absurd (List.infix_nil.mp h) (List.cons_ne_nil _ _)
  | cons c text ih =>
      have hfirst := hplain first List.mem_cons_self
      have hwhole : (first :: rest).map Char.toNat <+:
          (c :: text).flatMap unitOf -> first :: rest <:+: c :: text :=
        fun hprefixed => (prefix_of_units hplain hprefixed).isInfix
      rw [List.flatMap_cons] at h hwhole
      unfold unitOf at h hwhole
      split at h
      · rename_i hsmall
        rw [if_pos hsmall] at hwhole
        rcases List.infix_cons_iff.mp h with hhere | hlater
        · exact hwhole hhere
        · exact List.infix_cons (ih hlater)
      · rename_i hlarge
        rcases List.infix_cons_iff.mp h with hhere | hlater
        · have hhead := (List.cons_prefix_cons.mp hhere).left
          omega
        · rcases List.infix_cons_iff.mp hlater with hhere | hafter
          · have hhead := (List.cons_prefix_cons.mp hhere).left
            omega
          · exact List.infix_cons (ih hafter)

theorem not_marked_unitsOf {text : String}
    (h : ¬ ("</minni:context>".toList <:+: text.toList)) :
    ¬ Marked (unitsOf text) := by
  intro hmark
  apply h
  have hmarkText : "</minni:context>".toList = '<' :: "/minni:context>".toList := by
    decide
  rw [hmarkText]
  apply infix_of_units
  · exact List.all_iff_forall_prop.mp (by decide)
  · exact hmark

/-- The closing tag of the outer envelope is not in an inner one. -/
theorem not_infix_enveloped {host : ExpandHost} {evidence : Evidence}
    {inner : List Char} (h : Sealed inner) :
    ¬ ("</minni:context>".toList <:+: enveloped host evidence inner) := by
  have hmark : "</minni:context>".toList = '<' :: "/minni:context>".toList := by
    decide
  have hinner : ¬ ('<' :: "/minni:context>".toList <:+: inner) := by
    intro hinfixed
    apply h.closes
    have hstart : ['<', '/'] <+: '<' :: "/minni:context>".toList := by
      decide
    exact hstart.isInfix.trans hinfixed
  have hclose : closeTag = '<' :: "/EVIDENCE>".toList := by
    decide
  rcases plain_evidenceAttributes host evidence with ⟨hattributes, _⟩
  rw [hmark]
  unfold enveloped
  rw [List.append_assoc]
  apply Replace.not_infix_append
  · intro s hs hsuffix hprefixed
    cases s with
    | nil => exact hs rfl
    | cons c s =>
        have hc := (List.cons_prefix_cons.mp hprefixed).left
        unfold openTag at hsuffix
        rcases List.suffix_cons_iff.mp hsuffix with hwhole | hlater
        · rw [hwhole] at hprefixed
          have htail := (List.cons_prefix_cons.mp hprefixed).right
          have hletter := (List.cons_prefix_cons.mp htail).left
          revert hletter
          decide
        · have hmem := hlater.subset List.mem_cons_self
          rw [← hc] at hmem
          rcases List.mem_append.mp hmem with hleft | hright
          · rcases List.mem_append.mp hleft with hword | hattr
            · revert hword
              decide
            · exact hattributes hattr
          · revert hright
            decide
  · apply Replace.not_infix_append
    · rw [hclose]
      exact Replace.not_prefix_seam (by decide) hinner
    · decide

theorem toList_buildEvidenceEnvelope (host : ExpandHost) (evidence : Evidence)
    (text : String) :
    (buildEvidenceEnvelope host evidence text).toList =
      enveloped host evidence
        (evidenceBody host evidence.instruction_like text) :=
  String.toList_ofList

/-- What is clipped begins as the text does, and ends with plain marks. -/
theorem not_marked_clipEvidenceText {text : Units} (h : ¬ Marked text)
    (maxChars : Nat) :
    ¬ Marked (clipEvidenceText text maxChars) := by
  have htake : forall n, ¬ Marked (text.take n) := by
    intro n hmark
    exact h (hmark.trans (List.take_prefix n text).isInfix)
  have hdots : forall (n : Nat) (rest : Units), ¬ Marked rest ->
      ¬ Marked (text.take n ++ ascii "..." ++ rest) := by
    intro n rest hrest
    have hsplit : text.take n ++ ascii "..." = (text.take n ++ ascii "..") ++
        [0x2e] := by
      rw [List.append_assoc]
      rfl
    have hfront : ¬ Marked (text.take n ++ ascii "..") := by
      have hone : text.take n ++ ascii ".." = (text.take n ++ [0x2e]) ++
          [0x2e] := by
        rw [List.append_assoc]
        rfl
      rw [hone, marked_concat_iff (by decide), marked_concat_iff (by decide)]
      exact htake n
    rw [hsplit]
    unfold Marked
    rw [infix_append_iff (closed_concat (by decide) _), not_or]
    constructor
    · exact fun hmark => hfront ((marked_concat_iff (by decide) _).mp hmark)
    · exact hrest
  have hclose : ¬ Marked evidenceClose := by
    unfold Marked
    decide
  unfold clipEvidenceText
  split
  · exact h
  · split
    · rename_i openTag htag
      have hopen : exists n, openTag = text.take n := by
        have hsome := (Option.filter_eq_some_iff.mp htag).left
        unfold evidenceTag at hsome
        dsimp only at hsome
        split at hsome
        · cases hsome
          exact ⟨_, rfl⟩
        · cases hsome
      rcases hopen with ⟨n, rfl⟩
      have hlength : text.take n = text.take (text.take n).length := by
        rw [List.length_take, List.take_eq_take_min]
      have hbefore : exists m, text.take n ++
          (((text.take (text.length - evidenceClose.length)).drop
            (text.take n).length).take
              (maxChars - (text.take n).length - evidenceClose.length - 3)) =
          text.take m := by
        rw [List.drop_take, List.take_take]
        nth_rewrite 1 [hlength]
        rw [← List.take_add]
        exact ⟨_, rfl⟩
      rcases hbefore with ⟨m, hm⟩
      dsimp only
      rw [hm]
      exact hdots m _ hclose
    · have hnil := hdots (maxChars - 3) [] (not_marked_of_plain (by decide))
      rw [List.append_nil] at hnil
      exact hnil

/-!
## Untrusted text
-/

section Untrusted

variable (host : EnvelopeHost) (scanner : Scanner) (evidence : Evidence)
  (text : String)

def Perturbed : Prop :=
  (evidence.instruction_like &&
    host.instruction_body_perturbation_enabled) = true

/-- The envelope of a text, whole or clipped. -/
def EvidenceText (units : Units) : Prop :=
  units = unitsOf (buildEvidenceEnvelope host.toExpandHost evidence text) ∨
    exists maxChars, units = clipEvidenceText
      (unitsOf (buildEvidenceEnvelope host.toExpandHost evidence text)) maxChars

/-- A scanner finds one tag that opens and one that closes, the attributes are
read back, the marks in the body are taken out again, and a wrapped body that
holds the envelope has its own closing tag at its end only. -/
structure StaysInside : Prop where
  opens : scanner.opens
    (buildEvidenceEnvelope host.toExpandHost evidence text).toList = [0]
  closes : scanner.closes
    (buildEvidenceEnvelope host.toExpandHost evidence text).toList =
      [(buildEvidenceEnvelope host.toExpandHost evidence text).toList.length -
        closeTag.length]
  attributes : attributesOf
    (buildEvidenceEnvelope host.toExpandHost evidence text).toList =
      attributeTexts host.toExpandHost evidence
  recovers : Perturbed host evidence ->
    recoverInstructionLikeBody
      (evidenceBody host.toExpandHost evidence.instruction_like text) =
        evidenceBodyEscape text.toList
  wraps : forall localeOrder options,
    ¬ Marked options.agent ->
    (forall units, units ∈ options.body.texts ->
      EvidenceText host evidence text units ∨ ¬ Marked units) ->
    ClosedOnce (wrapEnvelope localeOrder options)

variable {host evidence text}

theorem not_marked_evidenceText {units : Units}
    (h : EvidenceText host evidence text units) : ¬ Marked units := by
  have hwhole : ¬ Marked
      (unitsOf (buildEvidenceEnvelope host.toExpandHost evidence text)) := by
    apply not_marked_unitsOf
    rw [toList_buildEvidenceEnvelope]
    exact not_infix_enveloped (sealed_evidenceBody ..)
  rcases h with h | ⟨maxChars, h⟩
  · rw [h]
    exact hwhole
  · rw [h]
    exact not_marked_clipEvidenceText hwhole maxChars

theorem recovers_iff :
    (Perturbed host evidence ->
      recoverInstructionLikeBody
        (evidenceBody host.toExpandHost evidence.instruction_like text) =
          evidenceBodyEscape text.toList) <->
    (Perturbed host evidence -> Recoverable text.toList) := by
  apply imp_congr_right
  intro hperturbed
  have hbody : evidenceBody host.toExpandHost evidence.instruction_like text =
      perturbInstructionLikeBody host.isWord
        (evidenceBodyEscape text.toList) :=
    if_pos hperturbed
  rw [hbody, recover_perturb_iff, recoverable_evidenceBodyEscape_iff]

variable (host evidence text)

/-- Untrusted text stays inside its envelope, and what is done to its body can
be undone exactly when the body is not marked or the text holds no placeholder.
A wrapped body holds its closing tag once exactly when none of its own strings
does. -/
theorem untrusted_text_stays_inside :
    (StaysInside host scanner evidence text <->
      (Perturbed host evidence -> Recoverable text.toList)) ∧
    (forall localeOrder options,
      ClosedOnce (wrapEnvelope localeOrder options) <->
        ¬ Marked options.agent ∧
          forall units, units ∈ options.body.texts -> ¬ Marked units) := by
  have hsealed := sealed_evidenceBody host.toExpandHost
    evidence.instruction_like text
  have hlist := toList_buildEvidenceEnvelope host.toExpandHost evidence text
  constructor
  · constructor
    · intro h
      exact recovers_iff.mp h.recovers
    · intro h
      constructor
      · rw [hlist]
        exact scanner.opens_enveloped hsealed
      · rw [hlist]
        exact scanner.closes_enveloped hsealed
      · rw [hlist]
        exact attributesOf_enveloped host evidence _
      · exact recovers_iff.mpr h
      · intro localeOrder options hagent htexts
        apply (closedOnce_wrapEnvelope_iff options).mpr
        constructor
        · exact hagent
        · intro units hunits
          rcases htexts units hunits with hevidence | hfree
          · exact not_marked_evidenceText hevidence
          · exact hfree
  · intro localeOrder options
    exact closedOnce_wrapEnvelope_iff options

end Untrusted

/-!
## A text that holds the placeholder
-/

namespace Placeholder

def host : EnvelopeHost where
  read :=
    { lower := String.toLower
      resolve := fun path => some [path]
      home := fun _ => none }
  isWord := fun c => c.isAlphanum || c = '_'
  isInstructionLike := fun _ => true
  scoreAttribution := fun _ _ => none
  attribution_model := Json.null
  format3 := fun _ => "1.000"
  format3_plain := fun _ => by decide
  basename := fun path => path
  instruction_body_perturbation_enabled := true
  format3_bare := fun _ => by decide

def evidence : Evidence where
  source := Json.str "wiki/sessions/note.md"
  agent := Json.str "vault"
  status := Json.str "accepted"
  privacy := Json.str "safe"
  score := Json.int 1
  instruction_like := true
  visibility := Json.str "vault-local"
  attribution := Json.null

def text : String :=
  String.ofList (nul :: ("MINNI_BOUNDARY".toList ++ [nul]))

/-- The letter itself, or a letter that differs in ASCII case. -/
def scanner : Scanner where
  same := fun p c => c = p || c = p.toLower
  reads := by
    intro c
    rw [decide_eq_true rfl, Bool.true_or]
  folds := by
    intro p _ c h
    unfold sameLetter
    rw [h, Bool.true_or]

theorem placeholder_not_recovered :
    ¬ StaysInside host scanner evidence text := by
  intro h
  have hperturbed : Perturbed host evidence := rfl
  have hrecoverable := recovers_iff.mp h.recovers hperturbed
  apply hrecoverable.whole
  have htext : text.toList = placeholderThen nul := String.toList_ofList
  exact htext ▸ List.infix_refl _

end Placeholder

end Hooks
end Minni
