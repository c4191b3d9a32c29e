import Mathlib.Data.List.TakeWhile
import Minni.Foundation.JsonScan

/-!
# Printing and reading JSON

A value that the printer can have printed is what the reader makes of its text,
and no text that breaks off inside an object is read as a value.
-/

namespace Minni
namespace Foundation
namespace Json

/-!
## Values of the host language

The keys of an object differ, and a number that is no integer has a text that
the reader keeps.
-/

def PrintableNumber (n : JsonNumber) : Prop :=
  numberOf (numberText n) = some n ∧
    (numberText n).all (fun c => !Scan.endsBare c) = true

instance (n : JsonNumber) : Decidable (PrintableNumber n) :=
  inferInstanceAs (Decidable (_ ∧ _))

mutual

def Printable : Json -> Prop
  | Json.null => True
  | Json.bool _ => True
  | Json.num n => PrintableNumber n
  | Json.str _ => True
  | Json.arr items => PrintableItems items
  | Json.obj fields => (fields.map Prod.fst).Nodup ∧ PrintableFields fields

def PrintableItems : List Json -> Prop
  | [] => True
  | item :: rest => Printable item ∧ PrintableItems rest

def PrintableFields : List (String × Json) -> Prop
  | [] => True
  | field :: rest => Printable field.2 ∧ PrintableFields rest

end

/-!
## Integers
-/

theorem isDigit_endsBare
    {c : Char} (h : c.isDigit = true) : Scan.endsBare c = false := by
  cases hends : Scan.endsBare c with
  | false =>
      rfl
  | true =>
      unfold Scan.endsBare Scan.isBlank at hends
      simp only [Bool.or_eq_true, decide_eq_true_eq] at hends
      rcases hends with (((((rfl | rfl) | rfl) | rfl) | rfl) | rfl) | rfl <;>
        cases h

theorem digitChar_zero :
    forall n, n < 10 -> n.digitChar = '0' -> n = 0 := by
  decide

theorem toDigits_head_zero
    {n : Nat} (h : (Nat.toDigits 10 n).head? = some '0') : n = 0 := by
  induction n using Nat.strongRecOn with
  | ind n ih =>
      by_cases hsmall : n < 10
      · rw [Nat.toDigits_of_lt_base hsmall] at h
        exact digitChar_zero n hsmall (Option.some.inj h)
      · have hle : 10 ≤ n := Nat.le_of_not_lt hsmall
        rw [Nat.toDigits_of_base_le (by decide) hle,
          List.head?_append_of_ne_nil _ Nat.toDigits_ne_nil] at h
        have hzero := ih (n / 10) (by omega) h
        omega

theorem takeWhile_toDigits (n : Nat) :
    (Nat.toDigits 10 n).takeWhile Char.isDigit = Nat.toDigits 10 n :=
  List.takeWhile_eq_self_iff.mpr fun _ hc =>
    Nat.isDigit_of_mem_toDigits (by decide) (by decide) hc

theorem dropWhile_toDigits (n : Nat) :
    (Nat.toDigits 10 n).dropWhile Char.isDigit = [] :=
  List.dropWhile_eq_nil_iff.mpr fun _ hc =>
    Nat.isDigit_of_mem_toDigits (by decide) (by decide) hc

theorem unsignedOf_toDigits (negative : Bool) (whole : List Char) (n : Nat) :
    unsignedOf negative whole (Nat.toDigits 10 n) =
      some (JsonNumber.int (if negative then -(n : Int) else n)) := by
  unfold unsignedOf
  rw [takeWhile_toDigits, dropWhile_toDigits]
  have hne : (Nat.toDigits 10 n).isEmpty = false := by
    simp
  have hzero : (decide ((Nat.toDigits 10 n).length > 1) &&
      decide ((Nat.toDigits 10 n).head? = some '0')) = false := by
    by_cases hhead : (Nat.toDigits 10 n).head? = some '0'
    · rw [toDigits_head_zero hhead]
      rfl
    · simp [hhead]
  simp only [hne, hzero, Bool.or_self, Bool.false_eq_true, if_false,
    List.isEmpty_nil, if_true, Nat.ofDigitChars_ten_toDigits]

theorem toDigits_not_minus
    {n : Nat} {rest : List Char} (h : Nat.toDigits 10 n = '-' :: rest) :
    False := by
  have hdigit := Nat.isDigit_of_mem_toDigits (b := 10) (n := n) (c := '-')
    (by decide) (by decide) (by rw [h]; exact List.mem_cons_self ..)
  cases hdigit

theorem printableNumber_int (n : Int) : PrintableNumber (JsonNumber.int n) := by
  cases n with
  | ofNat m =>
      have htext : numberText (JsonNumber.int (Int.ofNat m)) =
          Nat.toDigits 10 m := by
        simp [numberText, Int.repr_eq_if, Nat.toList_repr]
      unfold PrintableNumber
      rw [htext]
      constructor
      · unfold numberOf
        split
        · rename_i rest hrest
          exact (toDigits_not_minus hrest).elim
        · rw [unsignedOf_toDigits]
          rfl
      · apply List.all_eq_true.mpr
        intro c hc
        rw [isDigit_endsBare
          (Nat.isDigit_of_mem_toDigits (by decide) (by decide) hc)]
        rfl
  | negSucc m =>
      have htext : numberText (JsonNumber.int (Int.negSucc m)) =
          '-' :: Nat.toDigits 10 (m + 1) := by
        simp [numberText, Int.repr_eq_if, Nat.toList_repr]
      unfold PrintableNumber
      rw [htext]
      constructor
      · show unsignedOf true _ (Nat.toDigits 10 (m + 1)) = _
        rw [unsignedOf_toDigits]
        rfl
      · rw [List.all_cons]
        apply Bool.and_eq_true_iff.mpr
        refine ⟨by decide, List.all_eq_true.mpr ?_⟩
        intro c hc
        rw [isDigit_endsBare
          (Nat.isDigit_of_mem_toDigits (by decide) (by decide) hc)]
        rfl

/-!
## Strings
-/

namespace Letters

def plain (text : List Char) : Letters where
  text := text
  high := none
  escape := Escape.none

/-- The string after more characters, as long as it stays open. -/
def feed (l : Letters) : List Char -> Option Letters
  | [] => some l
  | c :: cs =>
      match l.step c with
      | LettersStep.more next => next.feed cs
      | _ => none

theorem feed_append
    {l l' : Letters} {cs ds : List Char} (h : l.feed cs = some l') :
    l.feed (cs ++ ds) = l'.feed ds := by
  induction cs generalizing l with
  | nil =>
      cases h
      rfl
  | cons c cs ih =>
      rw [List.cons_append]
      cases hstep : l.step c with
      | more next =>
          simp only [feed, hstep] at h ⊢
          exact ih h
      | closed text =>
          simp [feed, hstep] at h
      | bad =>
          simp [feed, hstep] at h

theorem hexValue_hexDigit :
    forall n, n < 16 -> hexValue (hexDigit n) = some n := by
  decide

/-- A control character, written with its four digits. -/
theorem feed_control
    {text : List Char} {c : Char} (h : c.toNat < 32) :
    (plain text).feed
        ['\\', 'u', '0', '0', hexDigit (c.toNat / 16),
          hexDigit (c.toNat % 16)] =
      some (plain (c :: text)) := by
  have hzero : hexValue '0' = some 0 := by decide
  have hhigh := hexValue_hexDigit (c.toNat / 16) (by omega)
  have hlow := hexValue_hexDigit (c.toNat % 16) (by omega)
  have hvalue : ((0 * 16 + 0) * 16 + 0) * 16 + c.toNat / 16 =
      c.toNat / 16 := by omega
  have hunit : (c.toNat / 16) * 16 + c.toNat % 16 = c.toNat := by omega
  have hnotHigh : isHigh c.toNat = false := by
    unfold isHigh
    simp only [Bool.and_eq_false_iff, decide_eq_false_iff_not]
    omega
  have hnotLow : isLow c.toNat = false := by
    unfold isLow
    simp only [Bool.and_eq_false_iff, decide_eq_false_iff_not]
    omega
  simp [feed, step, plain, hzero, hhigh, hlow, hunit, pushUnit, hnotHigh,
    hnotLow, push, flush, Char.ofNat_toNat]

theorem feed_escaped
    {text : List Char} {c d : Char} (hu : d ≠ 'u')
    (h : escaped d = some c) :
    (plain text).feed ['\\', d] = some (plain (c :: text)) := by
  simp [feed, step, plain, hu, h, push, flush]

theorem feed_escapeChar (text : List Char) (c : Char) :
    (plain text).feed (escapeChar c) = some (plain (c :: text)) := by
  unfold escapeChar
  split
  · rename_i hc
    rw [hc]
    exact feed_escaped (by decide) (by decide)
  split
  · rename_i hc
    rw [hc]
    exact feed_escaped (by decide) (by decide)
  split
  · rename_i hc
    rw [hc]
    exact feed_escaped (by decide) (by decide)
  split
  · rename_i hc
    rw [hc]
    exact feed_escaped (by decide) (by decide)
  split
  · rename_i hc
    rw [hc]
    exact feed_escaped (by decide) (by decide)
  split
  · rename_i hc
    have hback : c = Char.ofNat 8 := by
      rw [<- hc, Char.ofNat_toNat]
    rw [hback]
    exact feed_escaped (by decide) (by decide)
  split
  · rename_i hc
    have hfeed : c = Char.ofNat 12 := by
      rw [<- hc, Char.ofNat_toNat]
    rw [hfeed]
    exact feed_escaped (by decide) (by decide)
  split
  · rename_i hc
    exact feed_control hc
  · rename_i hquote hslash _ _ _ _ _ hcontrol
    simp [feed, step, plain, hquote, hslash, hcontrol, push, flush]

theorem feed_flatMap_escapeChar (cs text : List Char) :
    (plain text).feed (cs.flatMap escapeChar) =
      some (plain (cs.reverse ++ text)) := by
  induction cs generalizing text with
  | nil =>
      rfl
  | cons c cs ih =>
      rw [List.flatMap_cons, feed_append (feed_escapeChar text c), ih]
      simp

end Letters

namespace Scan

theorem run_string
    {stack : List Frame} {l l' : Letters} {cs : List Char}
    (h : l.feed cs = some l') :
    (string stack l).run cs = string stack l' := by
  induction cs generalizing l with
  | nil =>
      cases h
      rfl
  | cons c cs ih =>
      rw [run_cons]
      cases hstep : l.step c with
      | more next =>
          simp only [Letters.feed, hstep] at h
          simp only [step, hstep]
          exact ih h
      | closed text =>
          simp [Letters.feed, hstep] at h
      | bad =>
          simp [Letters.feed, hstep] at h

theorem run_key
    {done : List (String × Json)} {stack : List Frame} {l l' : Letters}
    {cs : List Char} (h : l.feed cs = some l') :
    (key done stack l).run cs = key done stack l' := by
  induction cs generalizing l with
  | nil =>
      cases h
      rfl
  | cons c cs ih =>
      rw [run_cons]
      cases hstep : l.step c with
      | more next =>
          simp only [Letters.feed, hstep] at h
          simp only [step, hstep]
          exact ih h
      | closed text =>
          simp [Letters.feed, hstep] at h
      | bad =>
          simp [Letters.feed, hstep] at h

theorem feed_text (s : String) :
    Letters.empty.feed (s.toList.flatMap escapeChar) =
      some (Letters.plain s.toList.reverse) := by
  have h := Letters.feed_flatMap_escapeChar s.toList []
  rw [List.append_nil] at h
  exact h

theorem step_plain_quote (text : List Char) :
    (Letters.plain text).step '"' =
      LettersStep.closed (String.ofList text.reverse) :=
  rfl

theorem run_quote (stack : List Frame) (s : String) :
    (string stack Letters.empty).run
        (s.toList.flatMap escapeChar ++ ['"']) =
      after stack (Json.str s) := by
  rw [run_append, run_string (feed_text s), run_cons]
  show run (step (string stack _) '"') [] = _
  simp [step, step_plain_quote, run]

theorem run_quotedKey
    (done : List (String × Json)) (stack : List Frame) (s : String) :
    (key done stack Letters.empty).run
        (s.toList.flatMap escapeChar ++ ['"']) =
      colon done s stack := by
  rw [run_append, run_key (feed_text s), run_cons]
  show run (step (key done stack _) '"') [] = _
  simp [step, step_plain_quote, run]

/-!
## Tokens without quotes
-/

theorem run_bare
    {stack : List Frame} {text cs : List Char}
    (h : cs.all (fun c => !endsBare c) = true) :
    (bare stack text).run cs = bare stack (cs.reverse ++ text) := by
  induction cs generalizing text with
  | nil =>
      rfl
  | cons c cs ih =>
      rw [List.all_cons, Bool.and_eq_true_iff, Bool.not_eq_true'] at h
      rw [run_cons]
      show run (stepBare stack text c) cs = _
      unfold stepBare
      rw [h.left]
      simp only [Bool.false_eq_true, if_false]
      rw [ih h.right, List.reverse_cons, List.append_assoc]
      rfl

theorem isBlank_of_not_endsBare
    {c : Char} (h : endsBare c = false) : isBlank c = false := by
  unfold endsBare at h
  simp only [Bool.or_eq_false_iff] at h
  exact h.left.left.left

/-- A value begins with a token of this text. -/
theorem run_value_bare
    {stack : List Frame} {c : Char} {cs : List Char}
    (h : (c :: cs).all (fun c => !endsBare c) = true)
    (hquote : c ≠ '"') (harr : c ≠ '[') (hobj : c ≠ '\x7b') :
    (value stack).run (c :: cs) = bare stack (c :: cs).reverse := by
  rw [List.all_cons, Bool.and_eq_true_iff, Bool.not_eq_true'] at h
  rw [run_cons]
  have hstep : (value stack).step c = bare stack [c] := by
    simp [step, startValue, isBlank_of_not_endsBare h.left, h.left, hquote,
      harr, hobj]
  rw [hstep, run_bare h.right, List.reverse_cons]

theorem unsignedOf_some
    {negative : Bool} {whole : List Char} {c : Char} {cs : List Char}
    {n : JsonNumber} (h : unsignedOf negative whole (c :: cs) = some n) :
    c.isDigit = true := by
  unfold unsignedOf at h
  cases hdigit : c.isDigit with
  | true =>
      rfl
  | false =>
      simp [hdigit] at h

theorem numberOf_head
    {c : Char} {cs : List Char} {n : JsonNumber}
    (h : numberOf (c :: cs) = some n) :
    c = '-' ∨ c.isDigit = true := by
  unfold numberOf at h
  split at h
  · rename_i hcs
    exact Or.inl (List.cons.inj hcs).left
  · exact Or.inr (unsignedOf_some h)

theorem bareValue_number
    {n : JsonNumber} (h : PrintableNumber n) :
    bareValue (numberText n) = some (Json.num n) := by
  unfold bareValue
  split
  · rename_i htext
    have hnumber := h.left
    rw [htext] at hnumber
    cases hnumber
  split
  · rename_i htext
    have hnumber := h.left
    rw [htext] at hnumber
    cases hnumber
  split
  · rename_i htext
    have hnumber := h.left
    rw [htext] at hnumber
    cases hnumber
  · rw [h.left]
    rfl

theorem numberText_head
    {n : JsonNumber} (h : PrintableNumber n) :
    exists c cs, numberText n = c :: cs ∧ c ≠ '"' ∧ c ≠ '[' ∧
      c ≠ '\x7b' := by
  cases htext : numberText n with
  | nil =>
      have hnumber := h.left
      rw [htext] at hnumber
      cases hnumber
  | cons c cs =>
      have hnumber := h.left
      rw [htext] at hnumber
      refine ⟨c, cs, rfl, ?_⟩
      rcases numberOf_head hnumber with hminus | hdigit
      · rw [hminus]
        decide
      · refine ⟨?_, ?_, ?_⟩
        · intro hc
          rw [hc] at hdigit
          cases hdigit
        · intro hc
          rw [hc] at hdigit
          cases hdigit
        · intro hc
          rw [hc] at hdigit
          cases hdigit

/-!
## Values

The scanner has read the value, or the value is a token and ends with the next
character.
-/

def Delivered (s : Scan) (stack : List Frame) (v : Json) : Prop :=
  s = after stack v ∨
    exists text, s = bare stack text ∧ bareValue text.reverse = some v

theorem delivered_step
    {s : Scan} {stack : List Frame} {v : Json} {c : Char}
    (h : Delivered s stack v) (hc : endsBare c = true) :
    s.step c = stepAfter stack v c := by
  rcases h with hs | ⟨text, hs, hvalue⟩
  · rw [hs]
    rfl
  · rw [hs]
    show stepBare stack text c = _
    unfold stepBare
    rw [hc, hvalue]
    rfl

theorem delivered_finish
    {s : Scan} {v : Json} (h : Delivered s [] v) : s.finish = some v := by
  rcases h with hs | ⟨text, hs, hvalue⟩
  · rw [hs]
    rfl
  · rw [hs]
    exact hvalue

theorem delivered_literal
    {stack : List Frame} {v : Json} {c : Char} {cs : List Char}
    (hchars : (c :: cs).all (fun c => !endsBare c) = true)
    (hquote : c ≠ '"') (harr : c ≠ '[') (hobj : c ≠ '\x7b')
    (hvalue : bareValue (c :: cs) = some v) :
    Delivered ((value stack).run (c :: cs)) stack v := by
  rw [run_value_bare hchars hquote harr hobj]
  right
  refine ⟨_, rfl, ?_⟩
  rw [List.reverse_reverse]
  exact hvalue

theorem delivered_number
    {stack : List Frame} {n : JsonNumber} (h : PrintableNumber n) :
    Delivered ((value stack).run (numberText n)) stack (Json.num n) := by
  rcases numberText_head h with ⟨c, cs, htext, hquote, harr, hobj⟩
  have hchars := h.right
  have hvalue := bareValue_number h
  rw [htext] at hchars hvalue ⊢
  exact delivered_literal hchars hquote harr hobj hvalue

/-- The first character of a text tells a value from an empty array. -/
theorem stringify_head (v : Json) (h : Printable v) :
    exists c cs, stringify v = c :: cs ∧ isBlank c = false ∧ c ≠ ']' := by
  cases v with
  | null => exact ⟨_, _, rfl, by decide, by decide⟩
  | bool b =>
      cases b with
      | true => exact ⟨_, _, rfl, by decide, by decide⟩
      | false => exact ⟨_, _, rfl, by decide, by decide⟩
  | num n =>
      rcases numberText_head h with ⟨c, cs, htext, _⟩
      have hchars := h.right
      rw [htext, List.all_cons, Bool.and_eq_true_iff,
        Bool.not_eq_true'] at hchars
      refine ⟨c, cs, htext, isBlank_of_not_endsBare hchars.left, ?_⟩
      intro hc
      rw [hc] at hchars
      exact absurd hchars.left (by decide)
  | str s => exact ⟨_, _, rfl, by decide, by decide⟩
  | arr items => exact ⟨_, _, rfl, by decide, by decide⟩
  | obj fields => exact ⟨_, _, rfl, by decide, by decide⟩

theorem run_firstItem
    {stack : List Frame} {v : Json} {rest : List Char} (h : Printable v) :
    (firstItem stack).run (stringify v ++ rest) =
      (value (Frame.arr [] :: stack)).run (stringify v ++ rest) := by
  rcases stringify_head v h with ⟨c, cs, htext, hblank, hclose⟩
  rw [htext, List.cons_append, run_cons, run_cons]
  congr 1
  simp [step, hblank, hclose]

theorem addField_fresh
    {done : List (String × Json)} {name : String} {v : Json}
    (h : name ∉ done.map Prod.fst) :
    addField done name v = (name, v) :: done := by
  unfold addField
  rw [if_neg]
  intro hany
  rcases List.any_eq_true.mp hany with ⟨field, hfield, hname⟩
  apply h
  exact List.mem_map.mpr ⟨field, hfield, of_decide_eq_true hname⟩

/-- The key of a field and its colon. -/
theorem run_keyColon
    (done : List (String × Json)) (stack : List Frame) (name : String)
    (rest : List Char) :
    (nextKey done stack).run (quote name ++ ':' :: rest) =
      (value (Frame.obj done name :: stack)).run rest := by
  unfold quote
  rw [List.cons_append, run_cons]
  have hquote : (nextKey done stack).step '"' =
      key done stack Letters.empty := by
    simp [step, isBlank]
  rw [hquote, run_append, run_quotedKey, run_cons]
  congr 1

theorem run_field
    {done : List (String × Json)} {stack : List Frame} {name : String}
    {v : Json} {c : Char} {rest : List Char}
    (hv : Delivered
      ((value (Frame.obj done name :: stack)).run (stringify v))
      (Frame.obj done name :: stack) v)
    (hc : endsBare c = true) :
    (nextKey done stack).run
        (quote name ++ ':' :: (stringify v ++ c :: rest)) =
      (stepAfter (Frame.obj done name :: stack) v c).run rest := by
  rw [run_keyColon, run_append, run_cons, delivered_step hv hc]

theorem nodup_fresh
    {done rest : List (String × Json)} {name : String} {v : Json}
    (h : ((done.reverse ++ (name, v) :: rest).map Prod.fst).Nodup) :
    name ∉ done.map Prod.fst := by
  rw [List.map_append, List.map_cons] at h
  intro hmem
  have hdisjoint := (List.nodup_append.mp h).right.right
  rw [List.map_reverse] at hdisjoint
  exact hdisjoint name (List.mem_reverse.mpr hmem) name
    (List.mem_cons_self ..) rfl

mutual

theorem run_stringify :
    (v : Json) -> Printable v -> (stack : List Frame) ->
      Delivered ((value stack).run (stringify v)) stack v
  | Json.null, _, stack =>
      delivered_literal (by decide) (by decide) (by decide) (by decide) rfl
  | Json.bool true, _, stack =>
      delivered_literal (by decide) (by decide) (by decide) (by decide) rfl
  | Json.bool false, _, stack =>
      delivered_literal (by decide) (by decide) (by decide) (by decide) rfl
  | Json.num n, h, stack => delivered_number h
  | Json.str s, _, stack => Or.inl (run_quote stack s)
  | Json.arr items, h, stack => by
      left
      have hitems := run_items items h [] stack
      cases items with
      | nil => rfl
      | cons item rest =>
          have hrun := hitems (List.cons_ne_nil _ _)
          show run (firstItem stack) (stringifyItems (item :: rest) ++ [']']) =
            after stack (Json.arr (item :: rest))
          rw [List.reverse_nil, List.nil_append] at hrun
          rw [<- hrun]
          cases rest with
          | nil => exact run_firstItem h.left
          | cons next rest =>
              show run _ ((stringify item ++ _) ++ _) =
                run _ ((stringify item ++ _) ++ _)
              rw [List.append_assoc]
              exact run_firstItem h.left
  | Json.obj fields, h, stack => by
      left
      have hfields := run_fields fields h.right [] stack
      cases fields with
      | nil => rfl
      | cons field rest =>
          have hrun := hfields (List.cons_ne_nil _ _) h.left
          show run (firstKey stack)
              (stringifyFields (field :: rest) ++ ['\x7d']) =
            after stack (Json.obj (field :: rest))
          rw [List.reverse_nil, List.nil_append] at hrun
          rw [<- hrun]
          cases rest with
          | nil => rfl
          | cons next rest => rfl

theorem run_items :
    (items : List Json) -> PrintableItems items ->
      (done : List Json) -> (stack : List Frame) -> items ≠ [] ->
      (value (Frame.arr done :: stack)).run (stringifyItems items ++ [']']) =
        after stack (Json.arr (done.reverse ++ items))
  | [], _, _, _, hne => absurd rfl hne
  | [item], h, done, stack, _ => by
      show run _ (stringify item ++ [']']) = _
      rw [run_append, run_cons,
        delivered_step (run_stringify item h.left _) (by decide)]
      simp [stepAfter, isBlank, run]
  | item :: next :: rest, h, done, stack, _ => by
      show run _ ((stringify item ++ ',' :: stringifyItems (next :: rest)) ++
        [']']) = _
      rw [List.append_assoc, run_append, List.cons_append, run_cons,
        delivered_step (run_stringify item h.left _) (by decide)]
      have hrest := run_items (next :: rest) h.right (item :: done) stack
        (List.cons_ne_nil _ _)
      rw [List.reverse_cons, List.append_assoc] at hrest
      exact hrest

theorem run_fields :
    (fields : List (String × Json)) -> PrintableFields fields ->
      (done : List (String × Json)) -> (stack : List Frame) ->
      fields ≠ [] -> ((done.reverse ++ fields).map Prod.fst).Nodup ->
      (nextKey done stack).run (stringifyFields fields ++ ['\x7d']) =
        after stack (Json.obj (done.reverse ++ fields))
  | [], _, _, _, hne, _ => absurd rfl hne
  | [(name, v)], h, done, stack, _, hnodup => by
      show run _ ((quote name ++ ':' :: stringify v) ++ ['\x7d']) = _
      rw [List.append_assoc, List.cons_append,
        run_field (run_stringify v h.left _) (by decide)]
      simp [stepAfter, isBlank, run, addField_fresh (nodup_fresh hnodup)]
  | (name, v) :: next :: rest, h, done, stack, _, hnodup => by
      show run _ ((quote name ++
        ':' :: (stringify v ++ ',' :: stringifyFields (next :: rest))) ++
        ['\x7d']) = _
      rw [List.append_assoc, List.cons_append, List.append_assoc,
        List.cons_append, run_field (run_stringify v h.left _) (by decide)]
      have hrest := run_fields (next :: rest) h.right ((name, v) :: done) stack
        (List.cons_ne_nil _ _)
        (by simpa [List.append_assoc] using hnodup)
      rw [List.reverse_cons, List.append_assoc] at hrest
      rw [<- addField_fresh (nodup_fresh hnodup)] at hrest
      exact hrest

end

end Scan

/-- What is printed is read back. -/
theorem parse_stringify (v : Json) (h : Printable v) :
    parse (stringify v) = some v :=
  Scan.delivered_finish (Scan.run_stringify v h [])

theorem stringify_injective
    {v w : Json} (hv : Printable v) (hw : Printable w)
    (h : stringify v = stringify w) :
    v = w := by
  have hparse := parse_stringify v hv
  rw [h, parse_stringify w hw] at hparse
  exact (Option.some.inj hparse).symm

/-!
## Texts that break off

Within an object only its closing brace makes the scanner final, so neither a
part of the text of an object nor such a part with a damaged character behind
it is a value.
-/

namespace Scan

def Inside : Scan -> Prop
  | value stack => stack ≠ []
  | string stack _ => stack ≠ []
  | bare stack _ => stack ≠ []
  | _ => True

theorem inside_startValue
    {stack : List Frame} {c : Char} (h : stack ≠ []) :
    Inside (startValue stack c) := by
  unfold startValue
  split
  · exact h
  split
  · exact True.intro
  split
  · exact True.intro
  split
  · exact True.intro
  · exact h

theorem inside_stepAfter (stack : List Frame) (v : Json) (c : Char) :
    Inside (stepAfter stack v c) := by
  unfold stepAfter
  split
  · exact True.intro
  cases stack with
  | nil => exact True.intro
  | cons frame outer =>
      cases frame with
      | arr done =>
          simp only
          split
          · exact List.cons_ne_nil _ _
          split
          · exact True.intro
          · exact True.intro
      | obj done name =>
          simp only
          split
          · exact True.intro
          split
          · exact True.intro
          · exact True.intro

theorem inside_step {s : Scan} (h : Inside s) (c : Char) :
    Inside (s.step c) := by
  cases s with
  | failed => exact True.intro
  | value stack =>
      simp only [step]
      split
      · exact h
      · exact inside_startValue h
  | firstItem stack =>
      simp only [step]
      split
      · exact True.intro
      split
      · exact True.intro
      · exact inside_startValue (List.cons_ne_nil _ _)
  | firstKey stack =>
      simp only [step]
      split
      · exact True.intro
      split
      · exact True.intro
      split
      · exact True.intro
      · exact True.intro
  | nextKey done stack =>
      simp only [step]
      split
      · exact True.intro
      split
      · exact True.intro
      · exact True.intro
  | key done stack letters =>
      simp only [step]
      split
      · exact True.intro
      · exact True.intro
      · exact True.intro
  | colon done name stack =>
      simp only [step]
      split
      · exact True.intro
      split
      · exact List.cons_ne_nil _ _
      · exact True.intro
  | string stack letters =>
      simp only [step]
      split
      · exact h
      · exact True.intro
      · exact True.intro
  | bare stack text =>
      simp only [step, stepBare]
      split
      · split
        · exact inside_stepAfter _ _ _
        · exact True.intro
      · exact h
  | after stack v => exact inside_stepAfter stack v c

theorem inside_run {s : Scan} (h : Inside s) (cs : List Char) :
    Inside (s.run cs) := by
  induction cs generalizing s with
  | nil => exact h
  | cons c cs ih => exact ih (inside_step h c)

theorem inside_finish
    {s : Scan} {v : Json} (h : Inside s) (hfinish : s.finish = some v) :
    s = after [] v := by
  cases s with
  | after stack w =>
      cases stack with
      | nil =>
          cases hfinish
          rfl
      | cons frame outer => cases hfinish
  | bare stack text =>
      cases stack with
      | nil => exact absurd rfl h
      | cons frame outer => cases hfinish
  | _ => cases hfinish

theorem run_failed (cs : List Char) : failed.run cs = failed := by
  induction cs with
  | nil => rfl
  | cons c cs ih => exact ih

/-- Behind a value only white space may follow. -/
theorem run_after
    {v w : Json} {cs : List Char} (h : (after [] v).run cs = after [] w) :
    cs.all isBlank = true := by
  induction cs with
  | nil => rfl
  | cons c cs ih =>
      rw [run_cons] at h
      have hstep : (after [] v).step c =
          if isBlank c then after [] v else failed := rfl
      cases hblank : isBlank c with
      | true =>
          rw [hstep, hblank] at h
          rw [List.all_cons, hblank, ih h]
          rfl
      | false =>
          rw [hstep, hblank] at h
          simp only [Bool.false_eq_true, if_false] at h
          rw [run_failed] at h
          cases h

theorem stepAfter_not_final
    {stack : List Frame} {v w : Json} {c : Char}
    (hends : endsBare c = false) :
    stepAfter stack v c ≠ after [] w := by
  have hblank := isBlank_of_not_endsBare hends
  unfold endsBare at hends
  simp only [Bool.or_eq_false_iff, decide_eq_false_iff_not] at hends
  intro h
  unfold stepAfter at h
  cases stack with
  | nil => simp [hblank] at h
  | cons frame outer =>
      cases frame with
      | arr done => simp [hblank, hends] at h
      | obj done name => simp [hblank, hends] at h

/-- No character but a quote or one that ends a token makes the scanner
final. -/
theorem step_not_final
    {s : Scan} {w : Json} {c : Char} (hquote : c ≠ '"')
    (hends : endsBare c = false) :
    s.step c ≠ after [] w := by
  have hblank := isBlank_of_not_endsBare hends
  have hclose := hends
  unfold endsBare at hclose
  simp only [Bool.or_eq_false_iff, decide_eq_false_iff_not] at hclose
  have hstart : forall stack, startValue stack c ≠ after [] w := by
    intro stack
    unfold startValue
    simp only [hquote, hends, if_false, Bool.false_eq_true]
    split
    · intro h
      cases h
    split
    · intro h
      cases h
    · intro h
      cases h
  have hletters : forall (l : Letters) (text : String),
      l.step c ≠ LettersStep.closed text := by
    intro l text
    unfold Letters.step
    cases l.escape with
    | none =>
        simp only [hquote, if_false]
        split
        · intro h
          cases h
        split
        · intro h
          cases h
        · intro h
          cases h
    | pending =>
        simp only
        split
        · intro h
          cases h
        split
        · intro h
          cases h
        · intro h
          cases h
    | hex value count =>
        simp only
        split
        · intro h
          cases h
        split
        · intro h
          cases h
        · intro h
          cases h
  cases s with
  | failed =>
      intro h
      cases h
  | value stack =>
      simp only [step, hblank, Bool.false_eq_true, if_false]
      exact hstart stack
  | firstItem stack =>
      simp only [step, hblank, hclose, Bool.false_eq_true, if_false]
      exact hstart _
  | firstKey stack =>
      simp only [step, hblank, hclose, hquote, Bool.false_eq_true, if_false]
      intro h
      cases h
  | nextKey done stack =>
      simp only [step, hblank, hquote, Bool.false_eq_true, if_false]
      intro h
      cases h
  | key done stack letters =>
      simp only [step]
      split
      · intro h
        cases h
      · intro h
        cases h
      · intro h
        cases h
  | colon done name stack =>
      simp only [step, hblank, Bool.false_eq_true, if_false]
      split
      · intro h
        cases h
      · intro h
        cases h
  | string stack letters =>
      simp only [step]
      split
      · intro h
        cases h
      · rename_i text hstep
        exact absurd hstep (hletters letters text)
      · intro h
        cases h
  | bare stack text =>
      simp only [step, stepBare, hends, Bool.false_eq_true, if_false]
      intro h
      cases h
  | after stack v => exact stepAfter_not_final hends

theorem run_brace (cs : List Char) :
    (value []).run ('\x7b' :: cs) = (firstKey []).run cs :=
  rfl

end Scan

/-- A part of the text of an object is no value. -/
theorem parse_torn
    {fields : List (String × Json)} {p q : List Char}
    (h : Printable (Json.obj fields))
    (hsplit : stringify (Json.obj fields) = p ++ q) (hq : q ≠ []) :
    parse p = none := by
  cases hparse : parse p with
  | none => rfl
  | some w =>
      have hwhole := Scan.run_stringify (Json.obj fields) h []
      have htext : stringify (Json.obj fields) =
          '\x7b' :: (stringifyFields fields ++ ['\x7d']) := rfl
      cases p with
      | nil => cases hparse
      | cons c cs =>
          rw [htext, List.cons_append] at hsplit
          rcases List.cons.inj hsplit with ⟨hbrace, hrest⟩
          rw [<- hbrace] at hparse
          have hfinal := Scan.inside_finish
            (Scan.inside_run (s := Scan.firstKey []) True.intro cs) hparse
          rw [htext, Scan.run_brace, hrest, Scan.run_append, hfinal] at hwhole
          have hafter : (Scan.after [] w).run q =
              Scan.after [] (Json.obj fields) := by
            rcases hwhole with hafter | ⟨text, hbare, _⟩
            · exact hafter
            · have hinside := Scan.inside_run (s := Scan.after [] w)
                True.intro q
              rw [hbare] at hinside
              exact absurd rfl hinside
          have hblank := Scan.run_after hafter
          have hlast : q.getLast hq = '\x7d' := by
            have hends : (cs ++ q).getLast? = some '\x7d' := by
              rw [<- hrest, List.getLast?_append]
              rfl
            rw [List.getLast?_append_of_ne_nil _ hq,
              List.getLast?_eq_getLast_of_ne_nil hq] at hends
            exact Option.some.inj hends
          have hmem := List.all_eq_true.mp hblank _ (List.getLast_mem hq)
          rw [hlast] at hmem
          cases hmem

/-- Nor is any text that begins like an object and ends with a damaged
character. -/
theorem parse_damaged (cs : List Char) :
    parse ('\x7b' :: (cs ++ [Letters.replacement])) = none := by
  cases hparse : parse ('\x7b' :: (cs ++ [Letters.replacement])) with
  | none => rfl
  | some w =>
      have hfinal := Scan.inside_finish
        (Scan.inside_run (s := Scan.firstKey []) True.intro
          (cs ++ [Letters.replacement])) hparse
      rw [Scan.run_append] at hfinal
      exact absurd hfinal (Scan.step_not_final (by decide) (by decide))

end Json
end Foundation
end Minni
