import Minni.Foundation.JsonCanonical
import Minni.Foundation.LineFile
import Minni.Foundation.Text

/-!
# Files of JSON objects, one to a line

The text of an object has no newline in it, begins and ends with its braces,
and no part of it is a value.  So a file of such lines is read as the objects
whose lines are complete, wherever the writes between them broke off.
-/

namespace Minni
namespace Foundation
namespace Json

/-!
## The text of a value has no newline
-/

theorem newline_not_mem_escapeChar (c : Char) : '\n' ∉ escapeChar c := by
  unfold escapeChar
  have hhex : forall n, n < 16 -> hexDigit n ≠ '\n' := by
    decide
  split
  · decide
  split
  · decide
  split
  · decide
  split
  · decide
  split
  · decide
  split
  · decide
  split
  · decide
  split
  · rename_i hlow
    have hhigh := hhex (c.toNat / 16) (by omega)
    have hrest := hhex (c.toNat % 16) (by omega)
    simp [Ne.symm hhigh, Ne.symm hrest]
  · rename_i hline _ _ _ _ _
    simp [Ne.symm hline]

theorem newline_not_mem_quote (s : String) : '\n' ∉ quote s := by
  unfold quote
  intro hmem
  rcases List.mem_cons.mp hmem with hhead | hmem
  · cases hhead
  · rcases List.mem_append.mp hmem with hmem | hlast
    · rcases List.mem_flatMap.mp hmem with ⟨c, _, hc⟩
      exact newline_not_mem_escapeChar c hc
    · cases List.mem_singleton.mp hlast

mutual

theorem newline_not_mem_stringify :
    (v : Json) -> Printable v -> '\n' ∉ stringify v
  | Json.null, _ => by decide
  | Json.bool true, _ => by decide
  | Json.bool false, _ => by decide
  | Json.num n, h => by
      intro hmem
      have hbare := List.all_eq_true.mp h.right '\n' hmem
      cases hbare
  | Json.str s, _ => newline_not_mem_quote s
  | Json.arr items, h => by
      intro hmem
      rcases List.mem_cons.mp hmem with hhead | hmem
      · cases hhead
      · rcases List.mem_append.mp hmem with hmem | hlast
        · exact newline_not_mem_stringifyItems items h hmem
        · cases List.mem_singleton.mp hlast
  | Json.obj fields, h => by
      intro hmem
      rcases List.mem_cons.mp hmem with hhead | hmem
      · cases hhead
      · rcases List.mem_append.mp hmem with hmem | hlast
        · exact newline_not_mem_stringifyFields fields h.right hmem
        · cases List.mem_singleton.mp hlast

theorem newline_not_mem_stringifyItems :
    (items : List Json) -> PrintableItems items ->
      '\n' ∉ stringifyItems items
  | [], _ => List.not_mem_nil
  | [item], h => newline_not_mem_stringify item h.left
  | item :: next :: rest, h => by
      intro hmem
      rcases List.mem_append.mp hmem with hmem | hmem
      · exact newline_not_mem_stringify item h.left hmem
      · rcases List.mem_cons.mp hmem with hcomma | hmem
        · cases hcomma
        · exact newline_not_mem_stringifyItems (next :: rest) h.right hmem

theorem newline_not_mem_stringifyFields :
    (fields : List (String × Json)) -> PrintableFields fields ->
      '\n' ∉ stringifyFields fields
  | [], _ => List.not_mem_nil
  | [(key, value)], h => by
      intro hmem
      rcases List.mem_append.mp hmem with hmem | hmem
      · exact newline_not_mem_quote key hmem
      · rcases List.mem_cons.mp hmem with hcolon | hmem
        · cases hcolon
        · exact newline_not_mem_stringify value h.left hmem
  | (key, value) :: next :: rest, h => by
      intro hmem
      rcases List.mem_append.mp hmem with hmem | hmem
      · exact newline_not_mem_quote key hmem
      · rcases List.mem_cons.mp hmem with hcolon | hmem
        · cases hcolon
        · rcases List.mem_append.mp hmem with hmem | hmem
          · exact newline_not_mem_stringify value h.left hmem
          · rcases List.mem_cons.mp hmem with hcomma | hmem
            · cases hcomma
            · exact newline_not_mem_stringifyFields (next :: rest) h.right
                hmem

end

/-!
## Lines
-/

section Lines

variable {α : Type}

/-- A line that looks like an object is parsed, and what does not parse is
skipped. -/
def readObjectLine (read : Json -> List α) (line : List Char) : List α :=
  let trimmed := Text.trimChars line
  if trimmed.head? = some '\x7b' then
    match parse trimmed with
    | none => []
    | some parsed => read parsed
  else
    []

theorem trimChars_of_ends
    {cs : List Char} {first last : Char}
    (hfirst : Text.isWhitespace first = false)
    (hlast : Text.isWhitespace last = false) :
    Text.trimChars (first :: (cs ++ [last])) = first :: (cs ++ [last]) := by
  unfold Text.trimChars
  rw [Text.trimStart_of_head hfirst, <- List.cons_append]
  exact Text.trimEnd_append_of_last hlast

theorem trimEnd_prefix (cs : List Char) : Text.trimEnd cs <+: cs := by
  have hsuffix := List.dropWhile_suffix (l := cs.reverse) Text.isWhitespace
  have hprefixed := List.reverse_prefix.mpr hsuffix
  rw [List.reverse_reverse] at hprefixed
  exact hprefixed

theorem readObjectLine_stringify
    {read : Json -> List α} {fields : List (String × Json)}
    (h : Printable (Json.obj fields)) :
    readObjectLine read (stringify (Json.obj fields)) =
      read (Json.obj fields) := by
  have htrim : Text.trimChars (stringify (Json.obj fields)) =
      stringify (Json.obj fields) :=
    trimChars_of_ends (by decide) (by decide)
  have hhead : (stringify (Json.obj fields)).head? = some '\x7b' := rfl
  unfold readObjectLine
  simp only [htrim, hhead, if_true, parse_stringify _ h]

/-- What a write that breaks off leaves of the text is no value. -/
theorem breaksOff_stringify
    {read : Json -> List α} {fields : List (String × Json)}
    (h : Printable (Json.obj fields)) :
    LineFile.BreaksOff (readObjectLine read) (stringify (Json.obj fields)) := by
  intro n damaged hn
  unfold LineFile.brokenText
  cases n with
  | zero =>
      have hhead : stringify (Json.obj fields) =
          '\x7b' :: (stringifyFields fields ++ ['\x7d']) := rfl
      have hascii : decide (128 ≤ '\x7b'.toNat) = false := rfl
      rw [hhead, List.take_zero, List.drop_zero]
      simp only [hascii, Bool.and_false, Bool.false_eq_true, if_false,
        List.append_nil]
      rfl
  | succ n =>
      obtain ⟨c, rest, hdrop⟩ :
          exists c rest, (stringify (Json.obj fields)).drop (n + 1) =
            c :: rest := by
        cases hdrop : (stringify (Json.obj fields)).drop (n + 1) with
        | nil =>
            exact absurd hn
              (Nat.not_lt_of_le (List.drop_eq_nil_iff.mp hdrop))
        | cons c rest => exact ⟨c, rest, rfl⟩
      rw [hdrop]
      have htake : (stringify (Json.obj fields)).take (n + 1) =
          '\x7b' :: (stringifyFields fields ++ ['\x7d']).take n := rfl
      generalize hpart : (stringifyFields fields ++ ['\x7d']).take n = part
        at htake
      cases hdamaged : damaged && decide (128 ≤ c.toNat) with
      | true =>
          simp only [hdamaged, if_true, htake]
          unfold readObjectLine
          rw [List.cons_append, trimChars_of_ends (by decide) (by decide)]
          have hparse := parse_damaged part
          simp only [List.head?_cons, if_true]
          rw [show LineFile.replacement = Letters.replacement from rfl, hparse]
      | false =>
          simp only [hdamaged, Bool.false_eq_true, if_false, List.append_nil,
            htake]
          unfold readObjectLine
          have htrim : Text.trimChars ('\x7b' :: part) =
              Text.trimEnd ('\x7b' :: part) := by
            unfold Text.trimChars
            rw [Text.trimStart_of_head (by decide)]
          rcases trimEnd_prefix ('\x7b' :: part) with ⟨blank, hblank⟩
          have hsplit : stringify (Json.obj fields) =
              Text.trimEnd ('\x7b' :: part) ++ (blank ++ c :: rest) := by
            rw [<- List.append_assoc, hblank, <- htake, <- hdrop,
              List.take_append_drop]
          have hparse := parse_torn h hsplit
            (List.append_ne_nil_of_right_ne_nil _ (List.cons_ne_nil c rest))
          simp only [htrim, hparse, ite_self]

/-- After an append the file reads as before or with the object behind. -/
theorem readLines_appendObject
    {read : Json -> List α} {fields : List (String × Json)}
    (existing : List Char) (landing : LineFile.Landing)
    (h : Printable (Json.obj fields)) :
    (LineFile.readLines (readObjectLine read)
        (LineFile.appendLine existing (stringify (Json.obj fields)) landing).1 =
        LineFile.readLines (readObjectLine read) existing ∧
      (LineFile.appendLine existing (stringify (Json.obj fields)) landing).2 =
        false) ∨
    LineFile.readLines (readObjectLine read)
        (LineFile.appendLine existing (stringify (Json.obj fields)) landing).1 =
      LineFile.readLines (readObjectLine read) existing ++
        read (Json.obj fields) := by
  have happend := @LineFile.readLines_appendLine α (readObjectLine read)
    existing (stringify (Json.obj fields)) landing rfl
    (newline_not_mem_stringify _ h) (breaksOff_stringify h)
  rw [readObjectLine_stringify h] at happend
  exact happend

end Lines

end Json
end Foundation
end Minni
