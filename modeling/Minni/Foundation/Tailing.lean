import Mathlib.Data.List.Basic

/-!
# Reading a growing file by its lines

A reader keeps the offset up to which it has read a file that only grows.  It
reads a chunk from there, keeps what ends with the last newline of the chunk,
and moves its offset to that newline.  A chunk may end at any byte.
-/

namespace Minni
namespace Foundation
namespace Tailing

section Tailing

variable {byte : Type} (newline : byte)

/-- The offset is the start of the file or follows a newline. -/
def StartsLine (bytes : List byte) (offset : Nat) : Prop :=
  offset = 0 ∨ bytes[offset - 1]? = some newline

/-- The complete line stands in the file at the offset. -/
structure LineAt (bytes : List byte) (offset : Nat) (line : List byte) :
    Prop where
  starts : StartsLine newline bytes offset
  text : forall i, i < line.length -> bytes[offset + i]? = (line)[i]?
  stops : bytes[offset + line.length]? = some newline
  whole : newline ∉ line

theorem startsLine_append
    {bytes : List byte} {offset : Nat} (h : StartsLine newline bytes offset)
    (more : List byte) :
    StartsLine newline (bytes ++ more) offset := by
  rcases h with hzero | hnewline
  · exact Or.inl hzero
  · right
    have hlt := (List.getElem?_eq_some_iff.mp hnewline).fst
    rw [List.getElem?_append_left hlt]
    exact hnewline

/-- A line that ends within the first bytes stands in them. -/
theorem lineAt_of_append
    {bytes more : List byte} {offset : Nat} {line : List byte}
    (h : LineAt newline (bytes ++ more) offset line)
    (hends : offset + line.length < bytes.length) :
    LineAt newline bytes offset line := by
  constructor
  · rcases h.starts with hzero | hnewline
    · exact Or.inl hzero
    · right
      rw [← List.getElem?_append_left (by omega)]
      exact hnewline
  · intro i hi
    rw [← h.text i hi, List.getElem?_append_left (by omega)]
  · rw [← h.stops, List.getElem?_append_left hends]
  · exact h.whole

/-- No line goes across the start of another one. -/
theorem lineAt_behind_or_ahead
    {bytes : List byte} {offset cursor : Nat} {line : List byte}
    (h : LineAt newline bytes offset line)
    (hcursor : StartsLine newline bytes cursor) :
    offset + line.length < cursor ∨ cursor <= offset := by
  rcases Nat.lt_or_ge offset cursor with hahead | hbehind
  · left
    rcases hcursor with hzero | hnewline
    · omega
    · rcases Nat.lt_or_ge (offset + line.length) cursor with hlt | hge
      · exact hlt
      · have hindex : cursor - 1 - offset < line.length := by omega
        have htext := h.text (cursor - 1 - offset) hindex
        have hplace : offset + (cursor - 1 - offset) = cursor - 1 := by omega
        rw [hplace, hnewline] at htext
        exact absurd (List.mem_of_getElem? htext.symm) h.whole
  · exact Or.inr hbehind

/-- The line stands in the chunk that was read from the cursor. -/
theorem lineAt_chunk
    {bytes : List byte} {offset cursor count : Nat} {line : List byte}
    (h : LineAt newline bytes offset line) (hcursor : cursor <= offset)
    (hends : offset + line.length < cursor + count) :
    LineAt newline ((bytes.drop cursor).take count) (offset - cursor) line := by
  constructor
  · rcases h.starts with hzero | hnewline
    · left
      omega
    · rcases Nat.lt_or_ge cursor offset with hlt | hge
      · right
        have hplace : cursor + (offset - cursor - 1) = offset - 1 := by omega
        rw [List.getElem?_take_of_lt (by omega), List.getElem?_drop, hplace]
        exact hnewline
      · left
        omega
  · intro i hi
    have hplace : cursor + (offset - cursor + i) = offset + i := by omega
    rw [List.getElem?_take_of_lt (by omega), List.getElem?_drop, hplace]
    exact h.text i hi
  · have hplace : cursor + (offset - cursor + line.length) =
        offset + line.length := by omega
    rw [List.getElem?_take_of_lt (by omega), List.getElem?_drop, hplace]
    exact h.stops
  · exact h.whole

/-!
## The lines of a chunk
-/

variable [DecidableEq byte]

/-- The number of bytes up to the last newline, with it. -/
def lineEnd : List byte -> Nat
  | [] => 0
  | b :: rest =>
      if lineEnd rest ≠ 0 then lineEnd rest + 1
      else if b = newline then 1
      else 0

/-- The lines that a newline ends, each with its offset; `line` is what stands
before the bytes on the first line. -/
def completeLines (offset : Nat) (line : List byte) :
    List byte -> List (Nat × List byte)
  | [] => []
  | b :: rest =>
      if b = newline then
        (offset, line) :: completeLines (offset + line.length + 1) [] rest
      else
        completeLines offset (line ++ [b]) rest

theorem lineEnd_le (chunk : List byte) :
    lineEnd newline chunk <= chunk.length := by
  induction chunk with
  | nil => exact Nat.le_refl _
  | cons b rest ih =>
      unfold lineEnd
      rw [List.length_cons]
      by_cases hrest : lineEnd newline rest ≠ 0
      · rw [if_pos hrest]
        exact Nat.succ_le_succ ih
      · rw [if_neg hrest]
        by_cases hb : b = newline
        · rw [if_pos hb]
          exact Nat.succ_le_succ (Nat.zero_le _)
        · rw [if_neg hb]
          exact Nat.zero_le _

theorem getElem?_lineEnd {chunk : List byte}
    (h : lineEnd newline chunk ≠ 0) :
    chunk[lineEnd newline chunk - 1]? = some newline := by
  induction chunk with
  | nil => exact absurd rfl h
  | cons b rest ih =>
      unfold lineEnd at h
      unfold lineEnd
      by_cases hrest : lineEnd newline rest ≠ 0
      · rw [if_pos hrest]
        have hplace : lineEnd newline rest + 1 - 1 =
            (lineEnd newline rest - 1) + 1 := by omega
        rw [hplace, List.getElem?_cons_succ]
        exact ih hrest
      · rw [if_neg hrest] at h
        rw [if_neg hrest]
        by_cases hb : b = newline
        · rw [if_pos hb, hb]
          rfl
        · rw [if_neg hb] at h
          exact absurd rfl h

/-- The reader's new offset starts a line again. -/
theorem startsLine_lineEnd
    {bytes : List byte} {cursor : Nat} (h : StartsLine newline bytes cursor)
    (count : Nat) :
    StartsLine newline bytes
      (cursor + lineEnd newline ((bytes.drop cursor).take count)) := by
  by_cases hend : lineEnd newline ((bytes.drop cursor).take count) = 0
  · rw [hend]
    exact h
  · right
    have hnewline := getElem?_lineEnd newline hend
    have hlt := (List.getElem?_eq_some_iff.mp hnewline).fst
    rw [List.length_take] at hlt
    rw [List.getElem?_take_of_lt (by omega), List.getElem?_drop] at hnewline
    have hplace :
        cursor + lineEnd newline ((bytes.drop cursor).take count) - 1 =
          cursor + (lineEnd newline ((bytes.drop cursor).take count) - 1) := by
      omega
    rw [hplace]
    exact hnewline

/-- What follows the last newline adds no complete line. -/
theorem completeLines_take_lineEnd (offset : Nat) (line chunk : List byte) :
    completeLines newline offset line
      (chunk.take (lineEnd newline chunk)) =
        completeLines newline offset line chunk := by
  induction chunk generalizing offset line with
  | nil => rfl
  | cons b rest ih =>
      unfold lineEnd
      by_cases hrest : lineEnd newline rest ≠ 0
      · rw [if_pos hrest, List.take_succ_cons]
        unfold completeLines
        rw [ih, ih]
      · rw [if_neg hrest]
        have hzero : lineEnd newline rest = 0 := Decidable.not_not.mp hrest
        rw [hzero, List.take_zero] at ih
        by_cases hb : b = newline
        · rw [if_pos hb, List.take_succ_cons, List.take_zero]
          unfold completeLines
          rw [if_pos hb, if_pos hb, ih]
        · rw [if_neg hb, List.take_zero]
          unfold completeLines
          rw [if_neg hb, ← ih]
          rfl

/-- Every complete line of the chunk is among its lines.  The induction is on
the bytes, over the part of the first line that stands before them. -/
theorem mem_completeLines_of_lineAt
    {chunk before line : List byte} {i : Nat}
    (h : LineAt newline (before ++ chunk) i line)
    (hbefore : newline ∉ before) (offset : Nat) :
    (offset + i, line) ∈ completeLines newline offset before chunk := by
  induction chunk generalizing before i offset with
  | nil =>
      rw [List.append_nil] at h
      exact absurd (List.mem_of_getElem? h.stops) hbefore
  | cons b rest ih =>
      unfold completeLines
      by_cases hb : b = newline
      · rw [if_pos hb]
        rw [hb] at h
        have hat : (before ++ newline :: rest)[before.length]? =
            some newline := by
          rw [List.getElem?_append_right (Nat.le_refl _), Nat.sub_self]
          rfl
        have hstart : StartsLine newline (before ++ newline :: rest)
            (before.length + 1) := Or.inr hat
        rcases lineAt_behind_or_ahead newline h hstart with hfirst | hlater
        · have hzero : i = 0 := by
            rcases Nat.eq_zero_or_pos i with hzero | hpos
            · exact hzero
            · rcases h.starts with hzero | hnewline
              · exact hzero
              · rw [List.getElem?_append_left (by omega)] at hnewline
                exact absurd (List.mem_of_getElem? hnewline) hbefore
          have hlength : line.length = before.length := by
            have hstops := h.stops
            rcases Nat.lt_or_ge (i + line.length) before.length with hlt | hge
            · rw [List.getElem?_append_left hlt] at hstops
              exact absurd (List.mem_of_getElem? hstops) hbefore
            · omega
          have hline : line = before := by
            apply List.ext_getElem?
            intro j
            rcases Nat.lt_or_ge j line.length with hlt | hge
            · rw [← h.text j hlt, hzero, Nat.zero_add,
                List.getElem?_append_left (by omega)]
            · rw [List.getElem?_eq_none hge,
                List.getElem?_eq_none (by omega)]
          rw [hzero, hline]
          exact List.mem_cons_self
        · have hdrop : (before ++ newline :: rest).drop (before.length + 1) =
              rest := by
            simp [List.drop_append]
          have hchunk := lineAt_chunk newline h hlater
            (show i + line.length < before.length + 1 + rest.length by
              have hlt := (List.getElem?_eq_some_iff.mp h.stops).fst
              rw [List.length_append, List.length_cons] at hlt
              omega)
          rw [hdrop, List.take_length] at hchunk
          have hmem := @ih [] _ hchunk List.not_mem_nil
            (offset + before.length + 1)
          have hplace : offset + before.length + 1 +
              (i - (before.length + 1)) = offset + i := by omega
          rw [hplace] at hmem
          exact List.mem_cons_of_mem _ hmem
      · rw [if_neg hb]
        apply ih
        · rw [List.append_assoc]
          exact h
        · intro hmem
          rcases List.mem_append.mp hmem with hold | hnew
          · exact hbefore hold
          · exact hb (List.mem_singleton.mp hnew).symm

end Tailing

end Tailing
end Foundation
end Minni
