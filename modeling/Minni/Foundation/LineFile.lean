import Mathlib.Data.List.Basic

/-!
# Files of lines, and writes that break off

A file is read line by line, each line on its own.  One append may land, land
and be reported as failed, break off at any byte, or not land.  A writer that
first ends an unfinished line appends its own line whole or adds nothing that
is read, provided no broken part of the line reads as anything.
-/

namespace Minni
namespace Foundation
namespace LineFile

/-!
## Lines
-/

def splitLines : List Char -> List (List Char)
  | [] => [[]]
  | c :: cs =>
      if c = '\n' then [] :: splitLines cs
      else
        match splitLines cs with
        | [] => [[c]]
        | line :: rest => (c :: line) :: rest

def readLines {α : Type} (read : List Char -> List α) (text : List Char) :
    List α :=
  (splitLines text).flatMap read

theorem splitLines_cons (c : Char) (cs : List Char) :
    splitLines (c :: cs) =
      if c = '\n' then [] :: splitLines cs
      else
        match splitLines cs with
        | [] => [[c]]
        | line :: rest => (c :: line) :: rest :=
  rfl

theorem splitLines_ne_nil (cs : List Char) : splitLines cs ≠ [] := by
  cases cs with
  | nil => exact List.cons_ne_nil _ _
  | cons c cs =>
      rw [splitLines_cons]
      split
      · exact List.cons_ne_nil _ _
      · split
        · exact List.cons_ne_nil _ _
        · exact List.cons_ne_nil _ _

theorem splitLines_append (a b : List Char) :
    splitLines (a ++ '\n' :: b) = splitLines a ++ splitLines b := by
  induction a with
  | nil => rfl
  | cons c cs ih =>
      rw [List.cons_append]
      by_cases hc : c = '\n'
      · simp [splitLines_cons, hc, ih]
      · cases hsplit : splitLines cs with
        | nil => exact absurd hsplit (splitLines_ne_nil cs)
        | cons line rest =>
            simp [splitLines_cons, hc, ih, hsplit]

theorem splitLines_line {line : List Char} (h : '\n' ∉ line) :
    splitLines line = [line] := by
  induction line with
  | nil => rfl
  | cons c cs ih =>
      rw [List.mem_cons, not_or] at h
      have hc : ¬ c = '\n' := fun hsame => h.left hsame.symm
      simp [splitLines_cons, hc, ih h.right]

section Reading

variable {α : Type} {read : List Char -> List α}

theorem readLines_append (a b : List Char) :
    readLines read (a ++ '\n' :: b) = readLines read a ++ readLines read b := by
  unfold readLines
  rw [splitLines_append, List.flatMap_append]

theorem readLines_line {line : List Char} (h : '\n' ∉ line) :
    readLines read line = read line := by
  unfold readLines
  rw [splitLines_line h, List.flatMap_singleton]

end Reading

/-!
## One physical write
-/

inductive Landing where
  | landed
  | landedThrows
  /-- So many characters are there, and the next one in part where it is longer
  than a byte: readers see a replacement character. -/
  | torn (chars : Nat) (damaged : Bool)
  | lost
deriving DecidableEq

def replacement : Char := Char.ofNat 0xfffd

def brokenText (written : List Char) (n : Nat) (damaged : Bool) : List Char :=
  written.take n ++
    match written.drop n with
    | [] => []
    | c :: _ => if damaged && decide (128 ≤ c.toNat) then [replacement] else []

/-- An append in place: what the file holds then, and whether the writer is
told that it succeeded. -/
def appendText (existing written : List Char) : Landing -> List Char × Bool
  | Landing.landed => (existing ++ written, true)
  | Landing.landedThrows => (existing ++ written, false)
  | Landing.torn n damaged => (existing ++ brokenText written n damaged, false)
  | Landing.lost => (existing, false)

/-- A new file is written beside and renamed: it is there whole or not at
all. -/
def writeAtomic (content : List Char) : Landing -> Option (List Char) × Bool
  | Landing.landed => (some content, true)
  | Landing.landedThrows => (some content, false)
  | Landing.torn _ _ => (none, false)
  | Landing.lost => (none, false)

def endsLine (text : List Char) : Bool :=
  text.isEmpty || decide (text.getLast? = some '\n')

def lead (existing : List Char) : List Char :=
  if endsLine existing then [] else ['\n']

/-- A line behind whatever the file ends with. -/
def appendLine (existing content : List Char) (landing : Landing) :
    List Char × Bool :=
  appendText existing (lead existing ++ (content ++ ['\n'])) landing

/-!
## What is read after an append
-/

theorem brokenText_short
    {content : List Char} {n : Nat} (damaged : Bool)
    (h : n < content.length) :
    brokenText (content ++ ['\n']) n damaged = brokenText content n damaged := by
  unfold brokenText
  rw [List.take_append_of_le_length (Nat.le_of_lt h),
    List.drop_append_of_le_length (Nat.le_of_lt h)]
  cases hdrop : content.drop n with
  | nil =>
      rw [List.drop_eq_nil_iff] at hdrop
      exact absurd h (Nat.not_lt_of_le hdrop)
  | cons c cs => rfl

theorem brokenText_long
    {content : List Char} {n : Nat} (damaged : Bool)
    (h : content.length ≤ n) :
    brokenText (content ++ ['\n']) n damaged = content ∨
      brokenText (content ++ ['\n']) n damaged = content ++ ['\n'] := by
  rcases Nat.eq_or_lt_of_le h with heq | hlt
  · left
    unfold brokenText
    rw [<- heq, List.take_left, List.drop_left]
    simp
  · right
    have hlen : (content ++ ['\n']).length ≤ n := by
      rw [List.length_append]
      exact hlt
    unfold brokenText
    rw [List.take_of_length_le hlen, List.drop_eq_nil_iff.mpr hlen,
      List.append_nil]

theorem brokenText_newline (rest : List Char) (n : Nat) (damaged : Bool) :
    brokenText ('\n' :: rest) n damaged = [] ∨
      exists k, brokenText ('\n' :: rest) n damaged =
        '\n' :: brokenText rest k damaged := by
  cases n with
  | zero =>
      left
      simp [brokenText]
  | succ k =>
      right
      exact ⟨k, rfl⟩

theorem newline_not_mem_broken
    {content : List Char} (n : Nat) (damaged : Bool) (h : '\n' ∉ content) :
    '\n' ∉ brokenText content n damaged := by
  unfold brokenText
  intro hmem
  rcases List.mem_append.mp hmem with hmem | hmem
  · exact h (List.mem_of_mem_take hmem)
  · split at hmem
    · cases hmem
    · split at hmem
      · exact absurd (List.mem_singleton.mp hmem) (by decide)
      · cases hmem

theorem endsLine_cases {existing : List Char} (h : endsLine existing = true) :
    existing = [] ∨ exists base, existing = base ++ ['\n'] := by
  unfold endsLine at h
  rcases Bool.or_eq_true_iff.mp h with hempty | hlast
  · exact Or.inl (List.isEmpty_iff.mp hempty)
  · right
    have hlast' := of_decide_eq_true hlast
    exact ⟨existing.dropLast,
      (List.dropLast_append_getLast? '\n' hlast').symm⟩

section Appending

variable {α : Type} {read : List Char -> List α} {existing content : List Char}

/-- No part that a broken write leaves of the line reads as anything. -/
def BreaksOff (read : List Char -> List α) (content : List Char) : Prop :=
  forall n damaged, n < content.length ->
    read (brokenText content n damaged) = []

theorem readLines_lead
    {line : List Char} (hempty : read [] = []) (h : '\n' ∉ line) :
    readLines read (existing ++ (lead existing ++ line)) =
      readLines read existing ++ read line := by
  unfold lead
  cases hends : endsLine existing with
  | false =>
      show readLines read (existing ++ '\n' :: line) = _
      rw [readLines_append, readLines_line h]
  | true =>
      show readLines read (existing ++ line) = _
      rcases endsLine_cases hends with hnil | ⟨base, hbase⟩
      · rw [hnil]
        show readLines read line = read [] ++ [] ++ read line
        rw [readLines_line h, hempty]
        rfl
      · rw [hbase, List.append_assoc]
        show readLines read (base ++ '\n' :: line) =
          readLines read (base ++ '\n' :: []) ++ read line
        rw [readLines_append, readLines_append, readLines_line h]
        show _ = readLines read base ++ (read [] ++ []) ++ read line
        rw [hempty, List.append_nil, List.append_nil]

theorem readLines_whole (hempty : read [] = []) (h : '\n' ∉ content) :
    readLines read (existing ++ (lead existing ++ (content ++ ['\n']))) =
      readLines read existing ++ read content := by
  have hassoc : existing ++ (lead existing ++ (content ++ ['\n'])) =
      (existing ++ (lead existing ++ content)) ++ '\n' :: [] := by
    simp
  rw [hassoc, readLines_append, readLines_lead hempty h]
  show _ ++ (read [] ++ []) = _
  rw [hempty, List.append_nil, List.append_nil]

/-- The part of the line that a broken write leaves behind the lead. -/
theorem readLines_brokenLine
    (n : Nat) (damaged : Bool) (hempty : read [] = [])
    (h : '\n' ∉ content) (hbreaks : BreaksOff read content) :
    readLines read (existing ++
        (lead existing ++ brokenText (content ++ ['\n']) n damaged)) =
      readLines read existing ∨
    readLines read (existing ++
        (lead existing ++ brokenText (content ++ ['\n']) n damaged)) =
      readLines read existing ++ read content := by
  by_cases hshort : n < content.length
  · left
    rw [brokenText_short damaged hshort,
      readLines_lead hempty (newline_not_mem_broken n damaged h),
      hbreaks n damaged hshort, List.append_nil]
  · right
    rcases brokenText_long damaged (Nat.le_of_not_lt hshort) with hpart | hpart
    · rw [hpart, readLines_lead hempty h]
    · rw [hpart, readLines_whole hempty h]

theorem readLines_broken
    (n : Nat) (damaged : Bool) (hempty : read [] = [])
    (h : '\n' ∉ content) (hbreaks : BreaksOff read content) :
    readLines read (existing ++
        brokenText (lead existing ++ (content ++ ['\n'])) n damaged) =
      readLines read existing ∨
    readLines read (existing ++
        brokenText (lead existing ++ (content ++ ['\n'])) n damaged) =
      readLines read existing ++ read content := by
  cases hends : endsLine existing with
  | true =>
      have hlead : lead existing = [] := by
        unfold lead
        rw [hends]
        rfl
      have hline := @readLines_brokenLine α read existing content n damaged
        hempty h hbreaks
      rw [hlead] at hline ⊢
      exact hline
  | false =>
      have hlead : lead existing = ['\n'] := by
        unfold lead
        rw [hends]
        rfl
      rw [hlead, List.singleton_append]
      rcases brokenText_newline (content ++ ['\n']) n damaged with
        hnone | ⟨k, hpart⟩
      · left
        rw [hnone, List.append_nil]
      · have hline := @readLines_brokenLine α read existing content k
          damaged hempty h hbreaks
        rw [hlead] at hline
        rw [hpart]
        exact hline

/-- After an append the file reads as before or with the line behind, and with
the line where the writer is told so. -/
theorem readLines_appendLine
    (landing : Landing) (hempty : read [] = [])
    (h : '\n' ∉ content) (hbreaks : BreaksOff read content) :
    (readLines read (appendLine existing content landing).1 =
        readLines read existing ∧
      (appendLine existing content landing).2 = false) ∨
    readLines read (appendLine existing content landing).1 =
      readLines read existing ++ read content := by
  cases landing with
  | landed => exact Or.inr (readLines_whole hempty h)
  | landedThrows => exact Or.inr (readLines_whole hempty h)
  | lost => exact Or.inl ⟨rfl, rfl⟩
  | torn n damaged =>
      rcases @readLines_broken α read existing content n damaged hempty
        h hbreaks with hsame | hline
      · exact Or.inl ⟨hsame, rfl⟩
      · exact Or.inr hline

end Appending

end LineFile
end Foundation
end Minni
