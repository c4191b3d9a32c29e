import Mathlib.Data.List.Basic
import Mathlib.Data.List.Range

/-!
# Scanning for matches that do not overlap

A list is gone through from its start.  A match that is counted hides the
places that lie inside it.  The same count is described three times: by the
places of the list, by a fold over the places that are worth a look, and by a
loop that asks for the next such place.
-/

namespace Minni
namespace Foundation
namespace Scan

variable {α : Type}

/-!
## Counting along the list

A test looks at what is before a place, nearest first, and at what is after
it, and answers how much of it a match takes.
-/

def countHits (hit : List α -> List α -> Option Nat) :
    List α -> Nat -> List α -> Nat
  | before, 0, [] => if (hit before []).isSome then 1 else 0
  | _, _ + 1, [] => 0
  | before, 0, a :: after =>
      match hit before (a :: after) with
      | none => countHits hit (a :: before) 0 after
      | some n => countHits hit (a :: before) (n - 1) after + 1
  | before, skip + 1, a :: after => countHits hit (a :: before) skip after

section

variable {hit : List α -> List α -> Option Nat}

theorem countHits_nil (before : List α) :
    countHits hit before 0 [] = if (hit before []).isSome then 1 else 0 :=
  rfl

theorem countHits_of_none {before : List α} {a : α} {after : List α}
    (h : hit before (a :: after) = none) :
    countHits hit before 0 (a :: after) = countHits hit (a :: before) 0 after := by
  rw [countHits, h]

theorem countHits_of_some {before : List α} {a : α} {after : List α} {n : Nat}
    (h : hit before (a :: after) = some n) :
    countHits hit before 0 (a :: after) =
      countHits hit (a :: before) (n - 1) after + 1 := by
  rw [countHits, h]

theorem exists_hit_of_countHits_pos {before : List α} {skip : Nat}
    {after : List α} (h : 0 < countHits hit before skip after) :
    exists passed rest n,
      after = passed ++ rest ∧
        hit (passed.reverse ++ before) rest = some n := by
  induction after generalizing before skip with
  | nil =>
      cases skip with
      | zero =>
          rw [countHits_nil] at h
          split at h
          · rename_i hsome
            rcases Option.isSome_iff_exists.mp hsome with ⟨n, hn⟩
            exact ⟨[], [], n, rfl, hn⟩
          · cases h
      | succ skip =>
          exact absurd h (Nat.lt_irrefl 0)
  | cons a after ih =>
      cases skip with
      | zero =>
          cases hhit : hit before (a :: after) with
          | some n => exact ⟨[], a :: after, n, rfl, hhit⟩
          | none =>
              rw [countHits_of_none hhit] at h
              rcases ih h with ⟨passed, rest, n, hsplit, hfound⟩
              refine ⟨a :: passed, rest, n, ?_, ?_⟩
              · rw [hsplit, List.cons_append]
              · simpa using hfound
      | succ skip =>
          change 0 < countHits hit (a :: before) skip after at h
          rcases ih h with ⟨passed, rest, n, hsplit, hfound⟩
          refine ⟨a :: passed, rest, n, ?_, ?_⟩
          · rw [hsplit, List.cons_append]
          · simpa using hfound

theorem countHits_pos {before passed rest : List α} {n : Nat}
    (h : hit (passed.reverse ++ before) rest = some n) :
    0 < countHits hit before 0 (passed ++ rest) := by
  induction passed generalizing before with
  | nil =>
      have hhere : hit before rest = some n := h
      cases rest with
      | nil =>
          rw [List.append_nil, countHits_nil, hhere]
          exact Nat.one_pos
      | cons a rest =>
          rw [List.nil_append, countHits_of_some hhere]
          exact Nat.succ_pos _
  | cons a passed ih =>
      have hlater : hit (passed.reverse ++ (a :: before)) rest = some n := by
        simpa using h
      rw [List.cons_append]
      cases hhit : hit before (a :: (passed ++ rest)) with
      | none =>
          rw [countHits_of_none hhit]
          exact ih hlater
      | some m =>
          rw [countHits_of_some hhit]
          exact Nat.succ_pos _

end

/-!
## A fold over places

At a place the scan passes on, takes a match that ends at a later place, or
gives up.  It stops looking once it has counted enough.
-/

inductive Verdict where
  | pass
  | take (next : Nat)
  | giveUp
  deriving DecidableEq, Repr

structure Cursor where
  count : Nat
  nextAllowed : Nat
  fellBack : Bool
  deriving DecidableEq, Repr

namespace Cursor

def start : Cursor :=
  { count := 0, nextAllowed := 0, fellBack := false }

/-- The count, unless the scan gave up. -/
def outcome (s : Cursor) : Option Nat :=
  if s.fellBack then none else some s.count

end Cursor

variable (verdict : Nat -> Verdict) (maxCount : Nat)

def visit (s : Cursor) (place : Nat) : Cursor :=
  if maxCount ≤ s.count || s.fellBack then s
  else if place < s.nextAllowed then s
  else
    match verdict place with
    | .pass => s
    | .take next => { s with count := s.count + 1, nextAllowed := next }
    | .giveUp => { s with fellBack := true }

def scan (s : Cursor) (places : List Nat) : Cursor :=
  places.foldl (visit verdict maxCount) s

variable {verdict maxCount}

theorem scan_cons (s : Cursor) (place : Nat) (places : List Nat) :
    scan verdict maxCount s (place :: places) =
      scan verdict maxCount (visit verdict maxCount s place) places :=
  rfl

theorem scan_append (s : Cursor) (before after : List Nat) :
    scan verdict maxCount s (before ++ after) =
      scan verdict maxCount (scan verdict maxCount s before) after := by
  unfold scan
  rw [List.foldl_append]

theorem visit_of_done {s : Cursor} (place : Nat)
    (h : maxCount ≤ s.count ∨ s.fellBack = true) :
    visit verdict maxCount s place = s := by
  rw [visit, if_pos (by simpa using h)]

theorem visit_of_hidden {s : Cursor} {place : Nat}
    (h : place < s.nextAllowed) :
    visit verdict maxCount s place = s := by
  unfold visit
  split
  · rfl
  · rfl

theorem visit_of_seen {s : Cursor} {place : Nat} (hcount : s.count < maxCount)
    (hgoing : s.fellBack = false) (hallowed : s.nextAllowed ≤ place) :
    visit verdict maxCount s place =
      match verdict place with
      | .pass => s
      | .take next => { s with count := s.count + 1, nextAllowed := next }
      | .giveUp => { s with fellBack := true } := by
  have hgo : ¬(maxCount ≤ s.count || s.fellBack) = true := by
    simp only [hgoing, Bool.or_false, decide_eq_true_eq, not_le]
    exact hcount
  rw [visit, if_neg hgo, if_neg (Nat.not_lt.mpr hallowed)]

theorem scan_of_done {s : Cursor} (places : List Nat)
    (h : maxCount ≤ s.count ∨ s.fellBack = true) :
    scan verdict maxCount s places = s := by
  induction places with
  | nil => rfl
  | cons place places ih => rw [scan_cons, visit_of_done place h, ih]

theorem scan_filter (s : Cursor) (worth : Nat -> Bool) (places : List Nat) :
    scan verdict maxCount s (places.filter worth) =
      scan (fun place => if worth place then verdict place else .pass)
        maxCount s places := by
  induction places generalizing s with
  | nil => rfl
  | cons place places ih =>
      cases hworth : worth place with
      | true =>
          rw [List.filter_cons_of_pos hworth, scan_cons, scan_cons, ih]
          congr 1
          unfold visit
          simp only [hworth, if_true]
      | false =>
          have hsame :
              visit (fun place => if worth place then verdict place else .pass)
                maxCount s place = s := by
            unfold visit
            simp only [hworth]
            split
            · rfl
            · split
              · rfl
              · rfl
          rw [List.filter_cons_of_neg (by rw [hworth]; decide), scan_cons,
            hsame, ih]

/-- Two scans whose verdicts agree wherever the first does not give up. -/
def AgreesUntil (verdict other : Nat -> Verdict) (places : List Nat) : Prop :=
  forall place, place ∈ places -> verdict place ≠ .giveUp ->
    verdict place = other place

theorem scan_outcome_of_agrees {other : Nat -> Verdict} {places : List Nat}
    {s : Cursor} {n : Nat} (hagree : AgreesUntil verdict other places)
    (h : (scan verdict maxCount s places).outcome = some n) :
    (scan other maxCount s places).outcome = some n := by
  induction places generalizing s with
  | nil => exact h
  | cons place places ih =>
      have hlater : AgreesUntil verdict other places :=
        fun p hp => hagree p (List.mem_cons_of_mem _ hp)
      have hsame : visit verdict maxCount s place =
          visit other maxCount s place := by
        by_cases hgiveUp : verdict place = .giveUp
        · unfold visit
          split
          · rfl
          · rename_i hgo
            split
            · rfl
            · rename_i hseen
              exfalso
              rw [scan_cons] at h
              have hback : (visit verdict maxCount s place).fellBack =
                  true := by
                rw [visit, if_neg hgo, if_neg hseen, hgiveUp]
              rw [scan_of_done _ (Or.inr hback), Cursor.outcome, hback] at h
              cases h
        · unfold visit
          rw [hagree place List.mem_cons_self hgiveUp]
      rw [scan_cons] at h ⊢
      rw [← hsame]
      exact ih hlater h

/-- A scan gives up exactly where it gets to a place at which its verdict is
to give up, as the other scan shows which places it gets to. -/
theorem scan_outcome_eq_none_iff {other : Nat -> Verdict} {places : List Nat}
    {s : Cursor} (hagree : AgreesUntil verdict other places)
    (hgoing : s.fellBack = false) :
    (scan verdict maxCount s places).outcome = none <->
      exists before place after,
        places = before ++ place :: after ∧ verdict place = .giveUp ∧
          (scan other maxCount s before).count < maxCount ∧
          (scan other maxCount s before).nextAllowed ≤ place := by
  induction places generalizing s with
  | nil =>
      constructor
      · intro h
        change s.outcome = none at h
        rw [Cursor.outcome, hgoing] at h
        cases h
      · intro h
        rcases h with ⟨before, place, after, hsplit, _⟩
        exact absurd hsplit (by simp)
  | cons place places ih =>
      have hlater : AgreesUntil verdict other places :=
        fun p hp => hagree p (List.mem_cons_of_mem _ hp)
      by_cases hback : (visit verdict maxCount s place).fellBack = true
      · have hverdict : verdict place = .giveUp ∧ s.count < maxCount ∧
            s.nextAllowed ≤ place := by
          unfold visit at hback
          split at hback
          · rw [hgoing] at hback
            cases hback
          · rename_i hgo
            split at hback
            · rw [hgoing] at hback
              cases hback
            · rename_i hseen
              rw [hgoing, Bool.or_false, decide_eq_true_eq, not_le] at hgo
              split at hback
              · rw [hgoing] at hback
                cases hback
              · rw [hgoing] at hback
                cases hback
              · rename_i hverdict
                exact ⟨hverdict, hgo, Nat.le_of_not_lt hseen⟩
        constructor
        · intro _
          exact ⟨[], place, places, rfl, hverdict⟩
        · intro _
          rw [scan_cons, scan_of_done _ (Or.inr hback), Cursor.outcome, hback]
          rfl
      · rw [Bool.not_eq_true] at hback
        have hsame : visit verdict maxCount s place =
            visit other maxCount s place := by
          by_cases hgiveUp : verdict place = .giveUp
          · unfold visit at hback ⊢
            split
            · rfl
            · rename_i hgo
              split
              · rfl
              · rename_i hseen
                rw [if_neg hgo, if_neg hseen, hgiveUp] at hback
                cases hback
          · unfold visit
            rw [hagree place List.mem_cons_self hgiveUp]
        rw [scan_cons, ih hlater hback]
        constructor
        · intro h
          rcases h with ⟨before, p, after, hsplit, hp, hcount, hnext⟩
          refine ⟨place :: before, p, after, ?_, hp, ?_⟩
          · rw [hsplit, List.cons_append]
          · rw [scan_cons, ← hsame]
            exact ⟨hcount, hnext⟩
        · intro h
          rcases h with ⟨before, p, after, hsplit, hp, hcount, hnext⟩
          cases before with
          | nil =>
              rw [List.nil_append] at hsplit
              injection hsplit with hplace hplaces
              exfalso
              change s.count < maxCount at hcount
              change s.nextAllowed ≤ p at hnext
              have hnow : (visit verdict maxCount s place).fellBack = true := by
                rw [hplace, visit_of_seen hcount hgoing hnext, hp]
              rw [hback] at hnow
              cases hnow
          | cons first before =>
              rw [List.cons_append] at hsplit
              injection hsplit with hplace hplaces
              rw [scan_cons, ← hplace, ← hsame] at hcount hnext
              exact ⟨before, p, after, hplaces, hp, hcount, hnext⟩

theorem visit_count_le {s : Cursor} {place : Nat} :
    s.count ≤ (visit verdict maxCount s place).count := by
  unfold visit
  split
  · exact Nat.le_refl _
  · split
    · exact Nat.le_refl _
    · split
      · exact Nat.le_refl _
      · exact Nat.le_succ _
      · exact Nat.le_refl _

theorem count_le_scan {s : Cursor} {places : List Nat} :
    s.count ≤ (scan verdict maxCount s places).count := by
  induction places generalizing s with
  | nil => exact Nat.le_refl _
  | cons place places ih => exact Nat.le_trans visit_count_le ih

theorem scan_count_le {s : Cursor} {places : List Nat}
    (h : s.count ≤ maxCount) :
    (scan verdict maxCount s places).count ≤ maxCount := by
  induction places generalizing s with
  | nil => exact h
  | cons place places ih =>
      rw [scan_cons]
      apply ih
      unfold visit
      split
      · exact h
      · rename_i hgo
        rw [Bool.or_eq_true, not_or, decide_eq_true_eq, Nat.not_le] at hgo
        split
        · exact h
        · split
          · exact h
          · exact hgo.left
          · exact h

/-- A scan that ends with what it began with passed at every place. -/
theorem pass_of_scan_outcome {count : Nat} {places : List Nat}
    (hcount : count < maxCount)
    (h : (scan verdict maxCount ⟨count, 0, false⟩ places).outcome =
      some count) :
    forall place, place ∈ places -> verdict place = .pass := by
  induction places with
  | nil => exact fun _ hplace => absurd hplace List.not_mem_nil
  | cons place places ih =>
      rw [scan_cons, visit_of_seen hcount rfl (Nat.zero_le place)] at h
      cases hverdict : verdict place with
      | pass =>
          rw [hverdict] at h
          intro p hp
          rcases List.mem_cons.mp hp with hhere | hlater
          · rw [hhere]
            exact hverdict
          · exact ih h p hlater
      | take after =>
          rw [hverdict] at h
          change (scan verdict maxCount ⟨count + 1, after, false⟩ places).outcome =
            some count at h
          exfalso
          have hmore : (⟨count + 1, after, false⟩ : Cursor).count ≤
              (scan verdict maxCount ⟨count + 1, after, false⟩ places).count :=
            count_le_scan
          unfold Cursor.outcome at h
          split at h
          · cases h
          · injection h with h
            rw [h] at hmore
            exact absurd hmore (Nat.not_succ_le_self count)
      | giveUp =>
          rw [hverdict] at h
          change (scan verdict maxCount ⟨count, 0, true⟩ places).outcome =
            some count at h
          rw [scan_of_done _ (Or.inr rfl)] at h
          cases h

/-- A scan that counted something took a match at some place. -/
theorem exists_take_of_scan_outcome {s : Cursor} {n : Nat}
    {places : List Nat} (hn : s.count < n)
    (h : (scan verdict maxCount s places).outcome = some n) :
    exists place, place ∈ places ∧ exists after,
      verdict place = .take after := by
  induction places generalizing s with
  | nil =>
      change s.outcome = some n at h
      unfold Cursor.outcome at h
      split at h
      · cases h
      · injection h with h
        rw [h] at hn
        exact absurd hn (Nat.lt_irrefl n)
  | cons place places ih =>
      cases hverdict : verdict place with
      | take after => exact ⟨place, List.mem_cons_self, after, hverdict⟩
      | _ =>
          have hsame : (visit verdict maxCount s place).count = s.count := by
            unfold visit
            rw [hverdict]
            split
            · rfl
            · split
              · rfl
              · rfl
          rw [scan_cons] at h
          rcases ih (by rw [hsame]; exact hn) h with ⟨p, hp, after, htake⟩
          exact ⟨p, List.mem_cons_of_mem _ hp, after, htake⟩

/-- A scan that never gives up counts as the list does. -/
theorem scan_count {hit : List α -> List α -> Option Nat}
    {before after : List α} {s : Cursor}
    (hnone : forall passed a rest, after = passed ++ a :: rest ->
      hit (passed.reverse ++ before) (a :: rest) = none ->
        verdict (before.length + passed.length) = .pass)
    (hsome : forall passed a rest n, after = passed ++ a :: rest ->
      hit (passed.reverse ++ before) (a :: rest) = some n ->
        0 < n ∧ verdict (before.length + passed.length) =
          .take (before.length + passed.length + n))
    (hend : hit (after.reverse ++ before) [] = none)
    (hcount : s.count ≤ maxCount) (hgoing : s.fellBack = false) :
    (scan verdict maxCount s (List.range' before.length after.length)).outcome =
      some (min maxCount
        (s.count +
          countHits hit before (s.nextAllowed - before.length) after)) := by
  induction after generalizing before s with
  | nil =>
      have hzero : forall skip, countHits hit before skip [] = 0 := by
        intro skip
        cases skip with
        | zero =>
            have hnothing : hit before [] = none := hend
            rw [countHits_nil, hnothing]
            rfl
        | succ skip => rfl
      rw [hzero, Nat.add_zero, Nat.min_eq_right hcount]
      change s.outcome = some s.count
      rw [Cursor.outcome, hgoing]
      rfl
  | cons a after ih =>
      have hnone' : forall passed b rest, after = passed ++ b :: rest ->
          hit (passed.reverse ++ (a :: before)) (b :: rest) = none ->
            verdict ((a :: before).length + passed.length) = .pass := by
        intro passed b rest hsplit hhit
        have hlater := hnone (a :: passed) b rest
          (by rw [hsplit, List.cons_append]) (by simpa using hhit)
        rw [List.length_cons] at hlater ⊢
        rw [Nat.add_right_comm, Nat.add_assoc]
        exact hlater
      have hsome' : forall passed b rest n, after = passed ++ b :: rest ->
          hit (passed.reverse ++ (a :: before)) (b :: rest) = some n ->
            0 < n ∧ verdict ((a :: before).length + passed.length) =
              .take ((a :: before).length + passed.length + n) := by
        intro passed b rest n hsplit hhit
        have hlater := hsome (a :: passed) b rest n
          (by rw [hsplit, List.cons_append]) (by simpa using hhit)
        have hplace : (a :: before).length + passed.length =
            before.length + (a :: passed).length := by
          rw [List.length_cons, List.length_cons]
          omega
        rw [hplace]
        exact hlater
      have hend' : hit (after.reverse ++ (a :: before)) [] = none := by
        simpa using hend
      have hstep : forall t : Cursor, t.count ≤ maxCount ->
          t.fellBack = false ->
            (scan verdict maxCount t
              (List.range' (before.length + 1) after.length)).outcome =
              some (min maxCount
                (t.count + countHits hit (a :: before)
                  (t.nextAllowed - (before.length + 1)) after)) := by
        intro t htcount htgoing
        exact ih hnone' hsome' hend' htcount htgoing
      rw [List.length_cons, List.range'_succ, scan_cons]
      rcases Nat.lt_or_ge s.count maxCount with hmore | hfull
      · rcases Nat.lt_or_ge before.length s.nextAllowed with hhidden | hseen
        · rw [visit_of_hidden hhidden, hstep s hcount hgoing]
          have hskip : s.nextAllowed - before.length =
              (s.nextAllowed - (before.length + 1)) + 1 := by
            omega
          rw [hskip]
          rfl
        · rw [visit_of_seen hmore hgoing hseen,
            Nat.sub_eq_zero_of_le hseen]
          cases hhit : hit before (a :: after) with
          | none =>
              have hpass : verdict before.length = .pass :=
                hnone [] a after rfl hhit
              rw [hpass, countHits_of_none hhit]
              change (scan verdict maxCount s _).outcome = _
              rw [hstep s hcount hgoing,
                Nat.sub_eq_zero_of_le (Nat.le_succ_of_le hseen)]
          | some n =>
              rcases hsome [] a after n rfl hhit with ⟨hn, htake⟩
              change verdict before.length = .take (before.length + n)
                at htake
              rw [htake, countHits_of_some hhit]
              change (scan verdict maxCount
                { s with
                  count := s.count + 1
                  nextAllowed := before.length + n } _).outcome = _
              have htaken := hstep
                { s with
                  count := s.count + 1
                  nextAllowed := before.length + n } hmore hgoing
              rw [htaken]
              have hskip : before.length + n - (before.length + 1) =
                  n - 1 := by
                omega
              change some (min maxCount
                (s.count + 1 + countHits hit (a :: before)
                  (before.length + n - (before.length + 1)) after)) = _
              rw [hskip, Nat.add_assoc, Nat.add_comm 1]
      · rw [visit_of_done _ (Or.inl hfull), scan_of_done _ (Or.inl hfull)]
        have heq : s.count = maxCount := Nat.le_antisymm hcount hfull
        rw [Cursor.outcome, hgoing, heq, Nat.min_eq_left (Nat.le_add_right _ _)]
        rfl

/-!
## A loop over places

The loop asks for the first place from a position on, and goes on behind the
place when it passed, or behind the match when it took one.
-/

variable (verdict maxCount) in
def loop (next : Nat -> Option Nat) :
    (fuel position count : Nat) -> Option Nat
  | 0, _, count => some count
  | fuel + 1, position, count =>
      match next position with
      | none => some count
      | some place =>
          match verdict place with
          | .pass => loop next fuel (place + 1) count
          | .take after =>
              if maxCount ≤ count + 1 then some (count + 1)
              else loop next fuel after (count + 1)
          | .giveUp => none

/-- The places are asked for in their order, each once. -/
def Finds (next : Nat -> Option Nat) (places : List Nat) : Prop :=
  forall position, next position = places.find? fun place => position ≤ place

/-- Places before the position of the cursor change nothing. -/
theorem scan_dropWhile {s : Cursor} {position : Nat} (places : List Nat)
    (h : position ≤ s.nextAllowed) :
    scan verdict maxCount s
        (places.dropWhile fun place => decide (place < position)) =
      scan verdict maxCount s places := by
  induction places with
  | nil => rfl
  | cons place places ih =>
      rw [List.dropWhile_cons]
      split
      · rename_i hbefore
        have hhidden : place < s.nextAllowed :=
          Nat.lt_of_lt_of_le (of_decide_eq_true hbefore) h
        rw [ih, scan_cons, visit_of_hidden hhidden]
      · rfl

/-- How far the cursor is does not matter to places that lie behind it. -/
theorem scan_outcome_congr {count a b : Nat} {places : List Nat}
    (ha : forall place, place ∈ places -> a ≤ place)
    (hb : forall place, place ∈ places -> b ≤ place) :
    (scan verdict maxCount ⟨count, a, false⟩ places).outcome =
      (scan verdict maxCount ⟨count, b, false⟩ places).outcome := by
  induction places with
  | nil => rfl
  | cons place places ih =>
      have htail := ih
        (fun p hp => ha p (List.mem_cons_of_mem _ hp))
        (fun p hp => hb p (List.mem_cons_of_mem _ hp))
      rcases Nat.lt_or_ge count maxCount with hmore | hfull
      · rw [scan_cons, scan_cons,
          visit_of_seen hmore rfl (ha place List.mem_cons_self),
          visit_of_seen hmore rfl (hb place List.mem_cons_self)]
        cases verdict place with
        | pass => exact htail
        | take after => rfl
        | giveUp =>
            change (scan verdict maxCount ⟨count, a, true⟩ places).outcome =
              (scan verdict maxCount ⟨count, b, true⟩ places).outcome
            rw [scan_of_done _ (Or.inr rfl), scan_of_done _ (Or.inr rfl)]
            rfl
      · rw [scan_of_done _ (Or.inl hfull), scan_of_done _ (Or.inl hfull)]
        rfl

theorem find_eq_dropWhile (places : List Nat) (position : Nat) :
    (places.find? fun place => decide (position ≤ place)) =
      (places.dropWhile fun place => decide (place < position)).head? := by
  induction places with
  | nil => rfl
  | cons place places ih =>
      rw [List.find?_cons, List.dropWhile_cons]
      rcases Nat.lt_or_ge place position with hbefore | hbehind
      · rw [decide_eq_false (Nat.not_le.mpr hbefore), decide_eq_true hbefore,
          if_pos rfl]
        exact ih
      · rw [decide_eq_true hbehind, decide_eq_false (Nat.not_lt.mpr hbehind),
          if_neg (by decide)]
        rfl

theorem dropWhile_of_le {places : List Nat} {position further : Nat}
    (hle : position ≤ further) :
    (places.dropWhile fun place => decide (place < further)) =
      (places.dropWhile fun place => decide (place < position)).dropWhile
        fun place => decide (place < further) := by
  induction places with
  | nil => rfl
  | cons place places ih =>
      rcases Nat.lt_or_ge place position with hbefore | hbehind
      · have hfurther : place < further := Nat.lt_of_lt_of_le hbefore hle
        rw [List.dropWhile_cons, List.dropWhile_cons,
          decide_eq_true hfurther, decide_eq_true hbefore, if_pos rfl,
          if_pos rfl]
        exact ih
      · rw [List.dropWhile_cons (p := fun place => decide (place < position)),
          decide_eq_false (Nat.not_lt.mpr hbehind), if_neg (by decide)]

theorem dropWhile_cons_facts {places rest : List Nat} {position place : Nat}
    (hsorted : places.Pairwise (· < ·))
    (h : (places.dropWhile fun place => decide (place < position)) =
      place :: rest) :
    position ≤ place ∧ forall later, later ∈ rest -> place < later := by
  have hsuffix : place :: rest <:+ places := by
    rw [← h]
    exact List.dropWhile_suffix _
  constructor
  · have hhead := List.head?_dropWhile_not
      (fun place => decide (place < position)) places
    rw [h] at hhead
    exact Nat.le_of_not_lt (of_decide_eq_false hhead)
  · intro later hlater
    exact List.rel_of_pairwise_cons (hsorted.sublist hsuffix.sublist) hlater

/-- With fuel for every place that is left, the loop counts what the fold
counts, and gives up when the fold does. -/
theorem loop_eq_scan {next : Nat -> Option Nat} {places : List Nat}
    (hfinds : Finds next places) (hsorted : places.Pairwise (· < ·))
    (hforward : forall place after,
      verdict place = .take after -> place < after)
    {fuel position count : Nat} (hcount : count < maxCount)
    (hfuel : (places.dropWhile fun place => decide (place < position)).length <
      fuel) :
    loop verdict maxCount next fuel position count =
      (scan verdict maxCount ⟨count, position, false⟩ places).outcome := by
  induction fuel generalizing position count with
  | zero => exact absurd hfuel (Nat.not_lt_zero _)
  | succ fuel ih =>
      have hdrop := @scan_dropWhile verdict maxCount ⟨count, position, false⟩
        position places (Nat.le_refl position)
      rw [loop, hfinds position, find_eq_dropWhile, ← hdrop]
      cases hleft :
          places.dropWhile fun place => decide (place < position) with
      | nil => rfl
      | cons place rest =>
          rcases dropWhile_cons_facts hsorted hleft with ⟨hle, hrest⟩
          have hbehind : forall t : Cursor, position ≤ t.nextAllowed ->
              place < t.nextAllowed ->
                scan verdict maxCount t places =
                  scan verdict maxCount t rest := by
            intro t hposition hplace
            rw [← scan_dropWhile places hposition, hleft, scan_cons,
              visit_of_hidden hplace]
          have hless : forall further, position ≤ further ->
              place < further ->
                (places.dropWhile fun p => decide (p < further)).length <
                  fuel := by
            intro further hposition hplace
            rw [hleft, List.length_cons] at hfuel
            rw [dropWhile_of_le hposition, hleft, List.dropWhile_cons,
              decide_eq_true hplace, if_pos rfl]
            exact Nat.lt_of_le_of_lt
              (List.dropWhile_suffix _).sublist.length_le
              (Nat.lt_of_succ_lt_succ hfuel)
          rw [scan_cons, visit_of_seen hcount rfl hle]
          change (match verdict place with
            | .pass => loop verdict maxCount next fuel (place + 1) count
            | .take after =>
                if maxCount ≤ count + 1 then some (count + 1)
                else loop verdict maxCount next fuel after (count + 1)
            | .giveUp => none) = _
          cases hverdict : verdict place with
          | pass =>
              change loop verdict maxCount next fuel (place + 1) count =
                (scan verdict maxCount ⟨count, position, false⟩ rest).outcome
              have hposition : position ≤ place + 1 := Nat.le_succ_of_le hle
              rw [ih hcount (hless _ hposition (Nat.lt_succ_self place)),
                hbehind _ hposition (Nat.lt_succ_self place)]
              apply scan_outcome_congr
              · exact hrest
              · intro later hlater
                exact Nat.le_trans hle (Nat.le_of_lt (hrest later hlater))
          | take after =>
              change (if maxCount ≤ count + 1 then some (count + 1)
                  else loop verdict maxCount next fuel after (count + 1)) =
                (scan verdict maxCount ⟨count + 1, after, false⟩ rest).outcome
              have hplace : place < after := hforward place after hverdict
              have hposition : position ≤ after :=
                Nat.le_trans hle (Nat.le_of_lt hplace)
              split
              · rename_i hfull
                rw [scan_of_done _ (Or.inl hfull)]
                rfl
              · rename_i hmore
                rw [ih (Nat.lt_of_not_le hmore) (hless _ hposition hplace),
                  hbehind _ hposition hplace]
          | giveUp =>
              change none =
                (scan verdict maxCount ⟨count, position, true⟩ rest).outcome
              rw [scan_of_done _ (Or.inr rfl)]
              rfl

/-!
## The first place that is not passed
-/

def firstNotPassed (verdict : Nat -> Verdict) (next : Nat -> Option Nat) :
    (fuel : Nat) -> Option Nat -> Option Nat
  | 0, _ => none
  | _ + 1, none => none
  | fuel + 1, some place =>
      if verdict place = .pass then
        firstNotPassed verdict next fuel (next (place + 1))
      else some place

theorem firstNotPassed_eq {next : Nat -> Option Nat} {places : List Nat}
    (hfinds : Finds next places) (hsorted : places.Pairwise (· < ·))
    {fuel position : Nat}
    (hfuel : (places.dropWhile fun place => decide (place < position)).length <
      fuel) :
    firstNotPassed verdict next fuel (next position) =
      (places.dropWhile fun place => decide (place < position)).find?
        fun place => verdict place ≠ .pass := by
  induction fuel generalizing position with
  | zero => exact absurd hfuel (Nat.not_lt_zero _)
  | succ fuel ih =>
      rw [hfinds position, find_eq_dropWhile]
      cases hleft :
          places.dropWhile fun place => decide (place < position) with
      | nil => rfl
      | cons place rest =>
          rcases dropWhile_cons_facts hsorted hleft with ⟨hle, hrest⟩
          have hbehind : (places.dropWhile
              fun p => decide (p < place + 1)) = rest := by
            rw [dropWhile_of_le (Nat.le_succ_of_le hle), hleft,
              List.dropWhile_cons, decide_eq_true (Nat.lt_succ_self place),
              if_pos rfl]
            cases rest with
            | nil => rfl
            | cons later rest =>
                have hlater := hrest later List.mem_cons_self
                rw [List.dropWhile_cons,
                  decide_eq_false (Nat.not_lt.mpr hlater),
                  if_neg Bool.false_ne_true]
          rw [List.head?_cons, firstNotPassed, List.find?_cons]
          by_cases hpass : verdict place = .pass
          · rw [hleft, List.length_cons] at hfuel
            rw [if_pos hpass, ih (by
              rw [hbehind]
              exact Nat.lt_of_succ_lt_succ hfuel), hbehind]
            simp only [hpass, ne_eq, not_true_eq_false, decide_false]
          · rw [if_neg hpass]
            simp only [hpass, ne_eq, not_false_eq_true, decide_true]

end Scan
end Foundation
end Minni
