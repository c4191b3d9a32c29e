import Mathlib.Data.List.Induction
import Minni.Recall.FaissPersist

/-!
# Vectors and ids of one save

Each file of the cache is that of the last save that put it in place.  What a
load reads from the numpy file comes from one save; an index comes from the
last save that put one in place, and its ids from the last save that put its
manifest in place.
-/

namespace Minni
namespace Recall

variable {vector : Type}

/-!
## What a save puts in place
-/

def FileStep.replaces (file : CacheFile) : FileStep vector -> Bool
  | .replace other => decide (other = file)
  | _ => false

/-- The save comes as far as the rename of the file. -/
def Attempt.puts (file : CacheFile) (attempt : Attempt vector) : Bool :=
  attempt.done.any (FileStep.replaces file)

/-- What a save writes to a file. -/
def SaveCall.content (call : SaveCall vector) : CacheFile -> Content vector
  | .faiss => .index (call.index.getD [])
  | .npz => .arrays call.vectors call.chunk_ids
  | .manifest => .manifest call.manifest

theorem removals_final (n : Nat) (files : List CacheFile)
    (disk : Disk vector) :
    ((files.map FileStep.removeTemp).foldl (Disk.apply n) disk).final =
      disk.final := by
  induction files generalizing disk with
  | nil => rfl
  | cons file rest ih =>
      rw [List.map_cons, List.foldl_cons, ih]
      rfl

/-- Every rename of the steps finds its temporary file written. -/
def Prepared (n : Nat) (content : CacheFile -> Content vector) :
    Disk vector -> List (FileStep vector) -> Prop
  | _, [] => True
  | disk, step :: rest =>
      (forall file, step = .replace file -> disk.temp file =
        some { savedBy := n, content := some (content file) }) ∧
      Prepared n content (disk.apply n step) rest

theorem Prepared.take {n : Nat} {content : CacheFile -> Content vector}
    {disk : Disk vector} {steps : List (FileStep vector)}
    (h : Prepared n content disk steps) (performed : Nat) :
    Prepared n content disk (steps.take performed) := by
  induction steps generalizing disk performed with
  | nil =>
      rw [List.take_nil]
      exact h
  | cons step rest ih =>
      cases performed with
      | zero => exact trivial
      | succ performed => exact ⟨h.left, ih h.right performed⟩

/-- A file is the one that was written where a step renames it, and is left
alone otherwise. -/
theorem Prepared.final {n : Nat} {content : CacheFile -> Content vector}
    {disk : Disk vector} {steps : List (FileStep vector)}
    (h : Prepared n content disk steps) (file : CacheFile) :
    (steps.foldl (Disk.apply n) disk).final file =
      if steps.any (FileStep.replaces file) then
        some { savedBy := n, content := some (content file) }
      else disk.final file := by
  induction steps generalizing disk with
  | nil => rfl
  | cons step rest ih =>
      rw [List.foldl_cons, ih h.right, List.any_cons]
      cases step with
      | openTemp other => rfl
      | writeTemp other written => rfl
      | removeTemp other => rfl
      | replace other =>
          have htemp := h.left other rfl
          have hdisk : (disk.apply n (.replace other)).final file =
              Function.update disk.final other
                (some { savedBy := n, content := some (content other) })
                  file := by
            dsimp only [Disk.apply]
            rw [htemp]
          have hreplaces : forall target, FileStep.replaces target
              (FileStep.replace other : FileStep vector) =
                decide (other = target) := fun _ => rfl
          rw [hdisk, hreplaces]
          by_cases hother : other = file
          · rw [decide_eq_true hother, Bool.true_or, if_pos rfl, hother,
              Function.update_self, ite_self]
          · rw [decide_eq_false hother, Bool.false_or,
              Function.update_of_ne (Ne.symm hother)]

theorem prepared_npzSteps (call : SaveCall vector) (n : Nat)
    (disk : Disk vector) :
    Prepared n call.content disk call.npzSteps := by
  unfold SaveCall.npzSteps
  split
  · exact trivial
  · simp [Prepared, SaveCall.manifestSteps, Disk.apply, SaveCall.content]

theorem prepared_steps (call : SaveCall vector) (outcome : FaissOutcome)
    (n : Nat) (disk : Disk vector) :
    Prepared n call.content disk (call.steps outcome) := by
  unfold SaveCall.steps
  split
  · exact prepared_npzSteps call n disk
  · exact prepared_npzSteps call n disk
  · constructor
    · intro file hstep
      cases hstep
    · exact prepared_npzSteps call n _
  · rename_i held hindex
    simp [Prepared, SaveCall.manifestSteps, Disk.apply, SaveCall.content,
      hindex]

theorem perform_final (attempt : Attempt vector) (n : Nat)
    (disk : Disk vector) (file : CacheFile) :
    (Attempt.perform disk (attempt, n)).final file =
      if attempt.puts file then
        some { savedBy := n, content := some (attempt.call.content file) }
      else disk.final file := by
  unfold Attempt.perform
  rw [List.foldl_append, removals_final]
  exact ((prepared_steps attempt.call attempt.outcome n disk).take
    attempt.performed).final file

/-!
## What the saves leave
-/

/-- The last save that put a file in place. -/
def lastPut (file : CacheFile) (attempts : List (Attempt vector)) :
    Option Nat :=
  attempts.zipIdx.foldl
    (fun last numbered =>
      if numbered.1.puts file then some numbered.2 else last) none

theorem lastPut_concat (file : CacheFile) (attempts : List (Attempt vector))
    (attempt : Attempt vector) :
    lastPut file (attempts ++ [attempt]) =
      if attempt.puts file then some attempts.length
      else lastPut file attempts := by
  unfold lastPut
  rw [List.zipIdx_append, List.foldl_append, Nat.zero_add]
  rfl

theorem diskAfter_concat (attempts : List (Attempt vector))
    (attempt : Attempt vector) :
    diskAfter (attempts ++ [attempt]) =
      Attempt.perform (diskAfter attempts) (attempt, attempts.length) := by
  unfold diskAfter
  rw [List.zipIdx_append, List.foldl_append, Nat.zero_add]
  rfl

theorem lastPut_lt {file : CacheFile} {attempts : List (Attempt vector)}
    {n : Nat} (h : lastPut file attempts = some n) : n < attempts.length := by
  induction attempts using List.reverseRecOn with
  | nil => cases h
  | append_singleton attempts attempt ih =>
      rw [lastPut_concat] at h
      rw [List.length_append, List.length_singleton]
      split at h
      · rw [← Option.some.inj h]
        exact Nat.lt_succ_self _
      · exact Nat.lt_succ_of_lt (ih h)

theorem lastPut_puts {file : CacheFile} {attempts : List (Attempt vector)}
    {n : Nat} (h : lastPut file attempts = some n) :
    exists attempt, attempts[n]? = some attempt ∧
      attempt.puts file = true := by
  induction attempts using List.reverseRecOn with
  | nil => cases h
  | append_singleton attempts attempt ih =>
      rw [lastPut_concat] at h
      split at h
      · rename_i hputs
        rw [← Option.some.inj h]
        exact ⟨attempt, List.getElem?_concat_length, hputs⟩
      · rcases ih h with ⟨other, hget, hputs⟩
        refine ⟨other, ?_, hputs⟩
        rw [List.getElem?_append_left (lastPut_lt h)]
        exact hget

theorem npzSteps_replaces (call : SaveCall vector) :
    call.npzSteps.any (FileStep.replaces .faiss) = false := by
  unfold SaveCall.npzSteps
  split
  · rfl
  · rfl

/-- Only a save that holds an index puts one in place. -/
theorem index_of_puts {attempt : Attempt vector}
    (h : attempt.puts .faiss = true) :
    exists held, attempt.call.index = some held := by
  rcases List.any_eq_true.mp h with ⟨step, hstep, hreplaces⟩
  have hany : (attempt.call.steps attempt.outcome).any
      (FileStep.replaces .faiss) = true :=
    List.any_eq_true.mpr ⟨step, List.mem_of_mem_take hstep, hreplaces⟩
  cases hindex : attempt.call.index with
  | some held => exact ⟨held, rfl⟩
  | none =>
      unfold SaveCall.steps at hany
      rw [hindex] at hany
      dsimp only at hany
      rw [npzSteps_replaces] at hany
      cases hany

/-- A file is that of the last save that put it in place. -/
theorem diskAfter_final (attempts : List (Attempt vector))
    (file : CacheFile) :
    (diskAfter attempts).final file =
      (lastPut file attempts).bind fun n => attempts[n]?.map fun attempt =>
        { savedBy := n, content := some (attempt.call.content file) } := by
  induction attempts using List.reverseRecOn with
  | nil => rfl
  | append_singleton attempts attempt ih =>
      rw [diskAfter_concat, perform_final, lastPut_concat]
      split
      · rw [Option.bind_some, List.getElem?_concat_length]
        rfl
      · rw [ih]
        cases hlast : lastPut file attempts with
        | none => rfl
        | some n =>
            rw [Option.bind_some, Option.bind_some,
              List.getElem?_append_left (lastPut_lt hlast)]

theorem diskAfter_eq_some {attempts : List (Attempt vector)}
    {file : CacheFile} {stored : Stored vector}
    (h : (diskAfter attempts).final file = some stored) :
    lastPut file attempts = some stored.savedBy ∧
      exists attempt, attempts[stored.savedBy]? = some attempt ∧
        stored.content = some (attempt.call.content file) := by
  rw [diskAfter_final, Option.bind_eq_some_iff] at h
  rcases h with ⟨n, hlast, hstored⟩
  rcases Option.map_eq_some_iff.mp hstored with ⟨attempt, hget, heq⟩
  rw [← heq]
  exact ⟨hlast, attempt, hget, rfl⟩

/-!
## Loading
-/

/-- The parts that a load returns, as the saves wrote them. -/
structure FromSaves (attempts : List (Attempt vector))
    (loaded : Loaded vector) : Prop where
  ids : exists attempt, attempts[loaded.idsFrom]? = some attempt ∧
    loaded.chunk_ids = attempt.call.chunk_ids
  vectors : exists attempt, attempts[loaded.vectorsFrom]? = some attempt ∧
    (loaded.faiss_index = attempt.call.index ∨
      loaded.faiss_index = none ∧
        loaded.vectors = attempt.call.vectors)

theorem loadNpz_eq_some {attempts : List (Attempt vector)}
    {npzReads : Bool} {loaded : Loaded vector}
    (h : loadNpz (diskAfter attempts) npzReads = some loaded) :
    FromSaves attempts loaded ∧ loaded.vectorsFrom = loaded.idsFrom := by
  unfold loadNpz at h
  split at h
  · rename_i n vectors chunkIds hfile
    split at h
    · rcases diskAfter_eq_some hfile with ⟨_, attempt, hget, hcontent⟩
      have hsame := Option.some.inj hcontent
      injection hsame with hvectors hids
      rw [← Option.some.inj h]
      exact ⟨⟨⟨attempt, hget, hids⟩,
        ⟨attempt, hget, Or.inr ⟨rfl, hvectors⟩⟩⟩, rfl⟩
    · cases h
  · cases h

/-- A load that returns something pairs the vectors and the ids of one save
exactly where it reads no index, or where the last save that put an index in
place is the last that put its manifest in place. -/
theorem load_paired_iff {attempts : List (Attempt vector)}
    {request : LoadRequest} {faissReads npzReads : Bool}
    {loaded : Loaded vector}
    (h : load (diskAfter attempts) request faissReads npzReads =
      some loaded) :
    FromSaves attempts loaded ∧
      (loaded.vectorsFrom = loaded.idsFrom <->
        faissReads = false ∨ lastPut .faiss attempts = none ∨
          lastPut .faiss attempts = lastPut .manifest attempts) := by
  unfold load at h
  split at h
  · rename_i saved m hmanifest
    split at h
    · split at h
      · rename_i n held hfaiss
        rcases diskAfter_eq_some hmanifest with
          ⟨hlast, attempt, hget, hcontent⟩
        rcases diskAfter_eq_some hfaiss with
          ⟨hlastFaiss, other, hgetFaiss, hcontentFaiss⟩
        have hm := Option.some.inj hcontent
        injection hm with hm
        have hheld := Option.some.inj hcontentFaiss
        injection hheld with hheld
        rw [← Option.some.inj h, hlast, hlastFaiss]
        constructor
        · constructor
          · refine ⟨attempt, hget, ?_⟩
            rw [hm]
            rfl
          · rcases lastPut_puts hlastFaiss with ⟨last, hgetLast, hputs⟩
            rw [hgetFaiss] at hgetLast
            rw [← Option.some.inj hgetLast] at hputs
            rcases index_of_puts hputs with ⟨index, hindex⟩
            refine ⟨other, hgetFaiss, Or.inl ?_⟩
            rw [hheld, hindex]
            rfl
        · constructor
          · exact fun heq => Or.inr (Or.inr (congrArg some heq))
          · rintro (hbad | hbad | heq)
            · cases hbad
            · cases hbad
            · exact Option.some.inj heq
      · rename_i reads _ _ hnone
        rcases loadNpz_eq_some h with ⟨hfrom, heq⟩
        refine ⟨hfrom, fun _ => ?_, fun _ => heq⟩
        cases hreads : reads with
        | false => exact Or.inl rfl
        | true =>
            apply Or.inr
            cases hlast : lastPut .faiss attempts with
            | none => exact Or.inl rfl
            | some n =>
                have hfile := diskAfter_final attempts .faiss
                rw [hlast, Option.bind_some,
                  List.getElem?_eq_getElem (lastPut_lt hlast),
                  Option.map_some] at hfile
                exact absurd hfile (hnone n _ hreads)
    · cases h
  · cases h

/-!
## A save without FAISS after one with it
-/

namespace Stale

def withFaiss : SaveCall Nat :=
  { index := some [10]
    vectors := [10]
    chunk_ids := [1]
    embedding_model := "model"
    vector_dim := 1
    embedding_quantization := "fp32"
    db_checksum := "before"
    saved_at := "" }

def withoutFaiss : SaveCall Nat :=
  { withFaiss with
    index := none
    vectors := [20]
    chunk_ids := [2]
    db_checksum := "after" }

/-- Two saves that both run to their ends. -/
def attempts : List (Attempt Nat) :=
  [{ call := withFaiss, outcome := .written, performed := 6, removed := [] },
    { call := withoutFaiss, outcome := .unavailable, performed := 6
      removed := [] }]

def request : LoadRequest :=
  { expected_db_checksum := "after"
    expected_model := "model"
    expected_dim := 1
    expected_quantization := "fp32" }

def mispaired : Loaded Nat :=
  { faiss_index := some [10]
    chunk_ids := [2]
    vectors := []
    vectorsFrom := 0
    idsFrom := 1 }

/-- The index of the first save comes back with the ids of the second. -/
theorem load_mispairs :
    request.accepts withoutFaiss.manifest = true ∧
      load (diskAfter attempts) request true true = some mispaired ∧
        mispaired.vectorsFrom ≠ mispaired.idsFrom := by
  decide

end Stale

/-- The numpy file of the second save is read in a pair. -/
theorem load_paired_iff_unread :
    FromSaves Stale.attempts
        { faiss_index := none
          chunk_ids := [2]
          vectors := [20]
          vectorsFrom := 1
          idsFrom := 1 } ∧
      ((1 : Nat) = 1 <->
        false = false ∨ lastPut .faiss Stale.attempts = none ∨
          lastPut .faiss Stale.attempts =
            lastPut .manifest Stale.attempts) := by
  have h : load (diskAfter Stale.attempts) Stale.request false true =
      some
        { faiss_index := none
          chunk_ids := [2]
          vectors := [20]
          vectorsFrom := 1
          idsFrom := 1 } := by
    decide
  exact load_paired_iff h

end Recall
end Minni
