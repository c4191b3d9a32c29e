import Mathlib.Data.List.Basic

/-!
# Words of a text

A text is split at its white space, and words are joined by one blank.  Joining
the words of a text and splitting them again gives the same words, and a cut at
a white space cuts the words.
-/

namespace Minni
namespace Foundation
namespace Words

variable {α : Type} (isSpace : α -> Bool)

def startsWord : List α -> Bool
  | [] => false
  | c :: _ => !isSpace c

/-- `str.split`, without a separator. -/
def split : List α -> List (List α)
  | [] => []
  | c :: rest =>
      if isSpace c then split rest
      else if startsWord isSpace rest then
        match split rest with
        | [] => [[c]]
        | word :: words => (c :: word) :: words
      else [c] :: split rest

def join (space : α) : List (List α) -> List α
  | [] => []
  | [word] => word
  | word :: words => word ++ space :: join space words

/-- A word is not empty and has no white space. -/
structure IsWord (word : List α) : Prop where
  nonempty : word ≠ []
  solid : forall c, c ∈ word -> isSpace c = false

variable {isSpace}

theorem split_cons (c : α) (rest : List α) :
    split isSpace (c :: rest) =
      if isSpace c then split isSpace rest
      else if startsWord isSpace rest then
        match split isSpace rest with
        | [] => [[c]]
        | word :: words => (c :: word) :: words
      else [c] :: split isSpace rest :=
  rfl

theorem split_ne_nil {text : List α} (h : startsWord isSpace text = true) :
    split isSpace text ≠ [] := by
  cases text with
  | nil => cases h
  | cons c rest =>
      have hc : isSpace c = false := by
        unfold startsWord at h
        simpa using h
      rw [split_cons, hc]
      simp only [Bool.false_eq_true, if_false]
      split
      · split
        · exact List.cons_ne_nil _ _
        · exact List.cons_ne_nil _ _
      · exact List.cons_ne_nil _ _

theorem isWord_split {text word : List α} (h : word ∈ split isSpace text) :
    IsWord isSpace word := by
  induction text generalizing word with
  | nil => cases h
  | cons c rest ih =>
      rw [split_cons] at h
      split at h
      · exact ih h
      · rename_i hc
        have hsolid : isSpace c = false := Bool.not_eq_true _ ▸ hc
        have hone : IsWord isSpace [c] := by
          constructor
          · exact List.cons_ne_nil _ _
          · intro x hx
            rw [List.mem_singleton.mp hx]
            exact hsolid
        split at h
        · split at h
          · rw [List.mem_singleton.mp h]
            exact hone
          · rename_i first words hsplit
            rcases List.mem_cons.mp h with hfirst | hmem
            · rw [hfirst]
              have hwas : IsWord isSpace first := by
                apply ih
                rw [hsplit]
                exact List.mem_cons_self ..
              constructor
              · exact List.cons_ne_nil _ _
              · intro x hx
                rcases List.mem_cons.mp hx with hx | hx
                · rw [hx]
                  exact hsolid
                · exact hwas.solid x hx
            · apply ih
              rw [hsplit]
              exact List.mem_cons_of_mem _ hmem
        · rcases List.mem_cons.mp h with hfirst | hmem
          · rw [hfirst]
            exact hone
          · exact ih hmem

/-- A white space ends the words before it. -/
theorem split_append_space {before after : List α} {space : α}
    (h : isSpace space = true) :
    split isSpace (before ++ space :: after) =
      split isSpace before ++ split isSpace after := by
  induction before with
  | nil =>
      show split isSpace (space :: after) = split isSpace after
      rw [split_cons, if_pos h]
  | cons c before ih =>
      rw [List.cons_append, split_cons, split_cons, ih]
      split
      · rfl
      · have hstarts : startsWord isSpace (before ++ space :: after) =
            startsWord isSpace before := by
          cases before with
          | nil =>
              unfold startsWord
              simp [h]
          | cons d before => rfl
        rw [hstarts]
        split
        · rename_i hword
          cases hsplit : split isSpace before with
          | nil => exact absurd hsplit (split_ne_nil hword)
          | cons word words => rfl
        · rfl

theorem split_word {word : List α} (h : IsWord isSpace word) :
    split isSpace word = [word] := by
  rcases h with ⟨hnonempty, hsolid⟩
  induction word with
  | nil => exact absurd rfl hnonempty
  | cons c rest ih =>
      have hc := hsolid c (List.mem_cons_self ..)
      rw [split_cons, hc]
      simp only [Bool.false_eq_true, if_false]
      cases rest with
      | nil => rfl
      | cons d rest =>
          have hd := hsolid d
            (List.mem_cons_of_mem _ (List.mem_cons_self ..))
          have hrest := ih (List.cons_ne_nil _ _) fun x hx =>
            hsolid x (List.mem_cons_of_mem _ hx)
          have hstarts : startsWord isSpace (d :: rest) = true := by
            show (!isSpace d) = true
            rw [hd]
            rfl
          rw [if_pos hstarts, hrest]

theorem split_join {words : List (List α)} {space : α}
    (hspace : isSpace space = true)
    (h : forall word, word ∈ words -> IsWord isSpace word) :
    split isSpace (join space words) = words := by
  induction words with
  | nil => rfl
  | cons word words ih =>
      have hword := h word (List.mem_cons_self ..)
      cases words with
      | nil => exact split_word hword
      | cons next words =>
          rw [join, split_append_space hspace, split_word hword,
            ih fun other hother => h other (List.mem_cons_of_mem _ hother)]
          · rfl
          · exact List.cons_ne_nil _ _

/-- A text without words is white space. -/
theorem split_eq_nil_iff {text : List α} :
    split isSpace text = [] <-> text.all isSpace = true := by
  induction text with
  | nil => exact ⟨fun _ => rfl, fun _ => rfl⟩
  | cons c rest ih =>
      by_cases hc : isSpace c = true
      · rw [split_cons, if_pos hc, ih, List.all_cons, hc, Bool.true_and]
      · have hstarts : startsWord isSpace (c :: rest) = true := by
          unfold startsWord
          simpa using hc
        constructor
        · intro h
          exact absurd h (split_ne_nil hstarts)
        · intro h
          rw [List.all_cons, Bool.and_eq_true] at h
          exact absurd h.left hc

/-- The words up to a cut at a white space are the first words. -/
theorem split_take_space {text : List α} {i : Nat} {space : α}
    (hat : text[i]? = some space) (hspace : isSpace space = true) :
    split isSpace (text.take (i + 1)) <+: split isSpace text := by
  rcases List.getElem?_eq_some_iff.mp hat with ⟨hlt, hget⟩
  have htake : text.take (i + 1) = text.take i ++ [space] := by
    rw [List.take_succ_eq_append_getElem hlt, hget]
  have hwhole : text = text.take i ++ space :: text.drop (i + 1) := by
    rw [← hget, List.getElem_cons_drop hlt, List.take_append_drop]
  have hleft : split isSpace (text.take (i + 1)) =
      split isSpace (text.take i) := by
    rw [htake, split_append_space hspace]
    exact List.append_nil _
  rw [hleft]
  refine ⟨split isSpace (text.drop (i + 1)), ?_⟩
  rw [← split_append_space hspace, ← hwhole]

end Words
end Foundation
end Minni
