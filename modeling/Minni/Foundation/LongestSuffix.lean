import Mathlib.Data.List.Infix

/-!
# The longest known suffix

A set of known words that holds, with a word, every prefix of it.  What has
been read of a text is summed up by its longest suffix that is known: the next
symbol only ever extends a known word.
-/

namespace Minni
namespace Foundation

variable {α : Type}

/-- A set of words that is closed under prefixes. -/
structure PrefixClosed (known : List α -> Prop) : Prop where
  nil : known []
  init : forall {w : List α} {a : α}, known (w ++ [a]) -> known w

structure LongestSuffix (known : List α -> Prop) (text word : List α) :
    Prop where
  isSuffix : word <:+ text
  isKnown : known word
  longest : forall other, other <:+ text -> known other -> other <:+ word

namespace LongestSuffix

variable {known : List α -> Prop} {text word other : List α}

theorem self (hknown : known word) : LongestSuffix known word word :=
  { isSuffix := List.suffix_refl word
    isKnown := hknown
    longest := fun _ hsuffix _ => hsuffix }

theorem of_nil (hclosed : PrefixClosed known) :
    LongestSuffix known ([] : List α) [] :=
  self hclosed.nil

theorem suffix_snoc_cases {a : α} (h : other <:+ text ++ [a]) :
    other = [] ∨ exists init, other = init ++ [a] ∧ init <:+ text := by
  rcases List.eq_nil_or_concat other with hnil | ⟨init, b, hinit⟩
  · exact Or.inl hnil
  · apply Or.inr
    rw [List.concat_eq_append] at hinit
    rw [hinit] at h
    rcases h with ⟨before, hbefore⟩
    rw [← List.append_assoc] at hbefore
    rcases List.append_inj' hbefore rfl with ⟨htext, hb⟩
    injection hb with hb
    exact ⟨init, by rw [hinit, hb], ⟨before, htext⟩⟩

/-- What is read next extends the known suffix, or a suffix of it. -/
theorem snoc (hclosed : PrefixClosed known) {a : α} {next : List α}
    (h : LongestSuffix known text word)
    (hnext : LongestSuffix known (word ++ [a]) next) :
    LongestSuffix known (text ++ [a]) next := by
  constructor
  · rcases h.isSuffix with ⟨before, hbefore⟩
    refine List.IsSuffix.trans hnext.isSuffix ⟨before, ?_⟩
    rw [← hbefore, List.append_assoc]
  · exact hnext.isKnown
  · intro other hsuffix hknown
    rcases suffix_snoc_cases hsuffix with hnil | ⟨init, hinit, hshorter⟩
    · rw [hnil]
      exact List.nil_suffix
    · apply hnext.longest other _ hknown
      have hinitKnown : known init := by
        apply hclosed.init (a := a)
        rw [← hinit]
        exact hknown
      rcases h.longest init hshorter hinitKnown with ⟨before, hbefore⟩
      rw [hinit, ← hbefore]
      exact ⟨before, by rw [List.append_assoc]⟩

/-- A symbol that ends no known word leaves nothing known. -/
theorem snoc_unknown {a : α} (hclosed : PrefixClosed known)
    (hunknown : forall init, ¬ known (init ++ [a])) :
    LongestSuffix known (text ++ [a]) [] := by
  constructor
  · exact List.nil_suffix
  · exact hclosed.nil
  · intro other hsuffix hknown
    rcases suffix_snoc_cases hsuffix with hnil | ⟨init, hinit, _⟩
    · rw [hnil]
    · rw [hinit] at hknown
      exact absurd hknown (hunknown init)

/-- A first symbol matters to a whole word only. -/
theorem cons_of_unknown {a : α} (h : LongestSuffix known text word)
    (hunknown : ¬ known (a :: text)) :
    LongestSuffix known (a :: text) word := by
  constructor
  · exact List.IsSuffix.trans h.isSuffix (List.suffix_cons a text)
  · exact h.isKnown
  · intro other hsuffix hknown
    rcases List.suffix_cons_iff.mp hsuffix with hwhole | hshorter
    · rw [hwhole] at hknown
      exact absurd hknown hunknown
    · exact h.longest other hshorter hknown

end LongestSuffix

end Foundation
end Minni
