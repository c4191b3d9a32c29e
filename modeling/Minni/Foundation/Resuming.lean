import Mathlib.Order.Lattice
import Mathlib.Data.List.Infix

/-!
# Passes that are cut off and resumed

A collection is gone through in the order of its elements, over several visits.
A visit that is cut off leaves a cursor, and the next one goes on after it, or
begins again.  Between the visits elements come and go; one that is there all
the time is seen before the pass is complete.
-/

namespace Minni
namespace Foundation
namespace Resuming

variable {α : Type} [LinearOrder α]

/-- The element comes after the cursor. -/
def Beyond (cursor : Option α) (x : α) : Prop :=
  forall c, cursor = some c -> c < x

structure Visit (α : Type) where
  start : Option α
  listed : α -> Prop
  seen : List α
  /-- The cursor of a visit that is cut off; a complete visit leaves none. -/
  stop : Option (Option α)

/-- A visit sees all that is listed after its start and not after its end. -/
def Visit.Sound (v : Visit α) : Prop :=
  forall x, v.listed x -> Beyond v.start x ->
    (forall c, v.stop = some c -> ¬ Beyond c x) -> x ∈ v.seen

/-- Each visit begins at what is stored, or at the front, and stores where it
was cut off, or nothing. -/
inductive Chain : Option α -> List (Visit α) -> Prop where
  | nil (stored : Option α) : Chain stored []
  | cons {stored next : Option α} {v : Visit α} {vs : List (Visit α)}
      (hstart : v.start = none ∨ v.start = stored)
      (hnext : forall c, v.stop = some c -> next = stored ∨ next = c)
      (hrest : Chain next vs) : Chain stored (v :: vs)

theorem beyond_none (x : α) : Beyond none x := by
  intro c hc
  cases hc

/-- What is listed in every visit is seen by the end of the first one that is
complete. -/
theorem seen_of_chain {stored : Option α} {vs : List (Visit α)}
    (hchain : Chain stored vs) (hsound : forall v, v ∈ vs -> v.Sound)
    (hcomplete : exists v, v ∈ vs ∧ v.stop = none) {x : α}
    (hbeyond : Beyond stored x) (hlisted : forall v, v ∈ vs -> v.listed x) :
    exists v, v ∈ vs ∧ x ∈ v.seen := by
  induction hchain with
  | nil stored =>
      rcases hcomplete with ⟨v, hv, _⟩
      cases hv
  | @cons stored next v vs hstart hnext hrest ih =>
      have hbegins : Beyond v.start x := by
        rcases hstart with hnone | hsame
        · rw [hnone]
          exact beyond_none x
        · rw [hsame]
          exact hbeyond
      have hv := hlisted v List.mem_cons_self
      have hcovers := hsound v List.mem_cons_self x hv hbegins
      cases hstop : v.stop with
      | none =>
          have hseen := hcovers (by
            intro c hc
            rw [hstop] at hc
            cases hc)
          exact ⟨v, List.mem_cons_self, hseen⟩
      | some c =>
          by_cases hafter : Beyond c x
          · have hstored : Beyond next x := by
              rcases hnext c hstop with hsame | hmoved
              · rw [hsame]
                exact hbeyond
              · rw [hmoved]
                exact hafter
            have hlater : exists v, v ∈ vs ∧ v.stop = none := by
              rcases hcomplete with ⟨w, hw, hdone⟩
              rcases List.mem_cons.mp hw with rfl | hin
              · rw [hstop] at hdone
                cases hdone
              · exact ⟨w, hin, hdone⟩
            rcases ih (fun w hw => hsound w (List.mem_cons_of_mem v hw)) hlater
              hstored (fun w hw => hlisted w (List.mem_cons_of_mem v hw)) with
              ⟨w, hw, hseen⟩
            exact ⟨w, List.mem_cons_of_mem v hw, hseen⟩
          · have hseen := hcovers (by
              intro d hd
              rw [hstop] at hd
              cases hd
              exact hafter)
            exact ⟨v, List.mem_cons_self, hseen⟩

end Resuming
end Foundation
end Minni
