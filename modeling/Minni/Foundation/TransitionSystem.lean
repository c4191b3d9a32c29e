/-!
# Labelled transition systems

A component that takes one step after another is a set of initial states and a
labelled step relation.  This module has runs, reachability, the restriction of
a system to the steps that meet a guard, and the induction rule by which an
invariant of single steps becomes an invariant of every reachable state.
-/

namespace Minni
namespace Foundation

structure TransitionSystem (state label : Type) where
  initial : state -> Prop
  step : state -> label -> state -> Prop

namespace TransitionSystem

/-!
## Runs and reachability
-/

inductive Run (T : TransitionSystem state label) :
    state -> List label -> state -> Prop where
  | nil (s : state) : Run T s [] s
  | cons {s s' s'' : state} {l : label} {ls : List label} :
      T.step s l s' -> Run T s' ls s'' -> Run T s (l :: ls) s''

def Reachable (T : TransitionSystem state label) (s : state) : Prop :=
  exists s0 ls, T.initial s0 ∧ Run T s0 ls s

theorem run_snoc
    {T : TransitionSystem state label}
    {s s' s'' : state} {ls : List label} {l : label}
    (hrun : Run T s ls s') (hstep : T.step s' l s'') :
    Run T s (ls ++ [l]) s'' := by
  induction hrun with
  | nil s =>
      exact Run.cons hstep (Run.nil s'')
  | cons hfirst _ ih =>
      exact Run.cons hfirst (ih hstep)

theorem run_append
    {T : TransitionSystem state label}
    {s s' s'' : state} {ls rest : List label}
    (hrun : Run T s ls s') (hrest : Run T s' rest s'') :
    Run T s (ls ++ rest) s'' := by
  induction hrun with
  | nil s =>
      exact hrest
  | cons hfirst _ ih =>
      exact Run.cons hfirst (ih hrest)

theorem reachable_initial
    {T : TransitionSystem state label} {s : state} (h : T.initial s) :
    Reachable T s :=
  ⟨s, [], h, Run.nil s⟩

theorem reachable_step
    {T : TransitionSystem state label} {s s' : state} {l : label}
    (hreach : Reachable T s) (hstep : T.step s l s') :
    Reachable T s' := by
  rcases hreach with ⟨s0, ls, hinit, hrun⟩
  exact ⟨s0, ls ++ [l], hinit, run_snoc hrun hstep⟩

theorem reachable_run
    {T : TransitionSystem state label} {s s' : state} {ls : List label}
    (hreach : Reachable T s) (hrun : Run T s ls s') :
    Reachable T s' := by
  rcases hreach with ⟨s0, ls0, hinit, hrun0⟩
  exact ⟨s0, ls0 ++ ls, hinit, run_append hrun0 hrun⟩

/-!
## Invariants

A property of every initial state that each step preserves holds in every
reachable state.  The step hypothesis may use that the state before the step is
reachable, so that one invariant can rest on another.
-/

theorem run_preserves
    {T : TransitionSystem state label} {P : state -> Prop}
    (hpres : forall s l s', P s -> T.step s l s' -> P s')
    {s s' : state} {ls : List label}
    (hrun : Run T s ls s') (hs : P s) :
    P s' := by
  induction hrun with
  | nil s =>
      exact hs
  | cons hfirst _ ih =>
      exact ih (hpres _ _ _ hs hfirst)

theorem reachable_induction
    {T : TransitionSystem state label} {P : state -> Prop}
    (hinit : forall s, T.initial s -> P s)
    (hpres : forall s l s', Reachable T s -> P s -> T.step s l s' -> P s')
    {s : state} (hreach : Reachable T s) :
    P s := by
  rcases hreach with ⟨s0, ls, hs0, hrun⟩
  have hboth : Reachable T s ∧ P s := by
    apply run_preserves
      (P := fun x => Reachable T x ∧ P x) _ hrun
      ⟨reachable_initial hs0, hinit s0 hs0⟩
    intro x l x' hx hstep
    exact ⟨reachable_step hx.left hstep, hpres x l x' hx.left hx.right hstep⟩
  exact hboth.right

/-!
## Restriction to guarded steps
-/

def Restrict (T : TransitionSystem state label)
    (guard : state -> label -> Prop) : TransitionSystem state label where
  initial := T.initial
  step := fun s l s' => guard s l ∧ T.step s l s'

theorem run_of_restrict
    {T : TransitionSystem state label} {guard : state -> label -> Prop}
    {s s' : state} {ls : List label}
    (hrun : Run (T.Restrict guard) s ls s') :
    Run T s ls s' := by
  induction hrun with
  | nil s =>
      exact Run.nil s
  | cons hfirst _ ih =>
      exact Run.cons hfirst.right ih

theorem reachable_of_restrict
    {T : TransitionSystem state label} {guard : state -> label -> Prop}
    {s : state} (hreach : Reachable (T.Restrict guard) s) :
    Reachable T s := by
  rcases hreach with ⟨s0, ls, hinit, hrun⟩
  exact ⟨s0, ls, hinit, run_of_restrict hrun⟩

/-- Two guards admit the same runs when they agree in every state that the runs
of the first one keep to. -/
theorem run_restrict_iff
    {T : TransitionSystem state label} {guard guard' : state -> label -> Prop}
    {P : state -> Prop}
    (hpres : forall s l s', P s -> guard s l -> T.step s l s' -> P s')
    (hagree : forall s l s', P s -> T.step s l s' -> (guard s l <-> guard' s l))
    {s s' : state} {ls : List label} (hs : P s) :
    Run (T.Restrict guard) s ls s' <-> Run (T.Restrict guard') s ls s' := by
  constructor
  · intro hrun
    induction hrun with
    | nil s =>
        exact Run.nil s
    | cons hfirst _ ih =>
        have hother := (hagree _ _ _ hs hfirst.right).mp hfirst.left
        have hnext := hpres _ _ _ hs hfirst.left hfirst.right
        exact Run.cons ⟨hother, hfirst.right⟩ (ih hnext)
  · intro hrun
    induction hrun with
    | nil s =>
        exact Run.nil s
    | cons hfirst _ ih =>
        have hguard := (hagree _ _ _ hs hfirst.right).mpr hfirst.left
        have hnext := hpres _ _ _ hs hguard hfirst.right
        exact Run.cons ⟨hguard, hfirst.right⟩ (ih hnext)

/-!
## Systems given by a function

When the label determines the step, a run is the evaluation of its labels, and
a concrete run is checked by computing it.
-/

def OfNext (initial : state -> Prop) (next : state -> label -> Option state) :
    TransitionSystem state label where
  initial := initial
  step := fun s l s' => next s l = some s'

def exec (next : state -> label -> Option state) :
    state -> List label -> Option state
  | s, [] => some s
  | s, l :: ls =>
      match next s l with
      | none => none
      | some s' => exec next s' ls

/-- The run of the labels, as long as each step meets the guard. -/
def execWhere (next : state -> label -> Option state)
    (guard : state -> label -> Bool) : state -> List label -> Option state :=
  exec (fun s l => if guard s l then next s l else none)

theorem run_of_exec
    {initial : state -> Prop} {next : state -> label -> Option state}
    {s s' : state} {ls : List label}
    (h : exec next s ls = some s') :
    Run (OfNext initial next) s ls s' := by
  induction ls generalizing s with
  | nil =>
      cases h
      exact Run.nil _
  | cons l ls ih =>
      cases hnext : next s l with
      | none =>
          simp [exec, hnext] at h
      | some mid =>
          simp only [exec, hnext] at h
          exact Run.cons hnext (ih h)

theorem run_of_execWhere
    {initial : state -> Prop} {next : state -> label -> Option state}
    {guard : state -> label -> Bool} {P : state -> label -> Prop}
    (hguard : forall s l, guard s l = true -> P s l)
    {s s' : state} {ls : List label}
    (h : execWhere next guard s ls = some s') :
    Run ((OfNext initial next).Restrict P) s ls s' := by
  induction ls generalizing s with
  | nil =>
      cases h
      exact Run.nil _
  | cons l ls ih =>
      by_cases hg : guard s l = true
      · cases hnext : next s l with
        | none =>
            simp [execWhere, exec, hg, hnext] at h
        | some mid =>
            simp only [execWhere, exec, hg, hnext, if_true] at h
            exact Run.cons ⟨hguard s l hg, hnext⟩ (ih h)
      · simp [execWhere, exec, hg] at h

end TransitionSystem

end Foundation
end Minni
