/-!
# Programs over a store that may fail

A program either returns a value, throws an error, or performs one operation
on a store and continues with its reply.  An operation ends in one of three
ways: it is done, it fails without an effect, or it takes effect and still
reports a failure.  A run follows a list of such outcomes; where the list ends
before the program does, the process has crashed between two operations.

The rules at the end let a program be verified from its text.  Each operation
must meet a guarantee in the state it is performed in, where an assumption on
the same state may be used, and the result must meet a postcondition.
-/

namespace Minni
namespace Foundation

inductive Program (Op : Type) (Reply : Op -> Type) (Error α : Type) where
  | ret (result : Except Error α)
  | op (o : Op) (k : Except Error (Reply o) -> Program Op Reply Error α)

/-- What an operation answers and what it does to the store, and the error that
an operation which fails throws. -/
structure Interface (Op : Type) (Reply : Op -> Type) (Error State : Type) where
  answer : (o : Op) -> State -> Reply o
  effect : Op -> State -> State
  fault : Error

inductive Outcome where
  | done
  | failed
  | landed
deriving DecidableEq, Repr

namespace Program

variable {Op : Type} {Reply : Op -> Type} {Error State α β : Type}

def perform (o : Op) : Program Op Reply Error (Reply o) :=
  Program.op o Program.ret

def bind :
    Program Op Reply Error α -> (α -> Program Op Reply Error β) ->
      Program Op Reply Error β
  | ret (Except.ok a), f => f a
  | ret (Except.error e), _ => ret (Except.error e)
  | op o k, f => op o fun r => (k r).bind f

def tryCatch :
    Program Op Reply Error α -> (Error -> Program Op Reply Error α) ->
      Program Op Reply Error α
  | ret (Except.ok a), _ => ret (Except.ok a)
  | ret (Except.error e), handle => handle e
  | op o k, handle => op o fun r => (k r).tryCatch handle

instance : Monad (Program Op Reply Error) where
  pure a := ret (Except.ok a)
  bind := bind

def throw (e : Error) : Program Op Reply Error α :=
  ret (Except.error e)

def require (condition : Bool) (e : Error) : Program Op Reply Error Unit :=
  if condition then pure () else throw e

def ofOption (value : Option α) (e : Error) : Program Op Reply Error α :=
  match value with
  | some a => pure a
  | none => throw e

def forEach (items : List α) (body : α -> Program Op Reply Error Unit) :
    Program Op Reply Error Unit :=
  match items with
  | [] => pure ()
  | item :: rest => do
      body item
      forEach rest body

/-!
## Runs
-/

def reply (I : Interface Op Reply Error State) (o : Op) (x : Outcome)
    (s : State) : Except Error (Reply o) :=
  match x with
  | Outcome.done => Except.ok (I.answer o s)
  | Outcome.failed => Except.error I.fault
  | Outcome.landed => Except.error I.fault

def after (I : Interface Op Reply Error State) (o : Op) (x : Outcome)
    (s : State) : State :=
  match x with
  | Outcome.done => I.effect o s
  | Outcome.failed => s
  | Outcome.landed => I.effect o s

def run (I : Interface Op Reply Error State) :
    Program Op Reply Error α -> List Outcome -> State ->
      Option (Except Error α) × State
  | ret r, _, s => (some r, s)
  | op _ _, [], s => (none, s)
  | op o k, x :: xs, s => run I (k (reply I o x s)) xs (after I o x s)

/-- Every operation of the run meets the property in the state it is performed
in. -/
def Meets (I : Interface Op Reply Error State) (A : Op -> State -> Prop) :
    Program Op Reply Error α -> List Outcome -> State -> Prop
  | ret _, _, _ => True
  | op _ _, [], _ => True
  | op o k, x :: xs, s =>
      A o s ∧ Meets I A (k (reply I o x s)) xs (after I o x s)

instance decidableMeets (I : Interface Op Reply Error State)
    {A : Op -> State -> Prop} [forall o s, Decidable (A o s)] :
    (p : Program Op Reply Error α) -> (xs : List Outcome) -> (s : State) ->
      Decidable (Meets I A p xs s)
  | ret _, _, _ => isTrue True.intro
  | op _ _, [], _ => isTrue True.intro
  | op o k, x :: xs, s =>
      have := decidableMeets I (A := A) (k (reply I o x s)) xs (after I o x s)
      inferInstanceAs
        (Decidable (A o s ∧ Meets I A (k (reply I o x s)) xs (after I o x s)))

/-!
## Verification
-/

def Guarded (I : Interface Op Reply Error State) (A G : Op -> State -> Prop) :
    Program Op Reply Error α -> (Except Error α -> State -> Prop) -> State ->
      Prop
  | ret r, Q, s => Q r s
  | op o k, Q, s =>
      A o s -> G o s ∧
        forall x : Outcome, Guarded I A G (k (reply I o x s)) Q (after I o x s)

variable {I : Interface Op Reply Error State} {A G : Op -> State -> Prop}

theorem guarded_mono
    {p : Program Op Reply Error α} {Q R : Except Error α -> State -> Prop}
    {s : State}
    (h : Guarded I A G p Q s)
    (hQR : forall r s', Q r s' -> R r s') :
    Guarded I A G p R s := by
  induction p generalizing s with
  | ret r =>
      exact hQR r s h
  | op o k ih =>
      intro hA
      rcases h hA with ⟨hG, hk⟩
      exact ⟨hG, fun x => ih _ (hk x)⟩

theorem guarded_bind
    {p : Program Op Reply Error α} {f : α -> Program Op Reply Error β}
    {Q : Except Error β -> State -> Prop} {s : State}
    (h : Guarded I A G p
      (fun r s' =>
        match r with
        | Except.ok a => Guarded I A G (f a) Q s'
        | Except.error e => Q (Except.error e) s') s) :
    Guarded I A G (p >>= f) Q s := by
  change Guarded I A G (p.bind f) Q s
  induction p generalizing s with
  | ret r =>
      cases r with
      | ok a =>
          exact h
      | error e =>
          exact h
  | op o k ih =>
      intro hA
      rcases h hA with ⟨hG, hk⟩
      exact ⟨hG, fun x => ih _ (hk x)⟩

/-- The form in which the bind rule is used: a specification of the first
program, then the rest for a result that meets it. -/
theorem guarded_seq
    {p : Program Op Reply Error α} {f : α -> Program Op Reply Error β}
    {P : Except Error α -> State -> Prop}
    {Q : Except Error β -> State -> Prop} {s : State}
    (h : Guarded I A G p P s)
    (hok : forall a s', P (Except.ok a) s' -> Guarded I A G (f a) Q s')
    (herror : forall e s', P (Except.error e) s' -> Q (Except.error e) s') :
    Guarded I A G (p >>= f) Q s := by
  apply guarded_bind
  refine guarded_mono h ?_
  intro r s' hP
  cases r with
  | ok a =>
      exact hok a s' hP
  | error e =>
      exact herror e s' hP

theorem guarded_tryCatch
    {p : Program Op Reply Error α}
    {handle : Error -> Program Op Reply Error α}
    {P Q : Except Error α -> State -> Prop} {s : State}
    (h : Guarded I A G p P s)
    (hok : forall a s', P (Except.ok a) s' -> Q (Except.ok a) s')
    (herror : forall e s', P (Except.error e) s' ->
      Guarded I A G (handle e) Q s') :
    Guarded I A G (p.tryCatch handle) Q s := by
  induction p generalizing s with
  | ret r =>
      cases r with
      | ok a =>
          exact hok a s h
      | error e =>
          exact herror e s h
  | op o k ih =>
      intro hA
      rcases h hA with ⟨hG, hk⟩
      exact ⟨hG, fun x => ih _ (hk x)⟩

theorem guarded_pure
    {a : α} {Q : Except Error α -> State -> Prop} {s : State}
    (h : Q (Except.ok a) s) :
    Guarded I A G (pure a : Program Op Reply Error α) Q s :=
  h

theorem guarded_require
    {condition : Bool} {e : Error} {Q : Except Error Unit -> State -> Prop}
    {s : State}
    (hok : condition = true -> Q (Except.ok ()) s)
    (herror : condition = false -> Q (Except.error e) s) :
    Guarded I A G (require condition e) Q s := by
  unfold require
  cases hcondition : condition with
  | true =>
      exact hok hcondition
  | false =>
      exact herror hcondition

theorem guarded_ofOption
    {value : Option α} {e : Error} {Q : Except Error α -> State -> Prop}
    {s : State}
    (hsome : forall a, value = some a -> Q (Except.ok a) s)
    (hnone : value = none -> Q (Except.error e) s) :
    Guarded I A G (ofOption value e) Q s := by
  unfold ofOption
  cases hvalue : value with
  | none =>
      exact hnone hvalue
  | some a =>
      exact hsome a hvalue

/-- A loop whose body keeps a property of the state, whether the body returns
or throws. -/
theorem guarded_forEach
    {items : List α} {body : α -> Program Op Reply Error Unit}
    {P : State -> Prop}
    (hbody : forall item s', item ∈ items -> P s' ->
      Guarded I A G (body item) (fun _ s'' => P s'') s')
    {s : State} (h : P s) :
    Guarded I A G (forEach items body) (fun _ s' => P s') s := by
  induction items generalizing s with
  | nil =>
      exact h
  | cons item rest ih =>
      refine guarded_seq (hbody item s (List.mem_cons_self ..) h) ?_ ?_
      · intro _ s' hs'
        exact ih
          (fun next s'' hmem => hbody next s'' (List.mem_cons_of_mem _ hmem))
          hs'
      · intro _ s' hs'
        exact hs'

/-- Two specifications of one program hold together. -/
theorem guarded_and
    {H : Op -> State -> Prop} {p : Program Op Reply Error α}
    {Q R : Except Error α -> State -> Prop} {s : State}
    (h : Guarded I A G p Q s) (h' : Guarded I A H p R s) :
    Guarded I A (fun o s => G o s ∧ H o s) p (fun r s => Q r s ∧ R r s) s := by
  induction p generalizing s with
  | ret r =>
      exact ⟨h, h'⟩
  | op o k ih =>
      intro hA
      rcases h hA with ⟨hG, hk⟩
      rcases h' hA with ⟨hH, hk'⟩
      exact ⟨⟨hG, hH⟩, fun x => ih _ (hk x) (hk' x)⟩

theorem guarded_guarantee
    {H : Op -> State -> Prop} {p : Program Op Reply Error α}
    {Q : Except Error α -> State -> Prop} {s : State}
    (hGH : forall o s', G o s' -> H o s')
    (h : Guarded I A G p Q s) : Guarded I A H p Q s := by
  induction p generalizing s with
  | ret r =>
      exact h
  | op o k ih =>
      intro hA
      rcases h hA with ⟨hG, hk⟩
      exact ⟨hGH o s hG, fun x => ih _ (hk x)⟩

/-- A specification holds under any stronger assumption. -/
theorem guarded_assume
    {B : Op -> State -> Prop} {p : Program Op Reply Error α}
    {Q : Except Error α -> State -> Prop} {s : State}
    (hBA : forall o s', B o s' -> A o s')
    (h : Guarded I A G p Q s) : Guarded I B G p Q s := by
  induction p generalizing s with
  | ret r =>
      exact h
  | op o k ih =>
      intro hB
      rcases h (hBA o s hB) with ⟨hG, hk⟩
      exact ⟨hG, fun x => ih _ (hk x)⟩

/-!
## Soundness
-/

theorem guarded_meets
    {p : Program Op Reply Error α} {Q : Except Error α -> State -> Prop}
    {xs : List Outcome} {s : State}
    (h : Guarded I A G p Q s)
    (hmeets : Meets I A p xs s) :
    Meets I G p xs s := by
  induction p generalizing xs s with
  | ret r =>
      exact True.intro
  | op o k ih =>
      cases xs with
      | nil =>
          exact True.intro
      | cons x xs =>
          rcases hmeets with ⟨hA, hrest⟩
          rcases h hA with ⟨hG, hk⟩
          exact ⟨hG, ih _ (hk x) hrest⟩

theorem guarded_result
    {p : Program Op Reply Error α} {Q : Except Error α -> State -> Prop}
    {xs : List Outcome} {s : State} {r : Except Error α}
    (h : Guarded I A G p Q s)
    (hmeets : Meets I A p xs s)
    (hresult : (run I p xs s).1 = some r) :
    Q r (run I p xs s).2 := by
  induction p generalizing xs s with
  | ret r' =>
      cases hresult
      exact h
  | op o k ih =>
      cases xs with
      | nil =>
          cases hresult
      | cons x xs =>
          rcases hmeets with ⟨hA, hrest⟩
          rcases h hA with ⟨_, hk⟩
          exact ih _ (hk x) hrest hresult

/-- What each guaranteed operation preserves holds wherever a run ends, also
where it ends in a crash. -/
theorem run_preserves
    {p : Program Op Reply Error α} {Inv : State -> Prop}
    {xs : List Outcome} {s : State}
    (hstep : forall o x s', Inv s' -> A o s' -> G o s' -> Inv (after I o x s'))
    (hA : Meets I A p xs s)
    (hG : Meets I G p xs s)
    (hinv : Inv s) :
    Inv (run I p xs s).2 := by
  induction p generalizing xs s with
  | ret r =>
      exact hinv
  | op o k ih =>
      cases xs with
      | nil =>
          exact hinv
      | cons x xs =>
          rcases hA with ⟨hAo, hA⟩
          rcases hG with ⟨hGo, hG⟩
          exact ih _ hA hG (hstep o x s hinv hAo hGo)

theorem meets_true
    (p : Program Op Reply Error α) (xs : List Outcome) (s : State) :
    Meets I (fun _ _ => True) p xs s := by
  induction p generalizing xs s with
  | ret r =>
      exact True.intro
  | op o k ih =>
      cases xs with
      | nil =>
          exact True.intro
      | cons x xs =>
          exact ⟨True.intro, ih _ xs _⟩

theorem meets_mono
    {B : Op -> State -> Prop} {p : Program Op Reply Error α}
    {xs : List Outcome} {s : State}
    (hAB : forall o s', A o s' -> B o s')
    (h : Meets I A p xs s) :
    Meets I B p xs s := by
  induction p generalizing xs s with
  | ret r =>
      exact True.intro
  | op o k ih =>
      cases xs with
      | nil =>
          exact True.intro
      | cons x xs =>
          exact ⟨hAB o s h.1, ih _ h.2⟩

end Program

end Foundation
end Minni

