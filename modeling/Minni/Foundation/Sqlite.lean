/-!
# One connection of a transactional store

A thread has one connection.  A write opens a transaction unless one is open.
A `cursor` block commits when it ends and rolls back when it raises; a
`transaction` block begins explicitly first, which raises where a transaction
is open already.  Both act on the connection, not on the block: a commit or a
rollback in a nested block ends the transaction of the block around it.

The rules at the end let a program be verified from its text.
-/

namespace Minni
namespace Foundation

structure Connection (σ : Type) where
  committed : σ
  /-- What the connection itself reads. -/
  working : σ
  inTransaction : Bool

namespace Connection

variable {σ : Type}

def idle (s : σ) : Connection σ :=
  { committed := s, working := s, inTransaction := false }

def afterCommit (c : Connection σ) : Connection σ :=
  idle c.working

def afterRollback (c : Connection σ) : Connection σ :=
  idle c.committed

end Connection

/-- A program on a connection, which returns a value or raises. -/
def Db (σ ε α : Type) :=
  Connection σ -> Except ε α × Connection σ

namespace Db

variable {σ ε α β : Type}

instance : Monad (Db σ ε) where
  pure a := fun c => (Except.ok a, c)
  bind p f := fun c =>
    match p c with
    | (Except.ok a, c') => f a c'
    | (Except.error e, c') => (Except.error e, c')

def raise (e : ε) : Db σ ε α :=
  fun c => (Except.error e, c)

/-- A nested step that raises or does nothing here. -/
def mayRaise : Option ε -> Db σ ε Unit
  | none => pure ()
  | some e => raise e

def whenever (condition : Bool) (p : Db σ ε Unit) : Db σ ε Unit :=
  if condition then p else pure ()

def tryExcept (p : Db σ ε α) (handle : ε -> Db σ ε α) : Db σ ε α :=
  fun c =>
    match p c with
    | (Except.ok a, c') => (Except.ok a, c')
    | (Except.error e, c') => handle e c'

def select (f : σ -> α) : Db σ ε α :=
  fun c => (Except.ok (f c.working), c)

def execute (f : σ -> σ) : Db σ ε Unit :=
  fun c =>
    (Except.ok (), { c with working := f c.working, inTransaction := true })

/-- A write that returns the key of its row. -/
def insert (f : σ -> α × σ) : Db σ ε α :=
  fun c =>
    (Except.ok (f c.working).1,
      { c with working := (f c.working).2, inTransaction := true })

def begin_ (nested : ε) : Db σ ε Unit :=
  fun c =>
    if c.inTransaction then (Except.error nested, c)
    else (Except.ok (), { c with inTransaction := true })

def cursor (body : Db σ ε α) : Db σ ε α :=
  fun c =>
    match body c with
    | (Except.ok a, c') => (Except.ok a, c'.afterCommit)
    | (Except.error e, c') => (Except.error e, c'.afterRollback)

def transaction (nested : ε) (body : Db σ ε α) : Db σ ε α :=
  cursor (begin_ nested >>= fun _ => body)

def forEach (items : List α) (body : α -> Db σ ε Unit) : Db σ ε Unit :=
  match items with
  | [] => pure ()
  | item :: rest => do
      body item
      forEach rest body

/-!
## Verification
-/

def Meets (p : Db σ ε α) (Q : Except ε α -> Connection σ -> Prop)
    (c : Connection σ) : Prop :=
  Q (p c).1 (p c).2

section Rules

variable {p : Db σ ε α} {Q R : Except ε α -> Connection σ -> Prop}
  {c : Connection σ}

theorem meets_mono
    (h : Meets p Q c) (himp : forall r c', Q r c' -> R r c') :
    Meets p R c :=
  himp _ _ h

theorem meets_bind
    {f : α -> Db σ ε β} {Q : Except ε β -> Connection σ -> Prop}
    {P : Except ε α -> Connection σ -> Prop}
    (h : Meets p P c)
    (hok : forall a c', P (Except.ok a) c' -> Meets (f a) Q c')
    (herror : forall e c', P (Except.error e) c' -> Q (Except.error e) c') :
    Meets (p >>= f) Q c := by
  have hp : P (p c).1 (p c).2 := h
  show Q (match p c with
    | (Except.ok a, c') => f a c'
    | (Except.error e, c') => (Except.error e, c')).1
    (match p c with
    | (Except.ok a, c') => f a c'
    | (Except.error e, c') => (Except.error e, c')).2
  generalize p c = outcome at hp ⊢
  rcases outcome with ⟨r, c'⟩
  cases r with
  | ok a => exact hok a c' hp
  | error e => exact herror e c' hp

theorem meets_tryExcept
    {handle : ε -> Db σ ε α} {P : Except ε α -> Connection σ -> Prop}
    (h : Meets p P c)
    (hok : forall a c', P (Except.ok a) c' -> Q (Except.ok a) c')
    (herror : forall e c', P (Except.error e) c' -> Meets (handle e) Q c') :
    Meets (tryExcept p handle) Q c := by
  have hp : P (p c).1 (p c).2 := h
  show Q (match p c with
    | (Except.ok a, c') => (Except.ok a, c')
    | (Except.error e, c') => handle e c').1
    (match p c with
    | (Except.ok a, c') => (Except.ok a, c')
    | (Except.error e, c') => handle e c').2
  generalize p c = outcome at hp ⊢
  rcases outcome with ⟨r, c'⟩
  cases r with
  | ok a => exact hok a c' hp
  | error e => exact herror e c' hp

theorem meets_mayRaise
    {failure : Option ε} {Q : Except ε Unit -> Connection σ -> Prop}
    (hok : Q (Except.ok ()) c)
    (herror : forall e, Q (Except.error e) c) :
    Meets (mayRaise failure) Q c := by
  cases failure with
  | none => exact hok
  | some e => exact herror e

theorem meets_select {f : σ -> α} (h : Q (Except.ok (f c.working)) c) :
    Meets (select f) Q c :=
  h

theorem meets_cursor
    {P : Except ε α -> Connection σ -> Prop}
    (h : Meets p P c)
    (hok : forall a c', P (Except.ok a) c' -> Q (Except.ok a) c'.afterCommit)
    (herror : forall e c', P (Except.error e) c' ->
      Q (Except.error e) c'.afterRollback) :
    Meets (cursor p) Q c := by
  have hp : P (p c).1 (p c).2 := h
  show Q (match p c with
    | (Except.ok a, c') => (Except.ok a, c'.afterCommit)
    | (Except.error e, c') => (Except.error e, c'.afterRollback)).1
    (match p c with
    | (Except.ok a, c') => (Except.ok a, c'.afterCommit)
    | (Except.error e, c') => (Except.error e, c'.afterRollback)).2
  generalize p c = outcome at hp ⊢
  rcases outcome with ⟨r, c'⟩
  cases r with
  | ok a => exact hok a c' hp
  | error e => exact herror e c' hp

/-- A transaction on a connection that has none open. -/
theorem meets_transaction
    {nested : ε} {P : Except ε α -> Connection σ -> Prop} {s : σ}
    (h : Meets p P { committed := s, working := s, inTransaction := true })
    (hok : forall a c', P (Except.ok a) c' -> Q (Except.ok a) c'.afterCommit)
    (herror : forall e c', P (Except.error e) c' ->
      Q (Except.error e) c'.afterRollback) :
    Meets (transaction nested p) Q (Connection.idle s) :=
  meets_cursor (P := P) h hok herror

theorem meets_forEach
    {Q : Except ε Unit -> Connection σ -> Prop} {items : List α}
    {body : α -> Db σ ε Unit} {I : Connection σ -> Prop}
    (hbody : forall item, item ∈ items -> forall c', I c' ->
      Meets (body item)
        (fun r c'' => match r with
          | Except.ok _ => I c''
          | Except.error e => Q (Except.error e) c'') c')
    (hdone : forall c', I c' -> Q (Except.ok ()) c')
    (h : I c) :
    Meets (forEach items body) Q c := by
  induction items generalizing c with
  | nil =>
      exact hdone c h
  | cons item rest ih =>
      apply meets_bind (hbody item (List.mem_cons_self ..) c h)
      · intro _ c' hc'
        apply ih _ hc'
        intro other hother
        exact hbody other (List.mem_cons_of_mem _ hother)
      · intro e c' he
        exact he

end Rules

/-!
## Blocks and calls

Within one block that opens no other, what is committed stays, and only the
result of a body that returns is of interest: one that raises is rolled back.
-/

def Writes (p : Db σ ε α) (Q : α -> σ -> Prop) (s w : σ) : Prop :=
  forall t, Meets p
    (fun r c => c.committed = s ∧ forall a, r = Except.ok a -> Q a c.working)
    { committed := s, working := w, inTransaction := t }

/-- A call that finds the connection idle, and leaves it so. -/
def Returns (p : Db σ ε α) (Q : Except ε α -> σ -> Prop) (s : σ) : Prop :=
  Meets p (fun r c => exists s', c = Connection.idle s' ∧ Q r s')
    (Connection.idle s)

section Bodies

variable {p : Db σ ε α} {Q R : α -> σ -> Prop} {s w : σ}

theorem writes_mono
    (h : Writes p Q s w) (himp : forall a w', Q a w' -> R a w') :
    Writes p R s w := by
  intro t
  apply meets_mono (h t)
  intro r c hc
  exact ⟨hc.left, fun a ha => himp a _ (hc.right a ha)⟩

theorem writes_pure {a : α} (h : Q a w) :
    Writes (pure a : Db σ ε α) Q s w := by
  intro t
  refine ⟨rfl, ?_⟩
  intro b hb
  cases hb
  exact h

theorem writes_raise {e : ε} : Writes (raise e : Db σ ε α) Q s w := by
  intro t
  refine ⟨rfl, ?_⟩
  intro b hb
  cases hb

theorem writes_bind
    {f : α -> Db σ ε β} {Q : β -> σ -> Prop}
    (h : Writes p (fun a w' => Writes (f a) Q s w') s w) :
    Writes (p >>= f) Q s w := by
  intro t
  apply meets_bind (h t)
  · intro a c hc
    rcases hc with ⟨hcommitted, hnext⟩
    rcases c with ⟨committed, working, inTransaction⟩
    cases hcommitted
    exact hnext a rfl inTransaction
  · intro e c hc
    refine ⟨hc.left, ?_⟩
    intro b hb
    cases hb

theorem writes_tryExcept
    {handle : ε -> Db σ ε α} (h : Writes p Q s w)
    (hhandle : forall e w', Writes (handle e) Q s w') :
    Writes (tryExcept p handle) Q s w := by
  intro t
  apply meets_tryExcept (h t)
  · intro a c hc
    exact hc
  · intro e c hc
    rcases c with ⟨committed, working, inTransaction⟩
    have hcommitted : committed = s := hc.left
    cases hcommitted
    exact hhandle e working inTransaction

theorem writes_mayRaise
    {failure : Option ε} {Q : Unit -> σ -> Prop}
    (h : Q () w) :
    Writes (mayRaise failure) Q s w := by
  cases failure with
  | none => exact writes_pure h
  | some e => exact writes_raise

theorem writes_whenever
    {condition : Bool} {p : Db σ ε Unit} {Q : Unit -> σ -> Prop}
    (h : condition = true -> Writes p Q s w)
    (hskip : condition = false -> Q () w) :
    Writes (whenever condition p) Q s w := by
  cases condition with
  | false => exact writes_pure (hskip rfl)
  | true => exact h rfl

theorem writes_select {f : σ -> α} (h : Q (f w) w) :
    Writes (select f : Db σ ε α) Q s w := by
  intro t
  refine ⟨rfl, ?_⟩
  intro b hb
  cases hb
  exact h

theorem writes_execute
    {f : σ -> σ} {Q : Unit -> σ -> Prop} (h : Q () (f w)) :
    Writes (execute f : Db σ ε Unit) Q s w := by
  intro t
  refine ⟨rfl, ?_⟩
  intro b hb
  cases hb
  exact h

theorem writes_insert {f : σ -> α × σ} (h : Q (f w).1 (f w).2) :
    Writes (insert f : Db σ ε α) Q s w := by
  intro t
  refine ⟨rfl, ?_⟩
  intro b hb
  cases hb
  exact h

theorem writes_forEach
    {items : List α} {body : α -> Db σ ε Unit} {I : σ -> Prop}
    (hbody : forall item, item ∈ items -> forall w', I w' ->
      Writes (body item) (fun _ w'' => I w'') s w')
    (h : I w) :
    Writes (forEach items body) (fun _ w' => I w') s w := by
  induction items generalizing w with
  | nil =>
      exact writes_pure h
  | cons item rest ih =>
      apply writes_bind
      apply writes_mono (hbody item (List.mem_cons_self ..) w h)
      intro _ w' hw'
      apply ih _ hw'
      intro other hother
      exact hbody other (List.mem_cons_of_mem _ hother)

/-- A loop of checks writes nothing, and each check has been passed. -/
theorem writes_forEach_checked
    {items : List α} {body : α -> Db σ ε Unit} {P : α -> Prop}
    (hbody : forall item, item ∈ items ->
      Writes (body item) (fun _ w' => w' = w ∧ P item) s w) :
    Writes (forEach items body)
      (fun _ w' => w' = w ∧ forall item, item ∈ items -> P item) s w := by
  induction items with
  | nil =>
      apply writes_pure
      constructor
      · rfl
      · intro item hitem
        cases hitem
  | cons item rest ih =>
      apply writes_bind
      apply writes_mono (hbody item (List.mem_cons_self ..))
      intro _ w' hw'
      rw [hw'.left]
      apply writes_mono (ih _)
      · intro _ w'' hw''
        constructor
        · exact hw''.left
        · intro other hother
          cases hother with
          | head => exact hw'.right
          | tail _ hother => exact hw''.right other hother
      · intro other hother
        exact hbody other (List.mem_cons_of_mem _ hother)

end Bodies

/-- A body that does not raise. -/
def Succeeds (p : Db σ ε α) (Q : α -> σ -> Prop) (s w : σ) : Prop :=
  forall t, Meets p
    (fun r c => c.committed = s ∧ exists a, r = Except.ok a ∧ Q a c.working)
    { committed := s, working := w, inTransaction := t }

section Successes

variable {p : Db σ ε α} {Q R : α -> σ -> Prop} {s w : σ}

theorem succeeds_mono
    (h : Succeeds p Q s w) (himp : forall a w', Q a w' -> R a w') :
    Succeeds p R s w := by
  intro t
  apply meets_mono (h t)
  intro r c hc
  rcases hc with ⟨hcommitted, a, ha, hQ⟩
  exact ⟨hcommitted, a, ha, himp a _ hQ⟩

theorem succeeds_pure {a : α} (h : Q a w) :
    Succeeds (pure a : Db σ ε α) Q s w :=
  fun _ => ⟨rfl, a, rfl, h⟩

theorem succeeds_bind
    {f : α -> Db σ ε β} {Q : β -> σ -> Prop}
    (h : Succeeds p (fun a w' => Succeeds (f a) Q s w') s w) :
    Succeeds (p >>= f) Q s w := by
  intro t
  apply meets_bind (h t)
  · intro a c hc
    rcases hc with ⟨hcommitted, b, hb, hnext⟩
    rcases c with ⟨committed, working, inTransaction⟩
    cases hcommitted
    cases hb
    exact hnext inTransaction
  · intro e c hc
    rcases hc with ⟨_, b, hb, _⟩
    cases hb

theorem succeeds_mayRaise
    {failure : Option ε} {Q : Unit -> σ -> Prop}
    (hnone : failure = none) (h : Q () w) :
    Succeeds (mayRaise failure) Q s w := by
  rw [hnone]
  exact succeeds_pure h

theorem succeeds_whenever
    {condition : Bool} {p : Db σ ε Unit} {Q : Unit -> σ -> Prop}
    (h : condition = true -> Succeeds p Q s w)
    (hskip : condition = false -> Q () w) :
    Succeeds (whenever condition p) Q s w := by
  cases condition with
  | false => exact succeeds_pure (hskip rfl)
  | true => exact h rfl

theorem succeeds_select {f : σ -> α} (h : Q (f w) w) :
    Succeeds (select f : Db σ ε α) Q s w :=
  fun _ => ⟨rfl, _, rfl, h⟩

theorem succeeds_execute
    {f : σ -> σ} {Q : Unit -> σ -> Prop} (h : Q () (f w)) :
    Succeeds (execute f : Db σ ε Unit) Q s w :=
  fun _ => ⟨rfl, _, rfl, h⟩

theorem succeeds_insert {f : σ -> α × σ} (h : Q (f w).1 (f w).2) :
    Succeeds (insert f : Db σ ε α) Q s w :=
  fun _ => ⟨rfl, _, rfl, h⟩

theorem succeeds_forEach
    {items : List α} {body : α -> Db σ ε Unit} {I : σ -> Prop}
    (hbody : forall item, item ∈ items -> forall w', I w' ->
      Succeeds (body item) (fun _ w'' => I w'') s w')
    (h : I w) :
    Succeeds (forEach items body) (fun _ w' => I w') s w := by
  induction items generalizing w with
  | nil =>
      exact succeeds_pure h
  | cons item rest ih =>
      apply succeeds_bind
      apply succeeds_mono (hbody item (List.mem_cons_self ..) w h)
      intro _ w' hw'
      apply ih _ hw'
      intro other hother
      exact hbody other (List.mem_cons_of_mem _ hother)

theorem returns_committed
    {nested : ε} {Q : Except ε α -> σ -> Prop}
    (h : Succeeds p (fun a s' => Q (Except.ok a) s') s s) :
    Returns (transaction nested p) Q s := by
  apply meets_transaction (h true)
  · intro a c hc
    rcases hc with ⟨_, b, hb, hQ⟩
    cases hb
    exact ⟨c.working, rfl, hQ⟩
  · intro e c hc
    rcases hc with ⟨_, b, hb, _⟩
    cases hb

end Successes

section Calls

variable {p : Db σ ε α} {Q R : Except ε α -> σ -> Prop} {s : σ}

theorem returns_mono
    (h : Returns p Q s) (himp : forall r s', Q r s' -> R r s') :
    Returns p R s := by
  apply meets_mono h
  intro r c hc
  rcases hc with ⟨s', hidle, hQ⟩
  exact ⟨s', hidle, himp r s' hQ⟩

theorem returns_both (h : Returns p Q s) (h' : Returns p R s) :
    Returns p (fun r s' => Q r s' ∧ R r s') s := by
  rcases h with ⟨s', hidle, hQ⟩
  rcases h' with ⟨s'', hidle', hR⟩
  have heq : s'' = s' :=
    congrArg Connection.committed (hidle'.symm.trans hidle)
  rw [heq] at hR
  exact ⟨s', hidle, hQ, hR⟩

theorem Returns.self (h : Returns p Q s) :
    Returns p (fun r s' => Q r s' ∧ r = (p (Connection.idle s)).1) s := by
  rcases h with ⟨s', hidle, hQ⟩
  exact ⟨s', hidle, hQ, rfl⟩

theorem Returns.result (h : Returns p Q s) :
    Q (p (Connection.idle s)).1 (p (Connection.idle s)).2.committed := by
  rcases h with ⟨s', hidle, hQ⟩
  rw [hidle]
  exact hQ

theorem returns_pure {a : α} (h : Q (Except.ok a) s) :
    Returns (pure a : Db σ ε α) Q s :=
  ⟨s, rfl, h⟩

theorem returns_raise {e : ε} (h : Q (Except.error e) s) :
    Returns (raise e : Db σ ε α) Q s :=
  ⟨s, rfl, h⟩

theorem returns_mayRaise
    {failure : Option ε} {Q : Except ε Unit -> σ -> Prop}
    (h : Q (Except.ok ()) s) (herror : forall e, Q (Except.error e) s) :
    Returns (mayRaise failure) Q s := by
  cases failure with
  | none => exact returns_pure h
  | some e => exact returns_raise (herror e)

theorem returns_bind
    {f : α -> Db σ ε β} {Q : Except ε β -> σ -> Prop}
    (h : Returns p
      (fun r s' => match r with
        | Except.ok a => Returns (f a) Q s'
        | Except.error e => Q (Except.error e) s') s) :
    Returns (p >>= f) Q s := by
  apply meets_bind h
  · intro a c hc
    rcases hc with ⟨s', hidle, hnext⟩
    rw [hidle]
    exact hnext
  · intro e c hc
    exact hc

theorem returns_tryExcept
    {handle : ε -> Db σ ε α}
    (h : Returns p
      (fun r s' => match r with
        | Except.ok a => Q (Except.ok a) s'
        | Except.error e => Returns (handle e) Q s') s) :
    Returns (tryExcept p handle) Q s := by
  apply meets_tryExcept h
  · intro a c hc
    exact hc
  · intro e c hc
    rcases hc with ⟨s', hidle, hnext⟩
    rw [hidle]
    exact hnext

theorem returns_cursor
    (h : Writes p (fun a s' => Q (Except.ok a) s') s s)
    (herror : forall e, Q (Except.error e) s) :
    Returns (cursor p) Q s := by
  apply meets_cursor (h false)
  · intro a c hc
    exact ⟨c.working, rfl, hc.right a rfl⟩
  · intro e c hc
    refine ⟨s, ?_, herror e⟩
    rw [← hc.left]
    rfl

theorem returns_read {f : σ -> α} (h : Q (Except.ok (f s)) s) :
    Returns (cursor (select f)) Q s :=
  ⟨s, rfl, h⟩

theorem returns_transaction
    {nested : ε} (h : Writes p (fun a s' => Q (Except.ok a) s') s s)
    (herror : forall e, Q (Except.error e) s) :
    Returns (transaction nested p) Q s := by
  apply meets_transaction (h true)
  · intro a c hc
    exact ⟨c.working, rfl, hc.right a rfl⟩
  · intro e c hc
    refine ⟨s, ?_, herror e⟩
    rw [← hc.left]
    rfl

theorem returns_forEach
    {Q : Except ε Unit -> σ -> Prop} {items : List α}
    {body : α -> Db σ ε Unit} {I : σ -> Prop}
    (hbody : forall item, item ∈ items -> forall s', I s' ->
      Returns (body item)
        (fun r s'' => match r with
          | Except.ok _ => I s''
          | Except.error e => Q (Except.error e) s'') s')
    (hdone : forall s', I s' -> Q (Except.ok ()) s')
    (h : I s) :
    Returns (forEach items body) Q s := by
  induction items generalizing s with
  | nil =>
      exact returns_pure (hdone s h)
  | cons item rest ih =>
      apply returns_bind
      apply returns_mono (hbody item (List.mem_cons_self ..) s h)
      intro r s' hr
      cases r with
      | ok a =>
          apply ih _ hr
          intro other hother
          exact hbody other (List.mem_cons_of_mem _ hother)
      | error e => exact hr

end Calls

/-!
## Invariants of the store

A property that every write keeps holds of what is committed and of what the
connection reads, however its blocks nest and end.
-/

def Throughout (P : σ -> Prop) (c : Connection σ) : Prop :=
  P c.committed ∧ P c.working

def Keeps (P : σ -> Prop) (p : Db σ ε α) : Prop :=
  forall c, Throughout P c -> Meets p (fun _ c' => Throughout P c') c

section Invariants

variable {P : σ -> Prop} {p : Db σ ε α}

theorem throughout_idle {s : σ} (h : P s) : Throughout P (Connection.idle s) :=
  ⟨h, h⟩

theorem keeps_pure (a : α) : Keeps P (pure a : Db σ ε α) :=
  fun _ hc => hc

theorem keeps_raise (e : ε) : Keeps P (raise e : Db σ ε α) :=
  fun _ hc => hc

theorem keeps_mayRaise (failure : Option ε) :
    Keeps P (mayRaise failure : Db σ ε Unit) :=
  fun _ hc => meets_mayRaise hc (fun _ => hc)

theorem keeps_bind
    {f : α -> Db σ ε β} (h : Keeps P p) (hf : forall a, Keeps P (f a)) :
    Keeps P (p >>= f) := by
  intro c hc
  exact meets_bind (h c hc) (fun a c' hc' => hf a c' hc') (fun _ _ hc' => hc')

theorem keeps_tryExcept
    {handle : ε -> Db σ ε α} (h : Keeps P p)
    (hhandle : forall e, Keeps P (handle e)) :
    Keeps P (tryExcept p handle) := by
  intro c hc
  exact meets_tryExcept (h c hc) (fun _ _ hc' => hc')
    (fun e c' hc' => hhandle e c' hc')

theorem keeps_select (f : σ -> α) : Keeps P (select f : Db σ ε α) :=
  fun _ hc => hc

theorem keeps_execute {f : σ -> σ} (h : forall s, P s -> P (f s)) :
    Keeps P (execute f : Db σ ε Unit) :=
  fun _ hc => ⟨hc.left, h _ hc.right⟩

theorem keeps_insert {f : σ -> α × σ} (h : forall s, P s -> P (f s).2) :
    Keeps P (insert f : Db σ ε α) :=
  fun _ hc => ⟨hc.left, h _ hc.right⟩

theorem keeps_cursor (h : Keeps P p) : Keeps P (cursor p) := by
  intro c hc
  exact meets_cursor (h c hc) (fun _ _ hc' => ⟨hc'.right, hc'.right⟩)
    (fun _ _ hc' => ⟨hc'.left, hc'.left⟩)

theorem keeps_begin (nested : ε) : Keeps P (begin_ nested : Db σ ε Unit) := by
  intro c hc
  unfold Meets begin_
  split
  · exact hc
  · exact hc

theorem keeps_transaction (nested : ε) (h : Keeps P p) :
    Keeps P (transaction nested p) :=
  keeps_cursor (keeps_bind (keeps_begin nested) (fun _ => h))

theorem keeps_forEach
    {items : List α} {body : α -> Db σ ε Unit}
    (h : forall item, item ∈ items -> Keeps P (body item)) :
    Keeps P (forEach items body) := by
  intro c hc
  apply meets_forEach (I := Throughout P) _ (fun _ hc' => hc') hc
  intro item hitem c' hc'
  apply meets_mono (h item hitem c' hc')
  intro r c'' hc''
  cases r with
  | ok a => exact hc''
  | error e => exact hc''

/-- A selection whose value the rest of the program may rely on. -/
theorem keeps_select_bind
    {f : σ -> α} {k : α -> Db σ ε β}
    (h : forall c, Throughout P c ->
      Meets (k (f c.working)) (fun _ c' => Throughout P c') c) :
    Keeps P (select f >>= k) :=
  fun c hc => h c hc

theorem keeps_apply (h : Keeps P p) {c : Connection σ}
    (hc : Throughout P c) : Throughout P (p c).2 :=
  h c hc

end Invariants

/-!
## Statements

A program performs the statements of a relation if it keeps whatever each of
them keeps.
-/

def Performs (step : σ -> σ -> Prop) (p : Db σ ε α) : Prop :=
  forall P : σ -> Prop, (forall s s', step s s' -> P s -> P s') -> Keeps P p

section Statements

variable {step : σ -> σ -> Prop} {p : Db σ ε α}

theorem performs_pure (a : α) : Performs step (pure a : Db σ ε α) :=
  fun _ _ => keeps_pure a

theorem performs_raise (e : ε) : Performs step (raise e : Db σ ε α) :=
  fun _ _ => keeps_raise e

theorem performs_mayRaise (failure : Option ε) :
    Performs step (mayRaise failure : Db σ ε Unit) :=
  fun _ _ => keeps_mayRaise failure

theorem performs_bind
    {f : α -> Db σ ε β} (h : Performs step p)
    (hf : forall a, Performs step (f a)) :
    Performs step (p >>= f) :=
  fun P hP => keeps_bind (h P hP) (fun a => hf a P hP)

theorem performs_tryExcept
    {handle : ε -> Db σ ε α} (h : Performs step p)
    (hhandle : forall e, Performs step (handle e)) :
    Performs step (tryExcept p handle) :=
  fun P hP => keeps_tryExcept (h P hP) (fun e => hhandle e P hP)

theorem performs_whenever
    {condition : Bool} {p : Db σ ε Unit}
    (h : condition = true -> Performs step p) :
    Performs step (whenever condition p) := by
  cases condition with
  | false => exact performs_pure _
  | true => exact h rfl

theorem performs_select (f : σ -> α) :
    Performs step (select f : Db σ ε α) :=
  fun _ _ => keeps_select f

theorem performs_execute {f : σ -> σ} (h : forall s, step s (f s)) :
    Performs step (execute f : Db σ ε Unit) :=
  fun _ hP => keeps_execute (fun s hs => hP s (f s) (h s) hs)

theorem performs_insert {f : σ -> α × σ} (h : forall s, step s (f s).2) :
    Performs step (insert f : Db σ ε α) :=
  fun _ hP => keeps_insert (fun s hs => hP s (f s).2 (h s) hs)

theorem performs_cursor (h : Performs step p) : Performs step (cursor p) :=
  fun P hP => keeps_cursor (h P hP)

theorem performs_transaction (nested : ε) (h : Performs step p) :
    Performs step (transaction nested p) :=
  fun P hP => keeps_transaction nested (h P hP)

theorem performs_forEach
    {items : List α} {body : α -> Db σ ε Unit}
    (h : forall item, item ∈ items -> Performs step (body item)) :
    Performs step (forEach items body) :=
  fun P hP => keeps_forEach (fun item hitem => h item hitem P hP)

end Statements

/-!
## Calls that leave nothing open

Whatever a block does, it ends with no transaction open.
-/

def Closes (p : Db σ ε α) : Prop :=
  forall s, exists s', (p (Connection.idle s)).2 = Connection.idle s'

section Closing

variable {p : Db σ ε α}

theorem closes_pure (a : α) : Closes (pure a : Db σ ε α) :=
  fun s => ⟨s, rfl⟩

theorem closes_raise (e : ε) : Closes (raise e : Db σ ε α) :=
  fun s => ⟨s, rfl⟩

theorem closes_mayRaise (failure : Option ε) :
    Closes (mayRaise failure : Db σ ε Unit) := by
  cases failure with
  | none => exact closes_pure _
  | some e => exact closes_raise e

theorem closes_bind
    {f : α -> Db σ ε β} (h : Closes p) (hf : forall a, Closes (f a)) :
    Closes (p >>= f) := by
  intro s
  rcases h s with ⟨s', hs'⟩
  show exists s'', (match p (Connection.idle s) with
    | (Except.ok a, c') => f a c'
    | (Except.error e, c') => (Except.error e, c')).2 = Connection.idle s''
  generalize p (Connection.idle s) = outcome at hs' ⊢
  rcases outcome with ⟨r, c'⟩
  cases hs'
  cases r with
  | ok a => exact hf a s'
  | error e => exact ⟨s', rfl⟩

theorem closes_tryExcept
    {handle : ε -> Db σ ε α} (h : Closes p)
    (hhandle : forall e, Closes (handle e)) :
    Closes (tryExcept p handle) := by
  intro s
  rcases h s with ⟨s', hs'⟩
  show exists s'', (match p (Connection.idle s) with
    | (Except.ok a, c') => (Except.ok a, c')
    | (Except.error e, c') => handle e c').2 = Connection.idle s''
  generalize p (Connection.idle s) = outcome at hs' ⊢
  rcases outcome with ⟨r, c'⟩
  cases hs'
  cases r with
  | ok a => exact ⟨s', rfl⟩
  | error e => exact hhandle e s'

theorem closes_cursor (p : Db σ ε α) : Closes (cursor p) := by
  intro s
  show exists s', (match p (Connection.idle s) with
    | (Except.ok a, c') => (Except.ok a, c'.afterCommit)
    | (Except.error e, c') => (Except.error e, c'.afterRollback)).2 =
      Connection.idle s'
  generalize p (Connection.idle s) = outcome
  rcases outcome with ⟨r, c'⟩
  cases r with
  | ok a => exact ⟨c'.working, rfl⟩
  | error e => exact ⟨c'.committed, rfl⟩

theorem closes_transaction (nested : ε) (p : Db σ ε α) :
    Closes (transaction nested p) :=
  closes_cursor _

theorem closes_forEach
    {items : List α} {body : α -> Db σ ε Unit}
    (h : forall item, Closes (body item)) :
    Closes (forEach items body) := by
  induction items with
  | nil => exact closes_pure _
  | cons item rest ih => exact closes_bind (h item) (fun _ => ih)

end Closing

end Db
end Foundation
end Minni
