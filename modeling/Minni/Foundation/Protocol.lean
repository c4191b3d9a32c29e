import Minni.Foundation.Program

/-!
# Programs that obey a protocol

Processes that interleave take one operation of their programs at a time, and
what a process will do depends on replies that others decide.  A protocol says
which operations a process may perform, by a record of what it has done so far.
A program that obeys it can be followed through any replies.
-/

namespace Minni
namespace Foundation
namespace Program

variable {Op : Type} {Reply : Op -> Type} {Error α β : Type}

section Protocol

variable {Past : Type} (may : Past -> Op -> Prop)
  (after : Past -> (o : Op) -> Except Error (Reply o) -> Past)

/-- Every operation is one that may be performed, and the program ends as it
should, whatever the replies are. -/
def Obeys (ends : Past -> Except Error α -> Prop) :
    Past -> Program Op Reply Error α -> Prop
  | past, ret result => ends past result
  | past, op o k =>
      may past o ∧ forall reply, Obeys ends (after past o reply) (k reply)

variable {may after}
variable {ends ends' : Past -> Except Error α -> Prop} {past : Past}

theorem obeys_pure {a : α} (h : ends past (Except.ok a)) :
    Obeys may after ends past (pure a : Program Op Reply Error α) :=
  h

theorem obeys_perform
    {o : Op} {ends : Past -> Except Error (Reply o) -> Prop}
    (hmay : may past o)
    (h : forall reply, ends (after past o reply) reply) :
    Obeys may after ends past (perform o) :=
  ⟨hmay, h⟩

theorem obeys_mono {p : Program Op Reply Error α}
    (h : Obeys may after ends past p)
    (himp : forall past result, ends past result -> ends' past result) :
    Obeys may after ends' past p := by
  induction p generalizing past with
  | ret result => exact himp past result h
  | op o k ih =>
      constructor
      · exact h.left
      · intro reply
        exact ih reply (h.right reply)

theorem obeys_bind
    {p : Program Op Reply Error α} {f : α -> Program Op Reply Error β}
    {ends : Past -> Except Error β -> Prop}
    (h : Obeys may after
      (fun past result =>
        match result with
        | Except.ok a => Obeys may after ends past (f a)
        | Except.error e => ends past (Except.error e))
      past p) :
    Obeys may after ends past (p >>= f) := by
  induction p generalizing past with
  | ret result =>
      cases result with
      | ok a => exact h
      | error e => exact h
  | op o k ih =>
      constructor
      · exact h.left
      · intro reply
        exact ih reply (h.right reply)

theorem obeys_tryCatch
    {p : Program Op Reply Error α}
    {handle : Error -> Program Op Reply Error α}
    (h : Obeys may after
      (fun past result =>
        match result with
        | Except.ok a => ends past (Except.ok a)
        | Except.error e => Obeys may after ends past (handle e))
      past p) :
    Obeys may after ends past (p.tryCatch handle) := by
  induction p generalizing past with
  | ret result =>
      cases result with
      | ok a => exact h
      | error e => exact h
  | op o k ih =>
      constructor
      · exact h.left
      · intro reply
        exact ih reply (h.right reply)

end Protocol

end Program
end Foundation
end Minni
