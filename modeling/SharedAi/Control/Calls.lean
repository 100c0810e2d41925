import SharedAi.Control.Raises

/-!
# Computations that raise and call out

A computation of `Calls γ ε α` makes calls, each recorded as a `γ`, and then returns an `α` or raises an `ε`.
The calls made so far outlive an exception.

* `Calls.lift` — a computation that calls nobody;
* `Calls.call` — one call, with its answer;
* `Calls.catching` — an `except` clause;
* `lift_bind`, `call_bind_lift`, `catching_bind_lift` — what a sequence does, from its first step on.
-/

namespace SharedAi.Control

/-- From the calls made before, the answer and the calls made in all. -/
def Calls (γ ε α : Type) : Type := List γ → Except ε α × List γ

namespace Calls

variable {γ ε α β : Type}

instance : Monad (Calls γ ε) where
  pure a := fun cs => (.ok a, cs)
  bind x f := fun cs =>
    match x cs with
    | (.ok a, cs') => f a cs'
    | (.error e, cs') => (.error e, cs')

def lift (x : Except ε α) : Calls γ ε α := fun cs => (x, cs)

/-- The call `c`, which the callee answers. -/
def call (c : γ) (answer : Except ε α) : Calls γ ε α := fun cs => (answer, cs ++ [c])

/-- `try: x except …: raise f(error)`. -/
def catching (f : ε → Option ε) (x : Calls γ ε α) : Calls γ ε α := fun cs =>
  (Control.catching f (x cs).1, (x cs).2)

theorem lift_bind (x : Except ε α) (f : α → Calls γ ε β) (cs : List γ) :
    (lift x >>= f) cs =
      match x with
      | .ok a => f a cs
      | .error e => (.error e, cs) := by
  cases x <;> rfl

theorem call_bind_lift (c : γ) (x : Except ε α) (f : α → Except ε β) (cs : List γ) :
    (call c x >>= fun a => lift (f a)) cs = (x >>= f, cs ++ [c]) := by
  cases x <;> rfl

/-- An `except` clause around a computation, and a computation that makes no call after it. -/
theorem catching_bind_lift (h : ε → Option ε) (x : Calls γ ε α) (f : α → Except ε β) (cs : List γ) :
    (catching h x >>= fun a => lift (f a)) cs = (Control.catching h (x cs).1 >>= f, (x cs).2) := by
  show (match (Control.catching h (x cs).1, (x cs).2) with
    | (.ok a, cs') => lift (f a) cs'
    | (.error e, cs') => (.error e, cs')) = _
  cases Control.catching h (x cs).1 <;> rfl

theorem map_apply (f : α → β) (x : Calls γ ε α) (cs : List γ) : (f <$> x) cs = (f <$> (x cs).1, (x cs).2) := by
  show (match x cs with
    | (Except.ok a, cs') => (Except.ok (f a), cs')
    | (Except.error e, cs') => (Except.error e, cs')) = _
  rcases x cs with ⟨_ | _, _⟩ <;> rfl

end Calls

end SharedAi.Control
