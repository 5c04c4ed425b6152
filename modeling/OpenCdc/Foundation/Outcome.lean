import Mathlib.Control.Basic

/-!
# Outcomes of a partial computation

A call can return a value, return an error, or stop by a panic (an index or a
slice out of bounds).  `Outcome` keeps the three apart, so that a result about
a returned error never speaks about a panic by accident.
-/

namespace Foundation

universe u v

/-- What a call ends in. -/
inductive Outcome (ε : Type v) (α : Type u) where
  | ok (value : α)
  | error (e : ε)
  | panicked
deriving DecidableEq, Repr

namespace Outcome

variable {ε : Type v} {α β : Type u}

protected def bind (x : Outcome ε α) (f : α → Outcome ε β) : Outcome ε β :=
  match x with
  | ok a => f a
  | error e => error e
  | panicked => panicked

def mapError {ε' : Type v} (f : ε → ε') : Outcome ε α → Outcome ε' α
  | ok a => ok a
  | error e => error (f e)
  | panicked => panicked

/-- The result of a call that does not panic. -/
def toExcept : (x : Outcome ε α) → x ≠ panicked → Except ε α
  | ok a, _ => .ok a
  | error e, _ => .error e
  | panicked, h => absurd rfl h

def ofExcept : Except ε α → Outcome ε α
  | .ok a => ok a
  | .error e => error e

instance : Monad (Outcome ε) where
  pure := ok
  bind := Outcome.bind

instance : LawfulMonad (Outcome ε) :=
  LawfulMonad.mk' (Outcome ε)
    (fun x => by cases x <;> rfl)
    (fun _ _ => rfl)
    (fun x _ _ => by cases x <;> rfl)

instance : MonadExceptOf ε (Outcome ε) where
  throw := error
  tryCatch x handle :=
    match x with
    | ok a => ok a
    | error e => handle e
    | panicked => panicked

@[simp] theorem pure_eq (a : α) : (pure a : Outcome ε α) = ok a := rfl

@[simp] theorem throw_eq (e : ε) : (throw e : Outcome ε α) = error e := rfl

@[simp] theorem ok_bind (a : α) (f : α → Outcome ε β) : ok a >>= f = f a := rfl

@[simp] theorem error_bind (e : ε) (f : α → Outcome ε β) :
    (error e : Outcome ε α) >>= f = error e := rfl

@[simp] theorem panicked_bind (f : α → Outcome ε β) :
    (panicked : Outcome ε α) >>= f = panicked := rfl

theorem ok_ne_panicked (a : α) : (ok a : Outcome ε α) ≠ panicked := by
  intro h
  cases h

theorem bind_eq_ok {x : Outcome ε α} {f : α → Outcome ε β} {b : β} :
    x >>= f = ok b ↔ ∃ a, x = ok a ∧ f a = ok b := by
  cases x <;> simp

theorem bind_eq_panicked {x : Outcome ε α} {f : α → Outcome ε β} :
    x >>= f = panicked ↔ x = panicked ∨ ∃ a, x = ok a ∧ f a = panicked := by
  cases x <;> simp

end Outcome
end Foundation
