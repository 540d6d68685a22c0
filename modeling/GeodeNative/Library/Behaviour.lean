import Mathlib.Data.List.Basic

/-!
# Behaviours of a function call

A call returns a value, throws an exception, or runs into undefined behaviour. What follows
in a sequence is only run after a return.
-/

namespace GeodeNative

universe u v w

/-- How a call ends. -/
inductive Behaviour (ε : Type u) (α : Type v) : Type max u v
  | returns (a : α)
  | throws (e : ε)
  | undefined
  deriving DecidableEq

namespace Behaviour

variable {ε : Type u} {α : Type v} {β : Type v}

instance : Monad (Behaviour ε) where
  pure := returns
  bind x f :=
    match x with
    | returns a => f a
    | throws e => throws e
    | undefined => undefined

@[simp] lemma pure_eq (a : α) : (pure a : Behaviour ε α) = returns a := rfl

@[simp] lemma returns_bind (a : α) (f : α → Behaviour ε β) : returns a >>= f = f a := rfl

/-- An exception ends a block. -/
@[simp] lemma throws_bind (e : ε) (f : α → Behaviour ε β) :
    (throws e : Behaviour ε α) >>= f = throws e := rfl

/-- So does undefined behaviour. -/
@[simp] lemma undefined_bind (f : α → Behaviour ε β) :
    (undefined : Behaviour ε α) >>= f = undefined := rfl

/-- A dereferenced pointer must not be null. -/
def deref (pointer : Option α) : Behaviour ε α :=
  match pointer with
  | some a => returns a
  | none => undefined

@[simp] lemma deref_some (a : α) : (deref (some a) : Behaviour ε α) = returns a := rfl

/-- A null pointer is dereferenced. -/
@[simp] lemma deref_none : (deref none : Behaviour ε α) = undefined := rfl

end Behaviour

end GeodeNative
