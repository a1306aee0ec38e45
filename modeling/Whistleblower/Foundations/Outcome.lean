import Mathlib.Logic.Basic
import Mathlib.Control.Basic

/-!
# Three-way outcomes

The result of running a fallible routine that can also abort: `ok` with a value, `err` with a
declared error, or `panic`. The second and the third are kept apart on purpose: a declared error
is part of a routine's contract, while a panic is the routine stopping outside of it, and a claim
"fails by error, never by panic" has to be able to tell them apart.

`bind` is early return: the first `err` or `panic` is the outcome of the whole block.
-/

/-- The result of a routine that returns a value, returns a declared error, or aborts. -/
inductive Outcome (ε α : Type*) where
  /-- The routine returned normally. -/
  | ok (value : α)
  /-- The routine returned one of its declared errors. -/
  | err (error : ε)
  /-- The routine aborted. -/
  | panic
  deriving DecidableEq, Repr

namespace Outcome

universe v

variable {ε : Type*} {α β : Type v}

/-- Run `f` on the value, if there is one; an error or an abort ends the block. -/
protected def bind (x : Outcome ε α) (f : α → Outcome ε β) : Outcome ε β :=
  match x with
  | ok a => f a
  | err e => err e
  | panic => panic

instance : Monad (Outcome ε) where
  pure := ok
  bind := Outcome.bind

@[simp] theorem pure_eq_ok (a : α) : (pure a : Outcome ε α) = ok a := rfl

@[simp] theorem ok_bind (a : α) (f : α → Outcome ε β) : (ok a >>= f) = f a := rfl

@[simp] theorem err_bind (e : ε) (f : α → Outcome ε β) : (err e >>= f) = err e := rfl

@[simp] theorem panic_bind (f : α → Outcome ε β) : ((panic : Outcome ε α) >>= f) = panic := rfl

/-- A block returns normally exactly when its first part does and the rest does on its value. -/
theorem bind_eq_ok {x : Outcome ε α} {f : α → Outcome ε β} {b : β} :
    (x >>= f) = ok b ↔ ∃ a, x = ok a ∧ f a = ok b := by
  cases x <;> simp

/-- An error of a block is one of its first part, or of the rest on the first part's value. -/
theorem bind_eq_err {x : Outcome ε α} {f : α → Outcome ε β} {e : ε} :
    (x >>= f) = err e ↔ x = err e ∨ ∃ a, x = ok a ∧ f a = err e := by
  cases x <;> simp

/-- A block aborts where its first part does, or where the rest does on the first part's value. -/
theorem bind_eq_panic {x : Outcome ε α} {f : α → Outcome ε β} :
    (x >>= f) = panic ↔ x = panic ∨ ∃ a, x = ok a ∧ f a = panic := by
  cases x <;> simp

/-- Turn an optional value into an outcome, with `e` for a missing one. -/
def ofOption (e : ε) : Option α → Outcome ε α
  | some a => ok a
  | none => err e

@[simp] theorem ofOption_some (e : ε) (a : α) : ofOption e (some a) = ok a := rfl

@[simp] theorem ofOption_none (e : ε) : ofOption e (none : Option α) = err e := rfl

theorem ofOption_eq_ok {e : ε} {x : Option α} {a : α} : ofOption e x = ok a ↔ x = some a := by
  cases x <;> simp

theorem ofOption_eq_err {e e' : ε} {x : Option α} : ofOption e x = err e' ↔ x = none ∧ e = e' := by
  cases x <;> simp

theorem ofOption_ne_panic (e : ε) (x : Option α) : ofOption e x ≠ panic := by
  cases x <;> simp

/-- Did the routine return normally? -/
def isOk : Outcome ε α → Bool
  | ok _ => true
  | _ => false

@[simp] theorem isOk_ok (a : α) : (ok a : Outcome ε α).isOk = true := rfl

@[simp] theorem isOk_err (e : ε) : (err e : Outcome ε α).isOk = false := rfl

@[simp] theorem isOk_panic : (panic : Outcome ε α).isOk = false := rfl

theorem isOk_iff {x : Outcome ε α} : x.isOk = true ↔ ∃ a, x = ok a := by
  cases x with
  | ok a => exact iff_of_true rfl ⟨a, rfl⟩
  | err e => exact iff_of_false Bool.false_ne_true (by rintro ⟨a, h⟩; cases h)
  | panic => exact iff_of_false Bool.false_ne_true (by rintro ⟨a, h⟩; cases h)

end Outcome
