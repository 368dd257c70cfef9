import Mathlib.Tactic.Common
import Mathlib.Order.Basic
import Mathlib.Algebra.Group.Nat.Defs

namespace rust

/-- What a call of a Rust function returning `Result<α, ε>` can do. A function that
returns a plain `α` never takes the `err` branch. `diverge` is the outcome of a loop
cut off by its fuel; it never stands for a value the program computed. -/
inductive Outcome (ε α : Type) where
  | ok (value : α)
  | err (error : ε)
  | panic
  | diverge
  deriving DecidableEq, Repr

namespace Outcome

variable {ε ε' α β γ : Type}

/-- Sequencing with `?`: an error, a panic or divergence ends the caller too. -/
protected def bind (x : Outcome ε α) (f : α → Outcome ε β) : Outcome ε β :=
  match x with
  | ok value => f value
  | err error => err error
  | panic => panic
  | diverge => diverge

instance : Monad (Outcome ε) where
  pure := ok
  bind := Outcome.bind

@[simp] theorem pure_eq (a : α) : (pure a : Outcome ε α) = ok a := rfl

@[simp] theorem ok_bind (a : α) (f : α → Outcome ε β) : (ok a >>= f) = f a := rfl

@[simp] theorem err_bind (e : ε) (f : α → Outcome ε β) : (err e >>= f) = err e := rfl

@[simp] theorem panic_bind (f : α → Outcome ε β) : ((panic : Outcome ε α) >>= f) = panic := rfl

@[simp] theorem diverge_bind (f : α → Outcome ε β) :
    ((diverge : Outcome ε α) >>= f) = diverge := rfl

/-- A sequence succeeds exactly when both of its calls do. -/
theorem bind_eq_ok_iff {x : Outcome ε α} {f : α → Outcome ε β} {b : β} :
    (x >>= f) = ok b ↔ ∃ a, x = ok a ∧ f a = ok b := by
  cases x <;> simp

/-- An error of a sequence is one of its first call, or one of the second after the first has succeeded.
-/
theorem bind_eq_err_iff {x : Outcome ε α} {f : α → Outcome ε β} {e : ε} :
    (x >>= f) = err e ↔ x = err e ∨ ∃ a, x = ok a ∧ f a = err e := by
  cases x <;> simp

/-- A sequence panics in its first call, or in the second after the first has succeeded. -/
theorem bind_eq_panic_iff {x : Outcome ε α} {f : α → Outcome ε β} :
    (x >>= f) = panic ↔ x = panic ∨ ∃ a, x = ok a ∧ f a = panic := by
  cases x <;> simp

/-- A sequence diverges in its first call, or in the second after the first has succeeded. -/
theorem bind_eq_diverge_iff {x : Outcome ε α} {f : α → Outcome ε β} :
    (x >>= f) = diverge ↔ x = diverge ∨ ∃ a, x = ok a ∧ f a = diverge := by
  cases x <;> simp

theorem bind_assoc (x : Outcome ε α) (f : α → Outcome ε β) (g : β → Outcome ε γ) :
    (x >>= f >>= g) = (x >>= fun a => f a >>= g) := by
  cases x <;> rfl

/-- The `From` conversion that `?` applies to an error. -/
def mapErr (f : ε → ε') : Outcome ε α → Outcome ε' α
  | ok value => ok value
  | err error => err (f error)
  | panic => panic
  | diverge => diverge

/-- `unwrap`. -/
def unwrap : Outcome ε α → Outcome ε' α
  | ok value => ok value
  | err _ => panic
  | panic => panic
  | diverge => diverge

/-- `Option::unwrap`. -/
def unwrap_some : Option α → Outcome ε α
  | some value => ok value
  | none => panic

@[simp] theorem unwrap_ok (a : α) : unwrap (ok a : Outcome ε α) = (ok a : Outcome ε' α) := rfl

@[simp] theorem mapErr_ok (f : ε → ε') (a : α) : mapErr f (ok a) = ok a := rfl

@[simp] theorem mapErr_err (f : ε → ε') (e : ε) : mapErr f (err e : Outcome ε α) = err (f e) := rfl

@[simp] theorem mapErr_panic (f : ε → ε') : mapErr f (panic : Outcome ε α) = panic := rfl

@[simp] theorem mapErr_diverge (f : ε → ε') : mapErr f (diverge : Outcome ε α) = diverge := rfl

/-- Changing the error keeps exactly the successes. -/
@[simp] theorem mapErr_eq_ok_iff {f : ε → ε'} {x : Outcome ε α} {a : α} :
    mapErr f x = ok a ↔ x = ok a := by
  cases x <;> simp

/-- The errors that come out are the images of those that went in. -/
@[simp] theorem mapErr_eq_err_iff {f : ε → ε'} {x : Outcome ε α} {e : ε'} :
    mapErr f x = err e ↔ ∃ e', x = err e' ∧ f e' = e := by
  cases x <;> simp

/-- Changing the error neither causes a panic nor hides one. -/
@[simp] theorem mapErr_eq_panic_iff {f : ε → ε'} {x : Outcome ε α} :
    mapErr f x = panic ↔ x = panic := by
  cases x <;> simp

/-- Changing the error neither causes divergence nor hides it. -/
@[simp] theorem mapErr_eq_diverge_iff {f : ε → ε'} {x : Outcome ε α} :
    mapErr f x = diverge ↔ x = diverge := by
  cases x <;> simp

/-- The call comes back with `Ok` or `Err`: it neither panics nor runs forever. -/
def Returns (x : Outcome ε α) : Prop :=
  (∃ a, x = ok a) ∨ ∃ e, x = err e

@[simp] theorem returns_ok (a : α) : (ok a : Outcome ε α).Returns := .inl ⟨a, rfl⟩

@[simp] theorem returns_err (e : ε) : (err e : Outcome ε α).Returns := .inr ⟨e, rfl⟩

@[simp] theorem not_returns_panic : ¬ (panic : Outcome ε α).Returns := by
  simp [Returns]

@[simp] theorem not_returns_diverge : ¬ (diverge : Outcome ε α).Returns := by
  simp [Returns]

/-- A call returns unless it panics or diverges. -/
theorem returns_iff {x : Outcome ε α} : x.Returns ↔ x ≠ panic ∧ x ≠ diverge := by
  cases x <;> simp

end Outcome

open Outcome

variable {ε : Type}

/-- `assert!`. -/
def assert (p : Prop) [Decidable p] : Outcome ε Unit :=
  if p then ok () else panic

/-- `a + b` on a `bits`-bit unsigned integer under checked arithmetic. -/
def addChecked (bits a b : Nat) : Outcome ε Nat :=
  if a + b < 2 ^ bits then ok (a + b) else panic

/-- `a - b` on an unsigned integer under checked arithmetic. -/
def subChecked (a b : Nat) : Outcome ε Nat :=
  if b ≤ a then ok (a - b) else panic

/-- `a * b` on a `bits`-bit unsigned integer under checked arithmetic. -/
def mulChecked (bits a b : Nat) : Outcome ε Nat :=
  if a * b < 2 ^ bits then ok (a * b) else panic

/-- `a << n` on a `bits`-bit unsigned integer: only the shift amount is checked, and the
bits moved past the top are lost. -/
def shlChecked (bits a n : Nat) : Outcome ε Nat :=
  if n < bits then ok ((a <<< n) % 2 ^ bits) else panic

/-- `a >> n` on a `bits`-bit unsigned integer. -/
def shrChecked (bits a n : Nat) : Outcome ε Nat :=
  if n < bits then ok (a >>> n) else panic

theorem assert_of {p : Prop} [Decidable p] (h : p) : (assert p : Outcome ε Unit) = ok () :=
  if_pos h

theorem addChecked_of_lt {bits a b : Nat} (h : a + b < 2 ^ bits) :
    (addChecked bits a b : Outcome ε Nat) = ok (a + b) :=
  if_pos h

theorem addChecked_of_le {bits a b : Nat} (h : 2 ^ bits ≤ a + b) :
    (addChecked bits a b : Outcome ε Nat) = panic :=
  if_neg (by omega)

theorem subChecked_of_le {a b : Nat} (h : b ≤ a) : (subChecked a b : Outcome ε Nat) = ok (a - b) :=
  if_pos h

theorem mulChecked_of_lt {bits a b : Nat} (h : a * b < 2 ^ bits) :
    (mulChecked bits a b : Outcome ε Nat) = ok (a * b) :=
  if_pos h

theorem mulChecked_of_le {bits a b : Nat} (h : 2 ^ bits ≤ a * b) :
    (mulChecked bits a b : Outcome ε Nat) = panic :=
  if_neg (by omega)

theorem shlChecked_of_lt {bits a n : Nat} (h : n < bits) :
    (shlChecked bits a n : Outcome ε Nat) = ok ((a <<< n) % 2 ^ bits) :=
  if_pos h

theorem shrChecked_of_lt {bits a n : Nat} (h : n < bits) :
    (shrChecked bits a n : Outcome ε Nat) = ok (a >>> n) :=
  if_pos h

end rust
