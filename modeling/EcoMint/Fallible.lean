import Mathlib.Logic.Basic
import Mathlib.Tactic.Basic

/-!
# Fallible computations

A call can fail in two ways: it returns an error value of its own, or it traps
(a panic, a failed host function, or a failure inside a called contract, which
the caller cannot catch).  Guards are stated with the condition under which
they *reject*, and every combinator has one rule saying when it succeeds.
-/

/-- Why a call produced no result. -/
inductive Failure (ε : Type*)
  | error (e : ε)
  | trap
deriving DecidableEq, Repr

/-- A computation that may return an error or trap. -/
abbrev Fallible (ε α : Type*) := Except (Failure ε) α

namespace Fallible

universe u v

variable {ε ε' : Type v} {α β : Type u}

/-- Return the error `e` when `c` holds. -/
def rejectIf (c : Prop) [Decidable c] (e : ε) : Fallible ε Unit :=
  if c then .error (.error e) else .ok ()

/-- Trap unless `c` holds. -/
def trapUnless (c : Prop) [Decidable c] : Fallible ε Unit :=
  if c then .ok () else .error .trap

/-- The value of an option, or the error `e`. -/
def okOr (o : Option α) (e : ε) : Fallible ε α :=
  match o with
  | some a => .ok a
  | none => .error (.error e)

/-- The value of an option, or a trap. -/
def orTrap (o : Option α) : Fallible ε α :=
  match o with
  | some a => .ok a
  | none => .error .trap

/-- Call another contract: any failure of the callee traps the caller. -/
def invoke (r : Fallible ε' α) : Fallible ε α :=
  match r with
  | .ok a => .ok a
  | .error _ => .error .trap

/-- Rename the error values. -/
def mapError (f : ε → ε') (r : Fallible ε α) : Fallible ε' α :=
  match r with
  | .ok a => .ok a
  | .error (.error e) => .error (.error (f e))
  | .error .trap => .error .trap

@[simp] theorem bind_ok_iff {γ : Type v} {x : Except γ α} {f : α → Except γ β} {b : β} :
    (x >>= f) = .ok b ↔ ∃ a, x = .ok a ∧ f a = .ok b := by
  cases x <;> simp [bind, Except.bind]

@[simp] theorem pure_ok_iff {γ : Type v} {a b : α} :
    (pure a : Except γ α) = .ok b ↔ a = b := by
  simp [pure, Except.pure]

@[simp] theorem map_ok_iff {γ : Type v} {x : Except γ α} {f : α → β} {b : β} :
    f <$> x = .ok b ↔ ∃ a, x = .ok a ∧ f a = b := by
  cases x <;> simp [Functor.map, Except.map]

@[simp] theorem rejectIf_ok_iff {c : Prop} [Decidable c] {e : ε} {u : Unit} :
    rejectIf c e = .ok u ↔ ¬ c := by
  unfold rejectIf
  split <;> simp [*]

@[simp] theorem trapUnless_ok_iff {c : Prop} [Decidable c] {u : Unit} :
    (trapUnless c : Fallible ε Unit) = .ok u ↔ c := by
  unfold trapUnless
  split <;> simp [*]

@[simp] theorem okOr_ok_iff {o : Option α} {e : ε} {a : α} :
    okOr o e = .ok a ↔ o = some a := by
  cases o <;> simp [okOr]

@[simp] theorem orTrap_ok_iff {o : Option α} {a : α} :
    (orTrap o : Fallible ε α) = .ok a ↔ o = some a := by
  cases o <;> simp [orTrap]

@[simp] theorem invoke_ok_iff {r : Fallible ε' α} {a : α} :
    (invoke r : Fallible ε α) = .ok a ↔ r = .ok a := by
  cases r <;> simp [invoke]

@[simp] theorem mapError_ok_iff {f : ε → ε'} {r : Fallible ε α} {a : α} :
    mapError f r = .ok a ↔ r = .ok a := by
  rcases r with (e | _) | a' <;> simp [mapError]

/-! ## Which error -/

/-- A sequence fails if its first part does, or its second part on what the first one
gives. -/
theorem bind_error_iff {γ : Type v} {x : Except γ α} {f : α → Except γ β} {e : γ} :
    (x >>= f) = .error e ↔ x = .error e ∨ ∃ a, x = .ok a ∧ f a = .error e := by
  cases x <;> simp [bind, Except.bind]

/-- A rejection fails with its error. -/
theorem rejectIf_error_iff {c : Prop} [Decidable c] {e : ε} {failure : Failure ε} :
    rejectIf c e = .error failure ↔ c ∧ failure = .error e := by
  unfold rejectIf
  split <;> simp [*, eq_comm]

/-- A condition that fails traps. -/
theorem trapUnless_error_iff {c : Prop} [Decidable c] {failure : Failure ε} :
    trapUnless c = .error failure ↔ ¬ c ∧ failure = .trap := by
  unfold trapUnless
  split <;> simp [*, eq_comm]

/-- A value that is missing fails with its error. -/
theorem okOr_error_iff {o : Option α} {e : ε} {failure : Failure ε} :
    okOr o e = .error failure ↔ o = none ∧ failure = .error e := by
  cases o <;> simp [okOr, eq_comm]

/-- A computation that is told to succeed has a result. -/
theorem exists_of_isOk {r : Except ε α} (h : r.isOk = true) : ∃ a, r = .ok a := by
  cases r with
  | ok a => exact ⟨a, rfl⟩
  | error e => cases h

end Fallible
