import Mathlib.Algebra.Order.BigOperators.Group.List
import Mathlib.Algebra.Field.Rat
import Mathlib.Algebra.Order.Field.Basic
import Mathlib.Algebra.Order.Ring.Rat

/-!
# Numbers that are never rounded

The number type of the source, but for rounding: rationals, the two infinities
and not-a-number, with one zero.  A division by zero is no error.  It gives an
infinity, or not-a-number where the dividend is zero too.
-/

/-- A number of the language, without the limits of doubles: every rational, the two
infinities and `NaN`. -/
inductive ExactNumber
  | finite (q : ℚ)
  | infinity
  | negInfinity
  | nan
deriving DecidableEq, Repr

namespace ExactNumber

instance : Coe ℚ ExactNumber := ⟨finite⟩

/-- The infinity with the sign of a number, and not-a-number for zero. -/
def infinityOf (q : ℚ) : ExactNumber :=
  if 0 < q then infinity else if q < 0 then negInfinity else nan

/-- `-a` -/
def neg : ExactNumber → ExactNumber
  | finite q => finite (-q)
  | infinity => negInfinity
  | negInfinity => infinity
  | nan => nan

/-- `a + b` -/
def add : ExactNumber → ExactNumber → ExactNumber
  | nan, _ | _, nan => nan
  | finite p, finite q => finite (p + q)
  | infinity, negInfinity | negInfinity, infinity => nan
  | infinity, _ | _, infinity => infinity
  | negInfinity, _ | _, negInfinity => negInfinity

/-- `a * b` -/
def mul : ExactNumber → ExactNumber → ExactNumber
  | nan, _ | _, nan => nan
  | finite p, finite q => finite (p * q)
  | finite q, infinity | infinity, finite q => infinityOf q
  | finite q, negInfinity | negInfinity, finite q => infinityOf (-q)
  | infinity, infinity | negInfinity, negInfinity => infinity
  | infinity, negInfinity | negInfinity, infinity => negInfinity

/-- `a / b`; by zero it is infinite. -/
def div : ExactNumber → ExactNumber → ExactNumber
  | nan, _ | _, nan => nan
  | finite p, finite q => if q = 0 then infinityOf p else finite (p / q)
  | finite _, infinity | finite _, negInfinity => finite 0
  | infinity, finite q => if q < 0 then negInfinity else infinity
  | negInfinity, finite q => if q < 0 then infinity else negInfinity
  | infinity, _ | negInfinity, _ => nan

/-- `Math.max` -/
def max : ExactNumber → ExactNumber → ExactNumber
  | nan, _ | _, nan => nan
  | finite p, finite q => finite (Max.max p q)
  | infinity, _ | _, infinity => infinity
  | negInfinity, number | number, negInfinity => number

instance : Neg ExactNumber := ⟨neg⟩
instance : Add ExactNumber := ⟨add⟩
instance : Sub ExactNumber := ⟨fun a b => a + -b⟩
instance : Mul ExactNumber := ⟨mul⟩
instance : Div ExactNumber := ⟨div⟩

/-- `a <= b` -/
def Le : ExactNumber → ExactNumber → Prop
  | nan, _ | _, nan => False
  | finite p, finite q => p ≤ q
  | negInfinity, _ | _, infinity => True
  | _, negInfinity | infinity, _ => False

@[simp] theorem finite_add (p q : ℚ) : (finite p + finite q : ExactNumber) = finite (p + q) := rfl

@[simp] theorem finite_sub (p q : ℚ) : (finite p - finite q : ExactNumber) = finite (p - q) := by
  rw [sub_eq_add_neg p q]
  rfl

@[simp] theorem finite_mul (p q : ℚ) : (finite p * finite q : ExactNumber) = finite (p * q) := rfl

@[simp] theorem max_finite (p q : ℚ) : max (finite p) (finite q) = finite (Max.max p q) := rfl

@[simp] theorem le_finite {p q : ℚ} : Le (finite p) (finite q) ↔ p ≤ q := Iff.rfl

/-- Finite numbers are divided exactly, but not by zero. -/
theorem finite_div (p : ℚ) {q : ℚ} (h : q ≠ 0) :
    (finite p / finite q : ExactNumber) = finite (p / q) := if_neg h

theorem finite_div_zero (p : ℚ) : (finite p / finite 0 : ExactNumber) = infinityOf p := by
  change (if (0 : ℚ) = 0 then infinityOf p else finite (p / 0)) = infinityOf p
  rw [if_pos rfl]

@[simp] theorem infinityOf_zero : infinityOf 0 = nan := by
  rw [infinityOf, if_neg (lt_irrefl 0), if_neg (lt_irrefl 0)]

/-- Summed up from zero, finite numbers have a finite sum. -/
theorem foldl_add_finite {α : Type*} (value : α → ℚ) (items : List α) :
    items.foldl (fun sum item => sum + finite (value item)) (finite 0) =
      finite (items.map value).sum := by
  have hfrom (start : ℚ) : items.foldl (fun sum item => sum + finite (value item)) (finite start) =
      finite (start + (items.map value).sum) := by
    induction items generalizing start with
    | nil => simp
    | cons item items ih =>
        rw [List.foldl_cons, finite_add, ih, List.map_cons, List.sum_cons, add_assoc]
  rw [hfrom, zero_add]

end ExactNumber

/-! ## Means -/

namespace Mean

variable {values values' : List ℚ}

/-- A mean is at most a bound of the values. -/
theorem le_of_forall_le {bound : ℚ} (hvalues : values ≠ []) (h : ∀ value ∈ values, value ≤ bound) :
    values.sum / values.length ≤ bound := by
  have hlength : (0 : ℚ) < values.length := by
    exact_mod_cast List.length_pos_of_ne_nil hvalues
  rw [div_le_iff₀ hlength]
  calc values.sum ≤ values.length • bound := List.sum_le_card_nsmul values bound h
    _ = bound * values.length := by rw [nsmul_eq_mul, mul_comm]

/-- A mean grows with each of its values. -/
theorem le_of_forall₂_le (h : List.Forall₂ (· ≤ ·) values values') :
    values.sum / values.length ≤ values'.sum / values'.length := by
  rw [h.length_eq]
  exact div_le_div_of_nonneg_right (List.Forall₂.sum_le_sum h) (Nat.cast_nonneg _)

end Mean
