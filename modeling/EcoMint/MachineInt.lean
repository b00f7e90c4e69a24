import Mathlib.Algebra.Order.Group.Int
import Mathlib.Algebra.Order.Group.MinMax

/-!
# Bounded integer types

Integers are unbounded `Int`s; a bounded type is the interval of values it can
hold.  A checked operation gives nothing when the exact result leaves the
interval, a saturating one clamps it to the nearer end, and a wrapping one
reduces it modulo the size of the interval.  Division truncates toward zero.
-/

/-- The values a bounded integer type holds: `lo, …, hi`. -/
structure IntRange where
  lo : Int
  hi : Int
  lo_le_zero : lo ≤ 0
  zero_le_hi : 0 ≤ hi

namespace IntRange

/-- The signed integers of 128 bits. -/
def i128 : IntRange := ⟨-2 ^ 127, 2 ^ 127 - 1, by decide, by decide⟩

/-- The unsigned integers of 128 bits. -/
def u128 : IntRange := ⟨0, 2 ^ 128 - 1, by decide, by decide⟩

/-- The unsigned integers of 64 bits. -/
def u64 : IntRange := ⟨0, 2 ^ 64 - 1, by decide, by decide⟩

/-- The unsigned integers of 32 bits. -/
def u32 : IntRange := ⟨0, 2 ^ 32 - 1, by decide, by decide⟩

variable (t : IntRange)

/-- `x` is a value of the type. -/
def Fits (x : Int) : Prop := t.lo ≤ x ∧ x ≤ t.hi

instance (x : Int) : Decidable (t.Fits x) := by
  unfold Fits; infer_instance

/-- The exact result, if the type holds it. -/
def checked (x : Int) : Option Int := if t.Fits x then some x else none

/-- The sum, unless it is out of range. -/
def checkedAdd (a b : Int) : Option Int := t.checked (a + b)

/-- The difference, unless it is out of range. -/
def checkedSub (a b : Int) : Option Int := t.checked (a - b)

/-- The product, unless it is out of range. -/
def checkedMul (a b : Int) : Option Int := t.checked (a * b)

/-- The quotient, rounded to zero; none by zero or out of range. -/
def checkedDiv (a b : Int) : Option Int := if b = 0 then none else t.checked (a.tdiv b)

/-- Checked addition of two naturals in an unsigned type. -/
def checkedAddNat (a b : Nat) : Option Nat :=
  if t.Fits ((a + b : Nat) : Int) then some (a + b) else none

/-- The nearest value of the type. -/
def clamp (x : Int) : Int := max t.lo (min x t.hi)

/-- The sum, or the end of the range that it is beyond. -/
def saturatingAdd (a b : Int) : Int := t.clamp (a + b)

/-- The difference, or the end of the range that it is beyond. -/
def saturatingSub (a b : Int) : Int := t.clamp (a - b)

/-- The product, or the end of the range that it is beyond. -/
def saturatingMul (a b : Int) : Int := t.clamp (a * b)

/-- The quotient, or the end of the range that it is beyond. -/
def saturatingDiv (a b : Int) : Int := t.clamp (a.tdiv b)

/-- Saturating addition of two naturals in an unsigned type. -/
def saturatingAddNat (a b : Nat) : Nat := (t.clamp ((a + b : Nat) : Int)).toNat

/-- The value of the type congruent to `x` modulo the number of its values. -/
def wrap (x : Int) : Int := (x - t.lo) % (t.hi - t.lo + 1) + t.lo

@[simp] theorem checked_eq_some {x y : Int} :
    t.checked x = some y ↔ t.Fits x ∧ x = y := by
  unfold checked
  split <;> simp [*]

theorem checked_of_fits {x : Int} (h : t.Fits x) : t.checked x = some x := by
  simp [h]

@[simp] theorem checkedAddNat_eq_some {a b c : Nat} :
    t.checkedAddNat a b = some c ↔ t.Fits ((a + b : Nat) : Int) ∧ a + b = c := by
  unfold checkedAddNat
  split <;> simp_all only [reduceCtorEq, Option.some.injEq, true_and, false_and]

theorem checkedDiv_eq_some {a b c : Int} :
    t.checkedDiv a b = some c ↔ b ≠ 0 ∧ t.Fits (a.tdiv b) ∧ a.tdiv b = c := by
  unfold checkedDiv
  split <;> simp [*]

/-- Everything between zero and a value of the type is a value of the type. -/
theorem Fits.of_nonneg_of_le {x y : Int} (hy : t.Fits y) (hx : 0 ≤ x) (hxy : x ≤ y) :
    t.Fits x :=
  ⟨t.lo_le_zero.trans hx, hxy.trans hy.2⟩

theorem fits_iff_of_nonneg {x : Int} (h : 0 ≤ x) : t.Fits x ↔ x ≤ t.hi := by
  constructor
  · intro hfits
    exact hfits.2
  · intro hle
    exact ⟨t.lo_le_zero.trans h, hle⟩

/-- A value that fits is not clamped. -/
theorem clamp_of_fits {x : Int} (h : t.Fits x) : t.clamp x = x := by
  unfold clamp
  rw [min_eq_left h.2, max_eq_right h.1]

theorem clamp_of_nonneg {x : Int} (h : 0 ≤ x) : t.clamp x = min x t.hi := by
  have hlo := t.lo_le_zero
  have hhi := t.zero_le_hi
  unfold clamp
  omega

/-- What is too large is clamped to the upper end. -/
theorem clamp_of_le {x : Int} (h : t.hi ≤ x) : t.clamp x = t.hi := by
  unfold clamp
  rw [min_eq_right h, max_eq_right (t.lo_le_zero.trans t.zero_le_hi)]

/-- A saturated sum of naturals is their sum or the greatest value. -/
theorem saturatingAddNat_eq_min (a b : Nat) :
    t.saturatingAddNat a b = min (a + b) t.hi.toNat := by
  unfold saturatingAddNat
  rw [t.clamp_of_nonneg (Int.natCast_nonneg _)]
  omega

/-- On nonnegative operands it does not matter when a sum is clamped. -/
theorem saturatingAdd_clamp {a b : Int} (ha : 0 ≤ a) (hb : 0 ≤ b) :
    t.saturatingAdd (t.clamp a) (t.clamp b) = t.clamp (a + b) := by
  have hlo := t.lo_le_zero
  have hhi := t.zero_le_hi
  unfold saturatingAdd clamp
  omega

/-- On nonnegative operands it does not matter when a product is clamped. -/
theorem saturatingMul_clamp {a k : Int} (ha : 0 ≤ a) (hk : 1 ≤ k) :
    t.saturatingMul (t.clamp a) k = t.clamp (a * k) := by
  unfold saturatingMul
  rcases le_total a t.hi with hle | hge
  · rw [t.clamp_of_fits ((t.fits_iff_of_nonneg ha).mpr hle)]
  · have hgrows : ∀ {x : Int}, 0 ≤ x → x ≤ x * k := by
      intro x hx
      have hmul := Int.mul_le_mul_of_nonneg_left hk hx
      rwa [Int.mul_one] at hmul
    have hscaled : t.hi ≤ t.hi * k := hgrows t.zero_le_hi
    have hexact : t.hi ≤ a * k := hge.trans (hgrows ha)
    rw [t.clamp_of_le hge, t.clamp_of_le hscaled, t.clamp_of_le hexact]

/-- A value that fits does not wrap. -/
theorem wrap_of_fits {x : Int} (h : t.Fits x) : t.wrap x = x := by
  obtain ⟨hlo, hhi⟩ := h
  unfold wrap
  rw [Int.emod_eq_of_lt (by omega) (by omega)]
  omega

/-- It does not matter when a sum is wrapped. -/
theorem wrap_wrap_add (a b : Int) : t.wrap (t.wrap a + b) = t.wrap (a + b) := by
  unfold wrap
  have hshift : (a - t.lo) % (t.hi - t.lo + 1) + t.lo + b - t.lo =
      (a - t.lo) % (t.hi - t.lo + 1) + b := by omega
  have hsum : a + b - t.lo = a - t.lo + b := by omega
  rw [hshift, hsum, Int.emod_add_emod]

/-- Wrapping a nonnegative value never makes it larger. -/
theorem wrap_le {x : Int} (h : 0 ≤ x) : t.wrap x ≤ x := by
  have hlo := t.lo_le_zero
  have hhi := t.zero_le_hi
  have hquotient : 0 ≤ (t.hi - t.lo + 1) * ((x - t.lo) / (t.hi - t.lo + 1)) :=
    Int.mul_nonneg (by omega) (Int.ediv_nonneg (by omega) (by omega))
  have hsplit := Int.mul_ediv_add_emod (x - t.lo) (t.hi - t.lo + 1)
  unfold wrap
  omega

/-- Wrapping what is too large takes off the size of the interval at least. -/
theorem wrap_le_sub {x : Int} (h : t.hi < x) : t.wrap x ≤ x - (t.hi - t.lo + 1) := by
  have hlo := t.lo_le_zero
  have hhi := t.zero_le_hi
  have hpos : 0 < t.hi - t.lo + 1 := by omega
  have hquotient : 1 ≤ (x - t.lo) / (t.hi - t.lo + 1) :=
    (Int.le_ediv_iff_mul_le hpos).mpr (by omega)
  have hsize := Int.mul_le_mul_of_nonneg_left hquotient hpos.le
  have hsplit := Int.mul_ediv_add_emod (x - t.lo) (t.hi - t.lo + 1)
  unfold wrap
  omega

theorem clamp_nonneg {x : Int} (h : 0 ≤ x) : 0 ≤ t.clamp x := by
  have := t.zero_le_hi
  unfold clamp
  omega

end IntRange
