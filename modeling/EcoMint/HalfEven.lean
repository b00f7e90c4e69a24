import Mathlib.Algebra.Group.Nat.Defs
import Mathlib.Data.Nat.Log
import Mathlib.Order.Basic
import Mathlib.Tactic.SplitIfs

/-!
# Rounding to significant bits

A binary floating-point format keeps a fixed number of significant bits.  A whole
number with more bits is rounded to the nearest multiple of a power of two, and
halfway between two multiples to the even one.  Small numbers are kept as they
are, and rounding keeps the order: within one power of two the unit is the same,
and every power of two is kept.
-/

namespace HalfEven

/-- The nearest quotient; the even one of two. -/
def roundDiv (n unit : Nat) : Nat :=
  if 2 * (n % unit) < unit ∨ 2 * (n % unit) = unit ∧ n / unit % 2 = 0 then n / unit
  else n / unit + 1

/-- The last place of `n` with `bits` significant bits. -/
def lastPlace (bits n : Nat) : Nat := 2 ^ (n.log2 + 1 - bits)

/-- The nearest number with the given number of bits, ties to even. -/
def round (bits n : Nat) : Nat := roundDiv n (lastPlace bits n) * lastPlace bits n

/-- Rounding to the nearest works on the magnitude. -/
def roundInt (bits : Nat) : Int → Int
  | .ofNat n => round bits n
  | .negSucc n => -round bits (n + 1)

/-- What a unit divides is rounded to itself. -/
theorem roundDiv_mul_of_dvd {n unit : Nat} (hunit : 0 < unit) (h : unit ∣ n) :
    roundDiv n unit * unit = n := by
  rw [roundDiv, Nat.mod_eq_zero_of_dvd h, if_pos (Or.inl (by omega)), Nat.div_mul_cancel h]

/-- A larger number is not rounded to a smaller one. -/
theorem roundDiv_mono {m n : Nat} (unit : Nat) (h : m ≤ n) :
    roundDiv m unit ≤ roundDiv n unit := by
  rcases (Nat.div_le_div_right h : m / unit ≤ n / unit).eq_or_lt with heq | hlt
  · have hm := Nat.div_add_mod m unit
    have hn := Nat.div_add_mod n unit
    have hmod : m % unit ≤ n % unit := by
      rw [heq] at hm
      omega
    unfold roundDiv
    rw [heq]
    split_ifs <;> omega
  · unfold roundDiv
    split_ifs <;> omega

theorem lastPlace_pos (bits n : Nat) : 0 < lastPlace bits n := Nat.two_pow_pos _

@[simp] theorem round_zero (bits : Nat) : round bits 0 = 0 := by
  rw [round, roundDiv, Nat.zero_mod, Nat.zero_div, if_pos (Or.inl (lastPlace_pos ..)), Nat.zero_mul]

/-- What fits is kept. -/
theorem round_of_lt {bits n : Nat} (h : n < 2 ^ bits) : round bits n = n := by
  rcases Nat.eq_zero_or_pos n with rfl | hpos
  · exact round_zero bits
  · have hlog := (Nat.log2_lt hpos.ne').mpr h
    have hplace : lastPlace bits n = 1 := by
      rw [lastPlace, Nat.sub_eq_zero_of_le hlog, Nat.pow_zero]
    rw [round, hplace]
    exact roundDiv_mul_of_dvd Nat.one_pos (Nat.one_dvd n)

/-- A number between two powers of two is not rounded out of them. -/
theorem pow_le_round {bits n : Nat} (hbits : 0 < bits) (hn : n ≠ 0) :
    2 ^ n.log2 ≤ round bits n ∧ round bits n ≤ 2 ^ (n.log2 + 1) := by
  have hplace := lastPlace_pos bits n
  have hlow : lastPlace bits n ∣ 2 ^ n.log2 := Nat.pow_dvd_pow 2 (by omega)
  have hhigh : lastPlace bits n ∣ 2 ^ (n.log2 + 1) := Nat.pow_dvd_pow 2 (by omega)
  constructor
  · rw [← roundDiv_mul_of_dvd hplace hlow]
    exact Nat.mul_le_mul_right _ (roundDiv_mono _ (Nat.log2_self_le hn))
  · rw [← roundDiv_mul_of_dvd hplace hhigh]
    exact Nat.mul_le_mul_right _ (roundDiv_mono _ Nat.lt_log2_self.le)

/-- Rounding is monotone. -/
theorem round_mono {bits m n : Nat} (hbits : 0 < bits) (h : m ≤ n) :
    round bits m ≤ round bits n := by
  rcases Nat.eq_zero_or_pos m with rfl | hm
  · rw [round_zero]
    exact Nat.zero_le _
  have hn : n ≠ 0 := by omega
  have hlog : m.log2 ≤ n.log2 := (Nat.le_log2 hn).mpr (le_trans (Nat.log2_self_le hm.ne') h)
  rcases hlog.eq_or_lt with heq | hlt
  · have hplace : lastPlace bits m = lastPlace bits n := by rw [lastPlace, lastPlace, heq]
    rw [round, round, hplace]
    exact Nat.mul_le_mul_right _ (roundDiv_mono _ h)
  · calc round bits m ≤ 2 ^ (m.log2 + 1) := (pow_le_round hbits hm.ne').2
      _ ≤ 2 ^ n.log2 := Nat.pow_le_pow_right (by omega) hlt
      _ ≤ round bits n := (pow_le_round hbits hn).1

/-- Nothing below zero is rounded to more than zero. -/
theorem roundInt_nonpos {bits : Nat} {n : Int} (h : n ≤ 0) : roundInt bits n ≤ 0 := by
  match n with
  | .ofNat k =>
      obtain rfl : k = 0 := by simpa using h
      simp [roundInt]
  | .negSucc k => exact Int.neg_nonpos_of_nonneg (Int.natCast_nonneg _)

/-- Rounding integers is monotone. -/
theorem roundInt_mono {bits : Nat} (hbits : 0 < bits) {m n : Int} (h : m ≤ n) :
    roundInt bits m ≤ roundInt bits n := by
  match m, n with
  | .ofNat m, .ofNat n => exact Int.ofNat_le.mpr (round_mono hbits (Int.ofNat_le.mp h))
  | .ofNat m, .negSucc n => exact absurd h (not_le.mpr (Int.negSucc_lt_zero n |>.trans_le
      (Int.natCast_nonneg m)))
  | .negSucc m, .ofNat n =>
      exact le_trans (roundInt_nonpos (Int.negSucc_lt_zero m).le) (Int.natCast_nonneg _)
  | .negSucc m, .negSucc n =>
      apply Int.neg_le_neg
      exact Int.ofNat_le.mpr (round_mono hbits (by omega))

theorem roundInt_pos {bits : Nat} (hbits : 0 < bits) {n : Int} (h : 0 < n) :
    0 < roundInt bits n := by
  have hone : round bits 1 = 1 := round_of_lt (Nat.one_lt_two_pow hbits.ne')
  have hmono := roundInt_mono hbits (Int.add_one_le_of_lt h)
  have hone' : roundInt bits (0 + 1) = 1 := congrArg Int.ofNat hone
  omega

end HalfEven
