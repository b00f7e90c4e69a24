import Mathlib.Algebra.BigOperators.Group.List.Basic
import Mathlib.Algebra.Order.BigOperators.Group.List
import Mathlib.Algebra.Order.Field.Rat
import Mathlib.Algebra.Order.Group.Int
import Mathlib.Algebra.Order.Ring.Int
import Mathlib.Data.Rat.Cast.Order
import Mathlib.Tactic.FieldSimp
import Mathlib.Tactic.GCongr
import Mathlib.Tactic.Linarith
import Mathlib.Tactic.Ring

/-!
# Proportional shares, rounded twice

A total is split over parts in two integer divisions: first the rate of one
part, scaled up and rounded down; then the share of whoever holds some of the
parts, rounded down again.  Nothing is created by the rounding, and what is lost
is bounded: for one holder by the parts held, over the scale, and one unit; for
all holders together by the parts, over the scale, and one unit each.

The bounds are stated with their denominators multiplied out; `loss_lt_rat`
says in fractions what one holder loses.
-/

namespace ProRata

/-- The scaled rate of one part. -/
def rate (scale total parts : Int) : Int := total * scale / parts

/-- The share of a holder of some parts. -/
def share (scale total parts held : Int) : Int := rate scale total parts * held / scale

variable {scale total parts held : Int}

/-- The rate over all parts does not exceed the scaled total. -/
theorem rate_mul_le (scale total : Int) (hparts : 0 < parts) :
    rate scale total parts * parts ≤ total * scale :=
  Int.ediv_mul_le _ hparts.ne'

/-- A rate of one more would exceed the scaled total. -/
theorem lt_rate_add_one_mul (scale total : Int) (hparts : 0 < parts) :
    total * scale < (rate scale total parts + 1) * parts :=
  Int.lt_ediv_add_one_mul_self _ hparts

theorem rate_nonneg (hscale : 0 ≤ scale) (htotal : 0 ≤ total) (hparts : 0 ≤ parts) :
    0 ≤ rate scale total parts :=
  Int.ediv_nonneg (Int.mul_nonneg htotal hscale) hparts

/-- The product of the second division is within that of the first. -/
theorem rate_mul_held_le (hscale : 0 ≤ scale) (htotal : 0 ≤ total) (hparts : 0 < parts)
    (hheld : held ≤ parts) : rate scale total parts * held ≤ total * scale := by
  have hrate := rate_nonneg hscale htotal hparts.le
  calc rate scale total parts * held
      ≤ rate scale total parts * parts := by gcongr
    _ ≤ total * scale := rate_mul_le scale total hparts

/-- A share at the scale does not exceed the rate on what is held. -/
theorem share_mul_scale_le (total parts held : Int) (hscale : 0 < scale) :
    share scale total parts held * scale ≤ rate scale total parts * held :=
  Int.ediv_mul_le _ hscale.ne'

/-- A share of one more would exceed the rate on what is held. -/
theorem lt_share_add_one_mul (total parts held : Int) (hscale : 0 < scale) :
    rate scale total parts * held < (share scale total parts held + 1) * scale :=
  Int.lt_ediv_add_one_mul_self _ hscale

theorem share_nonneg (hscale : 0 ≤ scale) (htotal : 0 ≤ total) (hparts : 0 ≤ parts)
    (hheld : 0 ≤ held) : 0 ≤ share scale total parts held :=
  Int.ediv_nonneg (Int.mul_nonneg (rate_nonneg hscale htotal hparts) hheld) hscale

/-- A share is at most the exact part of the total. -/
theorem share_mul_le (total : Int) (hscale : 0 < scale) (hparts : 0 < parts) (hheld : 0 ≤ held) :
    share scale total parts held * parts ≤ total * held := by
  have hshare := share_mul_scale_le total parts held hscale
  have hrate := rate_mul_le scale total hparts
  refine le_of_mul_le_mul_right ?_ hscale
  calc share scale total parts held * parts * scale
      = share scale total parts held * scale * parts := by ring
    _ ≤ rate scale total parts * held * parts := by gcongr
    _ = rate scale total parts * parts * held := by ring
    _ ≤ total * scale * held := by gcongr
    _ = total * held * scale := by ring

/-- What the two roundings take from one holder. -/
theorem loss_le (total : Int) (hscale : 0 < scale) (hparts : 0 < parts) (hheld : 0 ≤ held) :
    scale * (total * held - share scale total parts held * parts) ≤
      (parts - 1) * held + (scale - 1) * parts := by
  have hshare := lt_share_add_one_mul total parts held hscale
  have hrate := lt_rate_add_one_mul scale total hparts
  have hshare' : (rate scale total parts * held - share scale total parts held * scale) * parts ≤
      (scale - 1) * parts := mul_le_mul_of_nonneg_right (by linarith) hparts.le
  have hrate' : (total * scale - rate scale total parts * parts) * held ≤
      (parts - 1) * held := mul_le_mul_of_nonneg_right (by linarith) hheld
  linarith

/-- In units: one holder loses less than the parts held over the scale, and one. -/
theorem loss_lt (total : Int) (hscale : 0 < scale) (hparts : 0 < parts) (hheld : 0 ≤ held) :
    scale * (total * held - share scale total parts held * parts) < parts * (held + scale) := by
  have hloss := loss_le total hscale hparts hheld
  linarith

/-- A share falls short of the exact quotient by less than one and what is held over the
scale. -/
theorem loss_lt_rat (hscale : 0 < scale) (hparts : 0 < parts) (hheld : 0 ≤ held) :
    (total * held / parts : ℚ) - share scale total parts held < held / scale + 1 := by
  have hscale' : (0 : ℚ) < scale := by exact_mod_cast hscale
  have hparts' : (0 : ℚ) < parts := by exact_mod_cast hparts
  have hloss : (scale : ℚ) * (total * held - share scale total parts held * parts) <
      parts * (held + scale) := by
    exact_mod_cast loss_lt total hscale hparts hheld
  calc (total * held / parts : ℚ) - share scale total parts held
      = (total * held - share scale total parts held * parts) / parts := by field_simp
    _ < (held + scale) / scale := by
        rw [div_lt_div_iff₀ hparts' hscale']
        linarith
    _ = held / scale + 1 := by field_simp

/-! ## All holders together -/

variable {helds : List Int}

/-- Holders of so many parts get at most their exact part of the total. -/
theorem sum_share_mul_le (total : Int) (hscale : 0 < scale) (hparts : 0 < parts)
    (hhelds : ∀ held ∈ helds, 0 ≤ held) :
    (helds.map (share scale total parts)).sum * parts ≤ total * helds.sum := by
  induction helds with
  | nil => simp
  | cons held rest ih =>
      have hfirst := share_mul_le total hscale hparts (hhelds held (by simp))
      have hrest := ih fun held' hmem => hhelds held' (List.mem_cons_of_mem held hmem)
      simp only [List.map_cons, List.sum_cons, add_mul, mul_add]
      exact add_le_add hfirst hrest

/-- Holders of no more parts than there are get at most the total. -/
theorem sum_share_le (hscale : 0 < scale) (htotal : 0 ≤ total) (hparts : 0 < parts)
    (hhelds : ∀ held ∈ helds, 0 ≤ held) (hsum : helds.sum ≤ parts) :
    (helds.map (share scale total parts)).sum ≤ total := by
  refine le_of_mul_le_mul_right ?_ hparts
  calc (helds.map (share scale total parts)).sum * parts
      ≤ total * helds.sum := sum_share_mul_le total hscale hparts hhelds
    _ ≤ total * parts := by gcongr

/-- All shares together fall short of the exact one by a bounded amount. -/
theorem sum_loss_le (total : Int) (hscale : 0 < scale) (hparts : 0 < parts)
    (hhelds : ∀ held ∈ helds, 0 ≤ held) :
    scale * (total * helds.sum - (helds.map (share scale total parts)).sum * parts) ≤
      (parts - 1) * helds.sum + helds.length * ((scale - 1) * parts) := by
  induction helds with
  | nil => simp
  | cons held rest ih =>
      have hfirst := loss_le total hscale hparts (hhelds held (by simp))
      have hrest := ih fun held' hmem => hhelds held' (List.mem_cons_of_mem held hmem)
      simp only [List.map_cons, List.sum_cons, List.length_cons, Nat.cast_add, Nat.cast_one]
      linarith

/-- **Dust.**  When all parts are held, what nobody gets is less than the parts
over the scale, and one unit for each holder. -/
theorem dust_le (hscale : 0 < scale) (hparts : 0 < parts) (hhelds : ∀ held ∈ helds, 0 ≤ held)
    (hsum : helds.sum = parts) :
    scale * (total - (helds.map (share scale total parts)).sum) ≤
      scale * helds.length + parts := by
  have hloss := sum_loss_le total hscale hparts hhelds
  rw [hsum] at hloss
  refine le_of_mul_le_mul_right ?_ hparts
  have hlength : (0 : Int) ≤ helds.length := Int.natCast_nonneg _
  nlinarith

end ProRata
