import Mathlib.Data.Int.Log
import Mathlib.Data.Rat.Floor
import Mathlib.Tactic.Linarith

/-!
# Rounding to a Double

What an arithmetic operation on Numbers does to its exact result: the nearest double, and
the even one of two that are equally near (`roundDouble`). Overflow is left out: a result
beyond the range keeps its exponent, where the language has `Infinity`.

## Main results

* `roundDouble_le_two_pow`: below `2 ^ 53` a result is not rounded beyond it.
-/

namespace Js

/-- The nearest integer, and the even one of two that are equally near. -/
def roundHalfEven (q : ℚ) : ℤ :=
  if q - ⌊q⌋ < 1 / 2 ∨ (q - ⌊q⌋ = 1 / 2 ∧ ⌊q⌋ % 2 = 0) then ⌊q⌋ else ⌊q⌋ + 1

/-- The exponent of the last of the 53 bits of a double next to `q`. -/
def lastExponent (q : ℚ) : ℤ :=
  max (Int.log 2 |q| - 52) (-1074)

/-- The double that an operation with the exact result `q` returns. -/
def roundDouble (q : ℚ) : ℚ :=
  if q = 0 then 0 else roundHalfEven (q / 2 ^ lastExponent q) * 2 ^ lastExponent q

/-- `x + y` for Numbers. -/
def addDouble (x y : ℚ) : ℚ :=
  roundDouble (x + y)

/-- Rounding does not cross an integer from below. -/
theorem roundHalfEven_le {q : ℚ} {n : ℤ} (h : q ≤ n) : roundHalfEven q ≤ n := by
  rw [roundHalfEven]
  split
  · exact Int.floor_le_iff.mpr (by linarith)
  · next hup =>
      -- A result that is rounded up is not an integer.
      rw [not_or, not_lt] at hup
      refine Int.add_one_le_iff.mpr (Int.floor_lt.mpr (lt_of_le_of_ne h ?_))
      rintro rfl
      rw [Int.floor_intCast, sub_self] at hup
      norm_num at hup

theorem le_roundHalfEven {q : ℚ} {n : ℤ} (h : (n : ℚ) ≤ q) : n ≤ roundHalfEven q := by
  have hfloor : n ≤ ⌊q⌋ := Int.le_floor.mpr h
  rw [roundHalfEven]
  split
  · exact hfloor
  · omega

theorem roundDouble_nonneg {q : ℚ} (h : 0 ≤ q) : 0 ≤ roundDouble q := by
  rw [roundDouble]
  split
  · exact le_rfl
  · have hscale : (0 : ℚ) < 2 ^ lastExponent q := zpow_pos (by norm_num) _
    refine mul_nonneg ?_ hscale.le
    exact_mod_cast le_roundHalfEven (n := 0) (by exact_mod_cast div_nonneg h hscale.le)

/-- Next to a number below `2 ^ 53` the last bit of a double is worth at most one. -/
theorem lastExponent_nonpos {q : ℚ} (hq : q ≠ 0) (h : |q| < 2 ^ 53) : lastExponent q ≤ 0 := by
  have hlog : Int.log 2 |q| < 53 := by
    rw [← Int.lt_zpow_iff_log_lt (by norm_num) (abs_pos.mpr hq)]
    exact_mod_cast h
  exact max_le (by omega) (by norm_num)

/-- **Rounding stays within `2 ^ 53`.** -/
theorem roundDouble_le_two_pow {q : ℚ} (h0 : 0 ≤ q) (h : q < 2 ^ 53) :
    roundDouble q ≤ 2 ^ 53 := by
  rw [roundDouble]
  split
  · norm_num
  next hq =>
  have habs : |q| = q := abs_of_nonneg h0
  have hexp := lastExponent_nonpos hq (habs.symm ▸ h)
  have hscale : (0 : ℚ) < 2 ^ lastExponent q := zpow_pos (by norm_num) _
  -- `2 ^ 53` is a whole number of last bits.
  obtain ⟨k, hk⟩ := Int.eq_ofNat_of_zero_le (neg_nonneg.mpr hexp)
  have hscaled : ((2 : ℚ) ^ 53) / 2 ^ lastExponent q = ((2 ^ (53 + k) : ℤ) : ℚ) := by
    have hexp' : lastExponent q = -(k : ℤ) := by omega
    rw [hexp', zpow_neg, zpow_natCast, div_inv_eq_mul]
    push_cast
    rw [pow_add]
  rw [← le_div_iff₀ hscale, hscaled]
  exact_mod_cast roundHalfEven_le (hscaled ▸ div_le_div_of_nonneg_right h.le hscale.le)

end Js
