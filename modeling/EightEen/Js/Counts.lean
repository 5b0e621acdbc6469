import EightEen.Js.Bytes
import EightEen.Js.Value
import Mathlib.Algebra.Order.BigOperators.Group.List
import Mathlib.Data.ENat.Basic

/-!
# Counts in Numbers

What a program does with a whole number that it has read off a text and goes on to add up: such
a Number is an integer that is a double, or `Infinity` (`⊤`), and each sum is rounded before the
next one is taken (`sumCounts`). Beyond `2 ^ 53` the result depends on the order of the summands.

## Main results

* `sumCounts_eq_zero_iff`: rounding makes no zero.
* `sumCounts_of_le`: up to `2 ^ 53` the sum is exact, so that its order does not matter.
-/

namespace Js

/-- The whole number behind the largest exponent of a double. -/
def infinityBound : ℕ :=
  2 ^ 1024

/-- The Number that is nearest to a whole number, which is `Infinity` beyond the range. -/
def roundCount : ℕ∞ → ℕ∞
  | ⊤ => ⊤
  | (n : ℕ) => if toDouble n < infinityBound then toDouble n else ⊤

/-- `sum += n` for each of the counts. -/
def sumCounts (start : ℕ∞) (counts : List ℕ∞) : ℕ∞ :=
  counts.foldl (fun sum n => roundCount (sum + n)) start

/-- `${n}`. -/
def countNumber : ℕ∞ → Number
  | ⊤ => .posInf
  | (n : ℕ) => .finite n

/-- What is exact is within the range. -/
theorem two_pow_lt_infinityBound : 2 ^ 53 < infinityBound := by
  have hpow : ∀ n, 53 < n → 2 ^ 53 < 2 ^ n := fun n hn => Nat.pow_lt_pow_right (by decide) hn
  exact hpow 1024 (by decide)

theorem roundCount_coe (n : ℕ) :
    roundCount n = if toDouble n < infinityBound then (toDouble n : ℕ∞) else ⊤ :=
  rfl

/-- Up to `2 ^ 53` a whole number is a double. -/
theorem roundCount_of_le {n : ℕ∞} (h : n ≤ 2 ^ 53) : roundCount n = n := by
  have hfinite : n ≠ ⊤ := ne_top_of_le_ne_top (ENat.natCast_ne_top (2 ^ 53)) h
  obtain ⟨m, rfl⟩ := ENat.ne_top_iff_exists.mp hfinite
  have hm : m ≤ 2 ^ 53 := by exact_mod_cast h
  have hdouble : toDouble m = m := by
    have hmul := toDouble_mul_two_pow 0 hm
    rwa [pow_zero, Nat.mul_one] at hmul
  have hrange : m < infinityBound := lt_of_le_of_lt hm two_pow_lt_infinityBound
  rw [roundCount_coe, hdouble, if_pos hrange]

/-- Rounding makes no zero. -/
theorem roundCount_eq_zero_iff {n : ℕ∞} : roundCount n = 0 ↔ n = 0 := by
  constructor
  · intro h
    by_contra hne
    by_cases hle : n ≤ 2 ^ 53
    · rw [roundCount_of_le hle] at h
      exact hne h
    · -- What lies beyond keeps its first bits.
      cases n with
      | top => cases h
      | coe m =>
          have hlarge : 2 ^ 53 < m := by exact_mod_cast not_le.mp hle
          have hpos : 0 < toDouble m := by
            have hlow : 0 < m / 2 ^ (m.log2 - 52) * 2 ^ (m.log2 - 52) := by
              refine Nat.mul_pos (Nat.div_pos ?_ (Nat.two_pow_pos _)) (Nat.two_pow_pos _)
              exact (Nat.pow_le_pow_right (by decide) (Nat.sub_le _ _)).trans
                (Nat.log2_self_le (by omega))
            rw [toDouble, if_neg (by omega)]
            dsimp only
            split <;> omega
          rw [roundCount_coe] at h
          by_cases hrange : toDouble m < infinityBound
          · rw [if_pos hrange] at h
            exact hpos.ne' (by exact_mod_cast h)
          · rw [if_neg hrange] at h
            exact absurd h ENat.top_ne_zero
  · rintro rfl
    exact roundCount_of_le zero_le

theorem sumCounts_append (start : ℕ∞) (xs ys : List ℕ∞) :
    sumCounts start (xs ++ ys) = sumCounts (sumCounts start xs) ys :=
  List.foldl_append

/-- **A sum is zero** when there is nothing to add. -/
theorem sumCounts_eq_zero_iff {start : ℕ∞} {counts : List ℕ∞} :
    sumCounts start counts = 0 ↔ start = 0 ∧ ∀ n ∈ counts, n = 0 := by
  induction counts generalizing start with
  | nil => simp [sumCounts]
  | cons n counts ih =>
      have hcons : sumCounts start (n :: counts) = sumCounts (roundCount (start + n)) counts := rfl
      rw [hcons, ih, roundCount_eq_zero_iff, add_eq_zero, List.forall_mem_cons, and_assoc]

/-- Rounded or not, a sum is zero for the same counts. -/
theorem sumCounts_zero_eq_zero_iff {counts : List ℕ∞} :
    sumCounts 0 counts = 0 ↔ counts.sum = 0 := by
  rw [sumCounts_eq_zero_iff, List.sum_eq_zero_iff, and_iff_right rfl]

/-- **Up to `2 ^ 53` a sum is exact.** -/
theorem sumCounts_of_le {start : ℕ∞} {counts : List ℕ∞} (h : start + counts.sum ≤ 2 ^ 53) :
    sumCounts start counts = start + counts.sum := by
  induction counts generalizing start with
  | nil => rw [List.sum_nil, add_zero]; rfl
  | cons n counts ih =>
      rw [List.sum_cons, ← add_assoc] at h ⊢
      have hround := roundCount_of_le ((le_add_right le_rfl).trans h)
      have hcons : sumCounts start (n :: counts) = sumCounts (roundCount (start + n)) counts := rfl
      rw [hcons, hround, ih h]

example : sumCounts 0 [2 ^ 53, 1, 1] = 2 ^ 53 ∧ sumCounts 0 [1, 1, 2 ^ 53] = 2 ^ 53 + 2 := by
  decide +kernel

end Js
