import Mathlib.Algebra.Order.Field.Basic
import Mathlib.Algebra.Order.AbsoluteValue.Basic
import Mathlib.Tactic.FieldSimp
import Mathlib.Tactic.Linarith
import Mathlib.Tactic.Ring

/-!
# Straight lines

The straight line from one value to another over a length. Between its ends it stays between the
values; beyond them it goes on.
-/

namespace EasyTrade.Numeric

variable {K : Type*} [Field K]

/-- The value after `t` of the `length` on the line from `start` to `stop`. -/
def along (start stop length t : K) : K := start + (stop - start) / length * t

@[simp] theorem along_zero (start stop length : K) : along start stop length 0 = start := by
  rw [along, mul_zero, add_zero]

theorem along_length (start stop : K) {length : K} (positive : length ≠ 0) :
    along start stop length length = stop := by
  rw [along, div_mul_cancel₀ _ positive, add_sub_cancel]

/-- A line is as steep everywhere. -/
theorem along_add (start stop length t more : K) :
    along start stop length (t + more) =
      along start stop length t + (stop - start) / length * more := by
  simp only [along]
  ring

/-- Beyond its end a line goes on from there. -/
theorem along_length_add (start stop : K) {length : K} (positive : length ≠ 0) (more : K) :
    along start stop length (length + more) = stop + (stop - start) / length * more := by
  rw [along_add, along_length start stop positive]

variable [LinearOrder K] [IsStrictOrderedRing K] {start stop length low high t : K}

/-- Between its ends a line stays between bounds of its ends. -/
theorem along_mem (positive : 0 < length) (after : 0 ≤ t) (before : t ≤ length)
    (startIn : start ∈ Set.Icc low high) (stopIn : stop ∈ Set.Icc low high) :
    along start stop length t ∈ Set.Icc low high := by
  -- A weighted mean of the two ends.
  have mean : along start stop length t = (1 - t / length) * start + t / length * stop := by
    simp only [along]
    ring
  have weight : 0 ≤ t / length := div_nonneg after positive.le
  have rest : 0 ≤ 1 - t / length := sub_nonneg.mpr ((div_le_one positive).mpr before)
  have lowest : (1 - t / length) * low + t / length * low = low := by ring
  have highest : (1 - t / length) * high + t / length * high = high := by ring
  rw [mean]
  constructor
  · rw [← lowest]
    exact add_le_add (mul_le_mul_of_nonneg_left startIn.1 rest)
      (mul_le_mul_of_nonneg_left stopIn.1 weight)
  · rw [← highest]
    exact add_le_add (mul_le_mul_of_nonneg_left startIn.2 rest)
      (mul_le_mul_of_nonneg_left stopIn.2 weight)

/-- How much a line between bounds rises over a time. -/
theorem rise_le (positive : 0 < length) (startIn : start ∈ Set.Icc low high)
    (stopIn : stop ∈ Set.Icc low high) (after : 0 ≤ t) :
    (stop - start) / length * t ≤ (high - low) / length * t := by
  have steep : stop - start ≤ high - low := by linarith [startIn.1, stopIn.2]
  exact mul_le_mul_of_nonneg_right (div_le_div_of_nonneg_right steep positive.le) after

/-- How much a line between bounds falls over a time. -/
theorem neg_le_rise (positive : 0 < length) (startIn : start ∈ Set.Icc low high)
    (stopIn : stop ∈ Set.Icc low high) (after : 0 ≤ t) :
    -((high - low) / length * t) ≤ (stop - start) / length * t := by
  have steep := rise_le positive stopIn startIn after
  have turned : (start - stop) / length * t = -((stop - start) / length * t) := by ring
  rw [turned] at steep
  exact neg_le.mp steep

end EasyTrade.Numeric
