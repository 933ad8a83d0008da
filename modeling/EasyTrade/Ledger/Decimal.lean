import Mathlib.Data.Rat.Floor
import Mathlib.Tactic.FieldSimp
import Mathlib.Tactic.Push
import EasyTrade.Ledger.Chain

/-!
# Decimal columns

A decimal column keeps a fixed number of fractional digits; a written value is
rounded, or cut off, to the nearest value of the column. `DecimalColumn` carries
the two laws the ledger needs: a stored value is stored as itself, and storing
two terms and their sum separately is off by at most one unit of the last digit.
-/

namespace EasyTrade.Ledger

/-- A column of decimals: what it stores for a written value. -/
structure DecimalColumn where
  /-- The stored value. -/
  store : ℚ → ℚ
  /-- One unit of the last digit. -/
  unit : ℚ
  /-- A stored value is stored as itself. -/
  store_store : ∀ x, store (store x) = store x
  /-- Two terms and their sum, stored one by one, differ by at most one unit. -/
  drift : ∀ a b, |store a + store b - store (a + b)| ≤ unit

/-- A way to round a rational to an integer. -/
structure Rounding where
  /-- The rounded value. -/
  round : ℚ → ℤ
  /-- An integer is its own rounding. -/
  round_int : ∀ n : ℤ, round n = n
  /-- Two terms and their sum, rounded one by one, differ by at most one. -/
  drift : ∀ a b, |round a + round b - round (a + b)| ≤ 1

namespace Rounding

/-- Round to the nearest integer, halves away from zero. -/
def halfAway (x : ℚ) : ℤ := if 0 ≤ x then ⌊x + 1 / 2⌋ else ⌈x - 1 / 2⌉

/-- Cut off the fraction. -/
def towardZero (x : ℚ) : ℤ := if 0 ≤ x then ⌊x⌋ else ⌈x⌉

theorem halfAway_near (x : ℚ) : |(halfAway x : ℚ) - x| ≤ 1 / 2 := by
  unfold halfAway
  rw [abs_le]
  split
  · have below := Int.floor_le (x + 1 / 2)
    have above := Int.lt_floor_add_one (x + 1 / 2)
    constructor <;> linarith
  · have below := Int.le_ceil (x - 1 / 2)
    have above := Int.ceil_lt_add_one (x - 1 / 2)
    constructor <;> linarith

/-- Cutting off moves a value toward zero, by less than one. -/
theorem towardZero_near (x : ℚ) :
    (0 ≤ x ∧ 0 ≤ x - towardZero x ∧ x - towardZero x < 1) ∨
      (x < 0 ∧ -1 < x - towardZero x ∧ x - towardZero x ≤ 0) := by
  unfold towardZero
  split
  · rename_i nonneg
    have below := Int.floor_le x
    have above := Int.lt_floor_add_one x
    exact .inl ⟨nonneg, by linarith, by linarith⟩
  · rename_i negative
    have below := Int.le_ceil x
    have above := Int.ceil_lt_add_one x
    exact .inr ⟨by linarith, by linarith, by linarith⟩

/-- An integer whose cast lies strictly between -2 and 2 is at most one away from zero. -/
private theorem abs_le_one_of_cast {n : ℤ} (low : (-2 : ℚ) < n) (high : (n : ℚ) < 2) :
    |n| ≤ 1 := by
  have low' : (-2 : ℤ) < n := by exact_mod_cast low
  have high' : n < 2 := by exact_mod_cast high
  rw [abs_le]
  omega

/-- Rounding halves away from zero. -/
def nearest : Rounding where
  round := halfAway
  round_int n := by
    have near := halfAway_near n
    have below : (halfAway n : ℚ) < n + 1 := by rw [abs_le] at near; linarith
    have above : (n : ℚ) < halfAway n + 1 := by rw [abs_le] at near; linarith
    have below' : halfAway n < n + 1 := by exact_mod_cast below
    have above' : n < halfAway n + 1 := by exact_mod_cast above
    omega
  drift a b := by
    have na := abs_le.1 (halfAway_near a)
    have nb := abs_le.1 (halfAway_near b)
    have ns := abs_le.1 (halfAway_near (a + b))
    apply abs_le_one_of_cast <;> push_cast <;> linarith

/-- Cutting off the fraction. -/
def truncation : Rounding where
  round := towardZero
  round_int n := by
    unfold towardZero
    split
    · exact Int.floor_intCast n
    · exact Int.ceil_intCast n
  drift a b := by
    have na := towardZero_near a
    have nb := towardZero_near b
    have ns := towardZero_near (a + b)
    apply abs_le_one_of_cast <;> push_cast <;>
      rcases na with ⟨_, _, _⟩ | ⟨_, _, _⟩ <;> rcases nb with ⟨_, _, _⟩ | ⟨_, _, _⟩ <;>
      rcases ns with ⟨_, _, _⟩ | ⟨_, _, _⟩ <;> linarith

end Rounding

namespace DecimalColumn

/-- A column that stores every value exactly. -/
def exact : DecimalColumn where
  store := id
  unit := 0
  store_store _ := rfl
  drift a b := by simp

private theorem scale_pos (digits : Nat) : (0 : ℚ) < 10 ^ digits := by positivity

/-- A column with a fixed number of fractional digits. -/
def ofRounding (r : Rounding) (digits : Nat) : DecimalColumn where
  store x := r.round (x * 10 ^ digits) / 10 ^ digits
  unit := 1 / 10 ^ digits
  store_store x := by
    have scale := (scale_pos digits).ne'
    rw [div_mul_cancel₀ _ scale, r.round_int]
  drift a b := by
    have scale := scale_pos digits
    rw [← add_div, ← sub_div, abs_div, abs_of_pos scale, div_le_div_iff_of_pos_right scale, add_mul]
    exact_mod_cast r.drift (a * 10 ^ digits) (b * 10 ^ digits)

/-- A value with no more fractional digits than the column has is stored exactly. -/
theorem ofRounding_store_of_fits (r : Rounding) (digits : Nat) {x : ℚ} {n : ℤ}
    (fits : x * 10 ^ digits = n) : (ofRounding r digits).store x = x := by
  have scale := (scale_pos digits).ne'
  simp only [ofRounding, fits, r.round_int]
  rw [← fits, mul_div_cancel_right₀ _ scale]

end DecimalColumn

/-- Rows that chain in memory chain in the stored columns up to one unit at each
junction. -/
theorem Chain.stored (c : DecimalColumn) {rows : List (Row ℚ)} {start final : ℚ}
    (h : Chain start rows final) :
    NearChain c.unit (c.store start)
      (rows.map fun row => ⟨c.store row.old, c.store row.change⟩) (c.store final) := by
  induction rows generalizing start with
  | nil => rw [show start = final from h]; rfl
  | cons row rest ih =>
    obtain ⟨first, tail⟩ := h
    exact ⟨congrArg c.store first, c.store (row.old + row.change), c.drift _ _, ih tail⟩

end EasyTrade.Ledger
