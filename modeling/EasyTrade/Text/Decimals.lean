import Mathlib.Data.Nat.Digits.Defs
import Mathlib.Data.NNRat.Floor
import Mathlib.Algebra.Order.Floor.Semiring
import Mathlib.Data.List.TakeWhile
import Mathlib.Tactic.FieldSimp
import Mathlib.Tactic.Ring

/-!
# Numbers in decimal

Decimal numerals of natural numbers, with leading zeros up to a width where one is asked for;
numbers written with a fixed count of digits after the point; and what a reader makes of such
a text. A number that was written is read back as the number that was written.
-/
namespace EasyTrade.Text

/-! ## Numerals -/

/-- The decimal digits of a number, without leading zeros. -/
def numeral (n : Nat) : List Char := Nat.toDigits 10 n

/-- The decimal digits of a number, with zeros before them up to `width` characters. -/
def padded (width n : Nat) : List Char :=
  List.replicate (width - (numeral n).length) '0' ++ numeral n

/-- The number that decimal digits denote. -/
def numeralValue (text : List Char) : Nat := Nat.ofDigitChars 10 text 0

@[simp] theorem numeralValue_numeral (n : Nat) : numeralValue (numeral n) = n :=
  Nat.ofDigitChars_ten_toDigits

@[simp] theorem numeralValue_padded (width n : Nat) : numeralValue (padded width n) = n := by
  have after : numeralValue (numeral n) = n := numeralValue_numeral n
  simpa [numeralValue, padded, Nat.ofDigitChars_append] using after

theorem isDigit_of_mem_numeral {n : Nat} {c : Char} (member : c ∈ numeral n) :
    c.isDigit = true :=
  Nat.isDigit_of_mem_toDigits (by omega) (by omega) member

theorem numeral_ne_nil (n : Nat) : numeral n ≠ [] := Nat.toDigits_ne_nil

theorem isDigit_of_mem_padded {width n : Nat} {c : Char} (member : c ∈ padded width n) :
    c.isDigit = true := by
  rcases List.mem_append.mp member with zero | digit
  · rw [(List.mem_replicate.mp zero).2]
    decide
  · exact isDigit_of_mem_numeral digit

/-- A number below `10 ^ width` takes exactly `width` characters. -/
theorem length_padded {width n : Nat} (positive : 0 < width) (fits : n < 10 ^ width) :
    (padded width n).length = width := by
  have short : (numeral n).length ≤ width :=
    (Nat.length_toDigits_le_iff (by omega) positive).mpr fits
  simp only [padded, List.length_append, List.length_replicate]
  omega

/-! ## Numbers with digits after the point -/

/-- The natural number nearest to a number, the even one of two. -/
def roundEven (x : ℚ≥0) : Nat :=
  if x - ⌊x⌋₊ < 1 / (2 : ℕ) then ⌊x⌋₊
  else if 1 / (2 : ℕ) < x - ⌊x⌋₊ then ⌊x⌋₊ + 1
  else if ⌊x⌋₊ % 2 = 0 then ⌊x⌋₊ else ⌊x⌋₊ + 1

/-- A finite floating point number. Zero has either sign. -/
structure Double where
  negative : Bool
  magnitude : ℚ≥0
deriving DecidableEq

namespace Double

/-- The magnitude in units of the last of `places` digits after the point, rounded. -/
def units (x : Double) (places : Nat) : Nat := roundEven (x.magnitude * 10 ^ places)

/-- The number that is left when only `places` digits after the point are kept. -/
def rounded (x : Double) (places : Nat) : ℚ :=
  (if x.negative then -1 else 1) * (x.units places / 10 ^ places)

/-- `%.nf`: the sign, the whole part, a point, and `places` digits. -/
def format (x : Double) (places : Nat) : List Char :=
  (if x.negative then ['-'] else []) ++ numeral (x.units places / 10 ^ places) ++
    '.' :: padded places (x.units places % 10 ^ places)

end Double

/-- What follows a point, when a point comes next. -/
def afterPoint : List Char → List Char
  | '.' :: rest => rest
  | _ => []

/-- The sign a text may start with, and what follows it. -/
def signed : List Char → ℚ × List Char
  | '-' :: rest => (-1, rest)
  | '+' :: rest => (1, rest)
  | text => (1, text)

/-- `std::stod` on decimal text: the longest front that is a decimal number, read exactly; none
(`std::invalid_argument`) when not one digit is there. -/
def stod (text : List Char) : Option ℚ :=
  let (sign, text) := signed (text.dropWhile Char.isWhitespace)
  let whole := text.takeWhile Char.isDigit
  let fraction := (afterPoint (text.dropWhile Char.isDigit)).takeWhile Char.isDigit
  if whole = [] ∧ fraction = [] then none
  else some (sign * (numeralValue whole + numeralValue fraction / 10 ^ fraction.length))

/-- A digit is no sign, no point and no white space. -/
theorem signed_of_digit {c : Char} (digit : c.isDigit = true) (rest : List Char) :
    signed (c :: rest) = (1, c :: rest) := by
  have noMinus : c ≠ '-' := fun same => by simp [same] at digit
  have noPlus : c ≠ '+' := fun same => by simp [same] at digit
  unfold signed
  split <;> simp_all

theorem isWhitespace_of_digit {c : Char} (digit : c.isDigit = true) :
    c.isWhitespace = false := by
  by_contra white
  simp only [Char.isWhitespace, Bool.not_eq_false, Bool.or_eq_true, decide_eq_true_eq] at white
  rcases white with ((same | same) | same) | same <;> simp [same] at digit

/-- Digits, a point and digits are read as the number they are. -/
theorem stod_unsigned {whole fraction : List Char} (some_digit : whole ≠ [])
    (digits : ∀ c ∈ whole, c.isDigit = true) (decimals : ∀ c ∈ fraction, c.isDigit = true) :
    stod (whole ++ '.' :: fraction)
      = some ((numeralValue whole : ℚ) + numeralValue fraction / 10 ^ fraction.length) := by
  have taken : (whole ++ '.' :: fraction).takeWhile Char.isDigit = whole := by
    rw [List.takeWhile_append_of_pos digits]
    simp
  have dropped : (whole ++ '.' :: fraction).dropWhile Char.isDigit = '.' :: fraction := by
    rw [List.dropWhile_append_of_pos digits]
    simp
  have after : fraction.takeWhile Char.isDigit = fraction :=
    List.takeWhile_eq_self_iff.mpr decimals
  cases whole with
  | nil => exact absurd rfl some_digit
  | cons c rest =>
    have digit := digits c (by simp)
    have plain : ((c :: rest) ++ '.' :: fraction).dropWhile Char.isWhitespace
        = (c :: rest) ++ '.' :: fraction := by
      simp [isWhitespace_of_digit digit]
    have positive : signed ((c :: rest) ++ '.' :: fraction)
        = (1, (c :: rest) ++ '.' :: fraction) := signed_of_digit digit _
    simp only [stod, plain, positive, taken, dropped, afterPoint, after, reduceCtorEq, false_and,
      if_false, one_mul]

/-- A minus turns the number that is read around. -/
theorem stod_minus {c : Char} {rest : List Char} (digit : c.isDigit = true) :
    stod ('-' :: c :: rest) = (stod (c :: rest)).map (-1 * ·) := by
  have minus : ('-' :: c :: rest).dropWhile Char.isWhitespace = '-' :: c :: rest := rfl
  have plain : (c :: rest).dropWhile Char.isWhitespace = c :: rest := by
    simp [isWhitespace_of_digit digit]
  simp only [stod, minus, plain, signed_of_digit digit]
  simp [signed, digit]

/-- A number that was written with digits after the point is read back as the number that
those digits left of it. -/
theorem stod_format (x : Double) {places : Nat} (positive : 0 < places) :
    stod (x.format places) = some (x.rounded places) := by
  set units := x.units places with same
  have bound : units % 10 ^ places < 10 ^ places := Nat.mod_lt _ (by positivity)
  have unsigned : stod (numeral (units / 10 ^ places) ++ '.' :: padded places (units % 10 ^ places))
      = some ((units : ℚ) / 10 ^ places) := by
    rw [stod_unsigned (numeral_ne_nil _) (fun c => isDigit_of_mem_numeral)
      (fun c => isDigit_of_mem_padded), length_padded positive bound]
    simp only [numeralValue_numeral, numeralValue_padded]
    have split : ((units / 10 ^ places : Nat) : ℚ) * 10 ^ places + (units % 10 ^ places : Nat)
        = units := by
      exact_mod_cast Nat.div_add_mod' units (10 ^ places)
    rw [← split]
    field_simp
  simp only [Double.format, Double.rounded, ← same]
  cases x.negative with
  | false => simpa using unsigned
  | true =>
    cases head : numeral (units / 10 ^ places) with
    | nil => exact absurd head (numeral_ne_nil _)
    | cons c rest =>
      have digit : c.isDigit = true := isDigit_of_mem_numeral (head ▸ List.mem_cons_self)
      rw [head] at unsigned
      have minus := @stod_minus c (rest ++ '.' :: padded places (units % 10 ^ places)) digit
      rw [List.cons_append] at unsigned
      rw [unsigned] at minus
      simpa using minus

end EasyTrade.Text
