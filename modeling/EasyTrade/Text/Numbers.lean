import EasyTrade.Text.Decimals

/-!
# Numbers that `strtod` reads

Decimal and hexadecimal numbers with an exponent, infinities and what is not a number: the longest
front of a text that is one. Numbers are exact.
-/

namespace EasyTrade.Text

/-- A number that `strtod` can read. -/
inductive Number where
  | finite (value : ℚ)
  | infinite (negative : Bool)
  | nan
  deriving DecidableEq

namespace Number

/-- `+`. -/
def add : Number → Number → Number
  | finite x, finite y => finite (x + y)
  | infinite s, infinite t => if s = t then infinite s else nan
  | infinite s, finite _ => infinite s
  | finite _, infinite t => infinite t
  | _, _ => nan

/-- `/` by a positive integer. -/
def divBy : Number → Nat → Number
  | finite x, n => finite (x / n)
  | number, _ => number

/-- `-`. -/
def neg : Number → Number
  | finite x => finite (-x)
  | infinite s => infinite !s
  | nan => nan

/-- The number with a sign. -/
def withSign (negative : Bool) (number : Number) : Number := if negative then number.neg else number

end Number

/-! ## Reading -/

/-- The value of digits; letters are digits from ten on. -/
def digitsValue (base : Nat) (digits : List Char) : Nat :=
  digits.foldl (fun n c => n * base +
    if c.isDigit then c.toNat - '0'.toNat else c.toLower.toNat - 'a'.toNat + 10) 0

/-- The sign a text may start with, and what follows it. -/
def signOf : List Char → Bool × List Char
  | '-' :: rest => (true, rest)
  | '+' :: rest => (false, rest)
  | text => (false, text)

/-- A text starts with a word, in any case. -/
def startsWith (word : String) (text : List Char) : Bool :=
  (text.map Char.toLower).take word.length == word.toList

/-- The factor that an exponent stands for; `mark` introduces it. -/
def exponent (mark : Char) (base : Nat) : List Char → ℚ
  | [] => 1
  | c :: rest =>
    let (negative, rest) := signOf rest
    let digits := rest.takeWhile Char.isDigit
    if c.toLower ≠ mark ∨ digits = [] then 1
    else if negative then 1 / (base ^ digitsValue 10 digits : Nat)
    else (base ^ digitsValue 10 digits : Nat)

/-- Digits, perhaps a point and digits, perhaps an exponent; none without a digit. -/
def mantissa (isDigit : Char → Bool) (base : Nat) (mark : Char) (exponentBase : Nat)
    (text : List Char) : Option ℚ :=
  let whole := text.takeWhile isDigit
  let rest := text.dropWhile isDigit
  let fraction := (afterPoint rest).takeWhile isDigit
  let rest := if rest.head? = some '.' then (afterPoint rest).dropWhile isDigit else rest
  if whole = [] ∧ fraction = [] then none
  else some ((digitsValue base whole + digitsValue base fraction / base ^ fraction.length) *
    exponent mark exponentBase rest)

/-- A number without its sign. -/
def magnitude (text : List Char) : Option Number :=
  if startsWith "inf" text then some (.infinite false)
  else if startsWith "nan" text then some .nan
  else
    let hexadecimal :=
      if startsWith "0x" text then mantissa Char.isHexDigit 16 'p' 2 (text.drop 2) else none
    match hexadecimal with
    | some value => some (.finite value)
    | none => (mantissa Char.isDigit 10 'e' 10 text).map .finite

/-- `isspace`. -/
def isSpace (c : Char) : Bool := c.isWhitespace || c == '\x0b' || c == '\x0c'

/-- `strtod`: the number that a text starts with. -/
def strtod (text : List Char) : Option Number :=
  let (negative, text) := signOf (text.dropWhile isSpace)
  (magnitude text).map (Number.withSign negative)

/-- What `std::stod` throws. -/
inductive StodError where
  | invalidArgument
  | outOfRange
  deriving DecidableEq

namespace Number

/-- `std::stod`. Which numbers are in the range of `double` is `inRange`: of numbers that are too
small for it, implementations take their own view. -/
def stod (inRange : ℚ → Bool) (text : List Char) : Except StodError Number :=
  match strtod text with
  | none => .error .invalidArgument
  | some (finite value) => if inRange value then .ok (finite value) else .error .outOfRange
  | some number => .ok number

/-- What `std::stod` can do. -/
theorem stod_cases (inRange : ℚ → Bool) (text : List Char) :
    (stod inRange text = .error .invalidArgument ∧ strtod text = none) ∨
    (∃ number, stod inRange text = .ok number ∧ strtod text = some number) ∨
    (stod inRange text = .error .outOfRange ∧
      ∃ value, strtod text = some (finite value) ∧ inRange value = false) := by
  rw [stod]
  rcases strtod text with _ | (value | sign | _)
  · exact Or.inl ⟨rfl, rfl⟩
  · cases fits : inRange value with
    | true => exact Or.inr (Or.inl ⟨finite value, by simp [fits], rfl⟩)
    | false => exact Or.inr (Or.inr ⟨by simp [fits], value, rfl, fits⟩)
  · exact Or.inr (Or.inl ⟨infinite sign, rfl, rfl⟩)
  · exact Or.inr (Or.inl ⟨nan, rfl, rfl⟩)

end Number

example : Number.stod (fun x => |x| < 2 ^ 1024) "1.5e2x".toList = .ok (.finite 150) := by
  decide +kernel

example : Number.stod (fun x => |x| < 2 ^ 1024) "-0x1.8p1".toList = .ok (.finite (-3)) := by
  decide +kernel

/-! ## Decimal text -/

/-- What a number in decimal is made of. -/
def IsPlainChar (c : Char) : Prop := c.isDigit = true ∨ c = '-' ∨ c = '.' ∨ c = ':'

theorem IsPlainChar.not_space {c : Char} (plain : IsPlainChar c) :
    isSpace c = false ∧ c.isWhitespace = false := by
  rcases plain with digit | rfl | rfl | rfl
  · have white := isWhitespace_of_digit digit
    refine ⟨?_, white⟩
    have noTab : c ≠ '\x0b' := fun same => by simp [same] at digit
    have noFeed : c ≠ '\x0c' := fun same => by simp [same] at digit
    simp [isSpace, white, noTab, noFeed]
  all_goals decide

/-- No letter is among them. -/
theorem IsPlainChar.toLower_ne {c mark : Char} (plain : IsPlainChar c)
    (letter : mark.isAlpha = true) : c.toLower ≠ mark := by
  have same : c.toLower = c := by
    rcases plain with digit | rfl | rfl | rfl
    · have bound : ¬(c.val ≥ 'A'.val ∧ c.val ≤ 'Z'.val) := by
        simp only [Char.isDigit, Bool.and_eq_true, decide_eq_true_eq] at digit
        rintro ⟨above, -⟩
        exact absurd (UInt32.le_trans above digit.2) (by decide)
      exact dif_neg bound
    all_goals rfl
  rintro rfl
  rw [same] at letter
  rcases plain with digit | rfl | rfl | rfl
  · simp only [Char.isDigit, Bool.and_eq_true, decide_eq_true_eq] at digit
    rcases Bool.or_eq_true_iff.mp letter with upper | lower
    · have above : 'A'.val ≤ c.val := (of_decide_eq_true upper).1
      exact absurd (UInt32.le_trans above digit.2) (by decide)
    · have above : 'a'.val ≤ c.val := of_decide_eq_true (Bool.and_eq_true_iff.mp lower).1
      exact absurd (UInt32.le_trans above digit.2) (by decide)
  all_goals exact absurd letter (by decide)

theorem digitsValue_eq {digits : List Char} (all : ∀ c ∈ digits, c.isDigit = true) :
    digitsValue 10 digits = numeralValue digits := by
  rw [digitsValue, numeralValue, Nat.ofDigitChars_eq_foldl]
  refine List.foldl_ext _ _ _ fun n c listed => ?_
  rw [if_pos (all c listed), mul_comm]

/-- A word with a letter does not start such a text. -/
theorem startsWith_of_plain {text : List Char} (plain : ∀ c ∈ text, IsPlainChar c) {word : String}
    {mark : Char} (member : mark ∈ word.toList) (letter : mark.isAlpha = true) :
    startsWith word text = false := by
  rw [startsWith, beq_eq_false_iff_ne]
  intro same
  rw [← same] at member
  obtain ⟨c, listed, rfl⟩ := List.mem_map.mp (List.mem_of_mem_take member)
  exact (plain c listed).toLower_ne letter rfl

/-- Where no letter is, there is no exponent. -/
theorem exponent_of_plain {text : List Char} (plain : ∀ c ∈ text, IsPlainChar c) (base : Nat) :
    exponent 'e' base text = 1 := by
  cases text with
  | nil => rfl
  | cons c rest =>
    have other := (plain c (List.mem_cons_self ..)).toLower_ne (by decide : 'e'.isAlpha = true)
    exact if_pos (Or.inl other)

theorem afterPoint_sublist (text : List Char) : (afterPoint text).Sublist text := by
  unfold afterPoint
  split
  · exact List.sublist_cons_self _ _
  · exact List.nil_sublist _

/-- A decimal number without letters has no exponent. -/
theorem mantissa_of_plain {text : List Char} (plain : ∀ c ∈ text, IsPlainChar c) :
    mantissa Char.isDigit 10 'e' 10 text =
      if text.takeWhile Char.isDigit = [] ∧
        (afterPoint (text.dropWhile Char.isDigit)).takeWhile Char.isDigit = [] then none
      else some ((numeralValue (text.takeWhile Char.isDigit) : ℚ) +
        numeralValue ((afterPoint (text.dropWhile Char.isDigit)).takeWhile Char.isDigit) /
          10 ^ ((afterPoint (text.dropWhile Char.isDigit)).takeWhile Char.isDigit).length) := by
  have digits : ∀ text : List Char, ∀ c ∈ text.takeWhile Char.isDigit, c.isDigit = true :=
    fun _ _ member => List.mem_takeWhile_imp member
  have after : ∀ c ∈ afterPoint (text.dropWhile Char.isDigit), c ∈ text := fun c member =>
    (List.dropWhile_sublist _).subset ((afterPoint_sublist _).subset member)
  have rest : ∀ c ∈ (if (text.dropWhile Char.isDigit).head? = some '.' then
      (afterPoint (text.dropWhile Char.isDigit)).dropWhile Char.isDigit
      else text.dropWhile Char.isDigit), IsPlainChar c := fun c member => by
    split_ifs at member
    · exact plain c (after c ((List.dropWhile_sublist _).subset member))
    · exact plain c ((List.dropWhile_sublist _).subset member)
  rw [mantissa, digitsValue_eq (digits _), digitsValue_eq (digits _), exponent_of_plain rest,
    mul_one, Nat.cast_ofNat]

/-- On such text the numbers are the decimal ones. -/
theorem strtod_of_plain {text : List Char} (plain : ∀ c ∈ text, IsPlainChar c) :
    strtod text = (Text.stod text).map .finite := by
  have spaces : text.dropWhile isSpace = text ∧ text.dropWhile Char.isWhitespace = text := by
    cases text with
    | nil => exact ⟨rfl, rfl⟩
    | cons c rest =>
      have none_ := (plain c (List.mem_cons_self ..)).not_space
      simp [none_.1, none_.2]
  have sign : ∀ c ∈ (signOf text).2, IsPlainChar c := by
    unfold signOf
    split
    · exact fun c member => plain c (List.mem_cons_of_mem _ member)
    · exact fun c member => plain c (List.mem_cons_of_mem _ member)
    · exact plain
  have same : signed text = (if (signOf text).1 then -1 else 1, (signOf text).2) := by
    unfold signOf signed
    split <;> simp_all
  have unsigned : magnitude (signOf text).2 =
      (mantissa Char.isDigit 10 'e' 10 (signOf text).2).map .finite := by
    rw [magnitude, startsWith_of_plain sign (by decide : 'i' ∈ "inf".toList) (by decide),
      startsWith_of_plain sign (by decide : 'n' ∈ "nan".toList) (by decide),
      startsWith_of_plain sign (by decide : 'x' ∈ "0x".toList) (by decide)]
    rfl
  rw [strtod, spaces.1, Text.stod, spaces.2, same]
  dsimp only
  rw [unsigned, mantissa_of_plain sign]
  split_ifs with none_ negative
  · rfl
  · simp only [Option.map_some, Number.withSign, if_pos negative, Number.neg, neg_one_mul]
  · simp only [Option.map_some, Number.withSign, if_neg negative, one_mul]

end EasyTrade.Text
