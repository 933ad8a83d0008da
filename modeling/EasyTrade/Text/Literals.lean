import EasyTrade.Text.Numbers
import Mathlib.Tactic.Positivity
import Mathlib.Tactic.Linarith

/-!
# Literals as Python writes them and SQL reads them

A written number is a sign, digits, perhaps a point and digits, perhaps an exponent. `str` of an
`int` and of a finite `float` are such texts; a reader of numeric literals takes exactly that text
from the front of a longer one and finds the number.

Between quotes a text stands for itself, with a quote for each two quotes. A text that is put
between quotes as it is, is read back only if it has no quote.
-/

namespace EasyTrade.Text

/-! ## Reading -/

/-- An exponent in front of a text, zero if there is none, and what follows it. -/
def readExponent : List Char → Int × List Char
  | [] => (0, [])
  | c :: rest =>
    if c = 'e' ∨ c = 'E' then
      let (negative, rest) := signOf rest
      let digits := rest.takeWhile Char.isDigit
      (if negative then -numeralValue digits else numeralValue digits, rest.dropWhile Char.isDigit)
    else (0, c :: rest)

/-- The digits after a point in front of a text, and what follows them. -/
def readFraction : List Char → List Char × List Char
  | '.' :: rest => (rest.takeWhile Char.isDigit, rest.dropWhile Char.isDigit)
  | text => ([], text)

/-- The numeric literal in front of a text, and what follows it. -/
def readNumber (text : List Char) : Option (ℚ × List Char) :=
  let (negative, text) := signOf text
  let whole := text.takeWhile Char.isDigit
  let (fraction, rest) := readFraction (text.dropWhile Char.isDigit)
  if whole = [] ∧ fraction = [] then none
  else
    let (exponent, rest) := readExponent rest
    some ((if negative then -1 else 1) *
      (numeralValue (whole ++ fraction) * 10 ^ (exponent - fraction.length)), rest)

/-! ## Writing -/

/-- The parts of a written number. -/
structure NumberText where
  negative : Bool
  whole : List Char
  /-- The digits after the point; without them there is no point. -/
  fraction : List Char
  exponent : Option Int

namespace NumberText

/-- The exponent as it is written, with two digits at least. -/
def exponentText : Option Int → List Char
  | none => []
  | some e => 'e' :: (if e < 0 then '-' else '+') :: padded 2 e.natAbs

/-- The text. -/
def text (number : NumberText) : List Char :=
  (if number.negative then ['-'] else []) ++ (number.whole ++
    ((if number.fraction = [] then [] else '.' :: number.fraction) ++ exponentText number.exponent))

/-- The number. -/
def value (number : NumberText) : ℚ :=
  (if number.negative then -1 else 1) * (numeralValue (number.whole ++ number.fraction) *
    10 ^ (number.exponent.getD 0 - number.fraction.length))

/-- There are digits before the point, and digits only. -/
structure WellFormed (number : NumberText) : Prop where
  whole_ne_nil : number.whole ≠ []
  whole : ∀ c ∈ number.whole, c.isDigit = true
  fraction : ∀ c ∈ number.fraction, c.isDigit = true

end NumberText

/-- A text that no number goes on into. -/
def EndsNumber (rest : List Char) : Prop :=
  ∀ c ∈ rest.head?, c.isDigit = false ∧ c ≠ '.' ∧ c ≠ 'e' ∧ c ≠ 'E'

/-! ## What was written is read -/

theorem takeWhile_digits {digits : List Char} (all : ∀ c ∈ digits, c.isDigit = true)
    {rest : List Char} (stop : ∀ c ∈ rest.head?, c.isDigit = false) :
    (digits ++ rest).takeWhile Char.isDigit = digits ∧
      (digits ++ rest).dropWhile Char.isDigit = rest := by
  rw [List.takeWhile_append_of_pos all, List.dropWhile_append_of_pos all]
  cases rest with
  | nil => simp
  | cons c rest =>
    have other := stop c rfl
    simp [other]

theorem readExponent_of_ends {rest : List Char} (ends : EndsNumber rest) :
    readExponent rest = (0, rest) := by
  cases rest with
  | nil => rfl
  | cons c rest =>
    obtain ⟨-, -, noLower, noUpper⟩ := ends c rfl
    rw [readExponent, if_neg (by simp [noLower, noUpper])]

/-- An exponent is read back. -/
theorem readExponent_exponentText (exponent : Option Int) {rest : List Char}
    (ends : EndsNumber rest) :
    readExponent (NumberText.exponentText exponent ++ rest) = (exponent.getD 0, rest) := by
  cases exponent with
  | none => exact readExponent_of_ends ends
  | some e =>
    have all : ∀ c ∈ padded 2 e.natAbs, c.isDigit = true := fun c member =>
      isDigit_of_mem_padded member
    obtain ⟨taken, dropped⟩ := takeWhile_digits all (fun c first => (ends c first).1)
    have sign : signOf ((if e < 0 then '-' else '+') :: (padded 2 e.natAbs ++ rest)) =
        (decide (e < 0), padded 2 e.natAbs ++ rest) := by
      by_cases negative : e < 0 <;> simp [negative, signOf]
    rw [NumberText.exponentText, List.cons_append, List.cons_append, readExponent,
      if_pos (Or.inl rfl), sign]
    dsimp only
    rw [taken, dropped, numeralValue_padded]
    by_cases negative : e < 0
    · simp only [negative, decide_true, if_true, Option.getD_some, Prod.mk.injEq, and_true]
      omega
    · simp only [negative, decide_false, Option.getD_some, Prod.mk.injEq, and_true]
      simp only [Bool.false_eq_true, if_false]
      omega

/-- An exponent does not begin like digits or a fraction. -/
theorem head_exponentText (exponent : Option Int) {rest : List Char} (ends : EndsNumber rest) :
    ∀ c ∈ (NumberText.exponentText exponent ++ rest).head?, c.isDigit = false ∧ c ≠ '.' := by
  cases exponent with
  | none => exact fun c first => ⟨(ends c first).1, (ends c first).2.1⟩
  | some e =>
    intro c first
    obtain rfl := Option.some.inj first
    decide

/-- A fraction is read back. -/
theorem readFraction_text {fraction : List Char} (digits : ∀ c ∈ fraction, c.isDigit = true)
    {rest : List Char} (stop : ∀ c ∈ rest.head?, c.isDigit = false ∧ c ≠ '.') :
    readFraction ((if fraction = [] then [] else '.' :: fraction) ++ rest) = (fraction, rest) := by
  by_cases none_ : fraction = []
  · subst none_
    rw [if_pos rfl, List.nil_append]
    unfold readFraction
    split
    · exact absurd rfl (stop _ rfl).2
    · rfl
  · obtain ⟨taken, dropped⟩ := takeWhile_digits digits fun c first => (stop c first).1
    rw [if_neg none_, List.cons_append, readFraction, taken, dropped]

theorem signOf_of_digit {c : Char} (digit : c.isDigit = true) (rest : List Char) :
    signOf (c :: rest) = (false, c :: rest) := by
  have noMinus : c ≠ '-' := fun same => by simp [same] at digit
  have noPlus : c ≠ '+' := fun same => by simp [same] at digit
  unfold signOf
  split <;> simp_all

/-- A written number is read back. -/
theorem readNumber_text {number : NumberText} (formed : number.WellFormed) {rest : List Char}
    (ends : EndsNumber rest) :
    readNumber (number.text ++ rest) = some (number.value, rest) := by
  have tail := head_exponentText number.exponent ends
  have sign : signOf (number.text ++ rest) = (number.negative, number.whole ++
      ((if number.fraction = [] then [] else '.' :: number.fraction) ++
        (NumberText.exponentText number.exponent ++ rest))) := by
    rw [NumberText.text]
    cases negative : number.negative with
    | true => simp [signOf]
    | false =>
      obtain ⟨c, whole, split⟩ := List.exists_cons_of_ne_nil formed.whole_ne_nil
      have first := formed.whole c (by simp [split])
      simp only [split, Bool.false_eq_true, if_false, List.nil_append, List.cons_append,
        List.append_assoc]
      exact signOf_of_digit first _
  have point : ∀ c ∈ ((if number.fraction = [] then [] else '.' :: number.fraction) ++
      (NumberText.exponentText number.exponent ++ rest)).head?, c.isDigit = false := by
    by_cases none_ : number.fraction = []
    · rw [if_pos none_, List.nil_append]
      exact fun c first => (tail c first).1
    · rw [if_neg none_]
      intro c first
      obtain rfl := Option.some.inj first
      decide
  obtain ⟨taken, dropped⟩ := takeWhile_digits formed.whole point
  have some_ : ¬(number.whole = [] ∧ number.fraction = []) := fun none_ =>
    formed.whole_ne_nil none_.1
  rw [readNumber, sign]
  dsimp only
  rw [taken, dropped, readFraction_text formed.fraction tail]
  dsimp only
  rw [if_neg some_, readExponent_exponentText number.exponent ends]
  rfl

/-! ## Python -/

/-- `str` of an `int`. -/
def intText (n : Int) : List Char :=
  NumberText.text ⟨n < 0, numeral n.natAbs, [], none⟩

/-- A `float`. A finite one is known by the shortest digits that denote it and the place of the point
among them. -/
inductive PyFloat where
  | finite (negative : Bool) (digits : Nat) (point : Int)
  | infinite (negative : Bool)
  | nan
  deriving DecidableEq

namespace PyFloat

/-- How `repr` writes a finite number: with an exponent if the point is far from the digits. -/
def parts (negative : Bool) (digits : Nat) (point : Int) : NumberText :=
  let ds := numeral digits
  if -4 < point ∧ point ≤ 16 then
    if point ≤ 0 then ⟨negative, ['0'], List.replicate (-point).toNat '0' ++ ds, none⟩
    else if ds.length ≤ point.toNat then
      ⟨negative, ds ++ List.replicate (point.toNat - ds.length) '0', ['0'], none⟩
    else ⟨negative, ds.take point.toNat, ds.drop point.toNat, none⟩
  else ⟨negative, ds.take 1, ds.drop 1, some (point - 1)⟩

/-- `repr`. -/
def repr : PyFloat → List Char
  | finite negative digits point => (parts negative digits point).text
  | infinite negative => (if negative then "-inf" else "inf").toList
  | nan => "nan".toList

/-- The number that is denoted. -/
def value? : PyFloat → Option ℚ
  | finite negative digits point =>
    some ((if negative then -1 else 1) * (digits * 10 ^ (point - (numeral digits).length)))
  | _ => none

theorem wellFormed_parts (negative : Bool) (digits : Nat) (point : Int) :
    (parts negative digits point).WellFormed := by
  have ds : ∀ c ∈ numeral digits, c.isDigit = true := fun c member => isDigit_of_mem_numeral member
  have zero : ∀ n, ∀ c ∈ List.replicate n '0', c.isDigit = true := fun n c member => by
    rw [(List.mem_replicate.mp member).2]
    rfl
  have nonempty := numeral_ne_nil digits
  have length := List.length_pos_iff.mpr nonempty
  rw [parts]
  split_ifs with near small short
  · exact ⟨by simp, zero 1, List.forall_mem_append.mpr ⟨zero _, ds⟩⟩
  · exact ⟨by simp [nonempty], List.forall_mem_append.mpr ⟨ds, zero _⟩, zero 1⟩
  · refine ⟨?_, fun c member => ds c (List.mem_of_mem_take member),
      fun c member => ds c (List.mem_of_mem_drop member)⟩
    rw [← List.length_pos_iff, List.length_take]
    omega
  · refine ⟨?_, fun c member => ds c (List.mem_of_mem_take member),
      fun c member => ds c (List.mem_of_mem_drop member)⟩
    rw [← List.length_pos_iff, List.length_take]
    omega

/-- However the digits are written, the number is the same. -/
theorem value_parts (negative : Bool) (digits : Nat) (point : Int) :
    (parts negative digits point).value =
      (if negative then -1 else 1) * (digits * 10 ^ (point - (numeral digits).length)) := by
  have ten : (10 : ℚ) ≠ 0 := by norm_num
  have after : numeralValue (numeral digits) = digits := numeralValue_numeral digits
  have length := List.length_pos_iff.mpr (numeral_ne_nil digits)
  by_cases near : -4 < point ∧ point ≤ 16
  · rw [parts, if_pos near]
    by_cases small : point ≤ 0
    · have whole : numeralValue (['0'] ++ (List.replicate (-point).toNat '0' ++ numeral digits)) =
          digits := by
        simpa only [numeralValue, List.singleton_append, Nat.ofDigitChars_cons,
          Nat.ofDigitChars_append, Nat.ofDigitChars_replicate_zero, Nat.sub_self, mul_zero,
          add_zero] using after
      have place : (0 : Int) - (List.replicate (-point).toNat '0' ++ numeral digits).length =
          point - (numeral digits).length := by
        rw [List.length_append, List.length_replicate]
        omega
      rw [if_pos small]
      simp only [NumberText.value, whole, Option.getD_none, place]
    · rw [if_neg small]
      by_cases short : (numeral digits).length ≤ point.toNat
      · have whole : numeralValue ((numeral digits ++
            List.replicate (point.toNat - (numeral digits).length) '0') ++ ['0']) =
            digits * 10 ^ (point.toNat - (numeral digits).length) * 10 := by
          simp only [numeralValue, Nat.ofDigitChars_append, Nat.ofDigitChars_replicate_zero,
            Nat.ofDigitChars_cons, Nat.ofDigitChars_nil] at after ⊢
          rw [after, Nat.sub_self]
          ring
        have place : point - ((numeral digits).length : Int) =
            ((point.toNat - (numeral digits).length : Nat) : Int) := by omega
        have one : (0 : Int) - (['0'].length : Nat) = -1 := rfl
        rw [if_pos short]
        simp only [NumberText.value, whole, Option.getD_none, one, place, zpow_natCast,
          zpow_neg_one]
        push_cast
        field_simp
      · have place : (0 : Int) - ((numeral digits).drop point.toNat).length =
            point - (numeral digits).length := by
          rw [List.length_drop]
          omega
        rw [if_neg short]
        simp only [NumberText.value, List.take_append_drop, Option.getD_none, place, after]
  · have place : point - 1 - ((numeral digits).drop 1).length =
        point - (numeral digits).length := by
      rw [List.length_drop]
      omega
    rw [parts, if_neg near]
    simp only [NumberText.value, List.take_append_drop, Option.getD_some, place, after]

/-- What `repr` writes for a finite number is read back; for no other is a number read. -/
theorem readNumber_repr (x : PyFloat) {rest : List Char} (ends : EndsNumber rest) :
    readNumber (x.repr ++ rest) = x.value?.map fun value => (value, rest) := by
  cases x with
  | finite negative digits point =>
    rw [repr, readNumber_text (wellFormed_parts negative digits point) ends, value_parts]
    rfl
  | infinite negative => cases negative <;> rfl
  | nan => rfl

end PyFloat

theorem wellFormed_int (n : Int) : NumberText.WellFormed ⟨n < 0, numeral n.natAbs, [], none⟩ :=
  ⟨numeral_ne_nil _, fun c member => isDigit_of_mem_numeral member, by simp⟩

theorem readNumber_intText (n : Int) {rest : List Char} (ends : EndsNumber rest) :
    readNumber (intText n ++ rest) = some ((n : ℚ), rest) := by
  have value : NumberText.value ⟨n < 0, numeral n.natAbs, [], none⟩ = n := by
    have digits : numeralValue (numeral n.natAbs) = n.natAbs := numeralValue_numeral _
    simp only [NumberText.value, List.append_nil, digits, Option.getD_none, List.length_nil,
      Nat.cast_zero, sub_zero, zpow_zero, mul_one, decide_eq_true_eq]
    rcases lt_or_ge n 0 with negative | nonneg
    · have turned := congrArg (fun m : Int => (m : ℚ)) (Int.ofNat_natAbs_of_nonpos negative.le)
      simp only [Int.cast_natCast, Int.cast_neg] at turned
      rw [if_pos negative, turned]
      ring
    · have same := congrArg (fun m : Int => (m : ℚ)) (Int.natAbs_of_nonneg nonneg)
      simp only [Int.cast_natCast] at same
      rw [if_neg (not_lt.mpr nonneg), one_mul, same]
  rw [intText, readNumber_text (wellFormed_int n) ends, value]

/-! ## Quoted text -/

/-- The text up to a closing quote, and what follows it; two quotes are one. -/
def readQuoted : List Char → Option (List Char × List Char)
  | [] => none
  | '"' :: '"' :: rest => (readQuoted rest).map fun (text, rest) => ('"' :: text, rest)
  | '"' :: rest => some ([], rest)
  | c :: rest => (readQuoted rest).map fun (text, rest) => (c :: text, rest)

/-- A text with its quotes doubled. -/
def doubled (text : List Char) : List Char :=
  text.flatMap fun c => if c = '"' then ['"', '"'] else [c]

/-- What is read stood there with its quotes doubled. -/
theorem eq_of_readQuoted {text value rest : List Char}
    (read : readQuoted text = some (value, rest)) : text = doubled value ++ '"' :: rest := by
  induction text using readQuoted.induct generalizing value rest with
  | case1 => cases read
  | case2 more ih =>
    rw [readQuoted, Option.map_eq_some_iff] at read
    obtain ⟨⟨inner, after⟩, here, same⟩ := read
    obtain ⟨rfl, rfl⟩ := Prod.mk.inj same
    rw [ih here]
    simp [doubled]
  | case3 more single =>
    rw [readQuoted] at read
    · obtain ⟨rfl, rfl⟩ := Prod.mk.inj (Option.some.inj read)
      rfl
    · exact single
  | case4 c more notTwo notQuote ih =>
    rw [readQuoted, Option.map_eq_some_iff] at read
    · obtain ⟨⟨inner, after⟩, here, same⟩ := read
      obtain ⟨rfl, rfl⟩ := Prod.mk.inj same
      have other : c ≠ '"' := notQuote
      rw [ih here]
      simp [doubled, other]
    · exact notTwo
    · exact notQuote

/-- Quotes before a text with doubled quotes are not a text that ends with a single quote. -/
theorem quotes_ne {text more rest : List Char} (single : ∀ c ∈ rest.head?, c ≠ '"') (n : Nat) :
    List.replicate (n + 1) '"' ++ (doubled text ++ '"' :: more) ≠ text ++ '"' :: rest := by
  induction text generalizing n with
  | nil =>
    intro same
    cases n with
    | zero =>
      obtain rfl := (List.cons.inj same).2
      exact single '"' rfl rfl
    | succ n =>
      obtain rfl := (List.cons.inj same).2
      exact single '"' rfl rfl
  | cons c text ih =>
    intro same
    obtain ⟨rfl, after⟩ := List.cons.inj same
    have shifted : List.replicate (n + 1 + 1) '"' ++ (doubled text ++ '"' :: more) =
        List.replicate n '"' ++ (doubled ('"' :: text) ++ '"' :: more) := by
      simp [doubled, List.replicate_succ']
    exact ih (n + 1) (shifted.trans after)

theorem doubled_of_notMem {text : List Char} (plain : '"' ∉ text) : doubled text = text := by
  induction text with
  | nil => rfl
  | cons c text ih =>
    have other : c ≠ '"' := fun quote => plain (quote ▸ List.mem_cons_self ..)
    have later := ih fun member => plain (List.mem_cons_of_mem _ member)
    rw [doubled, List.flatMap_cons, if_neg other]
    exact congrArg (c :: ·) later

theorem readQuoted_of_notMem {text : List Char} (plain : '"' ∉ text) {rest : List Char}
    (single : ∀ c ∈ rest.head?, c ≠ '"') :
    readQuoted (text ++ '"' :: rest) = some (text, rest) := by
  induction text with
  | nil =>
    rw [List.nil_append, readQuoted]
    intro more same
    exact single '"' (by rw [same]; rfl) rfl
  | cons c text ih =>
    have other : c ≠ '"' := fun quote => plain (quote ▸ List.mem_cons_self ..)
    rw [List.cons_append, readQuoted, ih fun member => plain (List.mem_cons_of_mem _ member)]
    · rfl
    · intro more quote
      exact absurd quote other
    · exact other

/-- A text between quotes is read back, before something else than a quote, only if it has no
quote. -/
theorem readQuoted_eq_iff {text rest : List Char} (single : ∀ c ∈ rest.head?, c ≠ '"')
    (rest' : List Char) :
    readQuoted (text ++ '"' :: rest) = some (text, rest') ↔ '"' ∉ text ∧ rest' = rest := by
  constructor
  · intro read
    have stood := eq_of_readQuoted read
    have plain : '"' ∉ text := by
      intro member
      obtain ⟨before, after, rfl, first⟩ := List.eq_append_cons_of_mem member
      have split : doubled (before ++ '"' :: after) = before ++ '"' :: '"' :: doubled after := by
        rw [doubled, List.flatMap_append]
        exact congrArg (· ++ _) (doubled_of_notMem first)
      rw [split, List.append_assoc, List.append_assoc, List.append_cancel_left_eq] at stood
      exact quotes_ne single 0 (List.cons.inj stood).2.symm
    rw [doubled_of_notMem plain, List.append_cancel_left_eq] at stood
    exact ⟨plain, (List.cons.inj stood).2.symm⟩
  · rintro ⟨plain, rfl⟩
    exact readQuoted_of_notMem plain single

end EasyTrade.Text
