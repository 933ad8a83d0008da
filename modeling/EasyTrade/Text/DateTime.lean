import EasyTrade.Text.Decimals

/-!
# Date-times as RFC 3339 writes them

A date, the letter T, a time with or without a fraction of a second, and the offset from UTC:
Z, or hours and minutes ahead or behind. The letters may be written small.
-/
namespace EasyTrade.Text

/-- The offset a date-time ends in. -/
inductive Offset where
  /-- Z, or z. -/
  | zulu (small : Bool)
  /-- Hours and minutes ahead of UTC, or behind it. -/
  | numeric (behind : Bool) (hours : Fin 24) (minutes : Fin 60)
deriving DecidableEq

/-- The text of an offset. -/
def Offset.text : Offset → List Char
  | .zulu small => [if small then 'z' else 'Z']
  | .numeric behind hours minutes =>
    (if behind then '-' else '+') :: padded 2 hours ++ ':' :: padded 2 minutes

/-- A date-time. -/
structure DateTime where
  year : Fin 10000
  /-- One below the number of the month. -/
  month : Fin 12
  /-- One below the number of the day. -/
  day : Fin 31
  /-- The T is a t. -/
  small : Bool
  hour : Fin 24
  minute : Fin 60
  /-- Up to 60, for a leap second. -/
  second : Fin 61
  /-- The first digit after the point and the others, when there is a fraction. -/
  fraction : Option (Fin 10 × List (Fin 10))
  offset : Offset
deriving DecidableEq

namespace DateTime

/-- The date of a date-time. -/
def dateText (d : DateTime) : List Char :=
  padded 4 d.year ++ '-' :: padded 2 (d.month + 1) ++ '-' :: padded 2 (d.day + 1)

/-- The fraction of a second of a date-time. -/
def fractionText (d : DateTime) : List Char :=
  match d.fraction with
  | none => []
  | some (first, others) => '.' :: (first :: others).map fun digit : Fin 10 => digit.val.digitChar

/-- The time of day of a date-time, with its fraction. -/
def timeText (d : DateTime) : List Char :=
  padded 2 d.hour ++ ':' :: padded 2 d.minute ++ ':' :: padded 2 d.second ++ d.fractionText

/-- The text of a date-time. -/
def text (d : DateTime) : List Char :=
  d.dateText ++ (if d.small then 't' else 'T') :: d.timeText ++ d.offset.text

end DateTime

/-- A text is a date-time of RFC 3339. -/
def IsDateTime (text : String) : Prop := ∃ d : DateTime, text.toList = d.text

/-- The characters of a date-time before its offset. -/
def IsStampChar (c : Char) : Prop := c.isAlphanum = true ∨ c = '-' ∨ c = ':' ∨ c = '.'

instance (c : Char) : Decidable (IsStampChar c) :=
  inferInstanceAs (Decidable (c.isAlphanum = true ∨ c = '-' ∨ c = ':' ∨ c = '.'))

theorem isStampChar_of_digit {c : Char} (digit : c.isDigit = true) : IsStampChar c :=
  Or.inl (by simp [Char.isAlphanum, digit])

theorem isStampChar_padded (width n : Nat) : ∀ c ∈ padded width n, IsStampChar c :=
  fun _ member => isStampChar_of_digit (isDigit_of_mem_padded member)

namespace DateTime

theorem isStampChar_dateText (d : DateTime) : ∀ c ∈ d.dateText, IsStampChar c := by
  have dash : IsStampChar '-' := by decide
  simp only [dateText, List.mem_append, List.mem_cons]
  rintro c ((member | rfl | member) | rfl | member)
  · exact isStampChar_padded _ _ c member
  · exact dash
  · exact isStampChar_padded _ _ c member
  · exact dash
  · exact isStampChar_padded _ _ c member

theorem isStampChar_fractionText (d : DateTime) : ∀ c ∈ d.fractionText, IsStampChar c := by
  cases fraction : d.fraction with
  | none => simp [fractionText, fraction]
  | some digits =>
    simp only [fractionText, fraction, List.mem_cons, List.mem_map]
    rintro c (rfl | ⟨digit, _, rfl⟩)
    · decide
    · apply isStampChar_of_digit
      rw [Nat.isDigit_digitChar]
      simp

theorem isStampChar_timeText (d : DateTime) : ∀ c ∈ d.timeText, IsStampChar c := by
  have colon : IsStampChar ':' := by decide
  simp only [timeText, List.mem_append, List.mem_cons]
  rintro c (((member | rfl | member) | rfl | member) | member)
  · exact isStampChar_padded _ _ c member
  · exact colon
  · exact isStampChar_padded _ _ c member
  · exact colon
  · exact isStampChar_padded _ _ c member
  · exact isStampChar_fractionText d c member

/-- Only a plus sign is no character of a date-time without an offset. -/
theorem isStampChar_of_mem_text {d : DateTime} {c : Char} (member : c ∈ d.text) :
    IsStampChar c ∨ c = '+' := by
  simp only [text, List.mem_append, List.mem_cons] at member
  rcases member with (date | (rfl | time)) | offset
  · exact Or.inl (isStampChar_dateText d c date)
  · cases d.small <;> exact Or.inl (by decide)
  · exact Or.inl (isStampChar_timeText d c time)
  · cases same : d.offset with
    | zulu small =>
      simp only [same, Offset.text, List.mem_singleton] at offset
      cases small <;> subst offset <;> exact Or.inl (by decide)
    | numeric behind hours minutes =>
      simp only [same, Offset.text, List.mem_append, List.mem_cons] at offset
      rcases offset with (sign | hour) | colon | minute
      · cases behind <;> subst sign <;> decide
      · exact Or.inl (isStampChar_padded _ _ c hour)
      · exact Or.inl (by subst colon; decide)
      · exact Or.inl (isStampChar_padded _ _ c minute)

/-- A date-time has a plus sign exactly when its offset is ahead of UTC. -/
theorem plus_mem_text_iff (d : DateTime) :
    '+' ∈ d.text ↔ ∃ hours minutes, d.offset = .numeric false hours minutes := by
  have noPlus : ¬IsStampChar '+' := by decide
  constructor
  · intro member
    simp only [text, List.mem_append, List.mem_cons] at member
    rcases member with (date | (letter | time)) | offset
    · exact absurd (isStampChar_dateText d _ date) noPlus
    · cases small : d.small <;> simp [small] at letter
    · exact absurd (isStampChar_timeText d _ time) noPlus
    · cases same : d.offset with
      | zulu small => cases small <;> simp [same, Offset.text] at offset
      | numeric behind hours minutes =>
        cases behind with
        | false => exact ⟨hours, minutes, rfl⟩
        | true =>
          simp only [same, Offset.text, List.mem_append, List.mem_cons] at offset
          rcases offset with (sign | hour) | colon | minute
          · exact absurd sign (by decide)
          · exact absurd (isStampChar_padded _ _ _ hour) noPlus
          · exact absurd colon (by decide)
          · exact absurd (isStampChar_padded _ _ _ minute) noPlus
  · rintro ⟨hours, minutes, same⟩
    simp [text, same, Offset.text]

end DateTime

end EasyTrade.Text
