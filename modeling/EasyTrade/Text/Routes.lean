import EasyTrade.Text.Numbers

/-!
# Paths and route templates

A path is split at its slashes, and its segments are matched one by one with the parts of a
template. One slash at the end does not count, so the segments give a path back only up to
that slash. Reading the beginning and the end of the text instead is another test.
-/

namespace EasyTrade.Text

/-! ## Texts up to case -/

/-- The text with its ASCII letters in lower case. -/
def lower (text : List Char) : List Char := text.map Char.toLower

/-- `text.StartsWith(start, StringComparison.OrdinalIgnoreCase)`, for a `start` in ASCII. -/
def startsWithIgnoreCase (text start : List Char) : Bool := (lower start).isPrefixOf (lower text)

/-- `text.EndsWith(ending, StringComparison.OrdinalIgnoreCase)`, for an `ending` in ASCII. -/
def endsWithIgnoreCase (text ending : List Char) : Bool := (lower ending).isSuffixOf (lower text)

theorem lower_append (text more : List Char) : lower (text ++ more) = lower text ++ lower more :=
  List.map_append

theorem lower_cons (c : Char) (text : List Char) : lower (c :: text) = c.toLower :: lower text :=
  rfl

/-- A text with a slash at its end has no other ending. -/
theorem endsWithIgnoreCase_slash {text ending : List Char} (slash : text.getLast? = some '/')
    {c : Char} (last : ending.getLast? = some c) (other : c.toLower ≠ '/') :
    endsWithIgnoreCase text ending = false := by
  have isText : (lower text).getLast? = some '/' := by
    rw [lower, List.getLast?_map, slash]
    rfl
  have isEnding : (lower ending).getLast? = some c.toLower := by
    rw [lower, List.getLast?_map, last]
    rfl
  refine Bool.eq_false_iff.mpr fun ends => ?_
  obtain ⟨front, whole⟩ := List.isSuffixOf_iff_suffix.mp ends
  have same : (lower text).getLast? = some c.toLower := by
    rw [← whole, List.getLast?_append, isEnding]
    rfl
  exact other (Option.some.inj (same.symm.trans isText))

/-! ## Paths -/

/-- A path: nothing, or a text that starts with a slash. -/
structure Path where
  text : List Char
  rooted : text = [] ∨ text.head? = some '/'

namespace Path

/-- The segments of the path, without an empty one at the end. -/
def segments (path : Path) : List (List Char) :=
  let parts := (path.text.drop 1).splitOn '/'
  if parts.getLast? = some [] then parts.dropLast else parts

/-- The path ends with a slash. -/
def EndsWithSlash (path : Path) : Prop := path.text.getLast? = some '/'

instance (path : Path) : Decidable path.EndsWithSlash :=
  inferInstanceAs (Decidable (_ = _))

end Path

/-- Items with an empty one at the end. -/
theorem intercalate_concat_nil {x : Char} {items : List (List Char)} (some : items ≠ []) :
    [x].intercalate (items ++ [[]]) = [x].intercalate items ++ [x] := by
  induction items with
  | nil => exact absurd rfl some
  | cons item rest ih =>
    cases rest with
    | nil => simp
    | cons next rest =>
      have both := ih (List.cons_ne_nil next rest)
      rw [List.cons_append] at both
      simp only [List.cons_append, List.intercalate_cons_cons, both, List.append_assoc]

/-- A text whose last part is empty ends with the separator. -/
theorem getLast?_of_splitOn {x : Char} {text : List Char}
    (empty : (text.splitOn x).getLast? = some []) : text = [] ∨ text.getLast? = some x := by
  have whole : [x].intercalate (text.splitOn x) = text := List.intercalate_splitOn x
  obtain ⟨front, parts⟩ := List.getLast?_eq_some_iff.mp empty
  rw [parts] at whole
  cases front with
  | nil => exact .inl whole.symm
  | cons item more =>
    rw [intercalate_concat_nil (List.cons_ne_nil item more)] at whole
    rw [← whole, List.getLast?_concat]
    exact .inr rfl

/-- A path that does not end with a slash is its segments, with a slash before each. -/
theorem Path.text_eq (path : Path) (plain : ¬path.EndsWithSlash) (segments : path.segments ≠ []) :
    path.text = '/' :: ['/'].intercalate path.segments := by
  obtain ⟨text, rooted⟩ := path
  cases text with
  | nil => exact absurd rfl segments
  | cons c rest =>
    have isSlash : c = '/' := by simpa using rooted
    have notEmpty : (rest.splitOn '/').getLast? ≠ some [] := by
      intro empty
      refine plain ?_
      change (c :: rest).getLast? = some '/'
      rcases getLast?_of_splitOn empty with nothing | slash
      · rw [nothing, isSlash]
        rfl
      · rw [List.getLast?_cons, slash]
        rfl
    have isSegments : (Path.mk (c :: rest) rooted).segments = rest.splitOn '/' := by
      rw [Path.segments]
      exact if_neg notEmpty
    rw [isSegments, List.intercalate_splitOn]
    exact congrArg (· :: rest) isSlash

/-! ## Templates -/

/-- A part of a route template. -/
inductive Part where
  | literal (text : List Char)
  | parameter (accepts : List Char → Bool)

/-- The part matches the segment; literals up to case. -/
def Part.accepts : Part → List Char → Bool
  | literal text, segment => decide (lower segment = lower text)
  | parameter accepts, segment => accepts segment

/-- The parts match the segments one by one. -/
def templateAccepts : List Part → List (List Char) → Bool
  | [], [] => true
  | part :: parts, segment :: segments => part.accepts segment && templateAccepts parts segments
  | _, _ => false

theorem templateAccepts_nil {segments : List (List Char)} :
    templateAccepts [] segments = true ↔ segments = [] := by
  cases segments <;> simp [templateAccepts]

theorem templateAccepts_cons {part : Part} {parts : List Part} {segments : List (List Char)} :
    templateAccepts (part :: parts) segments = true ↔ ∃ segment rest, segments = segment :: rest ∧
      part.accepts segment = true ∧ templateAccepts parts rest = true := by
  cases segments <;> simp [templateAccepts]

/-- The constraint `int`: what `int.TryParse` reads as a number of 32 bits. -/
def isInt32 (text : List Char) : Bool :=
  let isBlank (c : Char) : Bool := c == ' ' || ('\t' ≤ c && c ≤ '\r')
  let trimmed := ((text.dropWhile isBlank).reverse.dropWhile isBlank).reverse
  let (negative, digits) := signOf trimmed
  let magnitude := digitsValue 10 digits
  !digits.isEmpty && digits.all Char.isDigit &&
    decide (magnitude < 2 ^ 31 ∨ negative = true ∧ magnitude = 2 ^ 31)

end EasyTrade.Text
