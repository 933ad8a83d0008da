import Mathlib.Data.List.Basic
import Mathlib.Data.List.TakeWhile
import Mathlib.Tactic.Basic

/-!
# Reading a text up to a delimiter

An input stream as C++ has it: what is left of the text, and the two bits that say that the
end was met and that the last read failed. A text made of parts that each end with the
delimiter is read back as those parts.
-/
namespace EasyTrade.Text

/-- An input stream over a text. -/
structure Stream where
  /-- What is not read yet. -/
  rest : List Char
  /-- A read met the end of the text. -/
  eof : Bool
  /-- A read brought nothing. -/
  fail : Bool
deriving DecidableEq

namespace Stream

variable {delim : Char}

/-- A stream over a text that nothing was read of. -/
def ofText (text : List Char) : Stream := ⟨text, false, false⟩

/-- The next read may start. -/
def good (stream : Stream) : Bool := !stream.eof && !stream.fail

/-- `std::getline(stream, str, delim)`: the stream afterwards, and the string.

A stream that is not good fails and leaves the string as it was. From a good one the string is
what comes before the delimiter, which is dropped; at the end of the text it is what is left,
and the read fails when that is nothing. -/
def getline (stream : Stream) (delim : Char) (str : List Char) : Stream × List Char :=
  if stream.good then
    let str := stream.rest.takeWhile (· ≠ delim)
    match stream.rest.dropWhile (· ≠ delim) with
    | _ :: rest => ({ stream with rest := rest }, str)
    | [] => ({ rest := [], eof := true, fail := str.isEmpty }, str)
  else ({ stream with fail := true }, str)

/-- The part before a delimiter is read, and the delimiter with it. -/
theorem getline_part {part : List Char} (plain : delim ∉ part) (rest str : List Char) :
    (ofText (part ++ delim :: rest)).getline delim str = (ofText rest, part) := by
  have differs : ∀ c ∈ part, decide (c ≠ delim) = true := by
    intro c member
    have : c ≠ delim := fun same => plain (same ▸ member)
    simpa using this
  have taken : (part ++ delim :: rest).takeWhile (· ≠ delim) = part := by
    rw [List.takeWhile_append_of_pos differs]
    simp
  have dropped : (part ++ delim :: rest).dropWhile (· ≠ delim) = delim :: rest := by
    rw [List.dropWhile_append_of_pos differs]
    simp
  simp only [getline, ofText, good, dropped, taken]
  rfl

/-- Nothing is read of an empty text. -/
theorem getline_nil (str : List Char) :
    (ofText []).getline delim str = (⟨[], true, true⟩, []) := rfl

/-- What a stream still has to give; a read that does not fail takes some of it. -/
def left (stream : Stream) : Nat :=
  stream.rest.length + if stream.eof then 0 else 1

/-- A read that does not fail leaves less to read. -/
theorem left_getline {stream : Stream} {str : List Char}
    (read : (stream.getline delim str).1.fail = false) :
    (stream.getline delim str).1.left < stream.left := by
  have shorter : (stream.rest.dropWhile (· ≠ delim)).length ≤ stream.rest.length :=
    (List.dropWhile_sublist _).length_le
  by_cases good : stream.good
  · have more : stream.eof = false := by
      simp only [Stream.good, Bool.and_eq_true, Bool.not_eq_true'] at good
      exact good.1
    cases after : stream.rest.dropWhile (· ≠ delim) with
    | nil =>
      have : (stream.getline delim str).1.left = 0 := by
        simp only [getline, good, after, if_true, left]
        rfl
      rw [this, left, more]
      simp
    | cons c rest =>
      have : (stream.getline delim str).1.left = rest.length + 1 := by
        simp only [getline, good, after, if_true, left, more]
        rfl
      rw [this, left, more]
      rw [after, List.length_cons] at shorter
      show rest.length + 1 < stream.rest.length + 1
      omega
  · simp [getline, good] at read

/-- What `while (std::getline(stream, line))` reads, in order. -/
def lines (stream : Stream) (delim : Char) : List (List Char) :=
  if (stream.getline delim []).1.fail then []
  else (stream.getline delim []).2 :: (stream.getline delim []).1.lines delim
termination_by stream.left
decreasing_by exact left_getline (eq_false_of_ne_true ‹_›)

/-- An empty text has no lines. -/
@[simp] theorem lines_nil : (ofText []).lines delim = [] := by
  rw [lines, getline_nil]
  rfl

/-- The part before the first delimiter is the first line. -/
theorem lines_part {part : List Char} (plain : delim ∉ part) (rest : List Char) :
    (ofText (part ++ delim :: rest)).lines delim = part :: (ofText rest).lines delim := by
  rw [lines, getline_part plain]
  rfl

/-- Parts that each end with the delimiter are read back. -/
theorem lines_parts {α : Type} {text : α → List Char} {parts : List α}
    (plain : ∀ part ∈ parts, delim ∉ text part) :
    (ofText (parts.flatMap fun part => text part ++ [delim])).lines delim = parts.map text := by
  induction parts with
  | nil => simp
  | cons part parts earlier =>
    have here := plain part (by simp)
    have others := earlier fun other member => plain other (by simp [member])
    simp only [List.flatMap_cons, List.append_assoc, List.singleton_append, List.map_cons]
    rw [lines_part here, others]

/-! ## Lines and fields -/

/-- Without a delimiter the whole text is read, and the stream is at its end. -/
theorem getline_of_notMem {text : List Char} (plain : delim ∉ text) (str : List Char) :
    (ofText text).getline delim str = (⟨[], true, text.isEmpty⟩, text) := by
  have differs : ∀ c ∈ text, decide (c ≠ delim) = true := by
    intro c member
    have : c ≠ delim := fun same => plain (same ▸ member)
    simpa using this
  have dropped : text.dropWhile (· ≠ delim) = [] := List.dropWhile_eq_nil_iff.mpr differs
  have taken : text.takeWhile (· ≠ delim) = text := List.takeWhile_eq_self_iff.mpr differs
  simp only [getline, ofText, good, dropped, taken]
  rfl

/-- A stream that met its end has no more lines. -/
theorem lines_of_eof {stream : Stream} (ended : stream.eof = true) (delim : Char) :
    stream.lines delim = [] := by
  rw [lines]
  simp [getline, good, ended]

/-- The parts of a text between delimiters, without an empty one after the last delimiter. -/
def linesOf (delim : Char) (text : List Char) : List (List Char) :=
  if (text.splitOn delim).getLast? = some [] then (text.splitOn delim).dropLast
  else text.splitOn delim

theorem linesOf_of_notMem {text : List Char} (plain : delim ∉ text) :
    linesOf delim text = if text = [] then [] else [text] := by
  rw [linesOf, List.splitOn_eq_singleton plain]
  simp

theorem linesOf_part {part : List Char} (plain : delim ∉ part) (rest : List Char) :
    linesOf delim (part ++ delim :: rest) = part :: linesOf delim rest := by
  have nonempty := List.splitOn_ne_nil delim rest
  rw [linesOf, List.splitOn_append_cons_self_of_not_mem plain, List.getLast?_cons_of_ne_nil nonempty,
    List.dropLast_cons_of_ne_nil nonempty, linesOf]
  split_ifs <;> rfl

/-- The lines of a text are its parts. -/
theorem lines_eq_linesOf (delim : Char) (text : List Char) :
    (ofText text).lines delim = linesOf delim text := by
  by_cases here : delim ∈ text
  · obtain ⟨part, rest, split, plain⟩ := List.eq_append_cons_of_mem here
    have shorter : rest.length < text.length := by
      rw [split, List.length_append, List.length_cons]
      omega
    rw [split, lines_part plain, linesOf_part plain, lines_eq_linesOf delim rest]
  · rw [lines, getline_of_notMem here, lines_of_eof rfl, linesOf_of_notMem here]
    cases text <;> rfl
termination_by text.length

/-- Reads in a row into one variable. -/
def getlines (delim : Char) : Nat → Stream × List Char → Stream × List Char
  | 0, read => read
  | n + 1, (stream, str) => getlines delim n (stream.getline delim str)

/-- Once the end was met the variable stays as it is. -/
theorem getlines_of_eof (n : Nat) {stream : Stream} (ended : stream.eof = true) (str : List Char) :
    (getlines delim n (stream, str)).2 = str := by
  induction n generalizing stream with
  | zero => rfl
  | succ n ih =>
    have stays : stream.getline delim str = ({ stream with fail := true }, str) := by
      simp [getline, good, ended]
    rw [getlines, stays]
    exact ih ended

/-- Reads in a row leave the last of as many fields, or the last field if there are less. -/
theorem getlines_eq (n : Nat) (text str : List Char) :
    (getlines delim (n + 1) (ofText text, str)).2 =
      ((text.splitOn delim).take (n + 1)).getLastD [] := by
  induction n generalizing text str with
  | zero =>
    by_cases here : delim ∈ text
    · obtain ⟨part, rest, rfl, plain⟩ := List.eq_append_cons_of_mem here
      rw [getlines, getlines, getline_part plain, List.splitOn_append_cons_self_of_not_mem plain]
      rfl
    · rw [getlines, getlines, getline_of_notMem here, List.splitOn_eq_singleton here]
      rfl
  | succ n ih =>
    by_cases here : delim ∈ text
    · obtain ⟨part, rest, rfl, plain⟩ := List.eq_append_cons_of_mem here
      have nonempty : (rest.splitOn delim).take (n + 1) ≠ [] := by
        simp [List.splitOn_ne_nil delim rest]
      rw [getlines, getline_part plain, ih, List.splitOn_append_cons_self_of_not_mem plain,
        List.take_succ_cons, List.getLastD_eq_getLast?, List.getLastD_eq_getLast?,
        List.getLast?_cons_of_ne_nil nonempty]
    · rw [getlines, getline_of_notMem here, getlines_of_eof _ rfl, List.splitOn_eq_singleton here]
      rfl

end Stream

end EasyTrade.Text
