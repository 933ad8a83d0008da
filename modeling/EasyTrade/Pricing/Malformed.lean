import EasyTrade.Pricing.Messages
import EasyTrade.Text.Numbers

/-!
# Malformed messages

What the receiver makes of any text. It keeps the field it has read in one variable. A line with
less than five fields leaves its last field there, and that is counted if it starts with a number.
A number out of range is thrown out of the receiver.
-/

namespace EasyTrade.Pricing.Malformed

open EasyTrade.Text

/-! ## The receiver -/

/-- The variables of `receiveMessage`. -/
structure Tally where
  part : List Char
  parsedLines : Nat
  discardedLines : Nat
  accumulator : Number

/-- One pass of the loop of `receiveMessage`; only `std::invalid_argument` is caught. -/
def Tally.count (inRange : ℚ → Bool) (tally : Tally) (line : List Char) :
    Except StodError Tally :=
  let tally := { tally with parsedLines := tally.parsedLines + 1 }
  if !validateString line then .ok { tally with discardedLines := tally.discardedLines + 1 }
  else
    -- the date, the open, the high and the low value are skipped
    let (lineStream, part) := (Stream.ofText line).getline ',' tally.part
    let (lineStream, part) := lineStream.getline ',' part
    let (lineStream, part) := lineStream.getline ',' part
    let (lineStream, part) := lineStream.getline ',' part
    let (_, part) := lineStream.getline ',' part
    match Number.stod inRange part with
    | .ok value => .ok { tally with part := part, accumulator := tally.accumulator.add value }
    | .error .invalidArgument =>
      .ok { tally with part := part, discardedLines := tally.discardedLines + 1 }
    | .error .outOfRange => .error .outOfRange

/-- What `receiveMessage` prints. -/
structure Report where
  parsedLines : Nat
  discardedLines : Nat
  average : Number
  deriving DecidableEq

/-- The report of a tally. -/
def Tally.report (tally : Tally) : Report where
  parsedLines := tally.parsedLines
  discardedLines := tally.discardedLines
  average :=
    if tally.parsedLines - tally.discardedLines > 0 then
      tally.accumulator.divBy (tally.parsedLines - tally.discardedLines)
    else .finite 0

/-- `receiveMessage`. -/
def receiveMessage (inRange : ℚ → Bool) (message : List Char) : Except StodError Report := do
  let (messageStream, _) := (Stream.ofText message).getline '\n' []
  let tally ← (messageStream.lines '\n').foldlM (Tally.count inRange) ⟨[], 0, 0, .finite 0⟩
  return tally.report

/-! ## Complete lines -/

/-- The lines after the first one. -/
def linesAfterHeader (message : List Char) : List (List Char) :=
  (Stream.linesOf '\n' message).drop 1

/-- The number that the fifth field of a complete line starts with. -/
def closing (line : List Char) : Option Number :=
  if validateString line = true ∧ 5 ≤ (line.splitOn ',').length then
    strtod ((line.splitOn ',').getD 4 [])
  else none

/-- The mean of numbers; zero if there are none. -/
def mean (numbers : List Number) : Number :=
  if numbers = [] then .finite 0
  else (numbers.foldl Number.add (.finite 0)).divBy numbers.length

/-- A report is that of the complete lines. -/
def Report.OfCompleteLines (message : List Char) (report : Report) : Prop :=
  report.average = mean ((linesAfterHeader message).filterMap closing) ∧
    report.discardedLines = (linesAfterHeader message).countP fun line => closing line = none

/-- A line misleads the receiver neither by a field that is not the fifth, nor by a number out of
range. -/
def Harmless (inRange : ℚ → Bool) (line : List Char) : Prop :=
  validateString line = true →
    ((line.splitOn ',').length < 5 → strtod ((line.splitOn ',').getLastD []) = none) ∧
    (5 ≤ (line.splitOn ',').length →
      Number.stod inRange ((line.splitOn ',').getD 4 []) ≠ .error .outOfRange)

/-! ## One line -/

section Lines

variable (inRange : ℚ → Bool)

/-- What a line comes to: a number that is counted, nothing, or an exception. -/
def outcome (line : List Char) : Except StodError (Option Number) :=
  if validateString line = true then
    match Number.stod inRange (((line.splitOn ',').take 5).getLastD []) with
    | .ok value => .ok (some value)
    | .error .invalidArgument => .ok none
    | .error .outOfRange => .error .outOfRange
  else .ok none

/-- A tally with what a line comes to. -/
def Tally.after (tally : Tally) (part : List Char) : Option Number → Tally
  | some value => ⟨part, tally.parsedLines + 1, tally.discardedLines,
      tally.accumulator.add value⟩
  | none => ⟨part, tally.parsedLines + 1, tally.discardedLines + 1, tally.accumulator⟩

/-- A pass adds what the line comes to. -/
theorem count_eq (tally : Tally) (line : List Char) :
    ∃ part, tally.count inRange line = (outcome inRange line).map (tally.after part) := by
  by_cases valid : validateString line = true
  · have fields : tally.count inRange line =
        match Number.stod inRange (Stream.getlines ',' 5 (Stream.ofText line, tally.part)).2 with
        | .ok value => .ok (tally.after (Stream.getlines ',' 5 (Stream.ofText line, tally.part)).2
            (some value))
        | .error .invalidArgument => .ok (tally.after
            (Stream.getlines ',' 5 (Stream.ofText line, tally.part)).2 none)
        | .error .outOfRange => .error .outOfRange := by
      simp only [Tally.count, valid, Bool.not_true, Bool.false_eq_true, if_false]
      rfl
    refine ⟨((line.splitOn ',').take 5).getLastD [], ?_⟩
    rw [fields, Stream.getlines_eq, outcome, if_pos valid]
    rcases Number.stod inRange (((line.splitOn ',').take 5).getLastD []) with (_ | _) | value <;>
      rfl
  · refine ⟨tally.part, ?_⟩
    simp [Tally.count, outcome, valid, Except.map, Tally.after]

/-- The field that is read is the fifth, or the last one of less. -/
theorem used_field (line : List Char) :
    ((line.splitOn ',').take 5).getLastD [] =
      if 5 ≤ (line.splitOn ',').length then (line.splitOn ',').getD 4 []
      else (line.splitOn ',').getLastD [] := by
  split_ifs with complete
  · rw [List.getLastD_eq_getLast?, List.getLast?_take, List.getD_eq_getElem?_getD]
    simp [show (line.splitOn ',')[4]? = some (line.splitOn ',')[4] from List.getElem?_eq_getElem complete]
  · rw [List.take_of_length_le (by omega)]

/-- A line is harmless exactly if it comes to what its fifth field says. -/
theorem outcome_eq_closing_iff (line : List Char) :
    outcome inRange line = .ok (closing line) ↔ Harmless inRange line := by
  by_cases valid : validateString line = true
  · rw [outcome, if_pos valid, used_field, closing, Harmless]
    by_cases complete : 5 ≤ (line.splitOn ',').length
    · have notShort : ¬(line.splitOn ',').length < 5 := not_lt.mpr complete
      simp only [valid, complete, notShort, and_self, if_true, true_implies,
        false_implies, true_and]
      generalize (line.splitOn ',').getD 4 [] = field
      rcases Number.stod_cases inRange field with
        ⟨read, number⟩ | ⟨value, read, number⟩ | ⟨read, value, number, -⟩ <;>
        simp [read, number]
    · have short : (line.splitOn ',').length < 5 := not_le.mp complete
      simp only [valid, complete, short, and_false, if_false, true_implies,
        false_implies, and_true]
      generalize (line.splitOn ',').getLastD [] = field
      rcases Number.stod_cases inRange field with
        ⟨read, number⟩ | ⟨value, read, number⟩ | ⟨read, value, number, -⟩ <;>
        simp [read, number]
  · simp [outcome, closing, Harmless, valid]

/-- A line that the receiver leaves out has no closing price. -/
theorem closing_of_outcome {line : List Char} (left : outcome inRange line = .ok none) :
    closing line = none := by
  by_cases valid : validateString line = true
  · rw [outcome, if_pos valid] at left
    rcases Number.stod_cases inRange (((line.splitOn ',').take 5).getLastD []) with
      ⟨read, number⟩ | ⟨value, read, number⟩ | ⟨read, value, number, -⟩
    · rw [used_field] at number
      rw [closing]
      split_ifs with complete
      · rwa [if_pos complete.2] at number
      · rfl
    · rw [read] at left
      cases left
    · rw [read] at left
      cases left
  · simp [closing, valid]

/-- A line with a closing price adds it, or throws. -/
theorem outcome_of_closing {line : List Char} {price : Number} (priced : closing line = some price) :
    outcome inRange line = .ok (some price) ∨ outcome inRange line = .error .outOfRange := by
  rw [closing] at priced
  split_ifs at priced with complete
  rw [outcome, if_pos complete.1, used_field, if_pos complete.2]
  rcases Number.stod_cases inRange ((line.splitOn ',').getD 4 []) with
    ⟨read, number⟩ | ⟨value, read, number⟩ | ⟨read, value, number, -⟩
  · rw [number] at priced
    cases priced
  · obtain rfl := Option.some.inj (number.symm.trans priced)
    rw [read]
    exact Or.inl rfl
  · rw [read]
    exact Or.inr rfl

/-! ## A message -/

/-- The number that a line adds. -/
def added (line : List Char) : Option Number := (outcome inRange line).toOption.join

/-- What the loop can do: count what every line comes to, or throw at one of them. -/
theorem foldlM_count (lines : List (List Char)) (tally : Tally) :
    (∃ result, lines.foldlM (Tally.count inRange) tally = .ok result ∧
      (∀ line ∈ lines, outcome inRange line = .ok (added inRange line)) ∧
      result.parsedLines = tally.parsedLines + lines.length ∧
      result.discardedLines = tally.discardedLines +
        lines.countP (fun line => outcome inRange line = .ok none) ∧
      result.accumulator = (lines.filterMap (added inRange)).foldl Number.add tally.accumulator) ∨
    ∃ thrown, lines.foldlM (Tally.count inRange) tally = .error thrown ∧
      ∃ line ∈ lines, outcome inRange line = .error thrown := by
  induction lines generalizing tally with
  | nil => exact Or.inl ⟨tally, rfl, by simp, rfl, rfl, rfl⟩
  | cons line lines ih =>
    obtain ⟨part, pass⟩ := count_eq inRange tally line
    rw [List.foldlM_cons, pass]
    rcases comes : outcome inRange line with thrown | value
    · exact Or.inr ⟨thrown, rfl, line, List.mem_cons_self .., comes⟩
    · have here : outcome inRange line = .ok (added inRange line) := by
        rw [added, comes]
        rfl
      have same : added inRange line = value := Except.ok.inj (here.symm.trans comes)
      rcases ih (tally.after part value) with
        ⟨result, ran, quiet, parsed, discarded, accumulated⟩ | ⟨thrown, ran, bad, listed, refused⟩
      · refine Or.inl ⟨result, ran, List.forall_mem_cons.mpr ⟨here, quiet⟩, ?_, ?_, ?_⟩
        · rw [parsed, List.length_cons]
          cases value <;> simp only [Tally.after] <;> omega
        · rw [discarded, List.countP_cons, comes]
          cases value with
          | none =>
            simp only [Tally.after, decide_true, if_true]
            omega
          | some value => simp [Tally.after]
        · rw [accumulated, List.filterMap_cons, same]
          cases value <;> rfl
      · exact Or.inr ⟨thrown, ran, bad, List.mem_cons_of_mem _ listed, refused⟩

omit inRange in
/-- What the receiver reads are the lines after the first. -/
theorem lines_afterHeader (message : List Char) :
    ((Stream.ofText message).getline '\n' []).1.lines '\n' = linesAfterHeader message := by
  rw [linesAfterHeader]
  by_cases here : '\n' ∈ message
  · obtain ⟨part, rest, rfl, plain⟩ := List.eq_append_cons_of_mem here
    rw [Stream.getline_part plain, Stream.lines_eq_linesOf, Stream.linesOf_part plain]
    rfl
  · rw [Stream.getline_of_notMem here, Stream.lines_of_eof rfl, Stream.linesOf_of_notMem here]
    split_ifs <;> rfl

theorem receiveMessage_eq (message : List Char) :
    receiveMessage inRange message =
      ((linesAfterHeader message).foldlM (Tally.count inRange) ⟨[], 0, 0, .finite 0⟩).map
        Tally.report := by
  rw [receiveMessage, ← lines_afterHeader]
  rfl

omit inRange in
/-- A condition that is not weaker and holds as often is the same. -/
theorem forall_of_countP_eq {α : Type*} {p q : α → Bool} {list : List α}
    (weaker : ∀ x ∈ list, p x = true → q x = true) (often : list.countP p = list.countP q) :
    ∀ x ∈ list, q x = true → p x = true := by
  induction list with
  | nil => simp
  | cons a list ih =>
    obtain ⟨here, later⟩ := List.forall_mem_cons.mp weaker
    have fewer := List.countP_mono_left later
    rw [List.countP_cons, List.countP_cons] at often
    refine List.forall_mem_cons.mpr ⟨fun holds => ?_, ih later ?_⟩
    · by_contra fails
      rw [if_neg fails, if_pos holds] at often
      omega
    · split_ifs at often with first second
      · omega
      · exact absurd (here first) second
      · omega
      · omega

/-- The report of the receiver is that of the complete lines exactly if every line is harmless. -/
theorem average_of_complete_lines_iff (message : List Char) :
    (∃ report, receiveMessage inRange message = .ok report ∧ report.OfCompleteLines message) ↔
      ∀ line ∈ linesAfterHeader message, Harmless inRange line := by
  rw [receiveMessage_eq]
  constructor
  · rintro ⟨report, received, -, discardedAll⟩
    rcases foldlM_count inRange (linesAfterHeader message) ⟨[], 0, 0, .finite 0⟩ with
      ⟨result, ran, quiet, -, discarded, -⟩ | ⟨thrown, ran, -⟩
    · rw [ran] at received
      obtain rfl := Except.ok.inj received
      have often : (linesAfterHeader message).countP
          (fun line => outcome inRange line = .ok none) =
          (linesAfterHeader message).countP fun line => closing line = none := by
        rw [← discardedAll]
        exact (discarded.trans (Nat.zero_add _)).symm
      have left := forall_of_countP_eq (fun line _ none_ => by
        exact decide_eq_true (closing_of_outcome inRange (of_decide_eq_true none_))) often
      intro line listed
      refine (outcome_eq_closing_iff inRange line).mp ?_
      rcases priced : closing line with _ | price
      · exact of_decide_eq_true (left line listed (decide_eq_true priced))
      · rcases outcome_of_closing inRange priced with counted | thrown
        · exact counted
        · have comes := quiet line listed
          rw [thrown] at comes
          cases comes
    · rw [ran] at received
      cases received
  · intro harmless
    have same : ∀ line ∈ linesAfterHeader message,
        outcome inRange line = .ok (closing line) := fun line listed =>
      (outcome_eq_closing_iff inRange line).mpr (harmless line listed)
    rcases foldlM_count inRange (linesAfterHeader message) ⟨[], 0, 0, .finite 0⟩ with
      ⟨result, ran, -, parsed, discarded, accumulated⟩ | ⟨thrown, -, line, listed, refused⟩
    · refine ⟨result.report, by rw [ran]; rfl, ?_, ?_⟩
      · have numbers : (linesAfterHeader message).filterMap (added inRange) =
            (linesAfterHeader message).filterMap closing :=
          List.filterMap_congr fun line listed => by
            rw [added, same line listed]
            rfl
        have left : (linesAfterHeader message).countP
            (fun line => outcome inRange line = .ok none) =
            (linesAfterHeader message).countP fun line => ¬(closing line).isSome = true :=
          List.countP_congr fun line listed => by simp [same line listed]
        have whole := List.length_eq_countP_add_countP (fun line => (closing line).isSome)
          (l := linesAfterHeader message)
        have kept : result.parsedLines - result.discardedLines =
            ((linesAfterHeader message).filterMap closing).length := by
          rw [parsed, discarded, left, List.length_filterMap_eq_countP]
          simp only [Nat.zero_add]
          omega
        simp only [Tally.report, mean, kept, accumulated, numbers]
        rcases (linesAfterHeader message).filterMap closing with _ | ⟨price, prices⟩
        · rfl
        · have some_ : (price :: prices).length > 0 := Nat.zero_lt_succ _
          rw [if_pos some_, if_neg (List.cons_ne_nil _ _)]
      · change result.discardedLines = _
        rw [discarded, Nat.zero_add]
        exact List.countP_congr fun line listed => by simp [same line listed]
    · rw [same line listed] at refused
      cases refused

end Lines

/-- A line that is cut short after its opening price is counted by it. -/
theorem short_line_counted :
    ¬∀ message, ∃ report,
      receiveMessage (fun value => |value| < 2 ^ 1024) message = .ok report ∧
        report.OfCompleteLines message := by
  intro complete
  obtain ⟨report, received, -, discarded⟩ := complete "date, open\n2024-01-01,1.5\n".toList
  have read : receiveMessage (fun value => |value| < 2 ^ 1024)
      "date, open\n2024-01-01,1.5\n".toList = .ok ⟨1, 0, .finite (3 / 2)⟩ := by
    rw [receiveMessage_eq]
    decide +kernel
  obtain rfl := Except.ok.inj (read.symm.trans received)
  revert discarded
  decide +kernel

/-! ## Plain messages -/

/-- A tally of decimal numbers. -/
def ofDecimal (tally : Pricing.Tally) : Tally :=
  ⟨tally.part, tally.parsedLines, tally.discardedLines, .finite tally.accumulator⟩

/-- The field that is read has no letter, and its number is in range. -/
def Plain (inRange : ℚ → Bool) (line : List Char) : Prop :=
  (∀ c ∈ ((line.splitOn ',').take 5).getLastD [], IsPlainChar c) ∧
    ∀ value, Text.stod (((line.splitOn ',').take 5).getLastD []) = some value →
      inRange value = true

section Decimal

variable {inRange : ℚ → Bool}

/-- A complete line as the receiver of decimal numbers counts it. -/
theorem decimalCount_of_valid {line : List Char} (valid : validateString line = true)
    (tally : Pricing.Tally) : tally.count line =
      match Text.stod (Stream.getlines ',' 5 (Stream.ofText line, tally.part)).2 with
      | some value => ⟨(Stream.getlines ',' 5 (Stream.ofText line, tally.part)).2,
          tally.parsedLines + 1, tally.discardedLines, tally.accumulator + value⟩
      | none => ⟨(Stream.getlines ',' 5 (Stream.ofText line, tally.part)).2,
          tally.parsedLines + 1, tally.discardedLines + 1, tally.accumulator⟩ := by
  simp only [Pricing.Tally.count, valid, Bool.not_true, Bool.false_eq_true, if_false]
  rfl

/-- A complete line as the receiver counts it. -/
theorem count_of_valid {line : List Char} (valid : validateString line = true)
    (tally : Pricing.Tally) : (ofDecimal tally).count inRange line =
      match Number.stod inRange (Stream.getlines ',' 5 (Stream.ofText line, tally.part)).2 with
      | .ok value => .ok ⟨(Stream.getlines ',' 5 (Stream.ofText line, tally.part)).2,
          tally.parsedLines + 1, tally.discardedLines,
          (Number.finite tally.accumulator).add value⟩
      | .error .invalidArgument => .ok
        ⟨(Stream.getlines ',' 5 (Stream.ofText line, tally.part)).2,
          tally.parsedLines + 1, tally.discardedLines + 1, .finite tally.accumulator⟩
      | .error .outOfRange => .error .outOfRange := by
  simp only [Tally.count, ofDecimal, valid, Bool.not_true, Bool.false_eq_true, if_false]
  rfl

theorem count_ofDecimal {line : List Char} (plain : Plain inRange line) (tally : Pricing.Tally) :
    (ofDecimal tally).count inRange line = .ok (ofDecimal (tally.count line)) := by
  by_cases valid : validateString line = true
  · have used : (Stream.getlines ',' 5 (Stream.ofText line, tally.part)).2 =
        ((line.splitOn ',').take 5).getLastD [] := Stream.getlines_eq 4 line tally.part
    rw [count_of_valid valid, decimalCount_of_valid valid, used, Number.stod,
      strtod_of_plain plain.1]
    rcases read : Text.stod (((line.splitOn ',').take 5).getLastD []) with _ | value
    · rfl
    · simp only [Option.map_some, plain.2 value read, if_true]
      rfl
  · simp [Tally.count, Pricing.Tally.count, valid, ofDecimal]

theorem report_ofDecimal (tally : Pricing.Tally) :
    (ofDecimal tally).report =
      ⟨tally.report.parsedLines, tally.report.discardedLines, .finite tally.report.average⟩ := by
  rcases Nat.eq_zero_or_pos (tally.parsedLines - tally.discardedLines) with none_ | some_
  · simp [Tally.report, Pricing.Tally.report, ofDecimal, none_]
  · simp [Tally.report, Pricing.Tally.report, ofDecimal, some_, Number.divBy]

/-- On a message of plain numbers in range the receiver is that of decimal numbers. -/
theorem receiveMessage_of_plain {message : List Char}
    (plain : ∀ line ∈ linesAfterHeader message, Plain inRange line) :
    receiveMessage inRange message =
      .ok ⟨(Pricing.receiveMessage message).parsedLines,
        (Pricing.receiveMessage message).discardedLines,
        .finite (Pricing.receiveMessage message).average⟩ := by
  have run : ∀ (lines : List (List Char)) (tally : Pricing.Tally),
      (∀ line ∈ lines, Plain inRange line) →
      lines.foldlM (Tally.count inRange) (ofDecimal tally) =
        .ok (ofDecimal (lines.foldl Pricing.Tally.count tally)) := by
    intro lines
    induction lines with
    | nil => exact fun tally _ => rfl
    | cons line lines ih =>
      intro tally all
      obtain ⟨here, later⟩ := List.forall_mem_cons.mp all
      rw [List.foldlM_cons, count_ofDecimal here]
      exact ih (tally.count line) later
  have first : (⟨[], 0, 0, .finite 0⟩ : Tally) = ofDecimal ⟨[], 0, 0, 0⟩ := rfl
  have decimal : Pricing.receiveMessage message =
      ((linesAfterHeader message).foldl Pricing.Tally.count ⟨[], 0, 0, 0⟩).report := by
    rw [← lines_afterHeader]
    rfl
  rw [receiveMessage_eq, first, run _ _ plain, decimal]
  exact congrArg Except.ok (report_ofDecimal _)

end Decimal

end EasyTrade.Pricing.Malformed
