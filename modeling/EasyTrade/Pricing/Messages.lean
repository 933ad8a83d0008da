import EasyTrade.Text.DateTime
import EasyTrade.Text.Stream
import Mathlib.Control.Monad.Basic

/-!
# The price messages of the pricing service and the calculation service

Every request for prices also sends the prices it found to a queue, as lines of comma separated
values with a header. The calculation service reads them line by line, discards the lines with
a character it does not expect, and reports how many it met, how many it discarded, and the
average of the closing prices of the others.

It expects no plus sign. A timestamp with an offset ahead of UTC has one, and its line is
discarded.
-/
namespace EasyTrade.Pricing

open EasyTrade.Text

/-! ## The sender -/

/-- A row of the table of prices, as far as it is sent. -/
structure Price where
  timestamp : String
  «open» : Double
  high : Double
  low : Double
  close : Double

/-- `utils.IntProvider`: the numbers that stand in for traded volumes. -/
abbrev IntProvider (σ : Type) := Nat → StateM σ Int

/-- `%d`. -/
def decimal : Int → List Char
  | .ofNat n => numeral n
  | .negSucc n => '-' :: numeral (n + 1)

/-- `toCSV`. -/
def Price.toCSV (p : Price) (volume : Int) : List Char :=
  p.timestamp.toList ++ ',' :: p.open.format 6 ++ ',' :: p.high.format 6 ++
    ',' :: p.low.format 6 ++ ',' :: p.close.format 6 ++ ',' :: decimal volume ++ ['\n']

/-- The first line of every message. -/
def header : List Char := "date, open, high, low, close, volume\n".toList

/-- `prepareCSV`. -/
def prepareCSV {σ : Type} (provider : IntProvider σ) (priceList : List Price) :
    StateM σ (List Char) :=
  priceList.foldlM (fun text item => do
    let volume ← provider 100
    return text ++ item.toCSV (volume + 100)) header

/-! ## The receiver -/

/-- `validateString`. -/
def validateString (str : List Char) : Bool :=
  str.all fun c => c.isAlphanum || c == '-' || c == ':' || c == '.' || c == ','

/-- The variables of `receiveMessage`. -/
structure Tally where
  part : List Char
  parsedLines : Nat
  discardedLines : Nat
  accumulator : ℚ

/-- One pass of the loop of `receiveMessage`. -/
def Tally.count (tally : Tally) (line : List Char) : Tally :=
  let tally := { tally with parsedLines := tally.parsedLines + 1 }
  if !validateString line then { tally with discardedLines := tally.discardedLines + 1 }
  else
    -- the date, the open, the high and the low value are skipped
    let (lineStream, part) := (Stream.ofText line).getline ',' tally.part
    let (lineStream, part) := lineStream.getline ',' part
    let (lineStream, part) := lineStream.getline ',' part
    let (lineStream, part) := lineStream.getline ',' part
    let (_, part) := lineStream.getline ',' part
    match stod part with
    | some value => { tally with part := part, accumulator := tally.accumulator + value }
    | none => { tally with part := part, discardedLines := tally.discardedLines + 1 }

/-- What `receiveMessage` prints. -/
structure Report where
  parsedLines : Nat
  discardedLines : Nat
  average : ℚ

/-- The report of a tally. -/
def Tally.report (tally : Tally) : Report where
  parsedLines := tally.parsedLines
  discardedLines := tally.discardedLines
  average :=
    if tally.parsedLines - tally.discardedLines > 0 then
      tally.accumulator / (tally.parsedLines - tally.discardedLines : Nat)
    else 0

/-- `receiveMessage`. -/
def receiveMessage (message : List Char) : Report :=
  let (messageStream, _) := (Stream.ofText message).getline '\n' []
  ((messageStream.lines '\n').foldl Tally.count ⟨[], 0, 0, 0⟩).report

/-! ## What a line is made of -/

/-- The values of a line after the date. -/
def Price.values (p : Price) (volume : Int) : List Char :=
  p.open.format 6 ++ ',' :: p.high.format 6 ++ ',' :: p.low.format 6 ++
    ',' :: p.close.format 6 ++ ',' :: decimal volume

/-- A line without its end. -/
def Price.line (p : Price) (volume : Int) : List Char :=
  p.timestamp.toList ++ ',' :: p.values volume

theorem Price.toCSV_eq (p : Price) (volume : Int) :
    p.toCSV volume = p.line volume ++ ['\n'] := by
  simp [Price.toCSV, Price.line, Price.values]

/-- The characters of a number. -/
def IsNumberChar (c : Char) : Prop := c.isDigit = true ∨ c = '-' ∨ c = '.'

theorem isNumberChar_format (x : Double) (places : Nat) :
    ∀ c ∈ x.format places, IsNumberChar c := by
  simp only [Double.format, List.mem_append, List.mem_cons]
  rintro c ((sign | whole) | rfl | fraction)
  · cases negative : x.negative <;> simp [negative] at sign
    exact Or.inr (Or.inl sign)
  · exact Or.inl (isDigit_of_mem_numeral whole)
  · exact Or.inr (Or.inr rfl)
  · exact Or.inl (isDigit_of_mem_padded fraction)

theorem isNumberChar_decimal (n : Int) : ∀ c ∈ decimal n, IsNumberChar c := by
  intro c member
  cases n with
  | ofNat n => exact Or.inl (isDigit_of_mem_numeral member)
  | negSucc n =>
    rcases List.mem_cons.mp member with minus | digit
    · exact Or.inr (Or.inl minus)
    · exact Or.inl (isDigit_of_mem_numeral digit)

/-- A number ends at a comma. -/
theorem comma_not_mem_format (x : Double) (places : Nat) : ',' ∉ x.format places := by
  intro member
  have no : ¬IsNumberChar ',' := by simp [IsNumberChar]
  exact no (isNumberChar_format x places _ member)

/-- The characters of a line after its date. -/
theorem Price.mem_values {p : Price} {volume : Int} {c : Char} (member : c ∈ p.values volume) :
    IsNumberChar c ∨ c = ',' := by
  simp only [Price.values, List.mem_append, List.mem_cons] at member
  rcases member with (((member | comma | member) | comma | member) | comma | member) |
    comma | member
  · exact Or.inl (isNumberChar_format _ _ c member)
  · exact Or.inr comma
  · exact Or.inl (isNumberChar_format _ _ c member)
  · exact Or.inr comma
  · exact Or.inl (isNumberChar_format _ _ c member)
  · exact Or.inr comma
  · exact Or.inl (isNumberChar_format _ _ c member)
  · exact Or.inr comma
  · exact Or.inl (isNumberChar_decimal _ c member)

/-! ## One line -/

/-- The receiver expects what numbers and commas are made of. -/
theorem validateString_values (p : Price) (volume : Int) :
    validateString (p.values volume) = true := by
  rw [validateString, List.all_eq_true]
  intro c member
  rcases p.mem_values member with (digit | rfl | rfl) | rfl
  · simp [Char.isAlphanum, digit]
  all_goals decide

/-- Of a date-time the receiver expects everything but a plus sign. -/
theorem validateString_date {text : String} (date : IsDateTime text) :
    validateString text.toList = true ↔ '+' ∉ text.toList := by
  obtain ⟨d, same⟩ := date
  rw [validateString, List.all_eq_true]
  constructor
  · intro valid plus
    exact absurd (valid _ plus) (by decide)
  · intro noPlus c member
    have known : IsStampChar c ∨ c = '+' := d.isStampChar_of_mem_text (same ▸ member)
    have : c ≠ '+' := fun plus => noPlus (plus ▸ member)
    rcases known with (alphanumeric | rfl | rfl | rfl) | plus
    · simp [alphanumeric]
    · decide
    · decide
    · decide
    · exact absurd plus this

/-- A line is expected when its date has no plus sign. -/
theorem validateString_line {p : Price} (date : IsDateTime p.timestamp) (volume : Int) :
    validateString (p.line volume) = true ↔ '+' ∉ p.timestamp.toList := by
  have split : validateString (p.line volume)
      = (validateString p.timestamp.toList && validateString (p.values volume)) := by
    simp [validateString, Price.line]
  rw [split, validateString_values, Bool.and_true]
  exact validateString_date date

/-- A date-time has neither a comma nor the end of a line. -/
theorem not_mem_of_isDateTime {text : String} (date : IsDateTime text) {c : Char}
    (other : ¬IsStampChar c ∧ c ≠ '+') : c ∉ text.toList := by
  obtain ⟨d, same⟩ := date
  intro member
  rcases d.isStampChar_of_mem_text (same ▸ member) with known | plus
  · exact other.1 known
  · exact other.2 plus

/-- A line has no end within it. -/
theorem newline_not_mem_line {p : Price} (date : IsDateTime p.timestamp) (volume : Int) :
    '\n' ∉ p.line volume := by
  intro member
  rcases List.mem_append.mp member with stamp | values
  · exact not_mem_of_isDateTime date (by decide) stamp
  · rcases List.mem_cons.mp values with comma | values
    · exact absurd comma (by decide)
    · rcases p.mem_values values with number | comma
      · simp [IsNumberChar] at number
      · exact absurd comma (by decide)

/-- An expected line adds the closing price that it shows. -/
theorem count_expected {p : Price} (date : IsDateTime p.timestamp)
    (noPlus : '+' ∉ p.timestamp.toList) (volume : Int) (tally : Tally) :
    tally.count (p.line volume) =
      { part := p.close.format 6
        parsedLines := tally.parsedLines + 1
        discardedLines := tally.discardedLines
        accumulator := tally.accumulator + p.close.rounded 6 } := by
  have valid := (validateString_line date volume).mpr noPlus
  have noComma : ',' ∉ p.timestamp.toList := not_mem_of_isDateTime date (by decide)
  have line : p.line volume = p.timestamp.toList ++ ',' :: (p.open.format 6 ++ ',' ::
      (p.high.format 6 ++ ',' :: (p.low.format 6 ++ ',' :: (p.close.format 6 ++ ',' ::
        decimal volume)))) := by
    simp [Price.line, Price.values]
  have read := stod_format p.close (show 0 < 6 by omega)
  simp only [Tally.count, valid, Bool.not_true, Bool.false_eq_true, if_false]
  simp only [line, Stream.getline_part noComma, Stream.getline_part (comma_not_mem_format _ _),
    read]

/-- An unexpected line is discarded. -/
theorem count_unexpected {p : Price} (date : IsDateTime p.timestamp)
    (plus : '+' ∈ p.timestamp.toList) (volume : Int) (tally : Tally) :
    tally.count (p.line volume) =
      { tally with
        parsedLines := tally.parsedLines + 1
        discardedLines := tally.discardedLines + 1 } := by
  have invalid : validateString (p.line volume) = false := by
    apply eq_false_of_ne_true
    intro valid
    exact (validateString_line date volume).mp valid plus
  simp [Tally.count, invalid]

/-! ## A message -/

/-- The prices whose dates have no plus sign. -/
def expected (prices : List Price) : List Price :=
  prices.filter fun p => '+' ∉ p.timestamp.toList

/-- The mean of numbers, zero of none. -/
def mean (numbers : List ℚ) : ℚ := numbers.sum / numbers.length

/-- What the lines of a list of prices add to a tally. -/
theorem foldl_count {rows : List (Price × Int)}
    (dates : ∀ row ∈ rows, IsDateTime row.1.timestamp) (tally : Tally) :
    ∃ part, (rows.map fun row => row.1.line row.2).foldl Tally.count tally =
      { part := part
        parsedLines := tally.parsedLines + rows.length
        discardedLines := tally.discardedLines +
          (rows.length - (expected (rows.map Prod.fst)).length)
        accumulator := tally.accumulator +
          ((expected (rows.map Prod.fst)).map fun p => p.close.rounded 6).sum } := by
  induction rows generalizing tally with
  | nil => exact ⟨tally.part, by simp [expected]⟩
  | cons row rows step =>
    have date := dates row (by simp)
    have others : ∀ other ∈ rows, IsDateTime other.1.timestamp := fun other member =>
      dates other (by simp [member])
    have fewer : (expected (rows.map Prod.fst)).length ≤ rows.length := by
      simpa [expected] using List.length_filter_le _ (rows.map Prod.fst)
    by_cases plus : '+' ∈ row.1.timestamp.toList
    · obtain ⟨part, rest⟩ := step others
        { tally with
          parsedLines := tally.parsedLines + 1
          discardedLines := tally.discardedLines + 1 }
      have skipped : expected ((row :: rows).map Prod.fst) = expected (rows.map Prod.fst) := by
        simp [expected, plus]
      refine ⟨part, ?_⟩
      rw [List.map_cons, List.foldl_cons, count_unexpected date plus, rest, skipped,
        List.length_cons]
      congr 1
      · show tally.parsedLines + 1 + rows.length = tally.parsedLines + (rows.length + 1)
        omega
      · dsimp only
        omega
    · obtain ⟨part, rest⟩ := step others
        { part := row.1.close.format 6
          parsedLines := tally.parsedLines + 1
          discardedLines := tally.discardedLines
          accumulator := tally.accumulator + row.1.close.rounded 6 }
      have kept : expected ((row :: rows).map Prod.fst)
          = row.1 :: expected (rows.map Prod.fst) := by
        simp [expected, plus]
      refine ⟨part, ?_⟩
      rw [List.map_cons, List.foldl_cons, count_expected date plus, rest, kept,
        List.length_cons, List.map_cons, List.sum_cons, List.length_cons]
      congr 1
      · show tally.parsedLines + 1 + rows.length = tally.parsedLines + (rows.length + 1)
        omega
      · dsimp only
        omega
      · dsimp only
        ring

/-- A message is the header and a line for each price. -/
theorem prepareCSV_eq {σ : Type} (provider : IntProvider σ) (prices : List Price) (state : σ) :
    ∃ rows : List (Price × Int), rows.map Prod.fst = prices ∧
      (prepareCSV provider prices state).1
        = header ++ rows.flatMap fun row => row.1.line row.2 ++ ['\n'] := by
  have general : ∀ (text : List Char) (state : σ), ∃ rows : List (Price × Int),
      rows.map Prod.fst = prices ∧
      ((prices.foldlM (fun text item => do
        let volume ← provider 100
        return text ++ item.toCSV (volume + 100)) text : StateM σ (List Char)) state).1
        = text ++ rows.flatMap fun row => row.1.line row.2 ++ ['\n'] := by
    induction prices with
    | nil => exact fun text state => ⟨[], rfl, (List.append_nil _).symm⟩
    | cons p prices step =>
      intro text state
      obtain ⟨volume, drawn⟩ : ∃ volume, volume = (provider 100 state).1 := ⟨_, rfl⟩
      obtain ⟨rows, same, rest⟩ :=
        step (text ++ p.toCSV (volume + 100)) (provider 100 state).2
      refine ⟨(p, volume + 100) :: rows, by simp [same], ?_⟩
      have first : text ++ p.toCSV (volume + 100) ++ rows.flatMap (fun row =>
          row.1.line row.2 ++ ['\n']) = text ++ ((p, volume + 100) :: rows).flatMap (fun row =>
          row.1.line row.2 ++ ['\n']) := by
        simp [Price.toCSV_eq]
      rw [← first, ← rest, drawn]
      rfl
  exact general header state

/-- The report on a message: all its lines were met, those with a plus sign were discarded, and
the average is that of the others. -/
theorem receiveMessage_prepareCSV {σ : Type} (provider : IntProvider σ) {prices : List Price}
    (dates : ∀ p ∈ prices, IsDateTime p.timestamp) (state : σ) :
    receiveMessage (prepareCSV provider prices state).1 =
      { parsedLines := prices.length
        discardedLines := prices.length - (expected prices).length
        average := mean ((expected prices).map fun p => p.close.rounded 6) } := by
  obtain ⟨rows, same, message⟩ := prepareCSV_eq provider prices state
  have dated : ∀ row ∈ rows, IsDateTime row.1.timestamp := by
    intro row member
    exact dates row.1 (same ▸ List.mem_map_of_mem member)
  have length : rows.length = prices.length := by rw [← same, List.length_map]
  have fewer : (expected prices).length ≤ prices.length := List.length_filter_le _ _
  have top : header = "date, open, high, low, close, volume".toList ++ ['\n'] := by decide
  have dropped : (Stream.ofText (prepareCSV provider prices state).1).getline '\n' []
      = (Stream.ofText (rows.flatMap fun row => row.1.line row.2 ++ ['\n']),
        "date, open, high, low, close, volume".toList) := by
    rw [message, top, List.append_assoc, List.singleton_append]
    exact Stream.getline_part (by decide) _ _
  have lines : (Stream.ofText (rows.flatMap fun row => row.1.line row.2 ++ ['\n'])).lines '\n'
      = rows.map fun row => row.1.line row.2 :=
    Stream.lines_parts fun row member => newline_not_mem_line (dated row member) row.2
  obtain ⟨part, counted⟩ := foldl_count dated ⟨[], 0, 0, 0⟩
  have left : prices.length - (prices.length - (expected prices).length)
      = (expected prices).length := by omega
  simp only [receiveMessage, dropped, lines, counted, Tally.report, same, length, zero_add,
    left, mean, List.length_map]
  by_cases none : (expected prices).length = 0
  · simp [none]
  · simp [Nat.pos_of_ne_zero none]

/-! ## The round trip -/

/-- The receiver reports every price of a message, and their mean, exactly when no timestamp has
an offset ahead of UTC: its plus sign is no character that `validateString` expects. -/
theorem messages_read_back {σ : Type} (provider : IntProvider σ) (state : σ)
    (prices : List Price) (dates : ∀ p ∈ prices, IsDateTime p.timestamp) :
    receiveMessage (prepareCSV provider prices state).1 =
        { parsedLines := prices.length
          discardedLines := 0
          average := mean (prices.map fun p => p.close.rounded 6) } ↔
      ∀ p ∈ prices, '+' ∉ p.timestamp.toList := by
  rw [receiveMessage_prepareCSV provider dates state]
  have fewer : (expected prices).length ≤ prices.length := List.length_filter_le _ _
  constructor
  · intro same
    have none : prices.length - (expected prices).length = 0 := congrArg Report.discardedLines same
    have all : (expected prices).length = prices.length := by omega
    intro p member
    have := (List.length_filter_eq_length_iff.mp all) p member
    simpa using this
  · intro noPlus
    have all : expected prices = prices := by
      apply List.filter_eq_self.mpr
      intro p member
      simpa using noPlus p member
    simp [all]

/-- A price of ten o'clock in Vienna. -/
def viennaPrice : Price where
  timestamp := "2024-03-01T10:00:00+01:00"
  «open» := ⟨false, (10 : ℕ)⟩
  high := ⟨false, (10 : ℕ)⟩
  low := ⟨false, (10 : ℕ)⟩
  close := ⟨false, (10 : ℕ)⟩

theorem viennaPrice_isDateTime : IsDateTime viennaPrice.timestamp :=
  ⟨{ year := 2024, month := 2, day := 0, small := false, hour := 10, minute := 0, second := 0,
     fraction := none, offset := .numeric false 1 0 }, by decide +kernel⟩

/-- The line of a price with an offset ahead of UTC is discarded. -/
theorem vienna_price_discarded :
    IsDateTime viennaPrice.timestamp ∧
      receiveMessage (prepareCSV (fun n => pure (n : Int)) [viennaPrice] ()).1 ≠
        { parsedLines := 1
          discardedLines := 0
          average := mean [viennaPrice.close.rounded 6] } := by
  refine ⟨viennaPrice_isDateTime, ?_⟩
  have dates : ∀ p ∈ [viennaPrice], IsDateTime p.timestamp := by
    intro p member
    rw [List.mem_singleton.mp member]
    exact viennaPrice_isDateTime
  rw [receiveMessage_prepareCSV _ dates]
  have none : expected [viennaPrice] = [] := by decide +kernel
  simp [none]

/-- A price of the same moment, told from UTC. -/
def utcPrice : Price := { viennaPrice with timestamp := "2024-03-01T09:00:00Z" }

/-- The price of the same moment told from UTC is read back. -/
theorem messages_read_back_of_utc :
    (∀ p ∈ [utcPrice], '+' ∉ p.timestamp.toList) ∧
      receiveMessage (prepareCSV (fun n => pure (n : Int)) [utcPrice] ()).1 =
        { parsedLines := 1
          discardedLines := 0
          average := mean [utcPrice.close.rounded 6] } := by
  have dates : ∀ p ∈ [utcPrice], IsDateTime p.timestamp := by
    intro p member
    rw [List.mem_singleton.mp member]
    exact ⟨{ year := 2024, month := 2, day := 0, small := false, hour := 9, minute := 0,
             second := 0, fraction := none, offset := .zulu false }, by decide +kernel⟩
  have noPlus : ∀ p ∈ [utcPrice], '+' ∉ p.timestamp.toList := by
    intro p member
    rw [List.mem_singleton.mp member]
    decide +kernel
  exact ⟨noPlus, (messages_read_back _ () [utcPrice] dates).mpr noPlus⟩

end EasyTrade.Pricing
