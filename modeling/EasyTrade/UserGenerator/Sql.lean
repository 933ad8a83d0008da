import EasyTrade.Text.Literals
import EasyTrade.Text.Separated

/-!
# The generated SQL

`save_sql_file` of the user generator, and a reader of the `INSERT` statements it writes. A string
is put between quotes as it is.
-/

namespace EasyTrade.UserGenerator

open EasyTrade.Text

/-! ## The writer -/

/-- A value of a row. -/
inductive Value where
  | int (n : Int)
  | float (x : PyFloat)
  | str (text : List Char)

/-- A dictionary, its keys in order. -/
abbrev Row := List (List Char × Value)

/-- `SQL_INSERT_LIMIT`. -/
def sqlInsertLimit : Nat := 1000

/-- How a value is written. -/
def Value.text : Value → List Char
  | .int n => intText n
  | .float x => x.repr
  | .str text => '"' :: (text ++ ['"'])

/-- `skip_id and key.lower() == "id"`. -/
def skips (skipId : Bool) (key : List Char) : Bool :=
  skipId && key.map Char.toLower == "id".toList

/-- The loop of `dict_to_sql_values`, from a result so far; `first` says that no value is in it. -/
def valuesLoop (skipId : Bool) : Row → (result : List Char) → (first : Bool) → List Char
  | [], result, _ => result
  | (key, value) :: dict, result, first =>
    if skips skipId key then valuesLoop skipId dict result first
    else
      let result := if !first then result ++ ",\n    ".toList else result
      valuesLoop skipId dict (result ++ value.text) false

/-- `dict_to_sql_values`. -/
def dictToSqlValues (dict : Row) (skipId : Bool) : List Char :=
  valuesLoop skipId dict "(\n    ".toList true ++ "\n)".toList

/-- What `save_sql_file` writes after the text of the `CREATE` file. -/
def insertText (sqlInsertFile : List Char) (data : List Row) (skipId : Bool) : List Char :=
  (data.zipIdx.flatMap fun (elem, index) =>
    (if index % sqlInsertLimit = 0 then sqlInsertFile else []) ++
      dictToSqlValues elem skipId ++
      (if index = data.length - 1 ∨ index % sqlInsertLimit = sqlInsertLimit - 1 then ";\n".toList
        else ",\n".toList)) ++
    "GO".toList

/-- `save_sql_file`. -/
def saveSqlFile (sqlCreateFile sqlInsertFile : List Char) (data : List Row) (skipId : Bool) :
    List Char :=
  sqlCreateFile ++ insertText sqlInsertFile data skipId

/-! ## The reader -/

namespace Sql

/-- A literal. -/
inductive Literal where
  | number (value : ℚ)
  | string (text : List Char)
  deriving DecidableEq

/-- The table and the columns that a statement names. -/
structure Header where
  table : List (List Char)
  columns : List (List Char)
  deriving DecidableEq

/-- An `INSERT` statement. -/
structure Statement where
  header : Header
  tuples : List (List Literal)
  deriving DecidableEq

/-- A word, after spaces. -/
def readWord (word : String) (text : List Char) : Option (List Char) :=
  if (skipSpace text).take word.length = word.toList then some ((skipSpace text).drop word.length)
  else none

/-- A name in brackets. -/
def readName (text : List Char) : Option (List Char × List Char) :=
  match skipSpace text with
  | '[' :: text =>
    match text.dropWhile (· ≠ ']') with
    | _ :: rest => some (text.takeWhile (· ≠ ']'), rest)
    | [] => none
  | _ => none

/-- `INSERT INTO [schema].[table] ([column], ...) VALUES`. -/
def readHeader (text : List Char) : Option (Header × List Char) := do
  let text ← readWord "INSERT" text
  let text ← readWord "INTO" text
  let (schema, text) ← readName text
  let text ← readWord "." text
  let (table, text) ← readName text
  let text ← readWord "(" text
  let (columns, text) ← readList readName ')' text.length text
  let text ← readWord "VALUES" text
  return (⟨[schema, table], columns⟩, text)

/-- A string in quotes, or a number. -/
def readLiteral : List Char → Option (Literal × List Char)
  | '"' :: text => (readQuoted text).map fun (value, rest) => (.string value, rest)
  | text => (readNumber text).map fun (value, rest) => (.number value, rest)

/-- Literals in parentheses. -/
def readTuple : List Char → Option (List Literal × List Char)
  | '(' :: text => readList readLiteral ')' text.length text
  | _ => none

/-- A statement. -/
def readStatement (text : List Char) : Option (Statement × List Char) := do
  let (header, text) ← readHeader text
  let (tuples, text) ← readList readTuple ';' text.length text
  return (⟨header, tuples⟩, text)

/-- Statements up to the end of the batch. -/
def readStatements : Nat → List Char → Option (List Statement)
  | 0, _ => none
  | n + 1, text =>
    if skipSpace text = "GO".toList then some []
    else do
      let (statement, text) ← readStatement text
      let statements ← readStatements n text
      return statement :: statements

/-- The statements of a text. -/
def read (text : List Char) : Option (List Statement) := readStatements text.length text

end Sql

/-! ## What is wanted -/

/-- The text of an insert file: it is read as a header in front of a tuple. -/
structure InsertFile where
  text : List Char
  header : Sql.Header
  reads : ∀ rest, Sql.readHeader (text ++ '(' :: rest) = some (header, '(' :: rest)
  starts : ∀ rest, skipSpace (text ++ rest) = text ++ rest ∧ text ++ rest ≠ "GO".toList

set_option maxRecDepth 2000 in
/-- `accounts-insert.sql`. -/
def accountsInsert : InsertFile where
  text := ["INSERT INTO\n", "    [dbo].[Accounts] (\n", "        [PackageId],\n",
    "        [FirstName],\n", "        [LastName],\n", "        [Username],\n",
    "        [Email],\n", "        [HashedPassword],\n", "        [Origin],\n",
    "        [CreationDate],\n", "        [PackageActivationDate],\n",
    "        [AccountActive],\n", "        [Address]\n", "    )\n",
    "VALUES"].flatMap String.toList
  header := {
    table := ["dbo", "Accounts"].map String.toList
    columns := ["PackageId", "FirstName", "LastName", "Username", "Email", "HashedPassword",
      "Origin", "CreationDate", "PackageActivationDate", "AccountActive",
      "Address"].map String.toList }
  reads _ := by rfl
  starts _ := ⟨rfl, by simp⟩

/-- `balance-insert.sql`. -/
def balanceInsert : InsertFile where
  text := ["INSERT INTO\n", "[dbo].[Balance] (\n", "    [AccountId],\n", "    [Value]\n", ")\n",
    "VALUES"].flatMap String.toList
  header := {
    table := ["dbo", "Balance"].map String.toList
    columns := ["AccountId", "Value"].map String.toList }
  reads _ := by rfl
  starts _ := ⟨rfl, by simp⟩

set_option maxRecDepth 2000 in
/-- `balancehistory-insert.sql`. -/
def balancehistoryInsert : InsertFile where
  text := ["INSERT INTO\n", "\t[dbo].[Balancehistory] (\n", "\t\t[AccountId],\n",
    "\t\t[OldValue],\n", "\t\t[ValueChange],\n", "\t\t[ActionType],\n", "\t\t[ActionDate]\n",
    "\t)\n", "VALUES"].flatMap String.toList
  header := {
    table := ["dbo", "Balancehistory"].map String.toList
    columns := ["AccountId", "OldValue", "ValueChange", "ActionType",
      "ActionDate"].map String.toList }
  reads _ := by rfl
  starts _ := ⟨rfl, by simp⟩

set_option maxRecDepth 2000 in
/-- `ownedinstruments-insert.sql`. -/
def ownedinstrumentsInsert : InsertFile where
  text := ["INSERT INTO\n", "\t[dbo].[Ownedinstruments] (\n", "\t\t[AccountId],\n",
    "\t\t[InstrumentId],\n", "\t\t[Quantity],\n", "\t\t[LastModificationDate]\n", "\t)\n",
    "VALUES"].flatMap String.toList
  header := {
    table := ["dbo", "Ownedinstruments"].map String.toList
    columns := ["AccountId", "InstrumentId", "Quantity",
      "LastModificationDate"].map String.toList }
  reads _ := by rfl
  starts _ := ⟨rfl, by simp⟩

set_option maxRecDepth 2000 in
/-- `trades-insert.sql`. -/
def tradesInsert : InsertFile where
  text := ["INSERT INTO\n", "\t[dbo].[Trades] (\n", "\t\t[AccountId],\n", "\t\t[InstrumentId],\n",
    "\t\t[Direction],\n", "\t\t[Quantity],\n", "\t\t[EntryPrice],\n", "\t\t[TimestampOpen],\n",
    "\t\t[TimestampClose],\n", "\t\t[TradeClosed],\n", "\t\t[TransactionHappened],\n",
    "\t\t[Status]\n", "\t)\n", "VALUES"].flatMap String.toList
  header := {
    table := ["dbo", "Trades"].map String.toList
    columns := ["AccountId", "InstrumentId", "Direction", "Quantity", "EntryPrice",
      "TimestampOpen", "TimestampClose", "TradeClosed", "TransactionHappened",
      "Status"].map String.toList }
  reads _ := by rfl
  starts _ := ⟨rfl, by simp⟩

/-- The values of a row that are written. -/
def kept (skipId : Bool) (row : Row) : List Value :=
  (row.filter fun (key, _) => !skips skipId key).map Prod.snd

/-- A literal stands for a value. -/
def Denotes : Value → Sql.Literal → Prop
  | .int n, .number value => value = n
  | .float x, .number value => x.value? = some value
  | .str text, .string value => value = text
  | _, _ => False

/-- Statements with the values of rows, a thousand at most in each. -/
def Inserts (file : InsertFile) (rows : List (List Value)) (statements : List Sql.Statement) :
    Prop :=
  (∀ statement ∈ statements, statement.header = file.header ∧
    1 ≤ statement.tuples.length ∧ statement.tuples.length ≤ sqlInsertLimit) ∧
  List.Forall₂ (List.Forall₂ Denotes) rows (statements.flatMap Sql.Statement.tuples)

/-- A value that is read back. -/
def Value.Sound : Value → Prop
  | .int _ => True
  | .float x => x.value?.isSome = true
  | .str text => '"' ∉ text

/-! ## Literals -/

theorem isSpace_of_digit {c : Char} (digit : c.isDigit = true) : isSpace c = false :=
  (IsPlainChar.not_space (Or.inl digit)).1

/-- A written number begins with a digit or a minus sign. -/
theorem head_numberText {number : NumberText} (formed : number.WellFormed) :
    ∃ c rest, number.text = c :: rest ∧ (c.isDigit = true ∨ c = '-') := by
  obtain ⟨c, whole, split⟩ := List.exists_cons_of_ne_nil formed.whole_ne_nil
  rw [NumberText.text]
  cases number.negative with
  | true => exact ⟨'-', _, rfl, Or.inr rfl⟩
  | false =>
    rw [split]
    exact ⟨c, _, rfl, Or.inl (formed.whole c (by simp [split]))⟩

/-- What a value's text begins with. -/
theorem Value.text_cons (value : Value) :
    ∃ c rest, value.text = c :: rest ∧ isSpace c = false ∧
      (c = '"' → ∃ text, value = .str text) := by
  have number : ∀ {number : NumberText}, number.WellFormed → ∃ c rest, number.text = c :: rest ∧
      isSpace c = false ∧ c ≠ '"' := fun formed => by
    obtain ⟨c, rest, split, digit | rfl⟩ := head_numberText formed
    · refine ⟨c, rest, split, isSpace_of_digit digit, fun same => ?_⟩
      simp [same] at digit
    · exact ⟨'-', rest, split, by decide, by decide⟩
  cases value with
  | int n =>
    obtain ⟨c, rest, split, space, quote⟩ := number (wellFormed_int n)
    exact ⟨c, rest, split, space, fun same => absurd same quote⟩
  | float x =>
    cases x with
    | finite negative digits point =>
      obtain ⟨c, rest, split, space, quote⟩ := number (PyFloat.wellFormed_parts negative digits point)
      exact ⟨c, rest, split, space, fun same => absurd same quote⟩
    | infinite negative =>
      cases negative
      · exact ⟨'i', _, rfl, by decide, fun same => absurd same (by decide)⟩
      · exact ⟨'-', _, rfl, by decide, fun same => absurd same (by decide)⟩
    | nan => exact ⟨'n', _, rfl, by decide, fun same => absurd same (by decide)⟩
  | str text => exact ⟨'"', _, rfl, by decide, fun _ => ⟨text, rfl⟩⟩

/-- A value that is no string is read as a number. -/
theorem readLiteral_number {value : Value} (number : ∀ text, value ≠ .str text)
    (rest : List Char) :
    Sql.readLiteral (value.text ++ rest) =
      (readNumber (value.text ++ rest)).map fun (value, rest) => (.number value, rest) := by
  obtain ⟨c, text, split, -, string⟩ := value.text_cons
  rw [split, List.cons_append, Sql.readLiteral]
  intro more same
  obtain ⟨text, same⟩ := string (List.cons.inj same).1
  exact number text same

/-- What can come after a value in a tuple. -/
theorem ends_of_head {rest : List Char} (next : rest.head? = some ',' ∨ rest.head? = some '\n') :
    EndsNumber rest ∧ ∀ c ∈ rest.head?, c ≠ '"' := by
  rcases next with next | next
  · rw [EndsNumber, next]
    constructor <;> · rintro c ⟨⟩; decide
  · rw [EndsNumber, next]
    constructor <;> · rintro c ⟨⟩; decide

/-- How values are written and read in a tuple. -/
def literals : Items Value Sql.Literal where
  item := Sql.readLiteral
  stop := ')'
  space := "\n    ".toList
  last := "\n".toList
  write := Value.text
  denotes := Denotes
  good := Value.Sound
  stop_ne_comma := by decide
  stop_not_space := by decide
  spaces := List.all_eq_true.mp (by decide)
  lasts := List.all_eq_true.mp (by decide)
  write_skip := fun value rest => by
    obtain ⟨c, text, split, space, -⟩ := value.text_cons
    rw [split, List.cons_append]
    exact skipSpace_cons space _
  read := fun value sound rest next => by
    obtain ⟨ends, single⟩ := ends_of_head next
    cases value with
    | int n =>
      refine ⟨.number n, ?_, rfl⟩
      rw [readLiteral_number (by simp), Value.text, readNumber_intText n ends]
      rfl
    | float x =>
      obtain ⟨value, denotes⟩ := Option.isSome_iff_exists.mp sound
      refine ⟨.number value, ?_, denotes⟩
      rw [readLiteral_number (by simp), Value.text, x.readNumber_repr ends, denotes]
      rfl
    | str text =>
      refine ⟨.string text, ?_, rfl⟩
      rw [Value.text, List.cons_append, List.append_assoc, Sql.readLiteral]
      exact congrArg _ ((readQuoted_eq_iff single rest).mpr ⟨sound, rfl⟩)
  good_of_read := fun value rest next literal rest' read denotes => by
    obtain ⟨ends, single⟩ := ends_of_head next
    cases value with
    | int n =>
      rw [readLiteral_number (by simp), Value.text, readNumber_intText n ends] at read
      exact ⟨trivial, (Prod.mk.inj (Option.some.inj read)).2.symm⟩
    | float x =>
      rw [readLiteral_number (by simp), Value.text, x.readNumber_repr ends] at read
      rcases known : x.value? with _ | value
      · rw [known] at read
        cases read
      · rw [known] at read
        exact ⟨by rw [Value.Sound, known]; rfl, (Prod.mk.inj (Option.some.inj read)).2.symm⟩
    | str text =>
      rw [Value.text, List.cons_append, List.append_assoc, Sql.readLiteral,
        Option.map_eq_some_iff] at read
      obtain ⟨⟨inner, after⟩, quoted, same⟩ := read
      obtain ⟨rfl, rfl⟩ := Prod.mk.inj same
      obtain rfl : inner = text := denotes
      exact (readQuoted_eq_iff single after).mp quoted

/-! ## Tuples -/

/-- The text of a tuple. -/
def tupleText (values : List Value) : List Char :=
  '(' :: ("\n    ".toList ++ if values = [] then "\n)".toList else literals.text values)

/-- The loop writes the values that are kept, each after a separator. -/
theorem valuesLoop_false (skipId : Bool) (dict : Row) (result : List Char) :
    valuesLoop skipId dict result false =
      result ++ (kept skipId dict).flatMap fun value => ",\n    ".toList ++ value.text := by
  induction dict generalizing result with
  | nil => simp [valuesLoop, kept]
  | cons entry dict ih =>
    obtain ⟨key, value⟩ := entry
    rw [valuesLoop]
    by_cases skip : skips skipId key = true
    · rw [if_pos skip, ih]
      simp [kept, skip]
    · rw [if_neg skip]
      dsimp only
      rw [ih]
      simp [kept, skip]

theorem literals_text_cons (value : Value) (values : List Value) :
    literals.text (value :: values) = value.text ++
      ((values.flatMap fun value => ",\n    ".toList ++ value.text) ++ "\n)".toList) := by
  induction values generalizing value with
  | nil => rfl
  | cons next values ih =>
    have step := literals.text_cons_cons value next values []
    rw [List.append_nil, List.append_nil, ih] at step
    rw [step]
    simp [literals]

/-- A row is written as the tuple of what is kept of it. -/
theorem dictToSqlValues_eq (dict : Row) (skipId : Bool) :
    dictToSqlValues dict skipId = tupleText (kept skipId dict) := by
  have first : ∀ dict : Row, valuesLoop skipId dict "(\n    ".toList true ++ "\n)".toList =
      tupleText (kept skipId dict) := by
    intro dict
    induction dict with
    | nil => rfl
    | cons entry dict ih =>
      obtain ⟨key, value⟩ := entry
      rw [valuesLoop]
      by_cases skip : skips skipId key = true
      · rw [if_pos skip, ih]
        simp [kept, skip]
      · have here : kept skipId ((key, value) :: dict) = value :: kept skipId dict := by
          simp [kept, skip]
        rw [if_neg skip, here, tupleText, if_neg (List.cons_ne_nil _ _), literals_text_cons]
        dsimp only
        rw [valuesLoop_false]
        simp
  exact first dict

theorem readTuple_text (values : List Value) (rest : List Char) :
    Sql.readTuple (tupleText values ++ rest) =
      readList literals.item literals.stop
        ("\n    ".toList ++ ((if values = [] then "\n)".toList else literals.text values) ++
          rest)).length
        ("\n    ".toList ++ ((if values = [] then "\n)".toList else literals.text values) ++
          rest)) := by
  rw [tupleText, List.cons_append, List.append_assoc]
  rfl

/-- How tuples are written and read in a statement. -/
def tuples : Items (List Value) (List Sql.Literal) where
  item := Sql.readTuple
  stop := ';'
  space := "\n".toList
  last := []
  write := tupleText
  denotes := List.Forall₂ Denotes
  good := fun values => values ≠ [] ∧ ∀ value ∈ values, value.Sound
  stop_ne_comma := by decide
  stop_not_space := by decide
  spaces := List.all_eq_true.mp (by decide)
  lasts := by simp
  write_skip := fun values rest => skipSpace_cons (by decide) _
  read := fun values good rest _ => by
    obtain ⟨some_, sound⟩ := good
    have enough : values.length ≤ ("\n    ".toList ++ (literals.text values ++ rest)).length := by
      have bound := literals.length_le_text values
      simp only [List.length_append]
      omega
    obtain ⟨bs, read, denotes⟩ := literals.readList_text some_ sound enough rest
    refine ⟨bs, ?_, denotes⟩
    rw [readTuple_text, if_neg some_, readList_append (List.all_eq_true.mp (by decide))]
    exact read
  good_of_read := fun values rest _ bs rest' read denotes => by
    rw [readTuple_text] at read
    rcases eq_or_ne values [] with rfl | some_
    · obtain ⟨b, left, tail, -, rfl⟩ := exists_cons_of_readList read
      cases denotes
    · rw [if_neg some_, readList_append (List.all_eq_true.mp (by decide))] at read
      have denotesAll : List.Forall₂ literals.denotes (values ++ []) (bs ++ []) := by
        rw [List.append_nil, List.append_nil]
        exact denotes
      obtain ⟨sound, same, -⟩ := literals.good_of_readList some_ read denotesAll
      exact ⟨⟨some_, sound⟩, same⟩

/-! ## Statements -/

section Statements

variable (file : List Char) (skipId : Bool)

/-- The text from a row on, the rows counted from `index`. -/
def rowsText : Nat → List Row → List Char
  | _, [] => "GO".toList
  | index, row :: rows =>
    (if index % sqlInsertLimit = 0 then file else []) ++ (dictToSqlValues row skipId ++
      ((if rows = [] ∨ index % sqlInsertLimit = sqlInsertLimit - 1 then ";\n".toList
        else ",\n".toList) ++ rowsText (index + 1) rows))

theorem insertText_eq (data : List Row) : insertText file data skipId = rowsText file skipId 0 data := by
  have rows : ∀ (rows : List Row) (index : Nat), data.length = index + rows.length →
      ((rows.zipIdx index).flatMap fun (elem, index) =>
        (if index % sqlInsertLimit = 0 then file else []) ++ dictToSqlValues elem skipId ++
          (if index = data.length - 1 ∨ index % sqlInsertLimit = sqlInsertLimit - 1 then
            ";\n".toList else ",\n".toList)) ++ "GO".toList =
        rowsText file skipId index rows := by
    intro rows
    induction rows with
    | nil => exact fun _ _ => rfl
    | cons row rows ih =>
      intro index length
      have last : index = data.length - 1 ↔ rows = [] := by
        rw [← List.length_eq_zero_iff, length, List.length_cons]
        omega
      rw [List.zipIdx_cons, List.flatMap_cons, List.append_assoc, rowsText,
        ih (index + 1) (by rw [length, List.length_cons]; omega)]
      simp only [last, List.append_assoc]
  exact rows data 0 (Nat.zero_add _).symm

/-- A block of rows is a list of tuples up to a semicolon. -/
theorem rowsText_block (index : Nat) {rows : List Row} (some_ : rows ≠ []) :
    rowsText file skipId index rows = (if index % sqlInsertLimit = 0 then file else []) ++
      (tuples.text ((rows.take (sqlInsertLimit - index % sqlInsertLimit)).map (kept skipId)) ++
        '\n' :: rowsText file skipId (index + (sqlInsertLimit - index % sqlInsertLimit))
          (rows.drop (sqlInsertLimit - index % sqlInsertLimit))) := by
  induction rows generalizing index with
  | nil => exact absurd rfl some_
  | cons row rows ih =>
    have within : index % sqlInsertLimit < sqlInsertLimit := Nat.mod_lt _ (by decide)
    obtain ⟨k, block⟩ : ∃ k, sqlInsertLimit - index % sqlInsertLimit = k + 1 :=
      ⟨sqlInsertLimit - index % sqlInsertLimit - 1, by omega⟩
    have alone : ∀ rest, tuples.text [kept skipId row] ++ rest =
        tupleText (kept skipId row) ++ (';' :: rest) := tuples.text_singleton _
    rw [rowsText, dictToSqlValues_eq, block, List.take_succ_cons, List.drop_succ_cons, List.map_cons]
    cases rows with
    | nil =>
      rw [List.take_nil, List.drop_nil, List.map_nil, alone, if_pos (Or.inl rfl)]
      rfl
    | cons next rows =>
      by_cases last : index % sqlInsertLimit = sqlInsertLimit - 1
      · obtain rfl : k = 0 := by omega
        rw [List.take_zero, List.map_nil, alone, if_pos (Or.inr last)]
        rfl
      · obtain ⟨j, rfl⟩ : ∃ j, k = j + 1 := ⟨k - 1, by omega⟩
        have modulo : (index + 1) % sqlInsertLimit = index % sqlInsertLimit + 1 := by
          rw [Nat.add_mod, Nat.mod_eq_of_lt (a := 1) (by decide)]
          exact Nat.mod_eq_of_lt (by omega)
        have left : sqlInsertLimit - (index + 1) % sqlInsertLimit = j + 1 := by omega
        have goesOn : ¬(next :: rows = [] ∨ index % sqlInsertLimit = sqlInsertLimit - 1) := by
          simp [last]
        have later := ih (index + 1) (List.cons_ne_nil _ _)
        rw [left, if_neg (by omega), List.nil_append, List.take_succ_cons, List.drop_succ_cons,
          List.map_cons] at later
        rw [if_neg goesOn, later, List.take_succ_cons, List.drop_succ_cons, List.map_cons,
          tuples.text_cons_cons]
        have next : index + 1 + (j + 1) = index + (j + 1 + 1) := by omega
        rw [next]
        rfl

theorem length_rowsText (index : Nat) (rows : List Row) :
    rows.length < (rowsText file skipId index rows).length := by
  induction rows generalizing index with
  | nil => exact (by decide : 0 < "GO".toList.length)
  | cons row rows ih =>
    have later := ih (index + 1)
    have separator : 1 ≤ (if rows = [] ∨ index % sqlInsertLimit = sqlInsertLimit - 1 then
        ";\n".toList else ",\n".toList).length := by
      split_ifs <;> decide
    rw [rowsText]
    simp only [List.length_append, List.length_cons]
    omega

end Statements

section Reading

variable (file : InsertFile) (skipId : Bool)

/-- Leading spaces do not matter to a statement. -/
theorem readStatements_append {space : List Char} (spaces : ∀ c ∈ space, isSpace c = true)
    (n : Nat) (text : List Char) :
    Sql.readStatements n (space ++ text) = Sql.readStatements n text := by
  have word : ∀ word, Sql.readWord word (space ++ text) = Sql.readWord word text := fun word => by
    rw [Sql.readWord, Sql.readWord, skipSpace_append spaces]
  cases n with
  | zero => rfl
  | succ n =>
    rw [Sql.readStatements, Sql.readStatements, skipSpace_append spaces, Sql.readStatement,
      Sql.readStatement, Sql.readHeader, Sql.readHeader, word]

/-- A block is read as its tuples are. -/
theorem readStatements_block (n : Nat) (block : List (List Value)) (some_ : block ≠ [])
    (rest : List Char) :
    Sql.readStatements (n + 1) (file.text ++ (tuples.text block ++ rest)) = do
      let (statement, text) ← (readList tuples.item tuples.stop
        (tuples.text block ++ rest).length (tuples.text block ++ rest)).map
          fun (bs, text) => ((⟨file.header, bs⟩ : Sql.Statement), text)
      let statements ← Sql.readStatements n text
      return statement :: statements := by
  obtain ⟨first, others, rfl⟩ := List.exists_cons_of_ne_nil some_
  obtain ⟨after, open_⟩ : ∃ after, tuples.text (first :: others) ++ rest = '(' :: after := by
    cases others with
    | nil => exact ⟨_, tuples.text_singleton first rest⟩
    | cons second others => exact ⟨_, tuples.text_cons_cons first second others rest⟩
  obtain ⟨skip, notEnd⟩ := file.starts ('(' :: after)
  rw [open_, Sql.readStatements, skip, if_neg notEnd, Sql.readStatement, file.reads]
  simp only [Option.bind_eq_bind, Option.bind_some]
  change Option.bind (Option.bind (readList tuples.item tuples.stop _ _) _) _ = _
  cases readList tuples.item tuples.stop ('(' :: after).length ('(' :: after) <;> rfl

/-- The rows of a block and those after it. -/
theorem map_kept_split (rows : List Row) (k : Nat) :
    rows.map (kept skipId) = (rows.take k).map (kept skipId) ++ (rows.drop k).map (kept skipId) := by
  rw [← List.map_append, List.take_append_drop]

/-- The text at a boundary of blocks. -/
theorem rowsText_boundary {index : Nat} (boundary : index % sqlInsertLimit = 0) {rows : List Row}
    (some_ : rows ≠ []) :
    rowsText file.text skipId index rows =
      file.text ++ (tuples.text ((rows.take sqlInsertLimit).map (kept skipId)) ++
        (['\n'] ++ rowsText file.text skipId (index + sqlInsertLimit) (rows.drop sqlInsertLimit))) := by
  rw [rowsText_block file.text skipId index some_, if_pos boundary, boundary]
  rfl

/-- Rows that can all be read are read. -/
theorem read_of_good {rows : List Row} (good : ∀ row ∈ rows, tuples.good (kept skipId row))
    {index : Nat} (boundary : index % sqlInsertLimit = 0) {n : Nat} (enough : rows.length < n) :
    ∃ statements, Sql.readStatements n (rowsText file.text skipId index rows) = some statements ∧
      Inserts file (rows.map (kept skipId)) statements := by
  induction n generalizing rows index with
  | zero => exact absurd enough (Nat.not_lt_zero _)
  | succ n ih =>
    rcases eq_or_ne rows [] with rfl | some_
    · exact ⟨[], rfl, by simp, .nil⟩
    have block : (rows.take sqlInsertLimit).map (kept skipId) ≠ [] := by
      simp [some_, sqlInsertLimit]
    have goodBlock : ∀ values ∈ (rows.take sqlInsertLimit).map (kept skipId),
        tuples.good values := fun values listed => by
      obtain ⟨row, taken, rfl⟩ := List.mem_map.mp listed
      exact good row (List.mem_of_mem_take taken)
    have fewer : (rows.drop sqlInsertLimit).length < n := by
      have positive := List.length_pos_iff.mpr some_
      rw [List.length_drop, sqlInsertLimit]
      omega
    have next : (index + sqlInsertLimit) % sqlInsertLimit = 0 := by
      rw [Nat.add_mod_right, boundary]
    obtain ⟨others, read, headers, denotes⟩ :=
      ih (fun row left => good row (List.mem_of_mem_drop left)) next fewer
    have long : ((rows.take sqlInsertLimit).map (kept skipId)).length ≤
        (tuples.text ((rows.take sqlInsertLimit).map (kept skipId)) ++ (['\n'] ++
          rowsText file.text skipId (index + sqlInsertLimit)
            (rows.drop sqlInsertLimit))).length := by
      rw [List.length_append]
      exact (tuples.length_le_text _).trans (Nat.le_add_right _ _)
    obtain ⟨bs, reads, all⟩ := tuples.readList_text block goodBlock long
      (['\n'] ++ rowsText file.text skipId (index + sqlInsertLimit) (rows.drop sqlInsertLimit))
    refine ⟨⟨file.header, bs⟩ :: others, ?_, ?_, ?_⟩
    · rw [rowsText_boundary file skipId boundary some_, readStatements_block file n _ block, reads]
      simp only [Option.map_some, Option.bind_eq_bind, Option.bind_some]
      rw [readStatements_append (List.all_eq_true.mp (by decide)), read]
      rfl
    · have length := all.length_eq
      have positive := List.length_pos_iff.mpr block
      have most : ((rows.take sqlInsertLimit).map (kept skipId)).length ≤ sqlInsertLimit := by
        rw [List.length_map, List.length_take]
        exact Nat.min_le_left _ _
      refine List.forall_mem_cons.mpr ⟨⟨rfl, ?_, ?_⟩, headers⟩
      · exact length ▸ positive
      · exact length ▸ most
    · rw [map_kept_split skipId rows sqlInsertLimit, List.flatMap_cons]
      exact List.rel_append all denotes

/-- Rows are read as their values only if they can all be read. -/
theorem good_of_read {rows : List Row} {index : Nat} (boundary : index % sqlInsertLimit = 0)
    {n : Nat} {statements : List Sql.Statement}
    (read : Sql.readStatements n (rowsText file.text skipId index rows) = some statements)
    (denotes : List.Forall₂ (List.Forall₂ Denotes) (rows.map (kept skipId))
      (statements.flatMap Sql.Statement.tuples)) :
    ∀ row ∈ rows, tuples.good (kept skipId row) := by
  induction n generalizing rows index statements with
  | zero => cases read
  | succ n ih =>
    rcases eq_or_ne rows [] with rfl | some_
    · simp
    have block : (rows.take sqlInsertLimit).map (kept skipId) ≠ [] := by
      simp [some_, sqlInsertLimit]
    have next : (index + sqlInsertLimit) % sqlInsertLimit = 0 := by
      rw [Nat.add_mod_right, boundary]
    rw [rowsText_boundary file skipId boundary some_, readStatements_block file n _ block] at read
    obtain ⟨⟨statement, text⟩, first, read⟩ := Option.bind_eq_some_iff.mp read
    obtain ⟨others, later, same⟩ := Option.bind_eq_some_iff.mp read
    obtain ⟨⟨bs, rest⟩, reads, values⟩ := Option.map_eq_some_iff.mp first
    obtain ⟨rfl, rfl⟩ := Prod.mk.inj values
    obtain rfl := Option.some.inj same
    rw [map_kept_split skipId rows sqlInsertLimit, List.flatMap_cons] at denotes
    obtain ⟨goodBlock, rfl, left⟩ := tuples.good_of_readList block reads denotes
    rw [readStatements_append (List.all_eq_true.mp (by decide))] at later
    have goodRest := ih next later left
    intro row listed
    rw [← List.take_append_drop sqlInsertLimit rows, List.mem_append] at listed
    rcases listed with taken | left
    · exact goodBlock _ (List.mem_map_of_mem taken)
    · exact goodRest row left

/-- The text is read as statements with exactly the rows' values if and only if each row has a
value that is written, no written string has a quote, and every written float is finite. -/
theorem insertText_reads_iff (data : List Row) :
    (∃ statements, Sql.read (insertText file.text data skipId) = some statements ∧
      Inserts file (data.map (kept skipId)) statements) ↔
      ∀ row ∈ data, kept skipId row ≠ [] ∧ ∀ value ∈ kept skipId row, value.Sound := by
  rw [insertText_eq, Sql.read]
  constructor
  · rintro ⟨statements, read, -, denotes⟩
    exact good_of_read file skipId rfl read denotes
  · intro good
    exact read_of_good file skipId good rfl (length_rowsText file.text skipId 0 data)

/-- Quotes in a value are not doubled, so they end its literal. -/
theorem quote_ends_literal :
    ¬∀ (file : InsertFile) (skipId : Bool) (data : List Row) (keys : List (List Char)),
      (∀ row ∈ data, row.map Prod.fst = keys) →
      ∃ statements, Sql.read (insertText file.text data skipId) = some statements ∧
        Inserts file (data.map (kept skipId)) statements := by
  intro all
  let row : Row := [("AccountId".toList, .int 7), ("Value".toList, .str "a\"b".toList)]
  obtain ⟨statements, read, -⟩ := all balanceInsert false [row] (row.map Prod.fst) (by simp)
  have fails : Sql.read (insertText balanceInsert.text [row] false) = none := by decide +kernel
  rw [fails] at read
  cases read

end Reading

end EasyTrade.UserGenerator
