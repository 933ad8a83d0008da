import EasyTrade.Content.Retirement

/-!
# The removal of excess rows

Once a day the content creator counts the rows of `Trades` and of `Balancehistory`. Of a table
with more rows than its maximum it deletes the oldest ones: always half of the maximum, however
many rows there are. So the table is within its maximum again unless it exceeded it by more than
that.
-/

namespace EasyTrade.Content.Excess

open EasyTrade.Store

/-! ## Queries -/

/-- The members of `SQLTables` whose excess rows are removed. -/
inductive SQLTable where
  | trades
  | balanceHistory
  deriving DecidableEq, Repr

namespace SQLTable

/-- `getName`. -/
def name : SQLTable → String
  | trades => "[dbo].[Trades]"
  | balanceHistory => "[dbo].[Balancehistory]"

/-- `getDateField`. -/
def dateField : SQLTable → String
  | trades => "[TimestampOpen]"
  | balanceHistory => "[ActionDate]"

/-- `getCountCheckQuery`. -/
def getCountCheckQuery (table : SQLTable) (conditionString : String) : String :=
  "SELECT COUNT(Id) AS [COUNT] FROM " ++ table.name ++ " " ++ conditionString

/-- `getDeleteTopQuery`. -/
def getDeleteTopQuery (table : SQLTable) (conditionString : String) : String :=
  "WITH T AS (SELECT TOP (?) * FROM " ++ table.name ++ " " ++ conditionString ++ " ORDER BY " ++
    table.dateField ++ ") DELETE FROM T"

/-- `MAX_TRADES_COUNT` and `MAX_BALANCE_COUNT`. -/
def maxCount : SQLTable → Nat
  | trades => 30000
  | balanceHistory => 30000

end SQLTable

example : SQLTable.trades.getDeleteTopQuery "" =
    "WITH T AS (SELECT TOP (?) * FROM [dbo].[Trades]  ORDER BY [TimestampOpen]) DELETE FROM T" := by
  decide +kernel

/-- `ORDER BY` a date, rows of one date by the server's choice. -/
def Earlier {α : Type} (date : α → Int) (rank : α → Nat) (a b : α) : Prop :=
  date a < date b ∨ (date a = date b ∧ rank a ≤ rank b)

section Order

variable {α : Type} (date : α → Int) (rank : α → Nat)

instance : DecidableRel (Earlier date rank) := fun _ _ => inferInstanceAs (Decidable (_ ∨ _))

instance : Std.Total (Earlier date rank) where
  total a b := by
    unfold Earlier
    omega

instance : IsTrans α (Earlier date rank) where
  trans a b c hab hbc := by
    unfold Earlier at *
    omega

theorem Earlier.date_le {date : α → Int} {rank : α → Nat} {a b : α} (h : Earlier date rank a b) :
    date a ≤ date b := by
  unfold Earlier at h
  omega

end Order

/-! ## Tables -/

/-- What the statements read of a row. -/
structure Row where
  /-- The primary key, drawn from the identity column. -/
  id : Int
  /-- The account, whose deletion deletes the row. -/
  accountId : Int
  /-- The date column. -/
  date : Int
  deriving DecidableEq, Repr

/-- A table with its key and its identity column. -/
structure Table where
  rows : List Row
  /-- The next identifier. -/
  seed : Int
  distinct : (rows.map Row.id).Nodup
  below : ∀ row ∈ rows, row.id < seed

namespace Table

/-- An `INSERT`. -/
def insert (t : Table) (accountId date : Int) : Table where
  rows := t.rows ++ [⟨t.seed, accountId, date⟩]
  seed := t.seed + 1
  distinct := by
    rw [List.map_append, List.nodup_append]
    refine ⟨t.distinct, List.nodup_singleton _, ?_⟩
    intro id old new isNew same
    obtain ⟨row, mem, rfl⟩ := List.mem_map.mp old
    have below := t.below row mem
    have : new = t.seed := List.mem_singleton.mp isNew
    omega
  below := by
    intro row mem
    rcases List.mem_append.mp mem with old | new
    · have := t.below row old
      omega
    · have : row = ⟨t.seed, accountId, date⟩ := List.mem_singleton.mp new
      subst this
      show t.seed < t.seed + 1
      omega

/-- A `DELETE` of the rows that do not meet a condition. -/
def keep (t : Table) (stays : Row → Bool) : Table where
  rows := t.rows.filter stays
  seed := t.seed
  distinct := t.distinct.sublist (List.Sublist.map _ List.filter_sublist)
  below row mem := t.below row (List.mem_of_mem_filter mem)

/-- The rows added by accounts, each at a date. -/
def insertAll (t : Table) (rows : List (Int × Int)) : Table :=
  rows.foldl (fun t row => t.insert row.1 row.2) t

theorem length_insertAll (t : Table) (rows : List (Int × Int)) :
    (t.insertAll rows).rows.length = t.rows.length + rows.length := by
  induction rows generalizing t with
  | nil => rfl
  | cons row rest ih =>
    have one : (t.insert row.1 row.2).rows.length = t.rows.length + 1 := by
      show (t.rows ++ [_]).length = _
      rw [List.length_append]
      rfl
    show ((t.insert row.1 row.2).insertAll rest).rows.length = _
    rw [ih, one, List.length_cons]
    omega

end Table

/-! ## The daily job -/

/-- The order of `getDeleteTopQuery`. -/
abbrev Older (rank : Int → Nat) : Row → Row → Prop := Earlier Row.date fun row => rank row.id

/-- `getTableCount`, -1 if the statement fails. -/
def getTableCount (fails : Bool) (t : Table) : Int := if fails then -1 else (t.rows.length : Nat)

/-- `checkTableCount`. -/
def checkTableCount (fails : Bool) (t : Table) (maxCount : Nat) : Bool :=
  decide (getTableCount fails t > maxCount)

/-- `deleteFromTableTop`: a statement that fails, or a negative number, deletes nothing. -/
def deleteFromTableTop (fails : Bool) (rank : Int → Nat) (n : Int) (t : Table) : Table :=
  if fails = true ∨ n < 0 then t else t.keep fun row => row ∉ top (Older rank) n.toNat t.rows

/-- `removeExcessiveTradeData` and `removeExcessiveBalanceHistoryData`, with the maximum of the
table. -/
def removeExcessiveData (fails : Nat → Bool) (rank : Int → Nat) (maxCount : Nat) (t : Table) :
    Table :=
  if checkTableCount (fails 0) t maxCount then
    deleteFromTableTop (fails 1) rank (cleanupCount id maxCount cleanupRatio) t
  else t

/-- The two tables. -/
abbrev Tables := SQLTable → Table

/-- A day: what is added to the tables, which statements of the job fail, and the accounts that
the job deletes afterwards. -/
structure Day where
  added : SQLTable → List (Int × Int)
  fails : SQLTable → Nat → Bool
  deletedAccounts : List Int

namespace Day

/-- The tables when the job starts. -/
def before (d : Day) (s : Tables) : Tables := fun table => (s table).insertAll (d.added table)

/-- The tables when the excess rows have been removed. -/
def cleaned (rank : Int → Nat) (d : Day) (s : Tables) : Tables := fun table =>
  removeExcessiveData (d.fails table) rank table.maxCount (d.before s table)

/-- `doEachDay`: the tables when the job has ended. Rows of deleted accounts are deleted. -/
def doEachDay (rank : Int → Nat) (d : Day) (s : Tables) : Tables := fun table =>
  (d.cleaned rank s table).keep fun row => row.accountId ∉ d.deletedAccounts

/-- No statement fails. -/
def Sound (d : Day) : Prop := ∀ table n, d.fails table n = false

end Day

/-- The tables after so many days. -/
def afterDays (rank : Int → Nat) (s : Tables) (days : List Day) : Tables :=
  days.foldl (fun s d => d.doEachDay rank s) s

/-! ## What is kept -/

variable {rank : Int → Nat}

theorem cleanupCount_eq (table : SQLTable) :
    cleanupCount id table.maxCount cleanupRatio = 15000 := by
  cases table <;> decide +kernel

theorem Table.nodup (t : Table) : t.rows.Nodup := t.distinct.of_map

/-- A job in which no statement fails deletes nothing from a small table and the 15000 oldest
rows from any other. -/
theorem Day.rows_cleaned {d : Day} (sound : d.Sound) (s : Tables) (table : SQLTable) :
    (d.cleaned rank s table).rows =
      if table.maxCount < (d.before s table).rows.length then
        rest (Older rank) 15000 (d.before s table).rows
      else (d.before s table).rows := by
  unfold Day.cleaned removeExcessiveData checkTableCount getTableCount
  rw [sound table 0, sound table 1, cleanupCount_eq]
  by_cases many : table.maxCount < (d.before s table).rows.length
  · have check : ((d.before s table).rows.length : Int) > table.maxCount := by omega
    simp only [Bool.false_eq_true, if_false, decide_eq_true check, if_true, if_pos many]
    rfl
  · have check : ¬((d.before s table).rows.length : Int) > table.maxCount := by omega
    simp only [Bool.false_eq_true, if_false, decide_eq_false check, if_neg many]

/-- A table after the job is within its maximum, and what the job removed in excess is the
oldest. -/
structure Retained (maxCount : Nat) (before cleaned after : Table) : Prop where
  few : after.rows.length ≤ maxCount
  oldest : ∃ removed, (removed ++ cleaned.rows).Perm before.rows ∧
    ∀ a ∈ removed, ∀ b ∈ cleaned.rows, a.date ≤ b.date

/-- A table is retained by the job of a day. -/
def Day.Retains (rank : Int → Nat) (d : Day) (s : Tables) (table : SQLTable) : Prop :=
  Retained table.maxCount (d.before s table) (d.cleaned rank s table) (d.doEachDay rank s table)

/-- What a job removes is always the oldest. -/
theorem Day.removes_oldest {d : Day} (sound : d.Sound) (s : Tables) (table : SQLTable) :
    ∃ removed, (removed ++ (d.cleaned rank s table).rows).Perm (d.before s table).rows ∧
      ∀ a ∈ removed, ∀ b ∈ (d.cleaned rank s table).rows, a.date ≤ b.date := by
  rw [d.rows_cleaned sound]
  by_cases many : table.maxCount < (d.before s table).rows.length
  · rw [if_pos many]
    refine ⟨top (Older rank) 15000 (d.before s table).rows, perm_top_rest _ (Table.nodup _), ?_⟩
    intro a taken b left
    obtain ⟨mem, left⟩ := (mem_rest _).mp left
    exact (rel_of_mem_top (Older rank) taken mem left).date_le
  · rw [if_neg many]
    exact ⟨[], List.Perm.refl _, nofun⟩

/-- The size of a table when the excess rows have been removed. -/
theorem Day.length_cleaned {d : Day} (sound : d.Sound) (s : Tables) (table : SQLTable) :
    (d.cleaned rank s table).rows.length ≤ table.maxCount ↔
      (d.before s table).rows.length ≤ 45000 := by
  have isMax : table.maxCount = 30000 := by cases table <;> rfl
  rw [d.rows_cleaned sound, isMax]
  by_cases many : 30000 < (d.before s table).rows.length
  · rw [if_pos many, length_rest _ (Table.nodup _)]
    omega
  · rw [if_neg many]
    omega

/-- A table of at most 45000 rows is retained. -/
theorem Day.retains {d : Day} (sound : d.Sound) {s : Tables} {table : SQLTable}
    (small : (d.before s table).rows.length ≤ 45000) : d.Retains rank s table := by
  refine ⟨?_, d.removes_oldest sound s table⟩
  have cleaned : (d.cleaned rank s table).rows.length ≤ table.maxCount :=
    (d.length_cleaned sound s table).mpr small
  exact Nat.le_trans (List.length_filter_le _ _) cleaned

/-- Where no account is deleted only such a table is. -/
theorem Day.small_of_retains {d : Day} (sound : d.Sound) {s : Tables} {table : SQLTable}
    (none : d.deletedAccounts = []) (retains : d.Retains rank s table) :
    (d.before s table).rows.length ≤ 45000 := by
  have same : (d.doEachDay rank s table).rows = (d.cleaned rank s table).rows := by
    refine List.filter_eq_self.mpr fun row _ => ?_
    rw [none]
    rfl
  have few := retains.few
  rw [same] at few
  exact (d.length_cleaned sound s table).mp few

/-- Days that add no more than a job removes keep the tables within their maxima. -/
theorem afterDays_few {days : List Day} {s : Tables}
    (few : ∀ table, (s table).rows.length ≤ table.maxCount)
    (moderate : ∀ d ∈ days, d.Sound ∧ ∀ table, (d.added table).length ≤ 15000)
    (table : SQLTable) : (afterDays rank s days table).rows.length ≤ table.maxCount := by
  induction days generalizing s with
  | nil => exact few table
  | cons d rest ih =>
    obtain ⟨sound, added⟩ := moderate d List.mem_cons_self
    refine ih (fun table => ?_) fun d' later => moderate d' (List.mem_cons_of_mem _ later)
    have retains : (d.before s table).rows.length ≤ 45000 → d.Retains rank s table := d.retains sound
    refine (retains ?_).few
    have isMax : table.maxCount = 30000 := by cases table <;> rfl
    have old := few table
    have new := added table
    have size := (s table).length_insertAll (d.added table)
    show ((s table).insertAll (d.added table)).rows.length ≤ 45000
    omega

/-- In every run of days each job in which no statement fails retains the tables if it finds no
more than 45000 rows in them; if no account is deleted, just then. -/
theorem tables_retained (rank : Int → Nat) (s : Tables) (days : List Day) :
    let runs (P : Day → Tables → Prop) := ∀ earlier d later, days = earlier ++ d :: later →
      d.Sound → P d (afterDays rank s earlier)
    let small := runs fun d s => ∀ table, (d.before s table).rows.length ≤ 45000
    let retained := runs fun d s => ∀ table, d.Retains rank s table
    (small → retained) ∧ ((∀ d ∈ days, d.deletedAccounts = []) → (retained ↔ small)) := by
  intro runs small retained
  have enough : small → retained := fun holds earlier d later split sound table =>
    d.retains sound (holds earlier d later split sound table)
  refine ⟨enough, fun none => ⟨?_, enough⟩⟩
  intro holds earlier d later split sound table
  have nobody : d.deletedAccounts = [] := none d (by simp [split])
  exact d.small_of_retains sound nobody (holds earlier d later split sound table)

/-- A table of so many rows of one account. -/
def filled (n : Nat) : Table where
  rows := (List.range n).map fun (k : Nat) => ⟨k, 2, k⟩
  seed := n
  distinct := by
    rw [List.map_map]
    exact List.nodup_range.map fun a b same => Int.ofNat.inj same
  below := by
    intro row mem
    obtain ⟨k, inside, rfl⟩ := List.mem_map.mp mem
    have := List.mem_range.mp inside
    show (k : Int) < n
    omega

/-- A day on which nothing happens. -/
def quiet : Day := ⟨fun _ => [], fun _ _ => false, []⟩

/-- From 45001 rows the job of a quiet day leaves 30001. -/
theorem large_table_not_retained :
    quiet.Sound ∧ ¬quiet.Retains Int.toNat (fun _ => filled 45001) .trades := by
  have sound : quiet.Sound := fun _ _ => rfl
  refine ⟨sound, fun retains => ?_⟩
  have small := quiet.small_of_retains sound rfl retains
  have size : (filled 45001).rows.length = 45001 := by
    simp [filled]
  have start : (quiet.before (fun _ => filled 45001) .trades).rows.length = 45001 := size
  omega

end EasyTrade.Content.Excess
