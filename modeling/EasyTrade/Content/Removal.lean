import EasyTrade.Content.Retirement

/-!
# The removal of inactive accounts

Once a day the content creator deletes the inactive accounts that are not preset, in one
statement. Rows of other tables refer to accounts. Most of them are deleted with their account;
the orders of credit cards are not, and the server rejects the statement as a whole when one of
them would be left without its account. The error is caught and printed.
-/

namespace EasyTrade.Content

/-! ## Tables that refer to accounts -/

/-- The tables with a foreign key to `Accounts`. -/
inductive Table where
  | balance
  | balanceHistory
  | ownedInstruments
  | trades
  | creditCardOrders
  deriving DecidableEq, Repr

/-- `ON DELETE CASCADE`. -/
def Table.cascades : Table → Bool
  | creditCardOrders => false
  | _ => true

/-- A row that refers to an account. -/
structure Reference (Data : Type) where
  /-- The foreign key. -/
  accountId : Int
  /-- The other columns. -/
  data : Data

/-- The accounts and the rows that refer to them. -/
structure Database (Data : Type) where
  accounts : List Account
  rows : Table → List (Reference Data)

variable {Data : Type}

/-! ## The statement -/

/-- `selectFromTable` of `Accounts`. -/
def selectFromAccountsText (condition : Condition) : String :=
  "SELECT * FROM [dbo].[Accounts] " ++ condition.text

/-- The text of `deleteSelected`. -/
def deleteSelectedText (selectQuery : String) : String :=
  "WITH T AS (" ++ selectQuery ++ ") DELETE FROM T"

/-- The keys of the accounts that meet a condition. -/
def Database.selected (db : Database Data) (condition : Condition) : List Int :=
  (db.accounts.filter fun a => condition.Holds a).map Account.id

/-- The row refers to none of the accounts that meet a condition. -/
def Database.Spares (db : Database Data) (condition : Condition) (row : Reference Data) : Prop :=
  row.accountId ∉ db.selected condition

instance (db : Database Data) (condition : Condition) :
    DecidablePred (db.Spares condition) := fun _ => inferInstanceAs (Decidable (_ ∉ _))

/-- No row that would be left over refers to an account that meets a condition. -/
def Database.Unreferenced (db : Database Data) (condition : Condition) : Prop :=
  ∀ row ∈ db.rows .creditCardOrders, db.Spares condition row

instance (db : Database Data) (condition : Condition) : Decidable (db.Unreferenced condition) :=
  inferInstanceAs (Decidable (∀ row ∈ _, _))

/-- `deleteSelected`: how many accounts are deleted, and what is left. -/
def deleteSelected (condition : Condition) (db : Database Data) : Option (Nat × Database Data) :=
  if db.Unreferenced condition then
    some ((db.selected condition).length,
      { accounts := db.accounts.filter fun a => ¬condition.Holds a
        rows := fun table =>
          if table.cascades then (db.rows table).filter fun row => db.Spares condition row
          else db.rows table })
  else none

/-- `executeUpdateQuery`: the number of rows, -1 for a statement that fails. -/
def executeUpdateQuery (fails : Bool) (statement : Database Data → Option (Nat × Database Data))
    (db : Database Data) : Int × Database Data :=
  match if fails then none else statement db with
  | some (count, db') => (count, db')
  | none => (-1, db)

/-- `removeInactiveAccounts`. -/
def removeInactiveAccounts (fails : Bool) (db : Database Data) : Database Data :=
  (executeUpdateQuery fails (deleteSelected .nonPresetInactiveAccounts) db).2

example : deleteSelectedText (selectFromAccountsText .nonPresetInactiveAccounts) =
    "WITH T AS (SELECT * FROM [dbo].[Accounts] " ++
      "WHERE (AccountActive=0 AND Origin<>'PRESET')) DELETE FROM T" := by
  decide +kernel

/-! ## What is removed -/

/-- The inactive accounts that are not preset are gone, and everything else is as before. -/
structure InactiveRemoved (before after : Database Data) : Prop where
  gone : ∀ a ∈ after.accounts, ¬Condition.nonPresetInactiveAccounts.Holds a
  accounts : (after.accounts.filter fun a => ¬Condition.nonPresetInactiveAccounts.Holds a)
    = before.accounts.filter fun a => ¬Condition.nonPresetInactiveAccounts.Holds a
  rows : ∀ table, ((after.rows table).filter fun row =>
      before.Spares .nonPresetInactiveAccounts row)
    = (before.rows table).filter fun row => before.Spares .nonPresetInactiveAccounts row

/-- A statement that is not rejected removes them. -/
theorem deleteSelected_removes {before after : Database Data} {count : Nat}
    (deleted : deleteSelected .nonPresetInactiveAccounts before = some (count, after)) :
    InactiveRemoved before after := by
  unfold deleteSelected at deleted
  by_cases free : before.Unreferenced .nonPresetInactiveAccounts
  · rw [if_pos free] at deleted
    cases deleted
    refine ⟨?_, ?_, ?_⟩
    · intro a left
      exact of_decide_eq_true (List.mem_filter.mp left).2
    · show List.filter _ (List.filter _ _) = _
      rw [List.filter_filter]
      simp only [Bool.and_self]
    · intro table
      show List.filter _ (if table.cascades then _ else _) = _
      cases table.cascades with
      | true =>
        rw [if_pos rfl, List.filter_filter]
        simp only [Bool.and_self]
      | false => rfl
  · rw [if_neg free] at deleted
    cases deleted

/-- The inactive accounts that are not preset are removed just where there are none, or the
statement does not fail and no order of a credit card refers to one of them. -/
theorem inactive_accounts_removed (fails : Bool) (before : Database Data) :
    InactiveRemoved before (removeInactiveAccounts fails before) ↔
      (∀ a ∈ before.accounts, ¬Condition.nonPresetInactiveAccounts.Holds a) ∨
        fails = false ∧ ∀ row ∈ before.rows .creditCardOrders, ∀ a ∈ before.accounts,
          row.accountId = a.id → ¬Condition.nonPresetInactiveAccounts.Holds a := by
  have unchanged : InactiveRemoved before before ↔
      ∀ a ∈ before.accounts, ¬Condition.nonPresetInactiveAccounts.Holds a := by
    constructor
    · exact fun removed => removed.gone
    · exact fun none => ⟨none, rfl, fun _ => rfl⟩
  have references : before.Unreferenced .nonPresetInactiveAccounts ↔
      ∀ row ∈ before.rows .creditCardOrders, ∀ a ∈ before.accounts,
        row.accountId = a.id → ¬Condition.nonPresetInactiveAccounts.Holds a := by
    constructor
    · intro free row listed a member same inactive
      apply free row listed
      rw [same]
      exact List.mem_map_of_mem (List.mem_filter.mpr ⟨member, decide_eq_true inactive⟩)
    · intro free row listed referred
      obtain ⟨a, member, same⟩ := List.mem_map.mp referred
      obtain ⟨member, inactive⟩ := List.mem_filter.mp member
      exact free row listed a member same.symm (of_decide_eq_true inactive)
  rw [← references]
  cases fails with
  | true =>
    show InactiveRemoved before before ↔ _
    rw [unchanged]
    simp
  | false =>
    by_cases free : before.Unreferenced .nonPresetInactiveAccounts
    · have deleted : ∃ count after, deleteSelected .nonPresetInactiveAccounts before
          = some (count, after) := by
        unfold deleteSelected
        rw [if_pos free]
        exact ⟨_, _, rfl⟩
      obtain ⟨count, after, deleted⟩ := deleted
      have whole : removeInactiveAccounts false before = after := by
        simp [removeInactiveAccounts, executeUpdateQuery, deleted]
      rw [whole]
      exact iff_of_true (deleteSelected_removes deleted) (Or.inr ⟨rfl, free⟩)
    · have rejected : deleteSelected .nonPresetInactiveAccounts before = none := if_neg free
      have whole : removeInactiveAccounts false before = before := by
        simp [removeInactiveAccounts, executeUpdateQuery, rejected]
      rw [whole, unchanged]
      constructor
      · exact Or.inl
      · rintro (none | ⟨-, some⟩)
        · exact none
        · exact absurd some free

/-- Two inactive accounts, of which the first has ordered a credit card. -/
def orderedDatabase : Database Unit where
  accounts := [⟨6, "WEB", 100, some false⟩, ⟨7, "WEB", 200, some false⟩]
  rows table := if table = .creditCardOrders then [⟨6, ()⟩] else []

/-- One order keeps both accounts, though every foreign key is satisfied and nothing fails. -/
theorem ordered_accounts_kept :
    (∀ table, ∀ row ∈ orderedDatabase.rows table,
        row.accountId ∈ orderedDatabase.accounts.map Account.id) ∧
      (removeInactiveAccounts false orderedDatabase).accounts = orderedDatabase.accounts ∧
      ¬InactiveRemoved orderedDatabase (removeInactiveAccounts false orderedDatabase) := by
  have kept : (removeInactiveAccounts false orderedDatabase).accounts
      = orderedDatabase.accounts := by decide +kernel
  refine ⟨?_, kept, ?_⟩
  · intro table
    cases table <;> decide
  · intro removed
    have gone := removed.gone
    rw [kept] at gone
    exact absurd (gone ⟨7, "WEB", 200, some false⟩ (by decide)) (by decide)

end EasyTrade.Content
