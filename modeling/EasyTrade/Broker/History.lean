import EasyTrade.Broker.Runs

/-!
# The balance history is a ledger

Each save extends the history rows of an account by a chain from its balance
before to its balance after. On exact columns the chains of a run join into one;
columns that round keep it up to one unit at each row.
-/

namespace EasyTrade.Broker

open EasyTrade.Store EasyTrade.Ledger EasyTrade.Logic EasyTrade.Logic.Program

variable {db : Database} {now : Int} {s : Tables} {c : DecimalColumn} {g : Server}

/-- The ledger rows of an account, in insertion order. -/
def rowsOf (accountId : Int) (history : List BalanceHistory) : List (Row ℚ) :=
  (history.filter fun r => decide (r.accountId = accountId)).map fun r =>
    ⟨r.oldValue, r.valueChange⟩

@[simp] theorem rowsOf_append (accountId : Int) (history more : List BalanceHistory) :
    rowsOf accountId (history ++ more) = rowsOf accountId history ++ rowsOf accountId more := by
  simp [rowsOf]

/-- The stored rows of an account are its rows, stored. -/
theorem rowsOf_store (c : DecimalColumn) (accountId : Int) (history : List BalanceHistory) :
    rowsOf accountId (history.map (BalanceHistory.store c)) =
      (rowsOf accountId history).map fun row => ⟨c.store row.old, c.store row.change⟩ := by
  simp only [rowsOf, List.filter_map, List.map_map]
  rfl

/-! ## One save -/

/-- The money of a trade is a chain on every account. -/
theorem Paid.chain {accountId : Int} {income fee : ℚ} {type : ActionType}
    {balances : List Balance} {rows : List BalanceHistory}
    (paid : Paid db now accountId income fee type balances rows) {balance : Balance}
    (found : db.balanceOf balance.accountId = some balance) :
    Chain balance.value (rowsOf balance.accountId rows)
      (resolve Balance.accountId balances balance).value := by
  cases paid with
  | @trader value owner apart account ownerBalance =>
    by_cases isAccount : balance.accountId = accountId
    · rw [isAccount, account] at found
      cases found
      simp [rowsOf, payment, BalanceHistory.new, Chain, resolve, lookup, apart.symm]
      ring
    · by_cases isOwner : balance.accountId = ownerId
      · rw [isOwner, ownerBalance] at found
        cases found
        simp [rowsOf, payment, BalanceHistory.new, Chain, resolve, lookup, apart]
      · simp [rowsOf, payment, BalanceHistory.new, Chain, resolve, lookup, Ne.symm isAccount,
          Ne.symm isOwner]
  | @owner value same account =>
    by_cases isAccount : balance.accountId = accountId
    · rw [isAccount, account] at found
      cases found
      simp [rowsOf, payment, BalanceHistory.new, Chain, resolve, lookup, same]
      ring
    · simp [rowsOf, payment, BalanceHistory.new, Chain, resolve, lookup, Ne.symm isAccount,
        ← same]

/-- A save is a chain on every account. -/
theorem Step.chain {flow : ℚ} {b : Batch} (step : Step now db flow b) {balance : Balance}
    (found : db.balanceOf balance.accountId = some balance) :
    Chain balance.value (rowsOf balance.accountId b.insertedHistory)
      (resolve Balance.accountId b.updatedBalances balance).value := by
  cases step with
  | @cash moved moved' amount type isMoved changed =>
    obtain ⟨rfl, -⟩ := change_ok changed
    by_cases same : balance.accountId = moved.accountId
    · rw [same, isMoved] at found
      cases found
      simp [rowsOf, BalanceHistory.new, Chain, resolve, lookup]
    · simp [rowsOf, BalanceHistory.new, Chain, resolve, lookup, Ne.symm same]
  | register => rfl
  | close => rfl
  | quick _ _ _ _ settles =>
    obtain ⟨product, -, paid, -⟩ := settles.paid
    exact paid.chain found
  | long _ _ _ _ _ settles =>
    obtain ⟨product, -, paid, -⟩ := settles.paid
    exact paid.chain found

/-- A run is a chain on every account. -/
theorem Run.chain {t : Tables} {cash : ℚ} {bs : List Batch} (run : Run s cash bs t)
    {balance : Balance} (found : s.db.balanceOf balance.accountId = some balance) :
    ∃ balance', t.db.balanceOf balance.accountId = some balance' ∧
      Chain balance.value (rowsOf balance.accountId (bs.flatMap Batch.insertedHistory))
        balance'.value := by
  induction run with
  | nil => exact ⟨balance, found, rfl⟩
  | draw before db _ _ ih => exact db ▸ ih
  | @save now cash flow bs p t before step ih =>
    obtain ⟨balance', found', chain⟩ := ih
    have same : balance'.accountId = balance.accountId := key_of_lookup found'
    rw [← same] at found'
    refine ⟨resolve Balance.accountId p.updatedBalances balance', ?_, ?_⟩
    · rw [Tables.apply, balanceOf_apply, ← same, found']
      rfl
    · rw [List.flatMap_append, rowsOf_append, chain_append]
      refine ⟨balance'.value, chain, ?_⟩
      rw [List.flatMap_singleton, ← same]
      exact step.chain found'

/-! ## One call -/

/-- Storing a batch stores its balances. -/
theorem balances_applyAll_store (c : DecimalColumn) (bs : List Batch) (db db' : Database)
    (stored : db.balances = db'.balances.map (Balance.store c)) :
    (db.applyAll (bs.map (Batch.store c))).balances =
      (db'.applyAll bs).balances.map (Balance.store c) := by
  induction bs generalizing db db' with
  | nil => exact stored
  | cons b bs ih =>
    refine ih _ _ ?_
    simp only [Database.apply, Batch.store, stored]
    exact @overwrite_map _ _ _ Balance.accountId (Balance.store c) (fun _ => rfl) _ _

/-- What a server keeps of its balances: they are as the column stores them. -/
def Server.Stored (c : DecimalColumn) (g : Server) : Prop :=
  ∀ r ∈ g.tables.db.balances, c.store r.value = r.value

/-- What has been added to the history is a ledger of every account, with a slack at
each row. -/
def Server.Keeps (slack : ℚ) (g₀ g : Server) : Prop :=
  ∃ rows, g.tables.db.history = g₀.tables.db.history ++ rows ∧
    ∀ balance, g₀.tables.db.balanceOf balance.accountId = some balance →
      ∃ balance', g.tables.db.balanceOf balance.accountId = some balance' ∧
        NearChain slack balance.value (rowsOf balance.accountId rows) balance'.value

/-- Nothing added is an empty ledger. -/
theorem Server.Keeps.start (slack : ℚ) (g : Server) : g.Keeps slack g :=
  ⟨[], (List.append_nil _).symm, fun balance found => ⟨balance, found, rfl⟩⟩

/-- Ledgers are joined where the first one ends. -/
theorem Server.Keeps.trans {slack : ℚ} {g₀ g₁ g₂ : Server} (first : g₀.Keeps slack g₁)
    (second : g₁.Keeps slack g₂) : g₀.Keeps slack g₂ := by
  obtain ⟨rows, history, near⟩ := first
  obtain ⟨more, history', near'⟩ := second
  refine ⟨rows ++ more, by rw [history', history, List.append_assoc], fun balance found => ?_⟩
  obtain ⟨balance', found', chain⟩ := near balance found
  have same : balance'.accountId = balance.accountId := key_of_lookup found'
  rw [← same] at found'
  obtain ⟨balance'', found'', chain'⟩ := near' balance' found'
  rw [same] at found'' chain'
  refine ⟨balance'', found'', ?_⟩
  rw [rowsOf_append, nearChain_append]
  exact ⟨balance'.value, chain, chain'⟩

theorem Server.Stored.map {g : Server} (h : g.Stored c) :
    g.tables.db.balances = g.tables.db.balances.map (Balance.store c) := by
  conv_lhs => rw [← List.map_id g.tables.db.balances]
  exact List.map_congr_left fun r inTable => by
    rw [Balance.store, h r inTable]
    rfl

/-- A call that returns adds the stored rows of a chain. -/
theorem Served.keeps {call : Call} {response : Response} {μ : Book}
    (served : Served c g call response μ) (valid : g.tables.Valid) (stored : g.Stored c) :
    (serve c g call).Stored c ∧ g.Keeps c.unit (serve c g call) := by
  have run := (Request.between valid served.eval).run
  have balances := balances_applyAll_store c μ.log _ _ stored.map
  rw [← served.db] at balances
  constructor
  · intro r inTable
    rw [balances] at inTable
    obtain ⟨r', -, rfl⟩ := List.mem_map.1 inTable
    exact c.store_store r'.value
  · refine ⟨(μ.log.map (Batch.store c)).flatMap Batch.insertedHistory,
      by rw [served.db, Database.history_applyAll], fun balance found => ?_⟩
    obtain ⟨balance', found', chain⟩ := run.chain found
    rw [run.db] at found'
    refine ⟨balance'.store c, ?_, ?_⟩
    · rw [Database.balanceOf, balances, lookup_map (f := Balance.store c) fun _ => rfl]
      exact congrArg (Option.map (Balance.store c)) found'
    · have storedStart : c.store balance.value = balance.value :=
        stored balance (mem_of_lookup found)
      have rows : (μ.log.map (Batch.store c)).flatMap Batch.insertedHistory =
          (μ.log.flatMap Batch.insertedHistory).map (BalanceHistory.store c) := by
        rw [List.flatMap_map, List.map_flatMap]
        rfl
      rw [rows, rowsOf_store, ← storedStart]
      exact chain.stored c

/-! ## Whole runs -/

/-- Every run keeps the ledgers, up to one unit of the column at each row. -/
theorem serveAll_keeps (c : DecimalColumn) (g : Server) (calls : List Call) (valid : g.tables.Valid)
    (stored : g.Stored c) : g.Keeps c.unit (serveAll c g calls) := by
  refine (serveAll_invariant (P := fun g' => g'.Stored c ∧ g.Keeps c.unit g')
    (Q := fun _ _ => True) (fun g' call valid' inv _ => ?_) calls valid ⟨stored, .start _ g⟩
    fun _ _ _ _ => trivial).2
  obtain ⟨stored', keeps⟩ := inv
  cases outcome : (call.exec c g').1 with
  | error e =>
    obtain ⟨same, -, -⟩ := serve_of_error outcome
    rw [Server.Stored, Server.Keeps, same]
    exact ⟨stored', keeps⟩
  | ok response =>
    obtain ⟨μ, served⟩ := serve_of_ok valid' outcome
    obtain ⟨stored'', adds⟩ := served.keeps valid' stored'
    exact ⟨stored'', keeps.trans adds⟩

/-- On exact columns the history rows of an account form an unbroken chain from its
initial to its current balance, after any sequence of calls. -/
theorem balance_history_chain (g : Server) (calls : List Call) (valid : g.tables.Valid)
    (empty : g.tables.db.history = []) {accountId : Int} {balance : Balance}
    (found : g.tables.db.balanceOf accountId = some balance) :
    ∃ balance', (serveAll .exact g calls).tables.db.balanceOf accountId = some balance' ∧
      Chain balance.value (rowsOf accountId (serveAll .exact g calls).tables.db.history)
        balance'.value := by
  have same : balance.accountId = accountId := key_of_lookup found
  rw [← same] at found ⊢
  obtain ⟨rows, history, ledger⟩ := serveAll_keeps .exact g calls valid fun _ _ => rfl
  obtain ⟨balance', found', near⟩ := ledger balance found
  rw [history, empty, List.nil_append]
  exact ⟨balance', found', nearChain_zero.1 near⟩

/-- The chain of a trader after a deposit and a purchase. -/
theorem balance_history_chain_of_trader :
    ∃ balance', (serveAll .exact Market.server [Market.deposit, Market.purchase]).tables.db.balanceOf
        2 = some balance' ∧
      Chain 1000
        (rowsOf 2 (serveAll .exact Market.server [Market.deposit, Market.purchase]).tables.db.history)
        balance'.value :=
  @balance_history_chain Market.server [Market.deposit, Market.purchase] Market.valid rfl 2
    ⟨2, 1000⟩ rfl

/-! ## Columns that round -/

/-- The decimal columns of the broker: eight fractional digits. -/
def column (r : Rounding) : DecimalColumn := .ofRounding r 8

/-- In columns of eight fractional digits, however they round, the stored rows of an
account chain up to one unit of the last digit at each row, and its stored balance
is the initial one plus all stored changes up to one such unit for each row. -/
theorem stored_history_near (r : Rounding) (g : Server) (calls : List Call)
    (valid : g.tables.Valid) (stored : g.Stored (column r)) {accountId : Int} {balance : Balance}
    (found : g.tables.db.balanceOf accountId = some balance) :
    ∃ rows balance', (serveAll (column r) g calls).tables.db.history =
        g.tables.db.history ++ rows ∧
      (serveAll (column r) g calls).tables.db.balanceOf accountId = some balance' ∧
      NearChain (1 / 10 ^ 8) balance.value (rowsOf accountId rows) balance'.value ∧
      |balance.value + ((rowsOf accountId rows).map Row.change).sum - balance'.value| ≤
        (rowsOf accountId rows).length • (1 / 10 ^ 8) := by
  have same : balance.accountId = accountId := key_of_lookup found
  rw [← same] at found ⊢
  obtain ⟨rows, history, ledger⟩ := serveAll_keeps (column r) g calls valid stored
  obtain ⟨balance', found', near⟩ := ledger balance found
  exact ⟨rows, balance', history, found', near, near.final_near⟩

/-- The stored chain of a trader after a deposit and a purchase. -/
theorem stored_history_near_of_trader :
    ∃ rows balance', (serveAll (column .nearest) Market.server
        [Market.deposit, Market.purchase]).tables.db.history = [] ++ rows ∧
      (serveAll (column .nearest) Market.server
        [Market.deposit, Market.purchase]).tables.db.balanceOf 2 = some balance' ∧
      NearChain (1 / 10 ^ 8) 1000 (rowsOf 2 rows) balance'.value ∧
      |1000 + ((rowsOf 2 rows).map Row.change).sum - balance'.value| ≤
        (rowsOf 2 rows).length • (1 / 10 ^ 8) :=
  @stored_history_near .nearest Market.server [Market.deposit, Market.purchase] Market.valid
    (by unfold Server.Stored; decide +kernel) 2 ⟨2, 1000⟩ rfl

/-- A market in which a dust of shares costs half a unit of the last digit. -/
def dustPurchase : Call :=
  { Market.call (.buyAssets 2 1 (1 / 10 ^ 8)) with
    env := { Market.env with lastPrice := fun _ => some { Market.candle with «open» := 1 / 2 } } }

/-- The server after the dust has been bought, in columns that round this way. -/
def dusty (r : Rounding) : Server := serveAll (column r) Market.server [dustPurchase]

/-- Rounding the old value, the change and the balance one by one breaks the chain,
whether values are rounded to the nearest or cut off. -/
theorem stored_history_breaks :
    (¬∃ balance', (dusty .nearest).tables.db.balanceOf 2 = some balance' ∧
      Chain 1000 (rowsOf 2 (dusty .nearest).tables.db.history) balance'.value) ∧
    ¬∃ balance', (dusty .truncation).tables.db.balanceOf 2 = some balance' ∧
      Chain 1000 (rowsOf 2 (dusty .truncation).tables.db.history) balance'.value := by
  have breaks : ∀ r value, (dusty r).tables.db.balanceOf 2 = some ⟨2, value⟩ →
      ¬Chain 1000 (rowsOf 2 (dusty r).tables.db.history) value →
      ¬∃ balance', (dusty r).tables.db.balanceOf 2 = some balance' ∧
        Chain 1000 (rowsOf 2 (dusty r).tables.db.history) balance'.value := by
    rintro r value found broken ⟨balance', found', chain⟩
    rw [found] at found'
    cases found'
    exact broken chain
  exact ⟨breaks .nearest 995 (by decide +kernel) (by decide +kernel),
    breaks .truncation (995 - 1 / 10 ^ 8) (by decide +kernel) (by decide +kernel)⟩

end EasyTrade.Broker
