import EasyTrade.Broker.Serving

/-!
# What each save does

On the book a request that returns is a `Run` of saves, and each save is one
`Step`: cash comes in or goes out, a long-running trade is registered, trades
are closed without an effect, or one trade is settled. A settlement moves the
money of the trade and its fee (`Paid`) and the holding (`Moved`). Every
statement about runs is proved from these steps.
-/

namespace EasyTrade.Broker

open EasyTrade.Store EasyTrade.Ledger EasyTrade.Logic EasyTrade.Logic.Program

/-! ## Settlements -/

/-- Kinds of action that sell. -/
def ActionType.isSale (type : ActionType) : Prop := type = .sell ∨ type = .longSell

instance (type : ActionType) : Decidable type.isSale := inferInstanceAs (Decidable (_ ∨ _))

/-- What a trade adds to the holding of its account. -/
def ActionType.shares (type : ActionType) (quantity : ℚ) : ℚ :=
  if type.isSale then -quantity else quantity

/-- The history rows of the money moved for a trade. -/
def payment (accountId : Int) (value income fee : ℚ) (type : ActionType) (owner : ℚ) (now : Int) :
    List BalanceHistory :=
  [.new accountId value income type now,
    .new accountId (value + income) (-fee) .transactionFee now,
    .new ownerId owner fee .collectFee now]

/-- The balances and the history rows of a save that moves the money of a trade. -/
inductive Paid (db : Database) (now accountId : Int) (income fee : ℚ) (type : ActionType) :
    List Balance → List BalanceHistory → Prop
  /-- The fee goes from the account to the owner. -/
  | trader {value owner : ℚ} (apart : accountId ≠ ownerId)
      (balance : db.balanceOf accountId = some ⟨accountId, value⟩)
      (ownerBalance : db.balanceOf ownerId = some ⟨ownerId, owner⟩) :
      Paid db now accountId income fee type
        [⟨accountId, value + income - fee⟩, ⟨ownerId, owner + fee⟩]
        (payment accountId value income fee type owner now)
  /-- The owner trades: the fee comes back. -/
  | owner {value : ℚ} (same : accountId = ownerId)
      (balance : db.balanceOf accountId = some ⟨accountId, value⟩) :
      Paid db now accountId income fee type [⟨accountId, value + income - fee + fee⟩]
        (payment accountId value income fee type (value + income - fee) now)

/-- The holdings, inserted and updated, of a save that moves the shares of a trade. -/
inductive Moved (db : Database) (now accountId instrumentId : Int) (amount : ℚ) :
    List OwnedInstrument → List OwnedInstrument → Prop
  | created (absent : db.ownedOf accountId instrumentId = none) :
      Moved db now accountId instrumentId amount [.new accountId instrumentId amount now] []
  | changed {row : OwnedInstrument} (found : db.ownedOf accountId instrumentId = some row) :
      Moved db now accountId instrumentId amount []
        [{ row with quantity := row.quantity + amount, lastModificationDate := now }]

/-- The product that an instrument belongs to. -/
def Database.productOf (db : Database) (instrumentId : Int) : Option Product :=
  (lookup Instrument.id instrumentId db.instruments).bind fun instrument =>
    lookup Product.id instrument.productId db.products

/-- What the trade pays to its account. -/
def Trade.income (t : Trade) (type : ActionType) : ℚ :=
  TradeServiceBase.income type (t.quantity * t.entryPrice)

theorem Trade.income_of_sale (t : Trade) {type : ActionType} (sale : type.isSale) :
    t.income type = t.quantity * t.entryPrice := if_pos sale

theorem Trade.income_of_not_sale (t : Trade) {type : ActionType} (purchase : ¬type.isSale) :
    t.income type = -(t.quantity * t.entryPrice) := if_neg purchase

/-- The save settles the trade, as an action of this kind. -/
structure Settles (db : Database) (now : Int) (t : Trade) (type : ActionType) (b : Batch) :
    Prop where
  trades : type.isTrade
  direction : equalsIgnoreCase t.direction type.name = true
  /-- The money, with the fee of the product. -/
  paid : ∃ product, db.productOf t.instrumentId = some product ∧
    Paid db now t.accountId (t.income type) product.ppt type b.updatedBalances b.insertedHistory ∧
    (¬type.isSale → ∀ balance, db.balanceOf t.accountId = some balance →
      0 ≤ balance.value + t.income type - product.ppt)
  /-- The shares. -/
  moved : Moved db now t.accountId t.instrumentId (type.shares t.quantity) b.insertedOwned
    b.updatedOwned
  /-- Only what is held is sold. -/
  held : type.isSale → ∃ row, db.ownedOf t.accountId t.instrumentId = some row ∧
    t.quantity ≤ row.quantity

/-! ## Steps -/

/-- The row of a trade that is closed. -/
def Trade.close (t : Trade) (status : String) (happened : Bool) : Trade :=
  { t with status := status, transactionHappened := happened, tradeClosed := true }

/-- What the status of a trade that is closed without an effect says. -/
def Trade.failures : List String :=
  ["Time is up: trade failed", "Not enough money to buy stocks! Trade failed!",
    "Not enough stocks to sell! Trade failed!",
    "This is not a long running transcation! Trade failed!"]

/-- What the status of a settled long-running trade says. -/
def ActionType.finished (type : ActionType) : String :=
  if type.isSale then "Long sell transaction finished!" else "Long buy transaction finished!"

/-- The change of a cash movement, with its sign. -/
def ActionType.signed (type : ActionType) (amount : ℚ) : ℚ :=
  if type = .withdraw then -amount else amount

/-- A cash movement changes the balance by its signed amount. -/
theorem change_ok {type : ActionType} {balance balance' : Balance} {amount : ℚ}
    (changed : BalanceService.change type balance amount = .ok balance') :
    balance' = { balance with value := balance.value + type.signed amount } ∧ 0 ≤ amount ∧
      (type = .withdraw → amount ≤ balance.value) ∧ (type = .deposit ∨ type = .withdraw) := by
  unfold BalanceService.change at changed
  split at changed
  · unfold Balance.withdraw at changed
    split at changed
    · cases changed
    · split at changed
      · cases changed
      · rename_i nonneg enough
        cases changed
        exact ⟨by simp [ActionType.signed, sub_eq_add_neg], not_lt.1 nonneg,
          fun _ => not_lt.1 enough, .inr rfl⟩
  · unfold Balance.deposit at changed
    split at changed
    · cases changed
    · rename_i nonneg
      cases changed
      exact ⟨by simp [ActionType.signed], not_lt.1 nonneg, nofun, .inl rfl⟩
  · cases changed

/-- What one save does, and the cash it takes in. -/
inductive Step (now : Int) (db : Database) : ℚ → Batch → Prop
  /-- A deposit or a withdrawal. -/
  | cash {balance balance' : Balance} {amount : ℚ} {type : ActionType}
      (found : db.balanceOf balance.accountId = some balance)
      (changed : BalanceService.change type balance amount = .ok balance') :
      Step now db (type.signed amount)
        { updatedBalances := [balance']
          insertedHistory := [.new balance.accountId balance.value (type.signed amount) type now] }
  /-- A new long-running trade. -/
  | register {t : Trade} (isOpen : t.tradeClosed = false)
      (waits : t.transactionHappened = false) (quantity : 0 ≤ t.quantity)
      (isLong : ∃ type : ActionType, (type = .longBuy ∨ type = .longSell) ∧
        t.direction = type.lower ∧ t.status = type.name ++ " registered.") :
      Step now db 0 { insertedTrades := [t] }
  /-- Trades that are closed without an effect. -/
  | close {rows : List Trade} (distinct : (rows.map Trade.id).Nodup)
      (closes : ∀ r ∈ rows, ∃ t ∈ db.trades, t.tradeClosed = false ∧
        ∃ status ∈ Trade.failures, r = t.close status false) :
      Step now db 0 { updatedTrades := rows }
  /-- A quick trade. -/
  | quick {accountId instrumentId : Int} {type : ActionType} {price amount : ℚ} {b : Batch}
      (quantity : 0 ≤ amount) (isQuick : type = .buy ∨ type = .sell)
      (inserted : b.insertedTrades =
        [Trade.quickTrade accountId instrumentId type price amount now])
      (updated : b.updatedTrades = [])
      (settles : Settles db now (Trade.quickTrade accountId instrumentId type price amount now)
        type b) : Step now db 0 b
  /-- A long-running trade that is settled. -/
  | long {t : Trade} {type : ActionType} {b : Batch} (inTable : t ∈ db.trades)
      (isOpen : t.tradeClosed = false) (inserted : b.insertedTrades = [])
      (isLong : type = .longBuy ∨ type = .longSell)
      (updated : b.updatedTrades = [t.close type.finished true]) (settles : Settles db now t type b) :
      Step now db 0 b

/-- A run from one state of the tables to another: its saves, each a step from the
tables at that moment, and the cash they take in. Identifiers may be drawn in vain. -/
inductive Run (s : Tables) : ℚ → List Batch → Tables → Prop
  | nil : Run s 0 [] s
  | save {now : Int} {cash flow : ℚ} {bs : List Batch} {p : Batch} {t : Tables}
      (before : Run s cash bs t) (step : Step now t.db flow p) :
      Run s (cash + flow) (bs ++ [p.number t.tradeSeed t.ownedSeed])
        (t.apply (p.number t.tradeSeed t.ownedSeed))
  | draw {cash : ℚ} {bs : List Batch} {t t' : Tables} (before : Run s cash bs t)
      (db : t'.db = t.db) (trades : t.tradeSeed ≤ t'.tradeSeed)
      (owned : t.ownedSeed ≤ t'.ownedSeed) : Run s cash bs t'

/-- Runs are joined where the first one ends. -/
theorem Run.trans {s t u : Tables} {cash cash' : ℚ} {bs bs' : List Batch} (first : Run s cash bs t)
    (second : Run t cash' bs' u) : Run s (cash + cash') (bs ++ bs') u := by
  induction second with
  | nil => simpa using first
  | save before step ih =>
    rw [← add_assoc, ← List.append_assoc]
    exact ih.save step
  | draw before db trades owned ih => exact ih.draw db trades owned

/-- A run keeps the keys. -/
theorem Run.valid {s t : Tables} {cash : ℚ} {bs : List Batch} (run : Run s cash bs t)
    (valid : s.Valid) : t.Valid := by
  induction run with
  | nil => exact valid
  | save before step ih => exact ih.apply_number _
  | draw before db trades owned ih =>
    exact ⟨by rw [db]; exact ih.balances, by rw [db]; exact ih.trades, by rw [db]; exact ih.owned,
      fun r inTable => lt_of_lt_of_le (ih.tradeSeed r (db ▸ inTable)) trades,
      fun r inTable => lt_of_lt_of_le (ih.ownedSeed r (db ▸ inTable)) owned⟩

/-- The tables at the end of a run are those at its start with its saves. -/
theorem Run.db {s t : Tables} {cash : ℚ} {bs : List Batch} (run : Run s cash bs t) :
    t.db = s.db.applyAll bs := by
  induction run with
  | nil => rfl
  | save before step ih =>
    rw [Database.applyAll_append, ← ih]
    rfl
  | draw before db trades owned ih => rw [db, ih]

/-- A book between two saves, and the run that led to it. -/
structure Book.Between (now : Int) (s : Tables) (cash : ℚ) (μ : Book) : Prop where
  clock : μ.env.now = now
  idle : μ.pending = {}
  saved : μ.saved = s.applyAll μ.log
  valid : μ.saved.Valid
  run : Run s cash μ.log μ.saved
  /-- What was reported closed are the trades closed. -/
  notified : μ.notified = μ.log.flatMap Batch.updatedTrades

/-- The book with these rows pending, their closings reported. -/
structure Book.Staged (μ : Book) (p : Batch) (ν : Book) : Prop where
  env : ν.env = μ.env
  saved : ν.saved = μ.saved
  log : ν.log = μ.log
  pending : ν.pending = p
  notified : ν.notified = μ.notified ++ p.updatedTrades

/-- A save with the closings reported before it. -/
theorem Book.Between.save {now : Int} {s : Tables} {cash flow : ℚ} {μ ν : Book} {p : Batch}
    (h : μ.Between now s cash) (staged : μ.Staged p ν) (step : Step now μ.saved.db flow p) :
    ν.save.Between now s (cash + flow) where
  clock := by rw [Book.save, staged.env, h.clock]
  idle := rfl
  saved := by
    rw [Book.save, Tables.applyAll_append, staged.log, ← h.saved, Tables.applyAll_singleton,
      staged.saved]
  valid := by
    rw [Book.save, Book.batch, staged.saved]
    exact h.valid.apply_number ν.pending
  run := by
    rw [Book.save, Book.batch, staged.log, staged.pending, staged.saved]
    exact h.run.save step
  notified := by
    rw [Book.save, List.flatMap_append, staged.log, ← h.notified, staged.notified, Book.batch,
      staged.pending]
    simp [Batch.number]

/-- A fresh book is at the start of its run. -/
theorem between_start (env : Env) {s : Tables} (valid : s.Valid) :
    Book.Between env.now s 0 { env := env, saved := s } :=
  ⟨rfl, rfl, rfl, valid, .nil, rfl⟩

/-! ## Commands on the book -/

variable {α β : Type} {μ μ' : Book}

/-- The book with other rows pending. -/
def Book.stage (μ : Book) (p : Batch) : Book := { μ with pending := p }

/-- The book with its transaction begun or ended. -/
def Book.transact (μ : Book) (isOpen : Bool) : Book := { μ with inTransaction := isOpen }

theorem Book.Between.transact {now : Int} {s : Tables} {cash : ℚ} {μ : Book}
    (h : μ.Between now s cash) (isOpen : Bool) : (μ.transact isOpen).Between now s cash := { h with }

@[simp] theorem Book.pending_stage (μ : Book) (p : Batch) : (μ.stage p).pending = p := rfl

@[simp] theorem Book.saved_stage (μ : Book) (p : Batch) : (μ.stage p).saved = μ.saved := rfl

@[simp] theorem Book.env_stage (μ : Book) (p : Batch) : (μ.stage p).env = μ.env := rfl

@[simp] theorem Book.stage_stage (μ : Book) (p q : Batch) : (μ.stage p).stage q = μ.stage q := rfl

@[simp] theorem Book.pending_transact (μ : Book) (isOpen : Bool) :
    (μ.transact isOpen).pending = μ.pending := rfl

@[simp] theorem Book.saved_transact (μ : Book) (isOpen : Bool) :
    (μ.transact isOpen).saved = μ.saved := rfl

@[simp] theorem Book.env_transact (μ : Book) (isOpen : Bool) :
    (μ.transact isOpen).env = μ.env := rfl

@[simp] theorem eval_bind_ok {p : Task α} {f : α → Task β} {r : β × Book} :
    (p >>= f).eval Book.act .refused μ = .ok r ↔
      ∃ a μ₁, p.eval Book.act .refused μ = .ok (a, μ₁) ∧
        (f a).eval Book.act .refused μ₁ = .ok r := eval_bind_eq_ok

@[simp] theorem eval_pure_ok {a b : α} :
    (pure a : Task α).eval Book.act .refused μ = .ok (b, μ') ↔ b = a ∧ μ' = μ := by
  rw [eval_pure, Except.ok.injEq, Prod.mk.injEq, eq_comm, eq_comm (a := μ)]

@[simp] theorem eval_throw_ok {e : Exception} {r : α × Book} :
    (throw e : Task α).eval Book.act .refused μ = .ok r ↔ False := by
  rw [eval_throw]
  simp

theorem eval_send_ok {command : Command} {reply : Reply command} :
    (send command).eval Book.act .refused μ = .ok (reply, μ') ↔
      Book.act command μ = some (reply, μ') := by
  rw [send, eval_perform]
  cases Book.act command μ with
  | none => simp
  | some r => simp

theorem eval_ask_ok {q : Query} {rows : q.Answer} :
    (send (.ask q)).eval Book.act .refused μ = .ok (rows, μ') ↔ rows = μ.ask q ∧ μ' = μ := by
  rw [eval_send_ok]
  simp [Book.act, eq_comm]

@[simp] theorem eval_now_ok {time : Int} :
    now.eval Book.act .refused μ = .ok (time, μ') ↔ time = μ.env.now ∧ μ' = μ := by
  rw [now, eval_send_ok]
  simp [Book.act, eq_comm]

theorem eval_write_ok {change : Change} {u : Unit} :
    (send (.write change)).eval Book.act .refused μ = .ok (u, μ') ↔
      μ' = μ.stage (μ.pending.write change) := by
  rw [eval_send_ok]
  simp [Book.act, Book.stage, eq_comm]

@[simp] theorem eval_getBalanceOfAccount_ok {accountId : Int} {row : Option Balance} :
    (getBalanceOfAccount accountId).eval Book.act .refused μ = .ok (row, μ') ↔
      row = μ.ask (.balanceOfAccount accountId) ∧ μ' = μ := eval_ask_ok

@[simp] theorem eval_getInstrument_ok {instrumentId : Int} {row : Option Instrument} :
    (getInstrument instrumentId).eval Book.act .refused μ = .ok (row, μ') ↔
      row = μ.ask (.instrument instrumentId) ∧ μ' = μ := eval_ask_ok

@[simp] theorem eval_getLastPrice_ok {instrumentId : Int} {price : Option Price} :
    (getLastPriceByInstrumentId instrumentId).eval Book.act .refused μ = .ok (price, μ') ↔
      price = μ.ask (.lastPriceByInstrumentId instrumentId) ∧ μ' = μ := eval_ask_ok

@[simp] theorem eval_getProduct_ok {productId : Int} {row : Option Product} :
    (getProduct productId).eval Book.act .refused μ = .ok (row, μ') ↔
      row = μ.ask (.product productId) ∧ μ' = μ := eval_ask_ok

@[simp] theorem eval_getOwnedInstrument_ok {accountId instrumentId : Int} {row : Option OwnedInstrument} :
    (getOwnedInstrument accountId instrumentId).eval Book.act .refused μ = .ok (row, μ') ↔
      row = μ.ask (.ownedInstrument accountId instrumentId) ∧ μ' = μ := eval_ask_ok

@[simp] theorem eval_getAllInstruments_ok {rows : List Instrument} :
    getAllInstruments.eval Book.act .refused μ = .ok (rows, μ') ↔
      rows = μ.ask .instruments ∧ μ' = μ := eval_ask_ok

@[simp] theorem eval_getLatestPrices_ok {prices : List Price} :
    getLatestPrices.eval Book.act .refused μ = .ok (prices, μ') ↔
      prices = μ.ask .latestPrices ∧ μ' = μ := eval_ask_ok

@[simp] theorem eval_getProducts_ok {rows : List Product} :
    getProducts.eval Book.act .refused μ = .ok (rows, μ') ↔
      rows = μ.ask .products ∧ μ' = μ := eval_ask_ok

@[simp] theorem eval_addBalanceHistory_ok {row : BalanceHistory} {u : Unit} :
    (addBalanceHistory row).eval Book.act .refused μ = .ok (u, μ') ↔
      μ' = μ.stage (μ.pending.write (.addBalanceHistory row)) := eval_write_ok

@[simp] theorem eval_putBalance_ok {row : Balance} {u : Unit} :
    (updateBalance row).eval Book.act .refused μ = .ok (u, μ') ↔
      μ' = μ.stage (μ.pending.write (.updateBalance row)) := eval_write_ok

@[simp] theorem eval_addOwnedInstrument_ok {row : OwnedInstrument} {u : Unit} :
    (addOwnedInstrument row).eval Book.act .refused μ = .ok (u, μ') ↔
      μ' = μ.stage (μ.pending.write (.addOwnedInstrument row)) := eval_write_ok

@[simp] theorem eval_putOwnedInstrument_ok {row : OwnedInstrument} {u : Unit} :
    (updateOwnedInstrument row).eval Book.act .refused μ = .ok (u, μ') ↔
      μ' = μ.stage (μ.pending.write (.updateOwnedInstrument row)) := eval_write_ok

@[simp] theorem eval_putTrade_ok {row : Trade} {u : Unit} :
    (updateTrade row).eval Book.act .refused μ = .ok (u, μ') ↔
      μ' = μ.stage (μ.pending.write (.updateTrade row)) := eval_write_ok

/-- The trade as the problem pattern lets it be added. -/
def Env.added (env : Env) (t : Trade) : Trade :=
  if env.dbNotResponding then { t with id := invalidTradeId } else t

@[simp] theorem eval_addTrade_ok {t : Trade} {u : Unit} :
    (addTrade t).eval Book.act .refused μ = .ok (u, μ') ↔
      μ' = μ.stage (μ.pending.write (.addTrade (μ.env.added t))) := by
  have answered : (send .dbNotResponding).eval Book.act .refused μ =
      .ok (μ.env.dbNotResponding, μ) := eval_send_ok.2 rfl
  rw [addTrade, eval_bind, answered]
  exact eval_write_ok

@[simp] theorem eval_beginTransaction_ok {u : Unit} :
    beginTransaction.eval Book.act .refused μ = .ok (u, μ') ↔
      μ.inTransaction = false ∧ μ' = μ.transact true := by
  rw [beginTransaction, eval_send_ok, Book.act]
  cases μ.inTransaction <;> simp [Book.transact, eq_comm]

@[simp] theorem eval_saveChanges_ok {saved : Batch} :
    saveChanges.eval Book.act .refused μ = .ok (saved, μ') ↔
      μ.pending.Unnumbered ∧ saved = μ.batch ∧ μ' = μ.save := by
  rw [saveChanges, eval_send_ok, Book.act]
  split
  · rename_i unnumbered
    simp [unnumbered, eq_comm]
  · rename_i numbered
    simp [numbered]

@[simp] theorem eval_commitTransaction_ok {u : Unit} :
    commitTransaction.eval Book.act .refused μ = .ok (u, μ') ↔
      μ.inTransaction = true ∧ μ' = μ.transact false := by
  rw [commitTransaction, eval_send_ok, Book.act]
  cases μ.inTransaction <;> simp [Book.transact, eq_comm]

@[simp] theorem eval_deref_ok {value : Option α} {a : α} :
    (deref value).eval Book.act .refused μ = .ok (a, μ') ↔ value = some a ∧ μ' = μ := by
  cases value with
  | none => simp [deref]
  | some b => simp [deref, eq_comm]

@[simp] theorem eval_ofExcept_ok {value : Except Exception α} {a : α} :
    (ofExcept value).eval Book.act .refused μ = .ok (a, μ') ↔ value = .ok a ∧ μ' = μ := by
  cases value with
  | error e => simp [ofExcept]
  | ok b => simp [ofExcept, eq_comm]

@[simp] theorem eval_item_ok {key : α → Int} {dictionary : List α} {k : Int} {a : α} :
    (item key dictionary k).eval Book.act .refused μ = .ok (a, μ') ↔
      lookup key k dictionary = some a ∧ μ' = μ := by
  unfold item
  split
  · rename_i row found
    simp [found, eq_comm]
  · rename_i absent
    simp [absent]

@[simp] theorem eval_toDictionary_ok {key : α → Int} {rows rows' : List α} :
    (toDictionary key rows).eval Book.act .refused μ = .ok (rows', μ') ↔
      (rows.map key).Nodup ∧ rows' = rows ∧ μ' = μ := by
  unfold toDictionary
  split
  · rename_i distinct
    simp [distinct, eq_comm]
  · rename_i repeated
    simp [repeated]

/-! ## What the trade services share -/

/-- With no balance pending, the balance of an account is the saved one. -/
theorem Book.ask_balanceOfAccount (idle : μ.pending.updatedBalances = []) (accountId : Int) :
    μ.ask (.balanceOfAccount accountId) = μ.saved.db.balanceOf accountId := by
  rw [Book.ask, idle]
  exact Option.map_id_apply

/-- With no holding pending, the holding of an account is the saved one. -/
theorem Book.ask_ownedInstrument (idle : μ.pending.updatedOwned = [])
    (accountId instrumentId : Int) :
    μ.ask (.ownedInstrument accountId instrumentId) = μ.saved.db.ownedOf accountId instrumentId := by
  rw [Book.ask, idle]
  exact Option.map_id_apply

/-- With one balance pending, that balance is what its account is answered. -/
theorem Book.ask_owner {accountId : Int} {value : ℚ} {owner : Balance}
    (pending : μ.pending.updatedBalances = [⟨accountId, value⟩])
    (found : μ.ask (.balanceOfAccount ownerId) = some owner) :
    (accountId = ownerId ∧ owner = ⟨accountId, value⟩) ∨
      (accountId ≠ ownerId ∧ μ.saved.db.balanceOf ownerId = some owner ∧
        owner.accountId = ownerId) := by
  rw [Book.ask, pending] at found
  obtain ⟨row, isRow, same⟩ := Option.map_eq_some_iff.1 found
  have isOwner : row.accountId = ownerId := key_of_lookup isRow
  by_cases trader : accountId = ownerId
  · refine .inl ⟨trader, ?_⟩
    rw [← same]
    exact resolve_of_lookup (by simp [lookup, trader, isOwner])
  · have untouched : resolve Balance.accountId [⟨accountId, value⟩] row = row :=
      resolve_of_none (by simp [lookup, isOwner, trader])
    rw [untouched] at same
    exact .inr ⟨trader, same ▸ isRow, same ▸ isOwner⟩

theorem eval_updateBalance_ok {balance : Balance} {amount ppt : ℚ} {type : ActionType} {u : Unit}
    (ok : (TradeServiceBase.updateBalance balance amount ppt type).eval Book.act .refused μ =
      .ok (u, μ')) (idle : μ.pending.updatedBalances = [])
    (found : μ.saved.db.balanceOf balance.accountId = some balance) :
    ∃ balances rows, Paid μ.saved.db μ.env.now balance.accountId
        (TradeServiceBase.income type amount) ppt type balances rows ∧
      μ' = μ.stage { μ.pending with
        updatedBalances := balances, insertedHistory := μ.pending.insertedHistory ++ rows } := by
  unfold TradeServiceBase.updateBalance TradeServiceBase.collectFee at ok
  simp only [eval_bind_ok, eval_now_ok, eval_addBalanceHistory_ok, eval_putBalance_ok,
    eval_getBalanceOfAccount_ok, eval_deref_ok, and_assoc, exists_and_left, exists_eq_left,
    exists_const, Book.pending_stage, Book.env_stage, Book.stage_stage] at ok
  obtain ⟨owner, isOwner, rfl⟩ := ok
  obtain ⟨accountId, value⟩ := balance
  rcases @Book.ask_owner _ accountId
      (value + TradeServiceBase.income type amount - ppt) _
      (by simp [Batch.write, idle]) isOwner with
    ⟨same, rfl⟩ | ⟨apart, ownerBalance, ownerKey⟩
  · refine ⟨_, _, .owner same found, ?_⟩
    simp [Batch.write, idle, put, payment]
  · have shape : owner = ⟨ownerId, owner.value⟩ := by rw [← ownerKey]
    refine ⟨_, _, .trader apart found (ownerBalance.trans (congrArg some shape)), ?_⟩
    simp [Batch.write, idle, put, payment, apart, ownerKey]

/-- Adding to a holding that was read. -/
theorem eval_updateOwned_ok {owned : OwnedInstrument} {amount : ℚ} {u : Unit}
    (ok : (TradeServiceBase.updateOwned owned amount).eval Book.act .refused μ = .ok (u, μ'))
    (idle : μ.pending.updatedOwned = []) :
    μ' = μ.stage { μ.pending with updatedOwned := [{ owned with
      quantity := owned.quantity + amount, lastModificationDate := μ.env.now }] } := by
  unfold TradeServiceBase.updateOwned at ok
  simpa [Batch.write, idle] using ok

/-- Finding a holding and adding to it, or creating it. -/
theorem eval_updateOwnedInstrument_ok {accountId instrumentId : Int} {amount : ℚ} {u : Unit}
    (ok : (TradeServiceBase.updateOwnedInstrument accountId instrumentId amount).eval Book.act
      .refused μ = .ok (u, μ')) (inserted : μ.pending.insertedOwned = [])
    (updated : μ.pending.updatedOwned = []) :
    ∃ news olds, Moved μ.saved.db μ.env.now accountId instrumentId amount news olds ∧
      μ' = μ.stage { μ.pending with insertedOwned := news, updatedOwned := olds } := by
  unfold TradeServiceBase.updateOwnedInstrument at ok
  simp only [eval_bind_ok, eval_getOwnedInstrument_ok, Book.ask_ownedInstrument updated, and_assoc,
    exists_and_left, exists_eq_left] at ok
  cases found : μ.saved.db.ownedOf accountId instrumentId with
  | none =>
    simp only [found, eval_bind_ok, eval_now_ok, eval_addOwnedInstrument_ok, and_assoc,
      exists_and_left, exists_eq_left] at ok
    refine ⟨_, _, .created found, ?_⟩
    rw [ok, Batch.write, inserted, updated]
    rfl
  | some row =>
    rw [found] at ok
    refine ⟨_, _, .changed found, ?_⟩
    simp only [eval_updateOwned_ok ok updated, inserted]

/-- Saving and committing returns what has been saved. -/
theorem eval_saveChangesOrRollback_saved {saved : Batch}
    (ok : saveChangesOrRollback.eval Book.act .refused μ = .ok (saved, μ')) :
    μ.pending.Unnumbered ∧ saved = μ.batch ∧ μ' = μ.save.transact false := by
  have body := eval_of_tryCatch (fun e μ => by
    rw [Ne, eval_bind_ok]
    rintro ⟨_, _, _, thrown⟩
    cases thrown) ok
  simp only [eval_bind_ok, eval_saveChanges_ok, eval_commitTransaction_ok, eval_pure_ok, and_assoc,
    exists_and_left, exists_eq_left] at body
  obtain ⟨unnumbered, -, isSaved, _, rfl⟩ := body
  exact ⟨unnumbered, isSaved, rfl⟩

/-- Saving and committing. -/
theorem eval_saveChangesOrRollback_ok {saved : Batch}
    (ok : saveChangesOrRollback.eval Book.act .refused μ = .ok (saved, μ')) :
    μ.pending.Unnumbered ∧ μ' = μ.save.transact false := by
  obtain ⟨unnumbered, -, saves⟩ := eval_saveChangesOrRollback_saved ok
  exact ⟨unnumbered, saves⟩

end EasyTrade.Broker
