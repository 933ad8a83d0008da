import EasyTrade.Broker.History

/-!
# Money and shares agree with the trade book

What a trade has `posted` is its amount with the sign of its action once it has
happened, and nothing before. Each save changes the sum of the balances by the
cash it takes in and by what its trades post, and each holding by the shares
they post. So along every run the balances and the holdings are what the trade
book says.
-/

namespace EasyTrade.Broker

open EasyTrade.Store EasyTrade.Ledger EasyTrade.Logic

variable {db : Database} {now : Int} {s t : Tables}

namespace Trade

/-- The trade buys. -/
def isPurchase (t : Trade) : Bool :=
  decide (t.direction = ActionType.buy.lower ∨ t.direction = ActionType.longBuy.lower)

/-- The trade sells. -/
def isSale (t : Trade) : Bool :=
  decide (t.direction = ActionType.sell.lower ∨ t.direction = ActionType.longSell.lower)

/-- The money the trade is about, without the fee. -/
def amount (t : Trade) : ℚ := t.quantity * t.entryPrice

/-- The shares the trade is about, if it is about this holding. -/
def share (accountId instrumentId : Int) (t : Trade) : ℚ :=
  if t.accountId = accountId ∧ t.instrumentId = instrumentId then t.quantity else 0

/-- What the trade has posted. -/
def posted (f : Trade → ℚ) (t : Trade) : ℚ :=
  if t.transactionHappened = false then 0
  else if t.isSale then f t else if t.isPurchase then -f t else 0

end Trade

/-- The shares of a row, if it is a row of this holding. -/
def OwnedInstrument.share (accountId instrumentId : Int) (r : OwnedInstrument) : ℚ :=
  if r.accountId = accountId ∧ r.instrumentId = instrumentId then r.quantity else 0

namespace Database

/-- The sum of all balances. -/
def total (db : Database) : ℚ := (db.balances.map Balance.value).sum

/-- What an account holds of an instrument. -/
def held (db : Database) (accountId instrumentId : Int) : ℚ :=
  (db.owned.map (OwnedInstrument.share accountId instrumentId)).sum

/-- The sum over the executed trades of one kind. -/
def executed (db : Database) (kind : Trade → Bool) (f : Trade → ℚ) : ℚ :=
  ((db.trades.filter fun t => t.transactionHappened && kind t).map f).sum

/-- What all trades have posted. -/
def posted (db : Database) (f : Trade → ℚ) : ℚ := (db.trades.map (Trade.posted f)).sum

/-- Trades post what the executed sales add and the executed purchases take. -/
theorem posted_eq (db : Database) (f : Trade → ℚ) :
    db.posted f = db.executed Trade.isSale f - db.executed Trade.isPurchase f := by
  have apart : ∀ t : Trade, t.isSale = true → t.isPurchase = false := fun t sale => by
    simp only [Trade.isSale, Trade.isPurchase, decide_eq_true_eq, decide_eq_false_iff_not] at sale ⊢
    rcases sale with same | same <;> rw [same] <;> decide +kernel
  unfold posted executed
  induction db.trades with
  | nil => simp
  | cons t rest ih =>
    rw [List.map_cons, List.sum_cons, ih, Trade.posted]
    by_cases happened : t.transactionHappened = true
    · cases sale : t.isSale with
      | true =>
        simp [happened, sale, apart t sale]
        ring
      | false =>
        cases purchase : t.isPurchase with
        | true =>
          simp [happened, sale, purchase]
          ring
        | false => simp [happened, sale, purchase]
    · simp [happened]

end Database

/-! ## The trade book -/

/-- What the broker's own trades are like: an open one has not happened, and its
direction is a spelling the broker stores. -/
structure Database.Orders (db : Database) : Prop where
  waits : ∀ t ∈ db.trades, t.tradeClosed = false → t.transactionHappened = false
  direction : ∀ t ∈ db.trades, ∃ type : ActionType, type.isTrade ∧ t.direction = type.lower

/-- An action is known from the stored spelling of its trade. -/
theorem eq_of_equalsIgnoreCase {type type' : ActionType}
    (same : equalsIgnoreCase type'.lower type.name = true) : type' = type := by
  cases type <;> cases type' <;> first | rfl | exact absurd same (by decide +kernel)

/-- A settled trade of the broker has the spelling of its action. -/
theorem Settles.direction_eq {x : Trade} {type : ActionType} {b : Batch}
    (settles : Settles db now x type b)
    (known : ∃ type' : ActionType, type'.isTrade ∧ x.direction = type'.lower) :
    x.direction = type.lower := by
  obtain ⟨type', -, spelling⟩ := known
  have same := settles.direction
  rw [spelling] at same
  rw [spelling, eq_of_equalsIgnoreCase same]

/-- A trade that has happened has posted its amount, with the sign of its action. -/
theorem posted_of_happened {x : Trade} {type : ActionType} (f : Trade → ℚ) (trades : type.isTrade)
    (direction : x.direction = type.lower) (happened : x.transactionHappened = true) :
    x.posted f = if type.isSale then f x else -f x := by
  unfold Trade.posted Trade.isSale Trade.isPurchase
  rw [direction, happened]
  rcases trades with rfl | rfl | rfl | rfl <;> simp [ActionType.isSale, ActionType.lower]

section Posted

variable {f : Trade → ℚ} {b : Batch} {x : Trade} (tradeSeed ownedSeed : Int)

/-- A new trade adds what it has posted. -/
theorem posted_apply_inserted (numbered : ∀ (x : Trade) n, f { x with id := n } = f x)
    (updated : b.updatedTrades = []) (inserted : b.insertedTrades = [x]) :
    (db.apply (b.number tradeSeed ownedSeed)).posted f = db.posted f + x.posted f := by
  have same : Trade.posted f { x with id := tradeSeed + 0 } = x.posted f := by
    simp only [Trade.posted, numbered]
    rfl
  simp only [Database.posted, Database.apply, Batch.number, updated, inserted, overwrite_nil,
    List.map_append, List.sum_append]
  simp only [List.mapIdx_cons, List.mapIdx_nil, List.map_cons, List.map_nil, List.sum_cons,
    List.sum_nil, add_zero, Nat.cast_zero] at same ⊢
  rw [same]

/-- Trades closed without an effect have posted nothing. -/
theorem posted_apply_closed (orders : db.Orders) (unique : (db.trades.map Trade.id).Nodup)
    (inserted : b.insertedTrades = [])
    (closes : ∀ r ∈ b.updatedTrades, ∃ x ∈ db.trades, x.tradeClosed = false ∧
      ∃ status ∈ Trade.failures, r = x.close status false) :
    (db.apply (b.number tradeSeed ownedSeed)).posted f = db.posted f := by
  simp only [Database.posted, Database.apply, Batch.number, inserted, List.mapIdx_nil,
    List.append_nil]
  rw [map_overwrite_of_eq]
  intro r inRows y inTable same
  obtain ⟨x, inTable', isOpen, status, -, rfl⟩ := closes r inRows
  obtain rfl : x = y := eq_of_key_eq unique inTable' inTable same
  simp [Trade.posted, Trade.close, orders.waits x inTable' isOpen]

/-- A trade that happens adds what it posts. -/
theorem posted_apply_happened (orders : db.Orders) (unique : (db.trades.map Trade.id).Nodup)
    (inTable : x ∈ db.trades) (isOpen : x.tradeClosed = false) {status : String}
    (inserted : b.insertedTrades = []) (updated : b.updatedTrades = [x.close status true]) :
    (db.apply (b.number tradeSeed ownedSeed)).posted f =
      db.posted f + (x.close status true).posted f := by
  simp only [Database.posted, Database.apply, Batch.number, inserted, updated, List.mapIdx_nil,
    List.append_nil]
  rw [sum_overwrite (Trade.posted f) (x.close status true) unique inTable rfl]
  simp [Trade.posted, orders.waits x inTable isOpen]

end Posted

/-- A trade after a save is one from before that was left alone, one that was updated or
a new one, numbered from the seed on. -/
theorem mem_trades_apply {b : Batch} {tradeSeed ownedSeed : Int} {y : Trade}
    (inTable : y ∈ (db.apply (b.number tradeSeed ownedSeed)).trades) :
    (y ∈ db.trades ∧ ∀ r ∈ b.updatedTrades, r.id ≠ y.id) ∨ y ∈ b.updatedTrades ∨
      ∃ r ∈ b.insertedTrades, ∃ n, tradeSeed ≤ n ∧ y = { r with id := n } := by
  rcases List.mem_append.1 inTable with old | new
  · rcases mem_overwrite old with updated | kept
    · exact .inr (.inl updated)
    · exact .inl kept
  · obtain ⟨n, inside, rfl⟩ := List.mem_mapIdx.1 new
    exact .inr (.inr ⟨_, List.getElem_mem inside, _, by omega, rfl⟩)

/-- Every save of the broker leaves its trade book in order. -/
theorem Step.orders {flow : ℚ} {p : Batch} (step : Step now db flow p) (orders : db.Orders)
    (tradeSeed ownedSeed : Int) : (db.apply (p.number tradeSeed ownedSeed)).Orders := by
  have closed : ∀ y ∈ p.updatedTrades, y.tradeClosed = true ∧
      ∃ x ∈ db.trades, y.direction = x.direction := by
    cases step with
    | cash => simp
    | register => simp
    | close _ closes =>
      intro y inRows
      obtain ⟨x, inTable, -, status, -, rfl⟩ := closes y inRows
      exact ⟨rfl, x, inTable, rfl⟩
    | quick _ _ _ updated _ => simp [updated]
    | long inTable _ _ _ updated _ =>
      rw [updated]
      intro y inRows
      rw [List.mem_singleton.1 inRows]
      exact ⟨rfl, _, inTable, rfl⟩
  have new : ∀ r ∈ p.insertedTrades, (r.tradeClosed = false → r.transactionHappened = false) ∧
      ∃ type : ActionType, type.isTrade ∧ r.direction = type.lower := by
    cases step with
    | cash => simp
    | close => simp
    | register isOpen waits _ isLong =>
      intro r inRows
      obtain ⟨type, kind, direction, -⟩ := isLong
      rw [List.mem_singleton.1 inRows]
      exact ⟨fun _ => waits, type, .inr (.inr kind), direction⟩
    | quick _ _ inserted _ settles =>
      rw [inserted]
      intro r inRows
      rw [List.mem_singleton.1 inRows]
      exact ⟨nofun, _, settles.trades, rfl⟩
    | long _ _ inserted _ _ _ => simp [inserted]
  constructor
  · intro y inTable isOpen
    rcases mem_trades_apply inTable with ⟨old, -⟩ | updated | ⟨r, inserted, n, -, rfl⟩
    · exact orders.waits y old isOpen
    · rw [(closed y updated).1] at isOpen
      cases isOpen
    · exact (new r inserted).1 isOpen
  · intro y inTable
    rcases mem_trades_apply inTable with ⟨old, -⟩ | updated | ⟨r, inserted, n, -, rfl⟩
    · exact orders.direction y old
    · obtain ⟨-, x, inTable', same⟩ := closed y updated
      rw [same]
      exact orders.direction x inTable'
    · exact (new r inserted).2

/-! ## Money and shares -/

/-- Fees only change hands: a settlement adds the income of its trade to the total. -/
theorem Paid.total {accountId : Int} {income fee : ℚ} {type : ActionType} {balances : List Balance}
    {rows : List BalanceHistory} (paid : Paid db now accountId income fee type balances rows)
    (unique : (db.balances.map Balance.accountId).Nodup) :
    ((overwrite Balance.accountId balances db.balances).map Balance.value).sum =
      db.total + income := by
  cases paid with
  | @trader value owner apart balance ownerBalance =>
    have both : [⟨accountId, value + income - fee⟩, ⟨ownerId, owner + fee⟩] =
        put Balance.accountId [⟨accountId, value + income - fee⟩] ⟨ownerId, owner + fee⟩ := by
      simp [put, apart]
    have stays : (⟨ownerId, owner⟩ : Balance) ∈
        overwrite Balance.accountId [⟨accountId, value + income - fee⟩] db.balances :=
      mem_overwrite_of_ne (mem_of_lookup ownerBalance) fun r inRows => by
        rw [List.mem_singleton.1 inRows]
        exact apart
    rw [both, overwrite_put,
      sum_overwrite Balance.value ⟨ownerId, owner + fee⟩
        (by rw [map_key_overwrite]; exact unique) stays rfl,
      sum_overwrite Balance.value ⟨accountId, value + income - fee⟩ unique
        (mem_of_lookup balance) rfl, Database.total]
    ring
  | @owner value same balance =>
    rw [sum_overwrite Balance.value ⟨accountId, value + income - fee + fee⟩ unique
      (mem_of_lookup balance) rfl, Database.total]
    ring

/-- A settlement adds the shares of its trade to one holding. -/
theorem Moved.held {accountId instrumentId : Int} {amount : ℚ} {b : Batch}
    (moved : Moved db now accountId instrumentId amount b.insertedOwned b.updatedOwned)
    (unique : (db.owned.map OwnedInstrument.id).Nodup) (tradeSeed ownedSeed a i : Int) :
    (db.apply (b.number tradeSeed ownedSeed)).held a i =
      db.held a i + if accountId = a ∧ instrumentId = i then amount else 0 := by
  simp only [Database.held, Database.apply, Batch.number]
  generalize b.insertedOwned = news, b.updatedOwned = olds at moved
  cases moved with
  | created absent =>
    simp [OwnedInstrument.share, OwnedInstrument.new]
  | @changed row found =>
    have key := List.find?_some found
    simp only [decide_eq_true_eq] at key
    rw [List.mapIdx_nil, List.append_nil, sum_overwrite (OwnedInstrument.share a i) _ unique
      (List.mem_of_find?_eq_some found) (by rfl)]
    simp only [OwnedInstrument.share, key.1, key.2]
    split <;> ring

/-- A settlement moves the money and the shares that its trade posts. -/
theorem Settles.reconciles {x y : Trade} {type : ActionType} {b : Batch}
    (settles : Settles s.db now x type b) (valid : s.Valid) (tradeSeed ownedSeed : Int)
    (accountId : y.accountId = x.accountId) (instrumentId : y.instrumentId = x.instrumentId)
    (amount : y.amount = x.amount) (quantity : y.quantity = x.quantity)
    (direction : y.direction = type.lower) (happened : y.transactionHappened = true) :
    (s.db.apply (b.number tradeSeed ownedSeed)).total = s.db.total + y.posted Trade.amount ∧
      ∀ a i, (s.db.apply (b.number tradeSeed ownedSeed)).held a i =
        s.db.held a i - y.posted (Trade.share a i) := by
  obtain ⟨product, -, paid, -⟩ := settles.paid
  constructor
  · rw [posted_of_happened _ settles.trades direction happened, amount]
    exact paid.total valid.balances
  · intro a i
    rw [settles.moved.held valid.owned, posted_of_happened _ settles.trades direction happened,
      Trade.share, accountId, instrumentId, quantity, ActionType.shares]
    by_cases sale : type.isSale <;> by_cases here : x.accountId = a ∧ x.instrumentId = i <;>
      simp [sale, here, sub_eq_add_neg]

/-- A save that leaves balances and holdings alone moves neither money nor shares. -/
theorem total_held_of_none (db : Database) {b : Batch} (balances : b.updatedBalances = [])
    (inserted : b.insertedOwned = []) (updated : b.updatedOwned = []) (tradeSeed ownedSeed : Int) :
    (db.apply (b.number tradeSeed ownedSeed)).total = db.total ∧
      ∀ a i, (db.apply (b.number tradeSeed ownedSeed)).held a i = db.held a i := by
  simp [Database.total, Database.held, Database.apply, Batch.number, balances, inserted, updated]

/-- A save moves the money and the shares that it posts, and its cash. -/
theorem Step.reconciles {flow : ℚ} {p : Batch} (step : Step now s.db flow p) (valid : s.Valid)
    (orders : s.db.Orders) (tradeSeed ownedSeed : Int) :
    (s.db.apply (p.number tradeSeed ownedSeed)).total -
        (s.db.apply (p.number tradeSeed ownedSeed)).posted Trade.amount =
      s.db.total - s.db.posted Trade.amount + flow ∧
    ∀ a i, (s.db.apply (p.number tradeSeed ownedSeed)).held a i +
        (s.db.apply (p.number tradeSeed ownedSeed)).posted (Trade.share a i) =
      s.db.held a i + s.db.posted (Trade.share a i) := by
  cases step with
  | @cash balance balance' amount type found changed =>
    obtain ⟨rfl, -⟩ := change_ok changed
    have moved := sum_overwrite Balance.value
      { balance with value := balance.value + type.signed amount } valid.balances
      (mem_of_lookup found) rfl
    simp only [Database.total, Database.held, Database.posted, Database.apply, Batch.number,
      List.mapIdx_nil, List.append_nil, overwrite_nil, moved]
    exact ⟨by ring, fun _ _ => trivial⟩
  | @register x isOpen waits quantity isLong =>
    have nothing : ∀ f : Trade → ℚ, x.posted f = 0 := fun f => by rw [Trade.posted, if_pos waits]
    obtain ⟨total, held⟩ := total_held_of_none s.db (b := { insertedTrades := [x] }) rfl rfl
      rfl tradeSeed ownedSeed
    refine ⟨?_, fun a i => ?_⟩
    · rw [total, posted_apply_inserted _ _ (fun _ _ => rfl) rfl rfl, nothing, add_zero, add_zero]
    · rw [held, posted_apply_inserted _ _ (fun _ _ => rfl) rfl rfl, nothing, add_zero]
  | @close rows distinct closes =>
    obtain ⟨total, held⟩ := total_held_of_none s.db (b := { updatedTrades := rows }) rfl rfl
      rfl tradeSeed ownedSeed
    refine ⟨?_, fun a i => ?_⟩
    · rw [total, posted_apply_closed _ _ orders valid.trades rfl closes, add_zero]
    · rw [held, posted_apply_closed _ _ orders valid.trades rfl closes]
  | quick quantity isQuick inserted updated settles =>
    obtain ⟨total, held⟩ := settles.reconciles valid tradeSeed ownedSeed rfl rfl rfl rfl rfl rfl
    refine ⟨?_, fun a i => ?_⟩
    · rw [total, posted_apply_inserted _ _ (fun _ _ => rfl) updated inserted]
      ring
    · rw [held, posted_apply_inserted _ _ (fun _ _ => rfl) updated inserted]
      ring
  | @long x type b inTable isOpen inserted isLong updated settles =>
    have direction := settles.direction_eq (orders.direction x inTable)
    obtain ⟨total, held⟩ := settles.reconciles (y := x.close type.finished true) valid tradeSeed ownedSeed
      rfl rfl rfl rfl direction rfl
    refine ⟨?_, fun a i => ?_⟩
    · rw [total, posted_apply_happened _ _ orders valid.trades inTable isOpen inserted updated]
      ring
    · rw [held, posted_apply_happened _ _ orders valid.trades inTable isOpen inserted updated]
      ring

/-- What a state of the tables owes its trade book. -/
structure Reconciled (s : Tables) (cash : ℚ) (t : Tables) : Prop where
  orders : t.db.Orders
  total : t.db.total - t.db.posted Trade.amount = s.db.total - s.db.posted Trade.amount + cash
  held : ∀ a i, t.db.held a i + t.db.posted (Trade.share a i) =
    s.db.held a i + s.db.posted (Trade.share a i)

/-- A run moves the money and the shares that the trade book says. -/
theorem Run.reconciled {cash : ℚ} {bs : List Batch} (run : Run s cash bs t) (valid : s.Valid)
    (orders : s.db.Orders) : Reconciled s cash t := by
  induction run with
  | nil => exact ⟨orders, (add_zero _).symm, fun _ _ => rfl⟩
  | draw before db _ _ ih => exact ⟨db ▸ ih.orders, db ▸ ih.total, db ▸ ih.held⟩
  | @save now cash flow bs p t before step ih =>
    have valid' := before.valid valid
    obtain ⟨total, held⟩ := step.reconciles valid' ih.orders t.tradeSeed t.ownedSeed
    refine ⟨step.orders ih.orders _ _, ?_, fun a i => ?_⟩
    · rw [Tables.apply, total, ih.total, add_assoc]
    · rw [Tables.apply, held, ih.held]

/-- From a database without trades, after any sequence of calls: the balances add up to
the initial ones, the cash taken in, less the executed purchases and plus the executed
sales; and each holding is the initial one plus the shares bought less those sold. -/
theorem balances_and_holdings_reconcile (g : Server) (calls : List Call) (valid : g.tables.Valid)
    (untraded : g.tables.db.trades = []) :
    (serveAll .exact g calls).tables.db.total =
        g.tables.db.total + acceptedCash .exact g calls -
          (serveAll .exact g calls).tables.db.executed Trade.isPurchase Trade.amount +
          (serveAll .exact g calls).tables.db.executed Trade.isSale Trade.amount ∧
      ∀ accountId instrumentId,
        (serveAll .exact g calls).tables.db.held accountId instrumentId =
          g.tables.db.held accountId instrumentId +
            (serveAll .exact g calls).tables.db.executed Trade.isPurchase
              (Trade.share accountId instrumentId) -
            (serveAll .exact g calls).tables.db.executed Trade.isSale
              (Trade.share accountId instrumentId) := by
  have orders : g.tables.db.Orders := by constructor <;> simp [untraded]
  have nothing : ∀ f, g.tables.db.posted f = 0 := fun f => by simp [Database.posted, untraded]
  obtain ⟨bs, run, -⟩ := serveAll_run calls valid
  obtain ⟨-, total, held⟩ := run.reconciled valid orders
  constructor
  · rw [Database.posted_eq, nothing] at total
    linarith only [total]
  · intro accountId instrumentId
    have moved := held accountId instrumentId
    rw [Database.posted_eq, nothing] at moved
    linarith only [moved]

/-- A deposit, a purchase, a registered sale that waits and a pass over it. -/
theorem balances_and_holdings_reconcile_of_day :
    (serveAll .exact Market.server Market.day).tables.db.total =
        Market.server.tables.db.total + acceptedCash .exact Market.server Market.day -
          (serveAll .exact Market.server Market.day).tables.db.executed Trade.isPurchase
            Trade.amount +
          (serveAll .exact Market.server Market.day).tables.db.executed Trade.isSale Trade.amount ∧
      ∀ accountId instrumentId,
        (serveAll .exact Market.server Market.day).tables.db.held accountId instrumentId =
          Market.server.tables.db.held accountId instrumentId +
            (serveAll .exact Market.server Market.day).tables.db.executed Trade.isPurchase
              (Trade.share accountId instrumentId) -
            (serveAll .exact Market.server Market.day).tables.db.executed Trade.isSale
              (Trade.share accountId instrumentId) :=
  balances_and_holdings_reconcile Market.server Market.day Market.valid rfl

/-- On that day the balances gain the deposit of 100 and the sale at 12, and lose the
purchase at 30. -/
example : (serveAll .exact Market.server Market.day).tables.db.total = 1500 + 100 - 30 + 12 := by
  decide +kernel

end EasyTrade.Broker
