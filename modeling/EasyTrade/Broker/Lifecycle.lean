import EasyTrade.Broker.Solvency

/-!
# The life of a trade

A trade is registered or settled when it is created, and a registered one is
closed once, settled or not. A save settles at most one trade, and then it moves
the money and the shares of that trade and nothing else; a save that settles none
moves no shares and only cash. So a trade created in a run has been settled by
exactly one save of the run if it has happened, and by none otherwise.
-/

namespace EasyTrade.Broker

open EasyTrade.Store EasyTrade.Ledger EasyTrade.Logic

variable {db : Database} {now : Int} {s t : Tables}

/-! ## What a save settles -/

/-- The trades that a save records as happened. -/
def Batch.settled (b : Batch) : List Trade :=
  (b.insertedTrades ++ b.updatedTrades).filter Trade.transactionHappened

/-- The save records that the trade with this identifier has happened. -/
def Batch.settlesId (id : Int) (b : Batch) : Bool := b.settled.any fun r => decide (r.id = id)

/-- The save moves the money and the shares of the trade: one row of its action, one fee
row, one row of the owner's fee, and one holding. -/
structure Batch.Effect (db : Database) (b : Batch) (t : Trade) (type : ActionType) : Prop where
  trades : type.isTrade
  direction : equalsIgnoreCase t.direction type.name = true
  rows : ∃ value fee owner now,
    b.insertedHistory = payment t.accountId value (t.income type) fee type owner now
  one : (b.insertedOwned ++ b.updatedOwned).length = 1
  shares : ∀ a i, (db.apply b).held a i =
    db.held a i + if t.accountId = a ∧ t.instrumentId = i then type.shares t.quantity else 0

/-- The save moves no shares, and no money but cash. -/
structure Batch.Quiet (b : Batch) : Prop where
  inserted : b.insertedOwned = []
  updated : b.updatedOwned = []
  rows : ∀ r ∈ b.insertedHistory,
    r.actionType = ActionType.deposit.lower ∨ r.actionType = ActionType.withdraw.lower

/-- The save settles one trade and moves what belongs to it, or settles none and moves
nothing but cash. -/
def Batch.Accounted (db : Database) (b : Batch) : Prop :=
  (b.settled = [] ∧ b.Quiet) ∨ ∃ t type, b.settled = [t] ∧ b.Effect db t type

/-- A settlement has the effect of its trade, whatever identifiers and states its rows get. -/
theorem Settles.effect {x y : Trade} {type : ActionType} {b : Batch}
    (settles : Settles s.db now x type b) (valid : s.Valid) (tradeSeed ownedSeed : Int)
    (accountId : y.accountId = x.accountId) (instrumentId : y.instrumentId = x.instrumentId)
    (quantity : y.quantity = x.quantity) (price : y.entryPrice = x.entryPrice)
    (direction : y.direction = x.direction) :
    (b.number tradeSeed ownedSeed).Effect s.db y type := by
  obtain ⟨product, -, paid, -⟩ := settles.paid
  have income : y.income type = x.income type := by rw [Trade.income, quantity, price, Trade.income]
  refine ⟨settles.trades, by rw [direction]; exact settles.direction, ?_, ?_, fun a i => ?_⟩
  · rw [accountId, income]
    change ∃ value fee owner now,
      b.insertedHistory = payment x.accountId value (x.income type) fee type owner now
    generalize b.updatedBalances = balances, b.insertedHistory = rows at paid ⊢
    cases paid with
    | trader => exact ⟨_, _, _, _, rfl⟩
    | owner => exact ⟨_, _, _, _, rfl⟩
  · have moved := settles.moved
    rw [Batch.number, List.length_append, List.length_mapIdx]
    change b.insertedOwned.length + b.updatedOwned.length = 1
    generalize b.insertedOwned = news, b.updatedOwned = olds at moved ⊢
    cases moved with
    | created => rfl
    | changed => rfl
  · rw [settles.moved.held valid.owned, accountId, instrumentId, quantity]

/-- Every save accounts for what it settles. -/
theorem Step.accounted {flow : ℚ} {p : Batch} (step : Step now s.db flow p) (valid : s.Valid)
    (tradeSeed ownedSeed : Int) : (p.number tradeSeed ownedSeed).Accounted s.db := by
  cases step with
  | @cash balance balance' amount type found changed =>
    obtain ⟨-, -, -, kind⟩ := change_ok changed
    refine .inl ⟨rfl, rfl, rfl, fun r inRows => ?_⟩
    rw [List.mem_singleton.1 inRows]
    rcases kind with rfl | rfl
    · exact .inl rfl
    · exact .inr rfl
  | register isOpen waits =>
    refine .inl ⟨?_, rfl, rfl, List.forall_mem_nil _⟩
    simp [Batch.settled, Batch.number, waits]
  | close _ closes =>
    refine .inl ⟨List.filter_eq_nil_iff.2 fun r inRows => ?_, rfl, rfl, List.forall_mem_nil _⟩
    obtain ⟨x, -, -, status, -, rfl⟩ := closes r (by simpa [Batch.number] using inRows)
    simp [Trade.close]
  | @quick accountId instrumentId type price amount b quantity isQuick inserted updated settles =>
    refine .inr ⟨{ Trade.quickTrade accountId instrumentId type price amount now with
      id := tradeSeed + (0 : ℕ) }, type, ?_, ?_⟩
    · simp [Batch.settled, Batch.number, inserted, updated, Trade.quickTrade]
    · exact settles.effect valid tradeSeed ownedSeed rfl rfl rfl rfl rfl
  | @long x type b inTable isOpen inserted isLong updated settles =>
    refine .inr ⟨x.close type.finished true, type, ?_, ?_⟩
    · simp [Batch.settled, Batch.number, inserted, updated, Trade.close]
    · exact settles.effect valid tradeSeed ownedSeed rfl rfl rfl rfl rfl

/-- Every save of a run accounts for what it settles. -/
theorem Run.accounted {cash : ℚ} {bs : List Batch} (run : Run s cash bs t) (valid : s.Valid)
    {before after : List Batch} {b : Batch} (split : bs = before ++ b :: after) :
    b.Accounted (s.db.applyAll before) := by
  induction run generalizing after with
  | nil => simp at split
  | draw _ _ _ _ ih => exact ih split
  | @save now cash flow bs p t earlier step ih =>
    rcases List.eq_nil_or_concat after with rfl | ⟨rest, last, rfl⟩
    · obtain ⟨rfl, same⟩ := List.append_inj' split rfl
      obtain rfl := List.singleton_inj.1 same
      rw [← earlier.db]
      exact step.accounted (earlier.valid valid) _ _
    · have split' : bs ++ [p.number t.tradeSeed t.ownedSeed] =
          (before ++ b :: rest) ++ [last] := by rw [split]; simp
      obtain ⟨same, -⟩ := List.append_inj' split' rfl
      exact ih same

/-! ## Open and closed -/

/-- What a save updates are open trades of the table, which it closes. -/
theorem Step.updates {flow : ℚ} {p : Batch} (step : Step now db flow p) :
    ∀ r ∈ p.updatedTrades, ∃ x ∈ db.trades, x.tradeClosed = false ∧ r.id = x.id ∧
      r.tradeClosed = true := by
  cases step with
  | cash => exact List.forall_mem_nil _
  | register => exact List.forall_mem_nil _
  | close _ closes =>
    intro r inRows
    obtain ⟨x, inTable, isOpen, status, -, rfl⟩ := closes r inRows
    exact ⟨x, inTable, isOpen, rfl, rfl⟩
  | quick _ _ _ updated _ =>
    rw [updated]
    exact List.forall_mem_nil _
  | @long x type b inTable isOpen _ _ updated _ =>
    rw [updated]
    intro r inRows
    rw [List.mem_singleton.1 inRows]
    exact ⟨x, inTable, isOpen, rfl, rfl⟩

/-- A new trade that has happened is closed. -/
theorem Step.inserts {flow : ℚ} {p : Batch} (step : Step now db flow p) :
    ∀ r ∈ p.insertedTrades, (r.transactionHappened = true → r.tradeClosed = true) ∧
      (r.tradeClosed = false → 0 ≤ r.quantity) := by
  cases step with
  | cash => exact List.forall_mem_nil _
  | close => exact List.forall_mem_nil _
  | register isOpen waits quantity _ =>
    intro r inRows
    rw [List.mem_singleton.1 inRows]
    exact ⟨fun happened => by simp [waits] at happened, fun _ => quantity⟩
  | quick _ _ inserted _ _ =>
    rw [inserted]
    intro r inRows
    rw [List.mem_singleton.1 inRows]
    exact ⟨fun _ => rfl, nofun⟩
  | long _ _ inserted _ _ _ =>
    rw [inserted]
    exact List.forall_mem_nil _

/-- A save leaves the closed trades alone. -/
theorem Step.keeps_closed {flow : ℚ} {p : Batch} (step : Step now s.db flow p) (valid : s.Valid)
    (tradeSeed ownedSeed : Int) {x : Trade} (inTable : x ∈ s.db.trades)
    (closed : x.tradeClosed = true) :
    x ∈ (s.db.apply (p.number tradeSeed ownedSeed)).trades := by
  refine List.mem_append_left _ (mem_overwrite_of_ne inTable fun r inRows same => ?_)
  obtain ⟨y, inTrades, isOpen, key, -⟩ := step.updates r inRows
  have isX : y = x := eq_of_key_eq valid.trades inTrades inTable (by rw [← key, same])
  rw [isX, closed] at isOpen
  cases isOpen

/-- A run leaves the closed trades alone. -/
theorem Run.keeps_closed {cash : ℚ} {bs : List Batch} (run : Run s cash bs t) (valid : s.Valid)
    {x : Trade} (inTable : x ∈ s.db.trades) (closed : x.tradeClosed = true) : x ∈ t.db.trades := by
  induction run with
  | nil => exact inTable
  | draw _ db _ _ ih => exact db ▸ ih
  | save before step ih => exact step.keeps_closed (before.valid valid) _ _ ih closed

/-! ## Settled once -/

/-- What a run has settled, trade by trade: a trade created in it has been settled by one
save if it has happened, and by none otherwise. -/
structure Traced (s : Tables) (bs : List Batch) (t : Tables) : Prop where
  closed : ∀ x ∈ t.db.trades, s.tradeSeed ≤ x.id → x.transactionHappened = true →
    x.tradeClosed = true
  once : ∀ x ∈ t.db.trades, s.tradeSeed ≤ x.id →
    bs.countP (Batch.settlesId x.id) = if x.transactionHappened then 1 else 0
  /-- Identifiers to come have not been settled. -/
  fresh : ∀ id, t.tradeSeed ≤ id → bs.countP (Batch.settlesId id) = 0

/-- A row of a new trade has an identifier from the seed on. -/
theorem mem_inserted_number {p : Batch} {tradeSeed ownedSeed : Int} {x : Trade}
    (inserted : x ∈ (p.number tradeSeed ownedSeed).insertedTrades) :
    tradeSeed ≤ x.id ∧ x.id < tradeSeed + p.insertedTrades.length ∧
      ∃ r ∈ p.insertedTrades, x = { r with id := x.id } := by
  obtain ⟨n, inside, rfl⟩ := List.mem_mapIdx.1 inserted
  refine ⟨?_, ?_, _, List.getElem_mem inside, rfl⟩
  · change tradeSeed ≤ tradeSeed + (n : Int)
    omega
  · change tradeSeed + (n : Int) < _
    omega

/-- A save settles the trades whose rows it writes, as far as they have happened. -/
theorem Step.settlesId_eq {flow : ℚ} {p : Batch} (step : Step now s.db flow p) (valid : s.Valid)
    {tradeSeed ownedSeed : Int} {x : Trade}
    (written : x ∈ (p.number tradeSeed ownedSeed).insertedTrades ∨ x ∈ p.updatedTrades) :
    (p.number tradeSeed ownedSeed).settlesId x.id = x.transactionHappened := by
  have listed : x ∈ (p.number tradeSeed ownedSeed).insertedTrades ++ p.updatedTrades :=
    List.mem_append.2 written
  rcases step.accounted valid tradeSeed ownedSeed with ⟨none, -⟩ | ⟨r, type, only, -⟩
  · have waits : x.transactionHappened = false := by
      simpa using List.filter_eq_nil_iff.1 none x listed
    rw [waits]
    simp [Batch.settlesId, none]
  · -- A save that settles a trade writes no other trade.
    have single : x = r := by
      have inSettled : r ∈ (p.number tradeSeed ownedSeed).settled := only ▸ List.mem_singleton_self r
      obtain ⟨inRows, happened⟩ := List.mem_filter.1 inSettled
      cases step with
      | cash => simp [Batch.number] at listed
      | register isOpen waits =>
        simp only [Batch.number, List.mapIdx_cons, List.mapIdx_nil, List.append_nil,
          List.mem_singleton] at inRows
        rw [inRows] at happened
        simp [waits] at happened
      | close _ closes =>
        obtain ⟨y, -, -, status, -, rfl⟩ := closes r (by simpa [Batch.number] using inRows)
        cases happened
      | quick _ _ inserted updated _ =>
        simp only [Batch.number, inserted, updated, List.mapIdx_cons, List.mapIdx_nil,
          List.append_nil, List.mem_singleton] at inRows listed
        rw [inRows, listed]
      | long _ _ inserted _ updated _ =>
        simp only [Batch.number, inserted, updated, List.mapIdx_nil, List.nil_append,
          List.mem_singleton] at inRows listed
        rw [inRows, listed]
    have happened : r.transactionHappened = true :=
      (List.mem_filter.1 (only ▸ List.mem_singleton_self r :
        r ∈ (p.number tradeSeed ownedSeed).settled)).2
    rw [single, happened]
    simp [Batch.settlesId, only]

/-- A save does not settle a trade whose row it does not write. -/
theorem settlesId_of_apart {p : Batch} {tradeSeed ownedSeed id : Int}
    (updated : ∀ r ∈ p.updatedTrades, r.id ≠ id)
    (outside : id < tradeSeed ∨ tradeSeed + p.insertedTrades.length ≤ id) :
    (p.number tradeSeed ownedSeed).settlesId id = false := by
  refine List.any_eq_false.2 fun r settled => ?_
  rw [decide_eq_true_eq]
  rcases List.mem_append.1 (List.mem_filter.1 settled).1 with new | changed
  · have above := (mem_inserted_number new).1
    have below := (mem_inserted_number new).2.1
    omega
  · exact updated r changed

/-- One save keeps the trace. -/
theorem Traced.save {bs : List Batch} {p : Batch} {flow : ℚ} (traced : Traced s bs t)
    (valid : t.Valid) (step : Step now t.db flow p) :
    Traced s (bs ++ [p.number t.tradeSeed t.ownedSeed])
      (t.apply (p.number t.tradeSeed t.ownedSeed)) := by
  have count : ∀ id, (bs ++ [p.number t.tradeSeed t.ownedSeed]).countP (Batch.settlesId id) =
      bs.countP (Batch.settlesId id) +
        if (p.number t.tradeSeed t.ownedSeed).settlesId id then 1 else 0 := fun id => by
    rw [List.countP_append, List.countP_singleton]
  have known : ∀ r ∈ p.updatedTrades, r.id < t.tradeSeed := fun r updated => by
    obtain ⟨x, inTrades, -, key, -⟩ := step.updates r updated
    rw [key]
    exact valid.tradeSeed x inTrades
  have each : ∀ x ∈ (t.apply (p.number t.tradeSeed t.ownedSeed)).db.trades, s.tradeSeed ≤ x.id →
      (x.transactionHappened = true → x.tradeClosed = true) ∧
        (bs ++ [p.number t.tradeSeed t.ownedSeed]).countP (Batch.settlesId x.id) =
          if x.transactionHappened then 1 else 0 := by
    intro x inTable created
    rcases List.mem_append.1 inTable with old | new
    · rcases mem_overwrite old with updated | ⟨kept, apart⟩
      · obtain ⟨y, inTrades, isOpen, key, closed⟩ := step.updates x updated
        have waits : y.transactionHappened = false := by
          by_contra happened
          have closedY := traced.closed y inTrades (key ▸ created) (by simpa using happened)
          rw [isOpen] at closedY
          cases closedY
        have none := traced.once y inTrades (key ▸ created)
        rw [waits] at none
        rw [count, step.settlesId_eq valid (.inr updated), key, none]
        exact ⟨fun _ => closed, by simp⟩
      · have apart' := @settlesId_of_apart p t.tradeSeed t.ownedSeed x.id apart
          (.inl (valid.tradeSeed x kept))
        rw [count, apart', traced.once x kept created]
        exact ⟨traced.closed x kept created, by simp⟩
    · obtain ⟨above, -, r, inserted, same⟩ := mem_inserted_number new
      rw [count, step.settlesId_eq valid (.inl new), traced.fresh x.id above]
      refine ⟨?_, by simp⟩
      rw [same]
      exact (step.inserts r inserted).1
  refine ⟨fun x inTable created => (each x inTable created).1,
    fun x inTable created => (each x inTable created).2, fun id above => ?_⟩
  have beyond : t.tradeSeed + p.insertedTrades.length ≤ id := by
    simpa [Tables.apply, Batch.number] using above
  rw [count, traced.fresh id (by omega), settlesId_of_apart (fun r updated => ?_) (.inr beyond)]
  · rfl
  · have below := known r updated
    omega

/-- A run traces what it settles. -/
theorem Run.traced {cash : ℚ} {bs : List Batch} (run : Run s cash bs t) (valid : s.Valid) :
    Traced s bs t := by
  induction run with
  | nil =>
    have old : ∀ x ∈ s.db.trades, ¬s.tradeSeed ≤ x.id := fun x inTable =>
      not_le.2 (valid.tradeSeed x inTable)
    exact ⟨fun x inTable created => absurd created (old x inTable),
      fun x inTable created => absurd created (old x inTable), fun _ _ => rfl⟩
  | save before step ih => exact ih.save (before.valid valid) step
  | draw _ db trades _ ih =>
    exact ⟨db ▸ ih.closed, db ▸ ih.once, fun id above => ih.fresh id (le_trans trades above)⟩

/-! ## Holdings -/

/-- No holding is below zero, and no open trade is about a negative quantity. -/
structure Database.Stocked (db : Database) : Prop where
  owned : ∀ r ∈ db.owned, 0 ≤ r.quantity
  pending : ∀ x ∈ db.trades, x.tradeClosed = false → 0 ≤ x.quantity

/-- The shares of a settled trade keep the holdings from falling below zero. -/
theorem Settles.stocked {x : Trade} {type : ActionType} {b : Batch}
    (settles : Settles db now x type b) (owned : ∀ r ∈ db.owned, 0 ≤ r.quantity)
    (quantity : 0 ≤ x.quantity) :
    (∀ r ∈ b.insertedOwned, 0 ≤ r.quantity) ∧ ∀ r ∈ b.updatedOwned, 0 ≤ r.quantity := by
  have moved := settles.moved
  generalize b.insertedOwned = news, b.updatedOwned = olds at moved
  cases moved with
  | created absent =>
    have purchase : ¬type.isSale := fun sale => by
      obtain ⟨row, found, -⟩ := settles.held sale
      rw [absent] at found
      cases found
    refine ⟨fun r inRows => ?_, nofun⟩
    rw [List.mem_singleton.1 inRows, ActionType.shares, if_neg purchase]
    exact quantity
  | @changed row found =>
    have rowQuantity : 0 ≤ row.quantity := owned row (List.mem_of_find?_eq_some found)
    refine ⟨nofun, fun r inRows => ?_⟩
    rw [List.mem_singleton.1 inRows]
    change 0 ≤ row.quantity + type.shares x.quantity
    by_cases sale : type.isSale
    · obtain ⟨row', found', enough⟩ := settles.held sale
      obtain rfl : row = row' := Option.some.inj (found.symm.trans found')
      rw [ActionType.shares, if_pos sale]
      linarith only [enough]
    · rw [ActionType.shares, if_neg sale]
      exact add_nonneg rowQuantity quantity

/-- A save keeps the holdings from falling below zero. -/
theorem Step.stocked {flow : ℚ} {p : Batch} (step : Step now db flow p) (stocked : db.Stocked)
    (tradeSeed ownedSeed : Int) : (db.apply (p.number tradeSeed ownedSeed)).Stocked := by
  have rows : (∀ r ∈ p.insertedOwned, 0 ≤ r.quantity) ∧ ∀ r ∈ p.updatedOwned, 0 ≤ r.quantity := by
    cases step with
    | cash => exact ⟨nofun, nofun⟩
    | register => exact ⟨nofun, nofun⟩
    | close => exact ⟨nofun, nofun⟩
    | quick quantity _ _ _ settles => exact settles.stocked stocked.owned quantity
    | long inTable isOpen _ _ _ settles =>
      exact settles.stocked stocked.owned (stocked.pending _ inTable isOpen)
  constructor
  · intro r inTable
    rcases List.mem_append.1 inTable with old | new
    · rcases mem_overwrite old with updated | ⟨kept, -⟩
      · exact rows.2 r updated
      · exact stocked.owned r kept
    · obtain ⟨n, inside, rfl⟩ := List.mem_mapIdx.1 new
      exact rows.1 p.insertedOwned[n] (List.getElem_mem inside)
  · intro x inTable isOpen
    rcases mem_trades_apply inTable with ⟨old, -⟩ | updated | ⟨r, inserted, n, -, rfl⟩
    · exact stocked.pending x old isOpen
    · obtain ⟨-, -, -, -, closed⟩ := step.updates x updated
      rw [closed] at isOpen
      cases isOpen
    · exact (step.inserts r inserted).2 isOpen

/-- A run keeps the holdings from falling below zero. -/
theorem Run.stocked {cash : ℚ} {bs : List Batch} (run : Run s cash bs t)
    (stocked : s.db.Stocked) : t.db.Stocked := by
  induction run with
  | nil => exact stocked
  | save before step ih => exact step.stocked ih _ _
  | draw _ db _ _ ih => exact db ▸ ih

/-! ## Every sequence of calls -/

/-- After any sequence of calls, from holdings and open trades that are not negative: a
trade created in it is closed if it has happened, and has been settled by exactly one
save then and by none otherwise; every save that settles a trade has the effect of that
trade, and every other save moves no shares and only cash; a trade that was closed
after some of the calls is still the same row; and no holding is below zero. -/
theorem trades_live_once (g : Server) (calls : List Call) (valid : g.tables.Valid)
    (stocked : g.tables.db.Stocked) :
    ∃ bs, (serveAll .exact g calls).log = g.log ++ bs ∧
      (∀ x ∈ (serveAll .exact g calls).tables.db.trades, g.tables.tradeSeed ≤ x.id →
        (x.transactionHappened = true → x.tradeClosed = true) ∧
          bs.countP (Batch.settlesId x.id) = if x.transactionHappened then 1 else 0) ∧
      (∀ before b after, bs = before ++ b :: after →
        b.Accounted (g.tables.db.applyAll before)) ∧
      (∀ before after, calls = before ++ after →
        ∀ x ∈ (serveAll .exact g before).tables.db.trades, x.tradeClosed = true →
          x ∈ (serveAll .exact g calls).tables.db.trades) ∧
      ∀ r ∈ (serveAll .exact g calls).tables.db.owned, 0 ≤ r.quantity := by
  obtain ⟨bs, run, log⟩ := serveAll_run calls valid
  have traced := run.traced valid
  refine ⟨bs, log, fun x inTable created => ⟨traced.closed x inTable created,
    traced.once x inTable created⟩, fun before b after split => run.accounted valid split,
    fun before after split x inTable closed => ?_, (run.stocked stocked).owned⟩
  have valid' := serveAll_valid .exact before valid
  obtain ⟨_, others, -⟩ := serveAll_run after valid'
  rw [split, serveAll_append]
  exact others.keeps_closed valid' inTable closed

/-- The life of the trades of a day. -/
theorem trades_live_once_of_day :
    ∃ bs, (serveAll .exact Market.server Market.day).log = Market.server.log ++ bs ∧
      (∀ x ∈ (serveAll .exact Market.server Market.day).tables.db.trades,
        Market.server.tables.tradeSeed ≤ x.id →
        (x.transactionHappened = true → x.tradeClosed = true) ∧
          bs.countP (Batch.settlesId x.id) = if x.transactionHappened then 1 else 0) ∧
      (∀ before b after, bs = before ++ b :: after →
        b.Accounted (Market.server.tables.db.applyAll before)) ∧
      (∀ before after, Market.day = before ++ after →
        ∀ x ∈ (serveAll .exact Market.server before).tables.db.trades, x.tradeClosed = true →
          x ∈ (serveAll .exact Market.server Market.day).tables.db.trades) ∧
      ∀ r ∈ (serveAll .exact Market.server Market.day).tables.db.owned, 0 ≤ r.quantity :=
  trades_live_once Market.server Market.day Market.valid ⟨List.forall_mem_nil _, List.forall_mem_nil _⟩

end EasyTrade.Broker
