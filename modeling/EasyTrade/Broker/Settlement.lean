import EasyTrade.Broker.Fates

/-!
# Quick and deferred settlements

A quick trade at the last price and a long-running trade at that price are settled by
different methods. The saves of the two differ in what they say about the trade, in the
labels of the history rows and in the dates; what they move is the same.
-/

namespace EasyTrade.Broker

open EasyTrade.Store EasyTrade.Ledger EasyTrade.Logic EasyTrade.Logic.Program

variable {c : DecimalColumn} {g : Server} {db db' : Database} {now now' : Int} {env : Env}
  {t : Trade} {q : Quote}

/-! ## Rows that are alike -/

/-- The row without its date. -/
def OwnedInstrument.undated (r : OwnedInstrument) : OwnedInstrument :=
  { r with lastModificationDate := 0 }

/-- The row without its label and its date. -/
def BalanceHistory.unlabelled (r : BalanceHistory) : BalanceHistory :=
  { r with actionType := "", actionDate := 0 }

/-- The tables have the same balances, and the same holdings and the same history up to
labels and dates. -/
structure Database.Alike (db db' : Database) : Prop where
  balances : db.balances = db'.balances
  owned : db.owned.map OwnedInstrument.undated = db'.owned.map OwnedInstrument.undated
  history : db.history.map BalanceHistory.unlabelled = db'.history.map BalanceHistory.unlabelled

/-- The saves move the same. -/
structure Batch.Alike (b b' : Batch) : Prop where
  balances : b.updatedBalances = b'.updatedBalances
  history : b.insertedHistory.map BalanceHistory.unlabelled =
    b'.insertedHistory.map BalanceHistory.unlabelled
  inserted : b.insertedOwned.map OwnedInstrument.undated =
    b'.insertedOwned.map OwnedInstrument.undated
  updated : b.updatedOwned.map OwnedInstrument.undated = b'.updatedOwned.map OwnedInstrument.undated

/-- Payments of one income and one fee write the same. -/
theorem Paid.alike {accountId : Int} {income fee : ℚ} {type type' : ActionType}
    {balances balances' : List Balance} {rows rows' : List BalanceHistory}
    (paid : Paid db now accountId income fee type balances rows)
    (paid' : Paid db now' accountId income fee type' balances' rows') :
    balances = balances' ∧
      rows.map BalanceHistory.unlabelled = rows'.map BalanceHistory.unlabelled := by
  cases paid with
  | @trader value owner apart balance ownerBalance =>
    cases paid' with
    | @trader value' owner' _ balance' ownerBalance' =>
      obtain rfl : value' = value :=
        congrArg Balance.value (Option.some.inj (balance'.symm.trans balance))
      obtain rfl : owner' = owner :=
        congrArg Balance.value (Option.some.inj (ownerBalance'.symm.trans ownerBalance))
      exact ⟨rfl, rfl⟩
    | owner same => exact absurd same apart
  | @owner value same balance =>
    cases paid' with
    | trader apart => exact absurd same apart
    | @owner value' _ balance' =>
      obtain rfl : value' = value :=
        congrArg Balance.value (Option.some.inj (balance'.symm.trans balance))
      exact ⟨rfl, rfl⟩

/-- Shares moved to one holding write the same. -/
theorem Moved.alike {accountId instrumentId : Int} {amount : ℚ}
    {news news' olds olds' : List OwnedInstrument}
    (moved : Moved db now accountId instrumentId amount news olds)
    (moved' : Moved db now' accountId instrumentId amount news' olds') :
    news.map OwnedInstrument.undated = news'.map OwnedInstrument.undated ∧
      olds.map OwnedInstrument.undated = olds'.map OwnedInstrument.undated := by
  cases moved with
  | created absent =>
    cases moved' with
    | created => exact ⟨rfl, rfl⟩
    | changed found => cases absent.symm.trans found
  | @changed row found =>
    cases moved' with
    | created absent => cases absent.symm.trans found
    | @changed row' found' =>
      obtain rfl : row' = row := Option.some.inj (found'.symm.trans found)
      exact ⟨rfl, rfl⟩

/-- Settlements that pay the same and move the same shares are alike. -/
theorem Settles.alike {t t' : Trade} {type type' : ActionType} {b b' : Batch}
    (settles : Settles db now t type b) (settles' : Settles db now' t' type' b')
    (account : t.accountId = t'.accountId) (instrument : t.instrumentId = t'.instrumentId)
    (income : t.income type = t'.income type')
    (shares : type.shares t.quantity = type'.shares t'.quantity) : b.Alike b' := by
  obtain ⟨product, isProduct, paid, -⟩ := settles.paid
  obtain ⟨product', isProduct', paid', -⟩ := settles'.paid
  rw [← instrument, isProduct] at isProduct'
  obtain rfl := Option.some.inj isProduct'
  rw [← account, ← income] at paid'
  have moved := settles'.moved
  rw [← account, ← instrument, ← shares] at moved
  obtain ⟨balances, history⟩ := paid.alike paid'
  obtain ⟨inserted, updated⟩ := settles.moved.alike moved
  exact ⟨balances, history, inserted, updated⟩

/-- What two saves insert is numbered alike. -/
theorem Batch.Alike.number {b b' : Batch} (alike : b.Alike b') (tradeSeed ownedSeed : Int) :
    (b.number tradeSeed ownedSeed).Alike (b'.number tradeSeed ownedSeed) := by
  have numbered : ∀ rows : List OwnedInstrument,
      (rows.mapIdx fun n (r : OwnedInstrument) => { r with id := ownedSeed + n }).map
        OwnedInstrument.undated =
      (rows.map OwnedInstrument.undated).mapIdx fun n (r : OwnedInstrument) =>
        { r with id := ownedSeed + n } := fun rows =>
    List.ext_getElem (by simp) fun n _ _ => by simp [OwnedInstrument.undated]
  refine ⟨alike.balances, alike.history, ?_, alike.updated⟩
  simp only [Batch.number]
  rw [numbered, numbered, alike.inserted]

/-- The columns keep two saves alike. -/
theorem Batch.Alike.store {b b' : Batch} (alike : b.Alike b') (c : DecimalColumn) :
    (b.store c).Alike (b'.store c) := by
  have rows : ∀ rows : List OwnedInstrument,
      (rows.map (OwnedInstrument.store c)).map OwnedInstrument.undated =
        (rows.map OwnedInstrument.undated).map (OwnedInstrument.store c) := fun rows => by
    rw [List.map_map, List.map_map]
    rfl
  have entries : ∀ rows : List BalanceHistory,
      (rows.map (BalanceHistory.store c)).map BalanceHistory.unlabelled =
        (rows.map BalanceHistory.unlabelled).map (BalanceHistory.store c) := fun rows => by
    rw [List.map_map, List.map_map]
    rfl
  refine ⟨?_, ?_, ?_, ?_⟩ <;> simp only [Batch.store]
  · rw [alike.balances]
  · rw [entries, entries, alike.history]
  · rw [rows, rows, alike.inserted]
  · rw [rows, rows, alike.updated]

/-- Saves that are alike leave tables that are alike. -/
theorem Batch.Alike.apply {b b' : Batch} (alike : b.Alike b') :
    (db.apply b).Alike (db.apply b') := by
  have kept : ∀ r : OwnedInstrument, r.undated.id = r.id := fun _ => rfl
  refine ⟨?_, ?_, ?_⟩ <;> simp only [Database.apply]
  · rw [alike.balances]
  · rw [List.map_append, List.map_append, ← overwrite_map kept, ← overwrite_map kept,
      alike.updated, alike.inserted]
  · rw [List.map_append, List.map_append, alike.history]

/-! ## The deferred settlement -/

/-- A turn of the processing loop by itself: in a transaction, saved and committed. -/
def LongTradeService.settle (turn : Task Unit) : Task Unit := do
  beginTransaction
  turn
  let _ ← saveChanges
  let _ ← saveChangesOrRollback

theorem LongTradeService.disciplined_settle {turn : Task Unit} (disciplined : turn.Disciplined) :
    (settle turn).Disciplined := by
  refine orderly_bind (disciplined_send nofun) fun _ => orderly_bind disciplined fun _ => ?_
  refine orderly_bind (disciplined_send nofun) fun _ => ?_
  exact orderly_bind disciplined_saveChangesOrRollback fun _ => trivial

/-- The turn of a trade that returns is saved, and nothing else. -/
theorem settle_run {turn : Task Unit} (disciplined : turn.Disciplined) (valid : g.tables.Valid)
    {ν : Book} (turned : Book.TurnOf t q
      (Book.transact { env := env, saved := g.tables } true) ν)
    (ok : turn.eval Book.act .refused (Book.transact { env := env, saved := g.tables } true) =
      .ok ((), ν)) :
    ∃ v b, Turned g.tables.db env.now t q v b ∧
      ((LongTradeService.settle turn).run c env g).1 = .ok () ∧
      ((LongTradeService.settle turn).run c env g).2.2.tables.db =
        g.tables.db.apply ((b.number g.tables.tradeSeed g.tables.ownedSeed).store c) := by
  obtain ⟨v, b, turned, staged, transaction⟩ := turned
  have unnumbered : ν.pending.Unnumbered := by
    rw [staged.pending]
    exact turned.unnumbered
  have opened : ν.save.inTransaction = true := transaction
  obtain ⟨saved, μ, ended⟩ := saveChangesOrRollback_returns
    (show ν.save.pending.Unnumbered from ⟨List.forall_mem_nil _, List.forall_mem_nil _⟩) opened
  have evaluated : (LongTradeService.settle turn).eval Book.act .refused
      { env := env, saved := g.tables } = .ok ((), μ) := by
    refine eval_bind_ok.mpr ⟨(), _, eval_beginTransaction_ok.mpr ⟨rfl, rfl⟩, ?_⟩
    refine eval_bind_ok.mpr ⟨(), ν, ok, ?_⟩
    refine eval_bind_ok.mpr ⟨_, _, eval_saveChanges_ok.mpr ⟨unnumbered, rfl, rfl⟩, ?_⟩
    exact eval_bind_ok.mpr ⟨saved, μ, ended, rfl⟩
  obtain ⟨-, rfl⟩ := eval_saveChangesOrRollback_ok ended
  obtain ⟨returns, db⟩ := Task.run_of_eval (c := c)
    (LongTradeService.disciplined_settle disciplined) valid evaluated rfl
  refine ⟨v, b, turned, returns, db.trans ?_⟩
  have first : ν.batch = b.number g.tables.tradeSeed g.tables.ownedSeed := by
    rw [Book.batch, staged.pending, staged.saved]
    rfl
  have nothing : ∀ db : Database, db.apply ((ν.save.batch).store c) = db := Database.apply_empty
  have log : (ν.save.save.transact false).log = [ν.batch, ν.save.batch] := by
    change (ν.log ++ [ν.batch]) ++ [ν.save.batch] = _
    rw [staged.log]
    rfl
  rw [log, ← first]
  exact nothing _

/-! ## The quick settlement -/

section Quick

variable {μ : Book} {accountId instrumentId : Int} {amount : ℚ} {balance : Balance}
  {instrument : Instrument} {product : Product} {candle : Price} {owned : OwnedInstrument}

/-- A new trade is saved where what belongs to it has no identifiers of its own. -/
theorem saveNew_returns {ν : Book} {t : Trade} (responding : μ.env.dbNotResponding = false)
    (new : t.id = 0) (trades : ν.pending.insertedTrades = [μ.env.added t])
    (unnumbered : ∀ r ∈ ν.pending.insertedOwned, r.id = 0) (opened : ν.inTransaction = true) :
    Returns saveChangesOrRollback ν := by
  refine saveChangesOrRollback_returns ⟨?_, unnumbered⟩ opened
  have isAdded : μ.env.added t = t := if_neg (by simp [responding])
  rw [trades, isAdded]
  exact fun r inRows => by rw [List.mem_singleton.mp inRows, new]

/-- A quick purchase returns where the balance covers it and nothing is missing. -/
theorem buyAssets_returns (idle : μ.pending = {}) (outside : μ.inTransaction = false)
    (responding : μ.env.dbNotResponding = false) (nonneg : 0 ≤ amount)
    (found : μ.saved.db.balanceOf accountId = some balance)
    (owner : (μ.saved.db.balanceOf ownerId).isSome = true)
    (isInstrument : lookup Instrument.id instrumentId μ.saved.db.instruments = some instrument)
    (isProduct : lookup Product.id instrument.productId μ.saved.db.products = some product)
    (last : μ.env.lastPrice instrumentId = some candle)
    (enough : amount * candle.open + product.ppt ≤ balance.value) :
    Returns (TradeService.buyAssets accountId instrumentId amount) μ := by
  have isBalance : μ.ask (.balanceOfAccount accountId) = some balance :=
    (Book.ask_balanceOfAccount (by rw [idle]) _).trans found
  obtain rfl : balance.accountId = accountId := key_of_lookup found
  unfold TradeService.buyAssets
  refine returns_bind_of_eq (a := ()) (eval_quickInput_ok.mpr ⟨nonneg, rfl⟩) ?_
  refine returns_bind_of_eq (eval_getBalanceOfAccount_ok.mpr ⟨isBalance.symm, rfl⟩) ?_
  refine returns_bind_of_eq (eval_getInstrument_ok.mpr ⟨isInstrument.symm, rfl⟩) ?_
  refine returns_bind_of_eq (eval_getLastPrice_ok.mpr ⟨last.symm, rfl⟩) ?_
  refine returns_bind_of_eq (eval_deref_ok.mpr ⟨rfl, rfl⟩) ?_
  refine returns_bind_of_eq (eval_getProduct_ok.mpr ⟨isProduct.symm, rfl⟩) ?_
  refine returns_bind_of_eq (eval_deref_ok.mpr ⟨rfl, rfl⟩) ?_
  dsimp only
  rw [if_neg (not_lt.mpr enough)]
  refine returns_bind_of_eq (a := ()) (eval_beginTransaction_ok.mpr ⟨outside, rfl⟩) ?_
  refine returns_bind_of_eq (eval_now_ok.mpr ⟨rfl, rfl⟩) ?_
  refine returns_bind_of_eq (a := ()) (eval_addTrade_ok.mpr rfl) ?_
  refine returns_bind (updateBalance_returns owner) fun _ ν charged => ?_
  obtain ⟨balances, rows, paid, rfl⟩ :=
    eval_updateBalance_ok charged (by simp [idle, Batch.write]) found
  refine returns_bind updateOwnedInstrument_returns fun _ ν held => ?_
  obtain ⟨news, olds, moved, rfl⟩ := eval_updateOwnedInstrument_ok held
    (by simp [idle, Batch.write]) (by simp [idle, Batch.write])
  refine returns_bind (saveNew_returns (t := .quickTrade balance.accountId instrumentId .buy
    candle.open amount μ.env.now) responding rfl ?_ moved.unnumbered rfl) fun _ _ _ => ⟨_, _, rfl⟩
  simp [idle, Batch.write]

/-- A quick sale returns where the holding covers it and nothing is missing. -/
theorem sellAssets_returns (idle : μ.pending = {}) (outside : μ.inTransaction = false)
    (responding : μ.env.dbNotResponding = false) (nonneg : 0 ≤ amount)
    (found : μ.saved.db.balanceOf accountId = some balance)
    (owner : (μ.saved.db.balanceOf ownerId).isSome = true)
    (isInstrument : lookup Instrument.id instrumentId μ.saved.db.instruments = some instrument)
    (isProduct : lookup Product.id instrument.productId μ.saved.db.products = some product)
    (last : μ.env.lastPrice instrumentId = some candle)
    (isOwned : μ.saved.db.ownedOf accountId instrumentId = some owned)
    (enough : amount ≤ owned.quantity) :
    Returns (TradeService.sellAssets accountId instrumentId amount) μ := by
  have isBalance : μ.ask (.balanceOfAccount accountId) = some balance :=
    (Book.ask_balanceOfAccount (by rw [idle]) _).trans found
  have isHolding : μ.ask (.ownedInstrument accountId instrumentId) = some owned :=
    (Book.ask_ownedInstrument (by rw [idle]) _ _).trans isOwned
  obtain rfl : balance.accountId = accountId := key_of_lookup found
  unfold TradeService.sellAssets
  refine returns_bind_of_eq (a := ()) (eval_quickInput_ok.mpr ⟨nonneg, rfl⟩) ?_
  refine returns_bind_of_eq (eval_getBalanceOfAccount_ok.mpr ⟨isBalance.symm, rfl⟩) ?_
  refine returns_bind_of_eq (eval_getInstrument_ok.mpr ⟨isInstrument.symm, rfl⟩) ?_
  refine returns_bind_of_eq (eval_getLastPrice_ok.mpr ⟨last.symm, rfl⟩) ?_
  refine returns_bind_of_eq (eval_deref_ok.mpr ⟨rfl, rfl⟩) ?_
  refine returns_bind_of_eq (eval_getProduct_ok.mpr ⟨isProduct.symm, rfl⟩) ?_
  refine returns_bind_of_eq (eval_getOwnedInstrument_ok.mpr ⟨isHolding.symm, rfl⟩) ?_
  dsimp only
  rw [if_neg (not_lt.mpr enough)]
  refine returns_bind_of_eq (a := ()) (eval_beginTransaction_ok.mpr ⟨outside, rfl⟩) ?_
  refine returns_bind_of_eq (eval_now_ok.mpr ⟨rfl, rfl⟩) ?_
  refine returns_bind_of_eq (a := ()) (eval_addTrade_ok.mpr rfl) ?_
  refine returns_bind_of_eq (eval_deref_ok.mpr ⟨rfl, rfl⟩) ?_
  refine returns_bind (updateBalance_returns owner) fun _ ν charged => ?_
  obtain ⟨balances, rows, paid, rfl⟩ :=
    eval_updateBalance_ok charged (by simp [idle, Batch.write]) found
  refine returns_bind updateOwned_returns fun _ ν held => ?_
  obtain rfl := eval_updateOwned_ok held (by simp [idle, Batch.write])
  refine returns_bind (saveNew_returns (t := .quickTrade balance.accountId instrumentId .sell
    candle.open amount μ.env.now) responding rfl ?_ ?_ rfl)
    fun _ _ _ => ⟨_, _, rfl⟩
  · simp [idle, Batch.write]
  · simp [idle, Batch.write]

end Quick

/-! ## Agreement -/

/-- The kind of the quick trade of the same side. -/
def Trade.quickType (t : Trade) : ActionType := if t.isLongBuy then .buy else .sell

/-- The request for the quick trade of the same side. -/
def Trade.quickRequest (t : Trade) : Request :=
  if t.isLongBuy then .buyAssets t.accountId t.instrumentId t.quantity
  else .sellAssets t.accountId t.instrumentId t.quantity

/-- `ProcessLongBuy` of a purchase and `ProcessLongSell` of a sale. -/
def LongTradeService.process (t : Trade) (instrument : Instrument) (price : Price)
    (product : Product) : Task Unit :=
  if t.isLongBuy then processLongBuy t instrument price product
  else processLongSell t instrument price product

variable {instrument : Instrument} {product : Product} {candle last : Price}

/-- The deferred settlement ends with the verdict of its trade. -/
theorem deferred_run (c : DecimalColumn) (env : Env) (candle : Price) (valid : g.tables.Valid)
    (isLong : t.isLongBuy = true ∨ t.isLongSell = true)
    (isInstrument : lookup Instrument.id t.instrumentId g.tables.db.instruments = some instrument)
    (isProduct : lookup Product.id instrument.productId g.tables.db.products = some product)
    (account : (g.tables.db.balanceOf t.accountId).isSome = true)
    (owner : (g.tables.db.balanceOf ownerId).isSome = true) :
    ∃ v b, Turned g.tables.db env.now t ⟨candle, product⟩ v b ∧
      ((LongTradeService.settle (LongTradeService.process t instrument candle product)).run c env
        g).1 = .ok () ∧
      ((LongTradeService.settle (LongTradeService.process t instrument candle product)).run c env
        g).2.2.tables.db =
        g.tables.db.apply ((b.number g.tables.tradeSeed g.tables.ownedSeed).store c) := by
  obtain ⟨v, verdict⟩ := @Trade.exists_verdict t ⟨candle, product⟩ g.tables.db.position
    (by rw [Database.position, Option.isSome_map, account])
    (by rw [Database.position, Option.isSome_map, owner])
  rcases isLong with isBuy | isSell
  · have isProcess : LongTradeService.process t instrument candle product =
        LongTradeService.processLongBuy t instrument candle product := if_pos isBuy
    rw [isProcess]
    obtain ⟨_, ν, ok⟩ := processLongBuy_returns (q := ⟨candle, product⟩)
      (μ := Book.transact { env := env, saved := g.tables } true) rfl isBuy verdict
    exact settle_run (LongTradeService.disciplined_processLongBuy ..) valid
      (processLongBuy_turn rfl isBuy isInstrument isProduct ok) ok
  · have isProcess : LongTradeService.process t instrument candle product =
        LongTradeService.processLongSell t instrument candle product :=
      if_neg (by simp [isLongBuy_of_isLongSell isSell])
    rw [isProcess]
    obtain ⟨_, ν, ok⟩ := processLongSell_returns (q := ⟨candle, product⟩)
      (μ := Book.transact { env := env, saved := g.tables } true) rfl isSell
      (key_of_lookup isInstrument) verdict
    exact settle_run (LongTradeService.disciplined_processLongSell ..) valid
      (processLongSell_turn rfl isSell isInstrument isProduct ok) ok

/-- A quick trade that returns is settled at the last price, and nothing else is saved. -/
theorem quick_settled {call : Call} {r : Trade} (valid : g.tables.Valid)
    (request : call.request = t.quickRequest) (ok : (call.exec c g).1 = .ok (.trade r)) :
    ∃ last b, call.env.lastPrice t.instrumentId = some last ∧
      Settles g.tables.db call.env.now (.quickTrade t.accountId t.instrumentId t.quickType last.open
        t.quantity call.env.now) t.quickType b ∧
      (serve c g call).tables.db =
        g.tables.db.apply ((b.number g.tables.tradeSeed g.tables.ownedSeed).store c) := by
  obtain ⟨μ, served⟩ := serve_of_ok valid ok
  have evaluated := served.eval
  have saved : ∀ {x : Trade} {b : Batch},
      Book.Inserted x b { env := call.env, saved := g.tables } μ → (serve c g call).tables.db =
        g.tables.db.apply ((b.number g.tables.tradeSeed g.tables.ownedSeed).store c) :=
    fun {x b} inserted => by
      obtain ⟨ν, staged, rfl⟩ := inserted.saves
      have batch : ν.batch = b.number g.tables.tradeSeed g.tables.ownedSeed := by
        rw [Book.batch, staged.pending, staged.saved]
      have log : (ν.save.transact false).log = [ν.batch] := by
        change ν.log ++ [ν.batch] = _
        rw [staged.log]
        rfl
      rw [served.db, log, batch]
      rfl
  rw [request, Trade.quickRequest] at evaluated
  unfold Trade.quickType
  cases isBuy : t.isLongBuy with
  | true =>
    rw [isBuy] at evaluated
    obtain ⟨_, ν, bought, ended⟩ := eval_bind_ok.mp evaluated
    obtain ⟨-, rfl⟩ := eval_pure_ok.mp ended
    obtain ⟨-, last, b, isLast, inserted, -, settles⟩ := buyAssets_inserted rfl bought
    exact ⟨last, b, isLast, settles, saved inserted⟩
  | false =>
    rw [isBuy] at evaluated
    obtain ⟨_, ν, sold, ended⟩ := eval_bind_ok.mp evaluated
    obtain ⟨-, rfl⟩ := eval_pure_ok.mp ended
    obtain ⟨-, last, b, isLast, inserted, -, settles⟩ := sellAssets_inserted rfl sold
    exact ⟨last, b, isLast, settles, saved inserted⟩

/-- The quick trade returns where the balance or the holding covers the one that waits. -/
theorem quick_returns_iff (c : DecimalColumn) {call : Call} (valid : g.tables.Valid)
    (request : call.request = t.quickRequest) (undisturbed : call.refuses = fun _ => false)
    (responding : call.env.dbNotResponding = false) (nonneg : 0 ≤ t.quantity)
    (isInstrument : lookup Instrument.id t.instrumentId g.tables.db.instruments = some instrument)
    (isProduct : lookup Product.id instrument.productId g.tables.db.products = some product)
    (account : (g.tables.db.balanceOf t.accountId).isSome = true)
    (owner : (g.tables.db.balanceOf ownerId).isSome = true)
    (isLast : call.env.lastPrice t.instrumentId = some last) (atLimit : last.open = t.entryPrice) :
    (∃ r, (call.exec c g).1 = .ok (.trade r)) ↔
      t.covered product.ppt g.tables.db.position = true := by
  constructor
  · rintro ⟨r, ok⟩
    obtain ⟨last', b, isLast', settles, -⟩ := quick_settled valid request ok
    obtain rfl : last' = last := Option.some.inj (isLast'.symm.trans isLast)
    cases isBuy : t.isLongBuy with
    | true =>
      have type : t.quickType = .buy := if_pos isBuy
      rw [type] at settles
      obtain ⟨product', isProduct', -, enough⟩ := settles.paid
      obtain rfl : product' = product :=
        Option.some.inj (isProduct'.symm.trans (productOf_eq isInstrument isProduct))
      obtain ⟨balance, found⟩ := Option.isSome_iff_exists.mp account
      have left := enough (by decide) balance found
      rw [Trade.income_of_not_sale _ (by decide)] at left
      change 0 ≤ balance.value + -(t.quantity * last'.open) - product'.ppt at left
      rw [atLimit] at left
      refine (Trade.covered_longBuy isBuy).mpr ⟨balance, found, ?_⟩
      linarith only [left]
    | false =>
      have type : t.quickType = .sell := if_neg (by simp [isBuy])
      rw [type] at settles
      exact (Trade.covered_longSell isBuy).mpr (settles.held (by decide))
  · intro covered
    obtain ⟨balance, found⟩ := Option.isSome_iff_exists.mp account
    have returned : ∃ r μ, call.request.eval call.env g.tables = .ok (.trade r, μ) := by
      rw [request, Trade.quickRequest]
      cases isBuy : t.isLongBuy with
      | true =>
        obtain ⟨balance, found, enough⟩ := (Trade.covered_longBuy isBuy).mp covered
        rw [← atLimit] at enough
        obtain ⟨r, μ, bought⟩ := @buyAssets_returns { env := call.env, saved := g.tables }
          t.accountId t.instrumentId t.quantity balance instrument product last rfl rfl responding
          nonneg found owner isInstrument isProduct isLast enough
        exact ⟨r, μ, eval_bind_ok.mpr ⟨r, μ, bought, rfl⟩⟩
      | false =>
        obtain ⟨owned, isOwned, enough⟩ := (Trade.covered_longSell isBuy).mp covered
        obtain ⟨r, μ, sold⟩ := @sellAssets_returns { env := call.env, saved := g.tables }
          t.accountId t.instrumentId t.quantity balance instrument product last owned rfl rfl
          responding nonneg found owner isInstrument isProduct isLast isOwned enough
        exact ⟨r, μ, eval_bind_ok.mpr ⟨r, μ, sold, rfl⟩⟩
    obtain ⟨r, μ, returned⟩ := returned
    exact ⟨r, Call.exec_of_eval valid undisturbed returned⟩

/-- A quick trade that returns answers with it. -/
theorem quick_answer {call : Call} {response : Response} (valid : g.tables.Valid)
    (request : call.request = t.quickRequest) (ok : (call.exec c g).1 = .ok response) :
    ∃ r, response = .trade r := by
  obtain ⟨μ, served⟩ := serve_of_ok valid ok
  have evaluated := served.eval
  rw [request, Trade.quickRequest] at evaluated
  cases isBuy : t.isLongBuy with
  | true =>
    rw [isBuy] at evaluated
    obtain ⟨r, ν, -, ended⟩ := eval_bind_ok.mp evaluated
    exact ⟨r, (eval_pure_ok.mp ended).1⟩
  | false =>
    rw [isBuy] at evaluated
    obtain ⟨r, ν, -, ended⟩ := eval_bind_ok.mp evaluated
    exact ⟨r, (eval_pure_ok.mp ended).1⟩

/-- The row of a trade after a turn that closes it. -/
theorem Turned.row_iff {v : Verdict} {b : Batch} (turned : Turned db now t q v b)
    (closes : v ≠ .waiting) (unique : (db.trades.map Trade.id).Nodup) (inTable : t ∈ db.trades)
    (c : DecimalColumn) (tradeSeed ownedSeed : Int) (r : Trade) :
    r ∈ (db.apply ((b.number tradeSeed ownedSeed).store c)).trades ∧ r.id = t.id ↔
      r = (v.row t).store c := by
  have rows : v.rows t = [v.row t] := by
    cases v with
    | waiting => exact absurd rfl closes
    | failed => rfl
    | happened => rfl
  have trades : (db.apply ((b.number tradeSeed ownedSeed).store c)).trades =
      overwrite Trade.id [(v.row t).store c] db.trades := by
    simp only [Database.apply, Batch.store, Batch.number, turned.trades.1, turned.trades.2, rows]
    simp
  have isRow : resolve Trade.id [(v.row t).store c] t = (v.row t).store c :=
    resolve_of_lookup (by simp [lookup, Trade.store])
  rw [trades]
  constructor
  · rintro ⟨inTrades, sameId⟩
    obtain ⟨x, inDb, rfl⟩ := List.mem_map.mp inTrades
    have kept : (resolve Trade.id [(v.row t).store c] x).id = x.id := key_resolve _ x
    rw [eq_of_key_eq unique inDb inTable (kept.symm.trans sameId), isRow]
  · rintro rfl
    exact ⟨List.mem_map.mpr ⟨t, inTable, isRow⟩, Verdict.id_row v t⟩

/-- The trade has been closed as happened. -/
def Server.Happened (g : Server) (t : Trade) : Prop :=
  ∃ r ∈ g.tables.db.trades, r.id = t.id ∧ r.tradeClosed = true ∧ r.transactionHappened = true

/-- The balances, the holdings and the history are the same. -/
structure Database.Untouched (db db' : Database) : Prop where
  balances : db.balances = db'.balances
  owned : db.owned = db'.owned
  history : db.history = db'.history

/-- The quick trade at the limit of an open trade that is met, and the deferred one, succeed
or fail together. Where they succeed they leave the same, and where they fail they leave
everything as it was. -/
theorem quick_and_deferred_agree (c : DecimalColumn) {call : Call} {env : Env}
    (valid : g.tables.Valid) (request : call.request = t.quickRequest)
    (undisturbed : call.refuses = fun _ => false) (responding : call.env.dbNotResponding = false)
    (isLong : t.isLongBuy = true ∨ t.isLongSell = true) (inTable : t ∈ g.tables.db.trades)
    (isOpen : t.tradeClosed = false) (nonneg : 0 ≤ t.quantity)
    (isInstrument : lookup Instrument.id t.instrumentId g.tables.db.instruments = some instrument)
    (isProduct : lookup Product.id instrument.productId g.tables.db.products = some product)
    (account : (g.tables.db.balanceOf t.accountId).isSome = true)
    (owner : (g.tables.db.balanceOf ownerId).isSome = true)
    (isLast : call.env.lastPrice t.instrumentId = some last) (atLimit : last.open = t.entryPrice)
    (met : t.limitMet candle = true) :
    let deferred :=
      (LongTradeService.settle (LongTradeService.process t instrument candle product)).run c env g
    deferred.1 = .ok () ∧
      ((∃ r, (call.exec c g).1 = .ok (.trade r)) ↔ deferred.2.2.Happened t) ∧
      ((∃ r, (call.exec c g).1 = .ok (.trade r)) →
        (serve c g call).tables.db.Alike deferred.2.2.tables.db) ∧
      (¬(∃ r, (call.exec c g).1 = .ok (.trade r)) →
        (serve c g call).tables.db.Untouched g.tables.db ∧
          deferred.2.2.tables.db.Untouched g.tables.db) := by
  obtain ⟨v, b, turned, returned, db⟩ :=
    deferred_run c env candle valid isLong isInstrument isProduct account owner
  have covers := quick_returns_iff c valid request undisturbed responding nonneg isInstrument
    isProduct account owner isLast atLimit
  obtain ⟨closed, happened⟩ := Trade.row_of_limitMet turned.verdict_eq isLong met
  have closes : v ≠ .waiting := by
    rintro rfl
    rw [Verdict.row, isOpen] at closed
    cases closed
  have row := turned.row_iff closes valid.trades inTable c g.tables.tradeSeed g.tables.ownedSeed
  intro deferred
  change deferred.2.2.tables.db = _ at db
  refine ⟨returned, covers.trans ?_, fun succeeds => ?_, fun fails => ?_⟩
  · rw [Server.Happened, db]
    constructor
    · intro covered
      obtain ⟨inTrades, sameId⟩ := (row _).mpr rfl
      exact ⟨_, inTrades, sameId, closed, happened.trans covered⟩
    · rintro ⟨r, inTrades, sameId, -, isHappened⟩
      obtain rfl := (row r).mp ⟨inTrades, sameId⟩
      exact happened.symm.trans isHappened
  · obtain ⟨r, ok⟩ := succeeds
    obtain ⟨last', b', isLast', settles', saved⟩ := quick_settled valid request ok
    obtain rfl : last' = last := Option.some.inj (isLast'.symm.trans isLast)
    rw [saved, db]
    have isHappened : v = .happened t.longType := by
      rcases Trade.verdict_cases turned.verdict_eq with
        ⟨notBuy, notSell, -⟩ | ⟨-, ⟨-, waits⟩ | ⟨-, ⟨-, uncovered, -⟩ | ⟨-, isHappened⟩⟩⟩
      · simp [notBuy, notSell] at isLong
      · exact absurd waits closes
      · rw [covers.mp ⟨r, ok⟩] at uncovered
        cases uncovered
      · exact isHappened
    rw [isHappened] at turned
    have settles := turned.settles.1
    have alike : b'.Alike b := by
      refine settles'.alike settles rfl rfl ?_ ?_
      · cases isBuy : t.isLongBuy <;>
          simp [Trade.quickType, Trade.longType, isBuy, Trade.income, TradeServiceBase.income,
            Trade.quickTrade, atLimit]
      · cases isBuy : t.isLongBuy <;>
          simp [Trade.quickType, Trade.longType, isBuy, ActionType.shares, ActionType.isSale,
            Trade.quickTrade]
    exact ((alike.number _ _).store c).apply
  · have uncovered : t.covered product.ppt g.tables.db.position = false :=
      Bool.eq_false_of_not_eq_true fun covered => fails (covers.mpr covered)
    constructor
    · cases outcome : (call.exec c g).1 with
      | error e => exact (serve_of_error outcome).1 ▸ ⟨rfl, rfl, rfl⟩
      | ok response =>
        obtain ⟨r, rfl⟩ := quick_answer valid request outcome
        exact absurd ⟨r, outcome⟩ fails
    · have without : ∀ type, v ≠ .happened type := by
        rintro type rfl
        rw [uncovered] at happened
        cases happened
      have effectless := turned.effectless without
      rw [db, effectless]
      exact ⟨overwrite_nil _, by simp [Database.apply, Batch.number, Batch.store],
        by simp [Database.apply, Batch.number, Batch.store]⟩

/-- The purchase of three shares at the last price, waiting. -/
def Market.limitBuy : Trade := Market.openTrade 1 2 "longbuy" 3 10 90000

/-- The market with that purchase. -/
def Market.limited : Server :=
  { Market.server with tables := { Market.server.tables with
    db := { Market.server.tables.db with trades := [limitBuy] }
    tradeSeed := 2 } }

/-- Both settle it. -/
theorem quick_and_deferred_agree_of_limitBuy :
    let deferred := (LongTradeService.settle (LongTradeService.process Market.limitBuy
      ⟨1, 1, "ETRAVE", "EasyTravel", "Travel agency"⟩ Market.candle
      ⟨1, "Share", 5, "USD"⟩)).run .exact Market.env Market.limited
    deferred.1 = .ok () ∧
      ((∃ r, (Market.purchase.exec .exact Market.limited).1 = .ok (.trade r)) ↔
        deferred.2.2.Happened Market.limitBuy) ∧
      ((∃ r, (Market.purchase.exec .exact Market.limited).1 = .ok (.trade r)) →
        (serve .exact Market.limited Market.purchase).tables.db.Alike deferred.2.2.tables.db) ∧
      (¬(∃ r, (Market.purchase.exec .exact Market.limited).1 = .ok (.trade r)) →
        (serve .exact Market.limited Market.purchase).tables.db.Untouched Market.limited.tables.db ∧
          deferred.2.2.tables.db.Untouched Market.limited.tables.db) :=
  @quick_and_deferred_agree Market.limited Market.limitBuy _ _ Market.candle Market.candle .exact
    Market.purchase Market.env
    ⟨by decide, by decide, by decide, by decide, List.forall_mem_nil _⟩ (by decide +kernel) rfl rfl
    (.inl (by decide +kernel)) (by decide +kernel) rfl (by decide +kernel) (by decide +kernel)
    (by decide +kernel) (by decide +kernel) (by decide +kernel) (by decide +kernel)
    (by decide +kernel) (by decide +kernel)

/-- While the problem pattern lets no new trade be saved, the quick purchase throws and the
deferred one is settled. -/
theorem deferred_settles_alone :
    (Call.exec .exact { Market.purchase with env := { Market.env with dbNotResponding := true } }
        Market.limited).1 = .error .db ∧
      ((LongTradeService.settle (LongTradeService.process Market.limitBuy
        ⟨1, 1, "ETRAVE", "EasyTravel", "Travel agency"⟩ Market.candle ⟨1, "Share", 5, "USD"⟩)).run
        .exact { Market.env with dbNotResponding := true } Market.limited).2.2.tables.db.trades =
        [Market.limitBuy.close "Long buy transaction finished!" true] := by
  decide +kernel

end EasyTrade.Broker
