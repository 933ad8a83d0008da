import EasyTrade.Broker.Turns

/-!
# Every request is a run of steps

Each service, run on the book from a state between two saves, ends between two
saves. So a request that returns is a `Run` from the tables it found, and what
it reported closed to the engine are the trades its saves have closed. On exact
columns so is every sequence of calls (`serveAll_run`).
-/

namespace EasyTrade.Broker

open EasyTrade.Store EasyTrade.Ledger EasyTrade.Logic EasyTrade.Logic.Program

/-- The cash a request takes in when it returns. -/
def Request.cash : Request → ℚ
  | .deposit _ amount => amount
  | .withdraw _ amount => -amount
  | .buyAssets .. => 0
  | .sellAssets .. => 0
  | .longBuyAssets .. => 0
  | .longSellAssets .. => 0
  | .processLongRunningTransactions => 0

variable {μ μ' : Book} {s : Tables} {inflow : ℚ} {clock : Int}

/-! ## Quick and registered trades -/

/-- A deposit or a withdrawal is one step. -/
theorem modifyBalance_between {accountId : Int} {amount : ℚ} {type : ActionType} {r : Balance}
    (h : μ.Between clock s inflow)
    (ok : (BalanceService.modifyBalance accountId amount type).eval Book.act .refused μ =
      .ok (r, μ')) : μ'.Between clock s (inflow + type.signed amount) := by
  unfold BalanceService.modifyBalance at ok
  simp only [eval_bind_ok, eval_getBalanceOfAccount_ok, and_assoc, exists_and_left,
    exists_eq_left, Book.ask_balanceOfAccount (show μ.pending.updatedBalances = [] by rw [h.idle])]
    at ok
  split at ok
  · rename_i balance found
    simp only [eval_bind_ok, eval_now_ok, eval_ofExcept_ok, eval_beginTransaction_ok,
      eval_putBalance_ok, eval_addBalanceHistory_ok, eval_pure_ok, and_assoc, exists_and_left,
      exists_eq_left, exists_const, Book.pending_stage, Book.stage_stage, Book.pending_transact]
      at ok
    obtain ⟨balance', changed, -, _, _, saved, rfl, rfl⟩ := ok
    obtain ⟨-, rfl⟩ := eval_saveChangesOrRollback_ok saved
    have key : balance.accountId = accountId := key_of_lookup found
    rw [← key] at found
    refine (h.save ?_ (.cash found changed)).transact false
    exact ⟨rfl, rfl, rfl, by simp [Batch.write, h.idle, key, ActionType.signed, h.clock],
      (List.append_nil _).symm⟩
  · cases ok

/-- The trade is saved with what belongs to it, in a transaction of its own. -/
structure Book.Inserted (t : Trade) (b : Batch) (μ μ' : Book) : Prop where
  /-- Only a trade without an identifier of its own is saved. -/
  responding : μ.env.dbNotResponding = false
  inserted : b.insertedTrades = [t]
  saves : ∃ ν, μ.Staged b ν ∧ μ' = ν.save.transact false

/-- Saving and committing a new trade and what belongs to it. -/
theorem Book.inserted_of_ok {ν : Book} {t : Trade} {p saved : Batch}
    (ended : saveChangesOrRollback.eval Book.act .refused ν = .ok (saved, μ'))
    (staged : μ.Staged { p with insertedTrades := [μ.env.added t] } ν) :
    Book.Inserted t { p with insertedTrades := [t] } μ μ' := by
  obtain ⟨unnumbered, rfl⟩ := eval_saveChangesOrRollback_ok ended
  cases responding : μ.env.dbNotResponding with
  | true =>
    rw [staged.pending] at unnumbered
    have zero := unnumbered.1 (μ.env.added t) List.mem_cons_self
    rw [Env.added, if_pos responding] at zero
    exact absurd (show invalidTradeId = 0 from zero) (by decide)
  | false =>
    have isAdded : μ.env.added t = t := if_neg (by simp [responding])
    rw [isAdded] at staged
    exact ⟨responding, rfl, ν, staged, rfl⟩

/-- Saving and committing a new trade is one step. -/
theorem Book.Between.insert (h : μ.Between clock s inflow) {t : Trade} {b : Batch}
    (inserted : Book.Inserted t b μ μ') (step : Step clock μ.saved.db 0 b) :
    μ'.Between clock s inflow := by
  obtain ⟨ν, staged, rfl⟩ := inserted.saves
  exact inflow.add_zero ▸ (h.save staged step).transact false

theorem eval_quickInput_ok {amount : ℚ} {u : Unit} :
    (TradeService.validateInput amount).eval Book.act .refused μ = .ok (u, μ') ↔
      0 ≤ amount ∧ μ' = μ := by
  unfold TradeService.validateInput
  split
  · rename_i negative
    simp [negative]
  · rename_i nonneg
    simp [not_lt.1 nonneg, eq_comm]

/-- The stored spelling of an action is its name, whatever the case of its letters. -/
theorem equalsIgnoreCase_lower (type : ActionType) :
    equalsIgnoreCase type.lower type.name = true := by
  cases type <;> decide +kernel

/-- A quick purchase that returns has settled its trade at the last price. -/
theorem buyAssets_inserted {accountId instrumentId : Int} {amount : ℚ} {r : Trade}
    (idle : μ.pending = {})
    (ok : (TradeService.buyAssets accountId instrumentId amount).eval Book.act .refused μ =
      .ok (r, μ')) :
    0 ≤ amount ∧ ∃ candle b, μ.env.lastPrice instrumentId = some candle ∧
      Book.Inserted (.quickTrade accountId instrumentId .buy candle.open amount μ.env.now) b μ μ' ∧
      b.updatedTrades = [] ∧ Settles μ.saved.db μ.env.now
        (.quickTrade accountId instrumentId .buy candle.open amount μ.env.now) .buy b := by
  unfold TradeService.buyAssets at ok
  simp only [eval_bind_ok, eval_quickInput_ok, eval_getBalanceOfAccount_ok, and_assoc,
    exists_and_left, exists_eq_left] at ok
  obtain ⟨nonneg, -, ok⟩ := ok
  split at ok
  · rename_i balance found
    rw [Book.ask_balanceOfAccount (by rw [idle])] at found
    obtain rfl : balance.accountId = accountId := key_of_lookup found
    simp only [eval_bind_ok, eval_getInstrument_ok, and_assoc, exists_and_left,
      exists_eq_left] at ok
    split at ok
    · rename_i instrument isInstrument
      simp only [eval_bind_ok, eval_getLastPrice_ok, eval_getProduct_ok, eval_deref_ok, and_assoc,
        exists_and_left, exists_eq_left] at ok
      obtain ⟨price, last, product, isProduct, ok⟩ := ok
      split at ok
      · simp at ok
      · rename_i covered
        simp only [eval_bind_ok, eval_beginTransaction_ok, eval_now_ok, eval_addTrade_ok,
          eval_pure_ok, and_assoc, exists_and_left, exists_eq_left, exists_const] at ok
        obtain ⟨-, _, _, charged, _, _, held, _, _, ended, -, rfl⟩ := ok
        obtain ⟨balances, rows, paid, rfl⟩ :=
          eval_updateBalance_ok charged (by simp [idle, Batch.write]) found
        obtain ⟨news, olds, moved, rfl⟩ := eval_updateOwnedInstrument_ok held
          (by simp [idle, Batch.write]) (by simp [idle, Batch.write])
        have inserted := Book.inserted_of_ok (μ := μ)
          (t := .quickTrade balance.accountId instrumentId .buy price.open amount μ.env.now)
          (p := ⟨[], [], balances, rows, news, olds⟩) ended
          ⟨rfl, rfl, rfl, by simp [idle, Batch.write], (List.append_nil _).symm⟩
        refine ⟨nonneg, price, _, last, inserted, rfl, {
          trades := .inl rfl
          direction := equalsIgnoreCase_lower .buy
          paid := ⟨product, productOf_eq isInstrument isProduct, paid, ?_⟩
          moved := moved
          held := fun sale => by simp [ActionType.isSale] at sale }⟩
        intro purchase balance' same
        obtain rfl : balance' = balance := Option.some.inj (same.symm.trans found)
        rw [Trade.income_of_not_sale _ purchase]
        change 0 ≤ balance'.value + -(amount * price.open) - product.ppt
        have enough := not_lt.1 covered
        linarith only [enough]
    · simp at ok
  · simp at ok

/-- A quick purchase is one step. -/
theorem buyAssets_between {accountId instrumentId : Int} {amount : ℚ} {r : Trade}
    (h : μ.Between clock s inflow)
    (ok : (TradeService.buyAssets accountId instrumentId amount).eval Book.act .refused μ =
      .ok (r, μ')) : μ'.Between clock s inflow := by
  obtain rfl := h.clock
  obtain ⟨nonneg, _, _, -, inserted, quick, settles⟩ := buyAssets_inserted h.idle ok
  exact h.insert inserted (.quick nonneg (.inl rfl) inserted.inserted quick settles)

/-- A quick sale that returns has settled its trade at the last price. -/
theorem sellAssets_inserted {accountId instrumentId : Int} {amount : ℚ} {r : Trade}
    (idle : μ.pending = {})
    (ok : (TradeService.sellAssets accountId instrumentId amount).eval Book.act .refused μ =
      .ok (r, μ')) :
    0 ≤ amount ∧ ∃ candle b, μ.env.lastPrice instrumentId = some candle ∧
      Book.Inserted (.quickTrade accountId instrumentId .sell candle.open amount μ.env.now) b μ μ' ∧
      b.updatedTrades = [] ∧ Settles μ.saved.db μ.env.now
        (.quickTrade accountId instrumentId .sell candle.open amount μ.env.now) .sell b := by
  unfold TradeService.sellAssets at ok
  simp only [eval_bind_ok, eval_quickInput_ok, eval_getBalanceOfAccount_ok, and_assoc,
    exists_and_left, exists_eq_left] at ok
  obtain ⟨nonneg, -, ok⟩ := ok
  split at ok
  · rename_i balance found
    rw [Book.ask_balanceOfAccount (by rw [idle])] at found
    obtain rfl : balance.accountId = accountId := key_of_lookup found
    simp only [eval_bind_ok, eval_getInstrument_ok, and_assoc, exists_and_left,
      exists_eq_left] at ok
    split at ok
    · rename_i instrument isInstrument
      simp only [eval_bind_ok, eval_getLastPrice_ok, eval_getProduct_ok, eval_deref_ok,
        eval_getOwnedInstrument_ok, and_assoc, exists_and_left, exists_eq_left] at ok
      obtain ⟨price, last, ok⟩ := ok
      split at ok
      · rename_i owned isOwned
        rw [Book.ask_ownedInstrument (by rw [idle])] at isOwned
        split at ok
        · simp at ok
        · rename_i enough
          simp only [eval_bind_ok, eval_beginTransaction_ok, eval_now_ok, eval_addTrade_ok,
            eval_deref_ok, eval_pure_ok, and_assoc, exists_and_left, exists_eq_left,
            exists_const] at ok
          obtain ⟨-, product, isProduct, _, _, charged, _, _, held, _, _, ended, -, rfl⟩ := ok
          obtain ⟨balances, rows, paid, rfl⟩ :=
            eval_updateBalance_ok charged (by simp [idle, Batch.write]) found
          obtain rfl := eval_updateOwned_ok held (by simp [idle, Batch.write])
          have inserted := Book.inserted_of_ok (μ := μ)
            (t := .quickTrade balance.accountId instrumentId .sell price.open amount μ.env.now)
            (p := ⟨[], [], balances, rows, [], [{ owned with
              quantity := owned.quantity + -amount
              lastModificationDate := μ.env.now }]⟩) ended
            ⟨rfl, rfl, rfl, by simp [idle, Batch.write], (List.append_nil _).symm⟩
          refine ⟨nonneg, price, _, last, inserted, rfl, {
            trades := .inr (.inl rfl)
            direction := equalsIgnoreCase_lower .sell
            paid := ⟨product, productOf_eq isInstrument isProduct, ?_, ?_⟩
            moved := .changed isOwned
            held := fun _ => ⟨owned, isOwned, not_lt.1 enough⟩ }⟩
          · rw [mul_comm] at paid
            exact paid
          · exact fun purchase => absurd (.inl rfl) purchase
      · simp at ok
    · simp at ok
  · simp at ok

/-- A quick sale is one step. -/
theorem sellAssets_between {accountId instrumentId : Int} {amount : ℚ} {r : Trade}
    (h : μ.Between clock s inflow)
    (ok : (TradeService.sellAssets accountId instrumentId amount).eval Book.act .refused μ =
      .ok (r, μ')) : μ'.Between clock s inflow := by
  obtain rfl := h.clock
  obtain ⟨nonneg, _, _, -, inserted, quick, settles⟩ := sellAssets_inserted h.idle ok
  exact h.insert inserted (.quick nonneg (.inr rfl) inserted.inserted quick settles)

theorem eval_longInput_ok {amount price : ℚ} {duration : Int} {u : Unit} :
    (LongTradeService.validateInput amount price duration).eval Book.act .refused μ =
      .ok (u, μ') ↔ 0 ≤ amount ∧ 0 ≤ price ∧ 0 ≤ duration ∧ μ' = μ := by
  unfold LongTradeService.validateInput
  by_cases amountNonneg : 0 ≤ amount <;> by_cases priceNonneg : 0 ≤ price <;>
    by_cases durationNonneg : 0 ≤ duration <;>
    simp [amountNonneg, priceNonneg, durationNonneg, not_lt.2, not_le.1, eq_comm]

/-- A long-running trade that is registered is saved as it was asked for, and returned
with its identifier. -/
theorem createLongTransaction_inserted {accountId instrumentId : Int} {amount : ℚ} {duration : Int}
    {price : ℚ} {type : ActionType} {r : Trade} (idle : μ.pending = {})
    (ok : (LongTradeService.createLongTransaction accountId instrumentId amount duration price
      type).eval Book.act .refused μ = .ok (r, μ')) :
    0 ≤ amount ∧ ∃ t, Trade.longTrade accountId instrumentId type price amount duration μ.env.now =
        .ok t ∧ Book.Inserted t { insertedTrades := [t] } μ μ' ∧
      r = { t with id := μ.saved.tradeSeed } := by
  unfold LongTradeService.createLongTransaction at ok
  simp only [eval_bind_ok, eval_longInput_ok, eval_getBalanceOfAccount_ok, and_assoc,
    exists_and_left, exists_eq_left] at ok
  obtain ⟨amountNonneg, -, -, -, ok⟩ := ok
  split at ok
  · simp only [eval_bind_ok, eval_getInstrument_ok, and_assoc, exists_and_left,
      exists_eq_left] at ok
    split at ok
    · simp only [eval_bind_ok, eval_beginTransaction_ok, eval_now_ok, eval_ofExcept_ok,
        eval_addTrade_ok, eval_pure_ok, and_assoc, exists_and_left, exists_eq_left,
        exists_const] at ok
      obtain ⟨-, t, made, saved, _, ended, returned, rfl⟩ := ok
      have inserted := Book.inserted_of_ok (μ := μ) (t := t) (p := {}) ended
        ⟨rfl, rfl, rfl, by simp [idle, Batch.write], (List.append_nil _).symm⟩
      refine ⟨amountNonneg, t, made, inserted, ?_⟩
      have isSaved := (eval_saveChangesOrRollback_saved ended).2.1
      have isAdded : μ.env.added t = t := if_neg (by simp [inserted.responding])
      rw [returned, isSaved]
      simp [Batch.saved, Book.batch, Batch.number, Batch.write, idle, isAdded]
    · simp at ok
  · simp at ok

/-- Registering a long-running trade is one step. -/
theorem createLongTransaction_between {accountId instrumentId : Int} {amount : ℚ} {duration : Int}
    {price : ℚ} {type : ActionType} {r : Trade} (isLong : type = .longBuy ∨ type = .longSell)
    (h : μ.Between clock s inflow)
    (ok : (LongTradeService.createLongTransaction accountId instrumentId amount duration price
      type).eval Book.act .refused μ = .ok (r, μ')) : μ'.Between clock s inflow := by
  obtain rfl := h.clock
  obtain ⟨amountNonneg, t, made, inserted, -⟩ := createLongTransaction_inserted h.idle ok
  obtain ⟨close, same⟩ := Trade.eq_of_longTrade made
  exact h.insert inserted (.register (by rw [same]) (by rw [same])
    (by rw [same]; exact amountNonneg) ⟨type, isLong, by rw [same], by rw [same]⟩)

/-! ## Processing -/

/-- The open trades of a book with nothing pending. -/
theorem Book.mem_ask_openTrades (idle : μ.pending = {}) {t : Trade}
    (listed : t ∈ μ.ask .openTrades) : t ∈ μ.saved.db.trades ∧ t.tradeClosed = false := by
  rw [Book.ask, idle] at listed
  obtain ⟨r, inAnswer, rfl⟩ := List.mem_map.1 listed
  obtain ⟨inTable, isOpen⟩ := List.mem_filter.1 ((List.mem_insertionSort _).1 inAnswer)
  exact ⟨inTable, by simpa [Trade.isOpen] using isOpen⟩

/-- The book before the save of one turn of the processing loop, which is about one
trade. -/
def Book.Turn (clock : Int) (t : Trade) (μ ν : Book) : Prop :=
  ∃ p, μ.Staged p ν ∧ Step clock μ.saved.db 0 p ∧ ∀ r ∈ p.updatedTrades, r.id = t.id

/-- A turn is a step about its trade. -/
theorem Book.TurnOf.turn {t : Trade} {q : Quote} (turn : μ.TurnOf t q μ')
    (inTable : t ∈ μ.saved.db.trades) (isOpen : t.tradeClosed = false) :
    μ.Turn μ.env.now t μ' := by
  obtain ⟨v, b, turned, staged, -⟩ := turn
  refine ⟨b, staged, ?_, fun r inRows => ?_⟩
  · cases turned with
    | unsettled verdict without =>
      cases v with
      | waiting => exact .close .nil (List.forall_mem_nil _)
      | failed status =>
        refine .close (List.nodup_singleton _) fun r inRows => ?_
        rw [List.mem_singleton.1 inRows]
        exact ⟨t, inTable, isOpen, status, Trade.mem_failures verdict, rfl⟩
      | happened type => exact absurd rfl (without type)
    | settled verdict inserted updated settles =>
      exact .long inTable isOpen inserted (Trade.isLong_of_happened verdict) updated settles
  · rw [turned.trades.2] at inRows
    exact Verdict.id_of_mem_rows inRows

/-- One turn of the loop and its save. -/
theorem processTrade_between {prices : List Price} {t : Trade} {u : Unit}
    (h : μ.Between clock s inflow) (inTable : t ∈ μ.saved.db.trades) (isOpen : t.tradeClosed = false)
    (ok : (LongTradeService.processTrade μ.saved.db.instruments prices μ.saved.db.products t).eval
      Book.act .refused μ = .ok (u, μ')) :
    μ'.Between clock s inflow ∧ ∀ x ∈ μ.saved.db.trades, x.id ≠ t.id → x ∈ μ'.saved.db.trades := by
  obtain rfl := h.clock
  obtain ⟨q, ν, -, -, turn, rfl⟩ := processTrade_turn h.idle ok
  obtain ⟨p, staged, step, about⟩ := turn.turn inTable isOpen
  refine ⟨inflow.add_zero ▸ h.save staged step, fun x inTrades apart => ?_⟩
  refine List.mem_append_left _ ?_
  rw [Book.batch, staged.saved, staged.pending]
  exact mem_overwrite_of_ne inTrades fun r inRows same => apart (by rw [← same, about r inRows])

/-- The overdue trades of a book with nothing pending. -/
theorem Book.mem_ask_overdueTrades (idle : μ.pending = {}) {now : Int} {t : Trade}
    (listed : t ∈ μ.ask (.overdueTrades now)) :
    t ∈ μ.saved.db.trades ∧ t.tradeClosed = false := by
  rw [Book.ask, idle] at listed
  obtain ⟨r, inAnswer, rfl⟩ := List.mem_map.1 listed
  obtain ⟨inTable, overdue⟩ := List.mem_filter.1 ((List.mem_insertionSort _).1 inAnswer)
  simp only [Trade.isOverdue, Trade.isOpen, Bool.and_eq_true, Bool.not_eq_true'] at overdue
  exact ⟨inTable, overdue.1⟩

/-- Trades that a query selects from the table, in whatever order, are distinct. -/
theorem nodup_arrange {rank : Int → ℕ} {trades : List Trade} (p : Trade → Bool)
    (unique : (trades.map Trade.id).Nodup) :
    ((Trade.arrange rank (trades.filter p)).map Trade.id).Nodup :=
  ((List.perm_insertionSort _ _).map Trade.id).nodup_iff.2
    (unique.sublist (List.filter_sublist.map _))

/-- The overdue trades are distinct. -/
theorem Book.nodup_ask_overdueTrades (idle : μ.pending = {})
    (unique : (μ.saved.db.trades.map Trade.id).Nodup) (now : Int) :
    ((μ.ask (.overdueTrades now)).map Trade.id).Nodup := by
  rw [Book.ask, idle]
  change ((List.map id _).map Trade.id).Nodup
  rw [List.map_id]
  exact nodup_arrange _ unique

/-- The row of a trade that is closed because it is overdue. -/
def Trade.expire (t : Trade) : Trade := t.close "Time is up: trade failed" false

/-- The sweep closes the overdue trades, one after another, and saves nothing. -/
theorem closeOverdueTrades_expires {u : Unit} (idle : μ.pending = {})
    (unique : (μ.saved.db.trades.map Trade.id).Nodup)
    (ok : LongTradeService.closeOverdueTrades.eval Book.act .refused μ = .ok (u, μ')) :
    μ.Staged { updatedTrades := (μ.ask (.overdueTrades μ.env.now)).map Trade.expire } μ' ∧
      μ'.inTransaction = μ.inTransaction := by
  unfold LongTradeService.closeOverdueTrades at ok
  simp only [eval_bind_ok, eval_now_ok, and_assoc, exists_and_left, exists_eq_left] at ok
  obtain ⟨overdue, _, asked, swept⟩ := ok
  obtain ⟨rfl, same⟩ := eval_ask_ok.1 asked
  rw [same] at swept
  have distinct := Book.nodup_ask_overdueTrades idle unique μ.env.now
  -- Between two closings, those made so far are pending and reported.
  have loop := eval_forEach (fun rest ν => ∃ made, μ.ask (.overdueTrades μ.env.now) = made ++ rest ∧
      μ.Staged { updatedTrades := made.map Trade.expire } ν ∧ ν.inTransaction = μ.inTransaction)
    (fun t rest ν ν' inv closed => ?_) _ μ μ'
    ⟨[], rfl, ⟨rfl, rfl, rfl, idle, (List.append_nil _).symm⟩, rfl⟩ swept
  · obtain ⟨made, all, staged, opened⟩ := loop
    rw [List.append_nil] at all
    rw [all]
    exact ⟨staged, opened⟩
  · obtain ⟨made, all, staged, opened⟩ := inv
    obtain rfl := eval_closeTrade_ok.1 closed
    refine ⟨made ++ [t], by rw [all, List.append_assoc, List.singleton_append],
      ⟨staged.env, staged.saved, staged.log, ?_, ?_⟩, opened⟩
    · have apart : ∀ x ∈ made, x.id ≠ t.id := fun x inMade same => by
        rw [all, List.map_append, List.nodup_append] at distinct
        exact distinct.2.2 _ (List.mem_map_of_mem inMade) _
          (List.mem_map_of_mem List.mem_cons_self) same
      have kept : (made.map Trade.expire).filter (fun x =>
          decide (x.id ≠ (t.close "Time is up: trade failed" false).id)) =
          made.map Trade.expire := List.filter_eq_self.2 fun r inRows => by
        obtain ⟨x, inMade, rfl⟩ := List.mem_map.1 inRows
        exact decide_eq_true (apart x inMade)
      rw [staged.pending, Batch.write, put, kept, List.map_append, List.map_singleton]
      rfl
    · rw [staged.notified, List.append_assoc, List.map_append, List.map_singleton]
      rfl

/-- The sweep is a step. -/
theorem closeOverdueTrades_staged {u : Unit} (h : μ.Between clock s inflow)
    (ok : LongTradeService.closeOverdueTrades.eval Book.act .refused μ = .ok (u, μ')) :
    ∃ rows, μ.Staged { updatedTrades := rows } μ' ∧ μ'.inTransaction = μ.inTransaction ∧
      Step clock μ.saved.db 0 { updatedTrades := rows } := by
  obtain ⟨staged, opened⟩ := closeOverdueTrades_expires h.idle h.valid.trades ok
  refine ⟨_, staged, opened, .close ?_ fun r inRows => ?_⟩
  · rw [List.map_map]
    exact Book.nodup_ask_overdueTrades h.idle h.valid.trades _
  · obtain ⟨t, listed, rfl⟩ := List.mem_map.1 inRows
    obtain ⟨inTable, isOpen⟩ := Book.mem_ask_overdueTrades h.idle listed
    exact ⟨t, inTable, isOpen, _, List.mem_cons_self, rfl⟩

/-- The loop over the open trades. Those still to come are open and in the table. -/
theorem processTrades_between {prices : List Price} {trades : List Trade} {u : Unit}
    (h : μ.Between clock s inflow)
    (listed : ∀ t ∈ trades, t ∈ μ.saved.db.trades ∧ t.tradeClosed = false)
    (distinct : (trades.map Trade.id).Nodup)
    (ok : (forEach trades (LongTradeService.processTrade μ.saved.db.instruments prices
      μ.saved.db.products)).eval Book.act .refused μ = .ok (u, μ')) : μ'.Between clock s inflow := by
  have static : ∀ {ν : Book}, ν.Between clock s inflow →
      μ.saved.db.instruments = ν.saved.db.instruments ∧
        μ.saved.db.products = ν.saved.db.products := fun between => by
    rw [h.saved, between.saved]
    simp
  refine (eval_forEach (fun rest ν => ν.Between clock s inflow ∧
    (∀ t ∈ rest, t ∈ ν.saved.db.trades ∧ t.tradeClosed = false) ∧ (rest.map Trade.id).Nodup)
    (fun t rest ν ν' inv processed => ?_) trades μ μ' ⟨h, listed, distinct⟩ ok).1
  obtain ⟨between, listed, distinct⟩ := inv
  simp only [List.map_cons, List.nodup_cons] at distinct
  obtain ⟨inTable, isOpen⟩ := listed t List.mem_cons_self
  rw [(static between).1, (static between).2] at processed
  obtain ⟨after, others⟩ := processTrade_between between inTable isOpen processed
  refine ⟨after, fun x inRest => ?_, distinct.2⟩
  obtain ⟨inTrades, stillOpen⟩ := listed x (List.mem_cons_of_mem _ inRest)
  refine ⟨others x inTrades fun same => distinct.1 ?_, stillOpen⟩
  rw [← same]
  exact List.mem_map_of_mem inRest

/-- A pass over the long-running trades is a run. -/
theorem processLongRunningTransactions_between {u : Unit} (h : μ.Between clock s inflow)
    (ok : LongTradeService.processLongRunningTransactions.eval Book.act .refused μ =
      .ok (u, μ')) : μ'.Between clock s inflow := by
  unfold LongTradeService.processLongRunningTransactions at ok
  simp only [eval_bind_ok, eval_beginTransaction_ok, eval_saveChanges_ok, and_assoc,
    exists_and_left, exists_eq_left, exists_const] at ok
  obtain ⟨-, _, ν, swept, -, _, _, asked, ok⟩ := ok
  obtain ⟨rows, staged, -, step⟩ := closeOverdueTrades_staged (h.transact true) swept
  have afterSweep : ν.save.Between clock s inflow := inflow.add_zero ▸ (h.transact true).save staged step
  obtain ⟨rfl, same⟩ := eval_ask_ok.1 asked
  rw [same] at ok
  simp only [eval_getAllInstruments_ok, eval_getLatestPrices_ok, eval_getProducts_ok,
    eval_toDictionary_ok, and_assoc, exists_and_left, exists_eq_left] at ok
  obtain ⟨-, -, -, _, ν', looped, _, _, ended, -, rfl⟩ := ok
  have distinct : ((ν.save.ask .openTrades).map Trade.id).Nodup := by
    rw [Book.ask, afterSweep.idle]
    change ((List.map id _).map Trade.id).Nodup
    rw [List.map_id]
    exact nodup_arrange _ afterSweep.valid.trades
  have afterLoop := processTrades_between afterSweep
    (fun t => Book.mem_ask_openTrades afterSweep.idle) distinct looped
  obtain ⟨-, rfl⟩ := eval_saveChangesOrRollback_ok ended
  have last := afterLoop.save (p := {})
    ⟨rfl, rfl, rfl, afterLoop.idle, (List.append_nil _).symm⟩ (.close .nil (List.forall_mem_nil _))
  exact inflow.add_zero ▸ last.transact false

/-! ## Requests -/

/-- A request that returns is a run from the tables it found. -/
theorem Request.between {env : Env} {request : Request} {response : Response}
    (valid : s.Valid) (ok : request.eval env s = .ok (response, μ)) :
    μ.Between env.now s request.cash := by
  have start := between_start env valid
  have plain : ∀ {flow : ℚ}, flow = 0 → μ.Between env.now s 0 → μ.Between env.now s flow :=
    fun none between => none ▸ between
  unfold Request.eval Book.eval at ok
  cases request with
  | deposit accountId amount =>
    obtain ⟨_, ν, deposited, ended⟩ := eval_bind_ok.1 ok
    obtain ⟨-, rfl⟩ := eval_pure_ok.1 ended
    have moved := modifyBalance_between start deposited
    rw [zero_add] at moved
    exact moved
  | withdraw accountId amount =>
    obtain ⟨_, ν, withdrawn, ended⟩ := eval_bind_ok.1 ok
    obtain ⟨-, rfl⟩ := eval_pure_ok.1 ended
    have moved := modifyBalance_between start withdrawn
    rw [zero_add] at moved
    exact moved
  | buyAssets accountId instrumentId amount =>
    obtain ⟨_, ν, bought, ended⟩ := eval_bind_ok.1 ok
    obtain ⟨-, rfl⟩ := eval_pure_ok.1 ended
    exact plain rfl (buyAssets_between start bought)
  | sellAssets accountId instrumentId amount =>
    obtain ⟨_, ν, sold, ended⟩ := eval_bind_ok.1 ok
    obtain ⟨-, rfl⟩ := eval_pure_ok.1 ended
    exact plain rfl (sellAssets_between start sold)
  | longBuyAssets accountId instrumentId amount duration price =>
    obtain ⟨_, ν, registered, ended⟩ := eval_bind_ok.1 ok
    obtain ⟨-, rfl⟩ := eval_pure_ok.1 ended
    exact plain rfl (createLongTransaction_between (.inl rfl) start registered)
  | longSellAssets accountId instrumentId amount duration price =>
    obtain ⟨_, ν, registered, ended⟩ := eval_bind_ok.1 ok
    obtain ⟨-, rfl⟩ := eval_pure_ok.1 ended
    exact plain rfl (createLongTransaction_between (.inr rfl) start registered)
  | processLongRunningTransactions =>
    obtain ⟨_, ν, processed, ended⟩ := eval_bind_ok.1 ok
    obtain ⟨-, rfl⟩ := eval_pure_ok.1 ended
    exact plain rfl (processLongRunningTransactions_between start processed)

/-! ## Sequences of calls -/

/-- The cash a call takes in. -/
def Call.cash (c : DecimalColumn) (g : Server) (call : Call) : ℚ :=
  match (call.exec c g).1 with
  | .ok _ => call.request.cash
  | .error _ => 0

/-- The cash a sequence of calls takes in: accepted deposits less accepted withdrawals. -/
def acceptedCash (c : DecimalColumn) : Server → List Call → ℚ
  | _, [] => 0
  | g, next :: rest => next.cash c g + acceptedCash c (serve c g next) rest

/-- An exact column stores a batch as it is. -/
theorem store_exact (b : Batch) : b.store .exact = b := by
  simp only [Batch.store]
  congr <;> exact List.map_id _

/-- On exact columns a call is a run. -/
theorem serve_run {g : Server} (call : Call) (valid : g.tables.Valid) :
    ∃ bs, Run g.tables (call.cash .exact g) bs (serve .exact g call).tables ∧
      (serve .exact g call).log = g.log ++ bs := by
  cases outcome : (call.exec .exact g).1 with
  | error e =>
    obtain ⟨db, log, draws⟩ := serve_of_error outcome
    refine ⟨[], ?_, by rw [log, List.append_nil]⟩
    rw [Call.cash, outcome]
    exact .draw .nil db draws.tradeSeed draws.ownedSeed
  | ok response =>
    obtain ⟨μ, served⟩ := serve_of_ok valid outcome
    have run := (Request.between valid served.eval).run
    have same : μ.log.map (Batch.store .exact) = μ.log := by
      conv_rhs => rw [← List.map_id μ.log]
      exact List.map_congr_left fun b _ => store_exact b
    refine ⟨μ.log, ?_, by rw [served.log, same]⟩
    rw [Call.cash, outcome]
    exact run.draw (by rw [served.db, same, ← run.db]) served.tradeSeed.ge served.ownedSeed.ge

/-- On exact columns a sequence of calls is a run. -/
theorem serveAll_run {g : Server} (calls : List Call) (valid : g.tables.Valid) :
    ∃ bs, Run g.tables (acceptedCash .exact g calls) bs (serveAll .exact g calls).tables ∧
      (serveAll .exact g calls).log = g.log ++ bs := by
  induction calls generalizing g with
  | nil => exact ⟨[], .nil, (List.append_nil _).symm⟩
  | cons next rest ih =>
    obtain ⟨bs, first, log⟩ := serve_run next valid
    obtain ⟨bs', others, log'⟩ := ih (serve_valid .exact next valid)
    exact ⟨bs ++ bs', first.trans others, by
      rw [serveAll_cons, log', log, List.append_assoc]⟩

end EasyTrade.Broker
