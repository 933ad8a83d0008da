import EasyTrade.Broker.Verdicts

/-!
# The turns of the processing loop

A turn on the book that returns has found a verdict, and what it saves is what the
verdict says.
-/

namespace EasyTrade.Broker

open EasyTrade.Store EasyTrade.Ledger EasyTrade.Logic EasyTrade.Logic.Program

variable {μ μ' : Book} {db : Database} {now : Int}

/-- The product of an instrument, as a request looks it up. -/
theorem productOf_eq {db : Database} {instrumentId : Int} {instrument : Instrument}
    {product : Product} (isInstrument : lookup Instrument.id instrumentId db.instruments =
      some instrument) (isProduct : lookup Product.id instrument.productId db.products =
      some product) : db.productOf instrumentId = some product := by
  rw [Database.productOf, isInstrument]
  exact isProduct

/-- Closing a trade: its row is pending and reported. -/
theorem eval_closeTrade_ok {t : Trade} {status : String} {happened : Bool} {u : Unit} :
    (LongTradeService.closeTrade t status happened).eval Book.act .refused μ = .ok (u, μ') ↔
      μ' = { μ with
        pending := μ.pending.write (.updateTrade (t.close status happened))
        notified := μ.notified ++ [t.close status happened] } := by
  have reported : ∀ (t : Trade) (u : Unit) (ν ν' : Book),
      (onTradeClosed t).eval Book.act .refused ν = .ok (u, ν') ↔
        ν' = { ν with notified := ν.notified ++ [t] } := fun t u ν ν' => by
    rw [onTradeClosed, eval_send_ok]
    simp [Book.act, eq_comm]
  unfold LongTradeService.closeTrade
  simp only [eval_bind_ok, eval_putTrade_ok, reported, exists_eq_left, exists_const]
  rfl

/-- The book before the save of a turn. -/
def Book.TurnOf (t : Trade) (q : Quote) (μ ν : Book) : Prop :=
  ∃ v b, Turned μ.saved.db μ.env.now t q v b ∧ μ.Staged b ν ∧ ν.inTransaction = μ.inTransaction

variable {t : Trade} {q : Quote} {u : Unit}

/-- A turn that leaves its trade open. -/
theorem turn_waiting (idle : μ.pending = {})
    (verdict : t.verdict q μ.saved.db.position = some .waiting) : μ.TurnOf t q μ :=
  ⟨.waiting, {}, .unsettled verdict nofun,
    ⟨rfl, rfl, rfl, idle, (List.append_nil _).symm⟩, rfl⟩

/-- A turn that closes its trade without an effect. -/
theorem turn_failed {status : String} (idle : μ.pending = {})
    (verdict : t.verdict q μ.saved.db.position = some (.failed status))
    (ok : (LongTradeService.closeTrade t status false).eval Book.act .refused μ = .ok (u, μ')) :
    μ.TurnOf t q μ' := by
  obtain rfl := eval_closeTrade_ok.1 ok
  exact ⟨.failed status, _, .unsettled verdict nofun,
    ⟨rfl, rfl, rfl, by simp [idle, Batch.write, Verdict.rows], rfl⟩, rfl⟩

/-- A turn that closes its trade after moving its money and its shares. -/
theorem turn_happened {ν : Book} {type : ActionType} {p : Batch}
    (verdict : t.verdict q μ.saved.db.position = some (.happened type))
    (ok : (LongTradeService.closeTrade t type.finished true).eval Book.act .refused ν =
      .ok (u, μ')) (staged : μ.Staged p ν) (transaction : ν.inTransaction = μ.inTransaction)
    (quick : p.insertedTrades = []) (unclosed : p.updatedTrades = [])
    (settles : Settles μ.saved.db μ.env.now t type p) : μ.TurnOf t q μ' := by
  obtain rfl := eval_closeTrade_ok.1 ok
  refine ⟨.happened type, { p with updatedTrades := [t.close type.finished true] },
    .settled verdict quick rfl { settles with },
    ⟨staged.env, staged.saved, staged.log, ?_, ?_⟩, transaction⟩
  · simp [staged.pending, unclosed, Batch.write]
  · simp [staged.notified, unclosed]

/-- The balance of an account on the position. -/
theorem balance_of_balanceOf {accountId : Int} {row : Option Balance}
    (found : db.balanceOf accountId = row) :
    db.position.balance accountId = row.map Balance.value := congrArg (Option.map _) found

/-- The holding of an account on the position. -/
theorem holding_of_ownedOf {accountId instrumentId : Int} {row : Option OwnedInstrument}
    (found : db.ownedOf accountId instrumentId = row) :
    db.position.holding accountId instrumentId = row.map OwnedInstrument.quantity :=
  congrArg (Option.map _) found

/-- Where a fee has been paid, the owner has a balance. -/
theorem Paid.hasOwner {accountId : Int} {income fee : ℚ} {type : ActionType} {balances : List Balance}
    {rows : List BalanceHistory}
    (paid : Paid db now accountId income fee type balances rows) :
    (db.position.balance ownerId).isNone = false := by
  cases paid with
  | trader apart balance ownerBalance => rw [balance_of_balanceOf ownerBalance]; rfl
  | owner same balance => rw [← same, balance_of_balanceOf balance]; rfl

/-- An action has one name. -/
theorem isLongBuy_of_isLongSell {t : Trade} (direction : t.isLongSell = true) :
    t.isLongBuy = false := by
  unfold Trade.isLongSell equalsIgnoreCase at direction
  unfold Trade.isLongBuy equalsIgnoreCase
  rw [of_decide_eq_true direction]
  decide +kernel

theorem processLongBuy_turn {instrument : Instrument} (idle : μ.pending = {})
    (direction : t.isLongBuy = true)
    (isInstrument : lookup Instrument.id t.instrumentId μ.saved.db.instruments = some instrument)
    (isProduct : lookup Product.id instrument.productId μ.saved.db.products = some q.product)
    (ok : (LongTradeService.processLongBuy t instrument q.price q.product).eval Book.act .refused μ =
      .ok (u, μ')) : μ.TurnOf t q μ' := by
  unfold LongTradeService.processLongBuy at ok
  split at ok
  · rename_i below
    obtain ⟨-, rfl⟩ := eval_pure_ok.1 ok
    exact turn_waiting idle (by simp [Trade.verdict, Trade.limitMet, direction, below])
  · rename_i met
    simp only [eval_bind_ok, eval_getBalanceOfAccount_ok, eval_deref_ok, and_assoc,
      exists_and_left, exists_eq_left] at ok
    obtain ⟨balance, found, ok⟩ := ok
    rw [Book.ask_balanceOfAccount (by rw [idle])] at found
    have key : balance.accountId = t.accountId := key_of_lookup found
    have value := balance_of_balanceOf found
    split at ok
    · rename_i uncovered
      refine turn_failed idle ?_ ok
      simp [Trade.verdict, Trade.limitMet, Trade.covered, Trade.uncoveredStatus, direction, met,
        value, uncovered]
    · rename_i covered
      simp only [eval_bind_ok] at ok
      obtain ⟨_, _, charged, _, _, held, closed⟩ := ok
      rw [← key] at found
      obtain ⟨balances, rows, paid, rfl⟩ :=
        eval_updateBalance_ok charged (by simp [idle]) found
      obtain ⟨news, olds, moved, rfl⟩ := eval_updateOwnedInstrument_ok held
        (by simp [idle]) (by simp [idle])
      rw [key] at paid found
      rw [key_of_lookup isInstrument] at moved
      have owner := paid.hasOwner
      refine @turn_happened _ _ _ _ _ _ .longBuy ⟨[], [], balances, rows, news, olds⟩ ?_ closed
        ⟨rfl, rfl, rfl, by simp [idle], (List.append_nil _).symm⟩ rfl rfl rfl {
          trades := .inr (.inr (.inl rfl))
          direction := direction
          paid := ⟨q.product, productOf_eq isInstrument isProduct, paid, ?_⟩
          moved := moved
          held := fun sale => by simp [ActionType.isSale] at sale }
      · simp [Trade.verdict, Trade.limitMet, Trade.covered, Trade.longType, direction, met, value,
          not_lt.1 covered, owner]
      · intro purchase balance' same
        obtain rfl : balance' = balance := Option.some.inj (same.symm.trans found)
        rw [Trade.income_of_not_sale _ purchase]
        have enough := not_lt.1 covered
        linarith only [enough]

theorem processLongSell_turn {instrument : Instrument} (idle : μ.pending = {})
    (direction : t.isLongSell = true)
    (isInstrument : lookup Instrument.id t.instrumentId μ.saved.db.instruments = some instrument)
    (isProduct : lookup Product.id instrument.productId μ.saved.db.products = some q.product)
    (ok : (LongTradeService.processLongSell t instrument q.price q.product).eval Book.act .refused
      μ = .ok (u, μ')) : μ.TurnOf t q μ' := by
  have notBuy := isLongBuy_of_isLongSell direction
  unfold LongTradeService.processLongSell at ok
  split at ok
  · rename_i above
    obtain ⟨-, rfl⟩ := eval_pure_ok.1 ok
    exact turn_waiting idle (by simp [Trade.verdict, Trade.limitMet, notBuy, direction, above])
  · rename_i met
    simp only [eval_bind_ok, eval_getOwnedInstrument_ok, and_assoc, exists_and_left,
      exists_eq_left, Book.ask_ownedInstrument (show μ.pending.updatedOwned = [] by rw [idle]),
      key_of_lookup isInstrument] at ok
    cases isOwned : μ.saved.db.ownedOf t.accountId t.instrumentId with
    | none =>
      rw [isOwned] at ok
      refine turn_failed idle ?_ ok
      simp [Trade.verdict, Trade.limitMet, Trade.covered, Trade.uncoveredStatus, notBuy, direction,
        met, holding_of_ownedOf isOwned]
    | some owned =>
      have quantity := holding_of_ownedOf isOwned
      simp only [isOwned] at ok
      split at ok
      · rename_i uncovered
        refine turn_failed idle ?_ ok
        simp [Trade.verdict, Trade.limitMet, Trade.covered, Trade.uncoveredStatus, notBuy,
          direction, met, quantity, uncovered]
      · rename_i enough
        simp only [eval_bind_ok, eval_getBalanceOfAccount_ok, eval_deref_ok, and_assoc,
          exists_and_left, exists_eq_left] at ok
        obtain ⟨balance, found, _, _, charged, _, _, held, closed⟩ := ok
        rw [Book.ask_balanceOfAccount (by rw [idle])] at found
        have key : balance.accountId = t.accountId := key_of_lookup found
        have value := balance_of_balanceOf found
        rw [← key] at found
        obtain ⟨balances, rows, paid, rfl⟩ :=
          eval_updateBalance_ok charged (by simp [idle]) found
        obtain rfl := eval_updateOwned_ok held (by simp [idle])
        rw [key, mul_comm] at paid
        have owner := paid.hasOwner
        refine @turn_happened _ _ _ _ _ _ .longSell ⟨[], [], balances, rows, [], [{ owned with
            quantity := owned.quantity + -t.quantity
            lastModificationDate := μ.env.now }]⟩ ?_ closed
          ⟨rfl, rfl, rfl, by simp [idle], (List.append_nil _).symm⟩ rfl rfl rfl {
            trades := .inr (.inr (.inr rfl))
            direction := direction
            paid := ⟨q.product, productOf_eq isInstrument isProduct, paid,
              fun purchase => absurd (.inr rfl) purchase⟩
            moved := .changed isOwned
            held := fun _ => ⟨owned, isOwned, not_lt.1 enough⟩ }
        simp [Trade.verdict, Trade.limitMet, Trade.covered, Trade.longType, notBuy, direction, met,
          value, quantity, not_lt.1 enough, owner]

/-- One turn of the loop asks the dictionaries, makes the turn and saves it. -/
theorem processTrade_turn {prices : List Price} (idle : μ.pending = {})
    (ok : (LongTradeService.processTrade μ.saved.db.instruments prices μ.saved.db.products t).eval
      Book.act .refused μ = .ok (u, μ')) :
    ∃ q ν, quote μ.saved.db.instruments prices μ.saved.db.products t = some q ∧
      μ.saved.db.productOf t.instrumentId = some q.product ∧ μ.TurnOf t q ν ∧ μ' = ν.save := by
  unfold LongTradeService.processTrade at ok
  simp only [eval_bind_ok, eval_item_ok, and_assoc, exists_and_left, exists_eq_left] at ok
  obtain ⟨instrument, isInstrument, price, isPrice, product, isProduct, ok⟩ := ok
  have known : quote μ.saved.db.instruments prices μ.saved.db.products t =
      some ⟨price, product⟩ := by
    simp [quote, isInstrument, isPrice, isProduct]
  have ofProduct := productOf_eq isInstrument isProduct
  split at ok
  · rename_i direction
    simp only [eval_bind_ok, eval_saveChanges_ok, eval_pure_ok, and_assoc, exists_and_left,
      exists_eq_left] at ok
    obtain ⟨_, ν, processed, -, _, -, -, rfl⟩ := ok
    exact ⟨⟨price, product⟩, ν, known, ofProduct,
      processLongBuy_turn idle direction isInstrument isProduct processed, rfl⟩
  · rename_i notBuy
    split at ok
    · rename_i direction
      simp only [eval_bind_ok, eval_saveChanges_ok, eval_pure_ok, and_assoc, exists_and_left,
        exists_eq_left] at ok
      obtain ⟨_, ν, processed, -, _, -, -, rfl⟩ := ok
      exact ⟨⟨price, product⟩, ν, known, ofProduct,
        processLongSell_turn idle direction isInstrument isProduct processed, rfl⟩
    · rename_i notSell
      simp only [eval_bind_ok, eval_saveChanges_ok, eval_pure_ok, and_assoc, exists_and_left,
        exists_eq_left] at ok
      obtain ⟨_, ν, processed, -, _, -, -, rfl⟩ := ok
      refine ⟨⟨price, product⟩, ν, known, ofProduct, turn_failed idle ?_ processed, rfl⟩
      have foreign : t.isLongBuy = false ∧ t.isLongSell = false :=
        ⟨Bool.eq_false_of_not_eq_true notBuy, Bool.eq_false_of_not_eq_true notSell⟩
      simp [Trade.verdict, foreign]

end EasyTrade.Broker
