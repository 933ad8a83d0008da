import EasyTrade.UserGenerator.Actions
import Mathlib.Tactic.Linarith
import Mathlib.Tactic.Positivity

/-!
# The generated history is consistent

Buying and selling do not look at what became of the funds. The policy trades only with a balance
between three tenths and twice the reference, so a purchase is of at least one piece, for at most
seven tenths of the balance, and a sale is of at least one piece of those that are there.
-/

namespace EasyTrade.UserGenerator

open EasyTrade.Ledger

variable {K : Type}

/-! ## What a history says -/

/-- A balance entry as a row of a ledger. -/
def BalanceEntry.row (entry : BalanceEntry K) : Row K := ⟨entry.oldValue, entry.valueChange⟩

/-- The pieces that a trade adds to a holding. -/
def TradeEntry.pieces (trade : TradeEntry K) : Int :=
  if trade.actionType = .buy then trade.quantity else -trade.quantity

/-- A balance entry pays for a trade, or is its return. -/
structure Matches [Field K] (trade : TradeEntry K) (entry : BalanceEntry K) : Prop where
  actionType : entry.actionType = trade.actionType
  valueChange :
    trade.actionType = .buy ∧ entry.valueChange = -(trade.quantity * trade.price) ∨
    trade.actionType = .sell ∧ entry.valueChange = trade.quantity * trade.price

namespace World

/-- The balance entries of the account. -/
def balanceEntries (w : World K) : List (BalanceEntry K) :=
  w.balanceHistory.entries.filter fun entry => entry.accountId = w.account.id

/-- Those that a trade has made. -/
def tradeBalanceEntries (w : World K) : List (BalanceEntry K) :=
  w.balanceEntries.filter fun entry => entry.actionType = .buy ∨ entry.actionType = .sell

/-- The successful trades of the account. -/
def successfulTrades (w : World K) : List (TradeEntry K) :=
  w.tradeHistory.entries.filter fun entry =>
    entry.accountId = w.account.id ∧ entry.tradeSuccessful = true

theorem successfulTrades_newTradeEntry (w : World K) (instrumentId : Int) (action : ActionType)
    (quantity : Int) (price : K) (opened closed : Int) (ended success : Bool) (status : String) :
    (w.newTradeEntry instrumentId action quantity price opened closed ended success
        status).successfulTrades =
      w.successfulTrades ++ if success then [⟨w.tradeHistory.entryId, w.account.id, instrumentId,
        action, quantity, price, opened, closed, ended, success, status⟩] else [] := by
  have own : [(⟨w.tradeHistory.entryId, w.account.id, instrumentId, action, quantity, price, opened,
        closed, ended, success, status⟩ : TradeEntry K)].filter (fun entry =>
          entry.accountId = w.account.id ∧ entry.tradeSuccessful = true) =
      if success then [⟨w.tradeHistory.entryId, w.account.id, instrumentId,
        action, quantity, price, opened, closed, ended, success, status⟩] else [] := by
    cases success <;> simp
  rw [← own]
  exact List.filter_append ..

/-- The holdings after a change of one of them. -/
theorem quantity_modifyInstrument (w : World K) (code other : InstrumentCode)
    (quantity timestamp : Int) :
    ((w.modifyInstrument code quantity timestamp).account.ownedInstruments other).quantity =
      (w.account.ownedInstruments other).quantity + if code.id = other.id then quantity else 0 := by
  rw [modifyInstrument]
  by_cases same : other = code
  · subst same
    simp
  · have apart : ¬code.id = other.id := fun eq => same (InstrumentCode.id_inj.mp eq).symm
    simp [Function.update_of_ne same, apart]

variable [Field K]

/-- The funds change, and an entry says so. -/
def moved (w : World K) (action : ActionType) (change : K) (timestamp : Int) : World K :=
  (w.newBalanceEntry w.account.balance change action timestamp).setBalance
    (w.account.balance + change)

/-- The entry of a change of the funds. -/
def entry (w : World K) (action : ActionType) (change : K) (timestamp : Int) : BalanceEntry K :=
  ⟨w.balanceHistory.entryId, w.account.id, w.account.balance, change, action, timestamp⟩

theorem balanceEntries_moved (w : World K) (action : ActionType) (change : K) (timestamp : Int) :
    (w.moved action change timestamp).balanceEntries =
      w.balanceEntries ++ [w.entry action change timestamp] := by
  have own : [w.entry action change timestamp].filter
      (fun entry => entry.accountId = w.account.id) = [w.entry action change timestamp] := by
    simp [entry]
  rw [← own]
  exact List.filter_append ..

variable [LinearOrder K]

/-- Nothing is negative, the balance entries lead to the balance, every successful trade has its
balance entry, and the holdings are what the successful trades have left. -/
structure Consistent (w : World K) : Prop where
  balance_nonneg : 0 ≤ w.account.balance
  quantity_nonneg : ∀ code, 0 ≤ (w.account.ownedInstruments code).quantity
  chain : Chain 0 (w.balanceEntries.map BalanceEntry.row) w.account.balance
  matched : List.Forall₂ Matches w.successfulTrades w.tradeBalanceEntries
  held : ∀ code, (w.account.ownedInstruments code).quantity =
    ((w.successfulTrades.filter fun trade => trade.instrumentId = code.id).map
      TradeEntry.pieces).sum

/-! ## Single changes -/

theorem removeFunds_of_le (w : World K) {amount : K} (positive : 0 < amount)
    (enough : amount ≤ w.account.balance) (action : ActionType) (timestamp : Int) :
    w.removeFunds action amount timestamp = (true, w.moved action (-amount) timestamp) := by
  rw [removeFunds, if_neg (not_le.mpr positive), if_neg (not_lt.mpr enough), moved,
    sub_eq_add_neg]

theorem addFunds_of_nonneg (w : World K) {amount : K} (nonneg : 0 ≤ amount) (action : ActionType)
    (timestamp : Int) :
    w.addFunds action amount timestamp = (true, w.moved action amount timestamp) := by
  rw [addFunds, if_neg (not_lt.mpr nonneg), moved]

variable {w w' : World K}

/-- The chain of entries goes on to the balance after a change. -/
theorem Consistent.chain_moved (consistent : w.Consistent) (action : ActionType) (change : K)
    (timestamp : Int) :
    Chain 0 ((w.moved action change timestamp).balanceEntries.map BalanceEntry.row)
      (w.moved action change timestamp).account.balance := by
  rw [balanceEntries_moved, List.map_append, chain_append]
  exact ⟨_, consistent.chain, rfl, rfl⟩

/-- A deposit or a withdrawal. -/
theorem Consistent.moved (consistent : w.Consistent) {action : ActionType}
    (other : action ≠ .buy ∧ action ≠ .sell) {change : K}
    (enough : 0 ≤ w.account.balance + change) (timestamp : Int) :
    (w.moved action change timestamp).Consistent where
  balance_nonneg := enough
  quantity_nonneg := consistent.quantity_nonneg
  chain := consistent.chain_moved action change timestamp
  matched := by
    have same : (w.moved action change timestamp).tradeBalanceEntries = w.tradeBalanceEntries := by
      rw [tradeBalanceEntries, balanceEntries_moved, List.filter_append, tradeBalanceEntries]
      simp [entry, other]
    rw [same]
    exact consistent.matched
  held := consistent.held

/-- A trade that has happened: its entry, the entry of the funds, and the holding. -/
theorem Consistent.traded (consistent : w.Consistent) {trade : TradeEntry K}
    {entry : BalanceEntry K} (trades : w'.successfulTrades = w.successfulTrades ++ [trade])
    (entries : w'.balanceEntries = w.balanceEntries ++ [entry]) (matched : Matches trade entry)
    (old : entry.oldValue = w.account.balance)
    (balance : w'.account.balance = w.account.balance + entry.valueChange)
    (held : ∀ code, (w'.account.ownedInstruments code).quantity =
      (w.account.ownedInstruments code).quantity +
        if trade.instrumentId = code.id then trade.pieces else 0)
    (enough : 0 ≤ w.account.balance + entry.valueChange)
    (stock : ∀ code, trade.instrumentId = code.id →
      0 ≤ (w.account.ownedInstruments code).quantity + trade.pieces) : w'.Consistent where
  balance_nonneg := balance ▸ enough
  quantity_nonneg code := by
    rw [held]
    split_ifs with same
    · exact stock code same
    · rw [add_zero]
      exact consistent.quantity_nonneg code
  chain := by
    rw [entries, List.map_append, chain_append, balance]
    exact ⟨_, consistent.chain, old, by rw [← old]; rfl⟩
  matched := by
    have paid : entry.actionType = .buy ∨ entry.actionType = .sell := by
      rw [matched.actionType]
      exact matched.valueChange.imp And.left And.left
    have more : w'.tradeBalanceEntries = w.tradeBalanceEntries ++ [entry] := by
      rw [tradeBalanceEntries, entries, List.filter_append, tradeBalanceEntries]
      simp [paid]
    rw [trades, more]
    exact List.rel_append consistent.matched (List.Forall₂.cons matched .nil)
  held code := by
    rw [held, trades, List.filter_append, List.map_append, List.sum_append, ← consistent.held]
    split_ifs with same <;> simp [same]

/-- A trade that has not happened leaves an entry of its own only. -/
theorem Consistent.failed (consistent : w.Consistent) (instrumentId : Int) (action : ActionType)
    (quantity : Int) (price : K) (opened closed : Int) (ended : Bool) (status : String) :
    (w.newTradeEntry instrumentId action quantity price opened closed ended false
      status).Consistent := by
  have trades := successfulTrades_newTradeEntry w instrumentId action quantity price opened closed
    ended false status
  rw [if_neg Bool.false_ne_true, List.append_nil] at trades
  exact
    { balance_nonneg := consistent.balance_nonneg
      quantity_nonneg := consistent.quantity_nonneg
      chain := consistent.chain
      matched := by
        rw [trades]
        exact consistent.matched
      held := fun code => by
        rw [trades]
        exact consistent.held code }

/-! ## Trades -/

/-- A random number that is taken changes nothing else. -/
theorem Consistent.random (consistent : w.Consistent) : w.random.2.Consistent where
  balance_nonneg := consistent.balance_nonneg
  quantity_nonneg := consistent.quantity_nonneg
  chain := consistent.chain
  matched := consistent.matched
  held := consistent.held

/-- The entry of a trade at the current price. -/
def newEntry (w : World K) (getValue : InstrumentCode → Int → K) (side : Side)
    (code : InstrumentCode) (quantity timestamp : Int) (success : Bool) (status : String) :
    World K :=
  w.newTradeEntry code.id side.actionType quantity (getValue code timestamp) timestamp
    (timestamp + 0) true success status

theorem trade_of_failure (w : World K) (getValue : InstrumentCode → Int → K) (side : Side)
    (code : InstrumentCode) (quantity timestamp : Int) (failure : ¬w.draws 0 ≤ 0.9) :
    w.trade getValue side code quantity timestamp =
      w.random.2.newEntry getValue side code quantity timestamp false
        "Transaction did not succeed" := by
  simp [trade, World.random, failure, newEntry]

theorem trade_buy_of_success {w w' : World K} (getValue : InstrumentCode → Int → K)
    (code : InstrumentCode) (quantity timestamp : Int) (success : w.draws 0 ≤ 0.9)
    (bought : w.random.2.buyInstrument code quantity (quantity * getValue code timestamp)
      timestamp = (true, w')) :
    w.trade getValue .buy code quantity timestamp =
      w'.newEntry getValue .buy code quantity timestamp true
        "Transaction completed successfully" := by
  rw [World.random] at bought
  simp only [trade, World.random, success, decide_true, if_true, bought, newEntry]

theorem trade_sell_of_success {w w' : World K} (getValue : InstrumentCode → Int → K)
    (code : InstrumentCode) (quantity timestamp : Int) (success : w.draws 0 ≤ 0.9)
    (sold : w.random.2.sellInstrument code quantity (quantity * getValue code timestamp)
      timestamp = (true, w')) :
    w.trade getValue .sell code quantity timestamp =
      w'.newEntry getValue .sell code quantity timestamp true
        "Transaction completed successfully" := by
  rw [World.random] at sold
  simp only [trade, World.random, success, decide_true, if_true, sold, newEntry]

variable [IsStrictOrderedRing K] {getValue : InstrumentCode → Int → K} {code : InstrumentCode}
  {quantity timestamp : Int}

/-- A purchase that can be paid. -/
theorem Consistent.trade_buy (consistent : w.Consistent) (some_ : 0 < quantity)
    (positive : 0 < getValue code timestamp)
    (enough : quantity * getValue code timestamp ≤ w.account.balance) :
    (w.trade getValue .buy code quantity timestamp).Consistent := by
  by_cases success : w.draws 0 ≤ 0.9
  · have price : 0 < quantity * getValue code timestamp :=
      mul_pos (Int.cast_pos.mpr some_) positive
    have bought : w.random.2.buyInstrument code quantity (quantity * getValue code timestamp)
        timestamp = (true, (w.random.2.moved .buy (-(quantity * getValue code timestamp))
          timestamp).modifyInstrument code quantity timestamp) := by
      have affordable : ¬¬w.random.2.account.balance ≥ quantity * getValue code timestamp :=
        not_not.mpr enough
      rw [buyInstrument, if_neg affordable, removeFunds_of_le w.random.2 price enough]
    rw [trade_buy_of_success getValue code quantity timestamp success bought]
    refine consistent.traded (successfulTrades_newTradeEntry ..)
      (balanceEntries_moved w.random.2 .buy (-(quantity * getValue code timestamp)) timestamp)
      ⟨rfl, Or.inl ⟨rfl, rfl⟩⟩ rfl rfl
      (fun other => quantity_modifyInstrument _ code other quantity timestamp) ?_ ?_
    · change 0 ≤ w.account.balance + -(quantity * getValue code timestamp)
      linarith
    · intro other _
      exact Int.add_nonneg (consistent.quantity_nonneg other) some_.le
  · rw [trade_of_failure w getValue .buy code quantity timestamp success]
    exact consistent.random.failed ..

/-- A sale of what is there. -/
theorem Consistent.trade_sell (consistent : w.Consistent) (some_ : 0 < quantity)
    (positive : 0 < getValue code timestamp)
    (enough : quantity ≤ (w.account.ownedInstruments code).quantity) :
    (w.trade getValue .sell code quantity timestamp).Consistent := by
  by_cases success : w.draws 0 ≤ 0.9
  · have price : 0 ≤ quantity * getValue code timestamp :=
      (mul_pos (Int.cast_pos.mpr some_) positive).le
    have sold : w.random.2.sellInstrument code quantity (quantity * getValue code timestamp)
        timestamp = (true, (w.random.2.modifyInstrument code (-quantity) timestamp).moved .sell
          (quantity * getValue code timestamp) timestamp) := by
      have there : ¬¬(w.random.2.account.ownedInstruments code).quantity ≥ quantity :=
        not_not.mpr enough
      rw [sellInstrument, if_neg there]
      dsimp only
      rw [addFunds_of_nonneg _ price]
    rw [trade_sell_of_success getValue code quantity timestamp success sold]
    refine consistent.traded (successfulTrades_newTradeEntry ..)
      (balanceEntries_moved (w.random.2.modifyInstrument code (-quantity) timestamp) .sell
        (quantity * getValue code timestamp) timestamp)
      ⟨rfl, Or.inr ⟨rfl, rfl⟩⟩ rfl rfl
      (fun other => quantity_modifyInstrument _ code other (-quantity) timestamp) ?_ ?_
    · exact add_nonneg consistent.balance_nonneg price
    · intro other same
      obtain rfl := InstrumentCode.id_inj.mp same
      change 0 ≤ (w.account.ownedInstruments code).quantity + -quantity
      omega
  · rw [trade_of_failure w getValue .sell code quantity timestamp success]
    exact consistent.random.failed ..

/-! ## Actions -/

variable [FloorRing K] {balanceReference : K}

/-- A part of something, rounded down, is some of it. -/
theorem floor_mem {amount ratio price : K} (positive : 0 < price) (part : ratio ≤ 1)
    (nonneg : 0 ≤ amount) (enough : price ≤ amount * ratio) :
    0 < ⌊amount * ratio / price⌋ ∧ ⌊amount * ratio / price⌋ * price ≤ amount := by
  have below : (⌊amount * ratio / price⌋ : K) * price ≤ amount * ratio := by
    rw [← le_div_iff₀ positive]
    exact Int.floor_le _
  constructor
  · rw [Int.floor_pos, le_div_iff₀ positive, one_mul]
    exact enough
  · exact below.trans (mul_le_of_le_one_right nonneg part)

omit [FloorRing K] in
/-- A ratio is between its bounds. -/
theorem ratio_mem (start stop : K) (ordered : start ≤ stop) {random : K}
    (unit : 0 ≤ random ∧ random < 1) :
    start ≤ randomBetween start stop random ∧ randomBetween start stop random ≤ stop := by
  rw [randomBetween]
  constructor
  · linarith [mul_nonneg (sub_nonneg.mpr ordered) unit.1]
  · linarith [mul_le_of_le_one_right (sub_nonneg.mpr ordered) unit.2.le]

/-- One action keeps the history consistent. -/
theorem Consistent.generateAction (consistent : w.Consistent)
    (prices : ∀ code timestamp, 0 < getValue code timestamp ∧ getValue code timestamp ≤ 900)
    (reference : 10000 ≤ balanceReference) (unit : ∀ n, 0 ≤ w.draws n ∧ w.draws n < 1)
    (timestamp : Int) : (generateAction getValue balanceReference w timestamp).Consistent := by
  rw [World.generateAction]
  dsimp only
  split_ifs with low high few many
  · -- A deposit up to the reference.
    have amount : 0 ≤ balanceReference - w.account.balance := by
      norm_num at low
      linarith
    rw [depositFunds, action, addFunds_of_nonneg w amount]
    exact consistent.moved (by decide) (add_nonneg consistent.balance_nonneg amount) timestamp
  · -- A withdrawal of the half.
    have balance := consistent.balance_nonneg
    have amount : 0 < 0.5 * w.account.balance := by
      norm_num
      linarith
    have enough : 0.5 * w.account.balance ≤ w.account.balance := by
      norm_num
      linarith
    rw [withdrawFunds, action, removeFunds_of_le w amount enough]
    exact consistent.moved (by decide) (by linarith) timestamp
  · -- A purchase.
    obtain ⟨positive, dear⟩ := prices w.leastOwned timestamp
    obtain ⟨least, most⟩ := ratio_mem 0.3 0.7 (by norm_num) (unit 0)
    have balance : 3000 ≤ w.account.balance := by
      norm_num at low
      linarith
    have credit : (900 : K) ≤ w.account.balance * randomBetween 0.3 0.7 (w.draws 0) := by
      calc (900 : K) = 3000 * 0.3 := by norm_num
        _ ≤ _ := mul_le_mul balance least (by norm_num) consistent.balance_nonneg
    obtain ⟨some_, enough⟩ := floor_mem positive (most.trans (by norm_num))
      consistent.balance_nonneg (dear.trans credit)
    exact consistent.random.trade_buy some_ positive enough
  · -- A sale.
    obtain ⟨positive, -⟩ := prices w.leastOwned timestamp
    obtain ⟨least, most⟩ := ratio_mem 0.3 0.6 (by norm_num) (unit 0)
    have stock : (500 : K) ≤ (w.account.ownedInstruments w.leastOwned).quantity := by
      exact_mod_cast many.le
    have part : (1 : K) ≤
        (w.account.ownedInstruments w.leastOwned).quantity * randomBetween 0.3 0.6 (w.draws 0) := by
      calc (1 : K) ≤ 500 * 0.3 := by norm_num
        _ ≤ _ := mul_le_mul stock least (by norm_num) (by linarith)
    obtain ⟨some_, enough⟩ := floor_mem one_pos (most.trans (by norm_num))
      (le_trans (by norm_num) stock) part
    rw [div_one, mul_one] at enough
    rw [div_one] at some_
    exact consistent.random.trade_sell some_ positive (Int.cast_le.mp enough)
  · exact consistent

omit [IsStrictOrderedRing K] [FloorRing K] in
theorem draws_removeFunds (w : World K) (action : ActionType) (amount : K) (timestamp : Int) :
    (w.removeFunds action amount timestamp).2.draws = w.draws := by
  rw [removeFunds]
  split_ifs <;> rfl

omit [IsStrictOrderedRing K] [FloorRing K] in
theorem draws_addFunds (w : World K) (action : ActionType) (amount : K) (timestamp : Int) :
    (w.addFunds action amount timestamp).2.draws = w.draws := by
  rw [addFunds]
  split_ifs <;> rfl

omit [IsStrictOrderedRing K] [FloorRing K] in
/-- A trade takes one random number. -/
theorem draws_trade (w : World K) (side : Side) (code : InstrumentCode) (quantity timestamp : Int) :
    (w.trade getValue side code quantity timestamp).draws = w.random.2.draws := by
  have buys : ∀ price : K, (w.random.2.buyInstrument code quantity price timestamp).2.draws =
      w.random.2.draws := fun price => by
    rw [buyInstrument]
    split_ifs
    · exact draws_removeFunds ..
    · rfl
  have sells : ∀ price : K, (w.random.2.sellInstrument code quantity price timestamp).2.draws =
      w.random.2.draws := fun price => by
    rw [sellInstrument]
    split_ifs
    · exact draws_addFunds ..
    · rfl
  by_cases success : w.draws 0 ≤ 0.9
  · rw [World.random] at buys sells ⊢
    cases side with
    | buy =>
      simp only [trade, World.random, success, decide_true, if_true]
      split_ifs
      · exact buys _
      · exact buys _
    | sell =>
      simp only [trade, World.random, success, decide_true, if_true]
      split_ifs
      · exact sells _
      · exact sells _
  · rw [trade_of_failure w getValue side code quantity timestamp success]
    rfl

omit [IsStrictOrderedRing K] in
/-- The draws to come are those after a few. -/
theorem draws_generateAction (getValue : InstrumentCode → Int → K) (balanceReference : K)
    (w : World K) (timestamp : Int) :
    ∃ used, (World.generateAction getValue balanceReference w timestamp).draws =
      fun n => w.draws (n + used) := by
  rw [World.generateAction]
  dsimp only
  split_ifs
  · exact ⟨0, draws_addFunds ..⟩
  · exact ⟨0, draws_removeFunds ..⟩
  · exact ⟨2, draws_trade ..⟩
  · exact ⟨2, draws_trade ..⟩
  · exact ⟨0, rfl⟩

/-- The generated history is consistent after every action. -/
theorem history_is_consistent {w : World K} {getValue : InstrumentCode → Int → K}
    {balanceReference : K}
    (prices : ∀ code timestamp, 0 < getValue code timestamp ∧ getValue code timestamp ≤ 900)
    (reference : 10000 ≤ balanceReference ∧ balanceReference ≤ 100000)
    (unit : ∀ n, 0 ≤ w.draws n ∧ w.draws n < 1) (noBalance : w.account.balance = 0)
    (noHoldings : ∀ code, (w.account.ownedInstruments code).quantity = 0)
    (noEntries : w.balanceEntries = []) (noTrades : w.successfulTrades = [])
    (timestamps : List Int) :
    ∀ n, (w.makeHistory getValue balanceReference (timestamps.take n)).Consistent := by
  have start : w.Consistent :=
    { balance_nonneg := noBalance.ge
      quantity_nonneg := fun code => (noHoldings code).ge
      chain := by
        rw [noEntries, noBalance]
        exact rfl
      matched := by
        rw [noTrades, tradeBalanceEntries, noEntries]
        exact .nil
      held := fun code => by
        rw [noHoldings, noTrades]
        rfl }
  have run : ∀ (timestamps : List Int) (w : World K), w.Consistent →
      (∀ n, 0 ≤ w.draws n ∧ w.draws n < 1) →
      (w.makeHistory getValue balanceReference timestamps).Consistent := by
    intro timestamps
    induction timestamps with
    | nil => exact fun w consistent _ => consistent
    | cons timestamp timestamps ih =>
      intro w consistent unit
      obtain ⟨used, draws⟩ := draws_generateAction getValue balanceReference w timestamp
      refine ih _ (consistent.generateAction prices reference.1 unit timestamp) fun n => ?_
      rw [draws]
      exact unit (n + used)
  exact fun n => run (timestamps.take n) w start unit

/-- A new account. -/
def fresh : World ℚ where
  account := ⟨6, 0, fun code => ⟨code.id, 6, code.id, 0, 0⟩⟩
  balanceHistory := ⟨1, []⟩
  tradeHistory := ⟨1, []⟩
  draws := fun _ => 1 / 2

theorem history_is_consistent_of_fresh :
    (fresh.makeHistory (fun _ _ => 900) 10000 [0]).account.balance = 10000 ∧
    ∀ n, (fresh.makeHistory (fun _ _ => 900) 10000 ([0, 60, 120].take n)).Consistent := by
  refine ⟨by decide +kernel, ?_⟩
  exact history_is_consistent (fun _ _ => by norm_num) (by norm_num)
    (fun _ => by norm_num [fresh]) rfl (fun _ => rfl) rfl rfl [0, 60, 120]

end World

end EasyTrade.UserGenerator
