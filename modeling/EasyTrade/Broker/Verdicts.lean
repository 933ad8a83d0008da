import EasyTrade.Broker.Position

/-!
# Verdicts on open trades

What one turn of the processing loop makes of an open trade depends on the candle of its
instrument, the fee of its product and the position of its account: the `verdict`. A
save that is `Turned` by it leaves the trade open, closes it without an effect or
settles it.
-/

namespace EasyTrade.Broker

open EasyTrade.Store EasyTrade.Ledger

variable {db : Database} {now : Int}

/-! ## Verdicts -/

/-- What the dictionaries of a pass hold for a trade. -/
structure Quote where
  price : Price
  product : Product

/-- The dictionaries asked for the instrument of a trade, its candle and its product. -/
def quote (instruments : List Instrument) (prices : List Price) (products : List Product)
    (t : Trade) : Option Quote := do
  let instrument ← lookup Instrument.id t.instrumentId instruments
  let price ← lookup Price.instrumentId instrument.id prices
  let product ← lookup Product.id instrument.productId products
  return ⟨price, product⟩

/-- What a turn makes of its trade. -/
inductive Verdict where
  /-- The limit is not met. -/
  | waiting
  | failed (status : String)
  | happened (type : ActionType)
deriving DecidableEq, Repr

namespace Verdict

/-- The row of the trade after the turn. -/
def row : Verdict → Trade → Trade
  | waiting, t => t
  | failed status, t => t.close status false
  | happened type, t => t.close type.finished true

/-- The rows of trades that the turn saves. -/
def rows : Verdict → Trade → List Trade
  | waiting, _ => []
  | failed status, t => [t.close status false]
  | happened type, t => [t.close type.finished true]

/-- The position after the turn. -/
def settle : Verdict → Trade → ℚ → Position Int Int ℚ → Position Int Int ℚ
  | waiting, _, _, p => p
  | failed _, _, _, p => p
  | happened type, t, fee, p => t.settleOn type fee p

@[simp] theorem id_row (v : Verdict) (t : Trade) : (v.row t).id = t.id := by
  cases v <;> rfl

theorem id_of_mem_rows {v : Verdict} {t r : Trade} (inRows : r ∈ v.rows t) : r.id = t.id := by
  cases v with
  | waiting => cases inRows
  | failed => rw [List.mem_singleton.mp inRows, Trade.close]
  | happened => rw [List.mem_singleton.mp inRows, Trade.close]

end Verdict

namespace Trade

/-- The trade waits to buy. -/
def isLongBuy (t : Trade) : Bool := equalsIgnoreCase t.direction ActionType.longBuy.name

/-- The trade waits to sell. -/
def isLongSell (t : Trade) : Bool := equalsIgnoreCase t.direction ActionType.longSell.name

/-- The limit of the trade is met. -/
def limitMet (t : Trade) (price : Price) : Bool :=
  if t.isLongBuy then decide (price.low ≤ t.entryPrice)
  else decide (t.entryPrice ≤ price.high)

/-- The balance of the account covers the cost and the fee of a purchase, the holding the
shares of a sale. -/
def covered (t : Trade) (fee : ℚ) (p : Position Int Int ℚ) : Bool :=
  if t.isLongBuy then
    (p.balance t.accountId).any fun balance => decide (t.quantity * t.entryPrice + fee ≤ balance)
  else (p.holding t.accountId t.instrumentId).any fun quantity => decide (t.quantity ≤ quantity)

/-- The action of the trade. -/
def longType (t : Trade) : ActionType := if t.isLongBuy then .longBuy else .longSell

/-- What its status says when the trade is not covered. -/
def uncoveredStatus (t : Trade) : String :=
  if t.isLongBuy then "Not enough money to buy stocks! Trade failed!"
  else "Not enough stocks to sell! Trade failed!"

/-- What a turn makes of the trade. There is no verdict where a balance is missing that
the turn reads: that of a buyer whose limit is met, that of a seller who is covered, and
that of the owner when the trade is settled. -/
def verdict (t : Trade) (q : Quote) (p : Position Int Int ℚ) : Option Verdict :=
  if !t.isLongBuy && !t.isLongSell then
    some (.failed "This is not a long running transcation! Trade failed!")
  else if !t.limitMet q.price then some .waiting
  else if t.isLongBuy && (p.balance t.accountId).isNone then none
  else if !t.covered q.product.ppt p then some (.failed t.uncoveredStatus)
  else if (p.balance t.accountId).isNone || (p.balance ownerId).isNone then none
  else some (.happened t.longType)

/-- A verdict of failure is one of those the broker knows. -/
theorem mem_failures {t : Trade} {q : Quote} {p : Position Int Int ℚ} {status : String}
    (verdict : t.verdict q p = some (.failed status)) : status ∈ failures := by
  unfold Trade.verdict at verdict
  split_ifs at verdict <;>
    simp only [Option.some.injEq, Verdict.failed.injEq, reduceCtorEq] at verdict
  · rw [← verdict]
    decide
  · rw [← verdict]
    unfold uncoveredStatus
    split <;> decide

/-- What happens is a long purchase or a long sale. -/
theorem isLong_of_happened {t : Trade} {q : Quote} {p : Position Int Int ℚ} {type : ActionType}
    (verdict : t.verdict q p = some (.happened type)) : type = .longBuy ∨ type = .longSell := by
  unfold Trade.verdict at verdict
  split_ifs at verdict <;>
    simp only [Option.some.injEq, Verdict.happened.injEq, reduceCtorEq] at verdict
  rw [← verdict]
  unfold longType
  split
  · exact .inl rfl
  · exact .inr rfl

end Trade

/-- What the save of a turn does. -/
inductive Turned (db : Database) (now : Int) (t : Trade) (q : Quote) : Verdict → Batch → Prop
  /-- The trade is left as it is or closed, and nothing else is done. -/
  | unsettled {v : Verdict} (verdict : t.verdict q db.position = some v)
      (without : ∀ type, v ≠ .happened type) : Turned db now t q v { updatedTrades := v.rows t }
  /-- The trade is closed and settled. -/
  | settled {type : ActionType} {b : Batch}
      (verdict : t.verdict q db.position = some (.happened type))
      (inserted : b.insertedTrades = []) (updated : b.updatedTrades = [t.close type.finished true])
      (settles : Settles db now t type b) : Turned db now t q (.happened type) b

namespace Turned

variable {t : Trade} {q : Quote} {v : Verdict} {b : Batch}

/-- The verdict of a turn is the one its position gives. -/
theorem verdict_eq (turned : Turned db now t q v b) : t.verdict q db.position = some v := by
  cases turned with
  | unsettled verdict => exact verdict
  | settled verdict => exact verdict

/-- A turn saves the row of its trade and no new trade. -/
theorem trades (turned : Turned db now t q v b) :
    b.insertedTrades = [] ∧ b.updatedTrades = v.rows t := by
  cases turned with
  | unsettled => exact ⟨rfl, rfl⟩
  | settled _ inserted updated => exact ⟨inserted, updated⟩

/-- The position after the save of a turn. -/
theorem position (turned : Turned db now t q v b)
    (isProduct : db.productOf t.instrumentId = some q.product)
    (unique : (db.owned.map OwnedInstrument.id).Nodup) (tradeSeed ownedSeed : Int) :
    (db.apply (b.number tradeSeed ownedSeed)).position =
      v.settle t q.product.ppt db.position := by
  cases turned with
  | unsettled verdict without =>
    rw [position_apply_of_none rfl rfl rfl]
    cases v with
    | waiting => rfl
    | failed => rfl
    | happened type => exact absurd rfl (without type)
  | settled verdict inserted updated settles =>
    exact settles.position isProduct unique tradeSeed ownedSeed

end Turned

end EasyTrade.Broker
