import EasyTrade.Ledger.Chain
import Mathlib.Algebra.Order.Floor.Ring
import Mathlib.Algebra.Order.Field.Basic
import Mathlib.Data.Rat.Floor

/-!
# The history of a generated account

`action_generator.py` of the user generator and what it calls. Amounts are of an arbitrary ordered
field; times are in microseconds. Random numbers come from a sequence that is used up.
-/

namespace EasyTrade.UserGenerator

/-! ## Entities -/

/-- `ActionType`. -/
inductive ActionType where
  | withdraw | deposit | buy | sell | transactionFee
  deriving DecidableEq, Repr

/-- `InstrumentCode`. -/
inductive InstrumentCode where
  | easyTravel | easyPlanes | easyHotels | janGrp | corfig | cmrtin | chamat | blstcr | cafgal
  | decgrp | petban | batbat | stollc | lebrga | moroba
  deriving DecidableEq, Repr

/-- The codes in order. -/
def InstrumentCode.values : List InstrumentCode :=
  [easyTravel, easyPlanes, easyHotels, janGrp, corfig, cmrtin, chamat, blstcr, cafgal, decgrp,
    petban, batbat, stollc, lebrga, moroba]

/-- `STARTING_INDEX`. -/
def startingIndex : Int := 1

/-- The identifier that the instrument factory gives. -/
def InstrumentCode.id (code : InstrumentCode) : Int := startingIndex + values.idxOf code

theorem InstrumentCode.id_inj {code other : InstrumentCode} : code.id = other.id ↔ code = other := by
  cases code <;> cases other <;> decide

/-- `BalanceEntry`. -/
structure BalanceEntry (K : Type) where
  id : Int
  accountId : Int
  oldValue : K
  valueChange : K
  actionType : ActionType
  actionDate : Int

/-- `BalanceHistory`. -/
structure BalanceHistory (K : Type) where
  entryId : Int
  entries : List (BalanceEntry K)

/-- `TradeEntry`. -/
structure TradeEntry (K : Type) where
  id : Int
  accountId : Int
  instrumentId : Int
  actionType : ActionType
  quantity : Int
  price : K
  timestampOpen : Int
  timestampClose : Int
  tradeEnded : Bool
  tradeSuccessful : Bool
  status : String

/-- `TradeHistory`. -/
structure TradeHistory (K : Type) where
  entryId : Int
  entries : List (TradeEntry K)

/-- `OwnedInstrument`. -/
structure OwnedInstrument where
  id : Int
  accountId : Int
  instrumentId : Int
  quantity : Int
  lastModification : Int

/-- `Account`, without the data of its user. -/
structure Account (K : Type) where
  id : Int
  balance : K
  ownedInstruments : InstrumentCode → OwnedInstrument

/-- What the generator works on: an account, the histories of all accounts, and the random numbers
to come. -/
structure World (K : Type) where
  account : Account K
  balanceHistory : BalanceHistory K
  tradeHistory : TradeHistory K
  draws : ℕ → K

variable {K : Type}

namespace World

/-- `random`. -/
def random (w : World K) : K × World K := (w.draws 0, { w with draws := fun n => w.draws (n + 1) })

/-- `BalanceHistory.new_entry`. -/
def newBalanceEntry (w : World K) (oldValue valueChange : K) (actionType : ActionType)
    (actionDate : Int) : World K :=
  { w with balanceHistory :=
    { entryId := w.balanceHistory.entryId + 1
      entries := w.balanceHistory.entries ++
        [⟨w.balanceHistory.entryId, w.account.id, oldValue, valueChange, actionType, actionDate⟩] } }

/-- `TradeHistory.new_entry`. -/
def newTradeEntry (w : World K) (instrumentId : Int) (actionType : ActionType) (quantity : Int)
    (price : K) (timestampOpen timestampClose : Int) (tradeEnded tradeSuccessful : Bool)
    (status : String) : World K :=
  { w with tradeHistory :=
    { entryId := w.tradeHistory.entryId + 1
      entries := w.tradeHistory.entries ++
        [⟨w.tradeHistory.entryId, w.account.id, instrumentId, actionType, quantity, price,
          timestampOpen, timestampClose, tradeEnded, tradeSuccessful, status⟩] } }

/-- `self.value = ...` of the balance. -/
def setBalance (w : World K) (value : K) : World K :=
  { w with account := { w.account with balance := value } }

/-- `modify_instrument`. -/
def modifyInstrument (w : World K) (code : InstrumentCode) (quantity timestamp : Int) : World K :=
  let instrument := w.account.ownedInstruments code
  let instrument := { instrument with
    quantity := instrument.quantity + quantity, lastModification := timestamp }
  { w with account := { w.account with
    ownedInstruments := Function.update w.account.ownedInstruments code instrument } }

/-! ## Balances and accounts -/

variable [Field K] [LinearOrder K]

/-- `remove_funds`; `MIN_WITHDRAW_VALUE` is 0. -/
def removeFunds (w : World K) (action : ActionType) (amount : K) (timestamp : Int) :
    Bool × World K :=
  if amount ≤ 0 then (false, w)
  else if amount > w.account.balance then (false, w)
  else
    (true, (w.newBalanceEntry w.account.balance (-amount) action timestamp).setBalance
      (w.account.balance - amount))

/-- `add_funds`; `MIN_DEPOSIT_VALUE` is 0. -/
def addFunds (w : World K) (action : ActionType) (amount : K) (timestamp : Int) :
    Bool × World K :=
  if amount < 0 then (false, w)
  else
    (true, (w.newBalanceEntry w.account.balance amount action timestamp).setBalance
      (w.account.balance + amount))

/-- `Balance.action`. -/
def action (w : World K) : ActionType → K → Int → Bool × World K
  | .withdraw => w.removeFunds .withdraw
  | .deposit => w.addFunds .deposit
  | .buy => w.removeFunds .buy
  | .sell => w.addFunds .sell
  | .transactionFee => w.removeFunds .transactionFee

/-- `deposit_funds`. -/
def depositFunds (w : World K) (amount : K) (timestamp : Int) : World K :=
  (w.action .deposit amount timestamp).2

/-- `withdraw_funds`. -/
def withdrawFunds (w : World K) (amount : K) (timestamp : Int) : World K :=
  (w.action .withdraw amount timestamp).2

/-- `buy_instrument`. -/
def buyInstrument (w : World K) (code : InstrumentCode) (quantity : Int) (price : K)
    (timestamp : Int) : Bool × World K :=
  if ¬w.account.balance ≥ price then (false, w)
  else
    -- whether the funds were removed is not looked at
    let w := (w.removeFunds .buy price timestamp).2
    (true, w.modifyInstrument code quantity timestamp)

/-- `sell_instrument`. -/
def sellInstrument (w : World K) (code : InstrumentCode) (quantity : Int) (price : K)
    (timestamp : Int) : Bool × World K :=
  if ¬(w.account.ownedInstruments code).quantity ≥ quantity then (false, w)
  else
    let w := w.modifyInstrument code (-quantity) timestamp
    (true, (w.addFunds .sell price timestamp).2)

/-- `get_instruments_by_quantity()[0]`; sorting is stable. -/
def leastOwned (w : World K) : InstrumentCode :=
  (InstrumentCode.values.mergeSort fun code other =>
    (w.account.ownedInstruments code).quantity ≤ (w.account.ownedInstruments other).quantity).head
      (by simp [← List.length_pos_iff, InstrumentCode.values])

/-! ## Trades -/

/-- What `trade` is called for. -/
inductive Side where
  | buy | sell
  deriving DecidableEq

/-- The action type. -/
def Side.actionType : Side → ActionType
  | .buy => .buy
  | .sell => .sell

/-- `TradeManager.trade`, with `timedelta()` as the duration. -/
def trade (w : World K) (getValue : InstrumentCode → Int → K) (side : Side)
    (code : InstrumentCode) (quantity timestamp : Int) : World K :=
  let unitPrice := getValue code timestamp
  let price := quantity * unitPrice
  let (random, w) := w.random
  let tradeSuccess := decide (random ≤ 0.9)
  let status := if tradeSuccess then "Transaction completed successfully"
    else "Transaction did not succeed"
  let entry (w : World K) := w.newTradeEntry code.id side.actionType quantity unitPrice timestamp
    (timestamp + 0) true tradeSuccess status
  if tradeSuccess then
    let (result, w) := match side with
      | .buy => w.buyInstrument code quantity price timestamp
      | .sell => w.sellInstrument code quantity price timestamp
    if result then entry w else w
  else entry w

end World

/-! ## The policy -/

/-- `random_between`, of a random number. -/
def randomBetween [Field K] (start stop random : K) : K := (stop - start) * random + start

variable [Field K] [LinearOrder K] [FloorRing K]

namespace World

/-- `low_insturment_quantity_action`. -/
def lowInstrumentQuantityAction (w : World K) (getValue : InstrumentCode → Int → K)
    (code : InstrumentCode) (timestamp : Int) : World K :=
  let (random, w) := w.random
  let buyCredit := w.account.balance * randomBetween 0.3 0.7 random
  let buyQuantity := ⌊buyCredit / getValue code timestamp⌋
  w.trade getValue .buy code buyQuantity timestamp

/-- `high_instrument_quantity_action`. -/
def highInstrumentQuantityAction (w : World K) (getValue : InstrumentCode → Int → K)
    (code : InstrumentCode) (ownedQuantity timestamp : Int) : World K :=
  let (random, w) := w.random
  let sellQuantity := ⌊ownedQuantity * randomBetween 0.3 0.6 random⌋
  w.trade getValue .sell code sellQuantity timestamp

/-- `generate_action`. -/
def generateAction (getValue : InstrumentCode → Int → K) (balanceReference : K) (w : World K)
    (timestamp : Int) : World K :=
  if w.account.balance < 0.3 * balanceReference then
    w.depositFunds (balanceReference - w.account.balance) timestamp
  else if w.account.balance > (2 : ℕ) * balanceReference then
    w.withdrawFunds (0.5 * w.account.balance) timestamp
  else
    let instrumentCode := w.leastOwned
    let ownedInstrument := w.account.ownedInstruments instrumentCode
    if ownedInstrument.quantity < 500 then
      w.lowInstrumentQuantityAction getValue instrumentCode timestamp
    else if ownedInstrument.quantity > 500 then
      w.highInstrumentQuantityAction getValue instrumentCode ownedInstrument.quantity timestamp
    else w

/-- The loop of `make_history`. -/
def makeHistory (getValue : InstrumentCode → Int → K) (balanceReference : K) (w : World K)
    (timestamps : List Int) : World K :=
  timestamps.foldl (generateAction getValue balanceReference) w

end World

end EasyTrade.UserGenerator
