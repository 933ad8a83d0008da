import Mathlib.Algebra.Order.Ring.Rat

/-!
# Entities of the broker service

The rows the broker works on, the values it builds them from and the exceptions
its services throw. Amounts are rationals. Timestamps are whole seconds since
the first day of year one, which is what a `datetimeoffset(0)` column keeps.
-/

namespace EasyTrade.Broker

/-- What a balance history row or a trade is about. -/
inductive ActionType where
  | sell | buy | deposit | withdraw | packageFee | transactionFee | collectFee | longSell | longBuy
deriving DecidableEq, Repr

namespace ActionType

/-- `actionType.ToString()`. -/
def name : ActionType → String
  | sell => "Sell"
  | buy => "Buy"
  | deposit => "Deposit"
  | withdraw => "Withdraw"
  | packageFee => "PackageFee"
  | transactionFee => "TransactionFee"
  | collectFee => "CollectFee"
  | longSell => "LongSell"
  | longBuy => "LongBuy"

/-- `actionType.ToString().ToLower()`. -/
def lower : ActionType → String
  | sell => "sell"
  | buy => "buy"
  | deposit => "deposit"
  | withdraw => "withdraw"
  | packageFee => "packagefee"
  | transactionFee => "transactionfee"
  | collectFee => "collectfee"
  | longSell => "longsell"
  | longBuy => "longbuy"

/-- The stored spelling is the name in lower case. -/
theorem lower_eq (t : ActionType) : t.lower = t.name.toLower := by
  cases t <;> decide +kernel

/-- Different actions are stored under different spellings. -/
theorem lower_injective : Function.Injective lower := by
  intro a b same
  cases a <;> cases b <;> first | rfl | exact absurd same (by decide)

end ActionType

/-- `a.Equals(b, StringComparison.OrdinalIgnoreCase)`, for a `b` of ASCII letters. -/
def equalsIgnoreCase (a b : String) : Bool :=
  decide (a.toList.map Char.toLower = b.toList.map Char.toLower)

/-- The account that collects the fees. -/
def ownerId : Int := 1

/-- The identifier the `db_not_responding` problem pattern gives a new trade. -/
def invalidTradeId : Int := -1

/-- The exceptions of the broker service. -/
inductive Exception where
  | accountNotFound (id : Int)
  | instrumentNotFound (id : Int)
  | negativeAmount (message : String)
  /-- The message ends in the amount that is missing. -/
  | notEnoughMoney (message : String) (missing : ℚ)
  | notEnoughAssets (message : String)
  /-- A failed save or commit, wrapped by the service. -/
  | db
  /-- `NullReferenceException`. -/
  | nullReference
  /-- `KeyNotFoundException`, of a dictionary. -/
  | keyNotFound
  /-- `ArgumentException`: a dictionary is built from two rows with one key. -/
  | duplicateKey
  /-- `ArgumentOutOfRangeException`, of `DateTimeOffset.AddHours`. -/
  | argumentOutOfRange
  /-- `InvalidOperationException`, of a switch without a case. -/
  | invalidOperation
  /-- The database, the connection or a called service did not carry out a command. -/
  | refused
deriving DecidableEq, Repr

/-- The message of a sale that is not covered. -/
def notEnoughAssetsMessage : String := "Not enough assets available!"

/-- The message of a negative amount. -/
def negativeAmountMessage : String := "Amount can't be lower that 0"

/-! ## Rows -/

/-- A row of the balance table; the key is the account. -/
structure Balance where
  accountId : Int
  value : ℚ
deriving DecidableEq, Repr

/-- A row of the balance history. Rows are listed in the order of their identity
column. -/
structure BalanceHistory where
  accountId : Int
  oldValue : ℚ
  valueChange : ℚ
  actionType : String
  actionDate : Int
deriving DecidableEq, Repr

/-- A row of the instrument table. -/
structure Instrument where
  id : Int
  productId : Int
  code : String
  name : String
  description : String
deriving DecidableEq, Repr

/-- A row of the product table; `ppt` is the fee of one transaction. -/
structure Product where
  id : Int
  name : String
  ppt : ℚ
  currency : String
deriving DecidableEq, Repr

/-- A candle of the price service. -/
structure Price where
  instrumentId : Int
  timestamp : Int
  «open» : ℚ
  high : ℚ
  low : ℚ
  close : ℚ
deriving DecidableEq, Repr

/-- A row of the holdings table. -/
structure OwnedInstrument where
  id : Int
  accountId : Int
  instrumentId : Int
  quantity : ℚ
  lastModificationDate : Int
deriving DecidableEq, Repr

/-- A row of the trade table. -/
structure Trade where
  id : Int
  accountId : Int
  instrumentId : Int
  direction : String
  quantity : ℚ
  entryPrice : ℚ
  timestampOpen : Int
  timestampClose : Option Int
  tradeClosed : Bool
  transactionHappened : Bool
  status : String
deriving DecidableEq, Repr

namespace Balance

/-- `Balance.Deposit`. -/
def deposit (b : Balance) (amount : ℚ) : Except Exception Balance :=
  if amount < 0 then .error (.negativeAmount negativeAmountMessage)
  else .ok { b with value := b.value + amount }

/-- `Balance.Withdraw`. -/
def withdraw (b : Balance) (amount : ℚ) : Except Exception Balance :=
  if amount < 0 then .error (.negativeAmount negativeAmountMessage)
  else if amount > b.value then
    .error (.notEnoughMoney "Not enought money to withdraw" (amount - b.value))
  else .ok { b with value := b.value - amount }

end Balance

/-- The history row of an action at the current time. -/
def BalanceHistory.new (accountId : Int) (oldValue valueChange : ℚ) (actionType : ActionType)
    (now : Int) : BalanceHistory := ⟨accountId, oldValue, valueChange, actionType.lower, now⟩

/-- A holding at the current time; the database gives it its identifier. -/
def OwnedInstrument.new (accountId instrumentId : Int) (quantity : ℚ) (now : Int) :
    OwnedInstrument := ⟨0, accountId, instrumentId, quantity, now⟩

/-- The last second of a `DateTimeOffset`. -/
def maxTimestamp : Int := 315537897599

/-- `DateTimeOffset.AddHours`. -/
def addHours (time hours : Int) : Except Exception Int :=
  if time + hours * 3600 > maxTimestamp then .error .argumentOutOfRange
  else .ok (time + hours * 3600)

namespace Trade

/-- `Trade.QuickTrade`: a trade that is executed as it is placed. -/
def quickTrade (accountId instrumentId : Int) (direction : ActionType) (price quantity : ℚ)
    (now : Int) : Trade :=
  ⟨0, accountId, instrumentId, direction.lower, quantity, price, now, some now, true, true,
    "Instant " ++ direction.name ++ " done."⟩

/-- `Trade.LongTrade`: a trade that waits for its price. -/
def longTrade (accountId instrumentId : Int) (direction : ActionType) (price quantity : ℚ)
    (duration now : Int) : Except Exception Trade :=
  (addHours now duration).map fun close =>
    ⟨0, accountId, instrumentId, direction.lower, quantity, price, now, some close, false, false,
      direction.name ++ " registered."⟩

/-- A long-running trade is open, and it closes some time. -/
theorem eq_of_longTrade {accountId instrumentId : Int} {direction : ActionType}
    {price quantity : ℚ} {duration now : Int} {t : Trade}
    (made : longTrade accountId instrumentId direction price quantity duration now = .ok t) :
    ∃ close, t = ⟨0, accountId, instrumentId, direction.lower, quantity, price, now, some close,
      false, false, direction.name ++ " registered."⟩ := by
  unfold longTrade at made
  cases closes : addHours now duration with
  | error e =>
    rw [closes] at made
    cases made
  | ok close =>
    rw [closes] at made
    cases made
    exact ⟨close, rfl⟩

end Trade

end EasyTrade.Broker
