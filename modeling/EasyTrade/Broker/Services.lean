import EasyTrade.Broker.Connection

/-!
# The services of the broker

The services as programs over the repositories, in the order of the source.
A `C#` object that a method changes is a value here, put back through the
repository that holds it; the tracked copy of the connection stands for the
object that a later query returns.
-/

namespace EasyTrade.Broker

open EasyTrade.Logic.Program

/-! ## Repositories -/

/-- `DateTimeOffset.Now`. -/
def now : Task Int := send .now

/-- `BalanceRepository.GetBalanceOfAccount`. -/
def getBalanceOfAccount (accountId : Int) : Task (Option Balance) :=
  send (.ask (.balanceOfAccount accountId))

/-- `BalanceRepository.UpdateBalance`. -/
def updateBalance (balance : Balance) : Task Unit := send (.write (.updateBalance balance))

/-- `BalanceRepository.AddBalanceHistory`. -/
def addBalanceHistory (history : BalanceHistory) : Task Unit :=
  send (.write (.addBalanceHistory history))

/-- `InstrumentRepository.GetAllInstruments`. -/
def getAllInstruments : Task (List Instrument) := send (.ask .instruments)

/-- `InstrumentRepository.GetInstrument`. -/
def getInstrument (instrumentId : Int) : Task (Option Instrument) :=
  send (.ask (.instrument instrumentId))

/-- `InstrumentRepository.GetOwnedInstrument`. -/
def getOwnedInstrument (accountId instrumentId : Int) : Task (Option OwnedInstrument) :=
  send (.ask (.ownedInstrument accountId instrumentId))

/-- `InstrumentRepository.GetOwnedInstrumentsOfAccount`. -/
def getOwnedInstrumentsOfAccount (accountId : Int) : Task (List OwnedInstrument) :=
  send (.ask (.ownedInstrumentsOfAccount accountId))

/-- `InstrumentRepository.AddOwnedInstrument`. -/
def addOwnedInstrument (owned : OwnedInstrument) : Task Unit :=
  send (.write (.addOwnedInstrument owned))

/-- `InstrumentRepository.UpdateOwnedInstrument`. -/
def updateOwnedInstrument (owned : OwnedInstrument) : Task Unit :=
  send (.write (.updateOwnedInstrument owned))

/-- `ProductRepository.GetProduct`. -/
def getProduct (productId : Int) : Task (Option Product) := send (.ask (.product productId))

/-- `ProductRepository.GetProducts`. -/
def getProducts : Task (List Product) := send (.ask .products)

/-- `PriceServiceConnector.GetLatestPrices`. -/
def getLatestPrices : Task (List Price) := send (.ask .latestPrices)

/-- `PriceServiceConnector.GetLastPriceByInstrumentId`. -/
def getLastPriceByInstrumentId (instrumentId : Int) : Task (Option Price) :=
  send (.ask (.lastPriceByInstrumentId instrumentId))

/-- `TradeRepositoryWithDbNotResponding.AddTrade`: with the problem pattern on, the
trade gets an identifier the database does not accept. -/
def addTrade (trade : Trade) : Task Unit := do
  let trade := if ← send .dbNotResponding then { trade with id := invalidTradeId } else trade
  send (.write (.addTrade trade))

/-- `TradeRepository.UpdateTrade`. -/
def updateTrade (trade : Trade) : Task Unit := send (.write (.updateTrade trade))

/-- `TradeNotificationService.OnTradeClosed`. -/
def onTradeClosed (trade : Trade) : Task Unit := send (.onTradeClosed trade)

/-- `TransactionalRepository.BeginTransaction`. -/
def beginTransaction : Task Unit := send .beginTransaction

/-- `TransactionalRepository.SaveChanges`. -/
def saveChanges : Task Batch := send .saveChanges

/-- `TransactionalRepository.CommitTransaction`. -/
def commitTransaction : Task Unit := send .commitTransaction

/-- `TransactionalRepository.RollbackTransaction`. -/
def rollbackTransaction : Task Unit := send .rollbackTransaction

/-- The value of an expression that may throw. -/
def ofExcept {α : Type} : Except Exception α → Task α
  | .ok value => pure value
  | .error error => throw error

/-- `ToDictionary`: the rows themselves, once no two have one key. -/
def toDictionary {ρ : Type} (key : ρ → Int) (rows : List ρ) : Task (List ρ) :=
  if (rows.map key).Nodup then pure rows else throw .duplicateKey

/-- The indexer of a dictionary. -/
def item {ρ : Type} (key : ρ → Int) (dictionary : List ρ) (k : Int) : Task ρ :=
  match Store.lookup key k dictionary with
  | some row => pure row
  | none => throw .keyNotFound

/-- A dereferenced value. -/
def deref {α : Type} : Option α → Task α
  | some value => pure value
  | none => throw .nullReference

/-- Save and commit; on an error roll back and throw a `DbException`. -/
def saveChangesOrRollback : Task Batch :=
  tryCatch
    (do
      let saved ← saveChanges
      commitTransaction
      return saved)
    fun _ => do
      rollbackTransaction
      throw .db

/-! ## Balance service -/

namespace BalanceService

/-- The change `ModifyBalance` makes to a balance. -/
def change (actionType : ActionType) (balance : Balance) (amount : ℚ) : Except Exception Balance :=
  match actionType with
  | .withdraw => balance.withdraw amount
  | .deposit => balance.deposit amount
  | _ => .error .invalidOperation

/-- `BalanceService.ModifyBalance`. -/
def modifyBalance (accountId : Int) (amount : ℚ) (actionType : ActionType) : Task Balance := do
  let some balance ← getBalanceOfAccount accountId | throw (.accountNotFound accountId)
  let balanceDifference := if actionType = .withdraw then -amount else amount
  let balanceHistory := .new accountId balance.value balanceDifference actionType (← now)
  let balance ← ofExcept (change actionType balance amount)
  beginTransaction
  updateBalance balance
  addBalanceHistory balanceHistory
  let _ ← saveChangesOrRollback
  return balance

/-- `BalanceService.Deposit`. -/
def deposit (accountId : Int) (amount : ℚ) : Task Balance := modifyBalance accountId amount .deposit

/-- `BalanceService.Withdraw`. -/
def withdraw (accountId : Int) (amount : ℚ) : Task Balance :=
  modifyBalance accountId amount .withdraw

end BalanceService

/-! ## What the trade services share -/

namespace TradeServiceBase

/-- `UpdateOwnedInstrument` of a row: add the amount, which is negative in a sale. -/
def updateOwned (owned : OwnedInstrument) (amount : ℚ) : Task Unit := do
  updateOwnedInstrument
    { owned with quantity := owned.quantity + amount, lastModificationDate := ← now }

/-- `UpdateOwnedInstrument` of an account and an instrument: find the row or create it. -/
def updateOwnedInstrument (accountId instrumentId : Int) (amount : ℚ) : Task Unit := do
  match ← getOwnedInstrument accountId instrumentId with
  | none => addOwnedInstrument (.new accountId instrumentId amount (← now))
  | some owned => updateOwned owned amount

/-- `CollectFee`: the fee goes to the owner. -/
def collectFee (fee : ℚ) : Task Unit := do
  let ownerBalance ← deref (← getBalanceOfAccount ownerId)
  addBalanceHistory (.new ownerId ownerBalance.value fee .collectFee (← now))
  Broker.updateBalance { ownerBalance with value := ownerBalance.value + fee }

/-- What a trade adds to the balance of its account, the fee aside. -/
def income (actionType : ActionType) (amount : ℚ) : ℚ :=
  if actionType = .sell ∨ actionType = .longSell then amount else -amount

/-- `UpdateBalance`: the amount and the fee, each with its history row. -/
def updateBalance (balance : Balance) (amount ppt : ℚ) (actionType : ActionType) : Task Unit := do
  let income := income actionType amount
  addBalanceHistory (.new balance.accountId balance.value income actionType (← now))
  let balance := { balance with value := balance.value + income }
  addBalanceHistory (.new balance.accountId balance.value (-ppt) .transactionFee (← now))
  let balance := { balance with value := balance.value - ppt }
  Broker.updateBalance balance
  collectFee ppt

end TradeServiceBase

/-! ## Quick trades -/

namespace TradeService

open TradeServiceBase

/-- `TradeService.ValidateInput`. -/
def validateInput (amount : ℚ) : Task Unit :=
  if amount < 0 then throw (.negativeAmount negativeAmountMessage) else pure ()

/-- `TradeService.BuyAssets`. -/
def buyAssets (accountId instrumentId : Int) (amount : ℚ) : Task Trade := do
  validateInput amount
  let some balance ← getBalanceOfAccount accountId | throw (.accountNotFound accountId)
  let some instrument ← getInstrument instrumentId | throw (.instrumentNotFound instrumentId)
  let price ← deref (← getLastPriceByInstrumentId instrumentId)
  let product ← deref (← getProduct instrument.productId)
  let cost := amount * price.open
  let totalCost := cost + product.ppt
  if totalCost > balance.value then
    throw (.notEnoughMoney "Not enough money to buy this asset" (totalCost - balance.value))
  beginTransaction
  let trade := Trade.quickTrade accountId instrumentId .buy price.open amount (← now)
  addTrade trade
  TradeServiceBase.updateBalance balance cost product.ppt .buy
  TradeServiceBase.updateOwnedInstrument accountId instrumentId amount
  let saved ← saveChangesOrRollback
  return saved.saved trade

/-- `TradeService.SellAssets`. A missing product is noticed when its fee is read. -/
def sellAssets (accountId instrumentId : Int) (amount : ℚ) : Task Trade := do
  validateInput amount
  let some balance ← getBalanceOfAccount accountId | throw (.accountNotFound accountId)
  let some instrument ← getInstrument instrumentId | throw (.instrumentNotFound instrumentId)
  let price ← deref (← getLastPriceByInstrumentId instrumentId)
  let product ← getProduct instrument.productId
  let some ownedInstrument ← getOwnedInstrument accountId instrumentId
    | throw (.notEnoughAssets notEnoughAssetsMessage)
  if ownedInstrument.quantity < amount then
    throw (.notEnoughAssets notEnoughAssetsMessage)
  let income := price.open * amount
  beginTransaction
  let trade := Trade.quickTrade accountId instrumentId .sell price.open amount (← now)
  addTrade trade
  TradeServiceBase.updateBalance balance income (← deref product).ppt .sell
  updateOwned ownedInstrument (-amount)
  let saved ← saveChangesOrRollback
  return saved.saved trade

end TradeService

/-! ## Long-running trades -/

namespace LongTradeService

open TradeServiceBase

/-- `LongTradeService.ValidateInput`. -/
def validateInput (amount price : ℚ) (duration : Int) : Task Unit :=
  if amount < 0 then throw (.negativeAmount negativeAmountMessage)
  else if price < 0 then throw (.negativeAmount "Price cannot be lower that 0")
  else if duration < 0 then throw (.negativeAmount "Duration cannot be lower that 0")
  else pure ()

/-- `CloseTrade`: the engine is told before the trade is saved. -/
def closeTrade (trade : Trade) (status : String) (transactionHappened : Bool) : Task Unit := do
  let trade := { trade with
    status := status
    transactionHappened := transactionHappened
    tradeClosed := true }
  updateTrade trade
  onTradeClosed trade

/-- `CloseOverdueTrades`. -/
def closeOverdueTrades : Task Unit := do
  let trades ← send (.ask (.overdueTrades (← now)))
  forEach trades fun trade => closeTrade trade "Time is up: trade failed" false

/-- `CreateLongTransaction`. -/
def createLongTransaction (accountId instrumentId : Int) (amount : ℚ) (duration : Int) (price : ℚ)
    (type : ActionType) : Task Trade := do
  validateInput amount price duration
  let some _ ← getBalanceOfAccount accountId | throw (.accountNotFound accountId)
  let some _ ← getInstrument instrumentId | throw (.instrumentNotFound instrumentId)
  beginTransaction
  let trade ← ofExcept (Trade.longTrade accountId instrumentId type price amount duration (← now))
  addTrade trade
  let saved ← saveChangesOrRollback
  return saved.saved trade

/-- `LongTradeService.BuyAssets`. -/
def buyAssets (accountId instrumentId : Int) (amount : ℚ) (duration : Int) (price : ℚ) :
    Task Trade := createLongTransaction accountId instrumentId amount duration price .longBuy

/-- `LongTradeService.SellAssets`. -/
def sellAssets (accountId instrumentId : Int) (amount : ℚ) (duration : Int) (price : ℚ) :
    Task Trade := createLongTransaction accountId instrumentId amount duration price .longSell

/-- `ProcessLongBuy`. -/
def processLongBuy (trade : Trade) (instrument : Instrument) (price : Price) (product : Product) :
    Task Unit := do
  if trade.entryPrice < price.low then
    return
  let balance ← deref (← getBalanceOfAccount trade.accountId)
  let cost := trade.quantity * trade.entryPrice
  let totalCost := cost + product.ppt
  if totalCost > balance.value then
    closeTrade trade "Not enough money to buy stocks! Trade failed!" false
  else
    TradeServiceBase.updateBalance balance cost product.ppt .longBuy
    TradeServiceBase.updateOwnedInstrument trade.accountId instrument.id trade.quantity
    closeTrade trade "Long buy transaction finished!" true

/-- `ProcessLongSell`. -/
def processLongSell (trade : Trade) (instrument : Instrument) (price : Price) (product : Product) :
    Task Unit := do
  if trade.entryPrice > price.high then
    return
  match ← getOwnedInstrument trade.accountId instrument.id with
  | none => closeTrade trade "Not enough stocks to sell! Trade failed!" false
  | some ownedInstrument =>
    if ownedInstrument.quantity < trade.quantity then
      closeTrade trade "Not enough stocks to sell! Trade failed!" false
    else
      let balance ← deref (← getBalanceOfAccount trade.accountId)
      let income := trade.entryPrice * trade.quantity
      TradeServiceBase.updateBalance balance income product.ppt .longSell
      updateOwned ownedInstrument (-trade.quantity)
      closeTrade trade "Long sell transaction finished!" true

/-- One turn of the loop of `ProcessLongRunningTransactions`. -/
def processTrade (instruments : List Instrument) (prices : List Price) (products : List Product)
    (openTrade : Trade) : Task Unit := do
  let instrument ← item Instrument.id instruments openTrade.instrumentId
  let price ← item Price.instrumentId prices instrument.id
  let product ← item Product.id products instrument.productId
  if equalsIgnoreCase openTrade.direction ActionType.longBuy.name then
    processLongBuy openTrade instrument price product
  else if equalsIgnoreCase openTrade.direction ActionType.longSell.name then
    processLongSell openTrade instrument price product
  else
    closeTrade openTrade "This is not a long running transcation! Trade failed!" false
  let _ ← saveChanges

/-- `ProcessLongRunningTransactions`. -/
def processLongRunningTransactions : Task Unit := do
  beginTransaction
  closeOverdueTrades
  let _ ← saveChanges
  let openTrades ← send (.ask .openTrades)
  let instruments ← toDictionary Instrument.id (← getAllInstruments)
  let prices ← toDictionary Price.instrumentId (← getLatestPrices)
  let products ← toDictionary Product.id (← getProducts)
  forEach openTrades (processTrade instruments prices products)
  let _ ← saveChangesOrRollback

end LongTradeService

/-! ## Listing of instruments -/

/-- An instrument as the broker lists it for an account. -/
structure InstrumentDTO where
  id : Int
  code : String
  name : String
  description : String
  productId : Int
  productName : String
  price : Price
  amount : ℚ
deriving DecidableEq

/-- The listed instrument; an account without a holding has none of it. -/
def InstrumentDTO.new (instrument : Instrument) (ownedInstrument : Option OwnedInstrument)
    (product : Product) (price : Price) : InstrumentDTO where
  id := instrument.id
  code := instrument.code
  name := instrument.name
  description := instrument.description
  productId := product.id
  productName := product.name
  price := price
  amount := (ownedInstrument.map OwnedInstrument.quantity).getD 0

namespace InstrumentService

/-- The loop of `GetInstruments`. -/
def listInstruments (owned : List OwnedInstrument) (prices : List Price) (products : List Product) :
    List Instrument → Task (List InstrumentDTO)
  | [] => pure []
  | instrument :: rest => do
    let ownedInstrument := Store.lookup OwnedInstrument.instrumentId instrument.id owned
    let price ← item Price.instrumentId prices instrument.id
    let product ← item Product.id products instrument.productId
    let others ← listInstruments owned prices products rest
    return .new instrument ownedInstrument product price :: others

/-- `InstrumentService.GetInstruments`. -/
def getInstruments (accountId : Int) : Task (List InstrumentDTO) := do
  let instruments ← getAllInstruments
  let ownedInstruments ←
    toDictionary OwnedInstrument.instrumentId (← getOwnedInstrumentsOfAccount accountId)
  let prices ← toDictionary Price.instrumentId (← getLatestPrices)
  let products ← toDictionary Product.id (← getProducts)
  listInstruments ownedInstruments prices products instruments

end InstrumentService

/-! ## Requests -/

/-- The operations that change the database. -/
inductive Request where
  | deposit (accountId : Int) (amount : ℚ)
  | withdraw (accountId : Int) (amount : ℚ)
  | buyAssets (accountId instrumentId : Int) (amount : ℚ)
  | sellAssets (accountId instrumentId : Int) (amount : ℚ)
  | longBuyAssets (accountId instrumentId : Int) (amount : ℚ) (duration : Int) (price : ℚ)
  | longSellAssets (accountId instrumentId : Int) (amount : ℚ) (duration : Int) (price : ℚ)
  | processLongRunningTransactions
deriving DecidableEq

/-- What a request returns. -/
inductive Response where
  | balance (balance : Balance)
  | trade (trade : Trade)
  | nothing
deriving DecidableEq

/-- The service a request calls. -/
def handle : Request → Task Response
  | .deposit accountId amount => return .balance (← BalanceService.deposit accountId amount)
  | .withdraw accountId amount => return .balance (← BalanceService.withdraw accountId amount)
  | .buyAssets accountId instrumentId amount =>
    return .trade (← TradeService.buyAssets accountId instrumentId amount)
  | .sellAssets accountId instrumentId amount =>
    return .trade (← TradeService.sellAssets accountId instrumentId amount)
  | .longBuyAssets accountId instrumentId amount duration price =>
    return .trade (← LongTradeService.buyAssets accountId instrumentId amount duration price)
  | .longSellAssets accountId instrumentId amount duration price =>
    return .trade (← LongTradeService.sellAssets accountId instrumentId amount duration price)
  | .processLongRunningTransactions => do
    LongTradeService.processLongRunningTransactions
    return .nothing

end EasyTrade.Broker
