import EasyTrade.Cards.Machine

/-!
# The credit card services

The handlers of the order service, its work scheduler, and the schedulers of the
manufacturer and the courier, as programs. A scheduler never runs two passes at
once: it is one program, of any number of passes.
-/

namespace EasyTrade.Cards

open EasyTrade.Logic EasyTrade.Logic.Program

/-! ## Order controller -/

namespace OrderController

/-- `handleSQLException`. -/
def handleSQLException (body : Task StandardResponse) : Task StandardResponse :=
  tryCatch body fun
    | .refused =>
      return { statusCode := 500, message := "An exception occurred!", error := some .refused }
    | error => throw error

/-- `insertNewStatus` with the description of the status. -/
def insertNewStatus (id : OrderId) (status : StatusType) : Task Unit :=
  send (.insertStatus id status status.description)

/-- `createCreditCardOrder`. -/
def createCreditCardOrder (request : CreditCardOrderRequest) : Task StandardResponse :=
  handleSQLException do
    let orderCount ← send (.orderCount request.accountId)
    if orderCount = 0 then
      let guid ← send (.insertOrder request)
      insertNewStatus guid .orderCreated
      return { statusCode := 201, message := "Credit card order has been created.",
               results := some (.order guid) }
    else
      return { statusCode := 400,
               message := "A credit card order for given accountId already exists!",
               data := some (.order request) }

/-- `getShippingAddress`. -/
def getShippingAddress (id : OrderId) : Task StandardResponse :=
  handleSQLException do
    match ← send (.shippingAddress id) with
    | some address =>
      return { statusCode := 200, message := "Address found successfully."
               results := some (.address address) }
    | none => return { statusCode := 404, message := "There is no address for given order id." }

/-- `getStatusHistory`. -/
def getStatusHistory (accountId : AccountId) : Task StandardResponse :=
  handleSQLException do
    match ← send (.orderIdForAccount accountId) with
    | none =>
      return { statusCode := 404,
               message := "Status history for account [" ++ toString accountId ++ "] not found" }
    | some orderId =>
      let statusList ← send (.statusList orderId)
      return { statusCode := 200, message := "Status history found"
               results := some (.history orderId statusList) }

/-- `getLatestStatus`: with the problem pattern on, `CountSequenceTotal` divides by zero. -/
def getLatestStatus (accountId : AccountId) : Task StandardResponse :=
  handleSQLException do
    if ← send .flag then throw .arithmetic
    match ← send (.lastStatusForAccount accountId) with
    | some status =>
      return { statusCode := 200, message := "Status found successfully."
               results := some (.status status) }
    | none =>
      return { statusCode := 404, message := "Status for the given account id does not exist!" }

/-- `deleteOrder`. -/
def deleteOrder (accountId : AccountId) : Task StandardResponse :=
  handleSQLException do
    send (.deleteStatuses accountId)
    send (.deleteCards accountId)
    send (.deleteOrders accountId)
    return { statusCode := 200, message := "Order and/or card successfully deleted." }

/-- `request.details().get()` as one of its classes. -/
def convert {α : Type} (details : Option Details) (as : Details → Option α) : Task α :=
  match details with
  | none => throw .noSuchElement
  | some details =>
    match as details with
    | none => throw .illegalArgument
    | some value => pure value

/-- The statements an accepted status update executes. -/
def applyNewStatus (request : StatusRequest) (newStatusType : StatusType) : Task Unit :=
  match newStatusType with
  | .cardOrdered | .cardDelivered => insertNewStatus request.orderId newStatusType
  | .cardError => do
    let errorRequest ← convert request.details Details.asError
    send (.insertStatus request.orderId newStatusType errorRequest.details)
  | .cardShipped => do
    let shippingId ← convert request.details Details.asShippingId
    send (.updateOrder request.orderId shippingId)
    insertNewStatus request.orderId newStatusType
  | .cardCreated => do
    let creditCardRequest ← convert request.details Details.asCreditCard
    send (.insertCard request.orderId creditCardRequest)
    insertNewStatus request.orderId newStatusType
  | .orderCreated | .sequenceError => pure ()

/-- Whether the `switch` of `actOnNewStatus` has a case for a status. -/
def isSupported : StatusType → Bool
  | .cardOrdered | .cardDelivered | .cardError | .cardShipped | .cardCreated => true
  | .orderCreated | .sequenceError => false

/-- `actOnNewStatus`. -/
def actOnNewStatus (request : StatusRequest) (oldStatusType : StatusType) :
    Task StandardResponse :=
  match StatusType.valueOf (toUpperCase request.type) with
  | none => throw .illegalArgument
  | some newStatusType =>
    if newStatusType.sequence ≤ oldStatusType.sequence then
      return { statusCode := 400,
               message := StatusType.sequenceError.description ++ " Tried to update from " ++
                 oldStatusType.type ++ " to " ++ newStatusType.type ++ "!" }
    else if isSupported newStatusType then do
      applyNewStatus request newStatusType
      return { statusCode := 200, message := "Credit card order status updated successfully." }
    else
      return { statusCode := 400,
               message := "This status change is somehow unsupported? Tried to update from " ++
                 oldStatusType.type ++ " to " ++ newStatusType.type ++ "!" }

/-- `handleNewStatus`, the body of `updateStatus`. -/
def handleNewStatus (id : OrderId) (request : StatusRequest) : Task StandardResponse :=
  handleSQLException do
    if id ≠ request.orderId then
      return { statusCode := 400
               message := "Credit card order found in path and request body don't match!"
               data := some (.status request) }
    match ← send (.lastStatus id) with
    | none =>
      return { statusCode := 400,
               message := "There does not exist a status for the credit card order: " ++ id }
    | some status => actOnNewStatus request status.status

end OrderController

/-! ## Calls over HTTP -/

/-- Send a request, and whether it is delivered. -/
def deliver : Task Bool :=
  tryCatch (do send .request; return true) fun _ => pure false

/-- The answer of a handler; an error that leaves it is answered by an error page. -/
def answerOf (handler : Task StandardResponse) : Task (Option StandardResponse) :=
  tryCatch (do return some (← handler)) fun _ => pure none

/-- Read an answer on its arrival. An error page cannot be read. -/
def readAnswer (answer : Option StandardResponse) : Task StandardResponse := do
  send .answer
  match answer with
  | some response => return response
  | none => throw .refused

/-- A request that is not delivered is lost or answered by something on the way. -/
def undelivered : Task StandardResponse := do
  if ← send .answeredOnTheWay then
    return { statusCode := 503, message := "Service Unavailable" }
  else throw .refused

/-- A call of a handler in another service. An answer that is not delivered leaves
the work done. -/
def exchange (handler : Task StandardResponse) : Task StandardResponse := do
  if ← deliver then readAnswer (← answerOf handler) else undelivered

/-- `issueCreditCard` of the manufacturer; a request without a body is rejected
before the handler, with an error page. -/
def issueCreditCard : Option ManufactureRequest → Task StandardResponse
  | none => throw .illegalArgument
  | some request => do
    send (.manufacture (.add { request }))
    return { statusCode := 200, message := "Credit card is being manufactured" }

/-- `ServiceHelper.updateStatus`: any answer that can be read will do. -/
def updateStatus (status : StatusType) (creditCardOrderId : OrderId) (details : Option Details) :
    Task Unit :=
  tryCatch
    (do
      let _ ← exchange (OrderController.handleNewStatus creditCardOrderId
        { orderId := creditCardOrderId, type := status.name, details })
      return ())
    fun _ => throw .runtime

/-- `ServiceHelper.getShippingAddress`. -/
def getShippingAddress (creditCardOrderId : OrderId) : Task (Option ShippingAddress) :=
  tryCatch
    (do
      let response ← exchange (OrderController.getShippingAddress creditCardOrderId)
      if response.statusCode = 200 then
        match response.results with
        | some (.address address) => return some address
        | _ => return none
      else return none)
    fun _ => throw .runtime

/-! ## Work scheduler -/

/-- `catch (Exception e)` around a pass. -/
def pass (body : Task Unit) : Task Unit := tryCatch body fun _ => pure ()

namespace WorkScheduler

/-- `getOrderIdsWithStatusOrderCreated`. -/
def getOrderIdsWithStatusOrderCreated : Task (List OrderId) := do
  let orders ← send .currentStatuses
  return (orders.filter fun row => row.2 = .orderCreated).map Prod.fst

/-- `run`. -/
def run : Task Unit := pass do
  let orders ← getOrderIdsWithStatusOrderCreated
  forEach orders fun orderId => do
    let body ← send (.manufactureData orderId)
    let response ← exchange (issueCreditCard body)
    if response.statusCode = 200 then OrderController.insertNewStatus orderId .cardOrdered

end WorkScheduler

/-! ## Walks over a shared list -/

/-- `for (P process : syncList)`: a list that has not changed has as many steps as
it was long, and one more finds its end. The bodies collect what is to be removed. -/
def walk {P : Type} (next : Nat → Task (Option (Nat × P))) (body : Nat → P → Task (List Nat)) :
    Nat → Nat → List Nat → Task (List Nat)
  | 0, cursor, toBeRemoved => do
    let _ ← next cursor
    return toBeRemoved
  | steps + 1, cursor, toBeRemoved => do
    match ← next cursor with
    | none => return toBeRemoved
    | some (ref, process) =>
      let removed ← body ref process
      walk next body steps (cursor + 1) (toBeRemoved ++ removed)

/-! ## Manufacture scheduler -/

namespace ManufactureScheduler

/-- `setStatus`. -/
def setStatus (ref : Nat) (process : ManufactureProcess) (status : ManufactureStatus) : Task Unit :=
  send (.manufacture (.set ref { process with status }))

/-- `String.format("%0nd", number)` of a number that is not negative. -/
def zeroPadded (width number : Nat) : String :=
  let digits := toString number
  "".pushn '0' (width - digits.length) ++ digits

/-- `generateCardDetails`. -/
def generateCardDetails (cardLevel : String) : Task CreditCardRequest := do
  let validDate ← send .validDate
  let a ← send (.nextInt 100000)
  let b ← send (.nextInt 1000000)
  let c ← send (.nextInt 100000)
  let cvs ← send (.nextInt 1000)
  return ⟨cardLevel, zeroPadded 5 a ++ zeroPadded 6 b ++ zeroPadded 5 c, zeroPadded 3 cvs, validDate⟩

/-- `processIssueAndErrorStatus`. -/
def processIssueAndErrorStatus (ref : Nat) (process : ManufactureProcess) : Task Unit := do
  if ← send .flag then
    if process.status ≠ .manufactureError then
      setStatus ref process .manufactureError
      updateStatus .cardError process.orderId (some { asError := some factoryFailure })
  else if (← send (.nextInt 100)) < 20 then
    let errorBody := if (← send (.nextInt 2)) = 0 then delayOnChips else factoryFailure
    setStatus ref process .manufactureError
    updateStatus .cardError process.orderId (some { asError := some errorBody })
  else
    let cardBody ← generateCardDetails process.request.cardLevel
    setStatus ref process .cardCreated
    updateStatus .cardCreated process.orderId (some { asCreditCard := some cardBody })

/-- One process of a pass. -/
def visit (ref : Nat) (process : ManufactureProcess) : Task (List Nat) :=
  match process.status with
  | .issuing | .manufactureError => do
    processIssueAndErrorStatus ref process
    return []
  | .cardCreated => do
    send (.courier (.add { creditCardOrderId := process.orderId }))
    return [ref]

/-- `run`. -/
def run : Task Unit := pass do
  let (modCount, size) ← send (.manufacture .iterator)
  let toBeRemoved ← walk (fun cursor => send (.manufacture (.next cursor modCount))) visit size 0 []
  forEach toBeRemoved fun ref => send (.manufacture (.remove ref))

end ManufactureScheduler

/-! ## Courier scheduler -/

namespace CourierScheduler

/-- `processNewCardReceivedStatus`. -/
def processNewCardReceivedStatus (ref : Nat) (process : CourierProcess) : Task Unit := do
  match ← getShippingAddress process.creditCardOrderId with
  | some shippingAddress =>
    let guid ← send .randomUUID
    send (.courier (.set ref
      { process with
        address := some shippingAddress, status := .cardSent, shippingId := some guid }))
    updateStatus .cardShipped process.creditCardOrderId (some { asShippingId := some guid })
  | none => return ()

/-- `processCardSentStatus`. -/
def processCardSentStatus (ref : Nat) (process : CourierProcess) : Task Unit := do
  send (.courier (.set ref { process with status := .cardDelivered }))
  updateStatus .cardDelivered process.creditCardOrderId none

/-- One process of a pass. -/
def visit (ref : Nat) (process : CourierProcess) : Task (List Nat) :=
  match process.status with
  | .newCardReceived => do
    processNewCardReceivedStatus ref process
    return []
  | .cardSent => do
    processCardSentStatus ref process
    return []
  | .cardDelivered => return [ref]

/-- `run`. -/
def run : Task Unit := pass do
  let (modCount, size) ← send (.courier .iterator)
  let toBeRemoved ← walk (fun cursor => send (.courier (.next cursor modCount))) visit size 0 []
  forEach toBeRemoved fun ref => send (.courier (.remove ref))

end CourierScheduler

/-! ## Parties -/

/-- The requests a client can send to the order service and the manufacturer. -/
inductive Request where
  | createCreditCardOrder (request : CreditCardOrderRequest)
  | getShippingAddress (id : OrderId)
  | getStatusHistory (accountId : AccountId)
  | getLatestStatus (accountId : AccountId)
  | deleteOrder (accountId : AccountId)
  | updateStatus (id : OrderId) (request : StatusRequest)
  | issueCreditCard (request : Option ManufactureRequest)

/-- The handler of a request. -/
def Request.handler : Request → Task StandardResponse
  | createCreditCardOrder request => OrderController.createCreditCardOrder request
  | getShippingAddress id => OrderController.getShippingAddress id
  | getStatusHistory accountId => OrderController.getStatusHistory accountId
  | getLatestStatus accountId => OrderController.getLatestStatus accountId
  | deleteOrder accountId => OrderController.deleteOrder accountId
  | updateStatus id request => OrderController.handleNewStatus id request
  | issueCreditCard request => Cards.issueCreditCard request

/-- The programs that run side by side: any number of clients, and one of each scheduler. -/
inductive Party (ι : Type) where
  | client (i : ι)
  | work
  | manufacture
  | courier
  deriving DecidableEq

/-- Any number of passes, one after the other. -/
def passes (run : Task Unit) (n : Nat) : Task Unit := forEach (List.replicate n run) id

/-- What a party does: a client's request, or so many passes of a scheduler. A
scheduler answers nobody. -/
def program {ι : Type} (requests : ι → Request) (rounds : Party ι → Nat) :
    Party ι → Task (Option StandardResponse)
  | .client i => do return some (← (requests i).handler)
  | .work => do
    passes WorkScheduler.run (rounds .work)
    return none
  | .manufacture => do
    passes ManufactureScheduler.run (rounds .manufacture)
    return none
  | .courier => do
    passes CourierScheduler.run (rounds .courier)
    return none

/-- All parties together. -/
abbrev Parties (ι : Type) : Type :=
  System (Party ι) Command Reply Failure (Option StandardResponse) Private World

/-- The parties before their first command. -/
def start {ι : Type} (requests : ι → Request) (rounds : Party ι → Nat)
    (chances : Party ι → Nat → Chance) (g : World) : Parties ι :=
  ⟨fun i => ⟨program requests rounds i, { chances := chances i }⟩, g⟩

/-- A world of one account and no order. -/
def emptyWorld : World where
  db := { accounts := [1] }
  uuids n := String.ofList (List.replicate (n + 1) 'u')

theorem emptyWorld_valid : emptyWorld.Valid where
  db :=
    { keys := List.nodup_nil
      ascending := List.Pairwise.nil
      seed := nofun
      statusOrder := nofun
      cardOrder := nofun }
  distinct a b same := by
    have lengths := congrArg List.length (String.ofList_injective same)
    simpa using lengths
  fresh _ _ := List.not_mem_nil
  manufacture := Store.SyncList.Valid.empty
  courier := Store.SyncList.Valid.empty

/-- An order for the account of `emptyWorld`. -/
def sampleOrder : CreditCardOrderRequest := ⟨1, "jo@example.com", "Jo", "1 Main St", "gold"⟩

/-- So many turns of one party, none of them refused. -/
def turns {ι : Type} (i : Party ι) (n : Nat) : List (Party ι × Bool) := List.replicate n (i, false)

end EasyTrade.Cards
