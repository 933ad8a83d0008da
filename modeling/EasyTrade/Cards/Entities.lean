import Mathlib.Data.List.Sort
import EasyTrade.Store.SyncList

/-!
# Entities of the credit card services

The rows of the credit card tables, the requests and answers of the order
service, and the processes of the manufacturer and the courier. An order is
named by the text of its identifier, up to the collation of its column. A
timestamp is a local date and time; a stored one is in whole seconds.
-/

namespace EasyTrade.Cards

/-- A key of `Accounts`. -/
abbrev AccountId : Type := Int

/-- The identifier of a credit card order. -/
abbrev OrderId : Type := String

/-! ## Statuses -/

/-- `StatusType`; the constants of the third party's `OrderStatus` are the same. -/
inductive StatusType where
  | orderCreated
  | cardOrdered
  | cardCreated
  | cardError
  | cardShipped
  | cardDelivered
  | sequenceError
  deriving DecidableEq, Repr

namespace StatusType

/-- All constants, in the order of the source. -/
def values : List StatusType :=
  [orderCreated, cardOrdered, cardCreated, cardError, cardShipped, cardDelivered, sequenceError]

/-- `getSequence`. -/
def sequence : StatusType → Nat
  | orderCreated => 10
  | cardOrdered => 20
  | cardCreated => 39
  | cardError => 30
  | cardShipped => 40
  | cardDelivered => 50
  | sequenceError => 99

/-- `getType`, the text of the column. -/
def type : StatusType → String
  | orderCreated => "order_created"
  | cardOrdered => "card_ordered"
  | cardCreated => "card_created"
  | cardError => "card_error"
  | cardShipped => "card_shipped"
  | cardDelivered => "card_delivered"
  | sequenceError => "sequence_error"

/-- `getDescription`. -/
def description : StatusType → String
  | orderCreated => "An order for a credit card has been accepted."
  | cardOrdered => "Credit card is being manufactured."
  | cardCreated => "Card has been successfully manufactured."
  | cardError => "There occurred an error during card manufacture."
  | cardShipped => "Card has been shipped to the client."
  | cardDelivered => "Card has been received by the client."
  | sequenceError => "Wrong sequence of status occurred. Please verify the whole process!"

/-- The name of the constant. -/
def name : StatusType → String
  | orderCreated => "ORDER_CREATED"
  | cardOrdered => "CARD_ORDERED"
  | cardCreated => "CARD_CREATED"
  | cardError => "CARD_ERROR"
  | cardShipped => "CARD_SHIPPED"
  | cardDelivered => "CARD_DELIVERED"
  | sequenceError => "SEQUENCE_ERROR"

/-- `valueOf`: the constant of a name. -/
def valueOf (text : String) : Option StatusType := values.find? fun s => s.name = text

end StatusType

/-- `Character.toUpperCase`, as far as it can make a letter of a constant's name:
beside the small letters, the dotless i and the long s become capitals. -/
def upperCase (c : Char) : Char :=
  if c = 'ı' then 'I' else if c = 'ſ' then 'S' else c.toUpper

/-- `toUpperCase`. -/
def toUpperCase (text : String) : String := text.map upperCase

/-- The text of a status names the status: what is read back is what was stored. -/
theorem StatusType.valueOf_type (s : StatusType) : valueOf (toUpperCase s.type) = some s := by
  cases s <;> decide +kernel

/-- So does the name of the constant, which the third party sends. -/
theorem StatusType.valueOf_name (s : StatusType) : valueOf (toUpperCase s.name) = some s := by
  cases s <;> decide +kernel

/-! ## Rows -/

/-- A row of `CreditCardOrders`. -/
structure CreditCardOrder where
  /-- The primary key. -/
  id : OrderId
  /-- The owner. -/
  accountId : AccountId
  /-- The email address. -/
  email : String
  /-- The name on the card. -/
  name : String
  /-- The identifier the courier has given the shipment. -/
  shippingId : Option String := none
  /-- The address. -/
  shippingAddress : String
  /-- The level of the card. -/
  cardLevel : String
  deriving DecidableEq, Repr

/-- A row of `CreditCardOrderStatus`. The column admits the texts of six statuses
only, so a row holds the status itself. -/
structure CreditCardOrderStatus where
  /-- The primary key, drawn from the identity column. -/
  id : Nat
  /-- The order. -/
  creditCardOrderId : OrderId
  /-- When the row was written, to the second. -/
  timestamp : Int
  /-- The status. -/
  status : StatusType
  /-- The details. -/
  details : String
  deriving DecidableEq, Repr

/-- A row of `CreditCards`. -/
structure CreditCard where
  /-- The primary key, drawn from the identity column. -/
  id : Nat
  /-- The order. -/
  creditCardOrderId : OrderId
  /-- The level. -/
  level : String
  /-- The number. -/
  number : String
  /-- The card verification value. -/
  cvs : String
  /-- The last day the card is valid. -/
  validDate : Int
  deriving DecidableEq, Repr

/-- The levels the `CHECK` constraints admit. -/
def cardLevels : List String := ["silver", "gold", "platinum"]

/-! ## Requests -/

/-- `CreditCardOrderRequest`. -/
structure CreditCardOrderRequest where
  /-- The owner. -/
  accountId : AccountId
  /-- The email address. -/
  email : String
  /-- The name on the card. -/
  name : String
  /-- The address. -/
  shippingAddress : String
  /-- The level of the card. -/
  cardLevel : String
  deriving DecidableEq, Repr

/-- The row an order request is stored as. -/
def CreditCardOrderRequest.row (r : CreditCardOrderRequest) (guid : OrderId) : CreditCardOrder :=
  { id := guid, accountId := r.accountId, email := r.email, name := r.name
    shippingAddress := r.shippingAddress, cardLevel := r.cardLevel }

/-- `CreditCardRequest`, the details of a created card. -/
structure CreditCardRequest where
  /-- The level. -/
  cardLevel : String
  /-- The number. -/
  cardNumber : String
  /-- The card verification value. -/
  cardCVS : String
  /-- The last day the card is valid. -/
  cardValidDate : Int
  deriving DecidableEq, Repr

/-- The row a card is stored as. -/
def CreditCardRequest.row (r : CreditCardRequest) (id : Nat) (orderId : OrderId) : CreditCard :=
  ⟨id, orderId, r.cardLevel, r.cardNumber, r.cardCVS, r.cardValidDate⟩

/-- `ErrorRequest`, the details of a failed manufacture. -/
structure ErrorRequest where
  /-- The code. -/
  errorCode : Int
  /-- The kind. -/
  errorType : String
  /-- The message. -/
  errorMessage : String
  deriving DecidableEq, Repr

/-- The details an error status is stored with. -/
def ErrorRequest.details (e : ErrorRequest) : String :=
  "There occurred an error of type '" ++ e.errorType ++ "' and a code of '" ++
    toString e.errorCode ++ "'. Error message: " ++ e.errorMessage

/-- The details of a status request: what `convertValue` makes of them for each
class they may be asked to be, and nothing where it throws. -/
structure Details where
  /-- As an `ErrorRequest`. -/
  asError : Option ErrorRequest := none
  /-- As the shipping id of a `ShippingIdRequest`. -/
  asShippingId : Option String := none
  /-- As a `CreditCardRequest`. -/
  asCreditCard : Option CreditCardRequest := none
  deriving DecidableEq, Repr

/-- `StatusRequest`. -/
structure StatusRequest where
  /-- The order. -/
  orderId : OrderId
  /-- The text of the new status. -/
  type : String
  /-- The details. -/
  details : Option Details
  deriving DecidableEq, Repr

/-- `ManufactureRequest`, which the manufacturer reads as its `CreditCardRequest`. -/
structure ManufactureRequest where
  /-- The order. -/
  creditCardOrderId : OrderId
  /-- The name on the card. -/
  name : String
  /-- The level of the card. -/
  cardLevel : String
  deriving DecidableEq, Repr

/-- `ShippingAddressResponse`. -/
structure ShippingAddress where
  /-- The address. -/
  shippingAddress : String
  /-- The name. -/
  name : String
  /-- The email address. -/
  email : String
  deriving DecidableEq, Repr

/-! ## Answers -/

/-- What ends a request or a pass early. -/
inductive Failure where
  /-- A statement that fails (`SQLException`), a call that is lost or whose
  answer cannot be read (`IOException`), a walk over a list that has changed. -/
  | refused
  /-- `IllegalArgumentException`. -/
  | illegalArgument
  /-- `NoSuchElementException`. -/
  | noSuchElement
  /-- `ArithmeticException`. -/
  | arithmetic
  /-- `RuntimeException`. -/
  | runtime
  deriving DecidableEq, Repr

/-- The results an answer carries. -/
inductive Results where
  /-- `CreditCardOrderResponse`. -/
  | order (creditCardOrderId : OrderId)
  /-- `ShippingAddressResponse`. -/
  | address (address : ShippingAddress)
  /-- `CreditCardOrderStatus`. -/
  | status (status : CreditCardOrderStatus)
  /-- `CreditCardOrderStatusHistory`. -/
  | history (creditCardOrderId : OrderId) (statusList : List CreditCardOrderStatus)
  deriving DecidableEq, Repr

/-- The request an answer repeats. -/
inductive Echo where
  | order (request : CreditCardOrderRequest)
  | status (request : StatusRequest)
  deriving DecidableEq, Repr

/-- `StandardResponse`. -/
structure StandardResponse where
  /-- The status code. -/
  statusCode : Nat
  /-- The message. -/
  message : String
  /-- The results. -/
  results : Option Results := none
  /-- What the request has sent. -/
  data : Option Echo := none
  /-- The cause of a failure. -/
  error : Option Failure := none
  deriving DecidableEq, Repr

/-! ## The third party -/

/-- `ManufactureStatus`. -/
inductive ManufactureStatus where
  | issuing
  | manufactureError
  | cardCreated
  deriving DecidableEq, Repr

/-- `ManufactureProcess`. -/
structure ManufactureProcess where
  /-- What is to be made. -/
  request : ManufactureRequest
  /-- How far it is. -/
  status : ManufactureStatus := .issuing
  deriving DecidableEq, Repr

/-- The order of a process. -/
def ManufactureProcess.orderId (p : ManufactureProcess) : OrderId := p.request.creditCardOrderId

/-- `CourierStatus`. -/
inductive CourierStatus where
  | newCardReceived
  | cardSent
  | cardDelivered
  deriving DecidableEq, Repr

/-- `CourierProcess`. -/
structure CourierProcess where
  /-- The order. -/
  creditCardOrderId : OrderId
  /-- How far it is. -/
  status : CourierStatus := .newCardReceived
  /-- The address. -/
  address : Option ShippingAddress := none
  /-- The identifier of the shipment. -/
  shippingId : Option String := none
  deriving DecidableEq, Repr

/-- `ErrorBody.FACTORY_FAILURE`. -/
def factoryFailure : ErrorRequest := ⟨22, "delay", "Factory failure"⟩

/-- `ErrorBody.DELAY_ON_CHIPS`. -/
def delayOnChips : ErrorRequest := ⟨35, "delay", "Delay on chips"⟩

end EasyTrade.Cards
