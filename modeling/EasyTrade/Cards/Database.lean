import EasyTrade.Cards.Entities

/-!
# The credit card tables

The tables of the order service and one function for each of its statements.
A table is the list of its rows in the order of insertion. `none` is a statement
the server rejects: a key taken, a reference to no row, a value no `CHECK`
admits, a scalar subquery of two rows, a row deleted while another refers to it.
Statements that fail for other reasons are refused from outside.

`ORDER BY Timestamp DESC` leaves open how rows of one second are ordered. The
server's choice is a parameter: a rank of the rows.
-/

namespace EasyTrade.Cards

/-- The tables. -/
structure Database where
  /-- The keys of `Accounts`. -/
  accounts : List AccountId := []
  /-- `CreditCardOrders`. -/
  orders : List CreditCardOrder := []
  /-- `CreditCardOrderStatus`. -/
  statuses : List CreditCardOrderStatus := []
  /-- `CreditCards`. -/
  cards : List CreditCard := []
  /-- The next identifier of a status. -/
  statusSeed : Nat := 1
  /-- The next identifier of a card. -/
  cardSeed : Nat := 1
  deriving DecidableEq

namespace Database

/-! ## Rows -/

/-- The identifiers of all orders. -/
def orderIds (db : Database) : List OrderId := db.orders.map CreditCardOrder.id

/-- The orders of an account. -/
def ordersOf (db : Database) (accountId : AccountId) : List CreditCardOrder :=
  db.orders.filter fun o => o.accountId = accountId

/-- The statuses of an order. -/
def statusesOf (db : Database) (id : OrderId) : List CreditCardOrderStatus :=
  db.statuses.filter fun s => s.creditCardOrderId = id

/-- The cards of an order. -/
def cardsOf (db : Database) (id : OrderId) : List CreditCard :=
  db.cards.filter fun c => c.creditCardOrderId = id

@[simp] theorem mem_statusesOf {db : Database} {id : OrderId} {s : CreditCardOrderStatus} :
    s ∈ db.statusesOf id ↔ s ∈ db.statuses ∧ s.creditCardOrderId = id := by
  simp [statusesOf]

@[simp] theorem mem_cardsOf {db : Database} {id : OrderId} {c : CreditCard} :
    c ∈ db.cardsOf id ↔ c ∈ db.cards ∧ c.creditCardOrderId = id := by
  simp [cardsOf]

@[simp] theorem mem_ordersOf {db : Database} {a : AccountId} {o : CreditCardOrder} :
    o ∈ db.ordersOf a ↔ o ∈ db.orders ∧ o.accountId = a := by
  simp [ordersOf]

/-! ## Queries -/

/-- `SELECT Id FROM CreditCardOrders WHERE AccountId = ?` as a scalar subquery:
its one value, `NULL` without a row, and an error with more than one. -/
def orderIdOf (db : Database) (accountId : AccountId) : Option (Option OrderId) :=
  match db.ordersOf accountId with
  | [] => some none
  | [order] => some (some order.id)
  | _ => none

/-- `COUNT_ORDER_BY_ACCOUNT_ID_QUERY`. -/
def orderCount (db : Database) (accountId : AccountId) : Nat := (db.ordersOf accountId).length

/-- `GET_ORDER_BY_ACCOUNT_ID`, of which the first row is read. -/
def orderIdForAccount (db : Database) (accountId : AccountId) : Option OrderId :=
  (db.ordersOf accountId).head?.map CreditCardOrder.id

/-- `ORDER BY Timestamp DESC`, rows of one second by rank. -/
def Later (rank : Nat → Nat) (a b : CreditCardOrderStatus) : Prop :=
  b.timestamp < a.timestamp ∨ (a.timestamp = b.timestamp ∧ rank b.id ≤ rank a.id)

instance (rank : Nat → Nat) : DecidableRel (Later rank) := fun _ _ => inferInstanceAs (Decidable (_ ∨ _))

/-- `GET_STATUS_LIST_QUERY`. -/
def statusList (db : Database) (rank : Nat → Nat) (id : OrderId) : List CreditCardOrderStatus :=
  (db.statusesOf id).insertionSort (Later rank)

/-- `GET_LAST_STATUS_QUERY`. -/
def lastStatus (db : Database) (rank : Nat → Nat) (id : OrderId) : Option CreditCardOrderStatus :=
  (db.statusList rank id).head?

theorem mem_of_lastStatus {db : Database} {rank : Nat → Nat} {id : OrderId}
    {s : CreditCardOrderStatus} (h : db.lastStatus rank id = some s) : s ∈ db.statusesOf id :=
  (List.mem_insertionSort _).1 (List.mem_of_mem_head? h)

theorem lastStatus_eq_none {db : Database} {rank : Nat → Nat} {id : OrderId} :
    db.lastStatus rank id = none ↔ db.statusesOf id = [] := by
  rw [lastStatus, List.head?_eq_none_iff, ← List.length_eq_zero_iff, statusList,
    List.length_insertionSort, List.length_eq_zero_iff]

/-- `GET_LAST_STATUS_BY_ACCOUNT_ID_QUERY`. -/
def lastStatusForAccount (db : Database) (rank : Nat → Nat) (accountId : AccountId) :
    Option (Option CreditCardOrderStatus) :=
  (db.orderIdOf accountId).map fun id => id.bind (db.lastStatus rank)

/-- `GET_ORDER_ID_AND_CURRENT_STATUS`: of each order the status with `max(Id)`. -/
def currentStatuses (db : Database) : List (OrderId × StatusType) :=
  (db.statuses.filter fun x =>
    db.statuses.all fun y => y.creditCardOrderId = x.creditCardOrderId → y.id ≤ x.id).map
      fun x => (x.creditCardOrderId, x.status)

/-- `SHIPPING_ADDRESS_DATA_QUERY`. -/
def shippingAddress (db : Database) (id : OrderId) : Option ShippingAddress :=
  (db.orders.find? fun o => o.id = id).map fun o => ⟨o.shippingAddress, o.name, o.email⟩

/-- `CC_MANUFACTURE_DETAILS_QUERY`. -/
def manufactureData (db : Database) (id : OrderId) : Option ManufactureRequest :=
  (db.orders.find? fun o => o.id = id).map fun o => ⟨o.id, o.name, o.cardLevel⟩

/-! ## Changes -/

/-- `INSERT_ORDER_QUERY`. -/
def insertOrder (db : Database) (order : CreditCardOrder) : Option Database :=
  if order.id ∉ db.orderIds ∧ order.accountId ∈ db.accounts ∧ order.cardLevel ∈ cardLevels then
    some { db with orders := db.orders ++ [order] }
  else none

/-- A local date and time, in ticks of 100 ns, as the column keeps it: to the nearest second. -/
def toSecond (time : Int) : Int := (time + 5000000) / 10000000

/-- `INSERT_STATUS_QUERY`. -/
def insertStatus (db : Database) (id : OrderId) (time : Int) (status : StatusType)
    (details : String) : Option Database :=
  if id ∈ db.orderIds ∧ status ≠ .sequenceError then
    some
      { db with
        statuses := db.statuses ++ [⟨db.statusSeed, id, toSecond time, status, details⟩]
        statusSeed := db.statusSeed + 1 }
  else none

/-- `INSERT_CREDIT_CARD_QUERY`. -/
def insertCard (db : Database) (id : OrderId) (card : CreditCardRequest) : Option Database :=
  if id ∈ db.orderIds ∧ card.cardLevel ∈ cardLevels then
    some
      { db with
        cards := db.cards ++ [card.row db.cardSeed id]
        cardSeed := db.cardSeed + 1 }
  else none

/-- `UPDATE_ORDER_QUERY`. -/
def updateOrder (db : Database) (id : OrderId) (shippingId : String) : Database :=
  { db with
    orders := db.orders.map fun o => if o.id = id then { o with shippingId := some shippingId } else o }

/-- `DELETE_ORDER_STATUS_BY_ACCOUNT_ID_QUERY`. -/
def deleteStatuses (db : Database) (accountId : AccountId) : Option Database :=
  (db.orderIdOf accountId).map fun id =>
    { db with statuses := db.statuses.filter fun s => some s.creditCardOrderId ≠ id }

/-- `DELETE_CREDIT_CARD_BY_ACCOUNT_ID_QUERY`. -/
def deleteCards (db : Database) (accountId : AccountId) : Option Database :=
  (db.orderIdOf accountId).map fun id =>
    { db with cards := db.cards.filter fun c => some c.creditCardOrderId ≠ id }

/-- `DELETE_ORDER_BY_ACCOUNT_ID_QUERY`. -/
def deleteOrders (db : Database) (accountId : AccountId) : Option Database :=
  if ∀ o ∈ db.ordersOf accountId, db.statusesOf o.id = [] ∧ db.cardsOf o.id = [] then
    some { db with orders := db.orders.filter fun o => o.accountId ≠ accountId }
  else none

/-! ## What the tables keep -/

/-- What the constraints keep of the tables. -/
structure Valid (db : Database) : Prop where
  /-- `PK_CreditCardOrders`. -/
  keys : db.orderIds.Nodup
  /-- Statuses are numbered in the order of insertion. -/
  ascending : db.statuses.Pairwise fun a b => a.id < b.id
  /-- The identity column is past every status. -/
  seed : ∀ s ∈ db.statuses, s.id < db.statusSeed
  /-- `FK_CreditCardOrderStatus_CreditCardOrders`. -/
  statusOrder : ∀ s ∈ db.statuses, s.creditCardOrderId ∈ db.orderIds
  /-- `FK_CreditCard_CreditCardOrders`. -/
  cardOrder : ∀ c ∈ db.cards, c.creditCardOrderId ∈ db.orderIds

variable {db db' : Database} {id : OrderId}

theorem insertOrder_eq_some {order : CreditCardOrder} (h : db.insertOrder order = some db') :
    order.id ∉ db.orderIds ∧ db' = { db with orders := db.orders ++ [order] } := by
  unfold insertOrder at h
  split at h
  · rename_i allowed
    exact ⟨allowed.1, (Option.some.inj h).symm⟩
  · cases h

theorem insertStatus_eq_some {time : Int} {status : StatusType} {details : String}
    (h : db.insertStatus id time status details = some db') :
    id ∈ db.orderIds ∧ db' =
      { db with
        statuses := db.statuses ++ [⟨db.statusSeed, id, toSecond time, status, details⟩]
        statusSeed := db.statusSeed + 1 } := by
  unfold insertStatus at h
  split at h
  · rename_i allowed
    exact ⟨allowed.1, (Option.some.inj h).symm⟩
  · cases h

theorem insertCard_eq_some {card : CreditCardRequest} (h : db.insertCard id card = some db') :
    id ∈ db.orderIds ∧ db' =
      { db with
        cards := db.cards ++ [card.row db.cardSeed id]
        cardSeed := db.cardSeed + 1 } := by
  unfold insertCard at h
  split at h
  · rename_i allowed
    exact ⟨allowed.1, (Option.some.inj h).symm⟩
  · cases h

theorem deleteOrders_eq_some {a : AccountId} (h : db.deleteOrders a = some db') :
    (∀ o ∈ db.ordersOf a, db.statusesOf o.id = [] ∧ db.cardsOf o.id = []) ∧
      db' = { db with orders := db.orders.filter fun o => o.accountId ≠ a } := by
  unfold deleteOrders at h
  split at h
  · rename_i unreferenced
    exact ⟨unreferenced, (Option.some.inj h).symm⟩
  · cases h

@[simp] theorem orderIds_updateOrder (shippingId : String) :
    (db.updateOrder id shippingId).orderIds = db.orderIds := by
  simp only [orderIds, updateOrder, List.map_map]
  refine List.map_congr_left fun o _ => ?_
  simp only [Function.comp_apply]
  split <;> rfl

theorem Valid.insertOrder (valid : db.Valid) {order : CreditCardOrder}
    (h : db.insertOrder order = some db') : db'.Valid := by
  obtain ⟨new, rfl⟩ := insertOrder_eq_some h
  have grown : ({ db with orders := db.orders ++ [order] } : Database).orderIds =
      db.orderIds ++ [order.id] := by
    simp [orderIds]
  constructor
  · rw [grown, List.nodup_append]
    exact ⟨valid.keys, List.nodup_singleton _, fun x old y same => by
      rw [List.mem_singleton.1 same]
      exact fun clash => new (clash ▸ old)⟩
  · exact valid.ascending
  · exact valid.seed
  · exact fun s mem => grown ▸ List.mem_append_left _ (valid.statusOrder s mem)
  · exact fun c mem => grown ▸ List.mem_append_left _ (valid.cardOrder c mem)

theorem Valid.insertStatus (valid : db.Valid) {time : Int} {status : StatusType} {details : String}
    (h : db.insertStatus id time status details = some db') : db'.Valid := by
  obtain ⟨known, rfl⟩ := insertStatus_eq_some h
  constructor
  · exact valid.keys
  · simp only [List.pairwise_append, List.pairwise_singleton, List.mem_singleton, true_and]
    exact ⟨valid.ascending, fun s mem _ new => new ▸ valid.seed s mem⟩
  · intro s mem
    rcases List.mem_append.1 mem with old | new
    · have := valid.seed s old
      simp only
      omega
    · rw [List.mem_singleton.1 new]
      simp
  · intro s mem
    rcases List.mem_append.1 mem with old | new
    · exact valid.statusOrder s old
    · rw [List.mem_singleton.1 new]
      exact known
  · exact valid.cardOrder

theorem Valid.insertCard (valid : db.Valid) {card : CreditCardRequest}
    (h : db.insertCard id card = some db') : db'.Valid := by
  obtain ⟨known, rfl⟩ := insertCard_eq_some h
  refine { valid with cardOrder := fun c mem => ?_ }
  rcases List.mem_append.1 mem with old | new
  · exact valid.cardOrder c old
  · rw [List.mem_singleton.1 new]
    exact known

theorem Valid.updateOrder (valid : db.Valid) (shippingId : String) :
    (db.updateOrder id shippingId).Valid where
  keys := by simpa using valid.keys
  ascending := valid.ascending
  seed := valid.seed
  statusOrder s mem := by simpa using valid.statusOrder s mem
  cardOrder c mem := by simpa using valid.cardOrder c mem

theorem Valid.deleteStatuses (valid : db.Valid) {a : AccountId}
    (h : db.deleteStatuses a = some db') : db'.Valid := by
  obtain ⟨id, -, rfl⟩ := Option.map_eq_some_iff.1 h
  exact
    { valid with
      ascending := valid.ascending.filter _
      seed := fun s mem => valid.seed s (List.mem_of_mem_filter mem)
      statusOrder := fun s mem => valid.statusOrder s (List.mem_of_mem_filter mem) }

theorem Valid.deleteCards (valid : db.Valid) {a : AccountId} (h : db.deleteCards a = some db') :
    db'.Valid := by
  obtain ⟨id, -, rfl⟩ := Option.map_eq_some_iff.1 h
  exact { valid with cardOrder := fun c mem => valid.cardOrder c (List.mem_of_mem_filter mem) }

/-- An order that a row refers to is not deleted. -/
theorem mem_orderIds_deleteOrders {a : AccountId} (known : id ∈ db.orderIds)
    (unreferenced : ∀ o ∈ db.ordersOf a, db.statusesOf o.id = [] ∧ db.cardsOf o.id = [])
    (referred : db.statusesOf id ≠ [] ∨ db.cardsOf id ≠ []) :
    id ∈ ({ db with orders := db.orders.filter fun o => o.accountId ≠ a } : Database).orderIds := by
  obtain ⟨o, mem, rfl⟩ := List.mem_map.1 known
  refine List.mem_map.2 ⟨o, List.mem_filter.2 ⟨mem, ?_⟩, rfl⟩
  by_contra own
  obtain ⟨noStatus, noCard⟩ := unreferenced o (by simpa [mem] using own)
  rcases referred with status | card
  · exact status noStatus
  · exact card noCard

theorem Valid.deleteOrders (valid : db.Valid) {a : AccountId} (h : db.deleteOrders a = some db') :
    db'.Valid := by
  obtain ⟨unreferenced, rfl⟩ := deleteOrders_eq_some h
  constructor
  · exact valid.keys.sublist (List.filter_sublist.map _)
  · exact valid.ascending
  · exact valid.seed
  · exact fun s mem => mem_orderIds_deleteOrders (valid.statusOrder s mem) unreferenced
      (.inl (List.ne_nil_of_mem (mem_statusesOf.2 ⟨mem, rfl⟩)))
  · exact fun c mem => mem_orderIds_deleteOrders (valid.cardOrder c mem) unreferenced
      (.inr (List.ne_nil_of_mem (mem_cardsOf.2 ⟨mem, rfl⟩)))

/-! ## The newest status -/

/-- The newest status of an order: the one with the greatest identifier. -/
def Newest (db : Database) (id : OrderId) (x : CreditCardOrderStatus) : Prop :=
  x ∈ db.statusesOf id ∧ ∀ y ∈ db.statusesOf id, y.id ≤ x.id

theorem mem_currentStatuses {status : StatusType} :
    (id, status) ∈ db.currentStatuses ↔ ∃ x, db.Newest id x ∧ x.status = status := by
  simp only [currentStatuses, Newest, List.mem_map, List.mem_filter, List.all_eq_true,
    decide_eq_true_eq, Prod.mk.injEq, mem_statusesOf, and_imp]
  constructor
  · rintro ⟨x, ⟨mem, newest⟩, rfl, rfl⟩
    exact ⟨x, ⟨⟨mem, rfl⟩, newest⟩, rfl⟩
  · rintro ⟨x, ⟨⟨mem, rfl⟩, newest⟩, rfl⟩
    exact ⟨x, ⟨mem, newest⟩, rfl, rfl⟩

/-- No two statuses have one identifier. -/
theorem Valid.eq_of_id_eq (valid : db.Valid) {x y : CreditCardOrderStatus} (hx : x ∈ db.statuses)
    (hy : y ∈ db.statuses) (same : x.id = y.id) : x = y := by
  have unique : (db.statuses.map CreditCardOrderStatus.id).Nodup :=
    List.pairwise_map.2 (valid.ascending.imp fun less => Nat.ne_of_lt less)
  exact List.inj_on_of_nodup_map unique hx hy same

/-- An order has one newest status at most. -/
theorem Valid.newest_unique (valid : db.Valid) {x y : CreditCardOrderStatus}
    (hx : db.Newest id x) (hy : db.Newest id y) : x = y :=
  valid.eq_of_id_eq (mem_statusesOf.1 hx.1).1 (mem_statusesOf.1 hy.1).1
    (Nat.le_antisymm (hy.2 x hx.1) (hx.2 y hy.1))

/-- The row of an order among the current statuses is its newest status. -/
theorem Valid.find_currentStatuses (valid : db.Valid) {status : StatusType}
    (mem : (id, status) ∈ db.currentStatuses) :
    db.currentStatuses.find? (fun row => row.1 = id) = some (id, status) := by
  cases found : db.currentStatuses.find? fun row => row.1 = id with
  | none =>
    have none := List.find?_eq_none.1 found _ mem
    simp at none
  | some row =>
    obtain ⟨id', status'⟩ := row
    have own : id' = id := by simpa using List.find?_some found
    subst own
    obtain ⟨x, newest, rfl⟩ := mem_currentStatuses.1 (List.mem_of_find?_eq_some found)
    obtain ⟨y, newest', rfl⟩ := mem_currentStatuses.1 mem
    rw [valid.newest_unique newest newest']

/-- The newest status of an order, as the work scheduler is told it. -/
def newestStatus (db : Database) (id : OrderId) : Option StatusType :=
  (db.currentStatuses.find? fun row => row.1 = id).map Prod.snd

theorem Valid.newestStatus_eq_some (valid : db.Valid) {status : StatusType} :
    db.newestStatus id = some status ↔ ∃ x, db.Newest id x ∧ x.status = status := by
  rw [← mem_currentStatuses]
  constructor
  · intro h
    obtain ⟨⟨id', status'⟩, found, rfl⟩ := Option.map_eq_some_iff.1 h
    have own : id' = id := by simpa using List.find?_some found
    subst own
    exact List.mem_of_find?_eq_some found
  · intro mem
    rw [newestStatus, valid.find_currentStatuses mem, Option.map_some]

end Database

end EasyTrade.Cards
