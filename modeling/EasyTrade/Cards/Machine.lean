import EasyTrade.Cards.Database
import EasyTrade.Logic.Terms

/-!
# Parties

The order service, the manufacturer and the courier share a world: the tables,
and the two lists of processes. A command is one statement on a connection of
its own, committed at once, or one step on a list. A handler called over HTTP
runs inside its caller's program, between the commands that send the request and
bring back the answer; each of the two may be refused.

What the code takes from elsewhere, the clock, the order of tied rows, flags and
random numbers, each command finds in its program's private state. Identifiers
are drawn from one sequence. The private state also keeps a record of what the
program has been answered, which no command reads.
-/

namespace EasyTrade.Cards

open EasyTrade.Store EasyTrade.Logic

/-! ## Commands -/

/-- A step on a shared list of processes. -/
inductive ListCommand (P : Type) where
  /-- `addProcess`. -/
  | add (object : P)
  /-- The start of a walk. -/
  | iterator
  /-- The next object of a walk. -/
  | next (cursor modCount : Nat)
  /-- Setters of an object. -/
  | set (ref : Nat) (object : P)
  /-- `remove`. -/
  | remove (ref : Nat)

/-- What answers a step on a list. A walk starts with the number of changes and
the length. -/
abbrev ListCommand.Reply {P : Type} : ListCommand P → Type
  | add _ => Unit
  | iterator => Nat × Nat
  | next _ _ => Option (Nat × P)
  | set _ _ => Unit
  | remove _ => Unit

/-- What a step on a list does. -/
def ListCommand.act {P : Type} (s : SyncList P) :
    (command : ListCommand P) → Option (command.Reply × SyncList P)
  | add object => some ((), s.add object)
  | iterator => some ((s.modCount, s.listed.length), s)
  | next cursor modCount => (s.next cursor modCount).map fun found => (found, s)
  | set ref object => some ((), s.set ref object)
  | remove ref => some ((), s.remove ref)

/-- The commands of all parties. -/
inductive Command where
  | orderCount (accountId : AccountId)
  /-- `insertNewOrder`, with the identifier it draws. -/
  | insertOrder (request : CreditCardOrderRequest)
  | insertStatus (id : OrderId) (status : StatusType) (details : String)
  | insertCard (id : OrderId) (card : CreditCardRequest)
  | updateOrder (id : OrderId) (shippingId : String)
  | deleteStatuses (accountId : AccountId)
  | deleteCards (accountId : AccountId)
  | deleteOrders (accountId : AccountId)
  | lastStatus (id : OrderId)
  | lastStatusForAccount (accountId : AccountId)
  | statusList (id : OrderId)
  | orderIdForAccount (accountId : AccountId)
  | shippingAddress (id : OrderId)
  | manufactureData (id : OrderId)
  | currentStatuses
  | manufacture (command : ListCommand ManufactureProcess)
  | courier (command : ListCommand CourierProcess)
  /-- A request on its way. -/
  | request
  /-- An answer on its way. -/
  | answer
  /-- Whether something on the way answers a request that is not delivered. -/
  | answeredOnTheWay
  /-- `getBooleanValue`. -/
  | flag
  /-- `nextInt`. -/
  | nextInt (bound : Nat)
  /-- The date in three years. -/
  | validDate
  /-- `randomUUID`. -/
  | randomUUID

/-- What answers a command. -/
abbrev Reply : Command → Type
  | .orderCount _ => Nat
  | .insertOrder _ => OrderId
  | .insertStatus _ _ _ => Unit
  | .insertCard _ _ => Unit
  | .updateOrder _ _ => Unit
  | .deleteStatuses _ => Unit
  | .deleteCards _ => Unit
  | .deleteOrders _ => Unit
  | .lastStatus _ => Option CreditCardOrderStatus
  | .lastStatusForAccount _ => Option CreditCardOrderStatus
  | .statusList _ => List CreditCardOrderStatus
  | .orderIdForAccount _ => Option OrderId
  | .shippingAddress _ => Option ShippingAddress
  | .manufactureData _ => Option ManufactureRequest
  | .currentStatuses => List (OrderId × StatusType)
  | .manufacture command => command.Reply
  | .courier command => command.Reply
  | .request => Unit
  | .answer => Unit
  | .answeredOnTheWay => Bool
  | .flag => Bool
  | .nextInt _ => Nat
  | .validDate => Int
  | .randomUUID => String

/-! ## The two states -/

/-- What a command finds outside the world. -/
structure Chance where
  /-- The local date and time. -/
  clock : Int := 0
  /-- How the server orders tied rows. -/
  rank : Nat → Nat := id
  /-- The state of a feature flag. -/
  flag : Bool := false
  /-- A random number. -/
  random : Nat := 0
  /-- The date in three years. -/
  validDate : Int := 0
  /-- Whether something on the way answers. -/
  answers : Bool := false

/-- The private state of a program. -/
structure Private where
  /-- What its commands find, one after the other. -/
  chances : Nat → Chance := fun _ => {}
  /-- How many commands it has carried out. -/
  turn : Nat := 0
  /-- The account whose orders it last counted, and the count. -/
  counted : Option (AccountId × Nat) := none
  /-- The order it has inserted and given no status yet. -/
  created : Option OrderId := none
  /-- The status it last read of each order. -/
  read : OrderId → Option StatusType := fun _ => none
  /-- The order it has inserted a card for and given no status since. -/
  awaiting : Option OrderId := none
  /-- The number of changes its walk over the manufacturer's list expects. -/
  expected : Nat := 0
  /-- The place its walk over the manufacturer's list has reached. -/
  cursor : Nat := 0
  /-- The process of the manufacturer it is at. -/
  making : Option (Nat × ManufactureProcess) := none
  /-- Whether it has handed that one over. -/
  handedOver : Bool := false
  /-- The process of the courier it is at. -/
  carrying : Option (Nat × CourierProcess) := none
  /-- The order it has advanced a process of and not reported yet. -/
  due : Option OrderId := none
  /-- The order it has given a shipping identifier and no status since. -/
  updated : Option OrderId := none

/-- What all parties share. -/
structure World where
  /-- The tables. -/
  db : Database
  /-- The identifiers `randomUUID` draws. -/
  uuids : Nat → String
  /-- How many have been drawn. -/
  drawn : Nat := 0
  /-- The manufacturer's list. -/
  manufacture : SyncList ManufactureProcess := {}
  /-- The courier's list. -/
  courier : SyncList CourierProcess := {}

/-- Strike an order off where it stands. -/
def strike (order : Option OrderId) (id : OrderId) : Option OrderId :=
  if order = some id then none else order

namespace Private

/-- What the next command finds. -/
def chance (l : Private) : Chance := l.chances l.turn

/-- One more command has been carried out. -/
def tick (l : Private) : Private := { l with turn := l.turn + 1 }

/-- The record of a status read. -/
def sawStatus (l : Private) (id : OrderId) (status : Option StatusType) : Private :=
  { l with
    read := Function.update l.read id status
    due := if status.isNone then strike l.due id else l.due }

/-- The record of the current statuses read. -/
def sawStatuses (l : Private) (rows : List (OrderId × StatusType)) : Private :=
  { l with
    read := fun id => ((rows.find? fun row => row.1 = id).map Prod.snd).or (l.read id) }

/-- The record of a status inserted. -/
def gaveStatus (l : Private) (id : OrderId) : Private :=
  { l with
    created := strike l.created id
    awaiting := strike l.awaiting id
    due := strike l.due id
    updated := strike l.updated id }

/-- The record of a step on the manufacturer's list. -/
def sawManufacture (l : Private) : (c : ListCommand ManufactureProcess) → c.Reply → Private
  | .add _, _ => l
  | .iterator, reply => { l with expected := reply.1, cursor := 0, making := none }
  | .next cursor _, some found =>
    { l with cursor := cursor + 1, making := some found, handedOver := false }
  | .next _ _, none => { l with making := none }
  | .set ref process, _ =>
    { l with
      making := some (ref, process)
      due := if process.status = .cardCreated then some process.orderId else l.due }
  | .remove _, _ => l

/-- The record of a step on the courier's list. -/
def sawCourier (l : Private) : (c : ListCommand CourierProcess) → c.Reply → Private
  | .add _, _ => { l with handedOver := true }
  | .iterator, _ => { l with carrying := none }
  | .next _ _, found => { l with carrying := found }
  | .set ref process, _ =>
    { l with
      carrying := some (ref, process)
      due := if process.status = .cardSent then some process.creditCardOrderId else l.due }
  | .remove _, _ => l

end Private

/-! ## The machine -/

/-- A change of the tables. -/
def World.withDb (g : World) (l : Private) (db : Option Database) :
    Option (Unit × Private × World) := db.map fun db => ((), l.tick, { g with db := db })

/-- What a command does. -/
def act : (command : Command) → Private → World → Option (Reply command × Private × World)
  | .orderCount a, l, g =>
    let count := g.db.orderCount a
    some (count, { l with counted := some (a, count) }.tick, g)
  | .insertOrder request, l, g =>
    let guid := g.uuids g.drawn
    (g.db.insertOrder (request.row guid)).map fun db =>
      (guid, { l with created := some guid }.tick, { g with db := db, drawn := g.drawn + 1 })
  | .insertStatus id status details, l, g =>
    g.withDb (l.gaveStatus id) (g.db.insertStatus id l.chance.clock status details)
  | .insertCard id card, l, g => g.withDb { l with awaiting := some id } (g.db.insertCard id card)
  | .updateOrder id shippingId, l, g =>
    g.withDb { l with updated := some id } (some (g.db.updateOrder id shippingId))
  | .deleteStatuses a, l, g => g.withDb l (g.db.deleteStatuses a)
  | .deleteCards a, l, g => g.withDb l (g.db.deleteCards a)
  | .deleteOrders a, l, g => g.withDb l (g.db.deleteOrders a)
  | .lastStatus id, l, g =>
    let status := g.db.lastStatus l.chance.rank id
    some (status, (l.sawStatus id (status.map CreditCardOrderStatus.status)).tick, g)
  | .lastStatusForAccount a, l, g =>
    (g.db.lastStatusForAccount l.chance.rank a).map fun status => (status, l.tick, g)
  | .statusList id, l, g => some (g.db.statusList l.chance.rank id, l.tick, g)
  | .orderIdForAccount a, l, g => some (g.db.orderIdForAccount a, l.tick, g)
  | .shippingAddress id, l, g => some (g.db.shippingAddress id, l.tick, g)
  | .manufactureData id, l, g => some (g.db.manufactureData id, l.tick, g)
  | .currentStatuses, l, g =>
    let rows := g.db.currentStatuses
    some (rows, (l.sawStatuses rows).tick, g)
  | .manufacture command, l, g =>
    (command.act g.manufacture).map fun done =>
      (done.1, (l.sawManufacture command done.1).tick, { g with manufacture := done.2 })
  | .courier command, l, g =>
    (command.act g.courier).map fun done =>
      (done.1, (l.sawCourier command done.1).tick, { g with courier := done.2 })
  | .request, l, g => some ((), l.tick, g)
  | .answer, l, g => some ((), l.tick, g)
  | .answeredOnTheWay, l, g => some (l.chance.answers, l.tick, g)
  | .flag, l, g => some (l.chance.flag, l.tick, g)
  | .nextInt bound, l, g => some (l.chance.random % bound, l.tick, g)
  | .validDate, l, g => some (l.chance.validDate, l.tick, g)
  | .randomUUID, l, g => some (g.uuids g.drawn, l.tick, { g with drawn := g.drawn + 1 })

/-- The machine of all parties. -/
def machine : Machine Command Reply Failure Private World where
  act := act
  fault := .refused

/-- A program of a party. -/
abbrev Task := Program Command Reply Failure

/-- Issue a command. -/
def send (command : Command) : Task (Reply command) := Program.perform command

/-! ## What every command keeps -/

/-- What always holds of the world. -/
structure World.Valid (g : World) : Prop where
  /-- The constraints of the tables. -/
  db : g.db.Valid
  /-- `randomUUID` never repeats itself. -/
  distinct : Function.Injective g.uuids
  /-- No order has an identifier that is still to be drawn. -/
  fresh : ∀ n, g.drawn ≤ n → g.uuids n ∉ g.db.orderIds
  /-- The manufacturer's list. -/
  manufacture : g.manufacture.Valid
  /-- The courier's list. -/
  courier : g.courier.Valid

/-- A step on a list keeps it valid. -/
theorem ListCommand.act_valid {P : Type} {s s' : SyncList P} {c : ListCommand P} {reply : c.Reply}
    (valid : s.Valid) (acted : c.act s = some (reply, s')) : s'.Valid := by
  cases c with
  | add object =>
    cases acted
    exact valid.add object
  | iterator =>
    cases acted
    exact valid
  | next cursor modCount =>
    obtain ⟨found, -, same⟩ := Option.map_eq_some_iff.1 acted
    cases same
    exact valid
  | set ref object =>
    cases acted
    exact valid.set ref object
  | remove ref =>
    cases acted
    exact valid.remove ref

/-- A change of the tables that brings in no identifier keeps the world valid. -/
theorem World.Valid.withDb {g g' : World} {l l' : Private} {db : Option Database} {u : Unit}
    (valid : g.Valid) (kept : ∀ db', db = some db' → db'.Valid ∧ db'.orderIds ⊆ g.db.orderIds)
    (acted : g.withDb l db = some (u, l', g')) : g'.Valid := by
  obtain ⟨db', changed, same⟩ := Option.map_eq_some_iff.1 acted
  cases same
  obtain ⟨validDb, known⟩ := kept db' changed
  exact { valid with db := validDb, fresh := fun n undrawn mem => valid.fresh n undrawn (known mem) }

/-- Every command keeps the world valid. -/
theorem act_valid {c : Command} {l l' : Private} {g g' : World} {reply : Reply c}
    (valid : g.Valid) (acted : act c l g = some (reply, l', g')) : g'.Valid := by
  cases c with
  | insertOrder request =>
    obtain ⟨db', inserted, same⟩ := Option.map_eq_some_iff.1 acted
    cases same
    refine { valid with db := valid.db.insertOrder inserted, fresh := fun n undrawn => ?_ }
    obtain ⟨-, rfl⟩ := Database.insertOrder_eq_some inserted
    have undrawn : g.drawn < n := undrawn
    have other : g.uuids n ≠ g.uuids g.drawn := fun same =>
      absurd (valid.distinct same) (by omega)
    have old := valid.fresh n (by omega)
    simp only [Database.orderIds, List.map_append, List.mem_append, not_or] at old ⊢
    exact ⟨old, by simpa [CreditCardOrderRequest.row] using other⟩
  | insertStatus id status details =>
    refine valid.withDb (fun db' inserted => ⟨valid.db.insertStatus inserted, ?_⟩) acted
    obtain ⟨-, rfl⟩ := Database.insertStatus_eq_some inserted
    exact List.Subset.refl _
  | insertCard id card =>
    refine valid.withDb (fun db' inserted => ⟨valid.db.insertCard inserted, ?_⟩) acted
    obtain ⟨-, rfl⟩ := Database.insertCard_eq_some inserted
    exact List.Subset.refl _
  | updateOrder id shippingId =>
    refine valid.withDb (fun db' updated => ?_) acted
    cases updated
    exact ⟨valid.db.updateOrder shippingId, by simp⟩
  | deleteStatuses a =>
    refine valid.withDb (fun db' deleted => ⟨valid.db.deleteStatuses deleted, ?_⟩) acted
    obtain ⟨_, -, rfl⟩ := Option.map_eq_some_iff.1 deleted
    exact List.Subset.refl _
  | deleteCards a =>
    refine valid.withDb (fun db' deleted => ⟨valid.db.deleteCards deleted, ?_⟩) acted
    obtain ⟨_, -, rfl⟩ := Option.map_eq_some_iff.1 deleted
    exact List.Subset.refl _
  | deleteOrders a =>
    refine valid.withDb (fun db' deleted => ⟨valid.db.deleteOrders deleted, ?_⟩) acted
    obtain ⟨-, rfl⟩ := Database.deleteOrders_eq_some deleted
    exact List.map_subset _ (List.filter_subset_self _)
  | manufacture command =>
    obtain ⟨done, stepped, same⟩ := Option.map_eq_some_iff.1 acted
    cases same
    exact { valid with manufacture := ListCommand.act_valid valid.manufacture stepped }
  | courier command =>
    obtain ⟨done, stepped, same⟩ := Option.map_eq_some_iff.1 acted
    cases same
    exact { valid with courier := ListCommand.act_valid valid.courier stepped }
  | lastStatusForAccount a =>
    obtain ⟨status, -, same⟩ := Option.map_eq_some_iff.1 acted
    cases same
    exact valid
  | randomUUID =>
    cases acted
    exact { valid with fresh := fun n undrawn => valid.fresh n (by simp only at undrawn; omega) }
  | _ =>
    cases acted
    exact valid

/-! ## The tables after a command -/

/-- The orders after a command. -/
def ordersAfter (g : World) : Command → List CreditCardOrder
  | .insertOrder request => g.db.orders ++ [request.row (g.uuids g.drawn)]
  | .updateOrder id shippingId => (g.db.updateOrder id shippingId).orders
  | .deleteOrders a => g.db.orders.filter fun o => o.accountId ≠ a
  | _ => g.db.orders

/-- The statuses after a command. -/
def statusesAfter (l : Private) (g : World) : Command → List CreditCardOrderStatus
  | .insertStatus id status details =>
    g.db.statuses ++ [⟨g.db.statusSeed, id, Database.toSecond l.chance.clock, status, details⟩]
  | .deleteStatuses a =>
    g.db.statuses.filter fun s => g.db.orderIdOf a ≠ some (some s.creditCardOrderId)
  | _ => g.db.statuses

/-- The cards after a command. -/
def cardsAfter (g : World) : Command → List CreditCard
  | .insertCard id card => g.db.cards ++ [card.row g.db.cardSeed id]
  | .deleteCards a => g.db.cards.filter fun c => g.db.orderIdOf a ≠ some (some c.creditCardOrderId)
  | _ => g.db.cards

/-- A statement on its own connection: the private state and the tables after it. -/
theorem of_withDb {g g' : World} {l l' : Private} {db : Option Database} {u : Unit}
    (acted : g.withDb l db = some (u, l', g')) :
    l' = l.tick ∧ ∃ db', db = some db' ∧ g' = { g with db := db' } := by
  obtain ⟨db', changed, same⟩ := Option.map_eq_some_iff.1 acted
  cases same
  exact ⟨rfl, db', changed, rfl⟩

/-- The three tables after a command. -/
theorem tables_act {c : Command} {l l' : Private} {g g' : World} {reply : Reply c}
    (acted : act c l g = some (reply, l', g')) :
    g'.db.orders = ordersAfter g c ∧ g'.db.statuses = statusesAfter l g c ∧
      g'.db.cards = cardsAfter g c := by
  cases c with
  | insertOrder request =>
    obtain ⟨db', inserted, same⟩ := Option.map_eq_some_iff.1 acted
    cases same
    obtain ⟨-, rfl⟩ := Database.insertOrder_eq_some inserted
    exact ⟨rfl, rfl, rfl⟩
  | insertStatus id status details =>
    obtain ⟨-, db', inserted, rfl⟩ := of_withDb acted
    obtain ⟨-, rfl⟩ := Database.insertStatus_eq_some inserted
    exact ⟨rfl, rfl, rfl⟩
  | insertCard id card =>
    obtain ⟨-, db', inserted, rfl⟩ := of_withDb acted
    obtain ⟨-, rfl⟩ := Database.insertCard_eq_some inserted
    exact ⟨rfl, rfl, rfl⟩
  | deleteStatuses a =>
    obtain ⟨-, db', deleted, rfl⟩ := of_withDb acted
    obtain ⟨id, own, rfl⟩ := Option.map_eq_some_iff.1 deleted
    refine ⟨rfl, ?_, rfl⟩
    simp only [statusesAfter, own, ne_eq, Option.some.injEq, eq_comm]
  | deleteCards a =>
    obtain ⟨-, db', deleted, rfl⟩ := of_withDb acted
    obtain ⟨id, own, rfl⟩ := Option.map_eq_some_iff.1 deleted
    refine ⟨rfl, rfl, ?_⟩
    simp only [cardsAfter, own, ne_eq, Option.some.injEq, eq_comm]
  | deleteOrders a =>
    obtain ⟨-, db', deleted, rfl⟩ := of_withDb acted
    obtain ⟨-, rfl⟩ := Database.deleteOrders_eq_some deleted
    exact ⟨rfl, rfl, rfl⟩
  | updateOrder id shippingId =>
    cases acted
    exact ⟨rfl, rfl, rfl⟩
  | lastStatusForAccount a =>
    obtain ⟨status, -, same⟩ := Option.map_eq_some_iff.1 acted
    cases same
    exact ⟨rfl, rfl, rfl⟩
  | manufacture command =>
    obtain ⟨done, -, same⟩ := Option.map_eq_some_iff.1 acted
    cases same
    exact ⟨rfl, rfl, rfl⟩
  | courier command =>
    obtain ⟨done, -, same⟩ := Option.map_eq_some_iff.1 acted
    cases same
    exact ⟨rfl, rfl, rfl⟩
  | _ =>
    cases acted
    exact ⟨rfl, rfl, rfl⟩

/-- The status a command inserts is the last of its order. -/
theorem statusesOf_insertStatus {id : OrderId} {status : StatusType} {details : String}
    {l l' : Private} {g g' : World} {u : Unit}
    (acted : act (.insertStatus id status details) l g = some (u, l', g')) :
    g'.db.statusesOf id = g.db.statusesOf id ++
      [⟨g.db.statusSeed, id, Database.toSecond l.chance.clock, status, details⟩] := by
  unfold Database.statusesOf
  rw [(tables_act acted).2.1]
  simp [statusesAfter]

/-- Any other command leaves the statuses of an order, or deletes them all. -/
theorem statusesOf_kept {id : OrderId} {c : Command} {l l' : Private} {g g' : World}
    {reply : Reply c} (acted : act c l g = some (reply, l', g'))
    (other : ∀ status details, c ≠ .insertStatus id status details) :
    g'.db.statusesOf id = g.db.statusesOf id ∨ (g'.db.statusesOf id = [] ∧
      ∃ a, c = .deleteStatuses a ∧ g.db.orderIdOf a = some (some id)) := by
  unfold Database.statusesOf
  rw [(tables_act acted).2.1]
  cases c with
  | insertStatus id' status details =>
    have apart : id' ≠ id := fun same => other status details (by rw [same])
    exact .inl (by simp [statusesAfter, apart])
  | deleteStatuses a =>
    simp only [statusesAfter, List.filter_filter]
    by_cases own : g.db.orderIdOf a = some (some id)
    · refine .inr ⟨List.filter_eq_nil_iff.2 fun s _ both => ?_, a, rfl, own⟩
      simp only [Bool.and_eq_true, decide_eq_true_eq] at both
      exact both.2 (by rw [own, both.1])
    · refine .inl (List.filter_congr fun s _ => ?_)
      by_cases mine : s.creditCardOrderId = id
      · simp [mine, own]
      · simp [mine]
  | _ => exact .inl rfl

/-! ## The records after a command -/

/-- The order a program has inserted and given no status yet. -/
def createdAfter (l : Private) (g : World) : Command → Option OrderId
  | .insertOrder _ => some (g.uuids g.drawn)
  | .insertStatus id _ _ => strike l.created id
  | _ => l.created

/-- What a program has read. -/
def readAfter (l : Private) (g : World) : Command → OrderId → Option StatusType
  | .lastStatus id =>
    Function.update l.read id ((g.db.lastStatus l.chance.rank id).map CreditCardOrderStatus.status)
  | .currentStatuses => (l.sawStatuses g.db.currentStatuses).read
  | _ => l.read

/-- The order a program has inserted a card for and given no status since. -/
def awaitingAfter (l : Private) : Command → Option OrderId
  | .insertCard id _ => some id
  | .insertStatus id _ _ => strike l.awaiting id
  | _ => l.awaiting

/-- The records of orders after a command. -/
theorem records_act {c : Command} {l l' : Private} {g g' : World} {reply : Reply c}
    (acted : act c l g = some (reply, l', g')) :
    l'.created = createdAfter l g c ∧ l'.read = readAfter l g c ∧
      l'.awaiting = awaitingAfter l c := by
  cases c with
  | insertOrder request =>
    obtain ⟨db', -, same⟩ := Option.map_eq_some_iff.1 acted
    cases same
    exact ⟨rfl, rfl, rfl⟩
  | insertStatus id status details =>
    obtain ⟨rfl, -⟩ := of_withDb acted
    exact ⟨rfl, rfl, rfl⟩
  | insertCard id card =>
    obtain ⟨rfl, -⟩ := of_withDb acted
    exact ⟨rfl, rfl, rfl⟩
  | deleteStatuses a =>
    obtain ⟨rfl, -⟩ := of_withDb acted
    exact ⟨rfl, rfl, rfl⟩
  | deleteCards a =>
    obtain ⟨rfl, -⟩ := of_withDb acted
    exact ⟨rfl, rfl, rfl⟩
  | deleteOrders a =>
    obtain ⟨rfl, -⟩ := of_withDb acted
    exact ⟨rfl, rfl, rfl⟩
  | lastStatusForAccount a =>
    obtain ⟨status, -, same⟩ := Option.map_eq_some_iff.1 acted
    cases same
    exact ⟨rfl, rfl, rfl⟩
  | manufacture command =>
    obtain ⟨done, -, same⟩ := Option.map_eq_some_iff.1 acted
    cases same
    cases command with
    | next cursor modCount => cases done.1 <;> exact ⟨rfl, rfl, rfl⟩
    | _ => exact ⟨rfl, rfl, rfl⟩
  | courier command =>
    obtain ⟨done, -, same⟩ := Option.map_eq_some_iff.1 acted
    cases same
    cases command <;> exact ⟨rfl, rfl, rfl⟩
  | _ =>
    cases acted
    exact ⟨rfl, rfl, rfl⟩

/-- What a program will find is settled from the start. -/
theorem chances_act {c : Command} {l l' : Private} {g g' : World} {reply : Reply c}
    (acted : act c l g = some (reply, l', g')) : l'.chances = l.chances := by
  cases c with
  | insertOrder request =>
    obtain ⟨db', -, same⟩ := Option.map_eq_some_iff.mp acted
    cases same
    rfl
  | lastStatusForAccount a =>
    obtain ⟨status, -, same⟩ := Option.map_eq_some_iff.mp acted
    cases same
    rfl
  | insertStatus id status details => rw [(of_withDb acted).1]; rfl
  | insertCard id card => rw [(of_withDb acted).1]; rfl
  | deleteStatuses a => rw [(of_withDb acted).1]; rfl
  | deleteCards a => rw [(of_withDb acted).1]; rfl
  | deleteOrders a => rw [(of_withDb acted).1]; rfl
  | manufacture command =>
    obtain ⟨done, -, same⟩ := Option.map_eq_some_iff.mp acted
    cases same
    cases command with
    | next cursor modCount => cases done.1 <;> rfl
    | _ => rfl
  | courier command =>
    obtain ⟨done, -, same⟩ := Option.map_eq_some_iff.mp acted
    cases same
    cases command <;> rfl
  | _ =>
    cases acted
    rfl

/-- Identifiers are drawn in their order. -/
theorem drawn_act {c : Command} {l l' : Private} {g g' : World} {reply : Reply c}
    (acted : act c l g = some (reply, l', g')) : g'.uuids = g.uuids ∧ g.drawn ≤ g'.drawn ∧
      ∀ request, c = .insertOrder request → g'.drawn = g.drawn + 1 := by
  cases c with
  | insertOrder request =>
    obtain ⟨db', -, same⟩ := Option.map_eq_some_iff.1 acted
    cases same
    exact ⟨rfl, Nat.le_succ _, fun _ _ => rfl⟩
  | insertStatus id status details =>
    obtain ⟨-, db', -, rfl⟩ := of_withDb acted
    exact ⟨rfl, Nat.le_refl _, nofun⟩
  | insertCard id card =>
    obtain ⟨-, db', -, rfl⟩ := of_withDb acted
    exact ⟨rfl, Nat.le_refl _, nofun⟩
  | deleteStatuses a =>
    obtain ⟨-, db', -, rfl⟩ := of_withDb acted
    exact ⟨rfl, Nat.le_refl _, nofun⟩
  | deleteCards a =>
    obtain ⟨-, db', -, rfl⟩ := of_withDb acted
    exact ⟨rfl, Nat.le_refl _, nofun⟩
  | deleteOrders a =>
    obtain ⟨-, db', -, rfl⟩ := of_withDb acted
    exact ⟨rfl, Nat.le_refl _, nofun⟩
  | lastStatusForAccount a =>
    obtain ⟨status, -, same⟩ := Option.map_eq_some_iff.1 acted
    cases same
    exact ⟨rfl, Nat.le_refl _, nofun⟩
  | manufacture command =>
    obtain ⟨done, -, same⟩ := Option.map_eq_some_iff.1 acted
    cases same
    exact ⟨rfl, Nat.le_refl _, nofun⟩
  | courier command =>
    obtain ⟨done, -, same⟩ := Option.map_eq_some_iff.1 acted
    cases same
    exact ⟨rfl, Nat.le_refl _, nofun⟩
  | randomUUID =>
    cases acted
    exact ⟨rfl, Nat.le_succ _, nofun⟩
  | _ =>
    cases acted
    exact ⟨rfl, Nat.le_refl _, nofun⟩

end EasyTrade.Cards
