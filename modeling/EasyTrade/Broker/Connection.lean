import EasyTrade.Broker.Database
import EasyTrade.Logic.Interleaving

/-!
# Connections

One request works on one connection: the copies of the rows it has read, the
rows it has changed since its last save, and what it has sent to the database in
its open transaction. The server has the committed tables.

A query sees the committed rows and the connection's own uncommitted ones, never
those of others (`READ COMMITTED`), and hands out the tracked copy of a row where
there is one. Nothing locks a row, so every interleaving that row locks would
allow is one of the interleavings here. An update is by primary key, of whole
rows, with no check that the row is still as it was read.

The connection also keeps a record of what it was answered, which no command
reads.
-/

namespace EasyTrade.Broker

open EasyTrade.Store EasyTrade.Ledger EasyTrade.Logic

/-! ## Commands -/

/-- A change of the unit of work that the next save sends. -/
inductive Change where
  /-- `AddTrade`. -/
  | addTrade (trade : Trade)
  /-- `UpdateTrade`. -/
  | updateTrade (trade : Trade)
  /-- `AddOwnedInstrument`. -/
  | addOwnedInstrument (owned : OwnedInstrument)
  /-- `UpdateOwnedInstrument`. -/
  | updateOwnedInstrument (owned : OwnedInstrument)
  /-- `UpdateBalance`. -/
  | updateBalance (balance : Balance)
  /-- `AddBalanceHistory`. -/
  | addBalanceHistory (history : BalanceHistory)

/-- What the services ask of the repositories and of what lies behind them. -/
inductive Command where
  | ask (query : Query)
  /-- `DateTimeOffset.Now`. -/
  | now
  /-- `GetPluginState(Constants.DbNotResponding, false)`. -/
  | dbNotResponding
  | write (change : Change)
  /-- `OnTradeClosed`. -/
  | onTradeClosed (trade : Trade)
  | beginTransaction
  | saveChanges
  | commitTransaction
  | rollbackTransaction

/-- What answers a command. A save answers with the rows as it has sent them. -/
abbrev Reply : Command → Type
  | .ask query => query.Answer
  | .now => Int
  | .dbNotResponding => Bool
  | .write _ => Unit
  | .onTradeClosed _ => Unit
  | .beginTransaction => Unit
  | .saveChanges => Batch
  | .commitTransaction => Unit
  | .rollbackTransaction => Unit

/-- The pending rows after a change. -/
def Batch.write (b : Batch) : Change → Batch
  | .addTrade trade => { b with insertedTrades := b.insertedTrades ++ [trade] }
  | .updateTrade trade => { b with updatedTrades := put Trade.id b.updatedTrades trade }
  | .addOwnedInstrument owned => { b with insertedOwned := b.insertedOwned ++ [owned] }
  | .updateOwnedInstrument owned =>
    { b with updatedOwned := put OwnedInstrument.id b.updatedOwned owned }
  | .updateBalance balance =>
    { b with updatedBalances := put Balance.accountId b.updatedBalances balance }
  | .addBalanceHistory history => { b with insertedHistory := b.insertedHistory ++ [history] }

/-! ## The two states -/

/-- The record of an answer: what the connection had sent by then, the question
and the rows as the server had them. -/
structure Read where
  /-- The batches the connection had sent. -/
  sent : List Batch
  /-- The question. -/
  query : Query
  /-- The rows of the server. -/
  answer : query.Answer

/-- The record of a save: what had been sent before it, and the identifiers it drew. -/
structure Numbering where
  /-- The batches the connection had sent. -/
  sent : List Batch
  /-- The first identifier for trades. -/
  tradeSeed : Int
  /-- The first identifier for holdings. -/
  ownedSeed : Int

/-- The private state of a request. -/
structure Connection where
  /-- What the request finds outside the database. -/
  env : Env
  /-- The tracked balances. -/
  balances : List Balance := []
  /-- The tracked holdings. -/
  owned : List OwnedInstrument := []
  /-- The tracked trades. -/
  trades : List Trade := []
  /-- The changes since the last save. -/
  pending : Batch := {}
  /-- The batches sent in the open transaction. -/
  tx : Option (List Batch) := none
  /-- The batches committed. -/
  committed : List Batch := []
  /-- The answers received. -/
  reads : List Read := []
  /-- The saves made. -/
  numberings : List Numbering := []
  /-- The trades reported closed to the engine. -/
  notified : List Trade := []

/-- The shared state: the committed tables, and what has been committed and
reported by all requests. -/
structure Server where
  /-- The committed tables and the next identifiers. -/
  tables : Tables
  /-- All batches committed, in order. -/
  log : List Batch := []
  /-- All trades reported closed, in order. -/
  notified : List Trade := []

namespace Connection

/-- What the connection has sent, committed or not. -/
def sent (l : Connection) : List Batch := l.committed ++ l.tx.getD []

/-- The tables as the connection sees them. -/
def view (l : Connection) (g : Server) : Database := g.tables.db.applyAll (l.tx.getD [])

/-- The answer with tracked copies for rows. -/
def resolve (l : Connection) (q : Query) (rows : q.Answer) : q.Answer :=
  q.resolve l.balances l.owned l.trades rows

/-- Track the rows of an answer. -/
def track (l : Connection) : (q : Query) → q.Answer → Connection
  | .balanceOfAccount _, row =>
    { l with balances := Tracker.attachAll Balance.accountId l.balances row.toList }
  | .ownedInstrument _ _, row =>
    { l with owned := Tracker.attachAll OwnedInstrument.id l.owned row.toList }
  | .overdueTrades _, rows => { l with trades := Tracker.attachAll Trade.id l.trades rows }
  | .openTrades, rows => { l with trades := Tracker.attachAll Trade.id l.trades rows }
  | .ownedInstrumentsOfAccount _, rows =>
    { l with owned := Tracker.attachAll OwnedInstrument.id l.owned rows }
  | .instrument _, _ => l
  | .product _, _ => l
  | .instruments, _ => l
  | .products, _ => l
  | .latestPrices, _ => l
  | .lastPriceByInstrumentId _, _ => l

/-- The connection after an answer. -/
def receive (l : Connection) (q : Query) (rows : q.Answer) : Connection :=
  { l.track q rows with reads := l.reads ++ [⟨l.sent, q, rows⟩] }

@[simp] theorem env_receive (l : Connection) (q : Query) (rows : q.Answer) :
    (l.receive q rows).env = l.env := by
  cases q <;> rfl

@[simp] theorem tx_receive (l : Connection) (q : Query) (rows : q.Answer) :
    (l.receive q rows).tx = l.tx := by
  cases q <;> rfl

@[simp] theorem committed_receive (l : Connection) (q : Query) (rows : q.Answer) :
    (l.receive q rows).committed = l.committed := by
  cases q <;> rfl

@[simp] theorem sent_receive (l : Connection) (q : Query) (rows : q.Answer) :
    (l.receive q rows).sent = l.sent := by
  cases q <;> rfl

@[simp] theorem pending_receive (l : Connection) (q : Query) (rows : q.Answer) :
    (l.receive q rows).pending = l.pending := by
  cases q <;> rfl

@[simp] theorem notified_receive (l : Connection) (q : Query) (rows : q.Answer) :
    (l.receive q rows).notified = l.notified := by
  cases q <;> rfl

@[simp] theorem numberings_receive (l : Connection) (q : Query) (rows : q.Answer) :
    (l.receive q rows).numberings = l.numberings := by
  cases q <;> rfl

/-- The connection after a change: the tracked copy is the pending row. -/
def write (l : Connection) (change : Change) : Connection :=
  let l := { l with pending := l.pending.write change }
  match change with
  | .updateTrade trade => { l with trades := put Trade.id l.trades trade }
  | .updateOwnedInstrument owned => { l with owned := put OwnedInstrument.id l.owned owned }
  | .updateBalance balance => { l with balances := put Balance.accountId l.balances balance }
  | .addTrade _ => l
  | .addOwnedInstrument _ => l
  | .addBalanceHistory _ => l

/-- A change concerns the pending rows and the copies only. -/
@[simp] theorem env_write (l : Connection) (change : Change) : (l.write change).env = l.env := by
  cases change <;> rfl

@[simp] theorem tx_write (l : Connection) (change : Change) : (l.write change).tx = l.tx := by
  cases change <;> rfl

@[simp] theorem committed_write (l : Connection) (change : Change) :
    (l.write change).committed = l.committed := by
  cases change <;> rfl

@[simp] theorem sent_write (l : Connection) (change : Change) : (l.write change).sent = l.sent := by
  cases change <;> rfl

@[simp] theorem pending_write (l : Connection) (change : Change) :
    (l.write change).pending = l.pending.write change := by
  cases change <;> rfl

@[simp] theorem reads_write (l : Connection) (change : Change) :
    (l.write change).reads = l.reads := by
  cases change <;> rfl

@[simp] theorem numberings_write (l : Connection) (change : Change) :
    (l.write change).numberings = l.numberings := by
  cases change <;> rfl

@[simp] theorem notified_write (l : Connection) (change : Change) :
    (l.write change).notified = l.notified := by
  cases change <;> rfl

/-- The connection after a save: nothing is pending and new rows are tracked. -/
def flush (l : Connection) (saved : Batch) (numbering : Numbering) : Connection :=
  { l with
    trades := Tracker.track Trade.id l.trades saved.insertedTrades
    owned := Tracker.track OwnedInstrument.id l.owned saved.insertedOwned
    pending := {}
    numberings := l.numberings ++ [numbering] }

end Connection

namespace Server

/-- Identifiers are drawn even by transactions that are never committed. -/
def draw (g : Server) (b : Batch) : Server :=
  { g with tables :=
    { g.tables with
      tradeSeed := g.tables.tradeSeed + b.insertedTrades.length
      ownedSeed := g.tables.ownedSeed + b.insertedOwned.length } }

/-- The server after a transaction is committed. -/
def commit (g : Server) (bs : List Batch) : Server :=
  { g with tables := { g.tables with db := g.tables.db.applyAll bs }, log := g.log ++ bs }

end Server

/-! ## The machine -/

/-- What a command does, with tables that keep decimals in the given column.
`none` is a command that cannot be carried out: a save of a trade with an
identifier of its own, a second transaction, the end of none. -/
def act (c : DecimalColumn) :
    (command : Command) → Connection → Server → Option (Reply command × Connection × Server)
  | .ask q, l, g =>
    let rows := answer l.env (l.view g) q
    some (l.resolve q rows, l.receive q rows, g)
  | .now, l, g => some (l.env.now, l, g)
  | .dbNotResponding, l, g => some (l.env.dbNotResponding, l, g)
  | .write change, l, g => some ((), l.write change, g)
  | .onTradeClosed trade, l, g =>
    some ((), { l with notified := l.notified ++ [trade] },
      { g with notified := g.notified ++ [trade] })
  | .beginTransaction, l, g =>
    if l.tx.isNone then some ((), { l with tx := some [] }, g) else none
  | .saveChanges, l, g =>
    if l.pending.Unnumbered then
      let b := l.pending.number g.tables.tradeSeed g.tables.ownedSeed
      let l' := l.flush b ⟨l.sent, g.tables.tradeSeed, g.tables.ownedSeed⟩
      match l.tx with
      | some bs => some (b, { l' with tx := some (bs ++ [b.store c]) }, g.draw b)
      | none =>
        some (b, { l' with committed := l.committed ++ [b.store c] },
          (g.draw b).commit [b.store c])
    else none
  | .commitTransaction, l, g =>
    l.tx.map fun bs => ((), { l with tx := none, committed := l.committed ++ bs }, g.commit bs)
  | .rollbackTransaction, l, g => l.tx.map fun _ => ((), { l with tx := none }, g)

/-- The broker's machine. -/
def machine (c : DecimalColumn) : Machine Command Reply Exception Connection Server where
  act := act c
  fault := .refused

/-- A program of the broker. -/
abbrev Task := Program Command Reply Exception

/-- Issue a command. -/
def send (command : Command) : Task (Reply command) := Program.perform command

end EasyTrade.Broker
