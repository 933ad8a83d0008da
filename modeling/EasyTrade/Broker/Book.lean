import EasyTrade.Broker.Services

/-!
# The book

The ideal the connection has to live up to: exact tables with no tracker, no
rounding and nobody else, on which the same services run as pure functions. A
`Book` has the saved tables and the changes since the last save; a query sees
the saved rows, changed by the pending ones.
-/

namespace EasyTrade.Broker

open EasyTrade.Store EasyTrade.Ledger EasyTrade.Logic

/-- The ideal state of one request. -/
structure Book where
  /-- What the request finds outside the database. -/
  env : Env
  /-- The tables with all saves so far. -/
  saved : Tables
  /-- The changes since the last save. -/
  pending : Batch := {}
  /-- The saves so far. -/
  log : List Batch := []
  /-- Whether a transaction is open. -/
  inTransaction : Bool := false
  /-- The trades reported closed. -/
  notified : List Trade := []

namespace Book

/-- The answer with the pending row for a changed one. -/
def ask (μ : Book) (q : Query) : q.Answer :=
  q.resolve μ.pending.updatedBalances μ.pending.updatedOwned μ.pending.updatedTrades
    (answer μ.env μ.saved.db q)

/-- The pending rows with their identifiers. -/
def batch (μ : Book) : Batch := μ.pending.number μ.saved.tradeSeed μ.saved.ownedSeed

/-- The book after a save. -/
def save (μ : Book) : Book :=
  { μ with saved := μ.saved.apply μ.batch, pending := {}, log := μ.log ++ [μ.batch] }

/-- What a command does to the book. -/
def act : (command : Command) → Book → Option (Reply command × Book)
  | .ask q, μ => some (μ.ask q, μ)
  | .now, μ => some (μ.env.now, μ)
  | .dbNotResponding, μ => some (μ.env.dbNotResponding, μ)
  | .write change, μ => some ((), { μ with pending := μ.pending.write change })
  | .onTradeClosed trade, μ => some ((), { μ with notified := μ.notified ++ [trade] })
  | .beginTransaction, μ =>
    if μ.inTransaction then none else some ((), { μ with inTransaction := true })
  | .saveChanges, μ => if μ.pending.Unnumbered then some (μ.batch, μ.save) else none
  | .commitTransaction, μ =>
    if μ.inTransaction then some ((), { μ with inTransaction := false }) else none
  | .rollbackTransaction, μ =>
    if μ.inTransaction then some ((), { μ with inTransaction := false }) else none

/-- The outcome of a program on the book. -/
def eval {α : Type} (p : Task α) (μ : Book) : Except Exception (α × Book) :=
  Program.eval act .refused p μ

end Book

/-! ## Serving requests one after another -/

/-- One call of the broker: what it finds outside the database, which of its
commands are refused from outside, and the request. -/
structure Call where
  /-- What the request finds outside the database. -/
  env : Env
  /-- Whether its `n`-th command is refused. -/
  refuses : Nat → Bool
  /-- The request. -/
  request : Request

/-- The run of a call alone: the outcome, its connection and the server after it. -/
def Call.exec (c : DecimalColumn) (call : Call) (g : Server) :
    Except Exception Response × Connection × Server :=
  Program.exec (machine c) (handle call.request) call.refuses { env := call.env } g

/-- The server after a call. -/
def serve (c : DecimalColumn) (g : Server) (call : Call) : Server := (call.exec c g).2.2

/-- The server after a sequence of calls, one after another. -/
def serveAll (c : DecimalColumn) (g : Server) (calls : List Call) : Server :=
  calls.foldl (serve c) g

@[simp] theorem serveAll_nil (c : DecimalColumn) (g : Server) : serveAll c g [] = g := rfl

@[simp] theorem serveAll_cons (c : DecimalColumn) (g : Server) (call : Call) (calls : List Call) :
    serveAll c g (call :: calls) = serveAll c (serve c g call) calls := rfl

/-- The ideal outcome of a request on the given tables. -/
def Request.eval (env : Env) (tables : Tables) (request : Request) :
    Except Exception (Response × Book) :=
  Book.eval (handle request) { env := env, saved := tables }

end EasyTrade.Broker
