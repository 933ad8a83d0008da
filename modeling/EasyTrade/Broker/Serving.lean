import EasyTrade.Broker.Rules

/-!
# What a call leaves behind

A call that throws has committed nothing. A call that returns has committed the
batches of its run on the book, as the columns keep them, in one transaction. So
the committed tables after a call are those before it or those with all of its
effects, wherever the call was cut off.
-/

namespace EasyTrade.Broker

open EasyTrade.Ledger EasyTrade.Logic EasyTrade.Logic.Program

variable {c : DecimalColumn} {g g' g₀ : Server} {l l' : Connection}

/-- Identifiers are only drawn, never given back. -/
structure Draws (g g' : Server) : Prop where
  tradeSeed : g.tables.tradeSeed ≤ g'.tables.tradeSeed
  ownedSeed : g.tables.ownedSeed ≤ g'.tables.ownedSeed

theorem draws_act {command : Command} {reply : Reply command} (h : Draws g₀ g)
    (acted : act c command l g = some (reply, l', g')) : Draws g₀ g' := by
  cases command with
  | ask q => cases acted; exact h
  | now => cases acted; exact h
  | dbNotResponding => cases acted; exact h
  | write change => cases acted; exact h
  | onTradeClosed trade => cases acted; exact ⟨h.tradeSeed, h.ownedSeed⟩
  | beginTransaction =>
    simp only [act] at acted
    split at acted <;> cases acted
    exact h
  | saveChanges =>
    have drawn : ∀ b : Batch, Draws g₀ (g.draw b) := fun b => by
      have trade := h.tradeSeed
      have owned := h.ownedSeed
      constructor <;> simp only [Server.draw] <;> omega
    simp only [act] at acted
    split at acted
    · split at acted <;> cases acted
      · exact drawn _
      · exact ⟨(drawn _).tradeSeed, (drawn _).ownedSeed⟩
    · cases acted
  | commitTransaction =>
    simp only [act, Option.map_eq_some_iff] at acted
    obtain ⟨bs, opened, acted⟩ := acted
    cases acted
    exact ⟨h.tradeSeed, h.ownedSeed⟩
  | rollbackTransaction =>
    simp only [act, Option.map_eq_some_iff] at acted
    obtain ⟨bs, opened, acted⟩ := acted
    cases acted
    exact h

/-- Every call keeps the rules to its end, and the server has what it has committed. -/
theorem Call.ends (c : DecimalColumn) (call : Call) (g : Server) :
    Ends (rules False False) (fun _ l => l.tx = none) (call.exec c g) ∧
      Alone g (call.exec c g).2.1 (call.exec c g).2.2 ∧ Draws g (call.exec c g).2.2 :=
  exec_of_holds (k := rules False False) (fun l g' => Alone g l g' ∧ Draws g g')
    (fun _ _ _ _ _ _ _ inv acted => ⟨inv.1.act acted, draws_act inv.2 acted⟩)
    (fun _ _ _ => ⟨False.elim, False.elim⟩) call.refuses (handle_holds call.request rfl rfl)
    ⟨(exact_start call.env g).toAlone, le_refl _, le_refl _⟩

/-- A call that throws leaves the committed tables and the log as they were. -/
theorem serve_of_error {call : Call} {e : Exception} (failed : (call.exec c g).1 = .error e) :
    (serve c g call).tables.db = g.tables.db ∧ (serve c g call).log = g.log ∧
      Draws g (serve c g call) := by
  obtain ⟨ends, alone, draws⟩ := call.ends c g
  have nothing : (call.exec c g).2.1.committed = [] := by
    revert failed ends
    match call.exec c g with
    | (.error _, _, _) => exact fun _ ends => ends
    | (.ok _, _, _) => exact nofun
  refine ⟨?_, ?_, draws⟩
  · rw [serve, alone.db, nothing, Database.applyAll_nil]
  · rw [serve, alone.log, nothing, List.append_nil]

/-- What a call that returns has done: the saves of its run on the book. -/
structure Served (c : DecimalColumn) (g : Server) (call : Call) (response : Response) (μ : Book) :
    Prop where
  /-- The run on the book. -/
  eval : call.request.eval call.env g.tables = .ok (response, μ)
  /-- The committed tables. -/
  db : (serve c g call).tables.db = g.tables.db.applyAll (μ.log.map (Batch.store c))
  /-- The next trade. -/
  tradeSeed : (serve c g call).tables.tradeSeed = μ.saved.tradeSeed
  /-- The next holding. -/
  ownedSeed : (serve c g call).tables.ownedSeed = μ.saved.ownedSeed
  /-- The committed batches. -/
  log : (serve c g call).log = g.log ++ μ.log.map (Batch.store c)
  /-- The reports to the engine. -/
  notified : (serve c g call).notified = g.notified ++ μ.notified
  /-- The tables of the book are those found and its saves. -/
  saved : μ.saved = g.tables.applyAll μ.log
  /-- The tables of the book have their keys. -/
  valid : μ.saved.Valid

/-- A call that returns has committed the saves of its run on the book. -/
theorem serve_of_ok {call : Call} (valid : g.tables.Valid) {response : Response}
    (ok : (call.exec c g).1 = .ok response) : ∃ μ, Served c g call response μ := by
  obtain ⟨μ, evaluated, exact', related⟩ := call.eval_of_ok valid ok
  obtain ⟨ends, -, -⟩ := call.ends c g
  have ended : (call.exec c g).2.1.tx = none := by
    revert ok ends
    match call.exec c g with
    | (.ok _, _, _) => exact fun _ ends => ends
    | (.error _, _, _) => exact nofun
  have sent : (call.exec c g).2.1.committed = μ.log.map (Batch.store c) := by
    rw [← related.sent, Connection.sent, ended, Option.getD_none, List.append_nil]
  exact ⟨μ, {
    eval := evaluated
    db := by rw [serve, exact'.db, sent]
    tradeSeed := by rw [serve, exact'.tradeSeed, related.tradeSeed]
    ownedSeed := by rw [serve, exact'.ownedSeed, related.ownedSeed]
    log := by rw [serve, exact'.log, sent]
    notified := by rw [serve, exact'.notified, related.notified]
    saved := related.saved
    valid := related.valid }⟩

/-- The run of a task alone, with nothing refused. -/
def Task.run {α : Type} (p : Task α) (c : DecimalColumn) (env : Env) (g : Server) :
    Except Exception α × Connection × Server :=
  Program.exec (machine c) p (fun _ => false) { env := env } g

/-- A run on the book that ends outside of a transaction is the run of the task, and the
server has its saves. -/
theorem Task.run_of_eval {α : Type} {p : Task α} {env : Env} {a : α} {μ : Book}
    (disciplined : p.Disciplined) (valid : g.tables.Valid)
    (ok : p.eval Book.act .refused { env := env, saved := g.tables } = .ok (a, μ))
    (ended : μ.inTransaction = false) :
    (p.run c env g).1 = .ok a ∧
      (p.run c env g).2.2.tables.db = g.tables.db.applyAll (μ.log.map (Batch.store c)) := by
  have start := And.intro (exact_start env g) (related_start c env valid)
  have returns : (p.run c env g).1 = .ok a :=
    disciplined.eval_simulated (machine_simulated c g)
      (fun _ _ _ _ forward related refused => act_refused related.2 forward refused) start ok
  obtain ⟨μ', evaluated, exact', related⟩ :=
    disciplined.exec_simulated (machine_simulated c g) start returns
  obtain ⟨-, rfl⟩ := Prod.mk.inj (Except.ok.inj (ok.symm.trans evaluated))
  have closed : (p.run c env g).2.1.tx = none := by
    have transaction := related.transaction
    rw [ended] at transaction
    exact Option.isSome_eq_false_iff.mp transaction |> Option.isNone_iff_eq_none.mp
  have sent : (p.run c env g).2.1.committed = μ.log.map (Batch.store c) := by
    have all := related.sent
    rw [Connection.sent] at all
    change (p.run c env g).2.1.committed ++ (p.run c env g).2.1.tx.getD [] = _ at all
    rwa [closed, Option.getD_none, List.append_nil] at all
  have db := exact'.db
  refine ⟨returns, ?_⟩
  rw [← sent]
  exact db

/-- Storing a batch keeps the keys of its rows. -/
theorem keys_applyAll_store (c : DecimalColumn) (bs : List Batch) (db db' : Database)
    (balances : db.balances.map Balance.accountId = db'.balances.map Balance.accountId)
    (trades : db.trades.map Trade.id = db'.trades.map Trade.id)
    (owned : db.owned.map OwnedInstrument.id = db'.owned.map OwnedInstrument.id) :
    (db.applyAll (bs.map (Batch.store c))).balances.map Balance.accountId =
        (db'.applyAll bs).balances.map Balance.accountId ∧
      (db.applyAll (bs.map (Batch.store c))).trades.map Trade.id =
        (db'.applyAll bs).trades.map Trade.id ∧
      (db.applyAll (bs.map (Batch.store c))).owned.map OwnedInstrument.id =
        (db'.applyAll bs).owned.map OwnedInstrument.id := by
  induction bs generalizing db db' with
  | nil => exact ⟨balances, trades, owned⟩
  | cons b bs ih =>
    refine ih _ _ ?_ ?_ ?_
    · simpa only [Database.apply, Store.map_key_overwrite] using balances
    · simp only [Database.apply, Store.map_key_overwrite, List.map_append, trades, Batch.store,
        List.map_map]
      rfl
    · simp only [Database.apply, Store.map_key_overwrite, List.map_append, owned, Batch.store,
        List.map_map]
      rfl

/-- Calls keep the keys of the tables. -/
theorem serve_valid (c : DecimalColumn) (call : Call) (valid : g.tables.Valid) :
    (serve c g call).tables.Valid := by
  cases outcome : (call.exec c g).1 with
  | error e =>
    obtain ⟨same, -, draws⟩ := serve_of_error outcome
    refine ⟨by rw [same]; exact valid.balances, by rw [same]; exact valid.trades,
      by rw [same]; exact valid.owned, fun r inTrades => ?_, fun r inOwned => ?_⟩
    · rw [same] at inTrades
      exact lt_of_lt_of_le (valid.tradeSeed r inTrades) draws.tradeSeed
    · rw [same] at inOwned
      exact lt_of_lt_of_le (valid.ownedSeed r inOwned) draws.ownedSeed
  | ok response =>
    obtain ⟨μ, served⟩ := serve_of_ok valid outcome
    obtain ⟨balances, trades, owned⟩ := keys_applyAll_store c μ.log _ _ rfl rfl rfl
    rw [← served.db, ← Tables.db_applyAll, ← served.saved] at balances trades owned
    refine ⟨by rw [balances]; exact served.valid.balances, by rw [trades]; exact served.valid.trades,
      by rw [owned]; exact served.valid.owned, fun r inTrades => ?_, fun r inOwned => ?_⟩
    · have inSaved : r.id ∈ μ.saved.db.trades.map Trade.id := trades ▸ List.mem_map_of_mem inTrades
      obtain ⟨x, inTable, same⟩ := List.mem_map.1 inSaved
      rw [served.tradeSeed, ← same]
      exact served.valid.tradeSeed x inTable
    · have inSaved : r.id ∈ μ.saved.db.owned.map OwnedInstrument.id :=
        owned ▸ List.mem_map_of_mem inOwned
      obtain ⟨x, inTable, same⟩ := List.mem_map.1 inSaved
      rw [served.ownedSeed, ← same]
      exact served.valid.ownedSeed x inTable

/-- What the server promises after any number of calls, if each call keeps it. -/
theorem serveAll_invariant {P : Server → Prop} {Q : Server → Call → Prop}
    (step : ∀ g call, g.tables.Valid → P g → Q g call → P (serve c g call)) (calls : List Call)
    (valid : g.tables.Valid) (start : P g)
    (each : ∀ before call after, calls = before ++ call :: after → Q (serveAll c g before) call) :
    P (serveAll c g calls) := by
  induction calls generalizing g with
  | nil => exact start
  | cons call rest ih =>
    refine ih (serve_valid c call valid) (step g call valid start (each [] call rest rfl)) ?_
    intro before call' after split
    exact each (call :: before) call' after (by rw [split, List.cons_append])

/-- Any number of calls keeps the keys of the tables. -/
theorem serveAll_valid (c : DecimalColumn) (calls : List Call) (valid : g.tables.Valid) :
    (serveAll c g calls).tables.Valid :=
  serveAll_invariant (P := fun g => g.tables.Valid) (Q := fun _ _ => True)
    (fun _ call valid _ _ => serve_valid c call valid) calls valid valid fun _ _ _ _ => trivial

theorem serveAll_append (c : DecimalColumn) (g : Server) (calls more : List Call) :
    serveAll c g (calls ++ more) = serveAll c (serveAll c g calls) more := List.foldl_append ..

/-! ## All or nothing -/

/-- The call with nothing refused from outside. -/
def Call.undisturbed (call : Call) : Call := { call with refuses := fun _ => false }

/-- Wherever a call is cut off, the committed tables and the log are those before it,
or they are those the undisturbed call leaves, and that call returns. -/
theorem serve_all_or_nothing (c : DecimalColumn) (call : Call) (g : Server) :
    ((serve c g call).tables.db = g.tables.db ∧ (serve c g call).log = g.log) ∨
      ((∃ response, (call.undisturbed.exec c g).1 = .ok response) ∧
        (serve c g call).tables.db = (serve c g call.undisturbed).tables.db ∧
        (serve c g call).log = (serve c g call.undisturbed).log) := by
  cases outcome : (call.exec c g).1 with
  | error e =>
    obtain ⟨db, log, -⟩ := serve_of_error outcome
    exact .inl ⟨db, log⟩
  | ok response =>
    have same : call.undisturbed.exec c g = call.exec c g := Call.exec_undisturbed outcome
    refine .inr ⟨⟨response, by rw [same, outcome]⟩, ?_, ?_⟩
    · rw [serve, serve, same]
    · rw [serve, serve, same]

/-! ## A small market -/

namespace Market

/-- The candle of the one instrument of the market. -/
def candle : Price := ⟨1, 0, 10, 12, 9, 11⟩

/-- What a request finds outside the market. -/
def env : Env where
  now := 1000
  latestPrices := [candle]
  lastPrice instrumentId := if instrumentId = 1 then some candle else none
  rank _ := 0
  dbNotResponding := false

/-- A market of the owner and two traders, with one instrument and a fee of five. -/
def server : Server where
  tables :=
    { db :=
        { balances := [⟨1, 0⟩, ⟨2, 1000⟩, ⟨3, 500⟩]
          history := []
          owned := []
          trades := []
          instruments := [⟨1, 1, "ETRAVE", "EasyTravel", "Travel agency"⟩]
          products := [⟨1, "Share", 5, "USD"⟩] }
      tradeSeed := 1
      ownedSeed := 1 }

theorem valid : server.tables.Valid := ⟨by decide, by decide, by decide, List.forall_mem_nil _, List.forall_mem_nil _⟩

/-- A call of the market with nothing refused. -/
def call (request : Request) : Call := ⟨env, fun _ => false, request⟩

/-- A deposit of the first trader. -/
def deposit : Call := call (.deposit 2 100)

/-- A purchase of the first trader. -/
def purchase : Call := call (.buyAssets 2 1 3)

/-- A day of the first trader: a deposit, a purchase, a sale that waits for its price,
and a pass over it. -/
def day : List Call :=
  [deposit, purchase, call (.longSellAssets 2 1 1 24 12), call .processLongRunningTransactions]

end Market

end EasyTrade.Broker
