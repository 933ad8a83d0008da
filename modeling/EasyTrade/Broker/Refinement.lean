import EasyTrade.Broker.Book

/-!
# The connection refines the book

Tracker, rounding columns and uncommitted rows together are worth the exact
tables of the book: as long as the answers a connection gets are those of some
base tables with the connection's own batches on top (`Agrees`), connection and
book stay `Related` and answer every command alike (`act_simulated`). A request
that runs alone gets such answers from the tables it finds (`Alone`), so a call
that returns is a run of the services on the book (`exec_eval`), and what it has
committed are the batches of the book as the columns keep them.
-/

namespace EasyTrade.Broker

open EasyTrade.Store EasyTrade.Ledger EasyTrade.Logic EasyTrade.Store.Tracker

variable {c : DecimalColumn} {base : Tables} {l l' : Connection} {μ μ' : Book} {g g' : Server}

/-- Every answer the connection has got is the one the base tables give once the
connection's own batches are applied. -/
structure Agrees (base : Tables) (l : Connection) : Prop where
  /-- The answers to queries. -/
  reads : ∀ r ∈ l.reads, r.answer = answer l.env (base.db.applyAll r.sent) r.query
  /-- The identifiers drawn. -/
  numberings : ∀ n ∈ l.numberings, n.tradeSeed = (base.applyAll n.sent).tradeSeed ∧
    n.ownedSeed = (base.applyAll n.sent).ownedSeed

/-- The connection stands for the book over the base tables. -/
structure Related (c : DecimalColumn) (base : Tables) (l : Connection) (μ : Book) : Prop where
  env : l.env = μ.env
  pending : l.pending = μ.pending
  transaction : l.tx.isSome = μ.inTransaction
  notified : l.notified = μ.notified
  /-- What was sent are the saves, as the columns keep them. -/
  sent : l.sent = μ.log.map (Batch.store c)
  /-- The saves are all that has changed the tables. -/
  saved : μ.saved = base.applyAll μ.log
  tradeSeed : (base.applyAll l.sent).tradeSeed = μ.saved.tradeSeed
  ownedSeed : (base.applyAll l.sent).ownedSeed = μ.saved.ownedSeed
  valid : μ.saved.Valid
  balances : Aligned Balance.accountId Balance.blank l.balances μ.pending.updatedBalances
    (base.db.applyAll l.sent).balances μ.saved.db.balances
  owned : Aligned OwnedInstrument.id OwnedInstrument.blank l.owned μ.pending.updatedOwned
    (base.db.applyAll l.sent).owned μ.saved.db.owned
  trades : Aligned Trade.id Trade.blank l.trades μ.pending.updatedTrades
    (base.db.applyAll l.sent).trades μ.saved.db.trades

/-- A fresh connection stands for a fresh book. -/
theorem related_start (c : DecimalColumn) (env : Env) (valid : base.Valid) :
    Related c base { env := env } { env := env, saved := base } where
  env := rfl
  pending := rfl
  transaction := rfl
  notified := rfl
  sent := rfl
  saved := rfl
  tradeSeed := rfl
  ownedSeed := rfl
  valid := valid
  balances := .start _
  owned := .start _
  trades := .start _

namespace Related

/-- The copies a connection hands out are the rows of the book. -/
theorem resolve_eq (h : Related c base l μ) (q : Query) :
    l.resolve q (answer l.env (base.db.applyAll l.sent) q) = μ.ask q := by
  have static : (base.db.applyAll l.sent).instruments = μ.saved.db.instruments ∧
      (base.db.applyAll l.sent).products = μ.saved.db.products := by
    rw [h.saved]
    simp
  unfold Connection.resolve Book.ask
  rw [h.env]
  cases q with
  | balanceOfAccount accountId =>
    exact h.balances.find _ fun a b same =>
      (congrArg (fun r : Balance => decide (r.accountId = accountId)) same :)
  | ownedInstrument accountId instrumentId =>
    exact h.owned.find _ fun a b same =>
      (congrArg (fun r : OwnedInstrument =>
        decide (r.accountId = accountId ∧ r.instrumentId = instrumentId)) same :)
  | overdueTrades now =>
    exact Aligned.sorted (h.trades.filter _ fun a b same =>
      congrArg (Trade.isOverdue now) same) fun t => μ.env.rank t.id
  | openTrades =>
    exact Aligned.sorted (h.trades.filter _ fun a b same =>
      congrArg Trade.isOpen same) fun t => μ.env.rank t.id
  | ownedInstrumentsOfAccount accountId =>
    exact Aligned.copies_eq (h.owned.filter _ fun a b same =>
      (congrArg (fun r : OwnedInstrument => decide (r.accountId = accountId)) same :))
  | instrument instrumentId => simp only [Query.resolve, answer, static.1]
  | product productId => simp only [Query.resolve, answer, static.2]
  | instruments => exact static.1
  | products => exact static.2
  | latestPrices => rfl
  | lastPriceByInstrumentId instrumentId => rfl

/-- Keys of the tables as the connection sees them. -/
theorem uniqueBalances (h : Related c base l μ) :
    ((base.db.applyAll l.sent).balances.map Balance.accountId).Nodup := by
  rw [h.balances.keys Balance.accountId fun _ => rfl]
  exact h.valid.balances

theorem uniqueOwned (h : Related c base l μ) :
    ((base.db.applyAll l.sent).owned.map OwnedInstrument.id).Nodup := by
  rw [h.owned.keys OwnedInstrument.id fun _ => rfl]
  exact h.valid.owned

theorem uniqueTrades (h : Related c base l μ) :
    ((base.db.applyAll l.sent).trades.map Trade.id).Nodup := by
  rw [h.trades.keys Trade.id fun _ => rfl]
  exact h.valid.trades

/-- Receiving an answer tracks its rows and leaves the book as it is. -/
theorem receive (h : Related c base l μ) (q : Query) :
    Related c base (l.receive q (answer l.env (base.db.applyAll l.sent) q)) μ := by
  cases q with
  | balanceOfAccount accountId =>
    exact { h with balances := h.balances.attachAll h.uniqueBalances fun row inRow =>
      mem_of_lookup (Option.mem_toList.1 inRow) }
  | ownedInstrument accountId instrumentId =>
    exact { h with owned := h.owned.attachAll h.uniqueOwned fun row inRow =>
      List.mem_of_find?_eq_some (Option.mem_toList.1 inRow) }
  | overdueTrades now =>
    exact { h with trades := h.trades.attachAll h.uniqueTrades fun row inRows =>
      (List.mem_filter.1 ((List.mem_insertionSort _).1 inRows)).1 }
  | openTrades =>
    exact { h with trades := h.trades.attachAll h.uniqueTrades fun row inRows =>
      (List.mem_filter.1 ((List.mem_insertionSort _).1 inRows)).1 }
  | ownedInstrumentsOfAccount accountId =>
    exact { h with owned := h.owned.attachAll h.uniqueOwned fun row inRows =>
      (List.mem_filter.1 inRows).1 }
  | instrument instrumentId => exact { h with }
  | product productId => exact { h with }
  | instruments => exact { h with }
  | products => exact { h with }
  | latestPrices => exact { h with }
  | lastPriceByInstrumentId instrumentId => exact { h with }

/-- A change is made to connection and book alike. -/
theorem write (h : Related c base l μ) (change : Change) :
    Related c base (l.write change) { μ with pending := μ.pending.write change } := by
  have pending : l.pending.write change = μ.pending.write change := by rw [h.pending]
  cases change with
  | addTrade trade => exact { h with pending }
  | updateTrade trade => exact { h with pending, trades := h.trades.put Trade.id (fun _ => rfl) trade }
  | addOwnedInstrument owned => exact { h with pending }
  | updateOwnedInstrument owned =>
    exact { h with pending, owned := h.owned.put OwnedInstrument.id (fun _ => rfl) owned }
  | updateBalance balance =>
    exact { h with pending, balances := h.balances.put Balance.accountId (fun _ => rfl) balance }
  | addBalanceHistory history => exact { h with pending }

/-- The identifiers of a numbered batch are not in the view yet. -/
theorem fresh (h : Related c base l μ) :
    ((μ.batch.insertedTrades.map Trade.id).Nodup ∧
      ∀ k ∈ (base.db.applyAll l.sent).trades.map Trade.id,
        k ∉ μ.batch.insertedTrades.map Trade.id) ∧
    (μ.batch.insertedOwned.map OwnedInstrument.id).Nodup ∧
      ∀ k ∈ (base.db.applyAll l.sent).owned.map OwnedInstrument.id,
        k ∉ μ.batch.insertedOwned.map OwnedInstrument.id := by
  obtain ⟨tradesDistinct, tradesNew⟩ := mapIdx_id Trade.id (fun r n => { r with id := n })
    (fun _ _ => rfl) μ.saved.tradeSeed μ.pending.insertedTrades
  obtain ⟨ownedDistinct, ownedNew⟩ := mapIdx_id OwnedInstrument.id (fun r n => { r with id := n })
    (fun _ _ => rfl) μ.saved.ownedSeed μ.pending.insertedOwned
  rw [h.trades.keys Trade.id fun _ => rfl, h.owned.keys OwnedInstrument.id fun _ => rfl]
  refine ⟨⟨tradesDistinct, fun k inSaved inNews => ?_⟩, ownedDistinct, fun k inSaved inNews => ?_⟩
  · obtain ⟨x, inBatch, same⟩ := List.mem_map.1 inNews
    obtain ⟨r, inTable, sameId⟩ := List.mem_map.1 inSaved
    have below := h.valid.tradeSeed r inTable
    have above := (tradesNew x inBatch).1
    omega
  · obtain ⟨x, inBatch, same⟩ := List.mem_map.1 inNews
    obtain ⟨r, inTable, sameId⟩ := List.mem_map.1 inSaved
    have below := h.valid.ownedSeed r inTable
    have above := (ownedNew x inBatch).1
    omega

/-- A save that draws the identifiers of the book leaves connection and book
related, whether the batch is committed at once or belongs to a transaction. -/
theorem save (h : Related c base l μ) (numbering : Numbering) (tx : Option (List Batch))
    (committed : List Batch) (transaction : tx.isSome = l.tx.isSome)
    (sent : committed ++ tx.getD [] = l.sent ++ [μ.batch.store c]) :
    Related c base { l.flush μ.batch numbering with tx := tx, committed := committed } μ.save := by
  obtain ⟨⟨tradesDistinct, tradesFresh⟩, ownedDistinct, ownedFresh⟩ := h.fresh
  have after : { l.flush μ.batch numbering with tx := tx, committed := committed }.sent =
      l.sent ++ [μ.batch.store c] := sent
  exact {
    env := h.env
    pending := rfl
    transaction := transaction.trans h.transaction
    notified := h.notified
    sent := by rw [after, h.sent, Book.save, List.map_append, List.map_singleton]
    saved := by rw [Book.save, Tables.applyAll_append, ← h.saved, Tables.applyAll_singleton]
    tradeSeed := by
      rw [after, Tables.applyAll_append, Tables.applyAll_singleton, Tables.apply, h.tradeSeed]
      simp [Book.save, Tables.apply, Batch.store]
    ownedSeed := by
      rw [after, Tables.applyAll_append, Tables.applyAll_singleton, Tables.apply, h.ownedSeed]
      simp [Book.save, Tables.apply, Batch.store]
    valid := h.valid.apply_number _
    balances := by
      rw [after, Database.applyAll_append]
      exact h.balances.save Balance.accountId (fun _ => rfl) (Balance.store c) fun _ => rfl
    owned := by
      rw [after, Database.applyAll_append]
      refine (h.owned.save OwnedInstrument.id (fun _ => rfl) (OwnedInstrument.store c)
        fun _ => rfl).insert OwnedInstrument.id (fun _ => rfl) (OwnedInstrument.store c)
        (fun _ => rfl) ownedDistinct ?_
      rw [map_key_overwrite]
      exact ownedFresh
    trades := by
      rw [after, Database.applyAll_append]
      refine (h.trades.save Trade.id (fun _ => rfl) (Trade.store c) fun _ => rfl).insert Trade.id
        (fun _ => rfl) (Trade.store c) (fun _ => rfl) tradesDistinct ?_
      rw [map_key_overwrite]
      exact tradesFresh }

/-- Beginning or committing a transaction sends nothing. -/
theorem transact (h : Related c base l μ) (tx : Option (List Batch)) (committed : List Batch)
    (sent : committed ++ tx.getD [] = l.sent) :
    Related c base { l with tx := tx, committed := committed }
      { μ with inTransaction := tx.isSome } := by
  have same : { l with tx := tx, committed := committed }.sent = l.sent := sent
  exact {
    h with
    transaction := rfl
    sent := same.trans h.sent
    tradeSeed := by rw [same]; exact h.tradeSeed
    ownedSeed := by rw [same]; exact h.ownedSeed
    balances := by rw [same]; exact h.balances
    owned := by rw [same]; exact h.owned
    trades := by rw [same]; exact h.trades }

end Related

/-- The commands a request issues before anything is refused. -/
def Forward (command : Command) : Prop := command ≠ .rollbackTransaction

/-- The book answers as the connection does, and they stay related. -/
theorem act_simulated {command : Command} {reply : Reply command} (h : Related c base l μ)
    (forward : Forward command) (acted : act c command l g = some (reply, l', g'))
    (agrees : Agrees base l') : ∃ μ', Book.act command μ = some (reply, μ') ∧
      Related c base l' μ' := by
  cases command with
  | ask q =>
    cases acted
    have given : answer l.env (l.view g) q = answer l.env (base.db.applyAll l.sent) q := by
      simpa using agrees.reads ⟨l.sent, q, answer l.env (l.view g) q⟩
        (List.mem_append_right _ List.mem_cons_self)
    rw [given]
    exact ⟨μ, by rw [h.resolve_eq]; rfl, h.receive q⟩
  | now =>
    cases acted
    exact ⟨μ, by rw [h.env]; rfl, h⟩
  | dbNotResponding =>
    cases acted
    exact ⟨μ, by rw [h.env]; rfl, h⟩
  | write change =>
    cases acted
    exact ⟨_, rfl, h.write change⟩
  | onTradeClosed trade =>
    cases acted
    exact ⟨_, rfl, { h with notified := by rw [h.notified] }⟩
  | beginTransaction =>
    simp only [act] at acted
    split at acted
    · rename_i outside
      cases acted
      have none : l.tx = none := Option.isNone_iff_eq_none.1 outside
      have closed : μ.inTransaction = false := by rw [← h.transaction, none]; rfl
      exact ⟨_, by rw [Book.act, closed]; rfl, h.transact (some []) l.committed (by
        rw [Connection.sent, none, Option.getD_some, Option.getD_none])⟩
    · cases acted
  | saveChanges =>
    simp only [act] at acted
    split at acted
    · rename_i unnumbered
      have accepted : μ.pending.Unnumbered := h.pending ▸ unnumbered
      have numbers : g.tables.tradeSeed = μ.saved.tradeSeed ∧
          g.tables.ownedSeed = μ.saved.ownedSeed := by
        have drawn : ∀ n ∈ l'.numberings, n = ⟨l.sent, g.tables.tradeSeed, g.tables.ownedSeed⟩ →
            g.tables.tradeSeed = μ.saved.tradeSeed ∧ g.tables.ownedSeed = μ.saved.ownedSeed := by
          rintro n inList rfl
          have recorded := agrees.numberings _ inList
          exact ⟨recorded.1.trans h.tradeSeed, recorded.2.trans h.ownedSeed⟩
        refine drawn _ ?_ rfl
        split at acted <;> cases acted <;>
          exact List.mem_append_right _ List.mem_cons_self
      have batch : l.pending.number g.tables.tradeSeed g.tables.ownedSeed = μ.batch := by
        rw [h.pending, numbers.1, numbers.2]
        rfl
      rw [batch] at acted
      split at acted
      · rename_i bs opened
        cases acted
        exact ⟨μ.save, by rw [Book.act, if_pos accepted], h.save _ (some (bs ++ [_])) l.committed
          (by rw [opened]; rfl) (by simp [Connection.sent, opened])⟩
      · rename_i outside
        cases acted
        exact ⟨μ.save, by rw [Book.act, if_pos accepted], h.save _ l.tx _
          rfl (by simp [Connection.sent, outside])⟩
    · cases acted
  | commitTransaction =>
    simp only [act, Option.map_eq_some_iff] at acted
    obtain ⟨bs, opened, acted⟩ := acted
    cases acted
    have isOpen : μ.inTransaction = true := by rw [← h.transaction, opened]; rfl
    exact ⟨_, by rw [Book.act, isOpen]; rfl, h.transact none (l.committed ++ bs) (by
      simp [Connection.sent, opened])⟩
  | rollbackTransaction => exact absurd rfl forward

/-- What the connection cannot carry out, the book cannot either. -/
theorem act_refused {command : Command} (h : Related c base l μ) (forward : Forward command)
    (refused : act c command l g = none) : Book.act command μ = none := by
  cases command with
  | ask q => cases refused
  | now => cases refused
  | dbNotResponding => cases refused
  | write change => cases refused
  | onTradeClosed trade => cases refused
  | beginTransaction =>
    simp only [act] at refused
    split at refused
    · cases refused
    · rename_i inside
      have isOpen : μ.inTransaction = true := by
        rw [← h.transaction, Option.isSome_iff_ne_none]
        simpa using inside
      rw [Book.act, if_pos isOpen]
  | saveChanges =>
    simp only [act] at refused
    split at refused
    · split at refused <;> cases refused
    · rename_i numbered
      rw [Book.act, if_neg (h.pending ▸ numbered)]
  | commitTransaction =>
    simp only [act, Option.map_eq_none_iff] at refused
    have closed : μ.inTransaction = false := by
      rw [← h.transaction, refused]
      rfl
    rw [Book.act, closed]
    rfl
  | rollbackTransaction => exact absurd rfl forward

/-! ## Running alone -/

/-- Nobody but this connection has changed the server. -/
structure Alone (g₀ : Server) (l : Connection) (g : Server) : Prop where
  /-- The committed tables. -/
  db : g.tables.db = g₀.tables.db.applyAll l.committed
  /-- The committed batches. -/
  log : g.log = g₀.log ++ l.committed
  /-- The reports to the engine. -/
  notified : g.notified = g₀.notified ++ l.notified

/-- Nobody but this connection has drawn identifiers or answered it. -/
structure Exact (g₀ : Server) (l : Connection) (g : Server) : Prop extends Alone g₀ l g where
  /-- The next trade. -/
  tradeSeed : g.tables.tradeSeed = (g₀.tables.applyAll l.sent).tradeSeed
  /-- The next holding. -/
  ownedSeed : g.tables.ownedSeed = (g₀.tables.applyAll l.sent).ownedSeed
  /-- The answers are those of the tables found. -/
  agrees : Agrees g₀.tables l

variable {g₀ : Server}

/-- A fresh connection has changed nothing. -/
theorem exact_start (env : Env) (g₀ : Server) : Exact g₀ { env := env } g₀ where
  db := rfl
  log := (List.append_nil _).symm
  notified := (List.append_nil _).symm
  tradeSeed := rfl
  ownedSeed := rfl
  agrees := ⟨fun _ absent => absurd absent List.not_mem_nil,
    fun _ absent => absurd absent List.not_mem_nil⟩

/-- What a connection commits is what changes the server. -/
theorem Alone.act {command : Command} {reply : Reply command} (h : Alone g₀ l g)
    (acted : act c command l g = some (reply, l', g')) : Alone g₀ l' g' := by
  cases command with
  | ask q =>
    cases acted
    exact ⟨by simpa using h.db, by simpa using h.log, by simpa using h.notified⟩
  | now => cases acted; exact h
  | dbNotResponding => cases acted; exact h
  | write change =>
    cases acted
    exact ⟨by simpa using h.db, by simpa using h.log, by simpa using h.notified⟩
  | onTradeClosed trade =>
    cases acted
    exact ⟨h.db, h.log, by rw [h.notified, List.append_assoc]⟩
  | beginTransaction =>
    simp only [Broker.act] at acted
    split at acted <;> cases acted
    exact ⟨h.db, h.log, h.notified⟩
  | saveChanges =>
    simp only [Broker.act] at acted
    split at acted
    · split at acted <;> cases acted
      · exact ⟨h.db, h.log, h.notified⟩
      · refine ⟨?_, ?_, h.notified⟩
        · simp [Server.commit, Server.draw, h.db]
        · simp [Server.commit, Server.draw, h.log]
    · cases acted
  | commitTransaction =>
    simp only [Broker.act, Option.map_eq_some_iff] at acted
    obtain ⟨bs, opened, acted⟩ := acted
    cases acted
    refine ⟨?_, ?_, h.notified⟩
    · simp [Server.commit, h.db]
    · simp [Server.commit, h.log]
  | rollbackTransaction =>
    simp only [Broker.act, Option.map_eq_some_iff] at acted
    obtain ⟨bs, opened, acted⟩ := acted
    cases acted
    exact ⟨h.db, h.log, h.notified⟩

/-- What the connection sees are the tables it found and its own batches. -/
theorem Alone.view (h : Alone g₀ l g) : l.view g = g₀.tables.db.applyAll l.sent := by
  rw [Connection.view, h.db, Connection.sent, Database.applyAll_append]

/-- A command that asks and sends nothing keeps the answers. -/
theorem Exact.quiet (h : Exact g₀ l g) (alone : Alone g₀ l' g') (env : l'.env = l.env)
    (sent : l'.sent = l.sent) (reads : l'.reads = l.reads)
    (numberings : l'.numberings = l.numberings)
    (tradeSeed : g'.tables.tradeSeed = g.tables.tradeSeed)
    (ownedSeed : g'.tables.ownedSeed = g.tables.ownedSeed) : Exact g₀ l' g' := by
  refine ⟨alone, ?_, ?_, ⟨?_, ?_⟩⟩
  · rw [tradeSeed, sent, h.tradeSeed]
  · rw [ownedSeed, sent, h.ownedSeed]
  · rw [reads, env]
    exact h.agrees.reads
  · rw [numberings]
    exact h.agrees.numberings

/-- A save draws the next identifiers and sends its batch. -/
theorem Exact.save (h : Exact g₀ l g) (alone : Alone g₀ l' g') (b : Batch) (env : l'.env = l.env)
    (sent : l'.sent = l.sent ++ [b.store c]) (reads : l'.reads = l.reads)
    (numberings : l'.numberings =
      l.numberings ++ [⟨l.sent, g.tables.tradeSeed, g.tables.ownedSeed⟩])
    (tradeSeed : g'.tables.tradeSeed = g.tables.tradeSeed + b.insertedTrades.length)
    (ownedSeed : g'.tables.ownedSeed = g.tables.ownedSeed + b.insertedOwned.length) :
    Exact g₀ l' g' := by
  refine ⟨alone, ?_, ?_, ⟨?_, ?_⟩⟩
  · rw [tradeSeed, sent, Tables.applyAll_append, Tables.applyAll_singleton, Tables.apply,
      h.tradeSeed]
    simp [Batch.store]
  · rw [ownedSeed, sent, Tables.applyAll_append, Tables.applyAll_singleton, Tables.apply,
      h.ownedSeed]
    simp [Batch.store]
  · rw [reads, env]
    exact h.agrees.reads
  · rw [numberings]
    intro n inList
    rcases List.mem_append.1 inList with old | new
    · exact h.agrees.numberings n old
    · cases List.mem_singleton.1 new
      exact ⟨h.tradeSeed, h.ownedSeed⟩

/-- Until something is rolled back, the answers are those of the tables found. -/
theorem Exact.act {command : Command} {reply : Reply command} (h : Exact g₀ l g)
    (forward : Forward command) (acted : act c command l g = some (reply, l', g')) :
    Exact g₀ l' g' := by
  have alone := h.toAlone.act acted
  cases command with
  | ask q =>
    cases acted
    refine ⟨alone, by simpa using h.tradeSeed, by simpa using h.ownedSeed, ⟨?_, ?_⟩⟩
    · intro r inReads
      rcases List.mem_append.1 inReads with old | new
      · simpa using h.agrees.reads r old
      · cases List.mem_singleton.1 new
        simp [h.toAlone.view]
    · simpa using h.agrees.numberings
  | now => cases acted; exact h
  | dbNotResponding => cases acted; exact h
  | write change => cases acted; exact h.quiet alone (by simp) (by simp) (by simp) (by simp) rfl rfl
  | onTradeClosed trade => cases acted; exact h.quiet alone rfl rfl rfl rfl rfl rfl
  | beginTransaction =>
    simp only [Broker.act] at acted
    split at acted <;> cases acted
    rename_i outside
    have none : l.tx = none := Option.isNone_iff_eq_none.1 outside
    exact h.quiet alone rfl (by simp [Connection.sent, none]) rfl rfl rfl rfl
  | saveChanges =>
    simp only [Broker.act] at acted
    split at acted
    · split at acted
      · rename_i bs opened
        cases acted
        exact h.save (c := c) alone _ rfl (by simp [Connection.sent, Connection.flush, opened]) rfl rfl rfl rfl
      · rename_i outside
        cases acted
        exact h.save (c := c) alone _ rfl (by simp [Connection.sent, Connection.flush, outside]) rfl rfl rfl rfl
    · cases acted
  | commitTransaction =>
    simp only [Broker.act, Option.map_eq_some_iff] at acted
    obtain ⟨bs, opened, acted⟩ := acted
    cases acted
    exact h.quiet alone rfl (by simp [Connection.sent, opened]) rfl rfl rfl rfl
  | rollbackTransaction => exact absurd rfl forward

/-- Running alone, the connection is simulated by the book. -/
theorem machine_simulated (c : DecimalColumn) (g₀ : Server) :
    Program.Simulates (machine c) Book.act Forward fun l g μ =>
      Exact g₀ l g ∧ Related c g₀.tables l μ := by
  intro command l g μ reply l' g' forward related acted
  have exact' := related.1.act forward acted
  obtain ⟨μ', answered, related'⟩ := act_simulated related.2 forward acted exact'.agrees
  exact ⟨μ', answered, exact', related'⟩

end EasyTrade.Broker
