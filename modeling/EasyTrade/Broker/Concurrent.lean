import EasyTrade.Broker.Serving

/-!
# Concurrent requests

Any number of requests at one server, each on a connection of its own. What the rules of a
request assume of the tables holds in any company: no identifier is drawn twice. So an identifier
means one account and one instrument wherever a holding with it is found, and one trade.
-/

namespace EasyTrade.Broker

open EasyTrade.Store EasyTrade.Ledger EasyTrade.Logic

variable {ι : Type} {c : DecimalColumn} {g g' : Server} {l l' : Connection}

/-- The requests before their first command. -/
def start (requests : ι → Request) (envs : ι → Env) (g : Server) :
    System ι Command Reply Exception Response Connection Server where
  threads i := ⟨handle (requests i), { env := envs i }⟩
  shared := g

/-- Every request keeps the rules in any company. -/
theorem start_safe (c : DecimalColumn) (byTrade byHolding : Prop) (requests : ι → Request)
    (envs : ι → Env) (g : Server) (i : ι) : ((start requests envs g).threads i).Safe (machine c)
      (rules byTrade byHolding) fun _ l => l.tx = none :=
  handle_holds (requests i) rfl rfl

/-! ## Identifiers of holdings -/

/-- The registry has nothing to say of identifiers to come. -/
def Fresh (registry : Int → Option (Int × Int)) (g : Server) : Prop :=
  ∀ id, g.tables.ownedSeed ≤ id → registry id = none

/-- One registry says more than the other. -/
def Extends (registry registry' : Int → Option (Int × Int)) : Prop :=
  ∀ id pair, registry id = some pair → registry' id = some pair

variable {registry registry' : Int → Option (Int × Int)}

/-- Where a connection keeps its holdings and the committed ones are registered anyway, it
does not matter what others do. -/
theorem Registered.extend (registered : Registered registry l g) (more : Extends registry registry')
    (db : ∀ r ∈ g'.tables.db.owned, registry' r.id = some r.pair) : Registered registry' l g' where
  db := db
  copies r tracked := more _ _ (registered.copies r tracked)
  pending r changed := more _ _ (registered.pending r changed)
  sent b inList r written := more _ _ (registered.sent b inList r written)

/-- Tracking registered rows. -/
theorem Registered.receive (registered : Registered registry l g) (q : Query) :
    Registered registry (l.receive q (answer l.env (l.view g) q)) g := by
  have tracks : ∀ rows : List OwnedInstrument, (∀ r ∈ rows, r ∈ (l.view g).owned) →
      ∀ r ∈ Tracker.attachAll OwnedInstrument.id l.owned rows, registry r.id = some r.pair := by
    intro rows inView r tracked
    rcases Tracker.mem_attachAll tracked with old | new
    · exact registered.copies r old
    · exact registered.view r (inView r new)
  cases q with
  | ownedInstrument accountId instrumentId =>
    exact { registered with copies := tracks _ fun r found =>
      List.mem_of_find?_eq_some (Option.mem_toList.mp found) }
  | ownedInstrumentsOfAccount accountId =>
    exact { registered with copies := tracks _ fun r found => (List.mem_filter.mp found).1 }
  | balanceOfAccount => exact { registered with }
  | instrument => exact { registered with }
  | product => exact { registered with }
  | overdueTrades => exact { registered with }
  | openTrades => exact { registered with }
  | instruments => exact { registered with }
  | products => exact { registered with }
  | latestPrices => exact { registered with }
  | lastPriceByInstrumentId => exact { registered with }

/-- Changing a holding that is tracked. -/
theorem Registered.write (registered : Registered registry l g) {change : Change}
    (guarded : (rules False True).guard (.write change) l) :
    Registered registry (l.write change) g := by
  cases change with
  | updateOwnedInstrument owned =>
    obtain ⟨r, tracked, sameId, samePair⟩ := guarded
    have isOwned : registry owned.id = some owned.pair := by
      rw [← sameId, ← samePair]
      exact registered.copies r tracked
    have puts : ∀ copies : List OwnedInstrument, (∀ x ∈ copies, registry x.id = some x.pair) →
        ∀ x ∈ put OwnedInstrument.id copies owned, registry x.id = some x.pair := by
      intro copies known x inList
      rcases mem_put.mp inList with ⟨old, -⟩ | rfl
      · exact known x old
      · exact isOwned
    exact { registered with
      copies := puts _ registered.copies
      pending := puts _ registered.pending }
  | addTrade => exact { registered with }
  | updateTrade => exact { registered with }
  | addOwnedInstrument => exact { registered with }
  | updateBalance => exact { registered with }
  | addBalanceHistory => exact { registered with }

/-- The registry with the holdings of a save. -/
def register (registry : Int → Option (Int × Int)) (rows : List OwnedInstrument) (id : Int) :
    Option (Int × Int) :=
  (registry id).or ((lookup OwnedInstrument.id id rows).map OwnedInstrument.pair)

theorem extends_register (registry : Int → Option (Int × Int)) (rows : List OwnedInstrument) :
    Extends registry (register registry rows) := by
  intro id pair known
  rw [register, known, Option.some_or]

/-- A save draws identifiers that nothing was registered for. -/
theorem Registered.save (registered : Registered registry l g) (fresh : Fresh registry g)
    {b : Batch} (isBatch : b = l.pending.number g.tables.tradeSeed g.tables.ownedSeed)
    (numbering : Numbering) {bs : List Batch} (opened : l.tx = some bs) :
    Registered (register registry b.insertedOwned)
      { l.flush b numbering with tx := some (bs ++ [b.store c]) } (g.draw b) ∧
      Fresh (register registry b.insertedOwned) (g.draw b) := by
  obtain ⟨distinct, new⟩ := mapIdx_id OwnedInstrument.id (fun r n => { r with id := n })
    (fun _ _ => rfl) g.tables.ownedSeed l.pending.insertedOwned
  have inserted : b.insertedOwned = l.pending.insertedOwned.mapIdx fun n (r : OwnedInstrument) =>
      { r with id := g.tables.ownedSeed + n } := by rw [isBatch]; rfl
  rw [← inserted] at distinct new
  have length : b.insertedOwned.length = l.pending.insertedOwned.length := by
    rw [inserted, List.length_mapIdx]
  have more := extends_register registry b.insertedOwned
  have news : ∀ r ∈ b.insertedOwned, register registry b.insertedOwned r.id = some r.pair := by
    intro r isNew
    rw [register, fresh r.id (new r isNew).1, lookup_of_mem distinct isNew]
    rfl
  have olds : ∀ r ∈ b.updatedOwned, register registry b.insertedOwned r.id = some r.pair := by
    intro r changed
    rw [isBatch] at changed
    exact more _ _ (registered.pending r changed)
  refine ⟨⟨fun r inTable => more _ _ (registered.db r inTable), fun r tracked => ?_,
    List.forall_mem_nil _, fun b' inList r written => ?_⟩, fun id above => ?_⟩
  · rcases List.mem_append.mp tracked with old | isNew
    · exact more _ _ (registered.copies r (List.mem_filter.mp old).1)
    · exact news r isNew
  · rcases List.mem_append.mp inList with before | last
    · refine more _ _ (registered.sent b' ?_ r written)
      rw [opened]
      exact before
    · rw [List.mem_singleton.mp last] at written
      rcases List.mem_append.mp written with isNew | changed
      · obtain ⟨x, inBatch, rfl⟩ := List.mem_map.mp isNew
        exact news x inBatch
      · obtain ⟨x, inBatch, rfl⟩ := List.mem_map.mp changed
        exact olds x inBatch
  · have above : g.tables.ownedSeed + b.insertedOwned.length ≤ id := above
    have unknown : registry id = none := fresh id (by omega)
    have absent : lookup OwnedInstrument.id id b.insertedOwned = none :=
      lookup_eq_none.mpr fun r isNew same => by
        have below := (new r isNew).2
        omega
    rw [register, unknown, absent]
    rfl

/-- Whatever a connection does, the registry goes on. -/
theorem registered_act {command : Command} {reply : Reply command}
    (registered : Registered registry l g) (fresh : Fresh registry g)
    (guarded : (rules False True).guard command l)
    (acted : act c command l g = some (reply, l', g')) :
    ∃ registry', Extends registry registry' ∧ Registered registry' l' g' ∧ Fresh registry' g' := by
  have same : Extends registry registry := fun _ _ known => known
  cases command with
  | ask q =>
    cases acted
    exact ⟨registry, same, registered.receive q, fresh⟩
  | now => cases acted; exact ⟨registry, same, registered, fresh⟩
  | dbNotResponding => cases acted; exact ⟨registry, same, registered, fresh⟩
  | write change =>
    cases acted
    exact ⟨registry, same, registered.write guarded, fresh⟩
  | onTradeClosed trade =>
    cases acted
    exact ⟨registry, same, { registered with }, fresh⟩
  | beginTransaction =>
    simp only [act] at acted
    split at acted <;> cases acted
    exact ⟨registry, same, { registered with sent := List.forall_mem_nil _ }, fresh⟩
  | saveChanges =>
    obtain ⟨bs, opened⟩ := Option.isSome_iff_exists.mp (show l.tx.isSome = true from guarded)
    simp only [act, opened] at acted
    split at acted
    · cases acted
      exact ⟨_, extends_register _ _, registered.save fresh rfl _ opened⟩
    · cases acted
  | commitTransaction =>
    simp only [act, Option.map_eq_some_iff] at acted
    obtain ⟨bs, opened, acted⟩ := acted
    cases acted
    have view : l.view g = g.tables.db.applyAll bs := by rw [Connection.view, opened]; rfl
    refine ⟨registry, same, { registered with
      db := fun r inTable => registered.view r ?_
      sent := List.forall_mem_nil _ }, fresh⟩
    rw [view]
    exact inTable
  | rollbackTransaction =>
    simp only [act, Option.map_eq_some_iff] at acted
    obtain ⟨bs, opened, acted⟩ := acted
    cases acted
    exact ⟨registry, same, { registered with sent := List.forall_mem_nil _ }, fresh⟩

/-- In any company an identifier means one account and one instrument. -/
def AllRegistered (privs : ι → Connection) (g : Server) : Prop :=
  ∃ registry, (∀ i, Registered registry (privs i) g) ∧ Fresh registry g

/-- Before the first command the committed holdings are the registry. -/
theorem allRegistered_start (requests : ι → Request) (envs : ι → Env) (valid : g.tables.Valid) :
    AllRegistered (start requests envs g).privs g := by
  refine ⟨register (fun _ => none) g.tables.db.owned, fun i => ⟨fun r inTable => ?_,
    List.forall_mem_nil _, List.forall_mem_nil _, List.forall_mem_nil _⟩, fun id above => ?_⟩
  · rw [register, lookup_of_mem valid.owned inTable]
    rfl
  · have absent : lookup OwnedInstrument.id id g.tables.db.owned = none :=
      lookup_eq_none.mpr fun r inTable same => by
        have below := valid.ownedSeed r inTable
        omega
    rw [register, absent]
    rfl

/-- Every command that keeps the rules keeps the registry. -/
theorem AllRegistered.act [DecidableEq ι] {privs : ι → Connection}
    (registered : AllRegistered privs g) {i : ι} {command : Command} {reply : Reply command}
    (guarded : (rules False True).guard command (privs i))
    (acted : act c command (privs i) g = some (reply, l', g')) :
    AllRegistered (Function.update privs i l') g' := by
  obtain ⟨registry, each, fresh⟩ := registered
  obtain ⟨registry', more, own, fresh'⟩ := registered_act (each i) fresh guarded acted
  refine ⟨registry', fun j => ?_, fresh'⟩
  by_cases isOwn : j = i
  · rw [isOwn, Function.update_self]
    exact own
  · rw [Function.update_of_ne isOwn]
    exact (each j).extend more own.db

/-! ## Identifiers of trades -/

/-- The identifiers of the trades a transaction inserts. -/
def insertedIds (bs : List Batch) : List Int := (bs.flatMap Batch.insertedTrades).map Trade.id

/-- A commit adds the identifiers it inserts. -/
theorem ids_applyAll (db : Database) (bs : List Batch) :
    (db.applyAll bs).trades.map Trade.id = db.trades.map Trade.id ++ insertedIds bs := by
  induction bs generalizing db with
  | nil => simp [insertedIds]
  | cons b bs ih =>
    rw [Database.applyAll_cons, ih]
    change (overwrite Trade.id b.updatedTrades db.trades ++ b.insertedTrades).map Trade.id ++ _ = _
    rw [List.map_append, map_key_overwrite, List.append_assoc]
    simp [insertedIds]

/-- An identifier was drawn for one trade, in the table or in one transaction. -/
structure TradeIds (privs : ι → Connection) (g : Server) : Prop where
  table : (g.tables.db.trades.map Trade.id).Nodup
  own : ∀ i, (insertedIds ((privs i).tx.getD [])).Nodup
  /-- What a transaction inserts is not in the table. -/
  fresh : ∀ i, ∀ id ∈ insertedIds ((privs i).tx.getD []), id ∉ g.tables.db.trades.map Trade.id
  /-- What a transaction inserts, no other does. -/
  apart : ∀ i j, i ≠ j → ∀ id ∈ insertedIds ((privs i).tx.getD []),
    id ∉ insertedIds ((privs j).tx.getD [])
  below : ∀ id ∈ g.tables.db.trades.map Trade.id, id < g.tables.tradeSeed
  drawn : ∀ i, ∀ id ∈ insertedIds ((privs i).tx.getD []), id < g.tables.tradeSeed

theorem tradeIds_start (requests : ι → Request) (envs : ι → Env) (valid : g.tables.Valid) :
    TradeIds (start requests envs g).privs g where
  table := valid.trades
  own _ := .nil
  fresh _ := List.forall_mem_nil _
  apart _ _ _ := List.forall_mem_nil _
  below id inTable := by
    obtain ⟨r, inTrades, rfl⟩ := List.mem_map.mp inTable
    exact valid.tradeSeed r inTrades
  drawn _ := List.forall_mem_nil _

namespace TradeIds

variable [DecidableEq ι] {privs : ι → Connection} {i : ι}

/-- A command that leaves the tables and the batches of its transaction. -/
theorem idle (ids : TradeIds privs g) (tables : g'.tables = g.tables)
    (tx : l'.tx.getD [] = (privs i).tx.getD []) : TradeIds (Function.update privs i l') g' := by
  have same : ∀ j, (Function.update privs i l' j).tx.getD [] = (privs j).tx.getD [] := by
    intro j
    by_cases isOwn : j = i
    · rw [isOwn, Function.update_self, tx]
    · rw [Function.update_of_ne isOwn]
  refine ⟨by rw [tables]; exact ids.table, fun j => ?_, fun j => ?_, fun j k other => ?_, ?_,
    fun j => ?_⟩
  · rw [same]
    exact ids.own j
  · rw [same, tables]
    exact ids.fresh j
  · rw [same, same]
    exact ids.apart j k other
  · rw [tables]
    exact ids.below
  · rw [same, tables]
    exact ids.drawn j

/-- The end of a transaction that leaves the tables. -/
theorem rollback (ids : TradeIds privs g) (tx : l'.tx.getD [] = []) :
    TradeIds (Function.update privs i l') g := by
  have less : ∀ j, ∀ id ∈ insertedIds ((Function.update privs i l' j).tx.getD []),
      id ∈ insertedIds ((privs j).tx.getD []) := by
    intro j id inserted
    by_cases isOwn : j = i
    · rw [isOwn, Function.update_self, tx] at inserted
      cases inserted
    · rwa [Function.update_of_ne isOwn] at inserted
  refine ⟨ids.table, fun j => ?_, fun j id inserted => ids.fresh j id (less j id inserted),
    fun j k other id inserted again =>
      ids.apart j k other id (less j id inserted) (less k id again), ids.below,
    fun j id inserted => ids.drawn j id (less j id inserted)⟩
  by_cases isOwn : j = i
  · rw [isOwn, Function.update_self, tx]
    exact .nil
  · rw [Function.update_of_ne isOwn]
    exact ids.own j

/-- A commit. -/
theorem commit (ids : TradeIds privs g) {bs : List Batch} (opened : (privs i).tx = some bs)
    (tx : l'.tx.getD [] = []) : TradeIds (Function.update privs i l') (g.commit bs) := by
  have table : (g.commit bs).tables.db.trades.map Trade.id =
      g.tables.db.trades.map Trade.id ++ insertedIds bs := ids_applyAll _ bs
  have own : insertedIds ((privs i).tx.getD []) = insertedIds bs := by rw [opened]; rfl
  have ended := ids.rollback (i := i) tx
  refine ⟨?_, ended.own, fun j id inserted => ?_, ended.apart, fun id inTable => ?_, ended.drawn⟩
  · rw [table, ← own]
    exact List.Nodup.append ids.table (ids.own i) fun id inTable inserted =>
      ids.fresh i id inserted inTable
  · rw [table, List.mem_append, not_or]
    refine ⟨ended.fresh j id inserted, fun committed => ?_⟩
    by_cases isOwn : j = i
    · rw [isOwn, Function.update_self, tx] at inserted
      cases inserted
    · rw [Function.update_of_ne isOwn] at inserted
      exact ids.apart j i isOwn id inserted (own ▸ committed)
  · rw [table] at inTable
    rcases List.mem_append.mp inTable with old | new
    · exact ids.below id old
    · exact ids.drawn i id (own ▸ new)

/-- A save within a transaction draws new identifiers. -/
theorem draw (ids : TradeIds privs g) {new : List Int} (db : g'.tables.db = g.tables.db)
    (seed : g.tables.tradeSeed ≤ g'.tables.tradeSeed)
    (tx : insertedIds (l'.tx.getD []) = insertedIds ((privs i).tx.getD []) ++ new)
    (distinct : new.Nodup)
    (range : ∀ id ∈ new, g.tables.tradeSeed ≤ id ∧ id < g'.tables.tradeSeed) :
    TradeIds (Function.update privs i l') g' := by
  -- what a transaction has inserted, it had before or it is new
  have split : ∀ j, ∀ id ∈ insertedIds ((Function.update privs i l' j).tx.getD []),
      id ∈ insertedIds ((privs j).tx.getD []) ∨ j = i ∧ id ∈ new := by
    intro j id inserted
    by_cases isOwn : j = i
    · rw [isOwn, Function.update_self, tx, List.mem_append] at inserted
      exact inserted.imp (fun old => by rw [isOwn]; exact old) fun isNew => ⟨isOwn, isNew⟩
    · rw [Function.update_of_ne isOwn] at inserted
      exact .inl inserted
  refine ⟨by rw [db]; exact ids.table, fun j => ?_, fun j id inserted => ?_,
    fun j k other id inserted again => ?_, fun id inTable => ?_, fun j id inserted => ?_⟩
  · by_cases isOwn : j = i
    · rw [isOwn, Function.update_self, tx]
      refine List.Nodup.append (ids.own i) distinct fun id old isNew => ?_
      have below := ids.drawn i id old
      have above := (range id isNew).1
      omega
    · rw [Function.update_of_ne isOwn]
      exact ids.own j
  · rw [db]
    rcases split j id inserted with old | ⟨-, isNew⟩
    · exact ids.fresh j id old
    · intro inTable
      have below := ids.below id inTable
      have above := (range id isNew).1
      omega
  · rcases split j id inserted with old | ⟨isOwn, isNew⟩
    · rcases split k id again with old' | ⟨-, isNew⟩
      · exact ids.apart j k other id old old'
      · have below := ids.drawn j id old
        have above := (range id isNew).1
        omega
    · rcases split k id again with old' | ⟨isOwn', -⟩
      · have below := ids.drawn k id old'
        have above := (range id isNew).1
        omega
      · exact other (isOwn.trans isOwn'.symm)
  · rw [db] at inTable
    have below := ids.below id inTable
    omega
  · rcases split j id inserted with old | ⟨-, isNew⟩
    · have below := ids.drawn j id old
      omega
    · exact (range id isNew).2

/-- Every command that keeps the rules keeps the identifiers apart. -/
theorem act (ids : TradeIds privs g) {command : Command} {reply : Reply command}
    {byTrade byHolding : Prop} (guarded : (rules byTrade byHolding).guard command (privs i))
    (acted : Broker.act c command (privs i) g = some (reply, l', g')) :
    TradeIds (Function.update privs i l') g' := by
  cases command with
  | ask q =>
    cases acted
    exact ids.idle rfl (by simp)
  | now => cases acted; exact ids.idle rfl rfl
  | dbNotResponding => cases acted; exact ids.idle rfl rfl
  | write change =>
    cases acted
    exact ids.idle rfl (by simp)
  | onTradeClosed trade => cases acted; exact ids.idle rfl rfl
  | beginTransaction =>
    simp only [Broker.act] at acted
    split at acted <;> cases acted
    exact ids.rollback rfl
  | saveChanges =>
    obtain ⟨bs, opened⟩ :=
      Option.isSome_iff_exists.mp (show (privs i).tx.isSome = true from guarded)
    simp only [Broker.act, opened] at acted
    split at acted
    · cases acted
      obtain ⟨distinct, new⟩ := mapIdx_id Trade.id (fun r n => { r with id := n })
        (fun _ _ => rfl) g.tables.tradeSeed (privs i).pending.insertedTrades
      have length : ((privs i).pending.number g.tables.tradeSeed
          g.tables.ownedSeed).insertedTrades.length = (privs i).pending.insertedTrades.length :=
        List.length_mapIdx
      have seed : (g.draw ((privs i).pending.number g.tables.tradeSeed
          g.tables.ownedSeed)).tables.tradeSeed =
          g.tables.tradeSeed + (privs i).pending.insertedTrades.length := by
        rw [Server.draw, length]
      refine ids.draw rfl (by rw [seed]; omega) ?_ distinct fun id isNew => ?_
      · rw [opened]
        simp only [insertedIds, Option.getD_some, List.flatMap_append, List.map_append,
          List.flatMap_singleton, Batch.store, List.map_map]
        rfl
      · obtain ⟨r, inBatch, rfl⟩ := List.mem_map.mp isNew
        rw [seed]
        exact new r inBatch
    · cases acted
  | commitTransaction =>
    simp only [Broker.act, Option.map_eq_some_iff] at acted
    obtain ⟨bs, opened, acted⟩ := acted
    cases acted
    exact ids.commit opened rfl
  | rollbackTransaction =>
    simp only [Broker.act, Option.map_eq_some_iff] at acted
    obtain ⟨bs, opened, acted⟩ := acted
    cases acted
    exact ids.rollback rfl

end TradeIds

end EasyTrade.Broker
