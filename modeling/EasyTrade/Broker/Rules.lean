import EasyTrade.Broker.Orderly

/-!
# What a request sends, whatever it is answered

The rules every request keeps in any company: a save happens inside a
transaction, a request that throws has committed nothing, a changed holding is
one that was read, and a transaction about to be committed is `Sound`: each of
its batches carries the effect of one trade at most. The last part needs the
identifiers of the tables to mean something, so it is stated under two switches:
`byTrade` for the trade table and `byHolding` for the holdings.
-/

namespace EasyTrade.Broker

open EasyTrade.Store EasyTrade.Ledger EasyTrade.Logic EasyTrade.Logic.Program

/-- The account and the instrument of a holding. -/
def OwnedInstrument.pair (r : OwnedInstrument) : Int × Int := (r.accountId, r.instrumentId)

/-- The effect of one trade at most. -/
structure Batch.Fit (b : Batch) : Prop where
  /-- Every trade it updates is closed. -/
  closed : ∀ r ∈ b.updatedTrades, r.tradeClosed = true
  /-- It has at most one history row of each kind. -/
  rows : (b.insertedHistory.map BalanceHistory.actionType).Nodup
  /-- It writes at most one holding. -/
  owned : b.insertedOwned.length + b.updatedOwned.length ≤ 1
  /-- If it has an effect, the trades it updates have happened. -/
  happened : b.insertedHistory ≠ [] ∨ b.insertedOwned ≠ [] ∨ b.updatedOwned ≠ [] →
    ∀ r ∈ b.updatedTrades, r.transactionHappened = true

/-- The identifiers of the trades a transaction updates. -/
def updatedIds (bs : List Batch) : List Int := (bs.flatMap Batch.updatedTrades).map Trade.id

/-- The account and instrument of each holding a transaction inserts. -/
def insertedPairs (bs : List Batch) : List (Int × Int) :=
  (bs.flatMap Batch.insertedOwned).map OwnedInstrument.pair

/-- A transaction each of whose batches carries the effect of one trade at most. -/
structure Sound (byTrade byHolding : Prop) (bs : List Batch) : Prop where
  /-- Its batches. -/
  fit : ∀ b ∈ bs, b.Fit
  /-- No trade is updated twice. -/
  trades : byTrade → (updatedIds bs).Nodup
  /-- No holding is inserted twice. -/
  pairs : byHolding → (insertedPairs bs).Nodup

/-- An identifier means one account and one instrument, wherever the connection or
the server has a holding with it. -/
structure Registered (registry : Int → Option (Int × Int)) (l : Connection) (g : Server) :
    Prop where
  /-- The committed holdings. -/
  db : ∀ r ∈ g.tables.db.owned, registry r.id = some r.pair
  /-- The tracked holdings. -/
  copies : ∀ r ∈ l.owned, registry r.id = some r.pair
  /-- The changed holdings. -/
  pending : ∀ r ∈ l.pending.updatedOwned, registry r.id = some r.pair
  /-- The holdings sent. -/
  sent : ∀ b ∈ l.tx.getD [], ∀ r ∈ b.insertedOwned ++ b.updatedOwned, registry r.id = some r.pair

/-- The rules. -/
def rules (byTrade byHolding : Prop) : Contract Command Exception Connection Server where
  assume l g := (byTrade → (g.tables.db.trades.map Trade.id).Nodup) ∧
    (byHolding → ∃ registry, Registered registry l g)
  guard
    | .write (.updateOwnedInstrument owned), l => ∃ r ∈ l.owned, r.id = owned.id ∧ r.pair = owned.pair
    | .saveChanges, l => l.tx.isSome = true
    | .commitTransaction, l => ∀ bs, l.tx = some bs → Sound byTrade byHolding bs
    | _, _ => True
  abort _ l := l.committed = []

variable {c : DecimalColumn} {byTrade byHolding : Prop} {l : Connection}

/-! ## Batches -/

/-- An empty batch has no effect. -/
theorem fit_empty : Batch.Fit {} :=
  ⟨List.forall_mem_nil _, .nil, Nat.zero_le 1, fun _ => List.forall_mem_nil _⟩

/-- Numbering and rounding do not matter. -/
theorem Batch.Fit.sent {b : Batch} (h : b.Fit) (c : DecimalColumn) (tradeSeed ownedSeed : Int) :
    ((b.number tradeSeed ownedSeed).store c).Fit where
  closed r inBatch := by
    obtain ⟨r', inUpdated, rfl⟩ := List.mem_map.1 inBatch
    exact h.closed r' inUpdated
  rows := by
    simpa [Batch.store, Batch.number, Function.comp_def, BalanceHistory.store] using h.rows
  owned := by simpa [Batch.store, Batch.number] using h.owned
  happened effect r inBatch := by
    obtain ⟨r', inUpdated, rfl⟩ := List.mem_map.1 inBatch
    exact h.happened (by simpa [Batch.store, Batch.number] using effect) r' inUpdated

/-- The pairs of a batch as it is sent. -/
theorem insertedPairs_sent (b : Batch) (c : DecimalColumn) (tradeSeed ownedSeed : Int) :
    insertedPairs [(b.number tradeSeed ownedSeed).store c] =
      b.insertedOwned.map OwnedInstrument.pair := by
  simp only [insertedPairs, List.flatMap_singleton, Batch.store, Batch.number, List.map_map]
  refine List.ext_getElem (by simp) fun n _ _ => ?_
  simp [OwnedInstrument.pair, OwnedInstrument.store]

/-- The trades of a batch as it is sent. -/
theorem updatedIds_sent (b : Batch) (c : DecimalColumn) (tradeSeed ownedSeed : Int) :
    updatedIds [(b.number tradeSeed ownedSeed).store c] = b.updatedTrades.map Trade.id := by
  simp [updatedIds, Batch.store, Batch.number, Function.comp_def, Trade.store]

theorem insertedPairs_append (bs more : List Batch) :
    insertedPairs (bs ++ more) = insertedPairs bs ++ insertedPairs more := by
  simp [insertedPairs]

theorem updatedIds_append (bs more : List Batch) :
    updatedIds (bs ++ more) = updatedIds bs ++ updatedIds more := by
  simp [updatedIds]

/-- Nothing sent is sound. -/
theorem sound_nil : Sound byTrade byHolding [] :=
  ⟨List.forall_mem_nil _, fun _ => .nil, fun _ => .nil⟩

/-- A sound transaction stays sound with one more batch that updates and inserts
nothing again. -/
theorem Sound.append {bs : List Batch} (h : Sound byTrade byHolding bs) {b : Batch} (fit : b.Fit)
    (tradeSeed ownedSeed : Int) (ids : byTrade → (b.updatedTrades.map Trade.id).Nodup)
    (apart : byTrade → ∀ r ∈ b.updatedTrades, r.id ∉ updatedIds bs)
    (pairs : byHolding → ∀ r ∈ b.insertedOwned, r.pair ∉ insertedPairs bs) :
    Sound byTrade byHolding (bs ++ [(b.number tradeSeed ownedSeed).store c]) where
  fit b' inList := by
    rcases List.mem_append.1 inList with old | new
    · exact h.fit b' old
    · rw [List.mem_singleton.1 new]
      exact fit.sent c tradeSeed ownedSeed
  trades on := by
    rw [updatedIds_append, updatedIds_sent]
    refine List.Nodup.append (h.trades on) (ids on) fun k old new => ?_
    obtain ⟨r, inBatch, rfl⟩ := List.mem_map.1 new
    exact apart on r inBatch old
  pairs on := by
    have single : (b.insertedOwned.map OwnedInstrument.pair).Nodup := by
      have few := fit.owned
      match inserted : b.insertedOwned with
      | [] => exact .nil
      | [r] => exact List.nodup_singleton _
      | r :: r' :: rest =>
        rw [inserted] at few
        simp only [List.length_cons] at few
        omega
    rw [insertedPairs_append, insertedPairs_sent]
    refine List.Nodup.append (h.pairs on) single fun k old new => ?_
    obtain ⟨r, inBatch, rfl⟩ := List.mem_map.1 new
    exact pairs on r inBatch old

/-! ## Commands -/

section Commands

theorem ask_holds {q : Query} {post : q.Answer → Connection → Prop} (clean : l.committed = [])
    (next : ∀ g, (rules byTrade byHolding).assume l g →
      post (l.resolve q (answer l.env (l.view g) q)) (l.receive q (answer l.env (l.view g) q))) :
    Holds (machine c) (rules byTrade byHolding) (send (.ask q)) post l :=
  holds_perform trivial clean fun g _ _ _ valid acted => by
    cases acted
    exact next g valid

/-- What a connection is after reading: tracked holdings stay tracked, and nothing
else matters to the rules. -/
structure Reading (l l' : Connection) : Prop where
  committed : l'.committed = l.committed
  tx : l'.tx = l.tx
  pending : l'.pending = l.pending
  owned : ∀ r ∈ l.owned, r ∈ l'.owned

theorem mem_attachAll_of_mem {ρ κ : Type} [DecidableEq κ] {key : ρ → κ} {copies : List ρ} {x : ρ}
    (rows : List ρ) (h : x ∈ copies) : x ∈ Tracker.attachAll key copies rows := by
  induction rows generalizing copies with
  | nil => exact h
  | cons row rest ih => exact ih (Tracker.mem_attach_of_mem row h)

theorem reading_receive (l : Connection) (q : Query) (rows : q.Answer) :
    Reading l (l.receive q rows) := by
  refine ⟨by simp, by simp, by simp, fun r tracked => ?_⟩
  cases q with
  | ownedInstrument => exact mem_attachAll_of_mem _ tracked
  | ownedInstrumentsOfAccount => exact mem_attachAll_of_mem _ tracked
  | balanceOfAccount => exact tracked
  | instrument => exact tracked
  | product => exact tracked
  | overdueTrades => exact tracked
  | openTrades => exact tracked
  | instruments => exact tracked
  | products => exact tracked
  | latestPrices => exact tracked
  | lastPriceByInstrumentId => exact tracked

/-- A query whose rows the rules do not speak of. -/
theorem read_holds {q : Query} {post : q.Answer → Connection → Prop} (clean : l.committed = [])
    (next : ∀ rows l', Reading l l' → l'.committed = [] → post rows l') :
    Holds (machine c) (rules byTrade byHolding) (send (.ask q)) post l :=
  ask_holds clean fun _ _ => next _ _ (reading_receive ..) (by simpa using clean)

/-- A query for a holding: the row handed out is tracked. -/
theorem readOwned_holds {accountId instrumentId : Int}
    {post : Option OwnedInstrument → Connection → Prop} (clean : l.committed = [])
    (next : ∀ row l', Reading l l' → l'.committed = [] → (∀ r, row = some r → r ∈ l'.owned) →
      post row l') :
    Holds (machine c) (rules byTrade byHolding)
      (send (.ask (.ownedInstrument accountId instrumentId))) post l := by
  refine ask_holds clean fun g _ => next _ _ (reading_receive ..) (by simpa using clean) ?_
  intro r found
  obtain ⟨row, isFound, rfl⟩ := Option.map_eq_some_iff.1 found
  change _ ∈ Tracker.attachAll OwnedInstrument.id l.owned (Option.toList _)
  rw [isFound]
  exact Tracker.resolve_mem_attach _ row

theorem throw_holds {α : Type} {e : Exception} {post : α → Connection → Prop}
    (clean : l.committed = []) :
    Holds (machine c) (rules byTrade byHolding) (throw e) post l := clean

theorem now_holds {post : Int → Connection → Prop} (clean : l.committed = [])
    (next : post l.env.now l) : Holds (machine c) (rules byTrade byHolding) now post l :=
  holds_perform trivial clean fun _ _ _ _ _ acted => by
    cases acted
    exact next

theorem dbNotResponding_holds {post : Bool → Connection → Prop} (clean : l.committed = [])
    (next : post l.env.dbNotResponding l) :
    Holds (machine c) (rules byTrade byHolding) (send .dbNotResponding) post l :=
  holds_perform trivial clean fun _ _ _ _ _ acted => by
    cases acted
    exact next

theorem write_holds {change : Change} {post : Unit → Connection → Prop} (clean : l.committed = [])
    (guarded : (rules byTrade byHolding).guard (.write change) l) (next : post () (l.write change)) :
    Holds (machine c) (rules byTrade byHolding) (send (.write change)) post l :=
  holds_perform guarded clean fun _ _ _ _ _ acted => by
    cases acted
    exact next

theorem onTradeClosed_holds {trade : Trade} {post : Unit → Connection → Prop}
    (clean : l.committed = [])
    (next : post () { l with notified := l.notified ++ [trade] }) :
    Holds (machine c) (rules byTrade byHolding) (onTradeClosed trade) post l :=
  holds_perform trivial clean fun _ _ _ _ _ acted => by
    cases acted
    exact next

theorem begin_holds {post : Unit → Connection → Prop} (clean : l.committed = [])
    (next : post () { l with tx := some [] }) :
    Holds (machine c) (rules byTrade byHolding) beginTransaction post l :=
  holds_perform trivial clean fun _ _ _ _ _ acted => by
    simp only [machine, act] at acted
    split at acted <;> cases acted
    exact next

/-- A save inside a transaction adds the pending batch to what is sent. -/
theorem save_holds (bs : List Batch) {post : Batch → Connection → Prop} (clean : l.committed = [])
    (opened : l.tx = some bs)
    (next : ∀ b numbering tradeSeed ownedSeed, post b
      { l.flush b numbering with
        tx := some (bs ++ [(l.pending.number tradeSeed ownedSeed).store c]) }) :
    Holds (machine c) (rules byTrade byHolding) saveChanges post l :=
  holds_perform (show l.tx.isSome = true by rw [opened]; rfl) clean fun _ _ _ _ _ acted => by
    simp only [machine, act] at acted
    split at acted
    · split at acted
      · rename_i bs' opened'
        rw [opened] at opened'
        cases opened'
        cases acted
        exact next ..
      · rename_i outside
        rw [opened] at outside
        cases outside
    · cases acted

/-- What saving and committing the pending batch has to start from, and what it
leaves. -/
theorem saveChangesOrRollback_holds (bs : List Batch) {post : Batch → Connection → Prop}
    (clean : l.committed = []) (opened : l.tx = some bs)
    (sound : ∀ tradeSeed ownedSeed,
      Sound byTrade byHolding (bs ++ [(l.pending.number tradeSeed ownedSeed).store c]))
    (next : ∀ b l', l'.tx = none → post b l') :
    Holds (machine c) (rules byTrade byHolding) saveChangesOrRollback post l := by
  have handler : ∀ l : Connection, l.committed = [] →
      Holds (machine c) (rules byTrade byHolding) (do rollbackTransaction; throw .db : Task Batch)
        post l := fun l clean => by
    rw [holds_bind]
    refine holds_perform trivial clean fun _ _ _ _ _ acted => ?_
    simp only [machine, act, Option.map_eq_some_iff] at acted
    obtain ⟨_, _, acted⟩ := acted
    cases acted
    exact clean
  refine holds_tryCatch ?_
  rw [holds_bind]
  refine holds_perform (show l.tx.isSome = true by rw [opened]; rfl) (handler l clean)
    fun g b l' g' _ acted => ?_
  have saved : l'.committed = [] ∧ ∃ tradeSeed ownedSeed,
      l'.tx = some (bs ++ [(l.pending.number tradeSeed ownedSeed).store c]) := by
    simp only [machine, act] at acted
    split at acted
    · split at acted
      · rename_i bs' opened'
        rw [opened] at opened'
        cases opened'
        cases acted
        exact ⟨clean, _, _, rfl⟩
      · rename_i outside
        rw [opened] at outside
        cases outside
    · cases acted
  obtain ⟨clean', tradeSeed, ownedSeed, sent⟩ := saved
  rw [holds_bind]
  refine holds_perform (fun bs' isSent => ?_) (handler l' clean') fun _ _ _ _ _ acted => ?_
  · rw [sent] at isSent
    cases isSent
    exact sound tradeSeed ownedSeed
  · simp only [machine, act, Option.map_eq_some_iff] at acted
    obtain ⟨_, _, acted⟩ := acted
    cases acted
    exact next _ _ rfl

theorem deref_holds {α : Type} {value : Option α} {post : α → Connection → Prop}
    (clean : l.committed = []) (next : ∀ a, value = some a → post a l) :
    Holds (machine c) (rules byTrade byHolding) (deref value) post l := by
  cases value with
  | none => exact clean
  | some a => exact next a rfl

theorem ofExcept_holds {α : Type} {value : Except Exception α} {post : α → Connection → Prop}
    (clean : l.committed = []) (next : ∀ a, value = .ok a → post a l) :
    Holds (machine c) (rules byTrade byHolding) (ofExcept value) post l := by
  cases value with
  | error e => exact clean
  | ok a => exact next a rfl

theorem item_holds {ρ : Type} {key : ρ → Int} {dictionary : List ρ} {k : Int}
    {post : ρ → Connection → Prop} (clean : l.committed = [])
    (next : ∀ a, lookup key k dictionary = some a → post a l) :
    Holds (machine c) (rules byTrade byHolding) (item key dictionary k) post l := by
  unfold item
  split
  · rename_i found
    exact next _ found
  · exact clean

theorem toDictionary_holds {ρ : Type} {key : ρ → Int} {rows : List ρ}
    {post : List ρ → Connection → Prop} (clean : l.committed = []) (next : post rows l) :
    Holds (machine c) (rules byTrade byHolding) (toDictionary key rows) post l := by
  unfold toDictionary
  split
  · exact next
  · exact clean

end Commands

/-! ## Services -/

theorem modifyBalance_holds (accountId : Int) (amount : ℚ) (actionType : ActionType)
    {post : Balance → Connection → Prop} (clean : l.committed = [])
    (idle : l.pending = {}) (next : ∀ balance l', l'.tx = none → post balance l') :
    Holds (machine c) (rules byTrade byHolding)
      (BalanceService.modifyBalance accountId amount actionType) post l := by
  unfold BalanceService.modifyBalance getBalanceOfAccount
  rw [holds_bind]
  refine ask_holds clean fun g _ => ?_
  have clean' := (Connection.committed_receive l _ (answer l.env (l.view g) (.balanceOfAccount accountId))).trans clean
  split
  · rw [holds_bind]
    refine now_holds clean' ?_
    rw [holds_bind]
    refine ofExcept_holds clean' fun balance _ => ?_
    rw [holds_bind]
    refine begin_holds clean' ?_
    rw [holds_bind]
    refine write_holds clean' trivial ?_
    rw [holds_bind]
    refine write_holds (by simpa using clean) trivial ?_
    rw [holds_bind]
    refine saveChangesOrRollback_holds [] (by simpa using clean) (by simp)
      (fun tradeSeed ownedSeed => ?_) fun b l' ended => next _ _ ended
    simp only [Connection.pending_write, Connection.pending_receive, idle, Batch.write]
    refine sound_nil.append ?_ tradeSeed ownedSeed ?_ ?_ ?_
    · exact ⟨List.forall_mem_nil _, List.nodup_singleton _, Nat.zero_le 1,
        fun _ => List.forall_mem_nil _⟩
    all_goals simp
  · exact clean'

/-- What a connection is after money has been moved for a trade: three more history
rows, and the rest of the pending batch as it was. -/
structure Charged (type : ActionType) (l l' : Connection) : Prop where
  committed : l'.committed = l.committed
  tx : l'.tx = l.tx
  owned : l'.owned = l.owned
  pending : ∃ balances rows, rows.map BalanceHistory.actionType =
      [type.lower, ActionType.transactionFee.lower, ActionType.collectFee.lower] ∧
    l'.pending = { l.pending with
      updatedBalances := balances, insertedHistory := l.pending.insertedHistory ++ rows }

theorem updateBalance_holds (balance : Balance) (amount ppt : ℚ) (type : ActionType)
    {post : Unit → Connection → Prop} (clean : l.committed = [])
    (next : ∀ l', Charged type l l' → post () l') :
    Holds (machine c) (rules byTrade byHolding)
      (TradeServiceBase.updateBalance balance amount ppt type) post l := by
  unfold TradeServiceBase.updateBalance TradeServiceBase.collectFee addBalanceHistory
    updateBalance getBalanceOfAccount
  rw [holds_bind]
  refine now_holds clean ?_
  rw [holds_bind]
  refine write_holds clean trivial ?_
  rw [holds_bind]
  refine now_holds (by simpa using clean) ?_
  rw [holds_bind]
  refine write_holds (by simpa using clean) trivial ?_
  rw [holds_bind]
  refine write_holds (by simpa using clean) trivial ?_
  rw [holds_bind]
  refine ask_holds (by simpa using clean) fun g _ => ?_
  rw [holds_bind]
  refine deref_holds (by simpa using clean) fun owner _ => ?_
  rw [holds_bind]
  refine now_holds (by simpa using clean) ?_
  rw [holds_bind]
  refine write_holds (by simpa using clean) trivial ?_
  refine write_holds (by simpa using clean) trivial ?_
  refine next _ ⟨by simp, by simp, rfl, ?_⟩
  simp only [Connection.pending_write, Connection.pending_receive, Batch.write,
    List.append_assoc]
  exact ⟨_, _, rfl, rfl⟩

/-- What a connection is after a holding has been found and changed, or created. -/
structure Held (byHolding : Prop) (l l' : Connection) : Prop where
  committed : l'.committed = l.committed
  tx : l'.tx = l.tx
  pending : (∃ row, (byHolding → row.pair ∉ insertedPairs (l.tx.getD [])) ∧
      l'.pending = { l.pending with insertedOwned := l.pending.insertedOwned ++ [row] }) ∨
    ∃ row, l'.pending = { l.pending with
      updatedOwned := put OwnedInstrument.id l.pending.updatedOwned row }

theorem updateOwned_holds (owned : OwnedInstrument) (amount : ℚ)
    {post : Unit → Connection → Prop} (clean : l.committed = [])
    (tracked : ∃ r ∈ l.owned, r.id = owned.id ∧ r.pair = owned.pair)
    (next : ∀ l', Held byHolding l l' → post () l') :
    Holds (machine c) (rules byTrade byHolding) (TradeServiceBase.updateOwned owned amount)
      post l := by
  unfold TradeServiceBase.updateOwned updateOwnedInstrument
  simp only [holds_bind]
  refine now_holds clean ?_
  refine write_holds clean tracked ?_
  exact next _ ⟨by simp, by simp, .inr ⟨_, rfl⟩⟩

/-- The rows a connection sees have the registered account and instrument. -/
theorem Registered.view {registry : Int → Option (Int × Int)} {g : Server}
    (h : Registered registry l g) : ∀ r ∈ (l.view g).owned, registry r.id = some r.pair := by
  have through : ∀ (bs : List Batch) (db : Database),
      (∀ b ∈ bs, ∀ r ∈ b.insertedOwned ++ b.updatedOwned, registry r.id = some r.pair) →
      (∀ r ∈ db.owned, registry r.id = some r.pair) →
      ∀ r ∈ (db.applyAll bs).owned, registry r.id = some r.pair := by
    intro bs
    induction bs with
    | nil => exact fun db _ known => known
    | cons b bs ih =>
      intro db sent known
      refine ih (db.apply b) (fun b' inList => sent b' (List.mem_cons_of_mem _ inList)) ?_
      intro r inOwned
      have here := sent b List.mem_cons_self
      rcases List.mem_append.1 inOwned with kept | inserted
      · rcases mem_overwrite kept with updated | ⟨old, -⟩
        · exact here r (List.mem_append_right _ updated)
        · exact known r old
      · exact here r (List.mem_append_left _ inserted)
  exact through _ _ h.sent h.db

/-- A row a transaction has inserted stays in the tables it sees, under its identifier. -/
theorem inserted_mem_view {bs : List Batch} {b : Batch} {r : OwnedInstrument} (inList : b ∈ bs)
    (inserted : r ∈ b.insertedOwned) (db : Database) :
    ∃ v ∈ (db.applyAll bs).owned, v.id = r.id := by
  have stays : ∀ (bs : List Batch) (db : Database), (∃ v ∈ db.owned, v.id = r.id) →
      ∃ v ∈ (db.applyAll bs).owned, v.id = r.id := by
    intro bs
    induction bs with
    | nil => exact fun db h => h
    | cons b bs ih =>
      rintro db ⟨v, inOwned, same⟩
      refine ih (db.apply b) ?_
      have inKeys : r.id ∈ (overwrite OwnedInstrument.id b.updatedOwned db.owned).map
          OwnedInstrument.id := by
        rw [map_key_overwrite, ← same]
        exact List.mem_map_of_mem inOwned
      obtain ⟨v', inRows, same'⟩ := List.mem_map.1 inKeys
      exact ⟨v', List.mem_append_left _ inRows, same'⟩
  induction bs generalizing db with
  | nil => cases inList
  | cons b' bs ih =>
    rcases List.mem_cons.1 inList with rfl | inRest
    · exact stays bs _ ⟨r, List.mem_append_right _ inserted, rfl⟩
    · exact ih inRest (db.apply b')

/-- A holding that a query does not find is none the transaction has inserted. -/
theorem Registered.absent {registry : Int → Option (Int × Int)} {g : Server}
    (h : Registered registry l g) {accountId instrumentId : Int}
    (absent : (l.view g).ownedOf accountId instrumentId = none) :
    (accountId, instrumentId) ∉ insertedPairs (l.tx.getD []) := by
  intro inPairs
  obtain ⟨r, inSent, samePair⟩ := List.mem_map.1 inPairs
  obtain ⟨b, inList, inserted⟩ := List.mem_flatMap.1 inSent
  obtain ⟨v, inView, sameId⟩ := inserted_mem_view inList inserted g.tables.db
  have registered := h.sent b inList r (List.mem_append_left _ inserted)
  have pairOfView := h.view v inView
  rw [sameId, registered, samePair] at pairOfView
  have missed := List.find?_eq_none.1 absent v inView
  have found : (v.accountId, v.instrumentId) = (accountId, instrumentId) :=
    (Option.some.inj pairOfView).symm
  simp only [Prod.mk.injEq] at found
  simp [found.1, found.2] at missed

theorem updateOwnedInstrument_holds (accountId instrumentId : Int) (amount : ℚ)
    {post : Unit → Connection → Prop} (clean : l.committed = [])
    (next : ∀ l', Held byHolding l l' → post () l') :
    Holds (machine c) (rules byTrade byHolding)
      (TradeServiceBase.updateOwnedInstrument accountId instrumentId amount) post l := by
  unfold TradeServiceBase.updateOwnedInstrument getOwnedInstrument addOwnedInstrument
  rw [holds_bind]
  refine ask_holds clean fun g valid => ?_
  cases found : (l.view g).ownedOf accountId instrumentId with
  | none =>
    simp only [answer, found, Connection.resolve, Query.resolve, Option.map_none, holds_bind]
    refine now_holds (by simpa using clean) ?_
    refine write_holds (by simpa using clean) trivial ?_
    refine next _ ⟨by simp, by simp, .inl ⟨.new accountId instrumentId amount l.env.now, ?_, ?_⟩⟩
    · intro on
      obtain ⟨registry, registered⟩ := valid.2 on
      exact registered.absent found
    · simp [Batch.write]
  | some row =>
    simp only [answer, found, Connection.resolve, Query.resolve, Option.map_some]
    refine updateOwned_holds _ _ (by simpa using clean) 
      ⟨_, Tracker.resolve_mem_attach _ row, rfl, rfl⟩ ?_
    rintro l' ⟨committed, tx, pending⟩
    exact next l' ⟨by simpa using committed, by simpa using tx, by simpa using pending⟩

/-- What a connection is after a trade has been closed. -/
structure Closed (trade : Trade) (happened : Bool) (l l' : Connection) : Prop where
  committed : l'.committed = l.committed
  tx : l'.tx = l.tx
  pending : ∃ row : Trade, row.id = trade.id ∧ row.tradeClosed = true ∧
    row.transactionHappened = happened ∧
    l'.pending = { l.pending with updatedTrades := put Trade.id l.pending.updatedTrades row }

theorem closeTrade_holds (trade : Trade) (status : String) (happened : Bool)
    {post : Unit → Connection → Prop} (clean : l.committed = [])
    (next : ∀ l', Closed trade happened l l' → post () l') :
    Holds (machine c) (rules byTrade byHolding)
      (LongTradeService.closeTrade trade status happened) post l := by
  unfold LongTradeService.closeTrade updateTrade
  rw [holds_bind]
  refine write_holds clean trivial ?_
  refine onTradeClosed_holds (by simpa using clean) ?_
  exact next _ ⟨rfl, rfl, { trade with
    status := status, transactionHappened := happened, tradeClosed := true }, rfl, rfl, rfl, rfl⟩

/-! ## Trades -/

/-- The kinds of action that trade. -/
def ActionType.isTrade (type : ActionType) : Prop :=
  type = .buy ∨ type = .sell ∨ type = .longBuy ∨ type = .longSell

/-- The pending batch of one trade, before anything is said of the trade's row. -/
structure Settled (byHolding : Prop) (bs : List Batch) (p : Batch) : Prop where
  rows : (p.insertedHistory.map BalanceHistory.actionType).Nodup
  owned : p.insertedOwned.length + p.updatedOwned.length ≤ 1
  pairs : byHolding → ∀ r ∈ p.insertedOwned, r.pair ∉ insertedPairs bs

/-- Moving the money and the holding of one trade, from a connection with nothing
pending about either. -/
theorem settled {l₁ l₂ : Connection} {type : ActionType} (trades : type.isTrade)
    (charged : Charged type l l₁) (held : Held byHolding l₁ l₂)
    (history : l.pending.insertedHistory = []) (inserted : l.pending.insertedOwned = [])
    (updated : l.pending.updatedOwned = []) :
    Settled byHolding (l.tx.getD []) l₂.pending ∧
      l₂.pending.updatedTrades = l.pending.updatedTrades := by
  obtain ⟨balances, rows, kinds, afterCharge⟩ := charged.pending
  have distinct : (rows.map BalanceHistory.actionType).Nodup := by
    rw [kinds]
    rcases trades with rfl | rfl | rfl | rfl <;> decide
  rcases held.pending with ⟨row, fresh, afterHold⟩ | ⟨row, afterHold⟩
  · rw [charged.tx] at fresh
    rw [afterHold, afterCharge]
    refine ⟨⟨by simpa [history] using distinct, by simp [inserted, updated], ?_⟩, rfl⟩
    intro on r inRows
    simp only [inserted, List.nil_append, List.mem_singleton] at inRows
    rw [inRows]
    exact fresh on
  · rw [afterHold, afterCharge]
    refine ⟨⟨by simpa [history] using distinct, by simp [inserted, updated], ?_⟩, rfl⟩
    simp [inserted]

/-- A transaction of one quick trade is sound. -/
theorem Settled.sound {p : Batch} (h : Settled byHolding [] p) (quick : p.updatedTrades = [])
    (tradeSeed ownedSeed : Int) :
    Sound byTrade byHolding ([] ++ [(p.number tradeSeed ownedSeed).store c]) := by
  refine sound_nil.append ⟨?_, h.rows, h.owned, fun _ => ?_⟩ tradeSeed ownedSeed ?_ ?_ ?_
  · simp [quick]
  · simp [quick]
  · simp [quick]
  · simp [quick]
  · exact fun on r inRows => by simp [insertedPairs]

theorem addTrade_holds (trade : Trade) {post : Unit → Connection → Prop}
    (clean : l.committed = [])
    (next : ∀ trade' : Trade, post () (l.write (.addTrade trade'))) :
    Holds (machine c) (rules byTrade byHolding) (addTrade trade) post l := by
  unfold addTrade
  rw [holds_bind]
  refine dbNotResponding_holds clean ?_
  exact write_holds clean trivial (next _)

theorem buyAssets_holds (accountId instrumentId : Int) (amount : ℚ)
    {post : Trade → Connection → Prop} (clean : l.committed = []) (idle : l.pending = {})
    (next : ∀ trade l', l'.tx = none → post trade l') :
    Holds (machine c) (rules byTrade byHolding)
      (TradeService.buyAssets accountId instrumentId amount) post l := by
  unfold TradeService.buyAssets TradeService.validateInput getBalanceOfAccount getInstrument
    getLastPriceByInstrumentId getProduct
  rw [holds_bind]
  split
  · exact throw_holds clean
  · rw [holds_pure, holds_bind]
    refine read_holds clean fun balance l₁ read₁ clean₁ => ?_
    split
    · rw [holds_bind]
      refine read_holds clean₁ fun instrument l₂ read₂ clean₂ => ?_
      split
      · rw [holds_bind]
        refine read_holds clean₂ fun price l₃ read₃ clean₃ => ?_
        rw [holds_bind]
        refine deref_holds clean₃ fun price _ => ?_
        rw [holds_bind]
        refine read_holds clean₃ fun product l₄ read₄ clean₄ => ?_
        rw [holds_bind]
        refine deref_holds clean₄ fun product _ => ?_
        have idle₄ : l₄.pending = {} := by
          rw [read₄.pending, read₃.pending, read₂.pending, read₁.pending, idle]
        simp only
        split
        · exact throw_holds clean₄
        · rw [holds_bind]
          refine begin_holds clean₄ ?_
          rw [holds_bind]
          refine now_holds clean₄ ?_
          rw [holds_bind]
          refine addTrade_holds _ clean₄ fun trade => ?_
          rw [holds_bind]
          refine updateBalance_holds _ _ _ _ (by simpa using clean₄) fun l₅ charged => ?_
          rw [holds_bind]
          have clean₅ : l₅.committed = [] := by rw [charged.committed]; simpa using clean₄
          refine updateOwnedInstrument_holds _ _ _ clean₅ fun l₆ held => ?_
          rw [holds_bind]
          obtain ⟨batch, trades⟩ := settled (.inl rfl) charged held
            (by simp [Batch.write, idle₄]) (by simp [Batch.write, idle₄])
            (by simp [Batch.write, idle₄])
          refine saveChangesOrRollback_holds [] (by rw [held.committed, clean₅])
            (by rw [held.tx, charged.tx]; simp)
            (Settled.sound (by simpa using batch) (by rw [trades]; simp [Batch.write, idle₄])) ?_
          exact fun b l' ended => next _ _ ended
      · exact throw_holds clean₂
    · exact throw_holds clean₁

theorem sellAssets_holds (accountId instrumentId : Int) (amount : ℚ)
    {post : Trade → Connection → Prop} (clean : l.committed = []) (idle : l.pending = {})
    (next : ∀ trade l', l'.tx = none → post trade l') :
    Holds (machine c) (rules byTrade byHolding)
      (TradeService.sellAssets accountId instrumentId amount) post l := by
  unfold TradeService.sellAssets TradeService.validateInput getBalanceOfAccount getInstrument
    getLastPriceByInstrumentId getProduct getOwnedInstrument
  rw [holds_bind]
  split
  · exact throw_holds clean
  · rw [holds_pure, holds_bind]
    refine read_holds clean fun balance l₁ read₁ clean₁ => ?_
    split
    · rw [holds_bind]
      refine read_holds clean₁ fun instrument l₂ read₂ clean₂ => ?_
      split
      · rw [holds_bind]
        refine read_holds clean₂ fun price l₃ read₃ clean₃ => ?_
        rw [holds_bind]
        refine deref_holds clean₃ fun price _ => ?_
        rw [holds_bind]
        refine read_holds clean₃ fun product l₄ read₄ clean₄ => ?_
        rw [holds_bind]
        refine readOwned_holds clean₄ fun owned l₅ read₅ clean₅ tracked => ?_
        have idle₅ : l₅.pending = {} := by
          rw [read₅.pending, read₄.pending, read₃.pending, read₂.pending, read₁.pending, idle]
        split
        · rename_i ownedInstrument
          split
          · exact throw_holds clean₅
          · rw [holds_bind]
            refine begin_holds clean₅ ?_
            rw [holds_bind]
            refine now_holds clean₅ ?_
            rw [holds_bind]
            refine addTrade_holds _ clean₅ fun trade => ?_
            rw [holds_bind]
            refine deref_holds (by simpa using clean₅) fun product _ => ?_
            rw [holds_bind]
            refine updateBalance_holds _ _ _ _ (by simpa using clean₅) fun l₆ charged => ?_
            rw [holds_bind]
            have clean₆ : l₆.committed = [] := by rw [charged.committed]; simpa using clean₅
            have isTracked : ownedInstrument ∈ l₆.owned := by
              rw [charged.owned]
              exact tracked _ rfl
            refine updateOwned_holds _ _ clean₆ ⟨_, isTracked, rfl, rfl⟩ fun l₇ held => ?_
            rw [holds_bind]
            obtain ⟨batch, trades⟩ := settled (.inr (.inl rfl)) charged held
              (by simp [Batch.write, idle₅]) (by simp [Batch.write, idle₅])
              (by simp [Batch.write, idle₅])
            refine saveChangesOrRollback_holds [] (by rw [held.committed, clean₆])
              (by rw [held.tx, charged.tx]; simp)
              (Settled.sound (by simpa using batch) (by rw [trades]; simp [Batch.write, idle₅])) ?_
            exact fun b l' ended => next _ _ ended
        · exact throw_holds clean₅
      · exact throw_holds clean₂
    · exact throw_holds clean₁

theorem createLongTransaction_holds (accountId instrumentId : Int) (amount : ℚ) (duration : Int)
    (price : ℚ) (type : ActionType) {post : Trade → Connection → Prop} (clean : l.committed = [])
    (idle : l.pending = {}) (next : ∀ trade l', l'.tx = none → post trade l') :
    Holds (machine c) (rules byTrade byHolding)
      (LongTradeService.createLongTransaction accountId instrumentId amount duration price type)
      post l := by
  have validated : ∀ {post : Unit → Connection → Prop}, post () l →
      Holds (machine c) (rules byTrade byHolding)
        (LongTradeService.validateInput amount price duration) post l := fun h => by
    unfold LongTradeService.validateInput
    split
    · exact throw_holds clean
    · split
      · exact throw_holds clean
      · split
        · exact throw_holds clean
        · exact h
  unfold LongTradeService.createLongTransaction getBalanceOfAccount getInstrument
  rw [holds_bind]
  refine validated ?_
  rw [holds_bind]
  refine read_holds clean fun balance l₁ read₁ clean₁ => ?_
  split
  · rw [holds_bind]
    refine read_holds clean₁ fun instrument l₂ read₂ clean₂ => ?_
    split
    · rw [holds_bind]
      refine begin_holds clean₂ ?_
      rw [holds_bind]
      refine now_holds clean₂ ?_
      rw [holds_bind]
      refine ofExcept_holds clean₂ fun trade _ => ?_
      rw [holds_bind]
      refine addTrade_holds _ clean₂ fun trade' => ?_
      rw [holds_bind]
      have pending : (({ l₂ with tx := some [] } : Connection).write (.addTrade trade')).pending =
          { insertedTrades := [trade'] } := by
        simp [Batch.write, read₂.pending, read₁.pending, idle]
      refine saveChangesOrRollback_holds [] (by simpa using clean₂) (by simp) ?_
        fun b l' ended => next _ _ ended
      rw [pending]
      exact Settled.sound
        ⟨.nil, Nat.zero_le 1, fun _ => List.forall_mem_nil _⟩ rfl
    · exact throw_holds clean₂
  · exact throw_holds clean₁

/-! ## Processing -/

/-- The pending batch of one turn of the processing loop. -/
structure Piece (byHolding : Prop) (trade : Trade) (bs : List Batch) (p : Batch) : Prop where
  fit : p.Fit
  ids : (p.updatedTrades.map Trade.id).Nodup
  own : ∀ r ∈ p.updatedTrades, r.id = trade.id
  pairs : byHolding → ∀ r ∈ p.insertedOwned, r.pair ∉ insertedPairs bs

/-- A turn that does nothing. -/
theorem piece_idle (trade : Trade) (bs : List Batch) : Piece byHolding trade bs {} :=
  ⟨fit_empty, .nil, List.forall_mem_nil _, fun _ => List.forall_mem_nil _⟩

/-- A turn that closes its trade, with an effect only if the trade has happened. -/
theorem Closed.piece {l' : Connection} {trade : Trade} {happened : Bool} {bs : List Batch}
    (closed : Closed trade happened l l') (open' : l.pending.updatedTrades = [])
    (batch : Settled byHolding bs l.pending)
    (effect : happened = true ∨ l.pending.insertedHistory = [] ∧
      l.pending.insertedOwned = [] ∧ l.pending.updatedOwned = []) :
    Piece byHolding trade bs l'.pending := by
  obtain ⟨row, sameId, isClosed, isHappened, pending⟩ := closed.pending
  rw [pending, open']
  have single : ∀ r ∈ put Trade.id [] row, r = row := fun r inRows => by simpa using inRows
  refine ⟨⟨?_, batch.rows, batch.owned, fun some r inRows => ?_⟩, ?_, ?_, batch.pairs⟩
  · intro r inRows
    rw [single r inRows, isClosed]
  · rw [single r inRows, isHappened]
    rcases effect with yes | ⟨history, inserted, updated⟩
    · exact yes
    · simp [history, inserted, updated] at some
  · simp
  · intro r inRows
    rw [single r inRows, sameId]

/-- Nothing pending is a settled batch. -/
theorem settled_idle (bs : List Batch) : Settled byHolding bs {} :=
  ⟨.nil, Nat.zero_le 1, fun _ => List.forall_mem_nil _⟩

/-- Closing a trade without an effect. -/
theorem closeFailed_holds (trade : Trade) (status : String) {post : Unit → Connection → Prop}
    (clean : l.committed = []) (idle : l.pending = {})
    (next : ∀ l', l'.committed = [] → l'.tx = l.tx →
      Piece byHolding trade (l.tx.getD []) l'.pending → post () l') :
    Holds (machine c) (rules byTrade byHolding)
      (LongTradeService.closeTrade trade status false) post l :=
  closeTrade_holds trade status false clean fun l' closed =>
    next l' (closed.committed.trans clean) closed.tx
      (closed.piece (by rw [idle]) (by rw [idle]; exact settled_idle _)
        (.inr (by simp [idle])))

/-- Closing a trade after its effect. -/
theorem closeHappened_holds {l₀ : Connection} (trade : Trade) (status : String)
    {post : Unit → Connection → Prop} (clean : l.committed = []) (sameTx : l.tx = l₀.tx)
    (open' : l.pending.updatedTrades = [])
    (batch : Settled byHolding (l₀.tx.getD []) l.pending)
    (next : ∀ l', l'.committed = [] → l'.tx = l₀.tx →
      Piece byHolding trade (l₀.tx.getD []) l'.pending → post () l') :
    Holds (machine c) (rules byTrade byHolding)
      (LongTradeService.closeTrade trade status true) post l :=
  closeTrade_holds trade status true clean fun l' closed =>
    next l' (closed.committed.trans clean) (closed.tx.trans sameTx)
      (closed.piece open' batch (.inl rfl))

theorem processLongBuy_holds (trade : Trade) (instrument : Instrument) (price : Price)
    (product : Product) {post : Unit → Connection → Prop} (clean : l.committed = [])
    (idle : l.pending = {})
    (next : ∀ l', l'.committed = [] → l'.tx = l.tx →
      Piece byHolding trade (l.tx.getD []) l'.pending → post () l') :
    Holds (machine c) (rules byTrade byHolding)
      (LongTradeService.processLongBuy trade instrument price product) post l := by
  unfold LongTradeService.processLongBuy getBalanceOfAccount
  split
  · exact next l clean rfl (by rw [idle]; exact piece_idle ..)
  · rw [holds_bind]
    refine read_holds clean fun balance l₁ read₁ clean₁ => ?_
    rw [holds_bind]
    refine deref_holds clean₁ fun balance _ => ?_
    have idle₁ : l₁.pending = {} := read₁.pending.trans idle
    simp only
    split
    · refine closeFailed_holds trade _ clean₁ idle₁ fun l' clean' tx piece => ?_
      rw [read₁.tx] at tx piece
      exact next l' clean' tx piece
    · rw [holds_bind]
      refine updateBalance_holds _ _ _ _ clean₁ fun l₂ charged => ?_
      have clean₂ : l₂.committed = [] := charged.committed.trans clean₁
      rw [holds_bind]
      refine updateOwnedInstrument_holds _ _ _ clean₂ fun l₃ held => ?_
      obtain ⟨batch, trades⟩ := settled (.inr (.inr (.inl rfl))) charged held (by simp [idle₁])
        (by simp [idle₁]) (by simp [idle₁])
      rw [read₁.tx] at batch
      exact closeHappened_holds trade _ (held.committed.trans clean₂)
        ((held.tx.trans charged.tx).trans read₁.tx) (by rw [trades, idle₁]) batch next

theorem processLongSell_holds (trade : Trade) (instrument : Instrument) (price : Price)
    (product : Product) {post : Unit → Connection → Prop} (clean : l.committed = [])
    (idle : l.pending = {})
    (next : ∀ l', l'.committed = [] → l'.tx = l.tx →
      Piece byHolding trade (l.tx.getD []) l'.pending → post () l') :
    Holds (machine c) (rules byTrade byHolding)
      (LongTradeService.processLongSell trade instrument price product) post l := by
  have failed : ∀ (status : String) (l₁ : Connection), Reading l l₁ → l₁.committed = [] →
      Holds (machine c) (rules byTrade byHolding)
        (LongTradeService.closeTrade trade status false) post l₁ := by
    intro status l₁ read₁ clean₁
    refine closeFailed_holds trade _ clean₁ (read₁.pending.trans idle) fun l' clean' tx piece => ?_
    rw [read₁.tx] at tx piece
    exact next l' clean' tx piece
  unfold LongTradeService.processLongSell getBalanceOfAccount getOwnedInstrument
  split
  · exact next l clean rfl (by rw [idle]; exact piece_idle ..)
  · rw [holds_bind]
    refine readOwned_holds clean fun owned l₁ read₁ clean₁ tracked => ?_
    cases owned with
    | none => exact failed _ l₁ read₁ clean₁
    | some owned =>
      simp only
      split
      · exact failed _ l₁ read₁ clean₁
      · rw [holds_bind]
        refine read_holds clean₁ fun balance l₂ read₂ clean₂ => ?_
        rw [holds_bind]
        refine deref_holds clean₂ fun balance _ => ?_
        have idle₂ : l₂.pending = {} := by rw [read₂.pending, read₁.pending, idle]
        rw [holds_bind]
        refine updateBalance_holds _ _ _ _ clean₂ fun l₃ charged => ?_
        have clean₃ : l₃.committed = [] := charged.committed.trans clean₂
        rw [holds_bind]
        have isTracked : owned ∈ l₃.owned := by
          rw [charged.owned]
          exact read₂.owned _ (tracked _ rfl)
        refine updateOwned_holds _ _ clean₃ ⟨_, isTracked, rfl, rfl⟩ fun l₄ held => ?_
        obtain ⟨batch, trades⟩ := settled (.inr (.inr (.inr rfl))) charged held (by simp [idle₂])
          (by simp [idle₂]) (by simp [idle₂])
        rw [read₂.tx, read₁.tx] at batch
        exact closeHappened_holds trade _ (held.committed.trans clean₃)
          (by rw [held.tx, charged.tx, read₂.tx, read₁.tx]) (by rw [trades, idle₂]) batch next

/-- What holds between two turns of the processing loop, with these trades to come. -/
structure Between (byTrade byHolding : Prop) (rest : List Trade) (l : Connection) : Prop where
  clean : l.committed = []
  idle : l.pending = {}
  sent : ∃ bs, l.tx = some bs ∧ Sound byTrade byHolding bs ∧
    (byTrade → (rest.map Trade.id).Nodup ∧ ∀ r ∈ rest, r.id ∉ updatedIds bs)

theorem processTrade_holds (instruments : List Instrument) (prices : List Price)
    (products : List Product) (trade : Trade) (rest : List Trade)
    (h : Between byTrade byHolding (trade :: rest) l) :
    Holds (machine c) (rules byTrade byHolding)
      (LongTradeService.processTrade instruments prices products trade)
      (fun _ => Between byTrade byHolding rest) l := by
  obtain ⟨clean, idle, bs, opened, sound, apart⟩ := h
  have turn : ∀ l', l'.committed = [] → l'.tx = l.tx →
      Piece byHolding trade (l.tx.getD []) l'.pending →
      Holds (machine c) (rules byTrade byHolding) (do let _ ← saveChanges : Task Unit)
        (fun _ => Between byTrade byHolding rest) l' := by
    intro l' clean' tx piece
    rw [opened] at tx piece
    rw [holds_bind]
    refine save_holds bs clean' tx fun b numbering tradeSeed ownedSeed => ?_
    refine ⟨clean', rfl, _, rfl, sound.append piece.fit _ _ (fun _ => piece.ids) ?_ piece.pairs, ?_⟩
    · intro on r inRows
      rw [piece.own r inRows]
      exact (apart on).2 trade List.mem_cons_self
    · intro on
      obtain ⟨distinct, unsent⟩ := apart on
      simp only [List.map_cons, List.nodup_cons] at distinct
      refine ⟨distinct.2, fun r inRest inIds => ?_⟩
      rw [updatedIds_append, updatedIds_sent] at inIds
      rcases List.mem_append.1 inIds with old | new
      · exact unsent r (List.mem_cons_of_mem _ inRest) old
      · obtain ⟨x, inRows, same⟩ := List.mem_map.1 new
        rw [piece.own x inRows] at same
        exact distinct.1 (same ▸ List.mem_map_of_mem inRest)
  unfold LongTradeService.processTrade
  rw [holds_bind]
  refine item_holds clean fun instrument _ => ?_
  rw [holds_bind]
  refine item_holds clean fun price _ => ?_
  rw [holds_bind]
  refine item_holds clean fun product _ => ?_
  split
  · rw [holds_bind]
    exact processLongBuy_holds _ _ _ _ clean idle turn
  · split
    · rw [holds_bind]
      exact processLongSell_holds _ _ _ _ clean idle turn
    · rw [holds_bind]
      exact closeFailed_holds _ _ clean idle turn

/-- The sweep closes trades and does nothing else. -/
theorem closeOverdueTrades_holds {post : Unit → Connection → Prop} (clean : l.committed = [])
    (idle : l.pending = {})
    (next : ∀ l' rows, l'.committed = [] → l'.tx = l.tx →
      l'.pending = { updatedTrades := rows } → (rows.map Trade.id).Nodup →
      (∀ r ∈ rows, r.tradeClosed = true) → post () l') :
    Holds (machine c) (rules byTrade byHolding) LongTradeService.closeOverdueTrades post l := by
  unfold LongTradeService.closeOverdueTrades
  rw [holds_bind]
  refine now_holds clean ?_
  rw [holds_bind]
  refine read_holds clean fun overdue l₁ read₁ clean₁ => ?_
  refine (holds_forEach (fun _ l' => l'.committed = [] ∧ l'.tx = l.tx ∧ ∃ rows : List Trade,
    l'.pending = { updatedTrades := rows } ∧ (rows.map Trade.id).Nodup ∧
      ∀ r ∈ rows, r.tradeClosed = true) ?_ overdue l₁
    ⟨clean₁, read₁.tx, [], by rw [read₁.pending, idle], .nil,
      List.forall_mem_nil _⟩).mono ?_
  · rintro trade _ l₂ ⟨clean₂, tx₂, rows, pending, distinct, closed⟩
    refine closeTrade_holds trade _ false clean₂ fun l₃ now => ?_
    obtain ⟨row, _, isClosed, _, pending'⟩ := now.pending
    refine ⟨now.committed.trans clean₂, now.tx.trans tx₂, put Trade.id rows row,
      by rw [pending', pending], ?_, fun r inRows => ?_⟩
    · rw [put, List.map_append, List.map_singleton]
      refine List.Nodup.append (distinct.sublist (List.filter_sublist.map _))
        (List.nodup_singleton _) fun k old new => ?_
      obtain ⟨x, kept, rfl⟩ := List.mem_map.1 old
      simpa [List.mem_singleton.1 new] using (List.mem_filter.1 kept).2
    · rcases mem_put.1 inRows with ⟨old, -⟩ | rfl
      · exact closed r old
      · exact isClosed
  · rintro _ l' ⟨clean', tx, rows, pending, distinct, closed⟩
    exact next l' rows clean' tx pending distinct closed

/-- The open trades a connection sees after its sweep: each once, and none of those
the sweep has closed. -/
theorem openTrades_apart {g : Server} {b : Batch} (opened : l.tx = some [b])
    (inserted : b.insertedTrades = []) (closed : ∀ r ∈ b.updatedTrades, r.tradeClosed = true)
    (unique : (g.tables.db.trades.map Trade.id).Nodup) :
    ((l.resolve .openTrades (answer l.env (l.view g) .openTrades)).map Trade.id).Nodup ∧
      ∀ r ∈ l.resolve .openTrades (answer l.env (l.view g) .openTrades),
        r.id ∉ updatedIds [b] := by
  have sameIds : ∀ rows : List Trade,
      (rows.map (resolve Trade.id l.trades)).map Trade.id = rows.map Trade.id := fun rows => by
    rw [List.map_map]
    exact List.map_congr_left fun r _ => key_resolve l.trades r
  have trades : (l.view g).trades = overwrite Trade.id b.updatedTrades g.tables.db.trades := by
    rw [Connection.view, opened, Option.getD_some, Database.applyAll_cons, Database.applyAll_nil,
      Database.apply, inserted, List.append_nil]
  constructor
  · change ((List.map (resolve Trade.id l.trades) _).map Trade.id).Nodup
    rw [sameIds]
    refine ((List.perm_insertionSort _ _).map Trade.id).nodup_iff.2 ?_
    refine List.Nodup.sublist (List.filter_sublist.map _) ?_
    rw [trades, map_key_overwrite]
    exact unique
  · intro r inRows inIds
    obtain ⟨x, inAnswer, rfl⟩ := List.mem_map.1 inRows
    obtain ⟨inView, isOpen⟩ := List.mem_filter.1 ((List.mem_insertionSort _).1 inAnswer)
    obtain ⟨y, inUpdated, same⟩ := List.mem_map.1 inIds
    have same : y.id = x.id := same.trans (key_resolve l.trades x)
    simp only [List.flatMap_singleton] at inUpdated
    rw [trades] at inView
    rcases mem_overwrite inView with updated | ⟨-, apart⟩
    · simp [Trade.isOpen, closed x updated] at isOpen
    · exact apart y inUpdated same

/-- The query for the open trades, after the sweep has been saved. -/
theorem askOpenTrades_holds {b : Batch} {post : List Trade → Connection → Prop}
    (clean : l.committed = []) (opened : l.tx = some [b]) (inserted : b.insertedTrades = [])
    (closed : ∀ r ∈ b.updatedTrades, r.tradeClosed = true)
    (next : ∀ rows l', Reading l l' → l'.committed = [] →
      (byTrade → (rows.map Trade.id).Nodup ∧ ∀ r ∈ rows, r.id ∉ updatedIds [b]) → post rows l') :
    Holds (machine c) (rules byTrade byHolding) (send (.ask .openTrades)) post l :=
  ask_holds clean fun _ valid => next _ _ (reading_receive ..) (by simpa using clean) fun on =>
    openTrades_apart opened inserted closed (valid.1 on)

theorem processLongRunningTransactions_holds {post : Unit → Connection → Prop}
    (clean : l.committed = []) (idle : l.pending = {})
    (next : ∀ l', l'.tx = none → post () l') :
    Holds (machine c) (rules byTrade byHolding) LongTradeService.processLongRunningTransactions
      post l := by
  unfold LongTradeService.processLongRunningTransactions getAllInstruments getLatestPrices
    getProducts
  rw [holds_bind]
  refine begin_holds clean ?_
  rw [holds_bind]
  refine closeOverdueTrades_holds clean idle fun l₁ swept clean₁ tx₁ pending distinct closed => ?_
  rw [holds_bind]
  refine save_holds [] clean₁ tx₁ fun b numbering tradeSeed ownedSeed => ?_
  rw [holds_bind, pending]
  have fit : Batch.Fit { updatedTrades := swept } :=
    ⟨closed, .nil, Nat.zero_le 1, fun some => by simp at some⟩
  have sound : Sound byTrade byHolding
      ([] ++ [(Batch.number tradeSeed ownedSeed { updatedTrades := swept }).store c]) :=
    sound_nil.append fit _ _ (fun _ => distinct) (fun _ _ _ => by simp [updatedIds])
      fun _ => List.forall_mem_nil _
  refine askOpenTrades_holds clean₁ rfl rfl (sound.fit _ List.mem_cons_self).closed
    fun openTrades l₂ read₂ clean₂ apart => ?_
  rw [holds_bind]
  refine read_holds clean₂ fun instruments l₃ read₃ clean₃ => ?_
  rw [holds_bind]
  refine toDictionary_holds clean₃ ?_
  rw [holds_bind]
  refine read_holds clean₃ fun prices l₄ read₄ clean₄ => ?_
  rw [holds_bind]
  refine toDictionary_holds clean₄ ?_
  rw [holds_bind]
  refine read_holds clean₄ fun products l₅ read₅ clean₅ => ?_
  rw [holds_bind]
  refine toDictionary_holds clean₅ ?_
  rw [holds_bind]
  refine (holds_forEach (Between byTrade byHolding)
    (fun trade rest l h => processTrade_holds _ _ _ trade rest h) _ l₅ ?_).mono ?_
  · refine ⟨clean₅, ?_, _, ?_, sound, apart⟩
    · rw [read₅.pending, read₄.pending, read₃.pending, read₂.pending]
      rfl
    · rw [read₅.tx, read₄.tx, read₃.tx, read₂.tx]
  · rintro _ l₆ ⟨clean₆, idle₆, bs, opened, sound₆, -⟩
    rw [holds_bind]
    refine saveChangesOrRollback_holds bs clean₆ opened ?_ fun b l' ended => next l' ended
    rw [idle₆]
    exact fun _ _ => sound₆.append fit_empty _ _ (fun _ => .nil) (fun _ => List.forall_mem_nil _)
      fun _ => List.forall_mem_nil _

/-- Every request keeps the rules, and one that returns has ended its transaction. -/
theorem handle_holds (request : Request) (clean : l.committed = []) (idle : l.pending = {}) :
    Holds (machine c) (rules byTrade byHolding) (handle request) (fun _ l' => l'.tx = none) l := by
  cases request with
  | deposit =>
    rw [handle, holds_bind]
    exact modifyBalance_holds _ _ _ clean idle fun _ _ ended => ended
  | withdraw =>
    rw [handle, holds_bind]
    exact modifyBalance_holds _ _ _ clean idle fun _ _ ended => ended
  | buyAssets =>
    rw [handle, holds_bind]
    exact buyAssets_holds _ _ _ clean idle fun _ _ ended => ended
  | sellAssets =>
    rw [handle, holds_bind]
    exact sellAssets_holds _ _ _ clean idle fun _ _ ended => ended
  | longBuyAssets =>
    rw [handle, holds_bind]
    exact createLongTransaction_holds _ _ _ _ _ _ clean idle fun _ _ ended => ended
  | longSellAssets =>
    rw [handle, holds_bind]
    exact createLongTransaction_holds _ _ _ _ _ _ clean idle fun _ _ ended => ended
  | processLongRunningTransactions =>
    rw [handle, holds_bind]
    exact processLongRunningTransactions_holds clean idle fun _ ended => ended

end EasyTrade.Broker
