import EasyTrade.Broker.Entities
import EasyTrade.Ledger.Decimal
import EasyTrade.Store.Tracker

/-!
# The broker database

The tables of the broker, the rows one `SaveChanges` sends to them, and the
questions the repositories ask. A table is the list of its rows in insertion
order. A `Batch` is what one save sends; a transaction is the list of its
batches and a committed transaction is applied batch by batch.
-/

namespace EasyTrade.Broker

open EasyTrade.Store EasyTrade.Ledger

/-- The tables the broker reads and writes. -/
structure Database where
  balances : List Balance
  history : List BalanceHistory
  owned : List OwnedInstrument
  trades : List Trade
  instruments : List Instrument
  products : List Product
deriving DecidableEq

/-- The rows one `SaveChanges` sends. -/
structure Batch where
  insertedTrades : List Trade := []
  updatedTrades : List Trade := []
  updatedBalances : List Balance := []
  insertedHistory : List BalanceHistory := []
  insertedOwned : List OwnedInstrument := []
  updatedOwned : List OwnedInstrument := []
deriving DecidableEq

/-! ## Rows in decimal columns -/

/-- The row as its columns keep it. -/
def Balance.store (c : DecimalColumn) (r : Balance) : Balance := { r with value := c.store r.value }

/-- The row as its columns keep it. -/
def BalanceHistory.store (c : DecimalColumn) (r : BalanceHistory) : BalanceHistory :=
  { r with oldValue := c.store r.oldValue, valueChange := c.store r.valueChange }

/-- The row as its columns keep it. -/
def OwnedInstrument.store (c : DecimalColumn) (r : OwnedInstrument) : OwnedInstrument :=
  { r with quantity := c.store r.quantity }

/-- The row as its columns keep it. -/
def Trade.store (c : DecimalColumn) (r : Trade) : Trade :=
  { r with quantity := c.store r.quantity, entryPrice := c.store r.entryPrice }

/-- The columns of a balance that are not decimal. -/
def Balance.blank (r : Balance) : Balance := { r with value := 0 }

/-- The columns of a holding that are not decimal. -/
def OwnedInstrument.blank (r : OwnedInstrument) : OwnedInstrument := { r with quantity := 0 }

/-- The columns of a trade that are not decimal. -/
def Trade.blank (r : Trade) : Trade := { r with quantity := 0, entryPrice := 0 }

namespace Batch

/-- The batch as the columns keep it. -/
def store (c : DecimalColumn) (b : Batch) : Batch where
  insertedTrades := b.insertedTrades.map (Trade.store c)
  updatedTrades := b.updatedTrades.map (Trade.store c)
  updatedBalances := b.updatedBalances.map (Balance.store c)
  insertedHistory := b.insertedHistory.map (BalanceHistory.store c)
  insertedOwned := b.insertedOwned.map (OwnedInstrument.store c)
  updatedOwned := b.updatedOwned.map (OwnedInstrument.store c)

/-- The batch with the identifiers the database gives to new rows. -/
def number (tradeSeed ownedSeed : Int) (b : Batch) : Batch :=
  { b with
    insertedTrades := b.insertedTrades.mapIdx fun n (r : Trade) => { r with id := tradeSeed + n }
    insertedOwned := b.insertedOwned.mapIdx fun n (r : OwnedInstrument) =>
      { r with id := ownedSeed + n } }

/-- New rows leave their identifier to the database. -/
def Unnumbered (b : Batch) : Prop :=
  (∀ r ∈ b.insertedTrades, r.id = 0) ∧ ∀ r ∈ b.insertedOwned, r.id = 0

instance (b : Batch) : Decidable b.Unnumbered := inferInstanceAs (Decidable (_ ∧ _))

/-- The object of a new trade after the save has set its identifier. -/
def saved (b : Batch) (trade : Trade) : Trade := b.insertedTrades.head?.getD trade

end Batch

namespace Database

/-- The database after a batch: updates by primary key, insertions at the end. -/
def apply (db : Database) (b : Batch) : Database :=
  { db with
    balances := overwrite Balance.accountId b.updatedBalances db.balances
    history := db.history ++ b.insertedHistory
    owned := overwrite OwnedInstrument.id b.updatedOwned db.owned ++ b.insertedOwned
    trades := overwrite Trade.id b.updatedTrades db.trades ++ b.insertedTrades }

/-- The database after several batches. -/
def applyAll (db : Database) (bs : List Batch) : Database := bs.foldl apply db

@[simp] theorem applyAll_nil (db : Database) : db.applyAll [] = db := rfl

@[simp] theorem applyAll_cons (db : Database) (b : Batch) (bs : List Batch) :
    db.applyAll (b :: bs) = (db.apply b).applyAll bs := rfl

@[simp] theorem applyAll_append (db : Database) (bs more : List Batch) :
    db.applyAll (bs ++ more) = (db.applyAll bs).applyAll more := List.foldl_append ..

/-- An empty batch changes nothing. -/
@[simp] theorem apply_empty (db : Database) : db.apply {} = db := by
  simp [apply]

@[simp] theorem instruments_applyAll (db : Database) (bs : List Batch) :
    (db.applyAll bs).instruments = db.instruments := by
  induction bs generalizing db with
  | nil => rfl
  | cons b bs ih => exact ih (db.apply b)

@[simp] theorem products_applyAll (db : Database) (bs : List Batch) :
    (db.applyAll bs).products = db.products := by
  induction bs generalizing db with
  | nil => rfl
  | cons b bs ih => exact ih (db.apply b)

@[simp] theorem history_applyAll (db : Database) (bs : List Batch) :
    (db.applyAll bs).history = db.history ++ bs.flatMap Batch.insertedHistory := by
  induction bs generalizing db with
  | nil => simp
  | cons b bs ih => simp [ih, apply]

/-- The balance row of an account. -/
def balanceOf (db : Database) (accountId : Int) : Option Balance :=
  lookup Balance.accountId accountId db.balances

/-- The first holding of an account in an instrument. -/
def ownedOf (db : Database) (accountId instrumentId : Int) : Option OwnedInstrument :=
  db.owned.find? fun r => decide (r.accountId = accountId ∧ r.instrumentId = instrumentId)

end Database

/-! ## Tables with their identity columns -/

/-- A database with the next identifiers of its identity columns. -/
structure Tables where
  db : Database
  tradeSeed : Int
  ownedSeed : Int

namespace Tables

/-- The tables after a batch whose new rows have been numbered. -/
def apply (s : Tables) (b : Batch) : Tables where
  db := s.db.apply b
  tradeSeed := s.tradeSeed + b.insertedTrades.length
  ownedSeed := s.ownedSeed + b.insertedOwned.length

/-- The tables after several batches. -/
def applyAll (s : Tables) (bs : List Batch) : Tables := bs.foldl apply s

@[simp] theorem applyAll_nil (s : Tables) : s.applyAll [] = s := rfl

@[simp] theorem applyAll_append (s : Tables) (bs more : List Batch) :
    s.applyAll (bs ++ more) = (s.applyAll bs).applyAll more := List.foldl_append ..

@[simp] theorem applyAll_singleton (s : Tables) (b : Batch) : s.applyAll [b] = s.apply b := rfl

@[simp] theorem db_applyAll (s : Tables) (bs : List Batch) :
    (s.applyAll bs).db = s.db.applyAll bs := by
  induction bs generalizing s with
  | nil => rfl
  | cons b bs ih => exact ih (s.apply b)

/-- The keys of the tables: what the primary keys and identity columns give. -/
structure Valid (s : Tables) : Prop where
  /-- An account has one balance. -/
  balances : (s.db.balances.map Balance.accountId).Nodup
  /-- Trades have their own identifiers. -/
  trades : (s.db.trades.map Trade.id).Nodup
  /-- Holdings have their own identifiers. -/
  owned : (s.db.owned.map OwnedInstrument.id).Nodup
  /-- Identifiers of trades to come are new. -/
  tradeSeed : ∀ r ∈ s.db.trades, r.id < s.tradeSeed
  /-- Identifiers of holdings to come are new. -/
  ownedSeed : ∀ r ∈ s.db.owned, r.id < s.ownedSeed

end Tables

/-- Numbered rows have the identifiers from the seed on. -/
theorem mapIdx_id {ρ : Type} (id : ρ → Int) (setId : ρ → Int → ρ) (sets : ∀ r n, id (setId r n) = n)
    (seed : Int) (rows : List ρ) :
    ((rows.mapIdx fun n r => setId r (seed + n)).map id).Nodup ∧
      ∀ x ∈ rows.mapIdx (fun n r => setId r (seed + n)),
        seed ≤ id x ∧ id x < seed + rows.length := by
  constructor
  · rw [List.nodup_iff_injective_get]
    intro i j same
    simp only [List.get_eq_getElem, List.getElem_map, List.getElem_mapIdx, sets] at same
    exact Fin.ext (by omega)
  · intro x inList
    obtain ⟨n, inside, rfl⟩ := List.mem_mapIdx.1 inList
    rw [sets]
    omega

/-- Saving a numbered batch keeps the keys. -/
theorem Tables.Valid.apply_number {s : Tables} (h : s.Valid) (b : Batch) :
    (s.apply (b.number s.tradeSeed s.ownedSeed)).Valid := by
  obtain ⟨tradesDistinct, tradesNew⟩ :=
    mapIdx_id Trade.id (fun r n => { r with id := n }) (fun _ _ => rfl) s.tradeSeed b.insertedTrades
  obtain ⟨ownedDistinct, ownedNew⟩ :=
    mapIdx_id OwnedInstrument.id (fun r n => { r with id := n }) (fun _ _ => rfl) s.ownedSeed
      b.insertedOwned
  refine ⟨?_, ?_, ?_, ?_, ?_⟩
  · simpa only [Tables.apply, Database.apply, map_key_overwrite] using h.balances
  · simp only [Tables.apply, Database.apply, Batch.number, List.map_append, map_key_overwrite]
    refine List.Nodup.append h.trades tradesDistinct fun k old new => ?_
    obtain ⟨r, inOld, rfl⟩ := List.mem_map.1 old
    obtain ⟨x, inNew, same⟩ := List.mem_map.1 new
    have below := h.tradeSeed r inOld
    have above := (tradesNew x inNew).1
    omega
  · simp only [Tables.apply, Database.apply, Batch.number, List.map_append, map_key_overwrite]
    refine List.Nodup.append h.owned ownedDistinct fun k old new => ?_
    obtain ⟨r, inOld, rfl⟩ := List.mem_map.1 old
    obtain ⟨x, inNew, same⟩ := List.mem_map.1 new
    have below := h.ownedSeed r inOld
    have above := (ownedNew x inNew).1
    omega
  · intro r inTrades
    simp only [Tables.apply, Database.apply, Batch.number, List.length_mapIdx] at inTrades ⊢
    rcases List.mem_append.1 inTrades with old | new
    · have sameKey : r.id ∈ s.db.trades.map Trade.id := by
        rw [← map_key_overwrite b.updatedTrades]
        exact List.mem_map_of_mem old
      obtain ⟨x, inOld, same⟩ := List.mem_map.1 sameKey
      have below := h.tradeSeed x inOld
      omega
    · exact (tradesNew r new).2
  · intro r inOwned
    simp only [Tables.apply, Database.apply, Batch.number, List.length_mapIdx] at inOwned ⊢
    rcases List.mem_append.1 inOwned with old | new
    · have sameKey : r.id ∈ s.db.owned.map OwnedInstrument.id := by
        rw [← map_key_overwrite b.updatedOwned]
        exact List.mem_map_of_mem old
      obtain ⟨x, inOld, same⟩ := List.mem_map.1 sameKey
      have below := h.ownedSeed x inOld
      omega
    · exact (ownedNew r new).2

/-! ## Questions -/

/-- What a request finds outside the database. -/
structure Env where
  /-- The clock. -/
  now : Int
  /-- The current candles of the price service. -/
  latestPrices : List Price
  /-- The last candle of an instrument. -/
  lastPrice : Int → Option Price
  /-- The place a trade takes in the answer to a query without an order. -/
  rank : Int → ℕ
  /-- Whether the `db_not_responding` problem pattern is on. -/
  dbNotResponding : Bool

/-- The questions the repositories and the price connector ask. -/
inductive Query where
  | balanceOfAccount (accountId : Int)
  | instrument (instrumentId : Int)
  | ownedInstrument (accountId instrumentId : Int)
  | product (productId : Int)
  /-- The open trades that should have been closed before a time. -/
  | overdueTrades (now : Int)
  | openTrades
  | instruments
  | products
  | latestPrices
  | lastPriceByInstrumentId (instrumentId : Int)
  | ownedInstrumentsOfAccount (accountId : Int)

/-- What answers a question. -/
abbrev Query.Answer : Query → Type
  | balanceOfAccount _ => Option Balance
  | instrument _ => Option Instrument
  | ownedInstrument _ _ => Option OwnedInstrument
  | product _ => Option Product
  | overdueTrades _ => List Trade
  | openTrades => List Trade
  | instruments => List Instrument
  | products => List Product
  | latestPrices => List Price
  | lastPriceByInstrumentId _ => Option Price
  | ownedInstrumentsOfAccount _ => List OwnedInstrument

namespace Trade

/-- `!x.TradeClosed`. -/
def isOpen (t : Trade) : Bool := !t.tradeClosed

/-- `!x.TradeClosed && x.TimestampClose < now`; no comparison with a missing value holds. -/
def isOverdue (now : Int) (t : Trade) : Bool :=
  t.isOpen && t.timestampClose.any fun close => decide (close < now)

/-- Trades as a query without an order returns them. -/
def arrange (rank : Int → ℕ) (trades : List Trade) : List Trade :=
  trades.insertionSort fun a b => rank a.id ≤ rank b.id

end Trade

/-- The answer of the database or the price service. -/
def answer (env : Env) (db : Database) : (q : Query) → q.Answer
  | .balanceOfAccount accountId => db.balanceOf accountId
  | .instrument instrumentId => lookup Instrument.id instrumentId db.instruments
  | .ownedInstrument accountId instrumentId => db.ownedOf accountId instrumentId
  | .product productId => lookup Product.id productId db.products
  | .overdueTrades now => Trade.arrange env.rank (db.trades.filter (Trade.isOverdue now))
  | .openTrades => Trade.arrange env.rank (db.trades.filter Trade.isOpen)
  | .instruments => db.instruments
  | .products => db.products
  | .latestPrices => env.latestPrices
  | .lastPriceByInstrumentId instrumentId => env.lastPrice instrumentId
  | .ownedInstrumentsOfAccount accountId =>
    db.owned.filter fun r => decide (r.accountId = accountId)

/-- The answer with every row exchanged for its copy. -/
def Query.resolve (balances : List Balance) (owned : List OwnedInstrument) (trades : List Trade) :
    (q : Query) → q.Answer → q.Answer
  | .balanceOfAccount _, row => row.map (Store.resolve Balance.accountId balances)
  | .ownedInstrument _ _, row => row.map (Store.resolve OwnedInstrument.id owned)
  | .overdueTrades _, rows => rows.map (Store.resolve Trade.id trades)
  | .openTrades, rows => rows.map (Store.resolve Trade.id trades)
  | .ownedInstrumentsOfAccount _, rows => rows.map (Store.resolve OwnedInstrument.id owned)
  | .instrument _, row => row
  | .product _, row => row
  | .instruments, rows => rows
  | .products, rows => rows
  | .latestPrices, prices => prices
  | .lastPriceByInstrumentId _, price => price

end EasyTrade.Broker
