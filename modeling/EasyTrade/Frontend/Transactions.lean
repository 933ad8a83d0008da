import EasyTrade.Broker.Listing

/-!
# The transaction list of the frontend

The frontend asks the broker for the long-running trades of an account and reads
the state of each from the texts in its record. `Tells` is what its readers take
from the list. The reading is right for every trade the list can hold
(`transactions_tell`), and only for those: a quick trade would be read as an
active sale.
-/

namespace EasyTrade.Frontend

open EasyTrade.Broker EasyTrade.Ledger

/-- A trade as the frontend receives it. Times are the instants their ISO texts denote. -/
abbrev RawTransaction := TradeDTO

/-- A line of the transaction list. -/
structure Transaction where
  id : ℕ
  actionType : String
  instrumentName : String
  amount : ℚ
  price : ℚ
  status : String
  endTime : Option Int
deriving DecidableEq, Repr

/-- `text.indexOf(part)`: where the part occurs first, or -1. -/
def indexOf (part : List Char) : List Char → Int
  | [] => if part.isPrefixOf [] then 0 else -1
  | c :: rest =>
    if part.isPrefixOf (c :: rest) then 0
    else
      let place := indexOf part rest
      if place < 0 then -1 else place + 1

/-- `text.toLowerCase().indexOf(part) > 0`. -/
def occursLate (part text : String) : Bool :=
  decide (0 < indexOf part.toList (text.toList.map Char.toLower))

/-- `mapStatus`. -/
def mapStatus (status : String) : String :=
  if occursLate "finished" status then "SUCCESS"
  else if occursLate "failed" status then "FAIL"
  else "ACTIVE"

/-- `mapDirection`. -/
def mapDirection (direction : String) : String :=
  if occursLate "buy" direction then "BUY" else "SELL"

/-- `mapRawTransaction`. Writing a time in UTC keeps the instant. -/
def mapRawTransaction (raw : RawTransaction) (index : ℕ) : Transaction where
  id := index
  actionType := mapDirection raw.direction
  instrumentName := toString raw.instrumentId
  amount := raw.quantity
  price := raw.entryPrice
  status := mapStatus raw.status
  endTime := raw.timestampClose

/-- `backends.transactions.getAll`, answered by the broker. -/
def getAll (db : Database) (userId : Int) (limit : ℕ) : List RawTransaction :=
  (getTradesOfAccount db userId limit 0 false true).map TradeDTO.new

/-- `getTransactions`. -/
def getTransactions (db : Database) (userId : Int) (records : ℕ) : List Transaction :=
  (getAll db userId records).mapIdx fun index raw => mapRawTransaction raw index

/-! ## What a line tells -/

/-- The line says of the trade what the broker knows of it. -/
structure Tells (t : Trade) (x : Transaction) : Prop where
  buy : x.actionType = "BUY" ↔
    t.direction = ActionType.buy.lower ∨ t.direction = ActionType.longBuy.lower
  sell : x.actionType = "SELL" ↔
    t.direction = ActionType.sell.lower ∨ t.direction = ActionType.longSell.lower
  success : x.status = "SUCCESS" ↔ t.transactionHappened = true
  fail : x.status = "FAIL" ↔ t.tradeClosed = true ∧ t.transactionHappened = false
  active : x.status = "ACTIVE" ↔ t.tradeClosed = false

/-- The direction of a long-running trade is read from the place of the word in it. -/
theorem mapDirection_long {type : ActionType} (isLong : type = .longBuy ∨ type = .longSell) :
    mapDirection type.lower = if type = .longBuy then "BUY" else "SELL" := by
  rcases isLong with rfl | rfl <;> decide +kernel

/-- The word that a registered trade ends in is neither of the two looked for. -/
theorem mapStatus_registered {type : ActionType} (isLong : type = .longBuy ∨ type = .longSell) :
    mapStatus (type.name ++ " registered.") = "ACTIVE" := by
  rcases isLong with rfl | rfl <;> decide +kernel

/-- Every reason for a failure says so. -/
theorem mapStatus_failed : ∀ status ∈ Trade.failures, mapStatus status = "FAIL" := by
  decide +kernel

theorem mapStatus_finished (type : ActionType) : mapStatus type.finished = "SUCCESS" := by
  cases type <;> decide +kernel

/-- A quick trade is neither finished nor failed, as far as its text goes. -/
theorem mapStatus_quick {type : ActionType} (isQuick : type = .buy ∨ type = .sell) :
    mapStatus ("Instant " ++ type.name ++ " done.") = "ACTIVE" := by
  rcases isQuick with rfl | rfl <;> decide +kernel

/-- The direction of a long-running trade reads as its side. -/
theorem mapDirection_tells {t : Trade} {type : ActionType}
    (isLong : type = .longBuy ∨ type = .longSell) (spelling : t.direction = type.lower) :
    (mapDirection t.direction = "BUY" ↔
        t.direction = ActionType.buy.lower ∨ t.direction = ActionType.longBuy.lower) ∧
      (mapDirection t.direction = "SELL" ↔
        t.direction = ActionType.sell.lower ∨ t.direction = ActionType.longSell.lower) := by
  rw [spelling, mapDirection_long isLong]
  rcases isLong with rfl | rfl <;> decide

/-- The line of a trade the broker has written is right just where the trade is a
long-running one. -/
theorem tells_iff_isLong {t : Trade} (recorded : t.Recorded) (index : ℕ) :
    Tells t (mapRawTransaction (.new t) index) ↔ t.isLong = true := by
  have long : ∀ {type : ActionType}, (type = .longBuy ∨ type = .longSell) →
      t.direction = type.lower → t.isLong = true := fun isLong spelling => by
    rw [Trade.isLong, spelling]
    rcases isLong with rfl | rfl <;> decide
  cases recorded with
  | @quick type isQuick spelling isClosed done text =>
    have read : mapStatus t.status = "ACTIVE" := by rw [text, mapStatus_quick isQuick]
    constructor
    · intro tells
      have isOpen := tells.active.1 read
      rw [isClosed] at isOpen
      cases isOpen
    · intro isLong
      rw [Trade.isLong, spelling] at isLong
      rcases isQuick with rfl | rfl <;> exact absurd isLong (by decide)
  | @registered type isLong spelling isOpen waits text =>
    have read : mapStatus t.status = "ACTIVE" := by rw [text, mapStatus_registered isLong]
    refine iff_of_true ?_ (long isLong spelling)
    obtain ⟨buy, sell⟩ := mapDirection_tells isLong spelling
    constructor <;> simp [mapRawTransaction, TradeDTO.new, read, isOpen, waits, buy, sell]
  | @failed type isLong spelling isClosed missed text =>
    have read : mapStatus t.status = "FAIL" := mapStatus_failed _ text
    refine iff_of_true ?_ (long isLong spelling)
    obtain ⟨buy, sell⟩ := mapDirection_tells isLong spelling
    constructor <;> simp [mapRawTransaction, TradeDTO.new, read, isClosed, missed, buy, sell]
  | @finished type isLong spelling isClosed done text =>
    have read : mapStatus t.status = "SUCCESS" := by rw [text, mapStatus_finished]
    refine iff_of_true ?_ (long isLong spelling)
    obtain ⟨buy, sell⟩ := mapDirection_tells isLong spelling
    constructor <;> simp [mapRawTransaction, TradeDTO.new, read, isClosed, done, buy, sell]

/-- After any sequence of calls from a database without trades: the line of a trade is
right just where the trade is a long-running one, and every line of the list of an
account is the right line of one of its long-running trades. -/
theorem transactions_tell (c : DecimalColumn) (g : Server) (calls : List Call)
    (valid : g.tables.Valid) (untraded : g.tables.db.trades = []) :
    (∀ t ∈ (serveAll c g calls).tables.db.trades, ∀ index,
      Tells t (mapRawTransaction (.new t) index) ↔ t.isLong = true) ∧
    ∀ userId records, ∀ x ∈ getTransactions (serveAll c g calls).tables.db userId records,
      ∃ t ∈ (serveAll c g calls).tables.db.trades, t.isLong = true ∧
        x = mapRawTransaction (.new t) x.id ∧ Tells t x := by
  have recorded := serveAll_recorded c g calls valid (by rw [untraded]; exact List.forall_mem_nil _)
  refine ⟨fun t inTable index => tells_iff_isLong (recorded t inTable) index, ?_⟩
  intro userId records x listed
  obtain ⟨index, inside, rfl⟩ := List.mem_mapIdx.1 listed
  have inAnswer := List.getElem_mem inside
  obtain ⟨t, asked, same⟩ := List.mem_map.1 inAnswer
  obtain ⟨inTable, long⟩ := mem_getTradesOfAccount asked
  rw [← same]
  exact ⟨t, inTable, long rfl, rfl, (tells_iff_isLong (recorded t inTable) index).2 (long rfl)⟩

/-- The list of a trader after a day with a sale that waited for its price. -/
theorem transactions_tell_of_day :
    (∀ t ∈ (serveAll .exact Market.server Market.day).tables.db.trades, ∀ index,
      Tells t (mapRawTransaction (.new t) index) ↔ t.isLong = true) ∧
    ∀ userId records,
      ∀ x ∈ getTransactions (serveAll .exact Market.server Market.day).tables.db userId records,
      ∃ t ∈ (serveAll .exact Market.server Market.day).tables.db.trades, t.isLong = true ∧
        x = mapRawTransaction (.new t) x.id ∧ Tells t x :=
  transactions_tell .exact Market.server Market.day Market.valid rfl

/-- A quick purchase has happened, and its line would be an active sale. -/
theorem purchase_reads_as_sale :
    (∃ t ∈ (serveAll .exact Market.server [Market.purchase]).tables.db.trades,
      t.direction = ActionType.buy.lower ∧ t.transactionHappened = true ∧
        (mapRawTransaction (.new t) 0).actionType = "SELL" ∧
        (mapRawTransaction (.new t) 0).status = "ACTIVE") ∧
      ¬∀ t ∈ (serveAll .exact Market.server [Market.purchase]).tables.db.trades,
        Tells t (mapRawTransaction (.new t) 0) := by
  have misread : ∃ t ∈ (serveAll .exact Market.server [Market.purchase]).tables.db.trades,
      t.direction = ActionType.buy.lower ∧ t.transactionHappened = true ∧
        (mapRawTransaction (.new t) 0).actionType = "SELL" ∧
        (mapRawTransaction (.new t) 0).status = "ACTIVE" := by
    decide +kernel
  refine ⟨misread, fun tells => ?_⟩
  obtain ⟨t, inTable, buys, -, sells, -⟩ := misread
  have reads := (tells t inTable).buy.2 (.inl buys)
  rw [sells] at reads
  exact absurd reads (by decide)

/-- The list of that day is one successful sale. -/
example : (getTransactions (serveAll .exact Market.server Market.day).tables.db 2 100).map
    (fun x => (x.actionType, x.status)) = [("SELL", "SUCCESS")] := by
  decide +kernel

end EasyTrade.Frontend
