import EasyTrade.Broker.Reconciliation

/-!
# The trades the broker lists

The texts in a row of the trade table are written in several places of the
broker. `Trade.Recorded` says which texts go with which state of the trade; every
save keeps it, and so does every sequence of calls, on columns of any kind.
-/

namespace EasyTrade.Broker

open EasyTrade.Store EasyTrade.Ledger EasyTrade.Logic EasyTrade.Logic.Program

variable {db : Database} {now : Int} {s t : Tables} {c : DecimalColumn} {g : Server}

/-! ## Listing -/

/-- A trade as the broker serializes it. -/
structure TradeDTO where
  instrumentId : Int
  direction : String
  quantity : ℚ
  entryPrice : ℚ
  timestampOpen : Int
  timestampClose : Option Int
  tradeClosed : Bool
  transactionHappened : Bool
  status : String
deriving DecidableEq, Repr

/-- `new TradeDTO(trade)`. -/
def TradeDTO.new (trade : Trade) : TradeDTO where
  instrumentId := trade.instrumentId
  direction := trade.direction
  quantity := trade.quantity
  entryPrice := trade.entryPrice
  timestampOpen := trade.timestampOpen
  timestampClose := trade.timestampClose
  tradeClosed := trade.tradeClosed
  transactionHappened := trade.transactionHappened
  status := trade.status

namespace Trade

/-- The direction is one of a long-running trade. -/
def isLong (t : Trade) : Bool :=
  decide (t.direction = ActionType.longBuy.lower ∨ t.direction = ActionType.longSell.lower)

/-- `OrderByDescending(x => x.TimestampClose).ThenByDescending(x => x.Id)`, where a
missing time comes last. -/
def listsBefore (a b : Trade) : Bool :=
  match a.timestampClose, b.timestampClose with
  | some x, some y => decide (y < x ∨ x = y ∧ b.id ≤ a.id)
  | some _, none => true
  | none, some _ => false
  | none, none => decide (b.id ≤ a.id)

end Trade

/-- All trades that `GetTradesOfAccount` has pages of. -/
def listedTrades (db : Database) (accountId : Int) (onlyOpen onlyLong : Bool) : List Trade :=
  let trades := db.trades.filter fun t => decide (t.accountId = accountId)
  let trades := trades.filter fun t => !onlyOpen || !t.tradeClosed
  let trades := trades.filter fun t => !onlyLong || t.isLong
  trades.insertionSort fun a b => a.listsBefore b = true

/-- `TradeService.GetTradesOfAccount`, as long as `count * page` is an `int`. -/
def getTradesOfAccount (db : Database) (accountId : Int) (count page : ℕ)
    (onlyOpen onlyLong : Bool) : List Trade :=
  ((listedTrades db accountId onlyOpen onlyLong).drop (count * page)).take count

/-- What is listed are the trades of the account that pass the filters. -/
theorem mem_listedTrades {accountId : Int} {onlyOpen onlyLong : Bool} {x : Trade} :
    x ∈ listedTrades db accountId onlyOpen onlyLong ↔ x ∈ db.trades ∧ x.accountId = accountId ∧
      (onlyOpen = true → x.tradeClosed = false) ∧ (onlyLong = true → x.isLong = true) := by
  have applies : ∀ only passes : Bool, (!only || passes) = true ↔ (only = true → passes = true) := by
    decide
  unfold listedTrades
  simp only [List.mem_insertionSort, List.mem_filter, decide_eq_true_eq, applies, and_assoc,
    Bool.not_eq_true']

/-- What is listed is a trade of the table, and a long-running one where only those
are asked for. -/
theorem mem_getTradesOfAccount {accountId : Int} {count page : ℕ} {onlyOpen onlyLong : Bool}
    {x : Trade} (listed : x ∈ getTradesOfAccount db accountId count page onlyOpen onlyLong) :
    x ∈ db.trades ∧ (onlyLong = true → x.isLong = true) := by
  have found := List.mem_of_mem_drop (List.mem_of_mem_take listed)
  obtain ⟨inTable, -, -, long⟩ := mem_listedTrades.mp found
  exact ⟨inTable, long⟩

/-! ## Texts and states -/

/-- The texts that the broker writes for a trade in each of its states. -/
inductive Wording (direction : String) (closed happened : Bool) (status : String) : Prop
  | quick {type : ActionType} (isQuick : type = .buy ∨ type = .sell)
      (spelling : direction = type.lower) (isClosed : closed = true) (done : happened = true)
      (text : status = "Instant " ++ type.name ++ " done.")
  | registered {type : ActionType} (isLong : type = .longBuy ∨ type = .longSell)
      (spelling : direction = type.lower) (isOpen : closed = false) (waits : happened = false)
      (text : status = type.name ++ " registered.")
  | failed {type : ActionType} (isLong : type = .longBuy ∨ type = .longSell)
      (spelling : direction = type.lower) (isClosed : closed = true) (missed : happened = false)
      (text : status ∈ Trade.failures)
  | finished {type : ActionType} (isLong : type = .longBuy ∨ type = .longSell)
      (spelling : direction = type.lower) (isClosed : closed = true) (done : happened = true)
      (text : status = type.finished)

/-- The texts of the trade are those of its state. -/
def Trade.Recorded (t : Trade) : Prop :=
  Wording t.direction t.tradeClosed t.transactionHappened t.status

/-- An open trade of the broker is a registered long-running one. -/
theorem Trade.Recorded.registered_of_open {t : Trade} (recorded : t.Recorded)
    (isOpen : t.tradeClosed = false) :
    ∃ type : ActionType, (type = .longBuy ∨ type = .longSell) ∧ t.direction = type.lower := by
  cases recorded with
  | quick _ _ closed => simp [isOpen] at closed
  | registered isLong direction => exact ⟨_, isLong, direction⟩
  | failed _ _ closed => simp [isOpen] at closed
  | finished _ _ closed => simp [isOpen] at closed

/-- A save keeps the texts. -/
theorem Step.recorded {flow : ℚ} {p : Batch} (step : Step now db flow p)
    (recorded : ∀ x ∈ db.trades, x.Recorded) {tradeSeed ownedSeed : Int} {y : Trade}
    (inTable : y ∈ (db.apply (p.number tradeSeed ownedSeed)).trades) : y.Recorded := by
  rcases mem_trades_apply inTable with ⟨old, -⟩ | updated | ⟨r, inserted, n, -, rfl⟩
  · exact recorded y old
  · cases step with
    | cash => cases updated
    | register => cases updated
    | quick _ _ _ none _ =>
      rw [none] at updated
      cases updated
    | close _ closes =>
      obtain ⟨x, inTrades, isOpen, status, failure, rfl⟩ := closes y updated
      obtain ⟨type, isLong, direction⟩ := (recorded x inTrades).registered_of_open isOpen
      exact .failed isLong direction rfl rfl failure
    | @long x type _ inTrades isOpen _ isLong only settles =>
      rw [only, List.mem_singleton] at updated
      subst updated
      obtain ⟨type', isLong', direction⟩ := (recorded x inTrades).registered_of_open isOpen
      have known := settles.direction_eq ⟨type', .inr (.inr isLong'), direction⟩
      exact .finished isLong known rfl rfl rfl
  · cases step with
    | cash => cases inserted
    | close => cases inserted
    | long _ _ none _ _ _ =>
      rw [none] at inserted
      cases inserted
    | register isOpen waits _ isLong =>
      obtain ⟨type, kind, direction, status⟩ := isLong
      rw [List.mem_singleton.1 inserted]
      exact .registered kind direction isOpen waits status
    | quick _ isQuick only _ _ =>
      rw [only, List.mem_singleton] at inserted
      subst inserted
      exact .quick isQuick rfl rfl rfl rfl

/-- A run keeps the texts. -/
theorem Run.recorded {cash : ℚ} {bs : List Batch} (run : Run s cash bs t)
    (recorded : ∀ x ∈ s.db.trades, x.Recorded) : ∀ x ∈ t.db.trades, x.Recorded := by
  induction run with
  | nil => exact recorded
  | save before step ih => exact fun x inTable => step.recorded ih inTable
  | draw before db _ _ ih => exact db ▸ ih

/-- Storing a batch changes decimal columns only. -/
theorem trades_applyAll_store (c : DecimalColumn) (bs : List Batch) (db db' : Database)
    (same : db.trades.map Trade.blank = db'.trades.map Trade.blank) :
    (db.applyAll (bs.map (Batch.store c))).trades.map Trade.blank =
      (db'.applyAll bs).trades.map Trade.blank := by
  induction bs generalizing db db' with
  | nil => exact same
  | cons b bs ih =>
    refine ih _ _ ?_
    have blank : ∀ copies rows : List Trade, (overwrite Trade.id copies rows).map Trade.blank =
        overwrite Trade.id (copies.map Trade.blank) (rows.map Trade.blank) := fun copies rows =>
      (@overwrite_map _ _ _ Trade.id Trade.blank (fun _ => rfl) copies rows).symm
    simp only [Database.apply, Batch.store, List.map_append, blank, same, List.map_map]
    rfl

/-- The trades a call leaves, decimal columns aside. -/
theorem Served.blank_trades {c : DecimalColumn} {g : Server} {call : Call} {response : Response}
    {μ : Book} (served : Served c g call response μ) :
    (serve c g call).tables.db.trades.map Trade.blank = μ.saved.db.trades.map Trade.blank := by
  rw [served.db, trades_applyAll_store c μ.log _ g.tables.db rfl, served.saved,
    Tables.db_applyAll]

/-- Every sequence of calls keeps the texts. -/
theorem serveAll_recorded (c : DecimalColumn) (g : Server) (calls : List Call)
    (valid : g.tables.Valid) (recorded : ∀ x ∈ g.tables.db.trades, x.Recorded) :
    ∀ x ∈ (serveAll c g calls).tables.db.trades, x.Recorded := by
  refine serveAll_invariant (P := fun g => ∀ x ∈ g.tables.db.trades, x.Recorded)
    (Q := fun _ _ => True) (fun g call valid inv _ => ?_) calls valid recorded
    fun _ _ _ _ => trivial
  cases outcome : (call.exec c g).1 with
  | error e =>
    rw [(serve_of_error outcome).1]
    exact inv
  | ok response =>
    obtain ⟨μ, served⟩ := serve_of_ok valid outcome
    have run := (Request.between valid served.eval).run
    intro x inTable
    have inBlank : x.blank ∈ μ.saved.db.trades.map Trade.blank :=
      served.blank_trades ▸ List.mem_map_of_mem inTable
    obtain ⟨y, inSaved, blank⟩ := List.mem_map.1 inBlank
    -- The texts are outside the decimal columns.
    have texts : y.blank.Recorded := run.recorded inv y inSaved
    rw [blank] at texts
    exact texts

end EasyTrade.Broker
