import EasyTrade.Broker.Listing
import EasyTrade.Broker.Processing

/-!
# Fates of the open trades

What a call that processes the open trades has made of a trade that was open before it.
A fate says what the row of the trade reads afterwards, which save has changed it and
from which tables that save has been made.
-/

namespace EasyTrade.Broker

open EasyTrade.Store EasyTrade.Ledger

variable {c : DecimalColumn} {g : Server} {db : Database} {env : Env} {t : Trade} {q : Quote}
  {p : Position Int Int ℚ} {v : Verdict}

/-! ## Verdicts by their conditions -/

/-- The conditions of each verdict. -/
theorem Trade.verdict_cases (verdict : t.verdict q p = some v) :
    (t.isLongBuy = false ∧ t.isLongSell = false ∧
        v = .failed "This is not a long running transcation! Trade failed!") ∨
      ((t.isLongBuy = true ∨ t.isLongSell = true) ∧
        (t.limitMet q.price = false ∧ v = .waiting ∨
          t.limitMet q.price = true ∧
            ((t.isLongBuy = true → (p.balance t.accountId).isSome = true) ∧
                t.covered q.product.ppt p = false ∧ v = .failed t.uncoveredStatus ∨
              t.covered q.product.ppt p = true ∧ v = .happened t.longType))) := by
  unfold Trade.verdict at verdict
  split_ifs at verdict with foreign unmet missing uncovered _ <;> cases verdict
  · simp only [Bool.and_eq_true, Bool.not_eq_true'] at foreign
    exact .inl ⟨foreign.1, foreign.2, rfl⟩
  all_goals
    simp only [Bool.and_eq_true, Bool.not_eq_true', not_and, Bool.not_eq_false] at foreign
    have isLong : t.isLongBuy = true ∨ t.isLongSell = true := by
      cases isBuy : t.isLongBuy with
      | true => exact .inl rfl
      | false => exact .inr (foreign isBuy)
    refine .inr ⟨isLong, ?_⟩
  · exact .inl ⟨by simpa using unmet, rfl⟩
  · refine .inr ⟨by simpa using unmet, .inl ⟨fun isBuy => ?_, by simpa using uncovered, rfl⟩⟩
    rw [isBuy, Bool.true_and, Option.isNone_iff_eq_none] at missing
    exact Option.isSome_iff_ne_none.mpr missing
  · exact .inr ⟨by simpa using unmet, .inr ⟨by simpa using uncovered, rfl⟩⟩

/-- What covers a purchase. -/
theorem Trade.covered_longBuy {fee : ℚ} (isBuy : t.isLongBuy = true) :
    t.covered fee db.position = true ↔ ∃ balance, db.balanceOf t.accountId = some balance ∧
      t.quantity * t.entryPrice + fee ≤ balance.value := by
  rw [Trade.covered, if_pos isBuy, Option.any_eq_true]
  simp [Database.position]

/-- What covers a sale. -/
theorem Trade.covered_longSell {fee : ℚ} (notBuy : t.isLongBuy = false) :
    t.covered fee db.position = true ↔ ∃ owned, db.ownedOf t.accountId t.instrumentId = some owned ∧
      t.quantity ≤ owned.quantity := by
  rw [Trade.covered, if_neg (by simp [notBuy]), Option.any_eq_true]
  simp [Database.position]

/-- Where both balances are there the trade has a verdict. -/
theorem Trade.exists_verdict (account : (p.balance t.accountId).isSome = true)
    (owner : (p.balance ownerId).isSome = true) : ∃ v, t.verdict q p = some v := by
  rw [Option.isSome_iff_ne_none] at account owner
  unfold Trade.verdict
  split_ifs with _ _ missing _ missing
  · exact ⟨_, rfl⟩
  · exact ⟨_, rfl⟩
  · simp [account] at missing
  · exact ⟨_, rfl⟩
  · simp [account, owner] at missing
  · exact ⟨_, rfl⟩

/-- A long-running trade whose limit is met is closed, as happened where it is covered. -/
theorem Trade.row_of_limitMet (verdict : t.verdict q p = some v)
    (isLong : t.isLongBuy = true ∨ t.isLongSell = true) (met : t.limitMet q.price = true) :
    (v.row t).tradeClosed = true ∧
      (v.row t).transactionHappened = t.covered q.product.ppt p := by
  rcases Trade.verdict_cases verdict with
    ⟨notBuy, notSell, -⟩ | ⟨-, ⟨unmet, -⟩ | ⟨-, ⟨-, uncovered, rfl⟩ | ⟨covered, rfl⟩⟩⟩
  · simp [notBuy, notSell] at isLong
  · simp [met] at unmet
  · exact ⟨rfl, uncovered.symm⟩
  · exact ⟨rfl, covered.symm⟩

/-! ## Fates -/

/-- What a pass may make of an open trade. -/
inductive Fate where
  /-- Its time is up. -/
  | overdue
  | bought
  | sold
  /-- Its limit is met, but the balance or the holding does not suffice. -/
  | uncovered
  /-- Its limit is not met. -/
  | waiting
  /-- It is neither a purchase nor a sale that waits for its price. -/
  | foreign
deriving DecidableEq, Repr

/-- The save writes nothing but rows of trades. -/
def Batch.Effectless (b : Batch) : Prop := b = { updatedTrades := b.updatedTrades }

/-- The saves of a pass that began on `base` give the trade this fate; `r` is its row
afterwards. -/
def Fate.Holds (base : Tables) (env : Env) (bs : List Batch) (t r : Trade) : Fate → Prop
  | overdue =>
    t.isOverdue env.now = true ∧ r.blank = (t.close "Time is up: trade failed" false).blank ∧
      Moment base bs t fun _ p => p.Effectless
  | bought =>
    t.isOverdue env.now = false ∧ t.isLongBuy = true ∧
      r.blank = (t.close ActionType.longBuy.finished true).blank ∧
      ∃ q, base.db.quotes env t = some q ∧ q.price.low ≤ t.entryPrice ∧
        Moment base bs t fun db p => Settles db env.now t .longBuy p ∧
          ∃ balance, db.balanceOf t.accountId = some balance ∧
            t.quantity * t.entryPrice + q.product.ppt ≤ balance.value
  | sold =>
    t.isOverdue env.now = false ∧ t.isLongSell = true ∧
      r.blank = (t.close ActionType.longSell.finished true).blank ∧
      ∃ q, base.db.quotes env t = some q ∧ t.entryPrice ≤ q.price.high ∧
        Moment base bs t fun db p => Settles db env.now t .longSell p ∧
          ∃ owned, db.ownedOf t.accountId t.instrumentId = some owned ∧ t.quantity ≤ owned.quantity
  | uncovered =>
    t.isOverdue env.now = false ∧ r.blank = (t.close t.uncoveredStatus false).blank ∧
      ∃ q, base.db.quotes env t = some q ∧
        (t.isLongBuy = true ∧ q.price.low ≤ t.entryPrice ∧
            (Moment base bs t fun db p => p.Effectless ∧
              ∃ balance, db.balanceOf t.accountId = some balance ∧
                balance.value < t.quantity * t.entryPrice + q.product.ppt) ∨
          t.isLongSell = true ∧ t.entryPrice ≤ q.price.high ∧
            Moment base bs t fun db p => p.Effectless ∧
              ∀ owned, db.ownedOf t.accountId t.instrumentId = some owned →
                owned.quantity < t.quantity)
  | waiting =>
    t.isOverdue env.now = false ∧ r.blank = t.blank ∧ (∀ b ∈ bs, ¬b.HasRow t) ∧
      ∃ q, base.db.quotes env t = some q ∧
        (t.isLongBuy = true ∧ t.entryPrice < q.price.low ∨
          t.isLongSell = true ∧ q.price.high < t.entryPrice)
  | foreign =>
    t.isOverdue env.now = false ∧ t.isLongBuy = false ∧ t.isLongSell = false ∧
      r.blank = (t.close "This is not a long running transcation! Trade failed!" false).blank ∧
      Moment base bs t fun _ p => p.Effectless

/-- The fate that a trade and its row afterwards tell. -/
def Fate.of (now : Int) (t r : Trade) : Fate :=
  if t.isOverdue now then .overdue
  else if !t.isLongBuy && !t.isLongSell then .foreign
  else if !r.tradeClosed then .waiting
  else if !r.transactionHappened then .uncovered
  else if t.isLongBuy then .bought
  else .sold

/-- No two fates hold. -/
theorem Fate.Holds.eq_of {base : Tables} {bs : List Batch} {r : Trade} {fate : Fate}
    (isOpen : t.isOpen = true) (holds : fate.Holds base env bs t r) :
    fate = Fate.of env.now t r := by
  have columns : ∀ {x : Trade}, r.blank = x.blank →
      r.tradeClosed = x.tradeClosed ∧ r.transactionHappened = x.transactionHappened := fun same => by
    have closed := congrArg Trade.tradeClosed same
    have happened := congrArg Trade.transactionHappened same
    exact ⟨closed, happened⟩
  cases fate with
  | overdue =>
    obtain ⟨isOverdue, -⟩ := holds
    simp [Fate.of, isOverdue]
  | bought =>
    obtain ⟨notOverdue, isBuy, row, -⟩ := holds
    simp [Fate.of, notOverdue, isBuy, columns row, Trade.close]
  | sold =>
    obtain ⟨notOverdue, isSell, row, -⟩ := holds
    simp [Fate.of, notOverdue, isSell, isLongBuy_of_isLongSell isSell, columns row, Trade.close]
  | uncovered =>
    obtain ⟨notOverdue, row, q, -, ⟨isBuy, -⟩ | ⟨isSell, -⟩⟩ := holds
    · simp [Fate.of, notOverdue, isBuy, columns row, Trade.close]
    · simp [Fate.of, notOverdue, isSell, columns row, Trade.close]
  | waiting =>
    have still : t.tradeClosed = false := by simpa [Trade.isOpen] using isOpen
    obtain ⟨notOverdue, row, -, q, -, ⟨isBuy, -⟩ | ⟨isSell, -⟩⟩ := holds
    · simp [Fate.of, notOverdue, isBuy, columns row, still]
    · simp [Fate.of, notOverdue, isSell, columns row, still]
  | foreign =>
    obtain ⟨notOverdue, notBuy, notSell, -⟩ := holds
    simp [Fate.of, notOverdue, notBuy, notSell]

/-- A fate is told by the columns that are not decimal. -/
theorem Fate.Holds.of_blank {base : Tables} {bs : List Batch} {r r' : Trade} {fate : Fate}
    (holds : fate.Holds base env bs t r) (same : r'.blank = r.blank) :
    fate.Holds base env bs t r' := by
  cases fate <;> simpa only [Fate.Holds, same] using holds

/-! ## Turns and fates -/

/-- A turn that settles nothing writes nothing but the row of the trade. -/
theorem Turned.effectless {now : Int} {b : Batch} (turned : Turned db now t q v b)
    (without : ∀ type, v ≠ .happened type) : b.Effectless := by
  cases turned with
  | unsettled => rfl
  | settled => exact absurd rfl (without _)

/-- A purchase that fails is one the balance does not cover. -/
theorem Turned.uncovered_longBuy {now : Int} {status : String} {b : Batch}
    (turned : Turned db now t q (.failed status) b) (isBuy : t.isLongBuy = true) :
    ∃ balance, db.balanceOf t.accountId = some balance ∧
      balance.value < t.quantity * t.entryPrice + q.product.ppt := by
  rcases Trade.verdict_cases turned.verdict_eq with
    ⟨notBuy, -⟩ | ⟨-, ⟨-, wrong⟩ | ⟨-, ⟨hasBalance, uncovered, -⟩ | ⟨-, wrong⟩⟩⟩
  · rw [isBuy] at notBuy
    cases notBuy
  · cases wrong
  · have some := hasBalance isBuy
    rw [Database.position, Option.isSome_map, Option.isSome_iff_exists] at some
    obtain ⟨balance, found⟩ := some
    refine ⟨balance, found, not_le.mp fun covers => ?_⟩
    rw [(Trade.covered_longBuy isBuy).mpr ⟨balance, found, covers⟩] at uncovered
    cases uncovered
  · cases wrong

/-- A sale that fails is one the holding does not cover. -/
theorem Turned.uncovered_longSell {now : Int} {status : String} {b : Batch}
    (turned : Turned db now t q (.failed status) b) (isSell : t.isLongSell = true) :
    ∀ owned, db.ownedOf t.accountId t.instrumentId = some owned →
      owned.quantity < t.quantity := by
  rcases Trade.verdict_cases turned.verdict_eq with
    ⟨-, notSell, -⟩ | ⟨-, ⟨-, wrong⟩ | ⟨-, ⟨-, uncovered, -⟩ | ⟨-, wrong⟩⟩⟩
  · rw [isSell] at notSell
    cases notSell
  · cases wrong
  · intro owned found
    have notBuy := isLongBuy_of_isLongSell isSell
    refine not_le.mp fun covers => ?_
    rw [(Trade.covered_longSell notBuy).mpr ⟨owned, found, covers⟩] at uncovered
    cases uncovered
  · cases wrong

/-- A turn in which the trade happens settles what is covered. -/
theorem Turned.settles {now : Int} {type : ActionType} {b : Batch}
    (turned : Turned db now t q (.happened type) b) :
    Settles db now t type b ∧ t.covered q.product.ppt db.position = true := by
  have covered : t.covered q.product.ppt db.position = true := by
    rcases Trade.verdict_cases turned.verdict_eq with
      ⟨-, -, wrong⟩ | ⟨-, ⟨-, wrong⟩ | ⟨-, ⟨-, -, wrong⟩ | ⟨covered, -⟩⟩⟩
    · cases wrong
    · cases wrong
    · cases wrong
    · exact covered
  cases turned with
  | unsettled _ without => exact absurd rfl (without type)
  | settled _ _ _ settles => exact ⟨settles, covered⟩

/-- The fate of a trade that takes a turn. -/
theorem fate_of_turn {base : Tables} {bs : List Batch} (notOverdue : t.isOverdue env.now = false)
    (isQuote : base.db.quotes env t = some q)
    (moment : Moment base bs t fun db p => Turned db env.now t q v p) :
    ∃ fate : Fate, fate.Holds base env bs t (v.row t) := by
  obtain ⟨before, p, after, split, turned, others⟩ := id moment
  rcases Trade.verdict_cases turned.verdict_eq with
    ⟨notBuy, notSell, rfl⟩ | ⟨isLong, ⟨unmet, rfl⟩ | ⟨met, ⟨-, -, rfl⟩ | ⟨covered, rfl⟩⟩⟩
  · refine ⟨.foreign, notOverdue, notBuy, notSell, rfl, moment.imp fun db p turned => ?_⟩
    exact turned.effectless (by simp)
  · refine ⟨.waiting, notOverdue, rfl, fun b inLog => ?_, q, isQuote, ?_⟩
    · rw [split] at inLog
      rcases List.mem_append.mp inLog with inBefore | inRest
      · exact others b (List.mem_append_left _ inBefore)
      · rcases List.mem_cons.mp inRest with rfl | inAfter
        · rintro ⟨r, inRows, -⟩
          have none : p.updatedTrades = [] := turned.trades.2
          rw [Batch.number, none] at inRows
          cases inRows
        · exact others b (List.mem_append_right _ inAfter)
    · rcases isLong with isBuy | isSell
      · exact .inl ⟨isBuy, by simpa [Trade.limitMet, isBuy] using unmet⟩
      · exact .inr ⟨isSell, by simpa [Trade.limitMet, isLongBuy_of_isLongSell isSell] using unmet⟩
  · refine ⟨.uncovered, notOverdue, rfl, q, isQuote, ?_⟩
    rcases isLong with isBuy | isSell
    · exact .inl ⟨isBuy, by simpa [Trade.limitMet, isBuy] using met, moment.imp fun db p turned =>
        ⟨turned.effectless (by simp), turned.uncovered_longBuy isBuy⟩⟩
    · have notBuy := isLongBuy_of_isLongSell isSell
      exact .inr ⟨isSell, by simpa [Trade.limitMet, notBuy] using met, moment.imp fun db p turned =>
        ⟨turned.effectless (by simp), turned.uncovered_longSell isSell⟩⟩
  · rcases isLong with isBuy | isSell
    · have type : t.longType = .longBuy := if_pos isBuy
      rw [type] at moment ⊢
      refine ⟨.bought, notOverdue, isBuy, rfl, q, isQuote,
        by simpa [Trade.limitMet, isBuy] using met, moment.imp fun db p turned => ?_⟩
      exact ⟨turned.settles.1, (Trade.covered_longBuy isBuy).mp turned.settles.2⟩
    · have notBuy := isLongBuy_of_isLongSell isSell
      have type : t.longType = .longSell := if_neg (by simp [notBuy])
      rw [type] at moment ⊢
      refine ⟨.sold, notOverdue, isSell, rfl, q, isQuote,
        by simpa [Trade.limitMet, notBuy] using met, moment.imp fun db p turned => ?_⟩
      exact ⟨turned.settles.1, (Trade.covered_longSell notBuy).mp turned.settles.2⟩

/-! ## Passes and fates -/

/-- A pass gives every open trade a fate. -/
theorem Book.Passed.fate {base : Tables} {μ : Book} {s : Progress}
    (passed : Book.Passed base env μ s) (inTable : t ∈ base.db.trades) (isOpen : t.isOpen = true) :
    ∃ r ∈ μ.saved.db.trades, r.id = t.id ∧ ∃ fate : Fate, fate.Holds base env μ.log t r := by
  have row : ∀ x ∈ base.db.swept env.now, (s.verdict x).row x ∈ μ.saved.db.trades := fun x isRow => by
    rw [passed.trades, Progress.rows]
    exact List.mem_map_of_mem isRow
  have swept : t.sweep env.now ∈ base.db.swept env.now := List.mem_map_of_mem inTable
  cases isOverdue : t.isOverdue env.now with
  | false =>
    have same : t.sweep env.now = t := if_neg (by simp [isOverdue])
    rw [same] at swept
    obtain ⟨q, isQuote, moment⟩ := passed.moments t (Database.mem_queue.mpr ⟨swept, isOpen⟩)
    exact ⟨_, row t swept, Verdict.id_row _ t, fate_of_turn isOverdue isQuote moment⟩
  | true =>
    have same : t.sweep env.now = t.expire := if_pos isOverdue
    rw [same] at swept
    have notListed : t.expire ∉ base.db.queue env := fun listed => by
      cases (Database.mem_queue.mp listed).2
    have waits := passed.waiting t.expire notListed
    obtain ⟨saves, log, others⟩ := passed.sweep
    refine ⟨_, row _ swept, Verdict.id_row _ _, .overdue, isOverdue, by rw [waits]; rfl, ?_⟩
    exact ⟨[], base.db.sweepBatch env, saves, log, rfl,
      fun b inSaves => others t.expire swept notListed b inSaves⟩

/-- When a call that processes the open trades returns, every trade that was open has
exactly one fate. -/
theorem open_trades_have_one_fate (c : DecimalColumn) (g : Server) (valid : g.tables.Valid)
    (call : Call) (processes : call.request = .processLongRunningTransactions)
    (returns : (call.exec c g).1 = .ok .nothing) :
    ∃ bs, (serve c g call).tables.db = g.tables.db.applyAll (bs.map (Batch.store c)) ∧
      (serve c g call).log = g.log ++ bs.map (Batch.store c) ∧
      ∀ t ∈ g.tables.db.trades, t.isOpen = true →
        ∃ r ∈ (serve c g call).tables.db.trades, r.id = t.id ∧
          ∃! fate : Fate, fate.Holds g.tables call.env bs t r := by
  obtain ⟨μ, served⟩ := serve_of_ok valid returns
  obtain ⟨s, passed⟩ := served.passed valid processes
  refine ⟨μ.log, served.db, served.log, fun t inTable isOpen => ?_⟩
  obtain ⟨r, inSaved, sameId, fate, holds⟩ := passed.fate inTable isOpen
  have inBlank : r.blank ∈ (serve c g call).tables.db.trades.map Trade.blank :=
    served.blank_trades ▸ List.mem_map_of_mem inSaved
  obtain ⟨r', inTable', blank⟩ := List.mem_map.mp inBlank
  have key := congrArg Trade.id blank
  have holds' := holds.of_blank blank
  refine ⟨r', inTable', key.trans sameId, fate, holds', fun other otherHolds => ?_⟩
  have isFate : fate = Fate.of call.env.now t r' := holds'.eq_of isOpen
  have isOther : other = Fate.of call.env.now t r' := Fate.Holds.eq_of isOpen otherHolds
  exact isOther.trans isFate.symm

/-- An open trade of the market. -/
def Market.openTrade (id accountId : Int) (direction : String) (quantity price : ℚ)
    (close : Int) : Trade :=
  ⟨id, accountId, 1, direction, quantity, price, 0, some close, false, false, "registered."⟩

/-- The market with an open trade for each fate. -/
def Market.mixed : Server :=
  { Market.server with tables := { Market.server.tables with
    db := { Market.server.tables.db with
      trades := [openTrade 1 2 "longbuy" 3 100 500, openTrade 2 2 "longbuy" 3 100 90000,
        openTrade 3 2 "longsell" 2 12 90000, openTrade 4 2 "longbuy" 9 100 90000,
        openTrade 5 3 "longbuy" 1 5 90000, openTrade 6 3 "buy" 1 10 90000] }
    tradeSeed := 7 } }

/-- The fates of the open trades of that market. -/
theorem open_trades_have_one_fate_of_mixed :
    ∃ bs, (serve .exact Market.mixed Market.env.process).tables.db =
        Market.mixed.tables.db.applyAll (bs.map (Batch.store .exact)) ∧
      (serve .exact Market.mixed Market.env.process).log =
        Market.mixed.log ++ bs.map (Batch.store .exact) ∧
      ∀ t ∈ Market.mixed.tables.db.trades, t.isOpen = true →
        ∃ r ∈ (serve .exact Market.mixed Market.env.process).tables.db.trades, r.id = t.id ∧
          ∃! fate : Fate, fate.Holds Market.mixed.tables Market.env.process.env bs t r :=
  open_trades_have_one_fate .exact Market.mixed
    ⟨by decide, by decide, by decide, by decide, List.forall_mem_nil _⟩ Market.env.process rfl (by decide +kernel)

example : (serve .exact Market.mixed Market.env.process).tables.db.trades.map
      (fun r => (r.tradeClosed, r.transactionHappened)) =
    [(true, false), (true, true), (true, true), (true, false), (false, false), (true, false)] := by
  decide +kernel

end EasyTrade.Broker
