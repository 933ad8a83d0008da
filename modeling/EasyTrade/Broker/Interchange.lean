import EasyTrade.Broker.Processing
import EasyTrade.Broker.Reconciliation
import EasyTrade.Store.Top

/-!
# Passes in any order of the accounts

The query for the open trades has no order. Turns of trades of different accounts
commute, as long as neither account is the owner's: each reads its own account only, and
of the owner only that there is a balance for the fee. So passes that take the trades of
each account in one order end alike.
-/

namespace EasyTrade.Broker

open EasyTrade.Store EasyTrade.Ledger EasyTrade.Logic

variable {db : Database} {env : Env} {s t : Tables} {p p' : Position Int Int ℚ}

/-! ## Turns that commute -/

/-- A verdict depends on the position of the account and on whether the owner has a balance. -/
theorem verdict_congr {x : Trade} (q : Quote)
    (balance : p.balance x.accountId = p'.balance x.accountId)
    (holding : p.holding x.accountId = p'.holding x.accountId)
    (owner : (p.balance ownerId).isSome = (p'.balance ownerId).isSome) :
    x.verdict q p = x.verdict q p' := by
  have missing : (p.balance ownerId).isNone = (p'.balance ownerId).isNone := by
    rw [← Option.not_isSome, owner, Option.not_isSome]
  unfold Trade.verdict Trade.covered
  rw [balance, holding, missing]

/-- Settlements may be made in any order. -/
theorem settleOn_comm (x y : Trade) (type type' : ActionType) (fee fee' : ℚ)
    (p : Position Int Int ℚ) :
    y.settleOn type' fee' (x.settleOn type fee p) =
      x.settleOn type fee (y.settleOn type' fee' p) := by
  unfold Trade.settleOn
  simp only [Position.move_pay]
  rw [Position.move_comm, Position.pay_comm _ ownerId y.accountId,
    Position.pay_comm p x.accountId, Position.pay_comm _ ownerId ownerId,
    Position.pay_comm _ x.accountId ownerId]

theorem settle_comm (x y : Trade) (v w : Verdict) (fee fee' : ℚ) (p : Position Int Int ℚ) :
    w.settle y fee' (v.settle x fee p) = v.settle x fee (w.settle y fee' p) := by
  cases v with
  | waiting => rfl
  | failed => rfl
  | happened type =>
    cases w with
    | waiting => rfl
    | failed => rfl
    | happened type' => exact settleOn_comm x y type type' fee fee' p

/-- A turn of one account changes no verdict on a trade of another. -/
theorem verdict_settle {x y : Trade} (apart : y.accountId ≠ x.accountId)
    (notOwner : y.accountId ≠ ownerId) (q : Quote) (v : Verdict) (fee : ℚ) :
    y.verdict q (v.settle x fee p) = y.verdict q p := by
  cases v with
  | waiting => rfl
  | failed => rfl
  | happened type =>
    refine verdict_congr q ?_ ?_ ?_
    · simp [Verdict.settle, Trade.settleOn, apart, notOwner]
    · simp [Verdict.settle, Trade.settleOn, apart]
    · simp [Verdict.settle, Trade.settleOn]

/-- The turn of a trade with its verdict. -/
theorem turn_eq {quotes : Trade → Option Quote} {x : Trade} {q : Quote} (isQuote : quotes x = some q)
    (s : Progress) : Progress.turn quotes x s = (x.verdict q s.position).map fun v =>
      ⟨v.settle x q.product.ppt s.position, Function.update s.verdict x v⟩ := by
  rw [Progress.turn, isQuote, Option.bind_some]

/-- Turns of trades of different accounts commute. -/
theorem turn_commuting (quotes : Trade → Option Quote) {x y : Trade}
    (apart : x.accountId ≠ y.accountId) (xNotOwner : x.accountId ≠ ownerId)
    (yNotOwner : y.accountId ≠ ownerId) : Commuting (Progress.turn quotes) x y := by
  intro s
  have differ : x ≠ y := fun same => apart (by rw [same])
  cases isX : quotes x with
  | none =>
    have stuck : ∀ s, Progress.turn quotes x s = none := fun s => by rw [Progress.turn, isX]; rfl
    rw [stuck]
    cases Progress.turn quotes y s <;> simp [stuck]
  | some q =>
    cases isY : quotes y with
    | none =>
      have stuck : ∀ s, Progress.turn quotes y s = none := fun s => by rw [Progress.turn, isY]; rfl
      rw [stuck]
      cases Progress.turn quotes x s <;> simp [stuck]
    | some q' =>
      rw [turn_eq isX, turn_eq isY]
      cases judgedX : x.verdict q s.position with
      | none =>
        cases judgedY : y.verdict q' s.position with
        | none => rfl
        | some w =>
          simp only [Option.map_some, Option.bind_some, turn_eq isX, Option.map_none,
            verdict_settle apart xNotOwner, judgedX]
          rfl
      | some v =>
        cases judgedY : y.verdict q' s.position with
        | none =>
          simp only [Option.map_some, Option.bind_some, turn_eq isY, Option.map_none,
            verdict_settle (Ne.symm apart) yNotOwner, judgedY]
          rfl
        | some w =>
          simp only [Option.map_some, Option.bind_some, turn_eq isX, turn_eq isY,
            verdict_settle apart xNotOwner, verdict_settle (Ne.symm apart) yNotOwner, judgedX,
            judgedY]
          rw [settle_comm, Function.update_comm differ]

/-! ## Orders of the queue -/

/-- Two orders of the trades agree on the open trades of each account. -/
def Database.AgreeWithin (db : Database) (first second : Int → ℕ) : Prop :=
  ∀ x ∈ db.trades, ∀ y ∈ db.trades, x.isOpen = true → y.isOpen = true →
    x.accountId = y.accountId → (first x.id ≤ first y.id ↔ second x.id ≤ second y.id)

instance (rank : Int → ℕ) : Std.Total fun a b : Trade => rank a.id ≤ rank b.id :=
  ⟨fun _ _ => Nat.le_total _ _⟩

instance (rank : Int → ℕ) : IsTrans Trade fun a b => rank a.id ≤ rank b.id :=
  ⟨fun _ _ _ => Nat.le_trans⟩

/-- A trade that is open after the sweep has been so before. -/
theorem Database.mem_of_mem_swept {now : Int} {x : Trade} (inSwept : x ∈ db.swept now)
    (isOpen : x.isOpen = true) : x ∈ db.trades ∧ x.isOverdue now = false := by
  obtain ⟨y, inTable, rfl⟩ := List.mem_map.mp inSwept
  by_cases overdue : y.isOverdue now = true
  · rw [Trade.sweep, if_pos overdue] at isOpen
    cases isOpen
  · rw [Trade.sweep, if_neg overdue]
    exact ⟨inTable, Bool.eq_false_of_not_eq_true overdue⟩

/-- Orders that agree within the accounts queue the trades of each account alike. -/
theorem filter_queue {first second : Int → ℕ} (agree : db.AgreeWithin first second) (a : Int) :
    (db.queue { env with rank := first }).filter (fun x => x.accountId = a) =
      (db.queue { env with rank := second }).filter fun x => x.accountId = a := by
  unfold Database.queue Trade.arrange
  rw [filter_insertionSort, filter_insertionSort]
  have same := List.map_insertionSort (fun x y : Trade => first x.id ≤ first y.id)
    (fun x y : Trade => second x.id ≤ second y.id) id
    (((db.swept env.now).filter Trade.isOpen).filter fun x => x.accountId = a)
    fun x inX y inY => ?_
  · rw [List.map_id, List.map_id] at same
    exact same
  · obtain ⟨inX, ofX⟩ := List.mem_filter.mp inX
    obtain ⟨inY, ofY⟩ := List.mem_filter.mp inY
    obtain ⟨sweptX, openX⟩ := List.mem_filter.mp inX
    obtain ⟨sweptY, openY⟩ := List.mem_filter.mp inY
    have account : x.accountId = y.accountId :=
      (of_decide_eq_true ofX).trans (of_decide_eq_true ofY).symm
    exact agree x (Database.mem_of_mem_swept sweptX openX).1 y
      (Database.mem_of_mem_swept sweptY openY).1 openX openY account

/-- Passes in orders that agree within the accounts end alike. -/
theorem passed_eq {first second : Int → ℕ} (agree : db.AgreeWithin first second)
    (notOwner : ∀ x ∈ db.trades, x.isOpen = true → x.accountId ≠ ownerId) :
    db.passed { env with rank := first } = db.passed { env with rank := second } := by
  have account : ∀ x ∈ db.queue { env with rank := first }, x.accountId ≠ ownerId :=
    fun x inQueue => by
      obtain ⟨inSwept, isOpen⟩ := Database.mem_queue.mp inQueue
      exact notOwner x (Database.mem_of_mem_swept inSwept isOpen).1 isOpen
  have commute : ∀ x ∈ db.queue { env with rank := first },
      ∀ y ∈ db.queue { env with rank := first }, x.accountId ≠ y.accountId →
        Commuting (Progress.turn (db.quotes env)) x y := fun x inX y inY apart =>
    turn_commuting _ apart (account x inX) (account y inY)
  exact pass_eq_of_filter_eq commute (filter_queue agree) _

/-! ## Holdings that no query finds -/

/-- What an account holds of an instrument in rows that no query finds. -/
def Database.hidden (db : Database) (accountId instrumentId : Int) : ℚ :=
  db.held accountId instrumentId - (db.position.holding accountId instrumentId).getD 0

/-- A settlement leaves the rows that no query finds. -/
theorem Moved.hidden {now accountId instrumentId : Int} {amount : ℚ} {b : Batch}
    (moved : Moved db now accountId instrumentId amount b.insertedOwned b.updatedOwned)
    (unique : (db.owned.map OwnedInstrument.id).Nodup) (tradeSeed ownedSeed a i : Int) :
    (db.apply (b.number tradeSeed ownedSeed)).hidden a i = db.hidden a i := by
  have held := moved.held unique tradeSeed ownedSeed a i
  have found := moved.position unique tradeSeed ownedSeed a i
  rw [Database.hidden, held]
  change _ - ((((db.apply (b.number tradeSeed ownedSeed)).ownedOf a i).map
    OwnedInstrument.quantity).getD 0) = _
  rw [found, Database.hidden, Position.move]
  by_cases here : a = accountId ∧ i = instrumentId
  · have pair : accountId = a ∧ instrumentId = i := ⟨here.1.symm, here.2.symm⟩
    simp only [if_pos here, if_pos pair, Option.getD_some]
    ring
  · have pair : ¬(accountId = a ∧ instrumentId = i) := fun same => here ⟨same.1.symm, same.2.symm⟩
    simp only [if_neg here, if_neg pair, add_zero]

/-- A save leaves the rows that no query finds. -/
theorem Step.hidden {now : Int} {flow : ℚ} {b : Batch} (step : Step now s.db flow b)
    (valid : s.Valid) (tradeSeed ownedSeed a i : Int) :
    (s.db.apply (b.number tradeSeed ownedSeed)).hidden a i = s.db.hidden a i := by
  have quiet : ∀ {b : Batch}, b.insertedOwned = [] → b.updatedOwned = [] →
      (s.db.apply (b.number tradeSeed ownedSeed)).hidden a i = s.db.hidden a i := by
    intro b inserted updated
    simp [Database.hidden, Database.held, Database.position, Database.ownedOf, Database.apply,
      Batch.number, inserted, updated]
  cases step with
  | cash => exact quiet rfl rfl
  | register => exact quiet rfl rfl
  | close => exact quiet rfl rfl
  | quick _ _ _ _ settles => exact settles.moved.hidden valid.owned tradeSeed ownedSeed a i
  | long _ _ _ _ _ settles => exact settles.moved.hidden valid.owned tradeSeed ownedSeed a i

/-- A run leaves the rows that no query finds. -/
theorem Run.hidden {cash : ℚ} {bs : List Batch} (run : Run s cash bs t) (valid : s.Valid)
    (a i : Int) : t.db.hidden a i = s.db.hidden a i := by
  induction run with
  | nil => rfl
  | save before step ih => exact (step.hidden (before.valid valid) _ _ a i).trans ih
  | draw before db _ _ ih => rw [db]; exact ih

/-! ## Calls -/

/-- What is read of the tables from a position. -/
theorem balanceOf_of_position {db db' : Database} {a : Int}
    (same : db.position.balance a = db'.position.balance a) : db.balanceOf a = db'.balanceOf a := by
  have key : ∀ {db : Database} {r : Balance}, db.balanceOf a = some r → r.accountId = a :=
    fun found => key_of_lookup found
  change (db.balanceOf a).map Balance.value = (db'.balanceOf a).map Balance.value at same
  cases found : db.balanceOf a with
  | none =>
    rw [found] at same
    exact (Option.map_eq_none_iff.mp same.symm).symm
  | some r =>
    rw [found] at same
    obtain ⟨r', found', value⟩ := Option.map_eq_some_iff.mp same.symm
    obtain ⟨account, amount⟩ := r
    obtain ⟨account', amount'⟩ := r'
    have accounts := (key found).trans (key found').symm
    cases accounts
    cases value
    exact found'.symm

/-- What a call that processes the open trades holds in rows that no query finds. -/
theorem hidden_process {g : Server} (valid : g.tables.Valid) (env : Env) (a i : Int) :
    (serve .exact g env.process).tables.db.hidden a i = g.tables.db.hidden a i := by
  obtain ⟨bs, run, -⟩ := serve_run env.process valid
  exact run.hidden valid a i

/-- Tables with one position and one rest hold the same. -/
theorem held_of_position {db db' : Database} {a i : Int} (same : db.position = db'.position)
    (hidden : db.hidden a i = db'.hidden a i) : db.held a i = db'.held a i := by
  unfold Database.hidden at hidden
  rw [same] at hidden
  exact sub_left_injective hidden

/-- What two calls leave. -/
theorem process_alike {g : Server} (valid : g.tables.Valid) {env env' : Env}
    (keyed : g.tables.db.Keyed env ↔ g.tables.db.Keyed env')
    (passed : g.tables.db.passed env = g.tables.db.passed env') (now : env.now = env'.now) :
    ((env.process.exec .exact g).1 = .ok .nothing ↔ (env'.process.exec .exact g).1 = .ok .nothing) ∧
      (serve .exact g env.process).tables.db.position =
        (serve .exact g env'.process).tables.db.position ∧
      (serve .exact g env.process).tables.db.trades =
        (serve .exact g env'.process).tables.db.trades := by
  by_cases isKeyed : g.tables.db.Keyed env
  · cases ends : g.tables.db.passed env with
    | none =>
      have nowhere : ∀ {env : Env}, g.tables.db.passed env = none →
          (env.process.exec .exact g).1 ≠ .ok .nothing ∧
            (serve .exact g env.process).tables.db = g.tables.db := fun endless =>
        ⟨not_returns_of_none .exact valid fun _ => endless,
          serve_process_of_none .exact valid fun _ => endless⟩
      obtain ⟨fails, kept⟩ := nowhere ends
      obtain ⟨fails', kept'⟩ := nowhere (passed.symm.trans ends)
      rw [kept, kept']
      exact ⟨iff_of_false fails fails', rfl, rfl⟩
    | some s =>
      have ends' : g.tables.db.passed env' = some s := passed.symm.trans ends
      have returns := process_returns .exact valid isKeyed ends
      have returns' := process_returns .exact valid (keyed.mp isKeyed) ends'
      obtain ⟨position, trades⟩ := serve_process valid isKeyed ends
      obtain ⟨position', trades'⟩ := serve_process valid (keyed.mp isKeyed) ends'
      rw [position, position', trades, trades', now]
      exact ⟨iff_of_true returns returns', rfl, rfl⟩
  · have endless : g.tables.db.Keyed env → g.tables.db.passed env = none :=
      fun isKeyed' => absurd isKeyed' isKeyed
    have endless' : g.tables.db.Keyed env' → g.tables.db.passed env' = none :=
      fun isKeyed' => absurd (keyed.mpr isKeyed') isKeyed
    rw [serve_process_of_none .exact valid endless, serve_process_of_none .exact valid endless']
    have fails : (env.process.exec .exact g).1 ≠ .ok .nothing :=
      not_returns_of_none .exact valid endless
    have fails' : (env'.process.exec .exact g).1 ≠ .ok .nothing :=
      not_returns_of_none .exact valid endless'
    exact ⟨iff_of_false fails fails', rfl, rfl⟩

/-- Two passes whose orders agree on the trades of each account, with no open trade of the
owner: both return or neither does, and they leave the same balances, the same holdings
and the same trades. -/
theorem order_between_accounts_is_irrelevant (g : Server) (valid : g.tables.Valid) (env : Env)
    (first second : Int → ℕ) (agree : g.tables.db.AgreeWithin first second)
    (notOwner : ∀ x ∈ g.tables.db.trades, x.isOpen = true → x.accountId ≠ ownerId) :
    let call₁ := Env.process { env with rank := first }
    let call₂ := Env.process { env with rank := second }
    let db₁ := (serve .exact g call₁).tables.db
    let db₂ := (serve .exact g call₂).tables.db
    ((call₁.exec .exact g).1 = .ok .nothing ↔ (call₂.exec .exact g).1 = .ok .nothing) ∧
      (∀ a, db₁.balanceOf a = db₂.balanceOf a) ∧
      (∀ a i, db₁.held a i = db₂.held a i ∧
        (db₁.ownedOf a i).map OwnedInstrument.quantity =
          (db₂.ownedOf a i).map OwnedInstrument.quantity) ∧
      db₁.trades = db₂.trades := by
  have keyed : g.tables.db.Keyed { env with rank := first } ↔
      g.tables.db.Keyed { env with rank := second } := Iff.rfl
  obtain ⟨returns, position, trades⟩ :=
    process_alike valid keyed (passed_eq agree notOwner) rfl
  refine ⟨returns, fun a => ?_, fun a i => ⟨?_, ?_⟩, trades⟩
  · exact balanceOf_of_position (congrFun (congrArg Position.balance position) a)
  · refine held_of_position position ?_
    rw [hidden_process valid, hidden_process valid]
  · exact congrFun (congrFun (congrArg Position.holding position) a) i

/-- An open purchase. -/
def Market.waitingPurchase (id accountId : Int) (quantity : ℚ) : Trade :=
  ⟨id, accountId, 1, "longbuy", quantity, 100, 0, some 90000, false, false, "LongBuy registered."⟩

/-- The market with three open purchases of its traders. -/
def Market.queued : Server :=
  { Market.server with tables := { Market.server.tables with
    db := { Market.server.tables.db with
      trades := [waitingPurchase 1 2 3, waitingPurchase 2 3 4, waitingPurchase 3 2 9] }
    tradeSeed := 4 } }

/-- The second trader's purchase first, or after the others: either way the last one of the
first trader is not covered. -/
theorem order_between_accounts_of_three :
    let first : Int → ℕ := fun id => if id = 2 then 0 else id.toNat
    let second : Int → ℕ := fun id => if id = 2 then 4 else id.toNat
    let call₁ := Env.process { Market.env with rank := first }
    let call₂ := Env.process { Market.env with rank := second }
    let db₁ := (serve .exact Market.queued call₁).tables.db
    let db₂ := (serve .exact Market.queued call₂).tables.db
    ((call₁.exec .exact Market.queued).1 = .ok .nothing ↔
        (call₂.exec .exact Market.queued).1 = .ok .nothing) ∧
      (∀ a, db₁.balanceOf a = db₂.balanceOf a) ∧
      (∀ a i, db₁.held a i = db₂.held a i ∧
        (db₁.ownedOf a i).map OwnedInstrument.quantity =
          (db₂.ownedOf a i).map OwnedInstrument.quantity) ∧
      db₁.trades = db₂.trades :=
  order_between_accounts_is_irrelevant Market.queued
    ⟨by decide, by decide, by decide, by decide, List.forall_mem_nil _⟩ Market.env _ _
    (by unfold Database.AgreeWithin; decide +kernel) (by decide)

example :
    let db := (serve .exact Market.queued (Env.process Market.env)).tables.db
    db.trades.map Trade.transactionHappened = [true, true, false] ∧
      db.balances = [⟨1, 10⟩, ⟨2, 695⟩, ⟨3, 95⟩] := by decide +kernel

end EasyTrade.Broker
