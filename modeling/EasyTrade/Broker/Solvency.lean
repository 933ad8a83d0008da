import EasyTrade.Broker.Listing

/-!
# Which runs stay solvent

Withdrawals and purchases are checked against the balance with their full cost.
A sale is not: its fee is taken whether or not the balance and the income cover
it. Every other save keeps the balances from falling below zero, so a run stays
solvent as long as each sale it settles is covered when it is settled.
-/

namespace EasyTrade.Broker

open EasyTrade.Store EasyTrade.Ledger EasyTrade.Logic

variable {db : Database} {now : Int} {s t : Tables}

/-- The trade sells, by the comparison of directions that the broker uses. -/
def Trade.sells (t : Trade) : Bool :=
  equalsIgnoreCase t.direction ActionType.sell.name ||
    equalsIgnoreCase t.direction ActionType.longSell.name

/-- The balance and the income of the sale cover its fee. The owner gets the fee back. -/
def Database.covers (db : Database) (t : Trade) : Bool :=
  match db.balanceOf t.accountId, db.productOf t.instrumentId with
  | some balance, some product =>
    if t.accountId = ownerId then decide (0 ≤ balance.value + t.quantity * t.entryPrice)
    else decide (product.ppt ≤ balance.value + t.quantity * t.entryPrice)
  | _, _ => true

/-- The sales that a save settles. -/
def Batch.settledSales (b : Batch) : List Trade :=
  (b.insertedTrades ++ b.updatedTrades).filter fun t => t.transactionHappened && t.sells

/-- Each sale that the saves settle is covered just before its save. -/
def salesCovered (db : Database) : List Batch → Bool
  | [] => true
  | b :: rest => b.settledSales.all db.covers && salesCovered (db.apply b) rest

theorem salesCovered_append (db : Database) (bs more : List Batch) :
    salesCovered db (bs ++ more) = (salesCovered db bs && salesCovered (db.applyAll bs) more) := by
  induction bs generalizing db with
  | nil => rfl
  | cons b bs ih =>
    simp only [List.cons_append, salesCovered, ih, Bool.and_assoc, Database.applyAll_cons]

/-- No balance is below zero. -/
def Database.Solvent (db : Database) : Prop := ∀ r ∈ db.balances, 0 ≤ r.value

instance (db : Database) : Decidable db.Solvent := inferInstanceAs (Decidable (∀ r ∈ _, _))

/-- No fee is below zero. -/
def Database.FeesNonneg (db : Database) : Prop := ∀ p ∈ db.products, 0 ≤ p.ppt

instance (db : Database) : Decidable db.FeesNonneg := inferInstanceAs (Decidable (∀ p ∈ _, _))

/-- The fee of a trade is that of a product of the table. -/
theorem fee_nonneg (fees : db.FeesNonneg) {instrumentId : Int} {product : Product}
    (isProduct : db.productOf instrumentId = some product) : 0 ≤ product.ppt := by
  unfold Database.productOf at isProduct
  obtain ⟨instrument, -, found⟩ := Option.bind_eq_some_iff.1 isProduct
  exact fees product (mem_of_lookup found)

/-- What is left of a balance after the income and the fee of a settlement: a purchase
has been checked, and a sale is covered. -/
theorem Settles.rest_nonneg {x : Trade} {type : ActionType} {b : Batch}
    (settles : Settles db now x type b) (fees : db.FeesNonneg)
    (covered : x.sells = true → db.covers x = true) {balance : Balance} {product : Product}
    (found : db.balanceOf x.accountId = some balance)
    (isProduct : db.productOf x.instrumentId = some product) :
    0 ≤ balance.value + x.income type - product.ppt +
      (if x.accountId = ownerId then product.ppt else 0) := by
  have fee := fee_nonneg fees isProduct
  by_cases sale : type.isSale
  · have sells : x.sells = true := by
      have spelling := settles.direction
      unfold Trade.sells
      rcases sale with rfl | rfl <;> simp [spelling]
    have enough := covered sells
    simp only [Database.covers, found, isProduct] at enough
    rw [x.income_of_sale sale]
    by_cases owner : x.accountId = ownerId
    · rw [if_pos owner, decide_eq_true_eq] at enough
      rw [if_pos owner]
      linarith only [enough]
    · rw [if_neg owner, decide_eq_true_eq] at enough
      rw [if_neg owner]
      linarith only [enough]
  · obtain ⟨product', isProduct', -, checked⟩ := settles.paid
    obtain rfl : product = product' := Option.some.inj (isProduct.symm.trans isProduct')
    have enough := checked sale balance found
    split <;> linarith only [enough, fee]

/-- A settlement that is covered leaves no balance below zero. -/
theorem Settles.solvent {x : Trade} {type : ActionType} {b : Batch}
    (settles : Settles db now x type b) (solvent : db.Solvent) (fees : db.FeesNonneg)
    (covered : x.sells = true → db.covers x = true) : ∀ r ∈ b.updatedBalances, 0 ≤ r.value := by
  obtain ⟨product, isProduct, paid, -⟩ := settles.paid
  have fee := fee_nonneg fees isProduct
  generalize b.updatedBalances = balances, b.insertedHistory = rows at paid
  cases paid with
  | @trader value owner apart balance ownerBalance =>
    have rest := settles.rest_nonneg fees covered balance isProduct
    rw [if_neg apart, add_zero] at rest
    have ownerValue : 0 ≤ owner := solvent _ (mem_of_lookup ownerBalance)
    intro r inRows
    rcases List.mem_cons.1 inRows with rfl | inRows
    · exact rest
    · rw [List.mem_singleton.1 inRows]
      exact add_nonneg ownerValue fee
  | @owner value same balance =>
    have rest := settles.rest_nonneg fees covered balance isProduct
    rw [if_pos same] at rest
    intro r inRows
    rw [List.mem_singleton.1 inRows]
    exact rest

/-- A save whose sales are covered keeps the balances from falling below zero. -/
theorem Step.solvent {flow : ℚ} {p : Batch} (step : Step now db flow p) (solvent : db.Solvent)
    (fees : db.FeesNonneg) {tradeSeed ownedSeed : Int}
    (covered : ∀ x ∈ (p.number tradeSeed ownedSeed).settledSales, db.covers x = true) :
    (db.apply (p.number tradeSeed ownedSeed)).Solvent := by
  have updated : ∀ r ∈ p.updatedBalances, 0 ≤ r.value := by
    cases step with
    | @cash balance balance' amount type found changed =>
      obtain ⟨rfl, amountNonneg, enough, kind⟩ := change_ok changed
      have value : 0 ≤ balance.value := solvent _ (mem_of_lookup found)
      intro r inRows
      rw [List.mem_singleton.1 inRows]
      change 0 ≤ balance.value + type.signed amount
      rcases kind with rfl | rfl
      · simp only [ActionType.signed, reduceCtorEq, if_false]
        linarith only [value, amountNonneg]
      · have covers := enough rfl
        simp only [ActionType.signed, if_true]
        linarith only [covers]
    | register => exact List.forall_mem_nil _
    | close => exact List.forall_mem_nil _
    | @quick accountId instrumentId type price amount _ _ _ inserted _ settles =>
      refine settles.solvent solvent fees fun sells => ?_
      refine covered { Trade.quickTrade accountId instrumentId type price amount now with
        id := tradeSeed + (0 : ℕ) } (List.mem_filter.2 ⟨?_, ?_⟩)
      · simp [Batch.number, inserted]
      · rw [Bool.and_eq_true]
        exact ⟨rfl, sells⟩
    | @long x type _ _ _ _ _ only settles =>
      refine settles.solvent solvent fees fun sells => ?_
      refine covered (x.close type.finished true) (List.mem_filter.2 ⟨?_, ?_⟩)
      · simp [Batch.number, only]
      · rw [Bool.and_eq_true]
        exact ⟨rfl, sells⟩
  intro r inTable
  rcases mem_overwrite inTable with changed | ⟨kept, -⟩
  · exact updated r changed
  · exact solvent r kept

/-- A run whose sales are covered stays solvent. -/
theorem Run.solvent {cash : ℚ} {bs : List Batch} (run : Run s cash bs t) (solvent : s.db.Solvent)
    (fees : s.db.FeesNonneg) (covered : salesCovered s.db bs = true) : t.db.Solvent := by
  induction run with
  | nil => exact solvent
  | draw before db _ _ ih => exact db ▸ ih covered
  | @save now cash flow bs p t before step ih =>
    rw [salesCovered_append, Bool.and_eq_true, ← before.db] at covered
    have sales : (p.number t.tradeSeed t.ownedSeed).settledSales.all t.db.covers = true := by
      simpa [salesCovered] using covered.2
    have fees' : t.db.FeesNonneg := by
      unfold Database.FeesNonneg
      rw [before.db, Database.products_applyAll]
      exact fees
    exact step.solvent (ih covered.1) fees' (List.all_eq_true.1 sales)

/-- From a solvent database with fees that are not negative: if each sale that a
sequence of calls settles is covered when it is settled, no balance is below zero
after any of the calls. -/
theorem balances_stay_nonnegative (g : Server) (calls : List Call) (valid : g.tables.Valid)
    (solvent : g.tables.db.Solvent) (fees : g.tables.db.FeesNonneg) {bs : List Batch}
    (log : (serveAll .exact g calls).log = g.log ++ bs)
    (covered : salesCovered g.tables.db bs = true) {before after : List Call}
    (split : calls = before ++ after) : (serveAll .exact g before).tables.db.Solvent := by
  obtain ⟨bs₁, run, log₁⟩ := serveAll_run before valid
  obtain ⟨bs₂, -, log₂⟩ := serveAll_run after (serveAll_valid .exact before valid)
  rw [split, serveAll_append, log₂, log₁, List.append_assoc] at log
  have same : bs₁ ++ bs₂ = bs := List.append_cancel_left log
  rw [← same, salesCovered_append, Bool.and_eq_true] at covered
  exact run.solvent solvent fees covered.1

/-- A day on which the one sale is covered. -/
theorem balances_stay_nonnegative_of_day :
    (serveAll .exact Market.server Market.day).tables.db.Solvent :=
  @balances_stay_nonnegative Market.server Market.day Market.valid (by decide +kernel)
    (by decide +kernel) (serveAll .exact Market.server Market.day).log rfl (by decide +kernel)
    Market.day [] (List.append_nil _).symm

/-- A trader buys a share, withdraws the rest of the money and sells a tenth of the
share: the fee of five is more than the income of one. -/
theorem sale_overdraws :
    Market.server.tables.db.Solvent ∧ Market.server.tables.db.FeesNonneg ∧
      ¬(serveAll .exact Market.server [Market.call (.buyAssets 2 1 1),
        Market.call (.withdraw 2 985), Market.call (.sellAssets 2 1 (1 / 10))]).tables.db.Solvent := by
  decide +kernel

end EasyTrade.Broker
