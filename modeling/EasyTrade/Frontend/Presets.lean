import EasyTrade.Broker.Fates
import Mathlib.Data.Rat.Floor

/-!
# The presets of the order forms

The forms for long-running trades can be filled in by a preset that says how the
trade is going to end. What the user sees when the preset is chosen decides the
amount and the price; the broker decides about the trade when it is processed. The
presets keep their word (`presets_kept_iff`) but for one: a purchase that is meant
to succeed takes as many shares as the balance pays for, and leaves the fee to what
happens to remain.
-/

namespace EasyTrade.Frontend

open EasyTrade.Broker EasyTrade.Ledger EasyTrade.Logic EasyTrade.Logic.Program

/-! ## The forms -/

/-- `FormData`, with whole hours. -/
structure FormData where
  amount : ℚ
  price : ℚ
  time : Int
  total : ℚ
deriving DecidableEq, Repr

/-- The field and the message of a check that fails. -/
def check (passes : Bool) (path message : String) : List (String × String) :=
  if passes then [] else [(path, message)]

/-- What `formSchema` has against the data. The two forms have the same schema. -/
def formSchema (data : FormData) : List (String × String) :=
  check (decide (0 < data.amount)) "amount" "Amount must be greater than 0" ++
    check (decide (0 < data.price)) "price" "Price must be grater than 0" ++
    check (decide (1 ≤ data.time)) "time" "Time range must be at least 1h" ++
    check (decide (data.time ≤ 24)) "time" "Time range must be at most 24h"

/-- `setValues`. -/
def setValues (amount price : ℚ) (time : Int) (data : FormData) : FormData :=
  { data with amount := amount, price := price, time := time }

/-- The effect that follows the amount and the price. -/
def setTotal (data : FormData) : FormData := { data with total := data.amount * data.price }

namespace BuyForm

/-- `setSuccessTransaction`. -/
def setSuccessTransaction (availableBalance : Option ℚ) (price : ℚ) : FormData → FormData :=
  setValues ⌊availableBalance.getD price / price⌋ price 1

/-- `setFailTransaction`. -/
def setFailTransaction (availableBalance : Option ℚ) (price : ℚ) : FormData → FormData :=
  setValues (⌈availableBalance.getD 1000000 / price⌉ + 1) price 1

/-- `setTimeoutTransaction`. -/
def setTimeoutTransaction (availableBalance : Option ℚ) (price : ℚ) : FormData → FormData :=
  setValues ⌊availableBalance.getD price / price⌋ (price / 1000) 1

end BuyForm

namespace SellForm

/-- `setSuccessTransaction`. -/
def setSuccessTransaction (price amount : ℚ) : FormData → FormData := setValues amount price 1

/-- `setFailTransaction`. -/
def setFailTransaction (price amount : ℚ) : FormData → FormData := setValues (amount + 1) price 1

/-- `setTimeoutTransaction`. -/
def setTimeoutTransaction (price amount : ℚ) : FormData → FormData :=
  setValues amount (price + 1000) 1

end SellForm

/-- What the page of an instrument knows: the balance of its user, and the price and the
amount of the instrument. -/
structure Page where
  balance : Option ℚ
  close : ℚ
  amount : ℚ

/-- The menu of an `AutofillButton`. -/
inductive Preset where
  | success | fail | timeout
deriving DecidableEq, Repr

/-- The form of a purchase or of a sale. -/
inductive Form where
  | buy | sell
deriving DecidableEq, Repr

namespace Form

/-- A preset is chosen in the form. -/
def autofill (page : Page) : Form → Preset → FormData → FormData
  | buy, .success => BuyForm.setSuccessTransaction (some (page.balance.getD 0)) page.close
  | buy, .fail => BuyForm.setFailTransaction (some (page.balance.getD 0)) page.close
  | buy, .timeout => BuyForm.setTimeoutTransaction (some (page.balance.getD 0)) page.close
  | sell, .success => SellForm.setSuccessTransaction page.close page.amount
  | sell, .fail => SellForm.setFailTransaction page.close page.amount
  | sell, .timeout => SellForm.setTimeoutTransaction page.close page.amount

/-- `buyHandler` and `sellHandler`: what the broker is asked for. -/
def handler (accountId instrumentId : Int) : Form → FormData → Request
  | buy, data => .longBuyAssets accountId instrumentId data.amount data.time data.price
  | sell, data => .longSellAssets accountId instrumentId data.amount data.time data.price

/-- The form is submitted. -/
def submit (accountId instrumentId : Int) (form : Form) (data : FormData) :
    Except (List (String × String)) Request :=
  match formSchema data with
  | [] => .ok (form.handler accountId instrumentId data)
  | errors => .error errors

/-- The action of the form. -/
def type : Form → ActionType
  | buy => .longBuy
  | sell => .longSell

end Form

section Submission

variable {accountId instrumentId : Int} {form : Form} {data : FormData} {request : Request}

theorem check_eq_nil {passes : Bool} {path message : String} :
    check passes path message = [] ↔ passes = true := by
  cases passes <;> simp [check]

/-- What the schema accepts. -/
theorem formSchema_eq_nil : formSchema data = [] ↔
    0 < data.amount ∧ 0 < data.price ∧ 1 ≤ data.time ∧ data.time ≤ 24 := by
  simp only [formSchema, List.append_eq_nil_iff, check_eq_nil, decide_eq_true_eq, and_assoc]

/-- What a form submits. -/
theorem Form.submit_eq_ok : form.submit accountId instrumentId data = .ok request ↔
    formSchema data = [] ∧ request = form.handler accountId instrumentId data := by
  unfold Form.submit
  split
  · rename_i accepted
    simp [accepted, eq_comm]
  · rename_i rejected
    have objection : formSchema data ≠ [] := rejected
    simp [objection]

/-- A form that was filled in by a preset is accepted with any positive amount. -/
theorem submit_autofill {page : Page} {preset : Preset} (price : 0 < page.close) :
    (∃ request, form.submit accountId instrumentId (setTotal (form.autofill page preset data)) =
        .ok request) ↔ 0 < (form.autofill page preset data).amount := by
  have thousandth : 0 < page.close / 1000 := by positivity
  have more : 0 < page.close + 1000 := by positivity
  simp only [Form.submit_eq_ok, exists_and_left, exists_eq, and_true, formSchema_eq_nil]
  cases form <;> cases preset <;>
    simp [setTotal, Form.autofill, BuyForm.setSuccessTransaction, BuyForm.setFailTransaction,
      BuyForm.setTimeoutTransaction, SellForm.setSuccessTransaction, SellForm.setFailTransaction,
      SellForm.setTimeoutTransaction, setValues, price, thousandth, more]

/-- The trade that the broker answers with is the one of the form. -/
theorem registered {c : DecimalColumn} {g : Server} {env : Env} {refuses : ℕ → Bool} {t : Trade}
    (valid : g.tables.Valid)
    (answered : (Call.exec c ⟨env, refuses, form.handler accountId instrumentId data⟩ g).1 =
      .ok (.trade t)) :
    t.accountId = accountId ∧ t.instrumentId = instrumentId ∧ t.direction = form.type.lower ∧
      t.quantity = data.amount ∧ t.entryPrice = data.price := by
  obtain ⟨μ, served⟩ := serve_of_ok valid answered
  have evaluated : ∃ r ν, (LongTradeService.createLongTransaction accountId instrumentId
      data.amount data.time data.price form.type).eval Book.act .refused
        { env := env, saved := g.tables } = .ok (r, ν) ∧ r = t := by
    have ok := served.eval
    cases form with
    | buy =>
      obtain ⟨r, ν, made, ended⟩ := eval_bind_ok.mp ok
      obtain ⟨same, -⟩ := eval_pure_ok.mp ended
      exact ⟨r, ν, made, by cases same; rfl⟩
    | sell =>
      obtain ⟨r, ν, made, ended⟩ := eval_bind_ok.mp ok
      obtain ⟨same, -⟩ := eval_pure_ok.mp ended
      exact ⟨r, ν, made, by cases same; rfl⟩
  obtain ⟨r, ν, made, rfl⟩ := evaluated
  obtain ⟨-, t, isTrade, -, rfl⟩ := createLongTransaction_inserted rfl made
  obtain ⟨close, rfl⟩ := Trade.eq_of_longTrade isTrade
  exact ⟨rfl, rfl, rfl, rfl, rfl⟩

end Submission

/-! ## What becomes of the trade -/

/-- The preset says that the trade is going to happen, or that it is not. -/
def Preset.promise : Preset → Option Bool
  | success => some true
  | fail => some false
  | timeout => none

/-- As many shares as the balance pays for leave enough for a fee where the rest of the
balance does. -/
theorem floor_mul_add_le {balance price fee : ℚ} (positive : 0 < price) :
    ⌊balance / price⌋ * price + fee ≤ balance ↔ fee ≤ price * Int.fract (balance / price) := by
  have parts : (⌊balance / price⌋ : ℚ) + Int.fract (balance / price) = balance / price :=
    Int.floor_add_fract _
  have whole : balance = ⌊balance / price⌋ * price + price * Int.fract (balance / price) :=
    calc balance = balance / price * price := (div_mul_cancel₀ balance positive.ne').symm
      _ = (⌊balance / price⌋ + Int.fract (balance / price)) * price := by rw [parts]
      _ = _ := by ring
  constructor
  · intro covered
    linarith only [covered, whole]
  · intro rest
    linarith only [rest, whole]

/-- One share more than the balance pays for costs more than the balance. -/
theorem lt_ceil_add_one_mul {balance price : ℚ} (positive : 0 < price) :
    balance < (⌈balance / price⌉ + 1) * price := by
  have enough : balance / price ≤ ⌈balance / price⌉ := Int.le_ceil _
  rw [div_le_iff₀ positive] at enough
  linarith only [enough, positive]

section Processing

variable {form : Form} {preset : Preset} {happens : Bool} {data : FormData} {t : Trade}
  {q : Quote} {p : Position Int Int ℚ} {balance price holding : ℚ}

/-- The trade of a form waits for its price. -/
theorem isLong_of_direction (direction : t.direction = form.type.lower) :
    (form = .buy → t.isLongBuy = true) ∧ (form = .sell → t.isLongSell = true) := by
  constructor <;> rintro rfl
  · rw [Trade.isLongBuy, direction]
    exact equalsIgnoreCase_lower .longBuy
  · rw [Trade.isLongSell, direction]
    exact equalsIgnoreCase_lower .longSell

/-- What a purchase costs. -/
theorem covered_buy (fee : ℚ) (isBuy : t.isLongBuy = true) (isBalance : p.balance t.accountId = some balance) :
    t.covered fee p = true ↔ t.quantity * t.entryPrice + fee ≤ balance := by
  rw [Trade.covered, if_pos isBuy, isBalance, Option.any_some, decide_eq_true_eq]

/-- What a sale takes; an account without a holding has none of the shares. -/
theorem covered_sell (fee : ℚ) (isSell : t.isLongSell = true) (positive : 0 < t.quantity)
    (isHolding : (p.holding t.accountId t.instrumentId).getD 0 = holding) :
    t.covered fee p = true ↔ t.quantity ≤ holding := by
  rw [Trade.covered, if_neg (by simp [isLongBuy_of_isLongSell isSell]), ← isHolding]
  cases p.holding t.accountId t.instrumentId with
  | none => simpa using positive
  | some quantity => simp

/-- A pass whose candle reaches the price of a preset closes its trade, and as the preset
says, if it is not for a purchase whose fee the rest of the balance does not pay. -/
theorem presets_kept_iff {c : DecimalColumn} {g₀ g : Server} {env₀ env : Env} {refuses : ℕ → Bool}
    {accountId instrumentId : Int} {request : Request}
    (promise : preset.promise = some happens)
    (sent : form.submit accountId instrumentId
      (setTotal (form.autofill ⟨some balance, price, holding⟩ preset data)) = .ok request)
    (valid₀ : g₀.tables.Valid)
    (answered : (Call.exec c ⟨env₀, refuses, request⟩ g₀).1 = .ok (.trade t))
    (valid : g.tables.Valid) (processes : g.Processes env t q p)
    (isBalance : p.balance accountId = some balance)
    (isHolding : (p.holding accountId instrumentId).getD 0 = holding)
    (low : q.price.low ≤ price) (high : price ≤ q.price.high) (feeNonneg : 0 ≤ q.product.ppt) :
    ∃ r ∈ (serve .exact g env.process).tables.db.trades, r.id = t.id ∧ r.tradeClosed = true ∧
      (r.transactionHappened = happens ↔ (form = .buy ∧ preset = .success →
        q.product.ppt ≤ price * Int.fract (balance / price))) := by
  obtain ⟨accepted, rfl⟩ := Form.submit_eq_ok.mp sent
  obtain ⟨amountPositive, pricePositive, -, -⟩ := formSchema_eq_nil.mp accepted
  obtain ⟨rfl, rfl, direction, quantity, entryPrice⟩ := registered valid₀ answered
  obtain ⟨v, verdict, inTable⟩ := processes.row valid
  obtain ⟨isBuy, isSell⟩ := isLong_of_direction direction
  have isPrice : t.entryPrice = price := by
    rw [entryPrice]
    cases form <;> cases preset <;> first | rfl | cases promise
  rw [← quantity] at amountPositive
  rw [← entryPrice, isPrice] at pricePositive
  cases form with
  | buy =>
    have isBuy := isBuy rfl
    have met : t.limitMet q.price = true := by simp [Trade.limitMet, isBuy, isPrice, low]
    obtain ⟨closed, happened⟩ := Trade.row_of_limitMet verdict (.inl isBuy) met
    refine ⟨v.row t, inTable, v.id_row t, closed, ?_⟩
    have covered := covered_buy q.product.ppt isBuy isBalance
    rw [isPrice, quantity] at covered
    rw [happened]
    cases preset with
    | success =>
      cases promise
      have cost := @floor_mul_add_le balance price q.product.ppt pricePositive
      simpa using covered.trans cost
    | fail =>
      cases promise
      have cost := @lt_ceil_add_one_mul balance price pricePositive
      have uncovered : ¬t.covered q.product.ppt p = true := fun enough => by
        have paid : (⌈balance / price⌉ + 1) * price + q.product.ppt ≤ balance := covered.mp enough
        linarith only [cost, paid, feeNonneg]
      simpa using uncovered
    | timeout => cases promise
  | sell =>
    have isSell := isSell rfl
    have met : t.limitMet q.price = true := by
      simp [Trade.limitMet, isLongBuy_of_isLongSell isSell, isPrice, high]
    obtain ⟨closed, happened⟩ := Trade.row_of_limitMet verdict (.inr isSell) met
    refine ⟨v.row t, inTable, v.id_row t, closed, ?_⟩
    have covered := covered_sell q.product.ppt isSell amountPositive isHolding
    rw [quantity] at covered
    rw [happened]
    cases preset with
    | success =>
      cases promise
      simpa using covered.mpr (le_refl holding)
    | fail =>
      cases promise
      have uncovered : ¬t.covered q.product.ppt p = true := fun enough => by
        have held : holding + 1 ≤ holding := covered.mp enough
        linarith only [held]
      simpa using uncovered
    | timeout => cases promise

deriving instance DecidableEq for Quote

/-- A purchase of the first trader of the market, who has 1000 on the account. -/
def purchase (price : ℚ) (preset : Preset) : Request :=
  Form.buy.handler 2 1 (setTotal (Form.buy.autofill ⟨some 1000, price, 0⟩ preset ⟨0, price, 1, 0⟩))

/-- The market with the purchase registered. -/
def ordered (price : ℚ) (preset : Preset) : Server :=
  serve .exact Market.server (Market.call (purchase price preset))

/-- The trade of the purchase. -/
def placed (quantity price : ℚ) : Trade :=
  ⟨1, 2, 1, "longbuy", quantity, price, 1000, some 4600, false, false, "LongBuy registered."⟩

/-- Ninety shares at eleven leave ten for the fee of five. -/
theorem presets_kept_of_purchase :
    ∃ r ∈ (serve .exact (ordered 11 .success) Market.env.process).tables.db.trades,
      r.id = 1 ∧ r.tradeClosed = true ∧ (r.transactionHappened = true ↔
        (Form.buy = .buy ∧ Preset.success = .success →
          (5 : ℚ) ≤ 11 * Int.fract ((1000 : ℚ) / 11))) :=
  @presets_kept_iff .buy .success true ⟨0, 11, 1, 0⟩ (placed 90 11)
    ⟨Market.candle, ⟨1, "Share", 5, "USD"⟩⟩ (ordered 11 .success).tables.db.position 1000 11 0
    .exact Market.server (ordered 11 .success) Market.env Market.env (fun _ => false) 2 1
    (purchase 11 .success) rfl (by decide +kernel) Market.valid (by decide +kernel)
    ⟨by decide +kernel, by decide +kernel, by decide +kernel, by decide +kernel, by decide +kernel⟩
    ⟨by decide +kernel, by decide +kernel, [], [], _, by decide +kernel, rfl, rfl⟩
    (by decide +kernel) (by decide +kernel) (by decide +kernel) (by decide +kernel)
    (by decide +kernel)

/-- A hundred shares at ten cost all of the thousand, and nothing is left for the fee: the
preset that says success makes a trade that fails. -/
theorem success_preset_fails :
    Form.buy.submit 2 1 (setTotal (Form.buy.autofill ⟨some 1000, 10, 0⟩ .success ⟨0, 10, 1, 0⟩)) =
        .ok (purchase 10 .success) ∧
      (Call.exec .exact (Market.call (purchase 10 .success)) Market.server).1 =
        .ok (.trade (placed 100 10)) ∧
      (ordered 10 .success).tables.db.position.balance 2 = some 1000 ∧
      (ordered 10 .success).tables.db.position.holding 2 1 = none ∧
      Market.candle.low ≤ 10 ∧ 10 ≤ Market.candle.high ∧
      (serve .exact (ordered 10 .success) Market.env.process).tables.db.trades =
        [(placed 100 10).close "Not enough money to buy stocks! Trade failed!" false] := by
  decide +kernel

/-- The trade of a timeout preset stays open where the candle does not reach its price. -/
theorem timeout_waits {c : DecimalColumn} {g₀ g : Server} {env₀ env : Env} {refuses : ℕ → Bool}
    {accountId instrumentId : Int} {request : Request}
    (sent : form.submit accountId instrumentId
      (setTotal (form.autofill ⟨some balance, price, holding⟩ .timeout data)) = .ok request)
    (valid₀ : g₀.tables.Valid)
    (answered : (Call.exec c ⟨env₀, refuses, request⟩ g₀).1 = .ok (.trade t))
    (valid : g.tables.Valid) (processes : g.Processes env t q p)
    (low : price / 1000 < q.price.low) (high : q.price.high < price + 1000) :
    t ∈ (serve .exact g env.process).tables.db.trades := by
  obtain ⟨-, rfl⟩ := Form.submit_eq_ok.mp sent
  obtain ⟨-, -, direction, -, entryPrice⟩ := registered valid₀ answered
  obtain ⟨v, verdict, inTable⟩ := processes.row valid
  obtain ⟨isBuy, isSell⟩ := isLong_of_direction direction
  have unmet : t.limitMet q.price = false := by
    cases form with
    | buy =>
      have isPrice : t.entryPrice = price / 1000 := entryPrice
      simp [Trade.limitMet, isBuy rfl, isPrice, low]
    | sell =>
      have isPrice : t.entryPrice = price + 1000 := entryPrice
      simp [Trade.limitMet, isLongBuy_of_isLongSell (isSell rfl), isPrice, high]
  rcases Trade.verdict_cases verdict with ⟨notBuy, notSell, -⟩ | ⟨-, ⟨-, rfl⟩ | ⟨met, -⟩⟩
  · cases form with
    | buy => simp [isBuy rfl] at notBuy
    | sell => simp [isSell rfl] at notSell
  · exact inTable
  · simp [unmet] at met

end Processing

end EasyTrade.Frontend
