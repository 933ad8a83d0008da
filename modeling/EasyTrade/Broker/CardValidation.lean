import EasyTrade.Broker.Entities
import EasyTrade.Text.Routes

/-!
# Validation of credit cards

With its flag on, `CreditCardValidationMiddleware` has the card of a deposit or a withdrawal
checked before the controller sees the request. Which requests these are it reads off the
beginning and the end of the path, where routing matches segments, so the two agree on most
paths only (`cards_checked_iff`).
-/

namespace EasyTrade.Broker

open EasyTrade.Text

/-! ## Requests -/

/-- The value of a member, as far as a card number may be read from it. -/
inductive JsonValue where
  | null
  | text (value : String)
  | other
deriving DecidableEq

/-- The body of a request. -/
inductive RequestBody where
  /-- It is not JSON, or not declared as such. -/
  | unreadable
  | null
  | object (members : List (String × JsonValue))
  /-- A number, a text or an array. -/
  | other
deriving DecidableEq

/-- What the middleware and routing see of a request. -/
structure HttpRequest where
  method : String
  path : Path
  body : RequestBody

/-- `HttpMethods.IsPost`. -/
def HttpRequest.isPost (request : HttpRequest) : Bool := equalsIgnoreCase request.method "POST"

/-! ## Routing -/

/-- The template of an action of `BalanceController`. -/
def BalanceController.route (action : String) : List Part :=
  [.literal "v1".toList, .literal "balance".toList, .parameter isInt32, .literal action.toList]

/-- The request is dispatched to `DepositMoney`. -/
def HttpRequest.isDeposit (request : HttpRequest) : Bool :=
  request.isPost && templateAccepts (BalanceController.route "deposit") request.path.segments

/-- The request is dispatched to `WithdrawMoney`. -/
def HttpRequest.isWithdraw (request : HttpRequest) : Bool :=
  request.isPost && templateAccepts (BalanceController.route "withdraw") request.path.segments

/-- The request is dispatched to one of the two. -/
def HttpRequest.isDispatched (request : HttpRequest) : Bool :=
  request.isDeposit || request.isWithdraw

/-! ## The validator -/

/-- `MainframeServiceConnector.ValidateCreditCardAsync`. The mainframe is called at an address
with a card number and answers with a status code, or the call fails. -/
def MainframeServiceConnector.validateCreditCard (mainframeServiceUrl : Option String)
    (postAsync : String → String → Option ℕ) (cardNumber : String) : Bool :=
  match mainframeServiceUrl with
  | none => true
  | some baseUrl =>
    if baseUrl = "" then true
    else
      let url := baseUrl ++ "/zosConnect/services/creditcardCheck?action=invoke"
      match postAsync url cardNumber with
      | some status => decide (200 ≤ status ∧ status ≤ 299)
      | none => true

/-! ## The middleware -/

/-- What becomes of a request in the middleware. -/
inductive Handled where
  /-- It is passed on. -/
  | next
  /-- It is answered. -/
  | answered (statusCode : ℕ) (contentType message : String)
  /-- Its body could not be read, and the exception ends it. -/
  | thrown
deriving DecidableEq

namespace CreditCardValidationMiddleware

/-- The answer to a request whose card is not valid. -/
def rejection : Handled := .answered 400 "application/json" "Credit card validation failed"

/-- `IsBalanceRequest`. -/
def isBalanceRequest (request : HttpRequest) : Bool :=
  if !request.isPost then false
  else
    let path := request.path.text
    startsWithIgnoreCase path "/v1/balance/".toList &&
      (endsWithIgnoreCase path "/deposit".toList || endsWithIgnoreCase path "/withdraw".toList)

/-- `ReadFromJsonAsync<CardNumberOnly>`: names up to case, the last of several members; `none`
stands for an exception. -/
def readCardNumber : List (String × JsonValue) → Option String → Option (Option String)
  | [], cardNumber => some cardNumber
  | (name, value) :: members, cardNumber =>
    if equalsIgnoreCase name "cardNumber" then
      match value with
      | .null => readCardNumber members none
      | .text number => readCardNumber members (some number)
      | .other => none
    else readCardNumber members cardNumber

/-- `ExtractCardNumberAsync`. -/
def extractCardNumber : RequestBody → Option (Option String)
  | .unreadable => none
  | .null => some none
  | .object members => readCardNumber members none
  | .other => none

/-- `InvokeAsync`: the card numbers the validator is called with, and what becomes of the
request. -/
def invoke (flagEnabled : Bool) (validate : String → Bool) (request : HttpRequest) :
    List String × Handled :=
  if !flagEnabled then ([], .next)
  else if !isBalanceRequest request then ([], .next)
  else match extractCardNumber request.body with
    | none => ([], .thrown)
    | some none => ([], .next)
    | some (some cardNumber) =>
      if cardNumber = "" then ([], .next)
      else if !validate cardNumber then ([cardNumber], rejection)
      else ([cardNumber], .next)

end CreditCardValidationMiddleware

/-- The body carries a card number; an empty text is none. -/
def RequestBody.Carries (body : RequestBody) (cardNumber : String) : Prop :=
  CreditCardValidationMiddleware.extractCardNumber body = some (some cardNumber) ∧ cardNumber ≠ ""

instance (body : RequestBody) (cardNumber : String) : Decidable (body.Carries cardNumber) :=
  inferInstanceAs (Decidable (_ ∧ _))

/-- The middleware answers a dispatched request whose card is not valid, and has no card of
other requests checked. -/
def HttpRequest.Checked (validate : String → Bool) (request : HttpRequest) : Prop :=
  let handled := CreditCardValidationMiddleware.invoke true validate request
  (request.isDispatched = true → ∀ cardNumber, request.body.Carries cardNumber →
    validate cardNumber = false → handled.2 = CreditCardValidationMiddleware.rejection) ∧
    (request.isDispatched = false → handled.1 = [])

/-! ## Where routing and the middleware agree -/

namespace CreditCardValidationMiddleware

variable {request : HttpRequest} {validate : String → Bool} {cardNumber : String}

/-- The segments of a path that an action's template accepts. -/
theorem exists_segments {action : String} {segments : List (List Char)}
    (accepts : templateAccepts (BalanceController.route action) segments = true) :
    ∃ version balance accountId last, segments = [version, balance, accountId, last] ∧
      lower version = lower "v1".toList ∧ lower balance = lower "balance".toList ∧
        lower last = lower action.toList := by
  simp only [BalanceController.route, templateAccepts_cons, templateAccepts_nil] at accepts
  obtain ⟨version, _, rfl, isVersion, balance, _, rfl, isBalance, accountId, _, rfl, -, last, _, rfl,
    isLast, rfl⟩ := accepts
  exact ⟨version, balance, accountId, last, rfl, of_decide_eq_true isVersion,
    of_decide_eq_true isBalance, of_decide_eq_true isLast⟩

/-- A path of an action's template, without a slash at its end, has the beginning and the end
of the template. -/
theorem lower_path {action : String} {path : Path} (plain : ¬path.EndsWithSlash)
    (accepts : templateAccepts (BalanceController.route action) path.segments = true) :
    ∃ accountId, lower path.text =
      lower "/v1/balance/".toList ++ accountId ++ lower ('/' :: action.toList) := by
  obtain ⟨version, balance, accountId, last, segments, isVersion, isBalance, isLast⟩ :=
    exists_segments accepts
  have text := path.text_eq plain (by rw [segments]; exact List.cons_ne_nil _ _)
  refine ⟨lower accountId, ?_⟩
  rw [text, segments]
  simp only [List.intercalate_cons_cons, List.intercalate_singleton, lower_cons, lower_append,
    isVersion, isBalance, isLast, List.append_assoc]
  rfl

theorem isBalanceRequest_iff : isBalanceRequest request = true ↔ request.isPost = true ∧
    startsWithIgnoreCase request.path.text "/v1/balance/".toList = true ∧
      (endsWithIgnoreCase request.path.text "/deposit".toList = true ∨
        endsWithIgnoreCase request.path.text "/withdraw".toList = true) := by
  rw [isBalanceRequest, ← Bool.or_eq_true, ← Bool.and_eq_true]
  cases request.isPost with
  | false => exact iff_of_false Bool.false_ne_true fun both => Bool.false_ne_true both.1
  | true => exact ⟨fun both => ⟨rfl, both⟩, And.right⟩

/-- Of the requests that are dispatched, the middleware misses those with a slash at the end. -/
theorem isBalanceRequest_of_isDispatched (dispatched : request.isDispatched = true) :
    isBalanceRequest request = true ↔ ¬request.path.EndsWithSlash := by
  simp only [HttpRequest.isDispatched, HttpRequest.isDeposit, HttpRequest.isWithdraw,
    ← Bool.and_or_distrib_left, Bool.and_eq_true, Bool.or_eq_true] at dispatched
  obtain ⟨isPost, accepted⟩ := dispatched
  rw [isBalanceRequest_iff]
  constructor
  · rintro ⟨-, -, ending⟩ slash
    have noDeposit := endsWithIgnoreCase_slash slash
      (show "/deposit".toList.getLast? = some 't' from rfl) (by decide)
    have noWithdraw := endsWithIgnoreCase_slash slash
      (show "/withdraw".toList.getLast? = some 'w' from rfl) (by decide)
    rw [noDeposit, noWithdraw] at ending
    exact ending.elim Bool.false_ne_true Bool.false_ne_true
  · intro plain
    have ends : ∀ action : String,
        templateAccepts (BalanceController.route action) request.path.segments = true →
          startsWithIgnoreCase request.path.text "/v1/balance/".toList = true ∧
            endsWithIgnoreCase request.path.text ('/' :: action.toList) = true := by
      intro action accepts
      obtain ⟨accountId, text⟩ := lower_path plain accepts
      rw [startsWithIgnoreCase, endsWithIgnoreCase, text, List.isPrefixOf_iff_prefix,
        List.isSuffixOf_iff_suffix, List.append_assoc]
      exact ⟨List.prefix_append _ _, (List.suffix_append _ _).trans (List.suffix_append _ _)⟩
    rcases accepted with deposit | withdraw
    · obtain ⟨starts, ending⟩ := ends "deposit" deposit
      exact ⟨isPost, starts, .inl ending⟩
    · obtain ⟨starts, ending⟩ := ends "withdraw" withdraw
      exact ⟨isPost, starts, .inr ending⟩

/-- What becomes of a request with a card number. -/
theorem invoke_of_carries (carries : request.body.Carries cardNumber) :
    invoke true validate request =
      if isBalanceRequest request = true then
        ([cardNumber], if validate cardNumber = true then .next else rejection)
      else ([], .next) := by
  unfold invoke
  rw [carries.1]
  by_cases isBalance : isBalanceRequest request = true
  · cases isValid : validate cardNumber <;> simp [isBalance, carries.2, isValid]
  · simp [isBalance]

/-- The validator is called with nothing but a card number that the body carries. -/
theorem asked_of_not_carries (absent : ∀ cardNumber, ¬request.body.Carries cardNumber) :
    (invoke true validate request).1 = [] := by
  unfold invoke
  cases isBalance : isBalanceRequest request with
  | false => rfl
  | true =>
    cases extracted : extractCardNumber request.body with
    | none => rfl
    | some found =>
      cases found with
      | none => rfl
      | some cardNumber =>
        have isEmpty : cardNumber = "" := by
          by_contra some
          exact absent cardNumber ⟨extracted, some⟩
        simp [isEmpty]

end CreditCardValidationMiddleware

open CreditCardValidationMiddleware in
/-- A request that is dispatched with a card that is not valid is answered just where its path
has no slash at its end. Of one that is not dispatched nothing is checked just where its path
has not the beginning and the end of a deposit's or a withdrawal's, or it carries no card. -/
theorem cards_checked_iff (mainframeServiceUrl : Option String)
    (postAsync : String → String → Option ℕ) (request : HttpRequest) :
    let validate := MainframeServiceConnector.validateCreditCard mainframeServiceUrl postAsync
    request.Checked validate ↔
      (request.isDispatched = true → ∀ cardNumber, request.body.Carries cardNumber →
        validate cardNumber = false → ¬request.path.EndsWithSlash) ∧
      (request.isDispatched = false → ∀ cardNumber, request.body.Carries cardNumber →
        isBalanceRequest request = false) := by
  intro validate
  refine and_congr (forall_congr' fun dispatched => forall_congr' fun cardNumber =>
    forall_congr' fun carries => forall_congr' fun invalid => ?_) (forall_congr' fun elsewhere => ?_)
  · rw [invoke_of_carries carries, invalid, ← isBalanceRequest_of_isDispatched dispatched]
    split_ifs with taken impossible
    · cases impossible
    · exact iff_of_true rfl taken
    · exact iff_of_false (by simp [rejection]) taken
  · by_cases carried : ∃ cardNumber, request.body.Carries cardNumber
    · obtain ⟨cardNumber, carries⟩ := carried
      rw [invoke_of_carries carries]
      split_ifs with taken
      · refine iff_of_false not_false fun quiet => ?_
        exact Bool.false_ne_true ((quiet cardNumber carries).symm.trans taken)
      · exact iff_of_true rfl fun _ _ => Bool.eq_false_of_not_eq_true taken
    · have absent := not_exists.mp carried
      exact iff_of_true (asked_of_not_carries absent) fun cardNumber carries =>
        absurd carries (absent cardNumber)

/-- A request with a body that carries a card number. -/
def HttpRequest.withCard (path : Path) : HttpRequest :=
  ⟨"POST", path, .object [("amount", .other), ("cardNumber", .text "4000000000000002")]⟩

/-- With a slash at its end a deposit passes with a card that the mainframe refuses; of a path
that is no deposit's the card is checked. -/
theorem card_unchecked :
    let validate := MainframeServiceConnector.validateCreditCard (some "https://mainframe")
      fun _ _ => some 404
    let slash := HttpRequest.withCard ⟨"/v1/balance/2/deposit/".toList, by decide⟩
    let elsewhere := HttpRequest.withCard ⟨"/v1/balance/two/deposit".toList, by decide⟩
    (slash.isDispatched = true ∧
      CreditCardValidationMiddleware.invoke true validate slash = ([], .next) ∧
        ¬slash.Checked validate) ∧
      elsewhere.isDispatched = false ∧ ¬elsewhere.Checked validate := by
  refine ⟨⟨by decide +kernel, by decide +kernel, fun checked => ?_⟩, by decide +kernel,
    fun checked => ?_⟩
  · have answered := checked.1 (by decide +kernel) "4000000000000002" (by decide +kernel)
      (by decide +kernel)
    revert answered
    decide +kernel
  · have asked := checked.2 (by decide +kernel)
    revert asked
    decide +kernel

end EasyTrade.Broker
