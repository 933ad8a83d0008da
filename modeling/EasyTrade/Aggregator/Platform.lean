import Mathlib.Data.List.DropRight
import Mathlib.Algebra.Order.Ring.Rat
import Mathlib.Tactic.Common

/-!
# Platforms of the aggregator service

`platform.go`: a platform asks its provider for offers and counts the answers that fail
or are slow, one after another. `E` are the errors of providers; they come from packages
that do not know the error of the platform.
-/

namespace EasyTrade.Aggregator

variable {E O : Type*}

/-- The fields of `config.PlatformConfig` that `CheckOffers` reads. Durations are in
nanoseconds. -/
structure PlatformConfig where
  name : String
  filter : String
  maxFee : ℚ
  requestTimeLimit : Int
  consecutiveFailLimit : Int

/-- `offer.OfferResult`. -/
structure OfferResult (O : Type*) where
  offer : O
  requestDuration : Int

/-- `offer.OfferProvider`, as it answers at the time of a call. -/
structure OfferProvider (E O : Type*) where
  getOffersJson : String → String → ℚ → Except E (OfferResult O)
  getOffersXml : String → String → ℚ → Except E (OfferResult O)

/-- The errors that `CheckOffers` returns. -/
inductive PlatformError (E : Type*) where
  | provider (e : E)
  /-- `ErrFailCounterLimitExceeded`. -/
  | failCounterLimitExceeded
  /-- `errors.Join`. -/
  | join (err other : PlatformError E)

/-- `errors.Is(err, ErrFailCounterLimitExceeded)`. -/
def PlatformError.isLimitExceeded : PlatformError E → Bool
  | provider _ => false
  | failCounterLimitExceeded => true
  | join err other => err.isLimitExceeded || other.isLimitExceeded

/-- `Platform`, but for its handler of sign-ups. -/
structure Platform where
  config : PlatformConfig
  consecutiveFailCounter : Int

/-- A platform that has not been asked yet. -/
def Platform.new (config : PlatformConfig) : Platform := ⟨config, 0⟩

/-- One call of `CheckOffers`: its argument and the provider at that time. -/
structure OfferCheck (E O : Type*) where
  useXml : Bool
  offerProvider : OfferProvider E O

/-- What the provider answers in a call. -/
def OfferCheck.fetch (call : OfferCheck E O) (config : PlatformConfig) : Except E (OfferResult O) :=
  if call.useXml then call.offerProvider.getOffersXml config.name config.filter config.maxFee
  else call.offerProvider.getOffersJson config.name config.filter config.maxFee

namespace Platform

/-- `CheckOffers`: the offer or the error, and the platform afterwards. -/
def checkOffers (p : Platform) (call : OfferCheck E O) : Except (PlatformError E) O × Platform :=
  match call.fetch p.config with
  | .error err =>
    let p := { p with consecutiveFailCounter := p.consecutiveFailCounter + 1 }
    if p.consecutiveFailCounter ≥ p.config.consecutiveFailLimit then
      (.error (.join (.provider err) .failCounterLimitExceeded), p)
    else (.error (.provider err), p)
  | .ok offerResult =>
    let p := if offerResult.requestDuration ≥ p.config.requestTimeLimit then
        { p with consecutiveFailCounter := p.consecutiveFailCounter + 1 }
      else { p with consecutiveFailCounter := 0 }
    if p.consecutiveFailCounter ≥ p.config.consecutiveFailLimit then
      (.error .failCounterLimitExceeded, p)
    else (.ok offerResult.offer, p)

/-- The platform after a sequence of calls. -/
def checkAll (p : Platform) (calls : List (OfferCheck E O)) : Platform :=
  calls.foldl (fun p call => (p.checkOffers call).2) p

end Platform

/-! ## Bad calls -/

/-- The call fails or is slow. -/
def OfferCheck.bad (config : PlatformConfig) (call : OfferCheck E O) : Bool :=
  match call.fetch config with
  | .error _ => true
  | .ok offerResult => decide (offerResult.requestDuration ≥ config.requestTimeLimit)

/-- The number of bad calls at the end of a sequence. -/
def badStreak (config : PlatformConfig) (calls : List (OfferCheck E O)) : Int :=
  (calls.rtakeWhile (OfferCheck.bad config)).length

variable {p : Platform} {config : PlatformConfig} {call : OfferCheck E O}
  {calls : List (OfferCheck E O)}

theorem badStreak_append (bad : call.bad config = true) :
    badStreak config (calls ++ [call]) = badStreak config calls + 1 := by
  rw [badStreak, List.rtakeWhile_concat_pos _ _ _ bad, List.length_append, badStreak]
  simp

theorem badStreak_append_good (good : call.bad config = false) :
    badStreak config (calls ++ [call]) = 0 := by
  rw [badStreak, List.rtakeWhile_concat_neg _ _ _ (by simp [good])]
  rfl

/-! ## What one call does -/

namespace Platform

/-- A call keeps the configuration, and counts itself if it is bad. -/
theorem checkOffers_platform (p : Platform) (call : OfferCheck E O) :
    (p.checkOffers call).2 = { p with
      consecutiveFailCounter := if call.bad p.config then p.consecutiveFailCounter + 1 else 0 } := by
  unfold checkOffers OfferCheck.bad
  cases call.fetch p.config with
  | error err =>
    dsimp only
    split <;> rfl
  | ok offerResult =>
    dsimp only
    by_cases slow : offerResult.requestDuration ≥ p.config.requestTimeLimit
    · simp only [if_pos slow, decide_eq_true slow]
      split <;> rfl
    · simp only [if_neg slow, decide_eq_false slow]
      split <;> rfl

/-- The outcome of a call is told by its counter and the answer of the provider. -/
theorem checkOffers_outcome (p : Platform) (call : OfferCheck E O) :
    let counter := (p.checkOffers call).2.consecutiveFailCounter
    (p.checkOffers call).1 = match call.fetch p.config with
      | .error err => .error (if p.config.consecutiveFailLimit ≤ counter then
          .join (.provider err) .failCounterLimitExceeded else .provider err)
      | .ok offerResult => if p.config.consecutiveFailLimit ≤ counter then
          .error .failCounterLimitExceeded else .ok offerResult.offer := by
  unfold checkOffers
  cases call.fetch p.config with
  | error err =>
    dsimp only
    split <;> rfl
  | ok offerResult =>
    dsimp only
    by_cases slow : offerResult.requestDuration ≥ p.config.requestTimeLimit
    · simp only [if_pos slow]
      split <;> rfl
    · simp only [if_neg slow]
      split <;> rfl

/-! ## Sequences of calls -/

@[simp] theorem checkAll_append (p : Platform) (calls : List (OfferCheck E O))
    (call : OfferCheck E O) :
    p.checkAll (calls ++ [call]) = ((p.checkAll calls).checkOffers call).2 := by
  rw [checkAll, List.foldl_append]
  rfl

/-- The counter is the length of the current streak. -/
theorem checkAll_new (config : PlatformConfig) (calls : List (OfferCheck E O)) :
    (new config).checkAll calls = ⟨config, badStreak config calls⟩ := by
  induction calls using List.reverseRecOn with
  | nil => rfl
  | append_singleton calls call ih =>
    rw [checkAll_append, ih, checkOffers_platform]
    cases bad : call.bad config with
    | true => rw [badStreak_append bad]; simp
    | false => rw [badStreak_append_good bad]; simp

end Platform

/-- After every sequence of calls the counter is the number of bad calls at its end. The
last call returns an error that is or wraps `ErrFailCounterLimitExceeded` just where this
number reaches the limit, and an offer just where the provider has answered and the
number is below the limit. A good call returns its offer. -/
theorem fail_counter_is_streak (config : PlatformConfig) (limit : 0 < config.consecutiveFailLimit)
    (calls : List (OfferCheck E O)) (call : OfferCheck E O) :
    let p := (Platform.new config).checkAll calls
    let outcome := (p.checkOffers call).1
    let p' := (p.checkOffers call).2
    let streak := badStreak config (calls ++ [call])
    p'.consecutiveFailCounter = streak ∧
      ((∃ err, outcome = .error err ∧ err.isLimitExceeded = true) ↔
        config.consecutiveFailLimit ≤ streak) ∧
      (∀ offer, outcome = .ok offer ↔ (∃ offerResult, call.fetch config = .ok offerResult ∧
        offerResult.offer = offer) ∧ streak < config.consecutiveFailLimit) ∧
      (call.bad config = false → ∃ offerResult, call.fetch config = .ok offerResult ∧
        outcome = .ok offerResult.offer) := by
  intro p
  have isConfig : p.config = config := by
    change ((Platform.new config).checkAll calls).config = config
    rw [Platform.checkAll_new]
  have counter : (p.checkOffers call).2.consecutiveFailCounter =
      badStreak config (calls ++ [call]) := by
    change (((Platform.new config).checkAll calls).checkOffers call).2.consecutiveFailCounter = _
    rw [← Platform.checkAll_append, Platform.checkAll_new]
  have outcome := p.checkOffers_outcome call
  simp only [counter, isConfig] at outcome
  dsimp only
  rw [outcome, counter]
  refine ⟨rfl, ?_, ?_, ?_⟩
  · cases call.fetch config with
    | error err =>
      by_cases reached : config.consecutiveFailLimit ≤ badStreak config (calls ++ [call])
      · simp [reached, PlatformError.isLimitExceeded]
      · simp [reached, PlatformError.isLimitExceeded]
    | ok offerResult =>
      by_cases reached : config.consecutiveFailLimit ≤ badStreak config (calls ++ [call])
      · simp [reached, PlatformError.isLimitExceeded]
      · simp [reached]
  · intro offer
    cases call.fetch config with
    | error err => simp
    | ok offerResult =>
      by_cases reached : config.consecutiveFailLimit ≤ badStreak config (calls ++ [call])
      · simp [reached, not_lt.mpr reached]
      · simp [reached, not_le.mp reached]
  · intro good
    have none : ¬config.consecutiveFailLimit ≤ badStreak config (calls ++ [call]) := by
      rw [badStreak_append_good good]
      omega
    unfold OfferCheck.bad at good
    cases fetched : call.fetch config with
    | error err =>
      rw [fetched] at good
      cases good
    | ok offerResult => exact ⟨offerResult, rfl, if_neg none⟩

/-- A platform that gives up after two bad answers. -/
def impatient : PlatformConfig := ⟨"dynatestsieger.at", "[]", 100, 1000, 2⟩

/-- A call that is answered alike by both methods. -/
def checkAnswered (answer : Except String (OfferResult String)) : OfferCheck String String :=
  ⟨false, ⟨fun _ _ _ => answer, fun _ _ _ => answer⟩⟩

/-- A slow answer after one that failed exceeds the limit. -/
theorem fail_counter_is_streak_of_slow :
    let calls := [checkAnswered (.error "unexpected status code 500, expected 200")]
    let call := checkAnswered (.ok ⟨"offer", 2000⟩)
    let p := (Platform.new impatient).checkAll calls
    let outcome := (p.checkOffers call).1
    let p' := (p.checkOffers call).2
    let streak := badStreak impatient (calls ++ [call])
    p'.consecutiveFailCounter = streak ∧
      ((∃ err, outcome = .error err ∧ err.isLimitExceeded = true) ↔
        impatient.consecutiveFailLimit ≤ streak) ∧
      (∀ offer, outcome = .ok offer ↔ (∃ offerResult, call.fetch impatient = .ok offerResult ∧
        offerResult.offer = offer) ∧ streak < impatient.consecutiveFailLimit) ∧
      (call.bad impatient = false → ∃ offerResult, call.fetch impatient = .ok offerResult ∧
        outcome = .ok offerResult.offer) :=
  fail_counter_is_streak impatient (by decide)
    [checkAnswered (.error "unexpected status code 500, expected 200")]
    (checkAnswered (.ok ⟨"offer", 2000⟩))

end EasyTrade.Aggregator
