import EasyTrade.Random.Weighted
import Mathlib.Algebra.Order.Ring.Rat
import Mathlib.Algebra.BigOperators.Ring.List
import Mathlib.Algebra.Order.Field.Basic
import Mathlib.Tactic.Ring

/-!
# Random sign-up data of the aggregator service

`getRandomValueWithProbability` of `datagenerator.go`, with exact weights and an exact
random number. It stops at the first running sum that reaches the random number times
the sum of the weights.
-/

namespace EasyTrade.Aggregator

open EasyTrade.Random

/-- The packages of the offer service. -/
inductive Package where
  | starter | light | pro
deriving DecidableEq, Repr

/-- `config.PackageProbability`. -/
structure PackageProbability where
  starter : ℚ
  light : ℚ
  pro : ℚ

/-- The second loop of `getRandomValueWithProbability`, from a sum and a result so far. -/
def resultId (random : ℚ) : ℚ → ℕ → List ℚ → ℕ
  | _, resultId, [] => resultId
  | sum, id, p :: rest =>
    let sum := sum + p
    if sum ≥ random then id else resultId random sum (id + 1) rest

/-- The index that `getRandomValueWithProbability` computes from `rand.Float32()`. -/
def randomId (probabilities : List ℚ) (float32 : ℚ) : ℕ :=
  let sum := probabilities.foldl (· + ·) 0
  let random := float32 * sum
  resultId random 0 0 probabilities

/-- `getRandomValueWithProbability`; no value where the index is out of range. -/
def getRandomValueWithProbability {T : Type*} (elements : List T) (probabilities : List ℚ)
    (float32 : ℚ) : Option T :=
  elements[randomId probabilities float32]?

/-- `getRandomPackage`. -/
def getRandomPackage (packageProb : PackageProbability) (float32 : ℚ) : Option Package :=
  getRandomValueWithProbability [.starter, .light, .pro]
    [packageProb.starter, packageProb.light, packageProb.pro] float32

theorem resultId_eq (random sum : ℚ) (id : ℕ) (probabilities : List ℚ) :
    resultId random sum id probabilities = id + reach random sum probabilities := by
  induction probabilities generalizing sum id with
  | nil => rfl
  | cons p rest ih =>
    rw [resultId, reach]
    split
    · rfl
    · rw [ih]
      omega

theorem randomId_eq (probabilities : List ℚ) (float32 : ℚ) :
    randomId probabilities float32 = reach (float32 * probabilities.sum) 0 probabilities := by
  rw [randomId, resultId_eq, ← List.sum_eq_foldl, Nat.zero_add]

/-! ## The choice -/

/-- The share of the weights before a place. -/
def share (probabilities : List ℚ) (i : ℕ) : ℚ := (probabilities.take i).sum / probabilities.sum

variable {probabilities : List ℚ} {r : ℚ}

theorem share_succ {i : ℕ} (inside : i < probabilities.length) :
    share probabilities (i + 1) - share probabilities i = probabilities[i] / probabilities.sum := by
  rw [share, share, List.take_succ_eq_append_getElem inside, List.sum_append, List.sum_singleton]
  ring

/-- The random number chooses the place whose part of the range it is in. The parts are
open on the left, but for the first one. -/
theorem randomId_eq_iff (nonneg : ∀ p ∈ probabilities, 0 ≤ p) (positive : 0 < probabilities.sum)
    {i : ℕ} (inside : i < probabilities.length) :
    randomId probabilities r = i ↔
      (i = 0 ∨ share probabilities i < r) ∧ r ≤ share probabilities (i + 1) := by
  rw [randomId_eq, reach_eq_iff nonneg inside, zero_add, zero_add, share, share,
    div_lt_iff₀ positive, le_div_iff₀ positive]

theorem randomId_lt (positive : 0 < probabilities.sum) (below : r < 1) :
    randomId probabilities r < probabilities.length := by
  rw [randomId_eq]
  refine reach_lt ?_ ?_
  · rintro rfl
    exact lt_irrefl _ positive
  · rw [zero_add]
    exact mul_le_of_le_one_left positive.le below.le

/-- The chosen weight is positive, but for the number zero, which chooses the first place. -/
theorem chosen_pos_iff (nonneg : ∀ p ∈ probabilities, 0 ≤ p) (positive : 0 < probabilities.sum)
    {i : ℕ} (inside : i < probabilities.length) (chosen : randomId probabilities r = i) :
    0 < probabilities[i] ↔ 0 < r ∨ 0 < probabilities[0] := by
  obtain ⟨before, reaches⟩ := (randomId_eq_iff nonneg positive inside).mp chosen
  have size := share_succ inside
  have weight : 0 < probabilities[i] ↔ share probabilities i < share probabilities (i + 1) := by
    rw [← div_pos_iff_of_pos_right positive, ← size, sub_pos]
  rcases before with rfl | below
  · have zero : share probabilities 0 = 0 := by simp [share]
    constructor
    · exact Or.inr
    · rintro (some | first)
      · rw [weight, zero]
        linarith only [some, reaches]
      · exact first
  · have more : 0 ≤ share probabilities i := by
      have sum : 0 ≤ (probabilities.take i).sum :=
        List.sum_nonneg fun p inTake => nonneg p (List.mem_of_mem_take inTake)
      exact div_nonneg sum positive.le
    have some : 0 < r := lt_of_le_of_lt more below
    exact iff_of_true (weight.mpr (by linarith only [below, reaches])) (Or.inl some)

/-- The choice is one of the elements, and each element is chosen by the numbers of an
interval as long as its share of the weights. The chosen weight is positive just where
the number is, or the first weight. -/
theorem choice_is_weighted {T : Type*} (elements : List T) (probabilities : List ℚ)
    (sameLength : probabilities.length = elements.length) (nonneg : ∀ p ∈ probabilities, 0 ≤ p)
    (positive : 0 < probabilities.sum) :
    (∀ r, 0 ≤ r → r < 1 → ∃ i, ∃ inside : i < elements.length,
      randomId probabilities r = i ∧
        getRandomValueWithProbability elements probabilities r = some elements[i] ∧
        (0 < probabilities[i] ↔ 0 < r ∨ 0 < probabilities[0])) ∧
    ∀ i, ∀ inside : i < elements.length,
      share probabilities (i + 1) - share probabilities i = probabilities[i] / probabilities.sum ∧
        0 ≤ share probabilities i ∧ share probabilities (i + 1) ≤ 1 ∧
        ∀ r, 0 ≤ r → r < 1 → (randomId probabilities r = i ↔
          (i = 0 ∨ share probabilities i < r) ∧ r ≤ share probabilities (i + 1)) := by
  have takes : ∀ i, 0 ≤ (probabilities.take i).sum := fun i =>
    List.sum_nonneg fun p inTake => nonneg p (List.mem_of_mem_take inTake)
  constructor
  · intro r _ below
    have inside := randomId_lt positive below
    have inElements : randomId probabilities r < elements.length := sameLength ▸ inside
    exact ⟨randomId probabilities r, inElements, rfl, List.getElem?_eq_getElem inElements,
      chosen_pos_iff nonneg positive inside rfl⟩
  · intro i inElements
    have inside : i < probabilities.length := by omega
    refine ⟨share_succ inside, div_nonneg (takes i) positive.le, ?_,
      fun r _ _ => randomId_eq_iff nonneg positive inside⟩
    rw [share, div_le_one positive]
    have rest : 0 ≤ (probabilities.drop (i + 1)).sum :=
      List.sum_nonneg fun p inDrop => nonneg p (List.mem_of_mem_drop inDrop)
    have whole := List.sum_take_add_sum_drop probabilities (i + 1)
    linarith only [rest, whole]

/-- Half of the sign-ups buy each of the dear packages, and none the cheap one. -/
def dearPackages : PackageProbability := ⟨0, 1 / 2, 1 / 2⟩

/-- The choice among three packages, the first of which is never to be chosen. -/
theorem choice_is_weighted_of_dear :
    (∀ r, 0 ≤ r → r < 1 → ∃ i, ∃ inside : i < [Package.starter, .light, .pro].length,
      randomId [0, 1 / 2, 1 / 2] r = i ∧
        getRandomValueWithProbability [Package.starter, .light, .pro] [0, 1 / 2, 1 / 2] r =
          some [Package.starter, .light, .pro][i] ∧
        (0 < [(0 : ℚ), 1 / 2, 1 / 2][i] ↔ 0 < r ∨ 0 < [(0 : ℚ), 1 / 2, 1 / 2][0])) ∧
    ∀ i, ∀ inside : i < [Package.starter, .light, .pro].length,
      share [0, 1 / 2, 1 / 2] (i + 1) - share [0, 1 / 2, 1 / 2] i =
          [(0 : ℚ), 1 / 2, 1 / 2][i] / [(0 : ℚ), 1 / 2, 1 / 2].sum ∧
        0 ≤ share [0, 1 / 2, 1 / 2] i ∧ share [0, 1 / 2, 1 / 2] (i + 1) ≤ 1 ∧
        ∀ r, 0 ≤ r → r < 1 → (randomId [0, 1 / 2, 1 / 2] r = i ↔
          (i = 0 ∨ share [0, 1 / 2, 1 / 2] i < r) ∧ r ≤ share [0, 1 / 2, 1 / 2] (i + 1)) :=
  choice_is_weighted [Package.starter, .light, .pro] [0, 1 / 2, 1 / 2] rfl (by decide +kernel)
    (by decide +kernel)

/-- The number zero chooses the first package, whose weight is zero. -/
theorem weightless_package_chosen :
    getRandomPackage dearPackages 0 = some .starter ∧ dearPackages.starter = 0 ∧
      0 < dearPackages.starter + dearPackages.light + dearPackages.pro := by
  decide +kernel

end EasyTrade.Aggregator
