import Mathlib.Data.Fintype.BigOperators
import Mathlib.Data.Fintype.Perm
import Mathlib.Data.Nat.Factorial.BigOperators
import Mathlib.Logic.Equiv.Fintype
import Mathlib.Tactic.Common

/-!
# Shuffles by transpositions

A shuffle exchanges each place, from the last one down, with a drawn place that is not
behind it. Every permutation is the product of the exchanges for exactly one sequence of
draws, so the places that land among the first ones are as likely to be these as those.
-/

namespace EasyTrade.Random

open Equiv

/-- A draw for each place. There is one draw only for the first place. -/
abbrev Draws (n : ℕ) := (i : Fin n) → Fin (i + 1)

variable {n : ℕ}

/-- The drawn place. -/
def Draws.place (draws : Draws n) (i : Fin n) : Fin n := Fin.castLE i.isLt (draws i)

/-- The exchanges of the places before `m`, the last of them first. -/
def exchanges (draws : Draws n) : (m : ℕ) → m ≤ n → Perm (Fin n)
  | 0, _ => 1
  | m + 1, within => swap ⟨m, within⟩ (draws.place ⟨m, within⟩) *
      exchanges draws m (Nat.le_of_succ_le within)

/-- The permutation of a shuffle: place `i` gets what was at the image of `i`. -/
def shuffled (draws : Draws n) : Perm (Fin n) := exchanges draws n le_rfl

theorem exchanges_of_le (draws : Draws n) {m : ℕ} (within : m ≤ n) {i : Fin n} (behind : m ≤ i) :
    exchanges draws m within i = i := by
  induction m with
  | zero => rfl
  | succ m ih =>
    have place : draws.place ⟨m, within⟩ ≠ i := by
      have drawn := (draws ⟨m, within⟩).isLt
      intro same
      have value : (draws ⟨m, within⟩ : ℕ) = i := congrArg Fin.val same
      have bound : (draws ⟨m, within⟩ : ℕ) < m + 1 := drawn
      omega
    have here : (⟨m, within⟩ : Fin n) ≠ i := by
      intro same
      have value : m = i := congrArg Fin.val same
      omega
    rw [exchanges, Perm.mul_apply, ih (Nat.le_of_succ_le within) (by omega),
      swap_apply_of_ne_of_ne here.symm place.symm]

/-- The first exchange decides what the last place gets. -/
theorem exchanges_last (draws : Draws n) {m : ℕ} (within : m + 1 ≤ n) :
    exchanges draws (m + 1) within ⟨m, within⟩ = draws.place ⟨m, within⟩ := by
  rw [exchanges, Perm.mul_apply, exchanges_of_le draws _ (le_refl m), swap_apply_left]

theorem draws_eq_of_exchanges {draws draws' : Draws n} {m : ℕ} (within : m ≤ n)
    (same : exchanges draws m within = exchanges draws' m within) (i : Fin n) (before : i.val < m) :
    draws i = draws' i := by
  induction m with
  | zero => exact absurd before (Nat.not_lt_zero _)
  | succ m ih =>
    have last : draws.place ⟨m, within⟩ = draws'.place ⟨m, within⟩ := by
      rw [← exchanges_last draws within, ← exchanges_last draws' within, same]
    have drawn : draws ⟨m, within⟩ = draws' ⟨m, within⟩ := Fin.castLE_injective _ last
    by_cases here : i.val = m
    · have isLast : i = ⟨m, within⟩ := Fin.ext here
      rw [isLast]
      exact drawn
    · rw [exchanges, exchanges, last] at same
      exact ih (Nat.le_of_succ_le within) (mul_left_cancel same) (by omega)

/-- Every permutation is shuffled by exactly one sequence of draws. -/
theorem shuffled_bijective : Function.Bijective (shuffled : Draws n → Perm (Fin n)) := by
  refine (Fintype.bijective_iff_injective_and_card _).mpr ⟨fun draws draws' same => ?_, ?_⟩
  · funext i
    exact draws_eq_of_exchanges le_rfl same i i.isLt
  · rw [Fintype.card_pi, Fintype.card_perm, Fintype.card_fin, ← Finset.prod_range_add_one_eq_factorial]
    simp only [Fintype.card_fin]
    exact Fin.prod_univ_eq_prod_range (fun i => i + 1) n

/-! ## The first places -/

/-- The places whose contents a permutation brings to the first `k` places. -/
def sampled (σ : Perm (Fin n)) (k : ℕ) : Finset (Fin n) :=
  (Finset.univ.filter fun i : Fin n => i.val < k).map σ.toEmbedding

theorem sampled_mul (π σ : Perm (Fin n)) (k : ℕ) :
    sampled (π * σ) k = (sampled σ k).map π.toEmbedding := by
  rw [sampled, sampled, Finset.map_map]
  rfl

/-- One of two sets of one size is an image of the other. -/
theorem exists_map_eq {S S' : Finset (Fin n)} (size : S.card = S'.card) :
    ∃ π : Perm (Fin n), S.map π.toEmbedding = S' := by
  refine ⟨(Finset.equivOfCardEq size).extendSubtype, ?_⟩
  refine Finset.eq_of_subset_of_card_le (fun x inImage => ?_) (by rw [Finset.card_map, size])
  obtain ⟨y, inS, rfl⟩ := Finset.mem_map.mp inImage
  exact (Finset.equivOfCardEq size).extendSubtype_mem y inS

/-- Sets of one size are sampled by equally many sequences of draws. -/
theorem card_sampled_eq {S S' : Finset (Fin n)} (size : S.card = S'.card) (k : ℕ) :
    Fintype.card { draws : Draws n // sampled (shuffled draws) k = S } =
      Fintype.card { draws : Draws n // sampled (shuffled draws) k = S' } := by
  obtain ⟨π, image⟩ := exists_map_eq size
  let shuffle : Draws n ≃ Perm (Fin n) := Equiv.ofBijective shuffled shuffled_bijective
  let turn : Draws n ≃ Draws n := (shuffle.trans (Equiv.mulLeft π)).trans shuffle.symm
  refine Fintype.card_congr (turn.subtypeEquiv fun draws => ?_)
  have turned : shuffled (turn draws) = π * shuffled draws :=
    shuffle.apply_symm_apply (π * shuffled draws)
  rw [turned, sampled_mul, ← image, Finset.map_inj]

end EasyTrade.Random
