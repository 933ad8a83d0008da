import Mathlib.Algebra.Order.BigOperators.Group.List
import Mathlib.Algebra.Order.Group.Defs
import Mathlib.Tactic.Linarith

/-!
# Choice by running sums

A list of weights divides the range from zero to its sum into consecutive parts. The
part of a target is the first one whose running sum reaches it.
-/

namespace EasyTrade.Random

variable {K : Type*} [AddCommGroup K] [LinearOrder K]

/-- The first place at which the running sum, which starts at `sum`, reaches the target;
the length of the list if there is none. -/
def reach (target : K) : K → List K → ℕ
  | _, [] => 0
  | sum, w :: rest => if target ≤ sum + w then 0 else reach target (sum + w) rest + 1

/-- A target that is not beyond the sum is reached. -/
theorem reach_lt {target sum : K} {weights : List K} (some : weights ≠ [])
    (within : target ≤ sum + weights.sum) : reach target sum weights < weights.length := by
  induction weights generalizing sum with
  | nil => exact absurd rfl some
  | cons w rest ih =>
    rw [reach]
    split
    · exact Nat.succ_pos _
    · rename_i unreached
      rw [List.sum_cons, ← add_assoc] at within
      have more : rest ≠ [] := fun none => by
        rw [none, List.sum_nil, add_zero] at within
        exact unreached within
      have later := ih more within
      rw [List.length_cons]
      omega

variable [IsOrderedAddMonoid K]

/-- The running sum before the place falls short of the target, and the next one reaches it. -/
theorem reach_eq_iff {target sum : K} {weights : List K} (nonneg : ∀ w ∈ weights, 0 ≤ w) {i : ℕ}
    (inside : i < weights.length) :
    reach target sum weights = i ↔ (i = 0 ∨ sum + (weights.take i).sum < target) ∧
      target ≤ sum + (weights.take (i + 1)).sum := by
  induction weights generalizing sum i with
  | nil => exact absurd inside (Nat.not_lt_zero _)
  | cons w rest ih =>
    have restNonneg : ∀ v ∈ rest, 0 ≤ v := fun v inRest => nonneg v (List.mem_cons_of_mem _ inRest)
    rw [reach]
    cases i with
    | zero => simp
    | succ i =>
      have inside' : i < rest.length := by simpa using inside
      simp only [List.take_succ_cons, List.sum_cons, ← add_assoc]
      split
      · rename_i reached
        have short : 0 ≤ (rest.take i).sum :=
          List.sum_nonneg fun v inTake => restNonneg v (List.mem_of_mem_take inTake)
        have beyond : target ≤ sum + w + (rest.take i).sum := le_add_of_le_of_nonneg reached short
        constructor
        · intro same
          omega
        · rintro ⟨none | below, -⟩
          · omega
          · exact absurd below (not_lt.mpr beyond)
      · rename_i unreached
        rw [Nat.add_right_cancel_iff, ih restNonneg inside']
        constructor
        · rintro ⟨before, reaches⟩
          refine ⟨Or.inr ?_, reaches⟩
          rcases before with rfl | below
          · rw [List.take_zero, List.sum_nil, add_zero]
            exact not_le.mp unreached
          · exact below
        · rintro ⟨none | below, reaches⟩
          · omega
          · exact ⟨Or.inr below, reaches⟩

end EasyTrade.Random
