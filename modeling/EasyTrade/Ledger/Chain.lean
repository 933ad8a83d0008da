import Mathlib.Algebra.BigOperators.Group.List.Basic
import Mathlib.Algebra.Order.Group.Abs
import Mathlib.Algebra.Order.Ring.Cast
import Mathlib.Algebra.Order.Ring.Rat
import Mathlib.Tactic.Abel
import Mathlib.Tactic.Linarith

/-!
# Ledger chains

A ledger row holds the value before a change and the change. Rows form a chain
when the first one starts at the initial value, each next one starts where the
previous one ended and the last one ends at the final value. A chain determines
the final value as the initial one plus all changes.

`NearChain` allows a slack at each junction, for ledgers whose columns are
rounded one by one.
-/

namespace EasyTrade.Ledger

/-- One ledger row: the value before the change, and the change. -/
structure Row (M : Type) where
  /-- The value before the change. -/
  old : M
  /-- The change. -/
  change : M
deriving DecidableEq

section Exact

variable {M : Type}

/-- The rows lead from the initial to the final value without a gap. -/
def Chain [Add M] : M → List (Row M) → M → Prop
  | start, [], final => start = final
  | start, row :: rest, final => row.old = start ∧ Chain (row.old + row.change) rest final

instance decidableChain [Add M] [DecidableEq M] :
    ∀ (start : M) (rows : List (Row M)) (final : M), Decidable (Chain start rows final)
  | start, [], final => inferInstanceAs (Decidable (start = final))
  | start, row :: rest, final =>
    have := decidableChain (row.old + row.change) rest final
    inferInstanceAs (Decidable (row.old = start ∧ Chain (row.old + row.change) rest final))

/-- Chains are joined where the first one ends. -/
theorem chain_append [Add M] {rows more : List (Row M)} {start final : M} :
    Chain start (rows ++ more) final ↔ ∃ mid, Chain start rows mid ∧ Chain mid more final := by
  induction rows generalizing start with
  | nil => simp [Chain]
  | cons row rest ih => simp [Chain, ih, and_assoc]

/-- A chain ends at the initial value plus all changes. -/
theorem Chain.final_eq [AddMonoid M] {rows : List (Row M)} {start final : M}
    (h : Chain start rows final) : final = start + (rows.map Row.change).sum := by
  induction rows generalizing start with
  | nil => simpa [Chain] using h.symm
  | cons row rest ih =>
    obtain ⟨first, tail⟩ := h
    rw [ih tail, first, List.map_cons, List.sum_cons, add_assoc]

end Exact

section Near

variable {M : Type} [AddCommGroup M] [LinearOrder M] [IsOrderedAddMonoid M]

/-- The rows lead from the initial to the final value with a gap of at most
`slack` after each row. -/
def NearChain (slack : M) : M → List (Row M) → M → Prop
  | start, [], final => start = final
  | start, row :: rest, final => row.old = start ∧
      ∃ next, |row.old + row.change - next| ≤ slack ∧ NearChain slack next rest final

omit [IsOrderedAddMonoid M] in
theorem nearChain_append {slack : M} {rows more : List (Row M)} {start final : M} :
    NearChain slack start (rows ++ more) final ↔
      ∃ mid, NearChain slack start rows mid ∧ NearChain slack mid more final := by
  induction rows generalizing start with
  | nil => simp [NearChain]
  | cons row rest ih =>
    simp only [List.cons_append, NearChain, ih]
    constructor
    · rintro ⟨first, next, gap, mid, left, right⟩
      exact ⟨mid, ⟨first, next, gap, left⟩, right⟩
    · rintro ⟨mid, ⟨first, next, gap, left⟩, right⟩
      exact ⟨first, next, gap, mid, left, right⟩

/-- Without slack the rows form a chain. -/
theorem nearChain_zero {rows : List (Row M)} {start final : M} :
    NearChain 0 start rows final ↔ Chain start rows final := by
  induction rows generalizing start with
  | nil => rfl
  | cons row rest ih =>
    simp only [NearChain, Chain, ih, abs_nonpos_iff, sub_eq_zero]
    constructor
    · rintro ⟨first, next, rfl, tail⟩
      exact ⟨first, tail⟩
    · rintro ⟨first, tail⟩
      exact ⟨first, _, rfl, tail⟩

/-- A chain with slack ends at the initial value plus all changes, up to one
slack for each row. -/
theorem NearChain.final_near {slack : M} {rows : List (Row M)} {start final : M}
    (h : NearChain slack start rows final) :
    |start + (rows.map Row.change).sum - final| ≤ rows.length • slack := by
  induction rows generalizing start with
  | nil => simp [show start = final from h]
  | cons row rest ih =>
    obtain ⟨first, next, gap, tail⟩ := h
    have split : start + ((row :: rest).map Row.change).sum - final =
        (row.old + row.change - next) + (next + (rest.map Row.change).sum - final) := by
      rw [List.map_cons, List.sum_cons, first]
      abel
    calc |start + ((row :: rest).map Row.change).sum - final|
        ≤ |row.old + row.change - next| + |next + (rest.map Row.change).sum - final| := by
          rw [split]
          exact abs_add_le _ _
      _ ≤ slack + rest.length • slack := add_le_add gap (ih tail)
      _ = (row :: rest).length • slack := by rw [List.length_cons, succ_nsmul, add_comm]

end Near

end EasyTrade.Ledger
