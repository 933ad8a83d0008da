import Mathlib.Algebra.Group.Basic
import Mathlib.Tactic.Common

/-!
# Positions

What accounts own: a balance, where the account has one, and a holding of each
instrument, where there is one. `pay` adds to a balance and `move` adds to a holding,
which it creates where there is none. Additions may be made in any order.
-/

namespace EasyTrade.Ledger

/-- The balances and the holdings of accounts. -/
@[ext] structure Position (A I M : Type*) where
  /-- The balance of an account. -/
  balance : A → Option M
  /-- What an account holds of an instrument. -/
  holding : A → I → Option M

namespace Position

variable {A I M : Type*} [DecidableEq A]

/-- Add an amount to the balance of an account. -/
def pay [Add M] (p : Position A I M) (a : A) (amount : M) : Position A I M :=
  { p with balance := fun b => if b = a then (p.balance b).map (· + amount) else p.balance b }

/-- Add shares to a holding of an account. -/
def move [DecidableEq I] [Add M] [Zero M] (p : Position A I M) (a : A) (i : I) (shares : M) : Position A I M :=
  { p with holding := fun b j =>
      if b = a ∧ j = i then some ((p.holding b j).getD 0 + shares) else p.holding b j }

section Add

variable [Add M]

@[simp] theorem holding_pay (p : Position A I M) (a : A) (amount : M) :
    (p.pay a amount).holding = p.holding := rfl

@[simp] theorem balance_pay_self (p : Position A I M) (a : A) (amount : M) :
    (p.pay a amount).balance a = (p.balance a).map (· + amount) := if_pos rfl

@[simp] theorem balance_pay_of_ne (p : Position A I M) {a b : A} (apart : b ≠ a) (amount : M) :
    (p.pay a amount).balance b = p.balance b := if_neg apart

/-- A payment opens no account and closes none. -/
@[simp] theorem isSome_balance_pay (p : Position A I M) (a b : A) (amount : M) :
    ((p.pay a amount).balance b).isSome = (p.balance b).isSome := by
  by_cases same : b = a
  · rw [same, balance_pay_self, Option.isSome_map]
  · rw [balance_pay_of_ne p same]

variable [DecidableEq I] [Zero M]

@[simp] theorem balance_move (p : Position A I M) (a : A) (i : I) (shares : M) :
    (p.move a i shares).balance = p.balance := rfl

@[simp] theorem holding_move_self (p : Position A I M) (a : A) (i : I) (shares : M) :
    (p.move a i shares).holding a i = some ((p.holding a i).getD 0 + shares) := if_pos ⟨rfl, rfl⟩

@[simp] theorem holding_move_of_ne (p : Position A I M) {a b : A} (apart : b ≠ a) (i : I)
    (shares : M) : (p.move a i shares).holding b = p.holding b := by
  funext j
  exact if_neg fun same => apart same.1

theorem move_pay (p : Position A I M) (a b : A) (i : I) (shares amount : M) :
    (p.move a i shares).pay b amount = (p.pay b amount).move a i shares := rfl

end Add

variable [AddCommMonoid M]

/-- Payments may be made in any order. -/
theorem pay_comm (p : Position A I M) (a b : A) (amount other : M) :
    (p.pay a amount).pay b other = (p.pay b other).pay a amount := by
  refine Position.ext (funext fun c => ?_) rfl
  simp only [pay]
  split_ifs
  · simp [Option.map_map, Function.comp_def, add_right_comm]
  · rfl
  · rfl
  · rfl

/-- Shares may be moved in any order. -/
theorem move_comm [DecidableEq I] (p : Position A I M) (a b : A) (i j : I) (shares other : M) :
    (p.move a i shares).move b j other = (p.move b j other).move a i shares := by
  refine Position.ext rfl (funext fun c => funext fun k => ?_)
  simp only [move]
  split_ifs
  · simp [add_right_comm]
  · rfl
  · rfl
  · rfl

end Position

end EasyTrade.Ledger
