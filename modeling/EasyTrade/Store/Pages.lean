import Mathlib.Data.List.Nodup
import Mathlib.Tactic.Common

/-!
# The pages of a list

A page has a size and a number. Consecutive pages make up the list, and two parts of
a list without repetition that begin at different places are different unless both
are empty.
-/

namespace EasyTrade.Store

variable {α : Type*} {size : ℕ} {rows : List α}

/-- The rows of one page, the first page being number zero. -/
def page (size number : ℕ) (rows : List α) : List α := (rows.drop (size * number)).take size

/-- The first pages are the first rows. -/
theorem flatMap_page (size : ℕ) (rows : List α) (n : ℕ) :
    (List.range n).flatMap (fun number => page size number rows) = rows.take (size * n) := by
  induction n with
  | zero => simp
  | succ n ih =>
    rw [List.range_succ, List.flatMap_append, ih, Nat.mul_succ, List.take_add]
    simp [page]

/-- A page past the end is empty. -/
theorem page_eq_nil {number : ℕ} (past : rows.length ≤ size * number) : page size number rows = [] := by
  rw [page, List.drop_eq_nil_of_le past, List.take_nil]

/-- The part of a list from a place on tells the place, unless it is past the end. -/
theorem take_drop_eq_iff (distinct : rows.Nodup) (some : 0 < size) {m n : ℕ} (before : m < n) :
    (rows.drop m).take size = (rows.drop n).take size ↔ rows.length ≤ m := by
  constructor
  · intro same
    by_contra inside
    have first : ((rows.drop m).take size)[0]? = rows[m]? := by
      rw [List.getElem?_take_of_lt some, List.getElem?_drop, Nat.add_zero]
    have second : ((rows.drop n).take size)[0]? = rows[n]? := by
      rw [List.getElem?_take_of_lt some, List.getElem?_drop, Nat.add_zero]
    have repeated : rows[m]? = rows[n]? := by rw [← first, same, second]
    have here : m < rows.length := by omega
    have next : n < rows.length := by
      by_contra past
      rw [List.getElem?_eq_none (Nat.le_of_not_lt past), List.getElem?_eq_none_iff] at repeated
      omega
    exact List.nodup_iff_getElem?_ne_getElem?.mp distinct m n before next repeated
  · intro past
    rw [List.drop_eq_nil_of_le past, List.drop_eq_nil_of_le (show rows.length ≤ n by omega)]

/-- Where each answer of a sequence is there, so is the list of them. -/
theorem mapM_range {f : ℕ → Option α} {g : ℕ → α} (n : ℕ) (answers : ∀ i < n, f i = some (g i)) :
    (List.range n).mapM f = some ((List.range n).map g) := by
  induction n with
  | zero => rfl
  | succ n ih =>
    rw [List.range_succ, List.mapM_append, ih fun i below => answers i (by omega)]
    simp [answers n (by omega)]

/-- What a row offset below zero does. -/
inductive NegativeOffset where
  /-- No row is skipped. -/
  | ignored
  /-- The query is not answered. -/
  | rejected
deriving DecidableEq

/-- The rows after an offset. -/
def offset (negative : NegativeOffset) (skipped : Int) (rows : List α) : Option (List α) :=
  if skipped < 0 ∧ negative = .rejected then none else some (rows.drop skipped.toNat)

end EasyTrade.Store
