import Mathlib.Data.List.Sort

/-!
# The first rows of a table in order

`SELECT TOP(n) … ORDER BY` takes the first rows in an order. Which of two tied rows
comes first is part of the order here: a relation that is total and transitive.
-/

namespace EasyTrade.Store

variable {α : Type*} (r : α → α → Prop) [DecidableRel r] {n : Nat} {rows : List α} {a b : α}

/-- The first rows in order. -/
def top (n : Nat) (rows : List α) : List α := (rows.insertionSort r).take n

theorem mem_of_mem_top (h : a ∈ top r n rows) : a ∈ rows :=
  (List.mem_insertionSort r).1 (List.mem_of_mem_take h)

theorem length_top : (top r n rows).length = min n rows.length := by
  rw [top, List.length_take, List.length_insertionSort]

theorem nodup_top (h : rows.Nodup) : (top r n rows).Nodup :=
  ((List.perm_insertionSort r rows).nodup_iff.2 h).sublist (List.take_sublist n _)

/-- Enough room for all rows takes all rows. -/
theorem mem_top_of_length_le (room : rows.length ≤ n) (mem : a ∈ rows) : a ∈ top r n rows := by
  rw [top, List.take_of_length_le (by rwa [List.length_insertionSort])]
  exact (List.mem_insertionSort r).2 mem

/-- A row that is taken comes before one that is not. -/
theorem rel_of_mem_top [Std.Total r] [IsTrans α r] (taken : a ∈ top r n rows) (mem : b ∈ rows)
    (left : b ∉ top r n rows) : r a b := by
  have sorted := List.pairwise_insertionSort r rows
  rw [← List.take_append_drop n (rows.insertionSort r)] at sorted
  have later : b ∈ (rows.insertionSort r).drop n := by
    have mem := (List.mem_insertionSort r).2 mem
    rw [← List.take_append_drop n (rows.insertionSort r)] at mem
    exact (List.mem_append.1 mem).resolve_left left
  exact (List.pairwise_append.1 sorted).2.2 a taken b later

/-- Some row is taken and some row is left, if there is room for some but not for all. -/
theorem exists_taken_and_left (some : 0 < n) (notAll : n < rows.length) (distinct : rows.Nodup) :
    (∃ a, a ∈ top r n rows) ∧ ∃ b ∈ rows, b ∉ top r n rows := by
  have size : (top r n rows).length = min n rows.length := length_top r
  constructor
  · exact List.exists_mem_of_length_pos (by omega)
  · by_contra none
    have all : rows ⊆ top r n rows := fun b mem => by
      by_contra left
      exact none ⟨b, mem, left⟩
    have := (List.subperm_of_subset distinct all).length_le
    omega

/-- A row that comes before no other is not taken while there is no room for all. -/
theorem not_mem_top [Std.Total r] [IsTrans α r] (last : ∀ b ∈ rows, b ≠ a → ¬r a b)
    (notAll : n < rows.length) (distinct : rows.Nodup) : a ∉ top r n rows := by
  intro taken
  have some : 0 < n := by
    have size : (top r n rows).length = min n rows.length := length_top r
    have := List.length_pos_of_mem taken
    omega
  obtain ⟨b, mem, left⟩ := (exists_taken_and_left r some notAll distinct).2
  have other : b ≠ a := fun same => left (same ▸ taken)
  exact last b mem other (rel_of_mem_top r taken mem left)

/-- A row that comes strictly before every other is taken while there is room for one. -/
theorem mem_top_of_first [Std.Total r] [IsTrans α r] (first : ∀ b ∈ rows, b ≠ a → ¬r b a)
    (mem : a ∈ rows) (room : 0 < n) : a ∈ top r n rows := by
  by_contra left
  have size : (top r n rows).length = min n rows.length := length_top r
  have := List.length_pos_of_mem mem
  obtain ⟨b, taken⟩ := List.exists_mem_of_length_pos (l := top r n rows) (by omega)
  have other : b ≠ a := fun same => left (same ▸ taken)
  exact first b (mem_of_mem_top r taken) other (rel_of_mem_top r taken mem left)

section Rest

variable [DecidableEq α]

/-- The other rows, in the order of the table. -/
def rest (n : Nat) (rows : List α) : List α := rows.filter (· ∉ top r n rows)

theorem mem_rest : a ∈ rest r n rows ↔ a ∈ rows ∧ a ∉ top r n rows := by
  simp [rest, List.mem_filter]

/-- Each row of a table without repetition is among the first ones or among the others. -/
theorem perm_top_rest (distinct : rows.Nodup) : (top r n rows ++ rest r n rows).Perm rows := by
  have apart : (top r n rows ++ rest r n rows).Nodup := by
    refine List.Nodup.append (nodup_top r distinct) (distinct.filter _) ?_
    intro a taken left
    exact ((mem_rest r).mp left).2 taken
  rw [List.perm_ext_iff_of_nodup apart distinct]
  intro a
  rw [List.mem_append, mem_rest]
  constructor
  · rintro (taken | ⟨mem, -⟩)
    · exact mem_of_mem_top r taken
    · exact mem
  · intro mem
    by_cases taken : a ∈ top r n rows
    · exact Or.inl taken
    · exact Or.inr ⟨mem, taken⟩

theorem length_rest (distinct : rows.Nodup) : (rest r n rows).length = rows.length - n := by
  have size : (top r n rows).length = min n rows.length := length_top r
  have total := (perm_top_rest r (n := n) distinct).length_eq
  rw [List.length_append] at total
  omega

end Rest

/-! ## Selecting from sorted rows -/

/-- A row before all others stays the first. -/
theorem orderedInsert_of_first {a : α} (first : ∀ b ∈ rows, r a b) :
    rows.orderedInsert r a = a :: rows := by
  cases rows with
  | nil => rfl
  | cons b rest => exact List.orderedInsert_cons_of_le r rest (first b List.mem_cons_self)

/-- Sorted rows stay sorted without those that a filter drops. -/
theorem filter_orderedInsert [IsTrans α r] (p : α → Bool) (a : α) (sorted : rows.Pairwise r) :
    (rows.orderedInsert r a).filter p =
      if p a then (rows.filter p).orderedInsert r a else rows.filter p := by
  induction rows with
  | nil => by_cases kept : p a = true <;> simp [kept]
  | cons b rest ih =>
    obtain ⟨first, tail⟩ := List.pairwise_cons.mp sorted
    by_cases before : r a b
    · rw [List.orderedInsert_cons_of_le r rest before]
      by_cases kept : p a = true
      · have all : ∀ c ∈ (b :: rest).filter p, r a c := fun c inRows => by
          rcases List.mem_cons.mp (List.mem_filter.mp inRows).1 with rfl | later
          · exact before
          · exact IsTrans.trans _ _ _ before (first c later)
        rw [if_pos kept, List.filter_cons_of_pos kept, orderedInsert_of_first r all]
      · rw [if_neg kept, List.filter_cons_of_neg kept]
    · rw [List.orderedInsert_of_not_le r rest before]
      by_cases here : p b = true
      · rw [List.filter_cons_of_pos here, List.filter_cons_of_pos here, ih tail]
        by_cases kept : p a = true
        · rw [if_pos kept, if_pos kept, List.orderedInsert_of_not_le r _ before]
        · rw [if_neg kept, if_neg kept]
      · rw [List.filter_cons_of_neg here, List.filter_cons_of_neg here, ih tail]

/-- Rows may be selected before they are sorted or after it. -/
theorem filter_insertionSort [Std.Total r] [IsTrans α r] (p : α → Bool) (rows : List α) :
    (rows.insertionSort r).filter p = (rows.filter p).insertionSort r := by
  induction rows with
  | nil => rfl
  | cons a rest ih =>
    rw [List.insertionSort_cons, filter_orderedInsert r p a (List.pairwise_insertionSort r rest), ih]
    by_cases kept : p a = true
    · rw [if_pos kept, List.filter_cons_of_pos kept, List.insertionSort_cons]
    · rw [if_neg kept, List.filter_cons_of_neg kept]

end EasyTrade.Store
