import Mathlib.Algebra.BigOperators.Group.List.Basic
import Mathlib.Data.List.Nodup
import Mathlib.Tactic.Abel

/-!
# Rows with a key

A table is the list of its rows in insertion order. `lookup` is the first row
with a key, `resolve` the copy a list of copies holds of a row, and `overwrite`
exchanges every row for its copy, which is what updates by primary key do.
-/

namespace EasyTrade.Store

variable {ρ κ α M : Type} [DecidableEq κ] (key : ρ → κ)

/-- The first row with a key. -/
def lookup (k : κ) (rows : List ρ) : Option ρ := rows.find? fun row => decide (key row = k)

/-- The copy of a row, or the row itself where there is none. -/
def resolve (copies : List ρ) (row : ρ) : ρ := (lookup key (key row) copies).getD row

/-- The table in which every row is exchanged for its copy. -/
def overwrite (copies rows : List ρ) : List ρ := rows.map (resolve key copies)

/-- Put a copy in place of the one with its key. -/
def put (copies : List ρ) (row : ρ) : List ρ :=
  copies.filter (fun x => decide (key x ≠ key row)) ++ [row]

variable {key}

/-! ## Lookup -/

theorem key_of_lookup {k : κ} {rows : List ρ} {row : ρ} (h : lookup key k rows = some row) :
    key row = k := by
  simpa using List.find?_some h

theorem mem_of_lookup {k : κ} {rows : List ρ} {row : ρ} (h : lookup key k rows = some row) :
    row ∈ rows := List.mem_of_find?_eq_some h

theorem lookup_eq_none {k : κ} {rows : List ρ} :
    lookup key k rows = none ↔ ∀ row ∈ rows, key row ≠ k := by
  simp [lookup, List.find?_eq_none]

theorem lookup_append (k : κ) (rows more : List ρ) :
    lookup key k (rows ++ more) = (lookup key k rows).or (lookup key k more) :=
  List.find?_append

/-- Where keys are unique, a row of the table is the one its key finds. -/
theorem lookup_of_mem {rows : List ρ} (unique : (rows.map key).Nodup) {row : ρ}
    (h : row ∈ rows) : lookup key (key row) rows = some row := by
  induction rows with
  | nil => cases h
  | cons first rest ih =>
    simp only [List.map_cons, List.nodup_cons] at unique
    rcases List.mem_cons.1 h with rfl | inRest
    · simp [lookup]
    · have apart : key first ≠ key row := fun same =>
        unique.1 (same ▸ List.mem_map_of_mem inRest)
      simpa [lookup, List.find?_cons, apart] using ih unique.2 inRest

/-- Where keys are unique, two rows with one key are one row. -/
theorem eq_of_key_eq {rows : List ρ} (unique : (rows.map key).Nodup) {a b : ρ}
    (ha : a ∈ rows) (hb : b ∈ rows) (same : key a = key b) : a = b := by
  have found := lookup_of_mem unique ha
  rw [same, lookup_of_mem unique hb] at found
  exact (Option.some.inj found).symm

theorem lookup_map {f : ρ → ρ} (keeps : ∀ r, key (f r) = key r) (k : κ) (rows : List ρ) :
    lookup key k (rows.map f) = (lookup key k rows).map f := by
  simp only [lookup, List.find?_map, Function.comp_def, keeps]

/-! ## Copies -/

@[simp] theorem resolve_nil (row : ρ) : resolve key [] row = row := rfl

theorem resolve_of_lookup {copies : List ρ} {row copy : ρ}
    (h : lookup key (key row) copies = some copy) : resolve key copies row = copy := by
  rw [resolve, h, Option.getD_some]

theorem resolve_of_none {copies : List ρ} {row : ρ} (h : lookup key (key row) copies = none) :
    resolve key copies row = row := by
  rw [resolve, h, Option.getD_none]

theorem key_resolve (copies : List ρ) (row : ρ) :
    key (resolve key copies row) = key row := by
  cases h : lookup key (key row) copies with
  | none => rw [resolve_of_none h]
  | some copy => rw [resolve_of_lookup h, key_of_lookup h]

/-- A row and its copy agree where every copy agrees with the rows of its key. -/
theorem column_resolve (column : ρ → α) {copies : List ρ} {row : ρ}
    (same : ∀ copy ∈ copies, key copy = key row → column copy = column row) :
    column (resolve key copies row) = column row := by
  cases h : lookup key (key row) copies with
  | none => rw [resolve_of_none h]
  | some copy => rw [resolve_of_lookup h, same copy (mem_of_lookup h) (key_of_lookup h)]

theorem resolve_append_of_none {copies more : List ρ} {row : ρ}
    (h : lookup key (key row) copies = none) :
    resolve key (copies ++ more) row = resolve key more row := by
  rw [resolve, lookup_append, h, Option.none_or, resolve]

theorem resolve_append_of_some {copies more : List ρ} {row copy : ρ}
    (h : lookup key (key row) copies = some copy) : resolve key (copies ++ more) row = copy := by
  rw [resolve, lookup_append, h, Option.some_or, Option.getD_some]

theorem lookup_filter (p : ρ → Bool) {k : κ} {copies : List ρ}
    (keeps : ∀ x, key x = k → p x = true) :
    lookup key k (copies.filter p) = lookup key k copies := by
  simp only [lookup, List.find?_filter]
  congr 1
  funext x
  by_cases hit : key x = k
  · simp [hit, keeps x hit]
  · simp [hit]

theorem lookup_filter_eq_none (p : ρ → Bool) {k : κ} {copies : List ρ}
    (drops : ∀ x, key x = k → p x = false) : lookup key k (copies.filter p) = none :=
  lookup_eq_none.2 fun x inList same => by
    have kept := (List.mem_filter.1 inList).2
    rw [drops x same] at kept
    cases kept

/-- After putting a copy, it is the copy of the rows with its key; others keep theirs. -/
theorem resolve_put (copies : List ρ) (copy row : ρ) :
    resolve key (put key copies copy) row =
      if key row = key copy then copy else resolve key copies row := by
  by_cases hit : key row = key copy
  · rw [if_pos hit, put, resolve_append_of_none (lookup_filter_eq_none _ fun x same => by
      simp [same, hit])]
    exact resolve_of_lookup (by simp [lookup, hit])
  · rw [if_neg hit, put, resolve, lookup_append, lookup_filter _ fun x same => by
      simp [same, hit]]
    have absent : lookup key (key row) [copy] = none :=
      lookup_eq_none.2 fun x inList => by rw [List.mem_singleton.1 inList]; exact Ne.symm hit
    rw [absent, Option.or_none, resolve]

theorem mem_put {copies : List ρ} {row x : ρ} :
    x ∈ put key copies row ↔ (x ∈ copies ∧ key x ≠ key row) ∨ x = row := by
  simp [put]

@[simp] theorem put_nil (row : ρ) : put key [] row = [row] := rfl

/-! ## Overwriting -/

@[simp] theorem overwrite_nil (rows : List ρ) : overwrite key [] rows = rows :=
  List.map_id rows

@[simp] theorem map_key_overwrite (copies rows : List ρ) :
    (overwrite key copies rows).map key = rows.map key := by
  simp only [overwrite, List.map_map]
  exact List.map_congr_left fun row _ => key_resolve copies row

/-- A column on which every copy agrees with the rows of its key is left as it was. -/
theorem map_overwrite_of_eq (column : ρ → α) {copies rows : List ρ}
    (same : ∀ copy ∈ copies, ∀ row ∈ rows, key copy = key row → column copy = column row) :
    (overwrite key copies rows).map column = rows.map column := by
  simp only [overwrite, List.map_map]
  exact List.map_congr_left fun row inRows =>
    column_resolve column fun copy inCopies => same copy inCopies row inRows

/-- Overwriting commutes with a change of rows that keeps their keys. -/
theorem overwrite_map {f : ρ → ρ} (keeps : ∀ r, key (f r) = key r) (copies rows : List ρ) :
    overwrite key (copies.map f) (rows.map f) = (overwrite key copies rows).map f := by
  simp only [overwrite, List.map_map]
  refine List.map_congr_left fun row _ => ?_
  simp only [Function.comp, resolve, keeps, lookup_map keeps]
  cases lookup key (key row) copies <;> rfl

theorem mem_overwrite {x : ρ} {copies rows : List ρ} (h : x ∈ overwrite key copies rows) :
    x ∈ copies ∨ (x ∈ rows ∧ ∀ copy ∈ copies, key copy ≠ key x) := by
  obtain ⟨row, inRows, rfl⟩ := List.mem_map.1 h
  cases found : lookup key (key row) copies with
  | none =>
    rw [resolve_of_none found]
    exact .inr ⟨inRows, lookup_eq_none.1 found⟩
  | some copy =>
    rw [resolve_of_lookup found]
    exact .inl (mem_of_lookup found)

theorem mem_overwrite_of_ne {x : ρ} {copies rows : List ρ} (h : x ∈ rows)
    (apart : ∀ copy ∈ copies, key copy ≠ key x) : x ∈ overwrite key copies rows :=
  List.mem_map.2 ⟨x, h, resolve_of_none (lookup_eq_none.2 apart)⟩

/-- A query that sees no difference between a row and its copy finds the copy. -/
theorem find?_overwrite (p : ρ → Bool) {copies rows : List ρ}
    (same : ∀ row ∈ rows, p (resolve key copies row) = p row) :
    (overwrite key copies rows).find? p = (rows.find? p).map (resolve key copies) := by
  induction rows with
  | nil => rfl
  | cons row rest ih =>
    have here := same row List.mem_cons_self
    have others := ih fun x inRest => same x (List.mem_cons_of_mem _ inRest)
    simp only [overwrite, List.map_cons, List.find?_cons, here] at others ⊢
    cases p row with
    | true => rfl
    | false => exact others

/-- Overwriting with one row changes the sum of a unique row's values by the difference. -/
theorem sum_overwrite [AddCommGroup M] (f : ρ → M) (new : ρ) {old : ρ} {rows : List ρ}
    (unique : (rows.map key).Nodup) (h : old ∈ rows) (same : key old = key new) :
    ((overwrite key [new] rows).map f).sum = (rows.map f).sum + (f new - f old) := by
  induction rows with
  | nil => cases h
  | cons first rest ih =>
    simp only [List.map_cons, List.nodup_cons] at unique
    have apart {x : ρ} (ne : key x ≠ key new) : resolve key [new] x = x :=
      resolve_of_none (lookup_eq_none.2 fun y inList => by
        rw [List.mem_singleton.1 inList]; exact ne.symm)
    have here {x : ρ} (eq : key x = key new) : resolve key [new] x = new :=
      resolve_of_lookup (by simp [lookup, eq])
    rcases List.mem_cons.1 h with rfl | inRest
    · have others : overwrite key [new] rest = rest := by
        simp only [overwrite]
        conv_rhs => rw [← List.map_id rest]
        exact List.map_congr_left fun x inRest => apart fun eq =>
          unique.1 (by rw [same, ← eq]; exact List.mem_map_of_mem inRest)
      rw [overwrite, List.map_cons, here same, ← overwrite, others, List.map_cons, List.map_cons,
        List.sum_cons, List.sum_cons]
      abel
    · have ne : key first ≠ key new := fun eq =>
        unique.1 (by rw [eq, ← same]; exact List.mem_map_of_mem inRest)
      rw [overwrite, List.map_cons, apart ne, ← overwrite, List.map_cons, List.map_cons,
        List.sum_cons, List.sum_cons, ih unique.2 inRest]
      abel

/-- Overwriting row by row. -/
theorem overwrite_put (copies rows : List ρ) (copy : ρ) :
    overwrite key (put key copies copy) rows = overwrite key [copy] (overwrite key copies rows) := by
  simp only [overwrite, List.map_map]
  refine List.map_congr_left fun row _ => ?_
  have keeps : key (resolve key copies row) = key row := key_resolve copies row
  have single := @resolve_put ρ κ _ key [] copy (resolve key copies row)
  rw [put_nil, keeps, resolve_nil] at single
  rw [resolve_put, Function.comp, single]

end EasyTrade.Store
