import Mathlib.Data.List.Forall2
import Mathlib.Data.List.Sort
import EasyTrade.Store.Keyed

/-!
# A change tracker

A unit of work keeps one copy of every row it has read and hands the same copy
out again on later reads, whatever the table says by then. The rows it has
changed since its last save are the pending ones; they are among the copies.

`Aligned` compares a tracker over the table it reads (`view`) with an ideal
table (`saved`) that is changed by nothing but the pending rows: the two tables
have the same rows up to the columns that storing may round, and reading through
the tracker is reading the ideal table (`Aligned.find`, `Aligned.filter`). Every
operation of the unit of work keeps this.
-/

namespace EasyTrade.Store

namespace Tracker

variable {ρ κ α : Type} [DecidableEq κ] (key : ρ → κ)

/-- Start tracking a row the server returned, unless a copy is there. -/
def attach (copies : List ρ) (row : ρ) : List ρ :=
  match lookup key (key row) copies with
  | some _ => copies
  | none => copies ++ [row]

/-- Start tracking several rows. -/
def attachAll (copies rows : List ρ) : List ρ := rows.foldl (attach key) copies

/-- Track rows the unit of work has inserted itself. -/
def track (copies news : List ρ) : List ρ :=
  copies.filter (fun x => decide (key x ∉ news.map key)) ++ news

variable {key}

theorem mem_attach {copies : List ρ} {row x : ρ} (h : x ∈ attach key copies row) :
    x ∈ copies ∨ x = row := by
  unfold attach at h
  split at h
  · exact .inl h
  · exact (List.mem_append.1 h).imp_right List.mem_singleton.1

theorem mem_attach_of_mem {copies : List ρ} {x : ρ} (row : ρ) (h : x ∈ copies) :
    x ∈ attach key copies row := by
  unfold attach
  split
  · exact h
  · exact List.mem_append_left _ h

/-- After attaching, the copy handed out for the row is among the copies. -/
theorem resolve_mem_attach (copies : List ρ) (row : ρ) :
    resolve key copies row ∈ attach key copies row := by
  unfold attach
  split
  · rename_i copy found
    rw [resolve_of_lookup found]
    exact mem_of_lookup found
  · rename_i absent
    rw [resolve_of_none absent]
    exact List.mem_append_right _ List.mem_cons_self

/-- Attaching a row changes no copy handed out for a row of the same table. -/
theorem resolve_attach {copies table : List ρ} (unique : (table.map key).Nodup) {row x : ρ}
    (hrow : row ∈ table) (hx : x ∈ table) :
    resolve key (attach key copies row) x = resolve key copies x := by
  unfold attach
  split
  · rfl
  · rename_i absent
    cases found : lookup key (key x) copies with
    | some copy => rw [resolve_append_of_some found, resolve_of_lookup found]
    | none =>
      rw [resolve_append_of_none found, resolve_of_none found]
      by_cases same : key row = key x
      · rw [eq_of_key_eq unique hrow hx same]
        exact resolve_of_lookup (by simp [lookup])
      · exact resolve_of_none (lookup_eq_none.2 fun y inList => by
          rw [List.mem_singleton.1 inList]; exact same)

theorem mem_attachAll {copies rows : List ρ} {x : ρ} (h : x ∈ attachAll key copies rows) :
    x ∈ copies ∨ x ∈ rows := by
  induction rows generalizing copies with
  | nil => exact .inl h
  | cons row rest ih =>
    rcases ih h with old | new
    · refine (mem_attach old).imp_right fun same => ?_
      rw [same]
      exact List.mem_cons_self
    · exact .inr (List.mem_cons_of_mem _ new)

/-- The copy of an inserted row is the row itself, and other rows keep theirs. -/
theorem resolve_track {copies news : List ρ} {x : ρ} :
    resolve key (track key copies news) x =
      (lookup key (key x) news).getD (resolve key copies x) := by
  cases found : lookup key (key x) news with
  | some new =>
    rw [track, resolve_append_of_none (lookup_filter_eq_none _ fun y same => ?_),
      resolve_of_lookup found, Option.getD_some]
    have inNews : key x ∈ news.map key :=
      key_of_lookup found ▸ List.mem_map_of_mem (mem_of_lookup found)
    simpa [same] using inNews
  | none =>
    have fresh : key x ∉ news.map key := fun inNews => by
      obtain ⟨y, inList, same⟩ := List.mem_map.1 inNews
      exact lookup_eq_none.1 found y inList same
    rw [track, resolve, lookup_append, found, Option.or_none,
      lookup_filter _ fun y same => by simpa [same] using fresh, Option.getD_none, resolve]

/-! ## Alignment -/

/-- Two rows of one origin, and one copy handed out for both. -/
def SameCopy (key : ρ → κ) (column : ρ → α) (copies pending : List ρ) (v m : ρ) : Prop :=
  column v = column m ∧ resolve key copies v = resolve key pending m

/-- Reading the view through the copies is reading the saved table through the
pending rows. -/
structure Aligned (key : ρ → κ) (column : ρ → α) (copies pending view saved : List ρ) : Prop where
  /-- The tables agree row by row, in the columns that nothing rounds and in the copies. -/
  rows : List.Forall₂ (SameCopy key column copies pending) view saved
  /-- A pending row is tracked. -/
  sent : ∀ r ∈ pending, r ∈ copies

namespace Aligned

variable {column : ρ → α} {copies pending view saved : List ρ}

/-- With nothing tracked and nothing pending a table is aligned with itself. -/
theorem start (table : List ρ) : Aligned key column [] [] table table :=
  ⟨List.forall₂_same.2 fun _ _ => ⟨rfl, rfl⟩, fun _ absent => absurd absent List.not_mem_nil⟩

theorem columns (h : Aligned key column copies pending view saved) :
    view.map column = saved.map column := by
  have rows := h.rows
  clear h
  induction rows with
  | nil => rfl
  | cons same _ ih => rw [List.map_cons, List.map_cons, same.1, ih]

theorem keys (h : Aligned key column copies pending view saved)
    (factor : α → κ) (hkey : ∀ r, key r = factor (column r)) : view.map key = saved.map key := by
  have through : ∀ l : List ρ, l.map key = (l.map column).map factor := fun l => by
    rw [List.map_map]
    exact List.map_congr_left fun r _ => hkey r
  rw [through, through, h.columns]

/-- Reading the first row that a test on unrounded columns accepts. -/
theorem find (h : Aligned key column copies pending view saved) (p : ρ → Bool)
    (fixed : ∀ a b, column a = column b → p a = p b) :
    (view.find? p).map (resolve key copies) = (saved.find? p).map (resolve key pending) := by
  have rows := h.rows
  clear h
  induction rows with
  | nil => rfl
  | cons same _ ih =>
    rw [List.find?_cons, List.find?_cons, fixed _ _ same.1]
    split
    · rw [Option.map_some, Option.map_some, same.2]
    · exact ih

/-- Reading all rows that a test on unrounded columns accepts. -/
theorem filter (h : Aligned key column copies pending view saved) (p : ρ → Bool)
    (fixed : ∀ a b, column a = column b → p a = p b) :
    List.Forall₂ (SameCopy key column copies pending) (view.filter p) (saved.filter p) := by
  have rows := h.rows
  clear h
  induction rows with
  | nil => exact .nil
  | cons same _ ih =>
    rw [List.filter_cons, List.filter_cons, fixed _ _ same.1]
    split
    · exact .cons same ih
    · exact ih

/-- Rows of one origin are handed out as the same rows. -/
theorem copies_eq {vs ms : List ρ} (h : List.Forall₂ (SameCopy key column copies pending) vs ms) :
    vs.map (resolve key copies) = ms.map (resolve key pending) := by
  induction h with
  | nil => rfl
  | cons same _ ih => rw [List.map_cons, List.map_cons, same.2, ih]

/-- Rows of one origin stay beside each other when both lists are sorted by an
unrounded column. -/
theorem sorted {vs ms : List ρ} (h : List.Forall₂ (SameCopy key column copies pending) vs ms)
    (rank : α → ℕ) :
    (vs.insertionSort fun a b => rank (column a) ≤ rank (column b)).map (resolve key copies) =
      (ms.insertionSort fun a b => rank (column a) ≤ rank (column b)).map
        (resolve key pending) := by
  have insert : ∀ {v m : ρ} {vs ms : List ρ}, SameCopy key column copies pending v m →
      List.Forall₂ (SameCopy key column copies pending) vs ms →
      List.Forall₂ (SameCopy key column copies pending)
        (vs.orderedInsert (fun a b => rank (column a) ≤ rank (column b)) v)
        (ms.orderedInsert (fun a b => rank (column a) ≤ rank (column b)) m) := by
    intro v m vs ms same rows
    induction rows with
    | nil => exact .cons same .nil
    | cons first rest ih =>
      simp only [List.orderedInsert_cons, same.1, first.1]
      split
      · exact .cons same (.cons first rest)
      · exact .cons first ih
  have sort : List.Forall₂ (SameCopy key column copies pending)
      (vs.insertionSort fun a b => rank (column a) ≤ rank (column b))
      (ms.insertionSort fun a b => rank (column a) ≤ rank (column b)) := by
    induction h with
    | nil => exact .nil
    | cons same _ ih => exact insert same ih
  exact copies_eq sort

/-- Tracking a row of the view changes nothing. -/
theorem attach (h : Aligned key column copies pending view saved) (unique : (view.map key).Nodup)
    {row : ρ} (inView : row ∈ view) :
    Aligned key column (attach key copies row) pending view saved where
  rows := by
    have step : ∀ {vs ms : List ρ}, (∀ v ∈ vs, v ∈ view) →
        List.Forall₂ (SameCopy key column copies pending) vs ms →
        List.Forall₂ (SameCopy key column (Tracker.attach key copies row) pending) vs ms := by
      intro vs ms inside rows
      induction rows with
      | nil => exact .nil
      | cons same _ ih =>
        refine .cons ⟨same.1, ?_⟩ (ih fun v inList => inside v (List.mem_cons_of_mem _ inList))
        rw [resolve_attach unique inView (inside _ List.mem_cons_self), same.2]
    exact step (fun _ inList => inList) h.rows
  sent r inPending := mem_attach_of_mem row (h.sent r inPending)

theorem attachAll (h : Aligned key column copies pending view saved)
    (unique : (view.map key).Nodup) {rows : List ρ} (inView : ∀ row ∈ rows, row ∈ view) :
    Aligned key column (attachAll key copies rows) pending view saved := by
  induction rows generalizing copies with
  | nil => exact h
  | cons row rest ih =>
    exact ih (h.attach unique (inView row List.mem_cons_self)) fun x inRest =>
      inView x (List.mem_cons_of_mem _ inRest)

/-- A change is made to the copy and to the pending rows alike. -/
theorem put (h : Aligned key column copies pending view saved)
    (factor : α → κ) (hkey : ∀ r, key r = factor (column r)) (row : ρ) :
    Aligned key column (put key copies row) (put key pending row) view saved where
  rows := h.rows.imp fun v m same => by
    refine ⟨same.1, ?_⟩
    have sameKey : key v = key m := by rw [hkey, hkey, same.1]
    rw [resolve_put, resolve_put, sameKey, same.2]
  sent r inPending := by
    rcases mem_put.1 inPending with ⟨old, ne⟩ | rfl
    · exact mem_put.2 (.inl ⟨h.sent r old, ne⟩)
    · exact mem_put.2 (.inr rfl)

/-- Saving sends the pending rows, written through `store`, to the table and puts
the pending rows themselves in the saved one. -/
theorem save (h : Aligned key column copies pending view saved)
    (factor : α → κ) (hkey : ∀ r, key r = factor (column r)) (store : ρ → ρ)
    (keeps : ∀ r, column (store r) = column r) :
    Aligned key column copies [] (overwrite key (pending.map store) view)
      (overwrite key pending saved) where
  rows := by
    have keepsKey : ∀ r, key (store r) = key r := fun r => by rw [hkey, keeps, ← hkey]
    rw [overwrite, overwrite, List.forall₂_map_left_iff, List.forall₂_map_right_iff]
    refine h.rows.imp fun v m same => ?_
    have sameKey : key v = key m := by rw [hkey, hkey, same.1]
    cases found : lookup key (key m) pending with
    | none =>
      rw [resolve_of_none found, resolve_of_none (by rw [lookup_map keepsKey, sameKey, found]; rfl)]
      exact ⟨same.1, by rw [same.2, resolve_of_none found, resolve_nil]⟩
    | some r =>
      have stored : resolve key (pending.map store) v = store r :=
        resolve_of_lookup (by rw [lookup_map keepsKey, sameKey, found]; rfl)
      rw [resolve_of_lookup found, stored]
      refine ⟨keeps r, ?_⟩
      -- The copy of the key is the pending row, since the two are among the copies.
      have copy : resolve key copies v = r := by rw [same.2, resolve_of_lookup found]
      have tracked : lookup key (key v) copies ≠ none := fun absent =>
        lookup_eq_none.1 absent r (h.sent r (mem_of_lookup found))
          (by rw [key_of_lookup found, sameKey])
      obtain ⟨c, isCopy⟩ := Option.ne_none_iff_exists'.1 tracked
      rw [resolve_of_lookup isCopy] at copy
      have keyStored : key (store r) = key v := by
        rw [keepsKey, key_of_lookup found, sameKey]
      rw [resolve_of_lookup (by rw [keyStored, isCopy]), copy, resolve_nil]
  sent _ absent := absurd absent List.not_mem_nil

/-- Rows inserted under new keys are tracked from then on. -/
theorem insert (h : Aligned key column copies [] view saved)
    (factor : α → κ) (hkey : ∀ r, key r = factor (column r)) (store : ρ → ρ)
    (keeps : ∀ r, column (store r) = column r) {news : List ρ} (distinct : (news.map key).Nodup)
    (fresh : ∀ k ∈ view.map key, k ∉ news.map key) :
    Aligned key column (track key copies news) [] (view ++ news.map store) (saved ++ news) where
  rows := by
    have keepsKey : ∀ r, key (store r) = key r := fun r => by rw [hkey, keeps, ← hkey]
    have old : ∀ {vs ms : List ρ}, (∀ v ∈ vs, v ∈ view) →
        List.Forall₂ (SameCopy key column copies []) vs ms →
        List.Forall₂ (SameCopy key column (track key copies news) []) vs ms := by
      intro vs ms inside rows
      induction rows with
      | nil => exact .nil
      | @cons v _ _ _ same _ ih =>
        refine .cons ⟨same.1, ?_⟩ (ih fun v inList => inside v (List.mem_cons_of_mem _ inList))
        have absent : lookup key (key v) news = none := lookup_eq_none.2 fun n inNews sameKey =>
          fresh _ (List.mem_map_of_mem (inside v List.mem_cons_self))
            (sameKey ▸ List.mem_map_of_mem inNews)
        rw [resolve_track, absent, Option.getD_none, same.2]
    refine List.rel_append (old (fun _ inList => inList) h.rows) ?_
    rw [List.forall₂_map_left_iff]
    refine List.forall₂_same.2 fun r inNews => ⟨keeps r, ?_⟩
    rw [resolve_track, keepsKey, lookup_of_mem distinct inNews, Option.getD_some, resolve_nil]
  sent _ absent := absurd absent List.not_mem_nil

end Aligned

end Tracker

end EasyTrade.Store
