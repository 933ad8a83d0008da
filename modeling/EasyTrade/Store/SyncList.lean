import Mathlib.Data.List.Nodup
import Mathlib.Data.List.Infix

/-!
# Shared lists of objects

A list of mutable objects that several threads share. An object is named by its
reference, its place among all objects ever added, and keeps it after it leaves
the list. Every change of the length is counted, and a walk over the list that
finds the count changed fails at its next step, as an `ArrayList` iterator does.
-/

namespace EasyTrade.Store

/-- A shared list. -/
structure SyncList (P : Type) where
  /-- Every object ever added, as it is now. -/
  objects : List P := []
  /-- The references in the list, in order. -/
  listed : List Nat := []
  /-- The changes of length so far. -/
  modCount : Nat := 0

namespace SyncList

variable {P K : Type}

/-- `add`. -/
def add (s : SyncList P) (object : P) : SyncList P :=
  { objects := s.objects ++ [object]
    listed := s.listed ++ [s.objects.length]
    modCount := s.modCount + 1 }

/-- `hasNext` and `next` of an iterator: the object at the cursor, or nothing at
the end of the list. The step fails if the list has changed since `modCount`. -/
def next (s : SyncList P) (cursor modCount : Nat) : Option (Option (Nat × P)) :=
  if cursor = s.listed.length then some none
  else if s.modCount ≠ modCount then none
  else (s.listed[cursor]?).bind fun ref => (s.objects[ref]?).map fun object => some (ref, object)

/-- A setter of an object. -/
def set (s : SyncList P) (ref : Nat) (object : P) : SyncList P :=
  { s with objects := s.objects.set ref object }

/-- `remove`, by reference. -/
def remove (s : SyncList P) (ref : Nat) : SyncList P :=
  if ref ∈ s.listed then { s with listed := s.listed.erase ref, modCount := s.modCount + 1 } else s

/-- The list holds no object twice and only objects that were added. -/
structure Valid (s : SyncList P) : Prop where
  /-- No reference is listed twice. -/
  nodup : s.listed.Nodup
  /-- A listed object was added. -/
  added : ∀ ref ∈ s.listed, ref < s.objects.length

variable {s : SyncList P}

@[simp] theorem objects_add (object : P) : (s.add object).objects = s.objects ++ [object] := rfl

@[simp] theorem objects_set (ref : Nat) (object : P) :
    (s.set ref object).objects = s.objects.set ref object := rfl

@[simp] theorem listed_set (ref : Nat) (object : P) : (s.set ref object).listed = s.listed := rfl

@[simp] theorem modCount_set (ref : Nat) (object : P) :
    (s.set ref object).modCount = s.modCount := rfl

@[simp] theorem objects_remove (ref : Nat) : (s.remove ref).objects = s.objects := by
  unfold remove
  split <;> rfl

theorem Valid.empty : (({} : SyncList P)).Valid := ⟨List.nodup_nil, by simp⟩

theorem Valid.add (h : s.Valid) (object : P) : (s.add object).Valid := by
  constructor
  · have new : s.objects.length ∉ s.listed := fun listed => absurd (h.added _ listed) (by omega)
    simpa [SyncList.add, List.nodup_append] using ⟨h.nodup, fun ref listed same => new (same ▸ listed)⟩
  · intro ref listed
    simp only [SyncList.add, List.mem_append, List.mem_singleton, List.length_append,
      List.length_singleton] at listed ⊢
    rcases listed with listed | rfl
    · have := h.added ref listed
      omega
    · omega

theorem Valid.set (h : s.Valid) (ref : Nat) (object : P) : (s.set ref object).Valid :=
  ⟨h.nodup, fun r listed => by simpa using h.added r listed⟩

theorem Valid.remove (h : s.Valid) (ref : Nat) : (s.remove ref).Valid := by
  unfold SyncList.remove
  split
  · exact ⟨h.nodup.erase ref, fun r listed => h.added r (List.mem_of_mem_erase listed)⟩
  · exact h

theorem mem_listed_remove {ref r : Nat} (h : r ∈ (s.remove ref).listed) : r ∈ s.listed := by
  unfold remove at h
  split at h
  · exact List.mem_of_mem_erase h
  · exact h

/-- A removal that leaves the count alone leaves the list alone. -/
theorem remove_eq_of_modCount {ref : Nat} (same : (s.remove ref).modCount = s.modCount) :
    s.remove ref = s := by
  unfold remove at same ⊢
  split at same
  · simp at same
  · rename_i absent
    exact if_neg absent

/-- What a step of a walk that finds an object has found. -/
theorem next_eq_some {cursor modCount ref : Nat} {object : P}
    (h : s.next cursor modCount = some (some (ref, object))) :
    s.modCount = modCount ∧ s.listed[cursor]? = some ref ∧ s.objects[ref]? = some object := by
  unfold next at h
  split at h
  · cases h
  · split at h
    · cases h
    · rename_i same
      obtain ⟨r, listed, h⟩ := Option.bind_eq_some_iff.1 h
      obtain ⟨o, found, h⟩ := Option.map_eq_some_iff.1 h
      simp only [Option.some.injEq, Prod.mk.injEq] at h
      obtain ⟨rfl, rfl⟩ := h
      exact ⟨not_not.1 same, listed, found⟩

/-- The objects keep their keys through a setter that keeps the object's own. -/
theorem map_set_of_eq (key : P → K) {objects : List P} {ref : Nat} {old new : P}
    (found : objects[ref]? = some old) (same : key new = key old) :
    (objects.set ref new).map key = objects.map key := by
  obtain ⟨bound, at_ref⟩ := List.getElem?_eq_some_iff.1 found
  apply List.ext_getElem
  · simp
  · intro n _ _
    by_cases here : ref = n
    · subst here
      simp [at_ref, same]
    · simp [here]

end SyncList

end EasyTrade.Store
