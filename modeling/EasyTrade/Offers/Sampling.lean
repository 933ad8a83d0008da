import EasyTrade.Random.Shuffle
import Mathlib.Data.List.OfFn
import Mathlib.Data.List.TakeDrop

/-!
# Sampling of an array

`sampleArray` of the offer service's `utils.ts`. Arrays are kept in a heap, so that what
the function does to its argument can be told.
-/

namespace EasyTrade.Offers

open EasyTrade.Random Equiv

variable {T : Type*}

/-- The arrays of the program by their references. -/
abbrev Heap (T : Type*) := List (List T)

namespace Heap

/-- The elements of an array. -/
def read (heap : Heap T) (array : ℕ) : List T := heap.getD array []

/-- Replace the elements of an array. -/
def write (heap : Heap T) (array : ℕ) (elements : List T) : Heap T := heap.set array elements

/-- A new array, and the heap with it. -/
def alloc (heap : Heap T) (elements : List T) : ℕ × Heap T :=
  (heap.length, heap ++ [elements])

@[simp] theorem length_write (heap : Heap T) (array : ℕ) (elements : List T) :
    (heap.write array elements).length = heap.length := List.length_set

theorem read_write (heap : Heap T) {array : ℕ} (allocated : array < heap.length)
    (elements : List T) : (heap.write array elements).read array = elements := by
  simp [read, write, allocated]

theorem read_write_of_ne (heap : Heap T) {array other : ℕ} (apart : other ≠ array)
    (elements : List T) : (heap.write array elements).read other = heap.read other := by
  simp [read, write, List.getElem?_set_ne (Ne.symm apart)]

theorem write_write (heap : Heap T) (array : ℕ) (elements more : List T) :
    (heap.write array elements).write array more = heap.write array more := List.set_set ..

end Heap

/-- `tmp = result[j]; result[j] = result[i]; result[i] = tmp` on the elements. -/
def exchange (result : List T) (i j : ℕ) : List T :=
  match result[j]?, result[i]? with
  | some tmp, some x => (result.set j x).set i tmp
  | _, _ => result

/-- The loop of `sampleArray` from `i` down to 1; `draw i` is `Math.floor(Math.random() * (i + 1))`. -/
def shuffleLoop (draw : ℕ → ℕ) (result : ℕ) : ℕ → Heap T → Heap T
  | 0, heap => heap
  | i + 1, heap => shuffleLoop draw result i
      (heap.write result (exchange (heap.read result) (i + 1) (draw (i + 1))))

/-- `sampleArray`: the reference of the sample, and the heap. A length beyond the end adds
undefined elements. -/
def sampleArray (undefined : T) (draw : ℕ → ℕ) (heap : Heap T) (array size : ℕ) : ℕ × Heap T :=
  let (result, heap) := heap.alloc (heap.read array)
  let heap := shuffleLoop draw result ((heap.read result).length - 1) heap
  (result, heap.write result (List.takeD size (heap.read result) undefined))

/-! ## The loop on the elements -/

/-- The exchanges of the loop on the elements. -/
def exchangeAll (draw : ℕ → ℕ) : ℕ → List T → List T
  | 0, result => result
  | i + 1, result => exchangeAll draw i (exchange result (i + 1) (draw (i + 1)))

theorem shuffleLoop_eq (draw : ℕ → ℕ) {result : ℕ} (i : ℕ) {heap : Heap T}
    (allocated : result < heap.length) :
    shuffleLoop draw result i heap =
      heap.write result (exchangeAll draw i (heap.read result)) := by
  induction i generalizing heap with
  | zero =>
    have same : heap.read result = heap[result] := by simp [Heap.read, allocated]
    rw [shuffleLoop, exchangeAll, same, Heap.write, List.set_getElem_self]
  | succ i ih =>
    rw [shuffleLoop, ih (by rw [Heap.length_write]; exact allocated), Heap.write_write,
      Heap.read_write _ allocated, exchangeAll]

variable {n : ℕ}

/-- An exchange of two elements is an exchange of their places. -/
theorem exchange_ofFn (a : Fin n → T) (i j : Fin n) :
    exchange (List.ofFn a) i j = List.ofFn (a ∘ swap i j) := by
  have tmp : (List.ofFn a)[(j : ℕ)]? = some (a j) := by simp
  have x : (List.ofFn a)[(i : ℕ)]? = some (a i) := by simp
  rw [exchange, tmp, x]
  refine List.ext_getElem (by simp) fun k inside inside' => ?_
  have within : k < n := by simpa using inside'
  simp only [List.getElem_set, List.getElem_ofFn, Function.comp]
  have place : ∀ i : Fin n, (i : ℕ) = k ↔ (⟨k, within⟩ : Fin n) = i := fun i => by
    rw [Fin.ext_iff]
    exact eq_comm
  simp only [place, swap_apply_def]
  split_ifs <;> rfl

/-- The draws of the loop. -/
def Draws.draw (draws : Draws n) (i : ℕ) : ℕ := if within : i < n then draws ⟨i, within⟩ else 0

theorem exchangeAll_ofFn (draws : Draws n) {m : ℕ} (within : m + 1 ≤ n) (a : Fin n → T) :
    exchangeAll (Draws.draw draws) m (List.ofFn a) =
      List.ofFn (a ∘ exchanges draws (m + 1) within) := by
  induction m generalizing a with
  | zero =>
    have first : exchanges draws 1 within = 1 := by
      have only : draws.place ⟨0, within⟩ = ⟨0, within⟩ := by
        refine Fin.ext ?_
        have drawn := (draws ⟨0, within⟩).isLt
        change (draws ⟨0, within⟩ : ℕ) = 0
        exact Nat.lt_one_iff.mp drawn
      rw [exchanges, only, swap_self, exchanges]
      rfl
    rw [exchangeAll, first]
    rfl
  | succ m ih =>
    have drawn : Draws.draw draws (m + 1) = draws.place ⟨m + 1, within⟩ := by
      rw [Draws.draw, dif_pos (by omega)]
      rfl
    have round := exchange_ofFn a ⟨m + 1, within⟩ (draws.place ⟨m + 1, within⟩)
    rw [exchangeAll, drawn]
    change exchangeAll _ m (exchange _ ((⟨m + 1, within⟩ : Fin n) : ℕ) _) = _
    rw [round, ih (Nat.le_of_succ_le within)]
    rfl

/-- The whole loop permutes the elements as the draws say. -/
theorem exchangeAll_eq (elements : List T) (draws : Draws elements.length) :
    exchangeAll (Draws.draw draws) (elements.length - 1) elements =
      List.ofFn fun i => elements.get (shuffled draws i) := by
  cases elements with
  | nil => rfl
  | cons x rest =>
    have permuted := exchangeAll_ofFn draws (le_refl (rest.length + 1)) (x :: rest).get
    rw [List.ofFn_get] at permuted
    exact permuted

/-! ## The sample -/

theorem Heap.read_alloc (heap : Heap T) (elements : List T) :
    (heap.alloc elements).2.read (heap.alloc elements).1 = elements := by
  simp [Heap.read, Heap.alloc]

theorem Heap.read_alloc_of_lt (heap : Heap T) (elements : List T) {other : ℕ}
    (before : other < heap.length) : (heap.alloc elements).2.read other = heap.read other := by
  change (heap ++ [elements]).getD other [] = heap.getD other []
  rw [List.getD_eq_getElem?_getD, List.getElem?_append_left before, List.getD_eq_getElem?_getD]

/-- The heap after a sample is the heap before with the sample in a new array. -/
theorem sampleArray_eq (undefined : T) (heap : Heap T) (array size : ℕ)
    (draws : Draws (heap.read array).length) :
    sampleArray undefined (Draws.draw draws) heap array size =
      (heap.length, (heap.alloc (heap.read array)).2.write heap.length (List.takeD size
        (List.ofFn fun i => (heap.read array).get (shuffled draws i)) undefined)) := by
  have copy : (heap.alloc (heap.read array)).2.read heap.length = heap.read array :=
    Heap.read_alloc heap (heap.read array)
  have allocated : heap.length < (heap.alloc (heap.read array)).2.length := by simp [Heap.alloc]
  have loop := shuffleLoop_eq (Draws.draw draws) ((heap.read array).length - 1) allocated
  rw [copy, exchangeAll_eq] at loop
  change (heap.length, (shuffleLoop _ heap.length
    (((heap.alloc (heap.read array)).2.read heap.length).length - 1)
    (heap.alloc (heap.read array)).2).write heap.length _) = _
  rw [copy]
  change (heap.length, (shuffleLoop _ heap.length _ (heap.alloc (heap.read array)).2).write
    heap.length (List.takeD size ((shuffleLoop _ heap.length
      (((heap.alloc (heap.read array)).2.read heap.length).length - 1)
      (heap.alloc (heap.read array)).2).read heap.length) undefined)) = _
  rw [copy, loop, Heap.write_write, Heap.read_write _ allocated]

/-- A sample is the first elements of the permutation that its draws make, in an array
of its own; every array that was there is as it was. Each permutation is made by exactly
one sequence of draws, and sets of places of one size are sampled by equally many. -/
theorem sample_is_fair (undefined : T) (heap : Heap T) (array : ℕ) :
    let elements := heap.read array
    let n := elements.length
    Function.Bijective (shuffled : Draws n → Perm (Fin n)) ∧
    (∀ (draws : Draws n) (size : ℕ), size ≤ n →
      let result := (sampleArray undefined (Draws.draw draws) heap array size).1
      let heap' := (sampleArray undefined (Draws.draw draws) heap array size).2
      heap'.read result = (List.ofFn fun i => elements.get (shuffled draws i)).take size ∧
        heap.length ≤ result ∧ ∀ other < heap.length, heap'.read other = heap.read other) ∧
    ∀ size ≤ n, ∀ S S' : Finset (Fin n), S.card = size → S'.card = size →
      Fintype.card { draws : Draws n // sampled (shuffled draws) size = S } =
        Fintype.card { draws : Draws n // sampled (shuffled draws) size = S' } := by
  intro elements n
  refine ⟨shuffled_bijective, fun draws size within => ?_,
    fun size _ S S' card card' => card_sampled_eq (card.trans card'.symm) size⟩
  have allocated : heap.length < (heap.alloc elements).2.length := by simp [Heap.alloc]
  dsimp only
  rw [sampleArray_eq]
  refine ⟨?_, le_rfl, fun other before => ?_⟩
  · rw [Heap.read_write _ allocated]
    exact List.takeD_eq_take _ (by simpa using within)
  · rw [Heap.read_write_of_ne _ (Nat.ne_of_lt before), Heap.read_alloc_of_lt _ _ before]

end EasyTrade.Offers
