import EasyTrade.Cards.Duties
import Mathlib.Data.List.NodupEquivFin

/-!
# Handing cards over

The manufacturer's scheduler hands a finished card over to the courier while it walks over its
list, and removes the finished processes when the walk has come to its end. A walk that is broken
off after a hand-over leaves the process on the list, and the next pass hands the card over again.
So does a second process of the same order, from a request whose answer was lost. Otherwise a
card is handed over once (`cards_handed_over_once`).
-/

namespace EasyTrade.Cards

open EasyTrade.Logic EasyTrade.Store

/-- The orders of the manufacturer's processes, listed or not. -/
def World.made (g : World) : List OrderId := g.manufacture.objects.map ManufactureProcess.orderId

/-- The orders of the courier's processes, listed or not. -/
def World.handed (g : World) : List OrderId :=
  g.courier.objects.map CourierProcess.creditCardOrderId

/-- The manufacturer is asked for the card of the order once, and begins no pass with a process
of the order on its list that it has handed over. -/
def Prompt {ι : Type} (o : OrderId) (_ : Party ι) (refused : Bool) (c : Command) (_ : Private)
    (g : World) : Prop :=
  match refused, c with
  | false, .manufacture (.add process) => process.orderId = o → o ∉ g.made
  | false, .manufacture .iterator =>
    ∀ ref ∈ g.manufacture.listed, g.made[ref]? = some o → o ∉ g.handed
  | _, _ => True

instance {ι : Type} (o : OrderId) (i : Party ι) (refused : Bool) (c : Command) (l : Private)
    (g : World) : Decidable (Prompt o i refused c l g) := by
  unfold Prompt
  split
  · infer_instance
  · infer_instance
  · infer_instance

/-! ## Lists -/

/-- Another element that leaves a list leaves its beginning alone. -/
theorem mem_take_erase {l : List Nat} {n a r : Nat} (other : a ≠ r) (mem : a ∈ l.take n) :
    a ∈ (l.erase r).take n := by
  induction l generalizing n with
  | nil => simp at mem
  | cons b rest ih =>
    cases n with
    | zero => simp at mem
    | succ n =>
      rw [List.take_succ_cons, List.mem_cons] at mem
      by_cases gone : b = r
      · subst gone
        rw [List.erase_cons_head]
        exact List.take_subset_take_left rest (Nat.le_succ n) (mem.resolve_left other)
      · rw [List.erase_cons_tail (by simpa using gone), List.take_succ_cons, List.mem_cons]
        exact mem.imp_right ih

/-- What a list has once it has at one place. -/
theorem eq_of_count_le_one {K : Type} [DecidableEq K] {keys : List K} {k : K} {i j : Nat}
    (once : keys.count k ≤ 1) (hi : keys[i]? = some k) (hj : keys[j]? = some k) : i = j := by
  obtain ⟨boundI, atI⟩ := List.getElem?_eq_some_iff.mp hi
  obtain ⟨boundJ, atJ⟩ := List.getElem?_eq_some_iff.mp hj
  have twice : ∀ m n : Fin keys.length, m < n → keys.get m = k → keys.get n = k → False := by
    intro m n before atM atN
    have duplicate : List.Duplicate k keys :=
      List.duplicate_iff_exists_distinct_get.mpr ⟨m, n, before, atM.symm, atN.symm⟩
    have := List.duplicate_iff_two_le_count.mp duplicate
    omega
  rcases Nat.lt_trichotomy i j with before | same | after
  · exact (twice ⟨i, boundI⟩ ⟨j, boundJ⟩ before atI atJ).elim
  · exact same
  · exact (twice ⟨j, boundJ⟩ ⟨i, boundI⟩ after atJ atI).elim

/-- A key that a list gets for the first time. -/
theorem count_append_le_one {K : Type} [DecidableEq K] {keys : List K} {k new : K}
    (once : keys.count k ≤ 1) (first : new = k → k ∉ keys) : (keys ++ [new]).count k ≤ 1 := by
  rw [List.count_append, List.count_singleton]
  by_cases same : new = k
  · rw [List.count_eq_zero.mpr (first same)]
    split <;> omega
  · rw [if_neg (by simpa using same)]
    exact once

/-! ## The walk -/

/-- How far the manufacturer has handed the card of an order over, seen from where the two
schedulers are. -/
structure Handing (o : OrderId) (x y : Position) (g : World) : Prop where
  /-- The manufacturer's list. -/
  valid : g.manufacture.Valid
  /-- The manufacturer has one process of the order. -/
  distinct : g.made.count o ≤ 1
  /-- The courier has one process of the order. -/
  once : g.handed.count o ≤ 1
  /-- The manufacturer has made what the courier has. -/
  source : o ∈ g.handed → o ∈ g.made
  /-- The process the manufacturer is at is one of its own, as it is now. -/
  making : ∀ ref p, x.making = some (ref, p) → g.manufacture.objects[ref]? = some p
  /-- The process the courier is at is one of its own, as it is now. -/
  carrying : ∀ ref p, y.carrying = some (ref, p) → g.courier.objects[ref]? = some p
  /-- The process the manufacturer is at waits to be handed over. -/
  waits : ∀ ref p, x.making = some (ref, p) → x.handedOver = false → p.orderId = o → o ∉ g.handed
  /-- A listed process that has been handed over, or that the manufacturer is at, is behind it. -/
  passed : ∀ ref ∈ g.manufacture.listed, g.made[ref]? = some o →
    o ∈ g.handed ∨ x.making.map Prod.fst = some ref → ref ∈ g.manufacture.listed.take x.cursor

variable {o : OrderId} {x y : Position} {g : World}

/-- The order of an object of the manufacturer. -/
theorem made_of_object {ref : Nat} {p : ManufactureProcess}
    (isObject : g.manufacture.objects[ref]? = some p) : g.made[ref]? = some p.orderId := by
  rw [World.made, List.getElem?_map, isObject]
  rfl

/-- Another process may be asked for at any time. -/
theorem Handing.add (handing : Handing o x y g) {process : ManufactureProcess}
    (new : process.orderId = o → o ∉ g.made) :
    Handing o x y { g with manufacture := g.manufacture.add process } := by
  have made : World.made { g with manufacture := g.manufacture.add process } =
      g.made ++ [process.orderId] := List.map_append
  have length : g.made.length = g.manufacture.objects.length := List.length_map _
  constructor
  · exact handing.valid.add process
  · rw [made]
    exact count_append_le_one handing.distinct new
  · exact handing.once
  · intro mem
    rw [made]
    exact List.mem_append_left _ (handing.source mem)
  · intro ref p at_ref
    have found := handing.making ref p at_ref
    obtain ⟨bound, -⟩ := List.getElem?_eq_some_iff.mp found
    change (g.manufacture.objects ++ [process])[ref]? = some p
    rwa [List.getElem?_append_left bound]
  · exact handing.carrying
  · exact handing.waits
  · intro ref listed own behind
    change ref ∈ g.manufacture.listed ++ [g.manufacture.objects.length] at listed
    change ref ∈ (g.manufacture.listed ++ [g.manufacture.objects.length]).take x.cursor
    rw [made] at own
    rw [List.take_append]
    rcases List.mem_append.mp listed with old | isNew
    · have bound := handing.valid.added ref old
      rw [← length] at bound
      rw [List.getElem?_append_left bound] at own
      exact List.mem_append_left _ (handing.passed ref old own behind)
    · -- the new process has not been handed over, and nobody is at it
      obtain rfl := List.mem_singleton.mp isNew
      exfalso
      rw [← length, List.getElem?_append_right (Nat.le_refl _), Nat.sub_self] at own
      rcases behind with handed | at_ref
      · exact new (Option.some.inj own) (handing.source handed)
      · obtain ⟨⟨ref, p⟩, isMaking, rfl⟩ := Option.map_eq_some_iff.mp at_ref
        obtain ⟨bound, -⟩ := List.getElem?_eq_some_iff.mp (handing.making _ p isMaking)
        omega

/-- A pass begins. -/
theorem Handing.iterator (handing : Handing o x y g) {expected : Nat}
    (fresh : ∀ ref ∈ g.manufacture.listed, g.made[ref]? = some o → o ∉ g.handed) :
    Handing o { x with expected := expected, cursor := 0, making := none } y g := by
  constructor
  · exact handing.valid
  · exact handing.distinct
  · exact handing.once
  · exact handing.source
  · intro ref p absent
    cases absent
  · exact handing.carrying
  · intro ref p absent
    cases absent
  · intro ref listed own behind
    rcases behind with handed | absent
    · exact absurd handed (fresh ref listed own)
    · cases absent

/-- The walk comes to the next process, which has not been handed over yet. -/
theorem Handing.next (handing : Handing o x y g) {modCount ref : Nat} {p : ManufactureProcess}
    (found : g.manufacture.next x.cursor modCount = some (some (ref, p))) :
    Handing o { x with cursor := x.cursor + 1, making := some (ref, p), handedOver := false } y g := by
  obtain ⟨-, here, isObject⟩ := SyncList.next_eq_some found
  have split : g.manufacture.listed.take (x.cursor + 1) =
      g.manufacture.listed.take x.cursor ++ [ref] := by
    rw [List.take_add_one, here]
    rfl
  have ahead : ref ∉ g.manufacture.listed.take x.cursor := by
    have distinct : (g.manufacture.listed.take (x.cursor + 1)).Nodup :=
      (List.take_sublist ..).nodup handing.valid.nodup
    rw [split, List.nodup_append] at distinct
    exact fun behind => distinct.2.2 ref behind ref (List.mem_singleton_self ref) rfl
  have listed : ref ∈ g.manufacture.listed := List.mem_of_getElem? here
  constructor
  · exact handing.valid
  · exact handing.distinct
  · exact handing.once
  · exact handing.source
  · intro ref' p' same
    cases same
    exact isObject
  · exact handing.carrying
  · intro ref' p' same _ own handed
    cases same
    exact ahead (handing.passed ref listed (own ▸ made_of_object isObject) (.inl handed))
  · intro ref' listed' own behind
    change ref' ∈ g.manufacture.listed.take (x.cursor + 1)
    rw [split]
    rcases behind with handed | same
    · exact List.mem_append_left _ (handing.passed ref' listed' own (.inl handed))
    · cases same
      exact List.mem_append_right _ (List.mem_singleton_self _)

/-- The walk comes to its end. -/
theorem Handing.ended (handing : Handing o x y g) : Handing o { x with making := none } y g := by
  constructor
  · exact handing.valid
  · exact handing.distinct
  · exact handing.once
  · exact handing.source
  · intro ref p absent
    cases absent
  · exact handing.carrying
  · intro ref p absent
    cases absent
  · intro ref listed own behind
    refine handing.passed ref listed own (.inl (behind.resolve_right fun absent => ?_))
    cases absent

/-- The process the manufacturer is at is advanced. -/
theorem Handing.set (handing : Handing o x y g) {ref : Nat} {old process : ManufactureProcess}
    (making : x.making = some (ref, old)) (same : process.request = old.request) :
    Handing o { x with making := some (ref, process) } y
      { g with manufacture := g.manufacture.set ref process } := by
  have sameOrder : process.orderId = old.orderId := congrArg ManufactureRequest.creditCardOrderId same
  have isObject := handing.making ref old making
  have made : World.made { g with manufacture := g.manufacture.set ref process } = g.made :=
    SyncList.map_set_of_eq _ isObject sameOrder
  constructor
  · exact handing.valid.set ref process
  · rw [made]
    exact handing.distinct
  · exact handing.once
  · rw [made]
    exact handing.source
  · intro ref' p at_ref
    cases at_ref
    obtain ⟨bound, -⟩ := List.getElem?_eq_some_iff.mp isObject
    exact List.getElem?_set_self bound
  · exact handing.carrying
  · intro ref' p at_ref notYet
    cases at_ref
    rw [sameOrder]
    exact handing.waits ref old making notYet
  · intro ref' listed own behind
    rw [made] at own
    refine handing.passed ref' listed own (behind.imp_right fun at_ref => ?_)
    rw [making]
    exact at_ref

/-- A process is removed. -/
theorem Handing.remove (handing : Handing o x y g) (ref : Nat) :
    Handing o x y { g with manufacture := g.manufacture.remove ref } := by
  have made : World.made { g with manufacture := g.manufacture.remove ref } = g.made := by
    unfold World.made
    rw [SyncList.objects_remove]
  constructor
  · exact handing.valid.remove ref
  · rw [made]
    exact handing.distinct
  · exact handing.once
  · rw [made]
    exact handing.source
  · rw [SyncList.objects_remove]
    exact handing.making
  · exact handing.carrying
  · exact handing.waits
  · intro ref' listed own behind
    rw [made] at own
    have behind := handing.passed ref' (SyncList.mem_listed_remove listed) own behind
    change ref' ∈ (g.manufacture.remove ref).listed at listed
    change ref' ∈ (g.manufacture.remove ref).listed.take x.cursor
    unfold SyncList.remove at listed ⊢
    split
    · rename_i present
      rw [if_pos present] at listed
      have other : ref' ≠ ref := ((handing.valid.nodup.mem_erase_iff).mp listed).1
      exact mem_take_erase other behind
    · exact behind

/-- The process the manufacturer is at is handed over. -/
theorem Handing.handOver (handing : Handing o x y g) {ref : Nat} {made : ManufactureProcess}
    {process : CourierProcess} (making : x.making = some (ref, made)) (notYet : x.handedOver = false)
    (same : process.creditCardOrderId = made.orderId) :
    Handing o { x with handedOver := true } y { g with courier := g.courier.add process } := by
  have handed : World.handed { g with courier := g.courier.add process } =
      g.handed ++ [made.orderId] := by
    rw [← same]
    exact List.map_append
  have isMade := made_of_object (handing.making ref made making)
  constructor
  · exact handing.valid
  · exact handing.distinct
  · rw [handed]
    exact count_append_le_one handing.once (handing.waits ref made making notYet)
  · intro mem
    rw [handed] at mem
    rcases List.mem_append.mp mem with old | isNew
    · exact handing.source old
    · exact List.mem_singleton.mp isNew ▸ List.mem_of_getElem? isMade
  · exact handing.making
  · intro ref' p at_ref
    have found := handing.carrying ref' p at_ref
    obtain ⟨bound, -⟩ := List.getElem?_eq_some_iff.mp found
    change (g.courier.objects ++ [process])[ref']? = some p
    rwa [List.getElem?_append_left bound]
  · intro ref' p at_ref again
    cases again
  · intro ref' listed own behind
    refine handing.passed ref' listed own ?_
    rcases behind with mem | at_ref
    · rw [handed] at mem
      rcases List.mem_append.mp mem with old | isNew
      · exact .inl old
      · -- there is one process of the order
        rw [← List.mem_singleton.mp isNew] at isMade
        rw [eq_of_count_le_one handing.distinct own isMade, making]
        exact .inr rfl
    · exact .inr at_ref

/-! ## The courier's own steps -/

/-- The courier's scheduler moves on, and the orders of its processes stay the same. -/
theorem Handing.courier (handing : Handing o x y g) {y' : Position} {list : SyncList CourierProcess}
    (same : list.objects.map CourierProcess.creditCardOrderId = g.handed)
    (carrying : ∀ ref p, y'.carrying = some (ref, p) → list.objects[ref]? = some p) :
    Handing o x y' { g with courier := list } := by
  have handed : World.handed { g with courier := list } = g.handed := same
  constructor
  · exact handing.valid
  · exact handing.distinct
  · rw [handed]
    exact handing.once
  · rw [handed]
    exact handing.source
  · exact handing.making
  · exact carrying
  · rw [handed]
    exact handing.waits
  · rw [handed]
    exact handing.passed

/-! ## Runs -/

section Runs

variable {ι : Type} {l l' : Private} {g' : World} {c : Command} {reply : Reply c}
  {privs : Party ι → Private} {i : Party ι}

/-- Other commands leave the lists alone. -/
theorem lists_act (off : c.OffList) (acted : act c l g = some (reply, l', g')) :
    g'.manufacture = g.manufacture ∧ g'.courier = g.courier := by
  cases c with
  | manufacture command => exact off.elim
  | courier command => exact off.elim
  | insertOrder request =>
    obtain ⟨db', -, same⟩ := Option.map_eq_some_iff.1 acted
    cases same
    exact ⟨rfl, rfl⟩
  | lastStatusForAccount a =>
    obtain ⟨status, -, same⟩ := Option.map_eq_some_iff.1 acted
    cases same
    exact ⟨rfl, rfl⟩
  | insertStatus id status details =>
    obtain ⟨-, db', -, rfl⟩ := of_withDb acted
    exact ⟨rfl, rfl⟩
  | insertCard id card =>
    obtain ⟨-, db', -, rfl⟩ := of_withDb acted
    exact ⟨rfl, rfl⟩
  | deleteStatuses a =>
    obtain ⟨-, db', -, rfl⟩ := of_withDb acted
    exact ⟨rfl, rfl⟩
  | deleteCards a =>
    obtain ⟨-, db', -, rfl⟩ := of_withDb acted
    exact ⟨rfl, rfl⟩
  | deleteOrders a =>
    obtain ⟨-, db', -, rfl⟩ := of_withDb acted
    exact ⟨rfl, rfl⟩
  | _ =>
    cases acted
    exact ⟨rfl, rfl⟩

variable [DecidableEq ι]

/-- A command that leaves its program where it is leaves every program where it is. -/
theorem position_update (same : l'.position = (privs i).position) (j : Party ι) :
    (Function.update privs i l' j).position = (privs j).position := by
  by_cases here : j = i
  · rw [here, Function.update_self, same]
  · rw [Function.update_of_ne here]

theorem Handing.of_unmoved {g : World} (same : l'.position = (privs i).position)
    (handing : Handing o (privs .manufacture).position (privs .courier).position g) :
    Handing o (Function.update privs i l' .manufacture).position
      (Function.update privs i l' .courier).position g := by
  rw [position_update same, position_update same]
  exact handing

omit [DecidableEq ι] in
theorem manufacture_ne_courier : (.manufacture : Party ι) ≠ .courier := nofun

/-- The steps on the manufacturer's list keep the processes apart. -/
theorem Handing.manufactureAct {command : ListCommand ManufactureProcess} {reply : command.Reply}
    {list : SyncList ManufactureProcess} {reliable : Prop}
    (handing : Handing o (privs .manufacture).position (privs .courier).position g)
    (guarded : manufactureGuard reliable o i command (privs i))
    (prompt : Prompt o i false (.manufacture command) (privs i) g)
    (acted : command.act g.manufacture = some (reply, list)) :
    Handing o (Function.update privs i ((privs i).sawManufacture command reply).tick .manufacture).position
      (Function.update privs i ((privs i).sawManufacture command reply).tick .courier).position
      { g with manufacture := list } := by
  have other := manufacture_ne_courier (ι := ι)
  cases command with
  | add process =>
    cases acted
    exact (handing.add prompt).of_unmoved rfl
  | iterator =>
    cases acted
    obtain rfl := guarded
    rw [Function.update_self, Function.update_of_ne other.symm]
    exact handing.iterator prompt
  | next cursor modCount =>
    obtain ⟨rfl, rfl, -⟩ := guarded
    obtain ⟨found, isFound, same⟩ := Option.map_eq_some_iff.mp acted
    cases same
    rw [Function.update_self, Function.update_of_ne other.symm]
    cases reply with
    | none => exact handing.ended
    | some found => exact handing.next isFound
  | set ref process =>
    cases acted
    obtain ⟨rfl, -, old, making, same, -⟩ := guarded
    rw [Function.update_self, Function.update_of_ne other.symm]
    exact handing.set making same
  | remove ref =>
    cases acted
    exact (handing.remove ref).of_unmoved rfl

/-- So do the steps on the courier's list. -/
theorem Handing.courierAct {command : ListCommand CourierProcess} {reply : command.Reply}
    {list : SyncList CourierProcess} {reliable : Prop}
    (handing : Handing o (privs .manufacture).position (privs .courier).position g)
    (guarded : courierGuard reliable o i command (privs i))
    (acted : command.act g.courier = some (reply, list)) :
    Handing o (Function.update privs i ((privs i).sawCourier command reply).tick .manufacture).position
      (Function.update privs i ((privs i).sawCourier command reply).tick .courier).position
      { g with courier := list } := by
  have other := manufacture_ne_courier (ι := ι)
  cases command with
  | add process =>
    cases acted
    obtain ⟨rfl, -, ref, made, making, -, notYet, rfl⟩ := guarded
    rw [Function.update_self, Function.update_of_ne other.symm]
    exact handing.handOver making notYet rfl
  | iterator =>
    cases acted
    obtain rfl := guarded
    rw [Function.update_self, Function.update_of_ne other]
    refine handing.courier rfl fun ref p absent => ?_
    cases absent
  | next cursor modCount =>
    obtain rfl := guarded
    obtain ⟨found, isFound, same⟩ := Option.map_eq_some_iff.mp acted
    cases same
    rw [Function.update_self, Function.update_of_ne other]
    refine handing.courier rfl fun ref p here => ?_
    obtain rfl : reply = some (ref, p) := here
    exact (SyncList.next_eq_some isFound).2.2
  | set ref process =>
    cases acted
    obtain ⟨rfl, -, old, carrying, same, -⟩ := guarded
    have isObject := handing.carrying ref old carrying
    rw [Function.update_self, Function.update_of_ne other]
    refine handing.courier (SyncList.map_set_of_eq _ isObject same) fun ref' p here => ?_
    cases here
    obtain ⟨bound, -⟩ := List.getElem?_eq_some_iff.mp isObject
    exact List.getElem?_set_self bound
  | remove ref =>
    cases acted
    refine (handing.courier ?_ ?_).of_unmoved rfl
    · rw [SyncList.objects_remove]
      rfl
    · rw [SyncList.objects_remove]
      exact handing.carrying

/-- The commands of every party, by its duties, keep the processes apart. -/
theorem Handing.act {reliable : Prop}
    (handing : Handing o (privs .manufacture).position (privs .courier).position g)
    (guarded : (duties reliable o i).guard c (privs i)) (prompt : Prompt o i false c (privs i) g)
    (acted : Cards.act c (privs i) g = some (reply, l', g')) :
    Handing o (Function.update privs i l' .manufacture).position
      (Function.update privs i l' .courier).position g' := by
  have offList : c.OffList → Handing o (Function.update privs i l' .manufacture).position
      (Function.update privs i l' .courier).position g' := by
    intro off
    obtain ⟨manufacture, courier⟩ := lists_act off acted
    refine Handing.of_unmoved (position_act off acted) ?_
    obtain ⟨valid, distinct, once, source, making, carrying, waits, passed⟩ := handing
    have made : g'.made = g.made := by rw [World.made, manufacture, World.made]
    have handed : g'.handed = g.handed := by rw [World.handed, courier, World.handed]
    exact ⟨manufacture ▸ valid, made ▸ distinct, handed ▸ once,
      by rw [made, handed]; exact source, by rw [manufacture]; exact making,
      by rw [courier]; exact carrying, by rw [handed]; exact waits,
      by rw [manufacture, made, handed]; exact passed⟩
  cases c with
  | manufacture command =>
    obtain ⟨⟨reply', list⟩, stepped, same⟩ := Option.map_eq_some_iff.mp acted
    cases same
    exact handing.manufactureAct guarded prompt stepped
  | courier command =>
    obtain ⟨⟨reply', list⟩, stepped, same⟩ := Option.map_eq_some_iff.mp acted
    cases same
    exact handing.courierAct guarded stepped
  | _ => exact offList trivial

/-- Before the first request. -/
theorem Handing.start (noProcess : g.manufacture = {} ∧ g.courier = {}) {x y : Position}
    (making : x.making = none) (carrying : y.carrying = none) : Handing o x y g := by
  obtain ⟨manufacture, courier⟩ := noProcess
  have made : g.made = [] := by
    rw [World.made, manufacture]
    rfl
  have handed : g.handed = [] := by
    rw [World.handed, courier]
    rfl
  constructor
  · rw [manufacture]
    exact SyncList.Valid.empty
  · rw [made]
    exact Nat.zero_le 1
  · rw [handed]
    exact Nat.zero_le 1
  · rw [handed]
    exact fun mem => absurd mem List.not_mem_nil
  · intro ref p here
    rw [making] at here
    cases here
  · intro ref p here
    rw [carrying] at here
    cases here
  · intro ref p here
    rw [making] at here
    cases here
  · intro ref listed
    rw [manufacture] at listed
    cases listed

end Runs

/-- As long as the manufacturer is asked for the card of an order once, and begins its passes
with no process of the order on its list that it has handed over, the order has one process of
the courier at most, whatever else is refused or lost. -/
theorem cards_handed_over_once {ι : Type} [DecidableEq ι] (requests : ι → Request)
    (rounds : Party ι → Nat) (chances : Party ι → Nat → Chance) (g : World)
    (noProcess : g.manufacture = {} ∧ g.courier = {}) (schedule : List (Party ι × Bool))
    (id : OrderId)
    (prompt : (start requests rounds chances g).Respects machine (Prompt id) schedule) :
    let s := (start requests rounds chances g).run machine schedule
    s.shared.courier.objects.countP (fun p => p.creditCardOrderId = id) ≤ 1 := by
  intro s
  have handing : Handing id (s.privs .manufacture).position (s.privs .courier).position s.shared :=
    invariant_of_duties (o := id) (fun off : False => off.elim)
      (fun privs g => Handing id (privs .manufacture).position (privs .courier).position g)
      (fun _ _ _ _ off => off.elim) (fun _ _ _ _ _ _ _ _ _ off => off.elim)
      (fun privs g i c reply l' g' guarded prompt handing acted =>
        handing.act guarded prompt acted)
      (Handing.start noProcess rfl rfl) prompt
  have once := handing.once
  rw [World.handed, List.count, List.countP_map] at once
  refine le_trans (Nat.le_of_eq (List.countP_congr fun p _ => ?_)) once
  simp

/-- Two orders asked for by clients; the numbers drawn let every card be made. -/
def twoAsked : Parties Bool :=
  start (fun b => .issueCreditCard (some ⟨if b then "b" else "a", "Jo", "gold"⟩))
    (fun i => if i = .manufacture then 3 else 0) (fun _ _ => { random := 50 }) emptyWorld

/-- Three whole passes, the second order asked for after the first card has been handed over. -/
theorem cards_handed_over_once_in_turn :
    ((twoAsked.run machine (turns (.client false) 1 ++ turns .manufacture 19 ++
      turns (.client true) 1 ++ turns .manufacture 14)).shared.courier.objects.countP
        fun p => p.creditCardOrderId = "a") ≤ 1 :=
  cards_handed_over_once _ _ _ _ ⟨rfl, rfl⟩ _ "a" (by decide +kernel)

/-- The card of the first order is made in the first pass and handed over in the second, which
the lost report of the second card breaks off. The third pass hands the first card over again. -/
theorem card_handed_over_twice :
    ((twoAsked.run machine (turns (.client false) 1 ++ turns .manufacture 14 ++
      turns (.client true) 1 ++ turns .manufacture 12 ++ [(.manufacture, true)] ++
      turns .manufacture 4)).shared.courier.objects.countP fun p => p.creditCardOrderId = "a") =
        2 := by decide +kernel

end EasyTrade.Cards
