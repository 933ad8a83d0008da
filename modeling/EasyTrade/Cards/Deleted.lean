import EasyTrade.Cards.Handover

/-!
# Deleted orders

An order that has been deleted does not come back. Its identifier is not drawn again, and a late
report about it, of the manufacturer or the courier, meets no order it could refer to. The
courier finds no address for it either, so a card that it has not sent by then stays where it
is (`deleted_order_is_over`).
-/

namespace EasyTrade.Cards

open EasyTrade.Logic EasyTrade.Logic.Program EasyTrade.Store

variable {o : OrderId} {l l' : Private} {g g' : World} {c : Command} {reply : Reply c}

/-! ## The tables -/

/-- No row is about the order. -/
structure Database.Forgets (db : Database) (o : OrderId) : Prop where
  /-- It is not in `CreditCardOrders`. -/
  order : o ∉ db.orderIds
  /-- Nor in `CreditCardOrderStatus`. -/
  statuses : db.statusesOf o = []
  /-- Nor in `CreditCards`. -/
  cards : db.cardsOf o = []

/-- There is no such order, and there will be none. -/
structure World.Gone (g : World) (o : OrderId) : Prop where
  /-- It is not stored. -/
  order : o ∉ g.db.orderIds
  /-- Its identifier is not drawn any more. -/
  ids : ∀ n, g.drawn ≤ n → g.uuids n ≠ o

/-- Rows refer to orders that are stored. -/
theorem World.Valid.forgets (valid : g.Valid) (gone : g.Gone o) : g.db.Forgets o where
  order := gone.order
  statuses := by
    refine List.eq_nil_iff_forall_not_mem.mpr fun s mem => gone.order ?_
    obtain ⟨stored, rfl⟩ := Database.mem_statusesOf.mp mem
    exact valid.db.statusOrder s stored
  cards := by
    refine List.eq_nil_iff_forall_not_mem.mpr fun card mem => gone.order ?_
    obtain ⟨stored, rfl⟩ := Database.mem_cardsOf.mp mem
    exact valid.db.cardOrder card stored

/-- The identifiers after a command are old ones, or the next of the sequence. -/
theorem mem_orderIds_act (acted : act c l g = some (reply, l', g')) (mem : o ∈ g'.db.orderIds) :
    o ∈ g.db.orderIds ∨ o = g.uuids g.drawn := by
  rw [Database.orderIds, (tables_act acted).1] at mem
  cases c with
  | insertOrder request =>
    rw [ordersAfter, List.map_append] at mem
    rcases List.mem_append.mp mem with old | new
    · exact .inl old
    · exact .inr (List.mem_singleton.mp new)
  | updateOrder id shippingId =>
    have same : (g.db.updateOrder id shippingId).orderIds = g.db.orderIds :=
      Database.orderIds_updateOrder shippingId
    exact .inl (same ▸ mem)
  | deleteOrders a => exact .inl (List.map_subset _ (List.filter_subset_self _) mem)
  | _ => exact .inl mem

/-- An identifier that is not drawn any more is not drawn later. -/
theorem undrawn_act (old : ∀ n, g.drawn ≤ n → g.uuids n ≠ o)
    (acted : act c l g = some (reply, l', g')) : ∀ n, g'.drawn ≤ n → g'.uuids n ≠ o := by
  obtain ⟨sameIds, later, -⟩ := drawn_act acted
  intro n undrawn
  rw [sameIds]
  exact old n (by omega)

/-- What is gone stays gone. -/
theorem World.Gone.act (gone : g.Gone o) (acted : act c l g = some (reply, l', g')) :
    g'.Gone o := by
  refine ⟨fun mem => ?_, undrawn_act gone.ids acted⟩
  rcases mem_orderIds_act acted mem with old | new
  · exact gone.order old
  · exact gone.ids g.drawn (Nat.le_refl _) new.symm

/-! ## The courier -/

/-- The courier's step that sends a card of the order. -/
def Command.Sends (o : OrderId) : Command → Prop
  | .courier (.set _ process) => process.creditCardOrderId = o ∧ process.status = .cardSent
  | _ => False

/-- When the order is gone, the courier does not send its card. -/
def resting {ι : Type} (o : OrderId) (i : Party ι) : Terms Command Failure Private World where
  assume _ g := g.Gone o
  guard c _ := i = .courier → ¬c.Sends o
  abort _ _ := True
  refusable _ _ := True

section Terms

variable {ι : Type} {i : Party ι} {α : Type}

theorem keeps_of_only {p : Task α} (only : p.Only fun c => ¬c.Sends o) :
    Keeps machine (resting o i) p (fun _ _ => True) l :=
  only.keeps (fun _ => True) (fun _ _ idle _ _ => idle) (fun _ _ _ _ _ _ _ _ _ => trivial)
    (fun _ _ _ => trivial) trivial

/-- Nobody else has a part in it. -/
theorem keeps_of_other (other : i ≠ .courier) (p : Task α) :
    Keeps machine (resting o i) p (fun _ _ => True) l :=
  (only_of_forall (fun _ => trivial) p : p.Only fun _ => True).keeps (fun _ => True)
    (fun _ _ _ _ same => absurd same other) (fun _ _ _ _ _ _ _ _ _ => trivial)
    (fun _ _ _ => trivial) trivial

/-- What the handler answers, and what stands in for an answer, a call answers. -/
theorem keeps_answers {t : Terms Command Failure Private World} {handler : Task StandardResponse}
    (answers : StandardResponse → Prop) (free : Terms.CallsFree t) (aborts : ∀ e l, t.abort e l)
    (unavailable : answers { statusCode := 503, message := "Service Unavailable" })
    (handled : ∀ l, Keeps machine (aborting t fun _ => True) handler
      (fun response _ => answers response) l) :
    Keeps machine t (exchange handler) (fun response _ => answers response) l := by
  have onTheWay : ∀ l, Keeps machine t undelivered (fun response _ => answers response) l := by
    intro l
    rw [undelivered, keeps_bind]
    refine keeps_perform (free.onTheWay l) (fun _ => aborts _ _) fun g reply l' g' _ _ => ?_
    split
    · exact unavailable
    · exact aborts _ _
  have answered : ∀ l, Keeps machine t (answerOf handler)
      (fun answer _ => ∀ response, answer = some response → answers response) l := by
    intro l
    refine keeps_tryCatch ?_
    rw [keeps_bind]
    refine ((handled l).mono_abort fun _ l _ => ?_).mono fun response l holds => ?_
    · refine keeps_pure.mpr fun r same => ?_
      cases same
    · refine keeps_pure.mpr fun r same => ?_
      cases same
      exact holds
  rw [exchange, keeps_bind]
  refine keeps_tryCatch ?_
  rw [keeps_bind]
  refine keeps_perform (free.request l) (fun _ => onTheWay l) fun g reply l' g' _ _ => ?_
  rw [keeps_pure, if_pos rfl, keeps_bind]
  refine (answered l').mono fun answer l holds => ?_
  unfold readAnswer
  rw [keeps_bind]
  refine keeps_perform (free.answer l) (fun _ => aborts _ _) fun g reply l' g' _ _ => ?_
  cases answer with
  | none => exact aborts _ _
  | some response => exact holds response rfl

/-- The address of an order that is gone is not found. -/
theorem keeps_noAddress :
    Keeps machine (aborting (resting o (.courier : Party ι)) fun _ => True)
      (getShippingAddress o) (fun address _ => address = none) l := by
  refine keeps_tryCatch ?_
  rw [keeps_bind]
  refine (keeps_answers (fun response => response.statusCode ≠ 200)
    ⟨fun _ _ => id, fun _ _ => id, fun _ _ => id⟩ (fun _ _ => trivial) (by decide)
    fun l => ?_).mono fun response l notFound => ?_
  · refine keeps_tryCatch ?_
    rw [keeps_bind]
    refine keeps_perform (fun _ => id) (fun _ => show 500 ≠ 200 by decide)
      fun g address l' g' gone acted => ?_
    cases acted
    have absent : g.db.shippingAddress o = none := by
      refine Option.map_eq_none_iff.mpr (List.find?_eq_none.mpr fun row stored same => ?_)
      exact gone.order (List.mem_map.mpr ⟨row, stored, by simpa using same⟩)
    simp only [absent]
    exact show 404 ≠ 200 by decide
  · rw [if_neg notFound]
    rfl

/-- A report sends nothing. -/
theorem only_report (status : StatusType) (orderId : OrderId) (details : Option Details) :
    (updateStatus status orderId details).Only fun c => ¬c.Sends o := by
  refine only_tryCatch (only_bind (only_exchange ⟨id, id, id⟩ ?_) fun _ => trivial) fun _ => trivial
  refine (only_handleNewStatus _ _).mono fun c updates => ?_
  cases c with
  | courier command => exact updates.elim
  | _ => exact id

/-- Another card may be sent. -/
theorem only_processNewCardReceivedStatus (ref : Nat) {process : CourierProcess}
    (other : process.creditCardOrderId ≠ o) :
    (CourierScheduler.processNewCardReceivedStatus ref process).Only fun c => ¬c.Sends o := by
  have asks : (getShippingAddress process.creditCardOrderId).Only fun c => ¬c.Sends o := by
    refine only_tryCatch (only_bind (only_exchange ⟨id, id, id⟩ ?_) fun response => ?_)
      fun _ => trivial
    · refine (only_getShippingAddress _).mono fun c reads => ?_
      cases c with
      | courier command => exact reads.elim
      | _ => exact id
    · split
      · split <;> trivial
      · trivial
  refine only_bind asks fun address => ?_
  cases address with
  | none => trivial
  | some address =>
    refine only_bind (only_perform id) fun guid => only_bind (only_perform ?_) fun _ => ?_
    · exact fun sends => other sends.1
    · exact only_report ..

/-- A card that has been sent may be delivered. -/
theorem only_processCardSentStatus (ref : Nat) (process : CourierProcess) :
    (CourierScheduler.processCardSentStatus ref process).Only fun c => ¬c.Sends o :=
  only_bind (only_perform fun sends => absurd sends.2 nofun) fun _ => only_report ..

/-- One process of a pass. -/
theorem keeps_visit (ref : Nat) (process : CourierProcess) :
    Keeps machine (aborting (resting o (.courier : Party ι)) fun _ => True)
      (CourierScheduler.visit ref process) (fun _ _ => True) l := by
  unfold CourierScheduler.visit
  cases process.status with
  | newCardReceived =>
    rw [keeps_bind]
    by_cases own : process.creditCardOrderId = o
    · rw [CourierScheduler.processNewCardReceivedStatus, own, keeps_bind]
      refine keeps_noAddress.mono fun address l none => ?_
      rw [none]
      trivial
    · exact (keeps_of_only (only_processNewCardReceivedStatus ref own)).mono fun _ _ _ => trivial
  | cardSent =>
    rw [keeps_bind]
    exact (keeps_of_only (only_processCardSentStatus ref process)).mono fun _ _ _ => trivial
  | cardDelivered => trivial

/-- Every party keeps the terms. -/
theorem program_resting (requests : ι → Request) (rounds : Party ι → Nat) (i : Party ι) :
    Keeps machine (resting o i) (program requests rounds i) (fun _ _ => True) l := by
  by_cases courier : i = .courier
  · subst courier
    rw [program, keeps_bind]
    refine keeps_passes (P := fun _ => True) (fun _ _ => ?_) _ trivial
    rw [courierRun_eq]
    refine keeps_walkingPass (fun _ => ?_) (fun _ _ => ?_) fun cursor modCount l => ?_
    · exact keeps_of_only (only_perform id)
    · exact keeps_of_only (only_perform id)
    · exact keeps_perform (fun _ => id) (fun _ => trivial) fun _ _ _ _ _ _ ref process _ =>
        keeps_visit ref process
  · exact keeps_of_other courier _

end Terms

/-! ## Runs -/

/-- Every process of the order that the courier has advanced, it had advanced before. -/
def SentNoMore (o : OrderId) (before now : SyncList CourierProcess) : Prop :=
  ∀ (ref : Nat) (process : CourierProcess), now.objects[ref]? = some process →
    process.creditCardOrderId = o → process.status ≠ .newCardReceived →
      ∃ old, before.objects[ref]? = some old ∧ old.creditCardOrderId = o ∧
        old.status ≠ .newCardReceived

/-- What the courier's steps keep when the order is gone. -/
structure Resting (o : OrderId) (before : SyncList CourierProcess) (x : Position)
    (now : SyncList CourierProcess) : Prop where
  /-- The process the courier is at is one of its own, as it is now. -/
  carrying : ∀ ref process, x.carrying = some (ref, process) → now.objects[ref]? = some process
  sent : SentNoMore o before now

section Runs

variable {ι : Type} [DecidableEq ι] {privs : Party ι → Private} {i : Party ι}
  {before : SyncList CourierProcess}

/-- A step on the courier's list, by the duties of whoever takes it. -/
theorem Resting.act {command : ListCommand CourierProcess} {reply : command.Reply}
    {now list : SyncList CourierProcess} (rests : Resting o before (privs .courier).position now)
    (duty : courierGuard False o i command (privs i))
    (idle : i = .courier → ¬Command.Sends o (.courier command))
    (acted : command.act now = some (reply, list)) :
    Resting o before
      (Function.update privs i ((privs i).sawCourier command reply).tick .courier).position list := by
  cases command with
  | add process =>
    cases acted
    obtain ⟨rfl, -, ref, made, -, -, -, rfl⟩ := duty
    rw [Function.update_of_ne manufacture_ne_courier.symm]
    refine ⟨fun ref process here => ?_, fun ref process isProcess own advanced => ?_⟩
    · have old := rests.carrying ref process here
      obtain ⟨bound, -⟩ := List.getElem?_eq_some_iff.mp old
      exact (List.getElem?_append_left bound).trans old
    · rw [SyncList.objects_add, List.getElem?_append] at isProcess
      split at isProcess
      · exact rests.sent ref process isProcess own advanced
      · rw [List.mem_singleton.mp (List.mem_of_getElem? isProcess)] at advanced
        exact absurd rfl advanced
  | iterator =>
    cases acted
    obtain rfl := duty
    rw [Function.update_self]
    exact ⟨nofun, rests.sent⟩
  | next cursor modCount =>
    obtain rfl := duty
    obtain ⟨found, isFound, same⟩ := Option.map_eq_some_iff.mp acted
    cases same
    rw [Function.update_self]
    refine ⟨fun ref process here => ?_, rests.sent⟩
    obtain rfl : reply = some (ref, process) := here
    exact (SyncList.next_eq_some isFound).2.2
  | set ref process =>
    cases acted
    obtain ⟨rfl, -, old, here, same, advance⟩ := duty
    have isObject := rests.carrying ref old here
    obtain ⟨bound, -⟩ := List.getElem?_eq_some_iff.mp isObject
    rw [Function.update_self]
    refine ⟨fun ref' process' here' => ?_, fun ref' process' isProcess own advanced => ?_⟩
    · cases here'
      exact List.getElem?_set_self bound
    · by_cases there : ref = ref'
      · subst there
        obtain rfl : process = process' :=
          Option.some.inj ((List.getElem?_set_self bound).symm.trans isProcess)
        rcases advance with ⟨-, sends, -⟩ | ⟨wasSent, -, -⟩
        · exact absurd ⟨own, sends⟩ (idle rfl)
        · exact rests.sent ref old isObject (same.symm.trans own) (by rw [wasSent]; nofun)
      · rw [SyncList.objects_set, List.getElem?_set_ne there] at isProcess
        exact rests.sent ref' process' isProcess own advanced
  | remove ref =>
    cases acted
    have there : ((privs i).sawCourier (.remove ref) ()).tick.position = (privs i).position := rfl
    rw [position_update there]
    refine ⟨fun r process here => ?_, fun r process isProcess => rests.sent r process ?_⟩
    · rw [SyncList.objects_remove]
      exact rests.carrying r process here
    · rwa [SyncList.objects_remove] at isProcess

/-- When the order is gone every turn leaves it gone, and its cards where they are. -/
theorem gone_turn {c : Command} {reply : Reply c} (gone : g.Gone o)
    (rests : Resting o before (privs .courier).position g.courier)
    (duty : (duties False o i).guard c (privs i)) (idle : (resting o i).guard c (privs i))
    (acted : act c (privs i) g = some (reply, l', g')) :
    g'.Gone o ∧ Resting o before (Function.update privs i l' .courier).position g'.courier := by
  refine ⟨gone.act acted, ?_⟩
  have offList : c.OffList →
      Resting o before (Function.update privs i l' .courier).position g'.courier := by
    intro off
    rw [position_update (position_act off acted), (lists_act off acted).2]
    exact rests
  cases c with
  | manufacture command =>
    obtain ⟨⟨reply', list⟩, -, same⟩ := Option.map_eq_some_iff.mp acted
    cases same
    refine ⟨fun ref process here => rests.carrying ref process ?_, rests.sent⟩
    by_cases own : .courier = i
    · subst own
      rw [Function.update_self] at here
      cases command with
      | next cursor modCount => cases reply' <;> exact here
      | _ => exact here
    · rwa [Function.update_of_ne own] at here
  | courier command =>
    obtain ⟨⟨reply', list⟩, stepped, same⟩ := Option.map_eq_some_iff.mp acted
    cases same
    exact rests.act duty idle stepped
  | _ => exact offList trivial

theorem valid_run (schedule : List (Party ι × Bool)) {s : Parties ι} (valid : s.shared.Valid) :
    (s.run machine schedule).shared.Valid :=
  System.run_shared World.Valid (fun _ _ _ _ _ _ => act_valid) schedule valid

/-- From a world without the order, no row about it is written and no card of it is sent. -/
theorem gone_stays_gone (requests : ι → Request) (rounds : Party ι → Nat)
    (chances : Party ι → Nat → Chance) (valid : g.Valid) (gone : g.Gone o)
    (schedule : List (Party ι × Bool)) :
    let now := ((start requests rounds chances g).run machine schedule).shared
    now.db.Forgets o ∧ SentNoMore o g.courier now.courier := by
  have first : Resting o g.courier (({ chances := chances .courier } : Private)).position g.courier :=
    ⟨nofun, fun ref process isProcess own advanced => ⟨process, isProcess, own, advanced⟩⟩
  have free : (start requests rounds chances g).Respects machine (fun _ _ _ _ _ => True) schedule :=
    System.Respects.of_forall (fun _ _ _ _ _ => trivial) _ _
  have kept := (System.run_terms (t := fun i => (duties False o i).both (resting o i))
    (fun privs g => g.Gone o ∧ Resting o _ (privs .courier).position g.courier)
    (fun _ _ held _ => ⟨nofun, held.1⟩) (fun _ _ _ _ _ _ _ _ _ => ⟨nofun, trivial⟩)
    (fun _ _ _ _ _ _ _ guarded _ held acted => gone_turn held.1 held.2 guarded.1 guarded.2 acted)
    schedule (fun i => (program_duties nofun i nofun).both (program_resting requests rounds i))
    ⟨gone, first⟩ free).1
  exact ⟨(valid_run schedule (s := start requests rounds chances g) valid).forgets kept.1,
    kept.2.sent⟩

/-- A deleted order is over. No row about it is ever written again in the same run, and in any
run that begins after the deletion the courier sends no card of it. -/
theorem deleted_order_is_over (requests : ι → Request) (rounds : Party ι → Nat)
    (chances : Party ι → Nat → Chance) (g : World) (valid : g.Valid) (o : OrderId)
    (first second : List (Party ι × Bool))
    (stored : o ∈ ((start requests rounds chances g).run machine first).shared.db.orderIds)
    (deleted :
      o ∉ ((start requests rounds chances g).run machine (first ++ second)).shared.db.orderIds) :
    let s := (start requests rounds chances g).run machine (first ++ second)
    (∀ third, (s.run machine third).shared.db.Forgets o) ∧
      ∀ requests rounds chances schedule,
        let now := ((start (ι := ι) requests rounds chances s.shared).run machine schedule).shared
        now.db.Forgets o ∧ SentNoMore o s.shared.courier now.courier := by
  have known := valid_run first (s := start requests rounds chances g) valid
  have gone : World.Gone ((start requests rounds chances g).run machine (first ++ second)).shared o := by
    refine ⟨deleted, ?_⟩
    rw [System.run_append]
    exact System.run_shared (fun g : World => ∀ n, g.drawn ≤ n → g.uuids n ≠ o)
      (fun _ _ _ _ _ _ => undrawn_act) second fun n undrawn same => known.fresh n undrawn (same ▸ stored)
  have stillValid := valid_run (first ++ second) (s := start requests rounds chances g) valid
  refine ⟨fun third => ?_, fun requests rounds chances schedule =>
    gone_stays_gone requests rounds chances stillValid gone schedule⟩
  exact (valid_run third stillValid).forgets
    (System.run_shared (fun g : World => g.Gone o) (fun _ _ _ _ _ _ => World.Gone.act) third gone)

end Runs

/-- One client orders a card and the other deletes the order. -/
def orderAndDelete : Bool → Request
  | false => .createCreditCardOrder sampleOrder
  | true => .deleteOrder 1

/-- The schedulers have time for two passes, and the manufacturer makes the card in the first. -/
def deleting (g : World) : Parties Bool :=
  start orderAndDelete (fun _ => 2) (fun _ _ => { random := 50 }) g

/-- The courier has the card when the order is deleted. -/
def lateDeletion : List (Party Bool × Bool) :=
  turns (.client false) 3 ++ turns .work 6 ++ turns .manufacture 22

theorem deleted_order_is_over_of_lateDeletion :
    let s := (deleting emptyWorld).run machine (lateDeletion ++ turns (.client true) 3)
    let now := ((deleting s.shared).run machine (turns .courier 8)).shared
    (s.run machine (turns .courier 8)).shared.db.Forgets "u" ∧ now.db.Forgets "u" ∧
      SentNoMore "u" s.shared.courier now.courier := by
  have ended := deleted_order_is_over orderAndDelete (fun _ => 2) (fun _ _ => { random := 50 })
    emptyWorld emptyWorld_valid "u" lateDeletion (turns (.client true) 3) (by decide +kernel)
    (by decide +kernel)
  unfold deleting
  exact ⟨ended.1 (turns .courier 8), ended.2 orderAndDelete (fun _ => 2)
    (fun _ _ => { random := 50 }) (turns .courier 8)⟩

/-- The courier never lets go of it. -/
example :
    let s := (deleting emptyWorld).run machine (lateDeletion ++ turns (.client true) 3)
    let now := ((deleting s.shared).run machine (turns .courier 8)).shared
    now.courier.listed = [0] ∧ now.courier.objects = [{ creditCardOrderId := "u" }] := by
  decide +kernel

end EasyTrade.Cards
