import EasyTrade.Cards.Standing

/-!
# From the order to the delivery, in the end

An order that has been placed needs five passes: one of the work scheduler, two of the
manufacturer's, of which the first makes the card, and two of the courier's. Every pass that runs
alone, with nothing refused, leaves an order where it stands or takes it one step further. So an
order is delivered, with one card, once the five passes have been made in their order, whatever
other passes are made in between and whatever is done to other orders (`placed_order_delivered`).
-/

namespace EasyTrade.Cards

open EasyTrade.Logic EasyTrade.Logic.Program EasyTrade.Store

/-! ## Passes in turn -/

/-- The schedulers. -/
inductive Scheduler where
  | work
  | manufacture
  | courier
  deriving DecidableEq

/-- A pass of a scheduler, and what its commands find. -/
structure Pass where
  /-- Whose pass it is. -/
  scheduler : Scheduler
  /-- What its commands find, one after the other. -/
  chances : Nat → Chance

/-- The program of a pass. -/
def Pass.run (a : Pass) : Task Unit :=
  match a.scheduler with
  | .work => WorkScheduler.run
  | .manufacture => ManufactureScheduler.run
  | .courier => CourierScheduler.run

/-- The world after a pass that runs alone, with nothing refused. -/
def Pass.after (a : Pass) (g : World) : World :=
  (exec machine a.run (fun _ => false) { chances := a.chances } g).2.2

/-- The next milestone. -/
def Milestone.next : Milestone → Milestone
  | .placed => .ordered
  | .ordered => .made
  | .made => .handed
  | .handed => .sent
  | .sent | .delivered => .delivered

/-- The passes that take an order from a milestone to the next one. -/
def Milestone.Serves : Milestone → Pass → Prop
  | .placed, a => a.scheduler = .work
  | .ordered, a => a.scheduler = .manufacture ∧ Favourable a.chances
  | .made, a => a.scheduler = .manufacture
  | .handed, a | .sent, a => a.scheduler = .courier
  | .delivered, _ => False

/-- The order is that far, in a valid world. -/
def World.Stands (g : World) (o : OrderId) (m : Milestone) : Prop :=
  g.Valid ∧ (g.standing o [] []).At m

section Turns

variable {o : OrderId} {g g' g'' : World} {a : Pass} {m : Milestone}

/-- What a pass brings about. -/
theorem Goes.after (post : World → Prop) (h : Goes a.chances a.run (fun _ => post) g) :
    post (a.after g) := by
  have ends := h { chances := a.chances } rfl
  unfold Leads at ends
  unfold Pass.after
  generalize exec machine a.run (fun _ => false) { chances := a.chances } g = r at ends ⊢
  obtain ⟨⟨e⟩ | ⟨u⟩, l, g'⟩ := r
  · exact ends.elim
  · exact ends.2

/-- An order that has been seen to is not seen to again. -/
theorem not_mem_currentStatuses (valid : g.Valid) {status : StatusType}
    (latest : Latest (g.db.statusesOf o) status) (other : status ≠ .orderCreated) :
    (o, .orderCreated) ∉ g.db.currentStatuses := by
  intro mem
  obtain ⟨x, newest, isCreated⟩ := Database.mem_currentStatuses.mp mem
  obtain ⟨y, isStatus, newer, isOther⟩ := latest
  rw [valid.db.newest_unique newest ⟨isStatus, newer⟩, isOther] at isCreated
  exact other isCreated

/-- An order past its first milestone has been seen to. -/
theorem Standing.At.latest {v : Standing} (stands : v.At m) (past : m ≠ .placed) :
    ∃ status, Latest v.rows.statuses status ∧ status ≠ .orderCreated := by
  cases m with
  | placed => exact absurd rfl past
  | ordered => exact stands.2.2.2.1
  | made => exact stands.2.2.2.1
  | handed => exact stands.2.2.2.1
  | sent => exact stands.2.2.2.1.1
  | delivered => exact ⟨_, stands.2.2.2.1, nofun⟩

/-- A pass of the work scheduler takes an order that has been placed further. -/
theorem stands_work (isWork : a.scheduler = .work) (stands : g.Stands o m) :
    (a.after g).Stands o m ∧ ¬m.Serves a ∨ (a.after g).Stands o m.next := by
  obtain ⟨valid, stands⟩ := stands
  have runs : a.run = WorkScheduler.run := by rw [Pass.run, isWork]
  by_cases placed : m = .placed
  · subst placed
    exact .inr (Goes.after _ (runs ▸ goes_workRun (Standing.At · .ordered) valid
      (.inl ⟨stands, rfl⟩)))
  · obtain ⟨status, latest, other⟩ := stands.latest placed
    refine .inl ⟨Goes.after _ (runs ▸ goes_workRun (Standing.At · m) valid
      (.inr ⟨not_mem_currentStatuses valid latest other, stands⟩)), ?_⟩
    cases m <;> simp_all [Milestone.Serves]

/-- A pass of the manufacturer's makes the card of an order, or hands it over. -/
theorem stands_manufacture (isManufacture : a.scheduler = .manufacture) (stands : g.Stands o m) :
    (a.after g).Stands o m ∧ ¬m.Serves a ∨ (a.after g).Stands o m.next := by
  obtain ⟨valid, stands⟩ := stands
  have runs : a.run = ManufactureScheduler.run := by rw [Pass.run, isManufacture]
  have stays : (g.standing o [] []).making = [] → (a.after g).Stands o m := fun none =>
    Goes.after _ (runs ▸ goes_manufactureRun (fun _ => False) (Standing.At · m) valid
      (.inr ⟨none, stands⟩) fun _ _ _ _ _ _ impossible => impossible.elim)
  cases m with
  | ordered =>
    obtain ⟨ref, p, once, -⟩ := stands.1
    have ran := Goes.after _ (runs ▸ goes_manufactureRun (Standing.At · .ordered)
      (fun v => v.At .made ∨ ¬Favourable a.chances ∧ v.At .ordered) valid
      (.inl ⟨ref, p, once, stands⟩) fun _ _ _ _ => goes_visitOrdered)
    rcases ran with ⟨valid', made | ⟨unlucky, ordered⟩⟩
    · exact .inr ⟨valid', made⟩
    · exact .inl ⟨⟨valid', ordered⟩, fun serves => unlucky serves.2⟩
  | made =>
    obtain ⟨ref, p, once, -⟩ := stands.1
    exact .inr (Goes.after _ (runs ▸ goes_manufactureRun (Standing.At · .made)
      (Standing.At · .handed) valid (.inl ⟨ref, p, once, stands⟩) fun _ _ _ _ => goes_visitMade))
  | placed => exact .inl ⟨stays stands.1, by simp [Milestone.Serves, isManufacture]⟩
  | handed => exact .inl ⟨stays stands.1, by simp [Milestone.Serves, isManufacture]⟩
  | sent => exact .inl ⟨stays stands.1, by simp [Milestone.Serves, isManufacture]⟩
  | delivered => exact .inl ⟨stays stands.1, nofun⟩

/-- A pass of the courier's sends the card of an order, or delivers it. -/
theorem stands_courier (isCourier : a.scheduler = .courier) (stands : g.Stands o m) :
    (a.after g).Stands o m ∧ ¬m.Serves a ∨ (a.after g).Stands o m.next := by
  obtain ⟨valid, stands⟩ := stands
  have runs : a.run = CourierScheduler.run := by rw [Pass.run, isCourier]
  have stays : (g.standing o [] []).carrying = [] → (a.after g).Stands o m := fun none =>
    Goes.after _ (runs ▸ goes_courierRun (fun _ => False) (Standing.At · m) valid
      (.inr ⟨none, stands⟩) fun _ _ _ _ _ _ impossible => impossible.elim)
  cases m with
  | handed =>
    obtain ⟨ref, p, once, -⟩ := stands.2.1
    exact .inr (Goes.after _ (runs ▸ goes_courierRun (Standing.At · .handed) (Standing.At · .sent)
      valid (.inl ⟨ref, p, once, stands⟩) fun _ _ _ _ => goes_visitHanded))
  | sent =>
    obtain ⟨ref, p, once, -⟩ := stands.2.1
    exact .inr (Goes.after _ (runs ▸ goes_courierRun (Standing.At · .sent)
      (Standing.At · .delivered) valid (.inl ⟨ref, p, once, stands⟩) fun _ _ _ _ => goes_visitSent))
  | delivered =>
    rcases stands.2.1 with none | ⟨ref, p, once, -⟩
    · exact .inr (stays none)
    · exact .inr (Goes.after _ (runs ▸ goes_courierRun (Standing.At · .delivered)
        (Standing.At · .delivered) valid (.inl ⟨ref, p, once, stands⟩)
          fun _ _ _ _ => goes_visitDelivered))
  | placed => exact .inl ⟨stays stands.2.1, by simp [Milestone.Serves, isCourier]⟩
  | ordered => exact .inl ⟨stays stands.2.1, by simp [Milestone.Serves, isCourier]⟩
  | made => exact .inl ⟨stays stands.2.1, by simp [Milestone.Serves, isCourier]⟩

end Turns

/-! ## From the request to the delivery -/

section Delivery

variable {o : OrderId} {g g' g'' : World} {l l' : Private} {request : CreditCardOrderRequest}

/-- An order with one status, which says that it has been accepted. -/
theorem placed_of_inserted {guid : OrderId} {l₁ l₂ : Private} {g₁ : World} {text : String}
    {u : Unit} (valid : g.Valid)
    (unknown : (g.standing guid [] []).making = [] ∧ (g.standing guid [] []).carrying = [])
    (inserted : act (.insertOrder request) l g = some (guid, l₁, g₁))
    (reported : act (.insertStatus guid .orderCreated text) l₁ g₁ = some (u, l₂, g')) :
    g'.Stands guid .placed := by
  have valid₁ := act_valid valid inserted
  obtain ⟨manufacture, courier⟩ := lists_act (c := .insertOrder request) trivial inserted
  obtain ⟨orders, statuses, cards⟩ := tables_act inserted
  obtain ⟨db, isInserted, same⟩ := Option.map_eq_some_iff.mp inserted
  cases same
  have fresh : g.uuids g.drawn ∉ g.db.orderIds := valid.fresh g.drawn (Nat.le_refl _)
  have allowed : request.cardLevel ∈ cardLevels := by
    unfold Database.insertOrder at isInserted
    split at isInserted
    · rename_i allowed
      exact allowed.2.2
    · cases isInserted
  obtain ⟨rows, added, wrote⟩ := wrote_insertStatus valid₁ reported
  have noStatus : db.statusesOf (g.uuids g.drawn) = [] := by
    refine List.filter_eq_nil_iff.mpr fun s mem own => fresh ?_
    rw [statuses] at mem
    exact of_decide_eq_true own ▸ valid.db.statusOrder s mem
  have noCard : db.cardsOf (g.uuids g.drawn) = [] := by
    refine List.filter_eq_nil_iff.mpr fun c mem own => fresh ?_
    rw [cards] at mem
    exact of_decide_eq_true own ▸ valid.db.cardOrder c mem
  refine ⟨wrote.valid, ?_⟩
  rw [wrote.standing]
  refine ⟨unknown.1, unknown.2, noCard, ⟨added.latest, ?_⟩, fun row mem => ?_⟩
  · have early : UpTo .orderCreated (db.statusesOf (g.uuids g.drawn)) := by
      rw [noStatus]
      exact fun s mem => absurd mem List.not_mem_nil
    exact added.upTo early (Nat.le_refl _) (Nat.le_refl _)
  · obtain ⟨mem, own⟩ := List.mem_filter.mp mem
    have mem : row ∈ db.orders := mem
    rw [orders] at mem
    rcases List.mem_append.mp mem with old | new
    · exact absurd (List.mem_map.mpr ⟨row, old, of_decide_eq_true own⟩) fresh
    · rw [List.mem_singleton.mp new]
      exact allowed

/-- A client's request for a card that runs alone, with nothing refused. -/
def placing (request : CreditCardOrderRequest) (l : Private) (g : World) :
    Except Failure StandardResponse × Private × World :=
  exec machine (OrderController.createCreditCardOrder request) (fun _ => false) l g

/-- An order that has just been accepted has been placed, where no scheduler has a process of that
name. -/
theorem created_order_placed {response : StandardResponse} (valid : g.Valid)
    (unknown : (g.standing o [] []).making = [] ∧ (g.standing o [] []).carrying = [])
    (returned : (placing request l g).1 = .ok response)
    (accepted : response.results = some (.order o)) :
    (placing request l g).2.2.Stands o .placed := by
  have leads : Leads machine (OrderController.createCreditCardOrder request) (fun r _ g' =>
      ∀ response, r = .ok response → response.results = some (.order o) →
        g'.Stands o .placed) l g := by
    have refused : ∀ {l : Private} {g' : World} {response : StandardResponse},
        response.results = none → Leads machine (pure response : Task StandardResponse)
          (fun r _ g' => ∀ response, r = .ok response → response.results = some (.order o) →
            g'.Stands o .placed) l g' := by
      intro l g' response none response' same accepted
      cases same
      rw [none] at accepted
      cases accepted
    refine leads_tryCatch.mpr (leads_bind.mpr (leads_perform (m := machine) rfl ?_))
    change Leads machine (if g.db.orderCount request.accountId = 0 then _ else _) (Ending _ _) _ g
    split
    · refine leads_bind.mpr ?_
      generalize Private.tick _ = l₁
      cases inserted : act (.insertOrder request) l₁ g with
      | none => exact leads_perform_of_none (m := machine) inserted (refused rfl)
      | some r =>
        obtain ⟨guid, l₂, g₁⟩ := r
        refine leads_perform (m := machine) inserted ?_
        change Leads machine (_ >>= _) (Ending _ _) _ _
        refine leads_bind.mpr ?_
        cases reported : act (.insertStatus guid .orderCreated StatusType.orderCreated.description)
            l₂ g₁ with
        | none => exact leads_perform_of_none (m := machine) reported (refused rfl)
        | some r =>
          obtain ⟨u, l₃, g₂⟩ := r
          refine leads_perform (m := machine) reported fun response same accepted => ?_
          cases same
          cases accepted
          exact placed_of_inserted valid unknown inserted reported
    · exact refused rfl
  exact leads response returned accepted

/-- What has been done does not concern an order. -/
structure Elsewhere (o : OrderId) (g g' : World) : Prop where
  /-- The world stays valid. -/
  valid : g.Valid → g'.Valid
  /-- The order stands where it stood. -/
  standing : g'.standing o [] [] = g.standing o [] []

/-- Passes one after the other. Before, between and after them anything may be done that does not
concern the order. -/
inductive InTurn (o : OrderId) : List Pass → World → World → Prop
  | rest {g g' : World} (elsewhere : Elsewhere o g g') : InTurn o [] g g'
  | pass {a : Pass} {passes : List Pass} {g g₁ g' : World} (elsewhere : Elsewhere o g g₁)
      (later : InTurn o passes (a.after g₁) g') : InTurn o (a :: passes) g g'

theorem Elsewhere.stands {m : Milestone} (elsewhere : Elsewhere o g g') (stands : g.Stands o m) :
    g'.Stands o m := ⟨elsewhere.valid stands.1, elsewhere.standing ▸ stands.2⟩

/-- The milestones an order still has to leave. -/
def Milestone.needs : Milestone → List Milestone
  | .placed => [.placed, .ordered, .made, .handed, .sent]
  | .ordered => [.ordered, .made, .handed, .sent]
  | .made => [.made, .handed, .sent]
  | .handed => [.handed, .sent]
  | .sent => [.sent]
  | .delivered => []

theorem Milestone.needs_eq_nil {m : Milestone} (none : m.needs = []) : m = .delivered := by
  cases m <;> first | rfl | cases none

theorem Milestone.needs_eq_cons {m need : Milestone} {rest : List Milestone}
    (needs : m.needs = need :: rest) : m = need ∧ m.next.needs = rest := by
  cases m <;> cases needs <;> exact ⟨rfl, rfl⟩

/-- A pass leaves an order where it stands, or takes it to the next milestone. -/
theorem stands_pass {m : Milestone} (a : Pass) (stands : g.Stands o m) :
    (a.after g).Stands o m ∧ ¬m.Serves a ∨ (a.after g).Stands o m.next := by
  cases isScheduler : a.scheduler with
  | work => exact stands_work isScheduler stands
  | manufacture => exact stands_manufacture isScheduler stands
  | courier => exact stands_courier isScheduler stands

/-- An order has been delivered. -/
structure World.Delivered (g : World) (o : OrderId) : Prop where
  /-- Its newest status says so. -/
  status : g.db.newestStatus o = some .cardDelivered
  /-- It has one card. -/
  card : (g.db.cardsOf o).length = 1
  /-- It carries the identifier of a shipment. -/
  shipment : ∃ row shippingId, g.db.orders.filter (fun row => row.id = o) = [row] ∧
    row.shippingId = some shippingId
  /-- The manufacturer has no process of it left. -/
  finished : ∀ ref ∈ g.manufacture.listed, ∀ p, g.manufacture.objects[ref]? = some p →
    p.orderId ≠ o

theorem World.Stands.delivered (stands : g.Stands o .delivered) : g.Delivered o := by
  obtain ⟨valid, making, -, card, ⟨x, isStatus, newest, delivered⟩, shipped⟩ := stands
  refine ⟨valid.db.newestStatus_eq_some.mpr ⟨x, ⟨isStatus, newest⟩, delivered⟩, card, shipped,
    fun ref listed p isObject own => ?_⟩
  have waits : (ref, p) ∈ (g.standing o [] []).making :=
    mem_waiting.mpr ⟨listed, List.not_mem_nil, isObject, decide_eq_true own⟩
  rw [making] at waits
  cases waits

/-- An order that a client places alone is delivered, with one card and the identifier of its
shipment, once a pass of the work scheduler, a favourable pass of the manufacturer's, another pass
of the manufacturer's and two passes of the courier's have been made in this order: whatever other
passes are made in between, favourable or not, and whatever is done to other orders, as long as
each pass runs alone and none of its calls or statements fails. -/
theorem placed_order_delivered {response : StandardResponse} {passes : List Pass} (valid : g.Valid)
    (unknown : (g.standing o [] []).making = [] ∧ (g.standing o [] []).carrying = [])
    (returned : (placing request l g).1 = .ok response)
    (accepted : response.results = some (.order o))
    (turns : InTurn o passes (placing request l g).2.2 g')
    (enough : List.SublistForall₂ Milestone.Serves
      [.placed, .ordered, .made, .handed, .sent] passes) : g'.Delivered o := by
  have placed := created_order_placed valid unknown returned accepted
  have reached : ∃ m : Milestone, m.needs = [] ∧ g'.Stands o m := by
    refine reaches_of_sublist (fun a g g' => g' = a.after g)
      (fun needed g => ∃ m : Milestone, m.needs = needed ∧ g.Stands o m) (InTurn o) ?_ ?_ ?_ ?_
      enough ⟨.placed, rfl, placed⟩ turns
    · rintro a g _ rfl ⟨m, none, stands⟩
      obtain rfl := m.needs_eq_nil none
      rcases stands_pass a stands with ⟨still, -⟩ | next
      · exact ⟨_, none, still⟩
      · exact ⟨_, none, next⟩
    · rintro need rest a g _ rfl ⟨m, needs, stands⟩
      obtain ⟨rfl, later⟩ := m.needs_eq_cons needs
      exact (stands_pass a stands).imp (fun still => ⟨⟨m, needs, still.1⟩, still.2⟩)
        fun next => ⟨_, later, next⟩
    · rintro needed g g' ran ⟨m, needs, stands⟩
      cases ran with
      | rest elsewhere => exact ⟨m, needs, elsewhere.stands stands⟩
    · rintro needed a rest g g' ran ⟨m, needs, stands⟩
      cases ran with
      | pass elsewhere later => exact ⟨_, _, ⟨m, needs, elsewhere.stands stands⟩, rfl, later⟩
  obtain ⟨m, none, stands⟩ := reached
  exact (m.needs_eq_nil none ▸ stands).delivered

theorem inTurn_foldl (o : OrderId) (passes : List Pass) (g : World) :
    InTurn o passes g (passes.foldl (fun g a => a.after g) g) := by
  induction passes generalizing g with
  | nil => exact .rest ⟨id, rfl⟩
  | cons a passes ih => exact .pass ⟨id, rfl⟩ (ih (a.after g))

end Delivery

/-- Passes of which some come too early, and one fails to make the card. -/
def somePasses : List Pass :=
  [⟨.courier, fun _ => {}⟩, ⟨.work, fun _ => {}⟩, ⟨.manufacture, fun _ => { random := 107 }⟩,
    ⟨.courier, fun _ => {}⟩, ⟨.manufacture, fun _ => { random := 50 }⟩, ⟨.work, fun _ => {}⟩,
    ⟨.manufacture, fun _ => { flag := true }⟩, ⟨.courier, fun _ => {}⟩, ⟨.courier, fun _ => {}⟩]

/-- The world after the order of `sampleOrder` has been placed. -/
def orderedWorld : World := (placing sampleOrder {} emptyWorld).2.2

theorem placed_order_delivered_in_turn :
    (somePasses.foldl (fun g a => a.after g) orderedWorld).Delivered "u" := by
  have returned : (placing sampleOrder {} emptyWorld).1 =
      .ok ⟨201, "Credit card order has been created.", some (.order "u"), none, none⟩ := by
    decide +kernel
  have favourable : Favourable fun _ => { random := 50 } :=
    fun _ => ⟨rfl, show 20 ≤ 50 % 100 by decide⟩
  exact placed_order_delivered emptyWorld_valid ⟨rfl, rfl⟩ returned rfl
    (inTurn_foldl "u" somePasses orderedWorld)
    (.cons_right (.cons rfl (.cons_right (.cons_right (.cons ⟨rfl, favourable⟩
      (.cons_right (.cons rfl (.cons rfl (.cons rfl .nil)))))))))

end EasyTrade.Cards
