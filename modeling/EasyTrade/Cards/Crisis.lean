import EasyTrade.Cards.Delivery

/-!
# Factory crisis

While the flag `factory_crisis` is on, the manufacturer finishes no process: it sets each to its
error state and reports it once. So from a world in which no finished process waits and the
courier has nothing to carry, nothing gets any further while clients report no statuses
themselves: no card is stored, nothing is handed over or shipped, and no order gets past
`CARD_ERROR` (`factory_crisis_stops_cards`).
-/

namespace EasyTrade.Cards

open EasyTrade.Logic EasyTrade.Logic.Program EasyTrade.Store

/-! ## Commands without a card -/

/-- The statuses an order can reach without a card. -/
def StatusType.Cardless : StatusType → Prop
  | .orderCreated | .cardOrdered | .cardError => True
  | _ => False

/-- Commands that finish, store and carry no card. -/
def Command.Cardless : Command → Prop
  | .insertStatus _ status _ => status.Cardless
  | .insertCard _ _ | .updateOrder _ _ => False
  | .manufacture (.add process) | .manufacture (.set _ process) => process.status ≠ .cardCreated
  | .courier (.add _) | .courier (.set _ _) => False
  | _ => True

/-- Clients that leave the reports to the third party. -/
def Request.IsNoUpdate : Request → Prop
  | .updateStatus _ _ => False
  | _ => True

/-- Commands that only read are of this kind. -/
theorem Command.Reads.cardless {c : Command} (reads : c.Reads) : c.Cardless := by
  cases c <;> trivial

/-- The report of an error. -/
theorem only_reportError (id : OrderId) (details : Option Details) :
    (updateStatus .cardError id details).Only Command.Cardless := by
  refine only_tryCatch (only_bind (only_exchange ⟨trivial, trivial, trivial⟩
    (only_handleSQLException ?_)) fun _ => trivial) fun _ => trivial
  rw [if_neg (not_not.mpr rfl)]
  refine only_bind (only_perform trivial) fun status => ?_
  cases status with
  | none => trivial
  | some status =>
    change (OrderController.actOnNewStatus _ status.status).Only _
    unfold OrderController.actOnNewStatus
    rw [StatusType.valueOf_name]
    change (if _ then _ else _ : Task StandardResponse).Only _
    split
    · trivial
    · refine only_bind (only_convert _ _ fun _ => only_perform trivial) fun _ => trivial

theorem only_createCreditCardOrder (request : CreditCardOrderRequest) :
    (OrderController.createCreditCardOrder request).Only Command.Cardless := by
  refine only_handleSQLException (only_bind (only_perform trivial) fun count => ?_)
  split
  · exact only_bind (only_perform trivial) fun _ => only_bind (only_perform trivial) fun _ => trivial
  · trivial

theorem only_deleteOrder (accountId : AccountId) :
    (OrderController.deleteOrder accountId).Only Command.Cardless := by
  refine only_handleSQLException (only_bind (only_perform trivial) fun _ => ?_)
  refine only_bind (only_perform trivial) fun _ => ?_
  exact only_bind (only_perform trivial) fun _ => trivial

/-- A new process is not finished. -/
theorem only_issueCreditCard_cardless (request : Option ManufactureRequest) :
    (issueCreditCard request).Only Command.Cardless := by
  cases request with
  | none => trivial
  | some request =>
    exact only_bind (only_perform (show _ ≠ ManufactureStatus.cardCreated from nofun)) fun _ => trivial

theorem only_handler {request : Request} (closed : request.IsNoUpdate) :
    request.handler.Only Command.Cardless := by
  cases request with
  | createCreditCardOrder request => exact only_createCreditCardOrder request
  | getShippingAddress id => exact (only_getShippingAddress id).mono fun _ => Command.Reads.cardless
  | getStatusHistory a => exact (only_getStatusHistory a).mono fun _ => Command.Reads.cardless
  | getLatestStatus a => exact (only_getLatestStatus a).mono fun _ => Command.Reads.cardless
  | deleteOrder a => exact only_deleteOrder a
  | updateStatus id request => exact closed.elim
  | issueCreditCard request => exact only_issueCreditCard_cardless request

/-- The work scheduler only asks for cards. -/
theorem only_work : WorkScheduler.run.Only Command.Cardless := by
  refine only_tryCatch ?_ fun _ => trivial
  refine only_bind (only_bind (only_perform trivial) fun _ => trivial) fun orders => ?_
  refine only_forEach (fun orderId => ?_) orders
  refine only_bind (only_perform trivial) fun body => ?_
  refine only_bind (only_exchange ⟨trivial, trivial, trivial⟩
    (only_issueCreditCard_cardless body)) fun response => ?_
  split
  · exact only_perform trivial
  · trivial

/-! ## The terms of a crisis -/

/-- No finished process waits for the courier, and the courier has delivered whatever it has. -/
structure World.NothingMade (g : World) : Prop where
  /-- The manufacturer's list. -/
  making : ∀ ref ∈ g.manufacture.listed, ∀ process, g.manufacture.objects[ref]? = some process →
    process.status ≠ .cardCreated
  /-- The courier's list. -/
  carrying : ∀ ref ∈ g.courier.listed, ∀ process, g.courier.objects[ref]? = some process →
    process.status = .cardDelivered

/-- The manufacturer always finds the flag on, and nobody issues a command with a card. -/
def crisis {ι : Type} (i : Party ι) : Terms Command Failure Private World where
  assume l g := g.NothingMade ∧ (i = .manufacture → ∀ n, (l.chances n).flag = true)
  guard c _ := c.Cardless
  abort _ _ := True
  refusable _ _ := True

section Terms

variable {ι : Type} {i : Party ι} {α : Type} {l : Private}

theorem keeps_of_cardless {p : Task α} (only : p.Only Command.Cardless) :
    Keeps machine (crisis i) p (fun _ _ => True) l :=
  only.keeps (fun _ => True) (fun _ _ cardless _ => cardless) (fun _ _ _ _ _ _ _ _ _ => trivial)
    (fun _ _ _ => trivial) trivial

theorem keeps_send {c : Command} (cardless : c.Cardless) :
    Keeps machine (aborting (crisis i) fun _ => True) (send c) (fun _ _ => True) l :=
  keeps_perform cardless (fun _ => trivial) fun _ _ _ _ _ _ => trivial

/-- With the flag on a process is set to its error state and reported, or left alone. -/
theorem keeps_processIssueAndErrorStatus (ref : Nat) (process : ManufactureProcess) :
    Keeps machine (crisis (.manufacture : Party ι))
      (ManufactureScheduler.processIssueAndErrorStatus ref process) (fun _ _ => True) l := by
  unfold ManufactureScheduler.processIssueAndErrorStatus
  rw [keeps_bind]
  refine keeps_perform trivial (fun _ => trivial) fun g flag l' g' assumed acted => ?_
  have on : flag = true := by
    cases acted
    exact assumed.2 rfl _
  rw [on, if_pos rfl]
  split
  · refine keeps_of_cardless (only_bind (only_perform ?_) fun _ => only_reportError _ _)
    exact show ManufactureStatus.manufactureError ≠ .cardCreated from nofun
  · trivial

/-- A pass of the manufacturer finishes nothing and hands nothing over. -/
theorem keeps_manufacture :
    Keeps machine (crisis (.manufacture : Party ι)) ManufactureScheduler.run (fun _ _ => True) l := by
  rw [manufactureRun_eq]
  refine keeps_walkingPass (fun _ => keeps_send trivial) (fun _ _ => keeps_send trivial)
    fun cursor modCount l => ?_
  refine keeps_perform trivial (fun _ => trivial)
    fun g found l' g' assumed acted ref process isFound => ?_
  subst isFound
  obtain ⟨listed, object⟩ := found_manufacture acted
  have unfinished := assumed.1.making ref listed process object
  unfold ManufactureScheduler.visit
  cases status : process.status with
  | issuing =>
    rw [keeps_bind]
    exact (keeps_processIssueAndErrorStatus ref process).mono fun _ _ _ => trivial
  | manufactureError =>
    rw [keeps_bind]
    exact (keeps_processIssueAndErrorStatus ref process).mono fun _ _ _ => trivial
  | cardCreated => exact absurd status unfinished

/-- A pass of the courier finds delivered cards only. -/
theorem keeps_courier :
    Keeps machine (crisis (.courier : Party ι)) CourierScheduler.run (fun _ _ => True) l := by
  rw [courierRun_eq]
  refine keeps_walkingPass (fun _ => keeps_send trivial) (fun _ _ => keeps_send trivial)
    fun cursor modCount l => ?_
  refine keeps_perform trivial (fun _ => trivial)
    fun g found l' g' assumed acted ref process isFound => ?_
  subst isFound
  obtain ⟨listed, object⟩ := found_courier acted
  unfold CourierScheduler.visit
  rw [assumed.1.carrying ref listed process object]
  trivial

/-- Every party keeps to commands without a card. -/
theorem keeps_program {requests : ι → Request} (closed : ∀ i, (requests i).IsNoUpdate)
    (rounds : Party ι → Nat) (i : Party ι) :
    Keeps machine (crisis i) (program requests rounds i) (fun _ _ => True) l := by
  cases i with
  | client i =>
    rw [program, keeps_bind]
    exact (keeps_of_cardless (only_handler (closed i))).mono fun _ _ _ => trivial
  | work =>
    rw [program, keeps_bind]
    exact keeps_passes (P := fun _ => True) (fun _ _ => keeps_of_cardless only_work) _ trivial
  | manufacture =>
    rw [program, keeps_bind]
    exact keeps_passes (P := fun _ => True) (fun _ _ => keeps_manufacture) _ trivial
  | courier =>
    rw [program, keeps_bind]
    exact keeps_passes (P := fun _ => True) (fun _ _ => keeps_courier) _ trivial

end Terms

/-! ## Runs -/

section Runs

variable {ι : Type} {l l' : Private} {g g' g₀ : World} {c : Command} {reply : Reply c}

/-- What has not got any further since. -/
structure Stalled (g₀ g : World) : Prop where
  /-- Nothing is made or carried now. -/
  nothing : g.NothingMade
  /-- Nothing has been handed over or shipped. -/
  handed : g.courier.objects = g₀.courier.objects
  /-- No card has been stored. -/
  cards : g.db.cards.Sublist g₀.db.cards
  /-- No order has got a shipment. -/
  orders : ∀ o ∈ g.db.orders, o ∈ g₀.db.orders ∨ o.shippingId = none
  /-- No order has got past `CARD_ERROR`. -/
  statuses : ∀ s ∈ g.db.statuses, s ∈ g₀.db.statuses ∨ s.status.Cardless

/-- Nothing is made by a command without a card. -/
theorem World.NothingMade.act (nothing : g.NothingMade) (cardless : c.Cardless)
    (acted : act c l g = some (reply, l', g')) :
    g'.NothingMade ∧ g'.courier.objects = g.courier.objects := by
  by_cases off : c.OffList
  · obtain ⟨manufacture, courier⟩ := lists_act off acted
    exact ⟨⟨by rw [manufacture]; exact nothing.making, by rw [courier]; exact nothing.carrying⟩,
      by rw [courier]⟩
  · cases c with
    | manufacture command =>
      obtain ⟨⟨reply, list⟩, stepped, same⟩ := Option.map_eq_some_iff.mp acted
      cases same
      refine ⟨⟨?_, nothing.carrying⟩, rfl⟩
      cases command with
      | add object =>
        cases stepped
        intro ref listed process isProcess
        rcases List.mem_append.mp listed with old | new
        · by_cases there : ref < g.manufacture.objects.length
          · exact nothing.making ref old process
              (by rw [← isProcess]; exact (List.getElem?_append_left there).symm)
          · rw [SyncList.objects_add, List.getElem?_append_right (by omega)] at isProcess
            rw [List.mem_singleton.mp (List.mem_of_getElem? isProcess)]
            exact cardless
        · rw [List.mem_singleton.mp new, SyncList.objects_add,
            List.getElem?_append_right (le_refl _)] at isProcess
          rw [List.mem_singleton.mp (List.mem_of_getElem? isProcess)]
          exact cardless
      | iterator => cases stepped; exact nothing.making
      | next cursor modCount =>
        obtain ⟨found, -, same⟩ := Option.map_eq_some_iff.mp stepped
        cases same
        exact nothing.making
      | set ref object =>
        cases stepped
        intro r listed process isProcess
        rw [SyncList.objects_set, List.getElem?_set] at isProcess
        split at isProcess
        · split at isProcess <;> cases isProcess
          exact cardless
        · exact nothing.making r listed process isProcess
      | remove ref =>
        cases stepped
        intro r listed process isProcess
        rw [SyncList.objects_remove] at isProcess
        exact nothing.making r (SyncList.mem_listed_remove listed) process isProcess
    | courier command =>
      obtain ⟨⟨reply, list⟩, stepped, same⟩ := Option.map_eq_some_iff.mp acted
      cases same
      cases command with
      | add object => exact cardless.elim
      | set ref object => exact cardless.elim
      | iterator => cases stepped; exact ⟨⟨nothing.making, nothing.carrying⟩, rfl⟩
      | next cursor modCount =>
        obtain ⟨found, -, same⟩ := Option.map_eq_some_iff.mp stepped
        cases same
        exact ⟨⟨nothing.making, nothing.carrying⟩, rfl⟩
      | remove ref =>
        cases stepped
        refine ⟨⟨nothing.making, fun r listed process isProcess => ?_⟩, SyncList.objects_remove ref⟩
        rw [SyncList.objects_remove] at isProcess
        exact nothing.carrying r (SyncList.mem_listed_remove listed) process isProcess
    | _ => exact absurd trivial off

/-- A command without a card gets nothing any further. -/
theorem Stalled.act (stalled : Stalled g₀ g) (cardless : c.Cardless)
    (acted : act c l g = some (reply, l', g')) : Stalled g₀ g' := by
  obtain ⟨nothing, courier⟩ := stalled.nothing.act cardless acted
  obtain ⟨orders, statuses, cards⟩ := tables_act acted
  refine ⟨nothing, courier.trans stalled.handed, ?_, ?_, ?_⟩
  · rw [cards]
    cases c with
    | insertCard id card => exact cardless.elim
    | deleteCards a => exact List.filter_sublist.trans stalled.cards
    | _ => exact stalled.cards
  · rw [orders]
    cases c with
    | insertOrder request =>
      intro o mem
      rcases List.mem_append.mp mem with old | new
      · exact stalled.orders o old
      · rw [List.mem_singleton.mp new]
        exact .inr rfl
    | updateOrder id shippingId => exact cardless.elim
    | deleteOrders a => exact fun o mem => stalled.orders o (List.mem_of_mem_filter mem)
    | _ => exact stalled.orders
  · rw [statuses]
    cases c with
    | insertStatus id status details =>
      intro s mem
      rcases List.mem_append.mp mem with old | new
      · exact stalled.statuses s old
      · rw [List.mem_singleton.mp new]
        exact .inr cardless
    | deleteStatuses a => exact fun s mem => stalled.statuses s (List.mem_of_mem_filter mem)
    | _ => exact stalled.statuses

/-- What every turn keeps during a crisis: nothing gets any further, and the manufacturer goes
on finding the flag on. -/
def Halted (g₀ : World) (privs : Party ι → Private) (g : World) : Prop :=
  Stalled g₀ g ∧ ∀ n, ((privs .manufacture).chances n).flag = true

theorem Halted.act [DecidableEq ι] {privs : Party ι → Private} {i : Party ι}
    (halted : Halted g₀ privs g) (cardless : c.Cardless)
    (acted : Cards.act c (privs i) g = some (reply, l', g')) :
    Halted g₀ (Function.update privs i l') g' := by
  refine ⟨halted.1.act cardless acted, ?_⟩
  by_cases own : (.manufacture : Party ι) = i
  · subst own
    rw [Function.update_self, chances_act acted]
    exact halted.2
  · rw [Function.update_of_ne own]
    exact halted.2

/-- With the flag `factory_crisis` on whenever the manufacturer asks, and no client reporting
a status itself, nothing gets any further from a world in which nothing is made: no card is
stored, nothing is handed over, no order gets a shipment or gets past `CARD_ERROR`. -/
theorem factory_crisis_stops_cards [DecidableEq ι] (requests : ι → Request)
    (rounds : Party ι → Nat) (chances : Party ι → Nat → Chance)
    (on : ∀ n, (chances .manufacture n).flag = true) (closed : ∀ i, (requests i).IsNoUpdate)
    (g : World) (nothing : g.NothingMade) (schedule : List (Party ι × Bool)) :
    Stalled g ((start requests rounds chances g).run machine schedule).shared := by
  have first : Halted g (start requests rounds chances g).privs g :=
    ⟨⟨nothing, rfl, List.Sublist.refl _, fun o mem => .inl mem, fun s mem => .inl mem⟩, on⟩
  have free : (start requests rounds chances g).Respects machine (fun _ _ _ _ _ => True) schedule :=
    System.Respects.of_forall (fun _ _ _ _ _ => trivial) _ _
  have kept := (System.run_terms (t := crisis) (Halted g)
    (fun _ _ halted i => ⟨halted.1.nothing, fun same => by rw [same]; exact halted.2⟩)
    (fun _ _ _ _ _ _ _ _ _ => trivial)
    (fun _ _ _ _ _ _ _ cardless _ halted acted => halted.act cardless acted) schedule
    (fun i => keeps_program closed rounds i) first free).1
  exact kept.1

/-- Nothing is made in the empty world. -/
theorem emptyWorld_nothingMade : emptyWorld.NothingMade :=
  ⟨fun _ listed => absurd listed List.not_mem_nil, fun _ listed => absurd listed List.not_mem_nil⟩

/-- A client orders a card during a crisis, and the schedulers have time for two passes. -/
def inCrisis : Parties Unit :=
  start (fun _ => .createCreditCardOrder sampleOrder) (fun i => if i = .work then 1 else 2)
    (fun _ _ => { flag := true, random := 50 }) emptyWorld

theorem factory_crisis_stops_cards_in_turn :
    Stalled emptyWorld (inCrisis.run machine inTurn).shared :=
  factory_crisis_stops_cards (fun _ => .createCreditCardOrder sampleOrder)
    (fun i => if i = .work then 1 else 2) _ (fun _ => rfl) (fun _ => trivial) emptyWorld
    emptyWorld_nothingMade _

/-- The order is left with its error, reported once. -/
example :
    let db := (inCrisis.run machine inTurn).shared.db
    db.newestStatus "u" = some .cardError ∧ db.statuses.length = 3 ∧ db.cardsOf "u" = [] := by
  decide +kernel

end Runs

end EasyTrade.Cards
