import EasyTrade.Cards.Calls

/-!
# What the parties write, by what they have read

The rules every party keeps in any company. An order is inserted after a count
of none. A status is inserted for an order just inserted, or for one of which the
program has read a status with a smaller sequence number. A card is inserted
under the latter rule too. A program that has inserted a card gives its order
`CARD_CREATED` next, unless that is refused: the switch `paired` says that it is not.
-/

namespace EasyTrade.Cards

open EasyTrade.Logic EasyTrade.Logic.Program

/-- The status comes after the one last read of the order. -/
def Private.Advances (l : Private) (id : OrderId) (status : StatusType) : Prop :=
  ∃ old, l.read id = some old ∧ old.sequence < status.sequence

/-- No card waits for its status, as far as that is asked for. -/
def Private.Settled (paired : Prop) (l : Private) : Prop := paired → l.awaiting = none

/-- The rules. -/
def rules (paired : Prop) : Terms Command Failure Private World where
  assume _ g := g.Valid
  guard
    | .insertOrder request, l => l.counted = some (request.accountId, 0)
    | .insertStatus id status _, l =>
      ((l.created = some id ∧ status = .orderCreated) ∨ l.Advances id status) ∧
        (paired → l.awaiting = if status = .cardCreated then some id else none)
    | .insertCard id _, l => l.Advances id .cardCreated ∧ l.Settled paired
    | _, _ => True
  abort _ l := l.Settled paired
  refusable
    | .insertStatus _ _ _, l => l.Settled paired
    | _, _ => True

variable {paired : Prop} {l : Private}

/-- Without the switch everything may be refused. -/
theorem refusable_of_not_paired (c : Command) : (rules False).refusable c l := by
  cases c with
  | insertStatus id status details => exact False.elim
  | _ => exact trivial

/-- Calls are free. -/
theorem rules_callsFree {Q : Private → Prop} : Terms.CallsFree (aborting (rules paired) Q) :=
  ⟨fun _ => trivial, fun _ => trivial, fun _ => trivial⟩

/-- Steps that concern no order leave nothing waiting. -/
theorem Private.Settled.tick (h : l.Settled paired) : l.tick.Settled paired := h

/-- A status inserted by the rules leaves nothing waiting, and what has been read stays read. -/
theorem insertStatus_keeps {Q : Private → Prop} {id : OrderId} {status : StatusType}
    {details : String} (guarded : (rules paired).guard (.insertStatus id status details) l)
    (undone : l.Settled paired → Q l)
    (done : ∀ l' : Private, l'.Settled paired → l'.read = l.read → Q l') :
    Keeps machine (aborting (rules paired) Q) (send (.insertStatus id status details))
      (fun _ => Q) l := by
  refine keeps_perform guarded undone fun g u l' g' _ acted => ?_
  obtain ⟨rfl, -⟩ := of_withDb acted
  refine done _ (fun on => ?_) rfl
  have waiting := guarded.2 on
  change strike l.awaiting id = none
  rw [waiting]
  split <;> simp [strike]

/-! ## The order service -/

namespace OrderController

theorem createCreditCardOrder_keeps (request : CreditCardOrderRequest) (h : l.Settled paired) :
    Keeps machine (rules paired) (createCreditCardOrder request)
      (fun _ => Private.Settled paired) l := by
  refine keeps_handleSQLException (fun _ _ out => out) ?_
  rw [keeps_bind]
  refine keeps_perform trivial (fun _ => h) fun g count l₁ g₁ _ acted => ?_
  cases acted
  split
  · rename_i none
    rw [keeps_bind]
    have counted : (some (request.accountId, g.db.orderCount request.accountId)) =
        some (request.accountId, 0) := congrArg (fun n => some (request.accountId, n)) none
    refine keeps_perform counted (fun _ => h) fun g guid l₁ g₁ _ acted => ?_
    obtain ⟨db', inserted, same⟩ := Option.map_eq_some_iff.1 acted
    cases same
    rw [keeps_bind]
    exact insertStatus_keeps ⟨.inl ⟨rfl, rfl⟩, h⟩ id fun _ settled _ => settled
  · exact h

/-- The statements of an accepted update. -/
theorem applyNewStatus_keeps {request : StatusRequest} {status : StatusType}
    (h : l.Settled paired) (advances : l.Advances request.orderId status)
    (supported : isSupported status = true) :
    Keeps machine (rules paired) (applyNewStatus request status)
      (fun _ => Private.Settled paired) l := by
  have plain : ∀ (l : Private) details, l.Settled paired → l.Advances request.orderId status →
      status ≠ .cardCreated →
      Keeps machine (rules paired) (send (.insertStatus request.orderId status details))
        (fun _ => Private.Settled paired) l := fun l details h advances other =>
    insertStatus_keeps ⟨.inr advances, by rwa [if_neg other]⟩ id fun _ settled _ => settled
  cases status with
  | orderCreated => cases supported
  | sequenceError => cases supported
  | cardOrdered => exact plain l _ h advances (by decide)
  | cardDelivered => exact plain l _ h advances (by decide)
  | cardError =>
    unfold applyNewStatus convert
    rw [keeps_bind]
    split
    · exact h
    · split
      · exact h
      · exact plain l _ h advances (by decide)
  | cardShipped =>
    unfold applyNewStatus convert
    rw [keeps_bind]
    split
    · exact h
    · split
      · exact h
      · rw [keeps_pure, keeps_bind]
        refine keeps_perform trivial (fun _ => h) fun g u l' g' _ acted => ?_
        cases acted
        exact plain _ _ h advances (by decide)
  | cardCreated =>
    unfold applyNewStatus convert
    rw [keeps_bind]
    split
    · exact h
    · split
      · exact h
      · rw [keeps_pure, keeps_bind]
        refine keeps_perform ⟨advances, h⟩ (fun _ => h) fun g u l' g' _ acted => ?_
        obtain ⟨rfl, -⟩ := of_withDb acted
        exact insertStatus_keeps ⟨.inr advances, fun _ => rfl⟩ id fun _ settled _ => settled

theorem handleNewStatus_keeps (id : OrderId) (request : StatusRequest) (h : l.Settled paired) :
    Keeps machine (rules paired) (handleNewStatus id request)
      (fun _ => Private.Settled paired) l := by
  refine keeps_handleSQLException (fun _ _ out => out) ?_
  split
  · exact h
  · rename_i same
    have same : id = request.orderId := not_not.1 same
    rw [keeps_bind]
    refine keeps_perform trivial (fun _ => h) fun g status l' g' _ acted => ?_
    cases acted
    split
    · exact h
    · rename_i status found
      unfold actOnNewStatus
      split
      · exact h
      · rename_i newStatusType _
        split
        · exact h
        · rename_i later
          split
          · rename_i supported
            rw [keeps_bind]
            have read := congrArg (Option.map CreditCardOrderStatus.status) found
            refine (applyNewStatus_keeps (l := (l.sawStatus id _).tick) h
              ⟨status.status, ?_, by omega⟩ supported).mono fun _ _ settled => settled
            rw [← same]
            simpa [Private.sawStatus, Private.tick] using read
          · exact h

theorem getShippingAddress_keeps {Q : Private → Prop} (id : OrderId)
    (ticks : ∀ l, Q l → Q l.tick) (h : Q l) :
    Keeps machine (aborting (rules paired) Q) (getShippingAddress id) (fun _ => Q) l := by
  refine keeps_handleSQLException (fun _ _ out => out) ?_
  rw [keeps_bind]
  refine keeps_perform trivial (fun _ => h) fun g address l' g' _ acted => ?_
  cases acted
  split <;> exact ticks l h

theorem getStatusHistory_keeps (accountId : AccountId) (h : l.Settled paired) :
    Keeps machine (rules paired) (getStatusHistory accountId)
      (fun _ => Private.Settled paired) l := by
  refine keeps_handleSQLException (fun _ _ out => out) ?_
  rw [keeps_bind]
  refine keeps_perform trivial (fun _ => h) fun g orderId l' g' _ acted => ?_
  cases acted
  split
  · exact h
  · rw [keeps_bind]
    refine keeps_perform trivial (fun _ => h) fun g statuses l' g' _ acted => ?_
    cases acted
    exact h

theorem getLatestStatus_keeps (accountId : AccountId) (h : l.Settled paired) :
    Keeps machine (rules paired) (getLatestStatus accountId)
      (fun _ => Private.Settled paired) l := by
  refine keeps_handleSQLException (fun _ _ out => out) ?_
  rw [keeps_bind]
  refine keeps_perform trivial (fun _ => h) fun g flag l' g' _ acted => ?_
  cases acted
  split
  · exact h
  · rw [keeps_bind]
    refine keeps_perform trivial (fun _ => h) fun g status l' g' _ acted => ?_
    obtain ⟨_, -, same⟩ := Option.map_eq_some_iff.1 acted
    cases same
    split <;> exact h

theorem deleteOrder_keeps (accountId : AccountId) (h : l.Settled paired) :
    Keeps machine (rules paired) (deleteOrder accountId) (fun _ => Private.Settled paired) l := by
  have deletes : ∀ command, (∀ l, (rules paired).guard command l) →
      (∀ l g reply l' g', act command l g = some (reply, l', g') → l' = l.tick) → ∀ l : Private,
      l.Settled paired →
      Keeps machine (rules paired) (send command) (fun _ => Private.Settled paired) l := by
    intro command free ticks l h
    refine keeps_perform (free l) (fun _ => h) fun g u l' g' _ acted => ?_
    rw [ticks l g u l' g' acted]
    exact h
  refine keeps_handleSQLException (fun _ _ out => out) ?_
  rw [keeps_bind]
  refine (deletes (.deleteStatuses accountId) (fun _ => trivial) (fun _ _ _ _ _ acted => (of_withDb acted).1) l h).mono
    fun _ l h => ?_
  rw [keeps_bind]
  refine (deletes (.deleteCards accountId) (fun _ => trivial) (fun _ _ _ _ _ acted => (of_withDb acted).1) l h).mono
    fun _ l h => ?_
  rw [keeps_bind]
  exact deletes (.deleteOrders accountId) (fun _ => trivial) (fun _ _ _ _ _ acted => (of_withDb acted).1) l h

end OrderController

/-! ## The schedulers -/

/-- A command the rules leave free and that concerns no card keeps nothing waiting. -/
theorem send_keeps (command : Command) (free : ∀ l, (rules paired).guard command l)
    (same : ∀ l g reply l' g', act command l g = some (reply, l', g') → l'.awaiting = l.awaiting)
    (h : l.Settled paired) :
    Keeps machine (rules paired) (send command) (fun _ => Private.Settled paired) l := by
  refine keeps_perform (free l) (fun _ => h) fun g reply l' g' _ acted => ?_
  intro on
  rw [same l g reply l' g' acted]
  exact h on

/-- A step on the manufacturer's list concerns no card. -/
theorem manufacture_keeps (command : ListCommand ManufactureProcess) (h : l.Settled paired) :
    Keeps machine (rules paired) (send (.manufacture command))
      (fun _ => Private.Settled paired) l := by
  refine send_keeps _ (fun _ => trivial) (fun l g reply l' g' acted => ?_) h
  obtain ⟨done, -, same⟩ := Option.map_eq_some_iff.1 acted
  cases same
  cases command with
  | next cursor modCount => cases done.1 <;> rfl
  | _ => rfl

/-- Nor does a step on the courier's. -/
theorem courier_keeps (command : ListCommand CourierProcess) (h : l.Settled paired) :
    Keeps machine (rules paired) (send (.courier command)) (fun _ => Private.Settled paired) l := by
  refine send_keeps _ (fun _ => trivial) (fun l g reply l' g' acted => ?_) h
  obtain ⟨done, -, same⟩ := Option.map_eq_some_iff.1 acted
  cases same
  cases command <;> rfl

/-- A report keeps nothing waiting. -/
theorem updateStatus_keeps (status : StatusType) (id : OrderId) (details : Option Details)
    (h : l.Settled paired) :
    Keeps machine (rules paired) (updateStatus status id details)
      (fun _ => Private.Settled paired) l :=
  keeps_updateStatus rules_callsFree (fun _ => Private.Settled.tick)
    (fun _ => Private.Settled.tick) (fun _ settled _ => settled) (fun _ settled => settled)
    (fun _ settled => OrderController.handleNewStatus_keeps _ _ settled) h

theorem issueCreditCard_keeps {Q : Private → Prop} (ticks : ∀ l, Q l → Q l.tick)
    (request : Option ManufactureRequest) (h : Q l) :
    Keeps machine (aborting (rules paired) Q) (issueCreditCard request) (fun _ => Q) l := by
  cases request with
  | none => exact h
  | some request =>
    unfold issueCreditCard
    rw [keeps_bind]
    refine keeps_perform trivial (fun _ => h) fun g u l' g' _ acted => ?_
    cases acted
    exact ticks l h

/-- What the work scheduler has read of the orders it still has to place. -/
def Placing (paired : Prop) (orders : List OrderId) (l : Private) : Prop :=
  l.Settled paired ∧ ∀ id ∈ orders, l.read id = some .orderCreated

theorem WorkScheduler.run_keeps (h : l.Settled paired) :
    Keeps machine (rules paired) WorkScheduler.run (fun _ => Private.Settled paired) l := by
  refine keeps_pass ?_
  unfold WorkScheduler.getOrderIdsWithStatusOrderCreated
  simp only [keeps_bind]
  refine keeps_perform trivial (fun _ => h) fun g rows l' g' valid acted => ?_
  cases acted
  rw [keeps_pure]
  refine (keeps_forEach (Placing paired) (fun orderId rest l placing => ?_) _
    (l.sawStatuses g.db.currentStatuses).tick ⟨h, ?_⟩).mono fun _ _ placed => placed.1
  · rw [keeps_bind]
    refine keeps_perform trivial (fun _ => placing.1) fun g body l' g' _ acted => ?_
    cases acted
    rw [keeps_bind]
    have ticks : ∀ l, Placing paired (orderId :: rest) l → Placing paired (orderId :: rest) l.tick :=
      fun l placing => placing
    refine (keeps_exchange rules_callsFree ticks ticks (fun _ placing _ => placing)
      (fun _ placing => placing.1) (fun _ placing => issueCreditCard_keeps ticks _ placing)
      (ticks l placing)).mono fun response l placing => ?_
    have others : ∀ l' : Private, l'.Settled paired → l'.read = l.read → Placing paired rest l' :=
      fun l' settled same => ⟨settled, fun id mem => by
        rw [same]
        exact placing.2 id (List.mem_cons_of_mem _ mem)⟩
    split
    · have read := placing.2 orderId List.mem_cons_self
      have guarded : (rules paired).guard (.insertStatus orderId .cardOrdered
          StatusType.cardOrdered.description) l := ⟨.inr ⟨_, read, by decide⟩, placing.1⟩
      exact (insertStatus_keeps guarded (fun settled => others l settled rfl) others).mono_abort
        fun _ _ placing => placing.1
    · exact others l placing.1 rfl
  · intro id mem
    obtain ⟨⟨_, status⟩, inRows, rfl⟩ := List.mem_map.1 mem
    obtain ⟨inRows, created⟩ := List.mem_filter.1 inRows
    have created : status = .orderCreated := by simpa using created
    subst created
    simp [Private.sawStatuses, Private.tick, valid.db.find_currentStatuses inRows]

/-- A command that only asks for something outside the tables. -/
theorem ask_keeps (command : Command) (free : ∀ l, (rules paired).guard command l)
    (ticks : ∀ l g reply l' g', act command l g = some (reply, l', g') → l' = l.tick)
    (h : l.Settled paired) :
    Keeps machine (rules paired) (send command) (fun _ => Private.Settled paired) l :=
  send_keeps command free (fun l g reply l' g' acted => by rw [ticks l g reply l' g' acted]; rfl) h

theorem nextInt_keeps (bound : Nat) (h : l.Settled paired) :
    Keeps machine (rules paired) (send (.nextInt bound)) (fun _ => Private.Settled paired) l :=
  ask_keeps (.nextInt bound) (fun _ => trivial) (fun _ _ _ _ _ acted => by cases acted; rfl) h

namespace ManufactureScheduler

theorem generateCardDetails_keeps (cardLevel : String) (h : l.Settled paired) :
    Keeps machine (rules paired) (generateCardDetails cardLevel)
      (fun _ => Private.Settled paired) l := by
  unfold generateCardDetails
  simp only [keeps_bind]
  refine (ask_keeps .validDate (fun _ => trivial) (fun _ _ _ _ _ acted => by cases acted; rfl) h).mono
    fun _ _ h => ?_
  exact (nextInt_keeps _ h).mono fun _ _ h => (nextInt_keeps _ h).mono fun _ _ h =>
    (nextInt_keeps _ h).mono fun _ _ h => nextInt_keeps _ h

/-- A process is advanced and then reported. -/
theorem advance_keeps (ref : Nat) (process : ManufactureProcess) (status : ManufactureStatus)
    (report : StatusType) (details : Option Details) (h : l.Settled paired) :
    Keeps machine (rules paired)
      (do
        setStatus ref process status
        updateStatus report process.orderId details) (fun _ => Private.Settled paired) l := by
  rw [keeps_bind]
  exact (manufacture_keeps _ h).mono fun _ _ h => updateStatus_keeps _ _ _ h

theorem processIssueAndErrorStatus_keeps (ref : Nat) (process : ManufactureProcess)
    (h : l.Settled paired) :
    Keeps machine (rules paired) (processIssueAndErrorStatus ref process)
      (fun _ => Private.Settled paired) l := by
  unfold processIssueAndErrorStatus
  rw [keeps_bind]
  refine (ask_keeps .flag (fun _ => trivial) (fun _ _ _ _ _ acted => by cases acted; rfl) h).mono
    fun crisis l h => ?_
  split
  · split
    · exact advance_keeps ref process _ _ _ h
    · exact h
  · rw [keeps_bind]
    refine (nextInt_keeps _ h).mono fun delay l h => ?_
    split
    · rw [keeps_bind]
      exact (nextInt_keeps _ h).mono fun chips l h => advance_keeps ref process _ _ _ h
    · rw [keeps_bind]
      exact (generateCardDetails_keeps _ h).mono fun card l h => advance_keeps ref process _ _ _ h

theorem visit_keeps (ref : Nat) (process : ManufactureProcess) (h : l.Settled paired) :
    Keeps machine (rules paired) (visit ref process) (fun _ => Private.Settled paired) l := by
  unfold visit
  split
  all_goals rw [keeps_bind]
  · exact processIssueAndErrorStatus_keeps ref process h
  · exact processIssueAndErrorStatus_keeps ref process h
  · exact courier_keeps _ h

theorem run_keeps (h : l.Settled paired) :
    Keeps machine (rules paired) run (fun _ => Private.Settled paired) l := by
  refine keeps_pass ?_
  rw [keeps_bind]
  refine (manufacture_keeps _ h).mono fun start l h => ?_
  rw [keeps_bind]
  refine (keeps_walk (fun _ _ => Private.Settled paired) (fun _ => Private.Settled paired)
    (fun cursor removed l h => (manufacture_keeps _ h).mono fun found l h =>
      ⟨h, fun ref process _ => visit_keeps ref process h⟩) _ _ _ _ h).mono fun toBeRemoved l h => ?_
  exact keeps_forEach (fun _ => Private.Settled paired)
    (fun ref rest l h => manufacture_keeps _ h) toBeRemoved l h

end ManufactureScheduler

namespace CourierScheduler

theorem processNewCardReceivedStatus_keeps (ref : Nat) (process : CourierProcess)
    (h : l.Settled paired) :
    Keeps machine (rules paired) (processNewCardReceivedStatus ref process)
      (fun _ => Private.Settled paired) l := by
  unfold processNewCardReceivedStatus
  rw [keeps_bind]
  refine (keeps_getShippingAddress (P := Private.Settled paired) rules_callsFree (fun _ => Private.Settled.tick)
    (fun _ settled => settled) (fun l settled => OrderController.getShippingAddress_keeps _
      (fun _ => Private.Settled.tick) settled) h).mono fun address l h => ?_
  cases address with
  | none => exact h
  | some address =>
    simp only [keeps_bind]
    refine (ask_keeps .randomUUID (fun _ => trivial)
      (fun _ _ _ _ _ acted => by cases acted; rfl) h).mono fun guid l h => ?_
    exact (courier_keeps _ h).mono fun _ l h => updateStatus_keeps _ _ _ h

theorem visit_keeps (ref : Nat) (process : CourierProcess) (h : l.Settled paired) :
    Keeps machine (rules paired) (visit ref process) (fun _ => Private.Settled paired) l := by
  unfold visit
  split
  · rw [keeps_bind]
    exact processNewCardReceivedStatus_keeps ref process h
  · rw [keeps_bind]
    unfold processCardSentStatus
    rw [keeps_bind]
    exact (courier_keeps _ h).mono fun _ l h => updateStatus_keeps _ _ _ h
  · exact h

theorem run_keeps (h : l.Settled paired) :
    Keeps machine (rules paired) run (fun _ => Private.Settled paired) l := by
  refine keeps_pass ?_
  rw [keeps_bind]
  refine (courier_keeps _ h).mono fun start l h => ?_
  rw [keeps_bind]
  refine (keeps_walk (fun _ _ => Private.Settled paired) (fun _ => Private.Settled paired)
    (fun cursor removed l h => (courier_keeps _ h).mono fun found l h =>
      ⟨h, fun ref process _ => visit_keeps ref process h⟩) _ _ _ _ h).mono fun toBeRemoved l h => ?_
  exact keeps_forEach (fun _ => Private.Settled paired)
    (fun ref rest l h => courier_keeps _ h) toBeRemoved l h

end CourierScheduler

/-! ## All parties -/

theorem handler_keeps (request : Request) (h : l.Settled paired) :
    Keeps machine (rules paired) request.handler (fun _ => Private.Settled paired) l := by
  cases request with
  | createCreditCardOrder request => exact OrderController.createCreditCardOrder_keeps request h
  | getShippingAddress id =>
    exact OrderController.getShippingAddress_keeps id (fun _ => Private.Settled.tick) h
  | getStatusHistory accountId => exact OrderController.getStatusHistory_keeps accountId h
  | getLatestStatus accountId => exact OrderController.getLatestStatus_keeps accountId h
  | deleteOrder accountId => exact OrderController.deleteOrder_keeps accountId h
  | updateStatus id request => exact OrderController.handleNewStatus_keeps id request h
  | issueCreditCard request => exact issueCreditCard_keeps (fun _ => Private.Settled.tick) request h

/-- Every party keeps the rules. -/
theorem program_keeps {ι : Type} (requests : ι → Request) (rounds : Party ι → Nat)
    (i : Party ι) (h : l.Settled paired) :
    Keeps machine (rules paired) (program requests rounds i) (fun _ => Private.Settled paired) l := by
  cases i with
  | client i =>
    rw [program, keeps_bind]
    exact handler_keeps (requests i) h
  | work =>
    rw [program, keeps_bind]
    exact keeps_passes (fun _ => WorkScheduler.run_keeps) _ h
  | manufacture =>
    rw [program, keeps_bind]
    exact keeps_passes (fun _ => ManufactureScheduler.run_keeps) _ h
  | courier =>
    rw [program, keeps_bind]
    exact keeps_passes (fun _ => CourierScheduler.run_keeps) _ h

variable (paired) in
/-- What every command by the rules keeps holds after every schedule that respects
the condition, if what is not carried out was refusable. -/
theorem invariant_of_rules {ι : Type} [DecidableEq ι] {requests : ι → Request}
    {rounds : Party ι → Nat} {chances : Party ι → Nat → Chance} {g : World}
    {cond : Party ι → Bool → Command → Private → World → Prop}
    (inv : (Party ι → Private) → World → Prop) (valid : ∀ privs g, inv privs g → g.Valid)
    (excused : ∀ privs g i c refused, inv privs g → (rules paired).guard c (privs i) →
      cond i refused c (privs i) g → (refused = true ∨ act c (privs i) g = none) →
      (rules paired).refusable c (privs i))
    (kept : ∀ privs g i c reply l' g', (rules paired).guard c (privs i) →
      cond i false c (privs i) g → inv privs g → act c (privs i) g = some (reply, l', g') →
      inv (Function.update privs i l') g')
    {schedule : List (Party ι × Bool)} (first : inv (fun i => { chances := chances i }) g)
    (respects : (start requests rounds chances g).Respects machine cond schedule) :
    inv ((start requests rounds chances g).run machine schedule).privs
        ((start requests rounds chances g).run machine schedule).shared ∧
      ∀ i, Keeps machine (rules paired)
        (((start requests rounds chances g).run machine schedule).threads i).program
        (fun _ => Private.Settled paired)
        (((start requests rounds chances g).run machine schedule).threads i).priv :=
  System.run_terms (t := fun _ => rules paired) inv
    (fun privs g held _ => valid privs g held) excused kept schedule
    (fun i => program_keeps requests rounds i fun _ => rfl) first respects

end EasyTrade.Cards
