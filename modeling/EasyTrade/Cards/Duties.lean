import EasyTrade.Cards.Calls

/-!
# Who does what

The terms of each party. Only the manufacturer's scheduler walks its list and
advances processes there, and only it hands a card over, once for each time it
comes to a finished process. Only the courier's scheduler advances the courier's
processes.

The switch `reliable` says that nothing fails while an advance of one order waits
to be reported. Then each status of this order has one party that inserts it, after
the step it reports, and no party is left with a report that is due.
-/

namespace EasyTrade.Cards

open EasyTrade.Logic EasyTrade.Logic.Program

/-! ## Records -/

/-- Where a scheduler is in its walks. -/
structure Position where
  /-- The number of changes its walk over the manufacturer's list expects. -/
  expected : Nat
  /-- The place that walk has reached. -/
  cursor : Nat
  /-- The process of the manufacturer it is at. -/
  making : Option (Nat × ManufactureProcess)
  /-- Whether it has handed that one over. -/
  handedOver : Bool
  /-- The process of the courier it is at. -/
  carrying : Option (Nat × CourierProcess)

/-- Where a program is. -/
def Private.position (l : Private) : Position :=
  ⟨l.expected, l.cursor, l.making, l.handedOver, l.carrying⟩

/-- Nothing of the order waits to be reported. -/
structure Private.Idle (o : OrderId) (l : Private) : Prop where
  /-- No advance. -/
  due : l.due ≠ some o
  /-- No card. -/
  awaiting : l.awaiting ≠ some o
  /-- No shipping identifier. -/
  updated : l.updated ≠ some o

/-- The program is there, with nothing to report as far as that is asked for. -/
def At (reliable : Prop) (o : OrderId) (x : Position) (l : Private) : Prop :=
  l.position = x ∧ (reliable → l.Idle o)

/-- The program is there and has an advance to report. -/
def Due (reliable : Prop) (o : OrderId) (x : Position) (l : Private) : Prop :=
  l.position = x ∧ (reliable → l.due = some o ∧ l.awaiting ≠ some o ∧ l.updated ≠ some o)

/-- A command that is no step on a list. -/
def Command.OffList : Command → Prop
  | .manufacture _ | .courier _ => False
  | _ => True

variable {ι : Type} {reliable : Prop} {l l' : Private} {g g' : World} {c : Command}
  {reply : Reply c} {x : Position} {o id : OrderId}

/-- Such a command leaves a program where it is. -/
theorem position_act (off : c.OffList) (acted : act c l g = some (reply, l', g')) :
    l'.position = l.position := by
  cases c with
  | manufacture command => exact off.elim
  | courier command => exact off.elim
  | insertOrder request =>
    obtain ⟨db', -, same⟩ := Option.map_eq_some_iff.1 acted
    cases same
    rfl
  | lastStatusForAccount a =>
    obtain ⟨status, -, same⟩ := Option.map_eq_some_iff.1 acted
    cases same
    rfl
  | insertStatus id status details =>
    obtain ⟨rfl, -⟩ := of_withDb acted
    rfl
  | insertCard id card =>
    obtain ⟨rfl, -⟩ := of_withDb acted
    rfl
  | updateOrder id shippingId =>
    obtain ⟨rfl, -⟩ := of_withDb acted
    rfl
  | deleteStatuses a =>
    obtain ⟨rfl, -⟩ := of_withDb acted
    rfl
  | deleteCards a =>
    obtain ⟨rfl, -⟩ := of_withDb acted
    rfl
  | deleteOrders a =>
    obtain ⟨rfl, -⟩ := of_withDb acted
    rfl
  | _ =>
    cases acted
    rfl

/-! ## Terms -/

/-- Steps on the manufacturer's list: all but `add` belong to its scheduler, which
advances the process it is at. -/
def manufactureGuard (reliable : Prop) (o : OrderId) (i : Party ι) :
    ListCommand ManufactureProcess → Private → Prop
  | .add process, _ => process.status = .issuing
  | .iterator, _ => i = .manufacture
  | .next cursor modCount, l => i = .manufacture ∧ cursor = l.cursor ∧ modCount = l.expected
  | .set ref process, l =>
    i = .manufacture ∧ (reliable → l.Idle o) ∧ ∃ old, l.making = some (ref, old) ∧
      process.request = old.request ∧ old.status ≠ .cardCreated
  | .remove _, _ => i = .manufacture

/-- Steps on the courier's list: all but `add` belong to its scheduler, which advances
the process it is at. The manufacturer adds a process for the finished one it is at. -/
def courierGuard (reliable : Prop) (o : OrderId) (i : Party ι) :
    ListCommand CourierProcess → Private → Prop
  | .add process, l =>
    i = .manufacture ∧ (reliable → l.Idle o) ∧ ∃ ref made, l.making = some (ref, made) ∧
      made.status = .cardCreated ∧ l.handedOver = false ∧
      process = { creditCardOrderId := made.orderId }
  | .set ref process, l =>
    i = .courier ∧ (reliable → l.Idle o) ∧ ∃ old, l.carrying = some (ref, old) ∧
      process.creditCardOrderId = old.creditCardOrderId ∧
      ((old.status = .newCardReceived ∧ process.status = .cardSent ∧
          process.shippingId ≠ none) ∨
        (old.status = .cardSent ∧ process.status = .cardDelivered ∧
          process.shippingId = old.shippingId))
  | _, _ => i = .courier

/-- Who inserts a status of the order, and after what. -/
def statusGuard (i : Party ι) (o : OrderId) (l : Private) : StatusType → Prop
  | .orderCreated => ∃ j, i = .client j
  | .cardOrdered => i = .work
  | .cardError => i = .manufacture ∧ l.Idle o
  | .cardCreated => i = .manufacture ∧ l.due = some o ∧ l.awaiting = some o
  | .cardShipped => i = .courier ∧ l.due = some o ∧ l.updated = some o
  | .cardDelivered => i = .courier ∧ l.Idle o ∧ ∃ ref c, l.carrying = some (ref, c) ∧
      c.creditCardOrderId = o ∧ c.status = .cardDelivered
  | .sequenceError => False

/-- The duties of a party. -/
def duties (reliable : Prop) (o : OrderId) (i : Party ι) : Terms Command Failure Private World where
  assume l g := reliable → l.due = some o → ∀ s ∈ g.db.statusesOf o,
    (i = .manufacture → s.status.sequence < StatusType.cardCreated.sequence) ∧
      (i = .courier → s.status.sequence < StatusType.cardShipped.sequence)
  guard
    | .manufacture command, l => manufactureGuard reliable o i command l
    | .courier command, l => courierGuard reliable o i command l
    | .insertStatus id status _, l => reliable → id = o → statusGuard i o l status
    | .insertCard id _, l => reliable →
      (id ≠ o ∧ l.Idle o) ∨ (id = o ∧ i = .manufacture ∧ l.due = some o ∧ l.awaiting ≠ some o)
    | .updateOrder id shippingId, l => reliable →
      (id ≠ o ∧ l.Idle o) ∨ (id = o ∧ i = .courier ∧ l.due = some o ∧
        ∃ ref c, l.carrying = some (ref, c) ∧ c.creditCardOrderId = o ∧
          c.shippingId = some shippingId)
    | _, _ => True
  abort _ l := reliable → l.Idle o
  refusable _ l := reliable → l.due ≠ some o

variable {i : Party ι}

theorem duties_callsFree {Q : Private → Prop} :
    Terms.CallsFree (aborting (duties reliable o i) Q) :=
  ⟨fun _ => trivial, fun _ => trivial, fun _ => trivial⟩

/-! ## Commands that report nothing -/

/-- A command that changes no status of the order and no record of a report of it. -/
def Command.Quiet (o : OrderId) : Command → Prop
  | .insertStatus id _ _ | .insertCard id _ | .updateOrder id _ => id ≠ o
  | _ => True

theorem strike_ne {order : Option OrderId} (other : order ≠ some o) : strike order id ≠ some o := by
  unfold strike
  split
  · exact nofun
  · exact other

/-- A program that has nothing to report has nothing to report after such a command. -/
theorem idle_act (off : c.OffList) (quiet : c.Quiet o) (idle : l.Idle o)
    (acted : act c l g = some (reply, l', g')) : l'.Idle o := by
  obtain ⟨due, awaiting, updated⟩ := idle
  cases c with
  | manufacture command => exact off.elim
  | courier command => exact off.elim
  | insertStatus id status details =>
    obtain ⟨rfl, -⟩ := of_withDb acted
    exact ⟨strike_ne due, strike_ne awaiting, strike_ne updated⟩
  | insertCard id card =>
    obtain ⟨rfl, -⟩ := of_withDb acted
    exact ⟨due, fun same => quiet (Option.some.inj same), updated⟩
  | updateOrder id shippingId =>
    obtain ⟨rfl, -⟩ := of_withDb acted
    exact ⟨due, awaiting, fun same => quiet (Option.some.inj same)⟩
  | insertOrder request =>
    obtain ⟨db', -, same⟩ := Option.map_eq_some_iff.1 acted
    cases same
    exact ⟨due, awaiting, updated⟩
  | lastStatusForAccount a =>
    obtain ⟨status, -, same⟩ := Option.map_eq_some_iff.1 acted
    cases same
    exact ⟨due, awaiting, updated⟩
  | deleteStatuses a =>
    obtain ⟨rfl, -⟩ := of_withDb acted
    exact ⟨due, awaiting, updated⟩
  | deleteCards a =>
    obtain ⟨rfl, -⟩ := of_withDb acted
    exact ⟨due, awaiting, updated⟩
  | deleteOrders a =>
    obtain ⟨rfl, -⟩ := of_withDb acted
    exact ⟨due, awaiting, updated⟩
  | lastStatus id =>
    cases acted
    refine ⟨?_, awaiting, updated⟩
    simp only [Private.sawStatus, Private.tick]
    split
    · exact strike_ne due
    · exact due
  | _ =>
    cases acted
    exact ⟨due, awaiting, updated⟩

/-- A command off the lists, and no report of the order as far as that matters. -/
def Command.Plain (reliable : Prop) (o : OrderId) (c : Command) : Prop :=
  c.OffList ∧ (reliable → c.Quiet o)

/-- A command that only reads is one. -/
theorem Command.Reads.plain (reads : c.Reads) : c.Plain reliable o := by
  cases c with
  | shippingAddress id => exact ⟨trivial, fun _ => trivial⟩
  | orderIdForAccount a => exact ⟨trivial, fun _ => trivial⟩
  | statusList id => exact ⟨trivial, fun _ => trivial⟩
  | lastStatusForAccount a => exact ⟨trivial, fun _ => trivial⟩
  | flag => exact ⟨trivial, fun _ => trivial⟩
  | _ => exact reads.elim

/-- So is a command of the status update of another order. -/
theorem Command.UpdatesOf.plain (updates : c.UpdatesOf id) (other : reliable → id ≠ o) :
    c.Plain reliable o := by
  cases c with
  | lastStatus id' => exact ⟨trivial, fun _ => trivial⟩
  | insertStatus id' status details =>
    obtain rfl : id' = id := updates
    exact ⟨trivial, other⟩
  | insertCard id' card =>
    obtain rfl : id' = id := updates
    exact ⟨trivial, other⟩
  | updateOrder id' shippingId =>
    obtain rfl : id' = id := updates
    exact ⟨trivial, other⟩
  | _ => exact updates.elim

/-- Such a command leaves the program where it is, with nothing to report. -/
theorem At.act (plain : c.Plain reliable o) (acted : Cards.act c l g = some (reply, l', g'))
    (h : At reliable o x l) : At reliable o x l' :=
  ⟨(position_act plain.1 acted).trans h.1, fun on => idle_act plain.1 (plain.2 on) (h.2 on) acted⟩

/-- The duties leave such a command free where nothing is due. -/
theorem Command.Plain.free (plain : c.Plain reliable o) (h : At reliable o x l) :
    (duties reliable o i).guard c l := by
  obtain ⟨off, quiet⟩ := plain
  cases c with
  | manufacture command => exact off.elim
  | courier command => exact off.elim
  | insertStatus id status details => exact fun on own => (quiet on own).elim
  | insertCard id card => exact fun on => .inl ⟨quiet on, h.2 on⟩
  | updateOrder id shippingId => exact fun on => .inl ⟨quiet on, h.2 on⟩
  | _ => trivial

/-- A program of such commands. -/
theorem keeps_of_plain {α : Type} {p : Task α} (only : p.Only (Command.Plain reliable o))
    (h : At reliable o x l) :
    Keeps machine (aborting (duties reliable o i) (At reliable o x)) p
      (fun _ => At reliable o x) l :=
  only.keeps (t := aborting (duties reliable o i) (At reliable o x)) (At reliable o x)
    (fun _ _ plain h => plain.free h) (fun _ _ _ _ _ _ plain h acted => h.act plain acted)
    (fun _ _ h => h) h

/-- One such command. -/
theorem send_plain (plain : c.Plain reliable o) (h : At reliable o x l) :
    Keeps machine (aborting (duties reliable o i) (At reliable o x)) (send c)
      (fun _ => At reliable o x) l := keeps_of_plain (only_perform plain) h

theorem At.tick (h : At reliable o x l) : At reliable o x l.tick :=
  ⟨h.1, fun on => ⟨(h.2 on).1, (h.2 on).2, (h.2 on).3⟩⟩

theorem Due.tick (h : Due reliable o x l) : Due reliable o x l.tick := h

/-- Where a command may fail, nothing is due. -/
theorem Due.at (h : Due reliable o x l) (may : reliable → l.due ≠ some o) :
    At reliable o x l :=
  ⟨h.1, fun on => absurd (h.2 on).1 (may on)⟩

theorem strike_self (order : Option OrderId) (id : OrderId) : strike order id ≠ some id := by
  unfold strike
  split
  · exact nofun
  · assumption

/-- A status inserted by its party. -/
theorem keeps_insertStatus {status : StatusType} {details : String} (position : l.position = x)
    (guarded : reliable → statusGuard i o l status)
    (refused : (reliable → l.due ≠ some o) → At reliable o x l) :
    Keeps machine (aborting (duties reliable o i) (At reliable o x))
      (send (.insertStatus o status details)) (fun _ => At reliable o x) l := by
  refine keeps_perform (fun on _ => guarded on) refused fun g u l' g' _ acted => ?_
  obtain ⟨rfl, -⟩ := of_withDb acted
  exact ⟨position, fun _ => ⟨strike_self _ o, strike_self _ o, strike_self _ o⟩⟩

/-! ## Reports -/

/-- A report: it may fail, find no status, come too late or be accepted. -/
theorem keeps_report {status : StatusType} {details : Option Details}
    (supported : OrderController.isSupported status = true)
    (undone : (reliable → l.due ≠ some o) → At reliable o x l)
    (unknown : At reliable o x (l.sawStatus o none).tick)
    (late : ∀ g old, (duties reliable o i).assume l g → old ∈ g.db.statusesOf o →
      status.sequence ≤ old.status.sequence →
      At reliable o x (l.sawStatus o (some old.status)).tick)
    (accepted : ∀ old, Keeps machine (aborting (duties reliable o i) (At reliable o x))
      (OrderController.applyNewStatus { orderId := o, type := status.name, details } status)
      (fun _ => At reliable o x) (l.sawStatus o (some old)).tick) :
    Keeps machine (aborting (duties reliable o i) (At reliable o x))
      (OrderController.handleNewStatus o { orderId := o, type := status.name, details })
      (fun _ => At reliable o x) l := by
  refine keeps_handleSQLException (fun _ _ out => out) ?_
  rw [if_neg (not_not.2 rfl), keeps_bind]
  refine keeps_perform trivial undone fun g found l' g' assumed acted => ?_
  cases acted
  cases read : g.db.lastStatus l.chance.rank o with
  | none => exact unknown
  | some old =>
    have mem := Database.mem_of_lastStatus read
    unfold OrderController.actOnNewStatus
    rw [StatusType.valueOf_name]
    simp only [Option.map_some]
    by_cases tooLate : status.sequence ≤ old.status.sequence
    · rw [if_pos tooLate]
      exact late g old assumed mem tooLate
    · rw [if_neg tooLate, if_pos supported, keeps_bind]
      exact (accepted old.status).mono fun _ _ h => h

/-- A program at rest may also read a status. -/
theorem At.sawStatus (h : At reliable o x l) (status : Option StatusType) :
    At reliable o x (l.sawStatus o status).tick := by
  refine ⟨h.1, fun on => ⟨?_, (h.2 on).awaiting, (h.2 on).updated⟩⟩
  simp only [Private.sawStatus, Private.tick]
  split
  · exact strike_self _ o
  · exact (h.2 on).due

/-- A report of something that is not due. -/
theorem keeps_report_at {status : StatusType} {details : Option Details}
    (supported : OrderController.isSupported status = true) (h : At reliable o x l)
    (accepted : ∀ l, At reliable o x l →
      Keeps machine (aborting (duties reliable o i) (At reliable o x))
        (OrderController.applyNewStatus { orderId := o, type := status.name, details } status)
        (fun _ => At reliable o x) l) :
    Keeps machine (aborting (duties reliable o i) (At reliable o x))
      (OrderController.handleNewStatus o { orderId := o, type := status.name, details })
      (fun _ => At reliable o x) l :=
  keeps_report supported (fun _ => h) (h.sawStatus none) (fun _ _ _ _ _ => h.sawStatus _)
    fun _ => accepted _ (h.sawStatus _)

/-- A status read leaves the report due. -/
theorem Due.sawStatus (h : Due reliable o x l) (status : StatusType) :
    Due reliable o x (l.sawStatus o (some status)).tick := h

/-- A report of something that is due. -/
theorem keeps_report_due {status : StatusType} {details : Option Details}
    (supported : OrderController.isSupported status = true) (h : Due reliable o x l)
    (inTime : ∀ g old, (duties reliable o i).assume l g → reliable → l.due = some o →
      old ∈ g.db.statusesOf o → old.status.sequence < status.sequence)
    (accepted : ∀ l, Due reliable o x l →
      Keeps machine (aborting (duties reliable o i) (At reliable o x))
        (OrderController.applyNewStatus { orderId := o, type := status.name, details } status)
        (fun _ => At reliable o x) l) :
    Keeps machine (aborting (duties reliable o i) (At reliable o x))
      (OrderController.handleNewStatus o { orderId := o, type := status.name, details })
      (fun _ => At reliable o x) l := by
  refine keeps_report supported h.at ?_ ?_ fun old => accepted _ (h.sawStatus old)
  · refine ⟨h.1, fun on => ⟨?_, (h.2 on).2.1, (h.2 on).2.2⟩⟩
    exact strike_self _ o
  · intro g old assumed mem tooLate
    refine ⟨h.1, fun on => ?_⟩
    have := inTime g old assumed on (h.2 on).1 mem
    omega

/-- A report of another order. -/
theorem keeps_report_other (request : StatusRequest) (other : reliable → id ≠ o)
    (h : At reliable o x l) :
    Keeps machine (aborting (duties reliable o i) (At reliable o x))
      (OrderController.handleNewStatus id request) (fun _ => At reliable o x) l :=
  keeps_of_plain ((only_handleNewStatus_of id request).mono fun _ updates => updates.plain other) h

/-- A report in another service. -/
theorem keeps_updateStatus_at {status : StatusType} {details : Option Details} {P : Private → Prop}
    (ticks : ∀ l, P l → P l.tick)
    (undone : ∀ l, P l → (reliable → l.due ≠ some o) → At reliable o x l)
    (handled : ∀ l, P l → Keeps machine (aborting (duties reliable o i) (At reliable o x))
      (OrderController.handleNewStatus id { orderId := id, type := status.name, details })
      (fun _ => At reliable o x) l) (start : P l) :
    Keeps machine (aborting (duties reliable o i) (At reliable o x)) (updateStatus status id details)
      (fun _ => At reliable o x) l :=
  keeps_updateStatus (t := aborting (duties reliable o i) (At reliable o x)) duties_callsFree ticks
    (fun _ h => h.tick) (fun l start may => undone l start may) (fun _ h => h) handled start

/-! ## The manufacturer -/

namespace ManufactureScheduler

/-- A process set to another status, with nothing due before. -/
theorem setStatus_at {ref : Nat} {process : ManufactureProcess} {status : ManufactureStatus}
    {post : Private → Prop} (h : At reliable o x l) (making : x.making = some (ref, process))
    (unfinished : process.status ≠ .cardCreated)
    (done : ∀ l' : Private,
      l'.position = { x with making := some (ref, { process with status }) } →
      l'.due = (if status = .cardCreated then some process.orderId else l.due) →
      l'.awaiting = l.awaiting → l'.updated = l.updated → post l') :
    Keeps machine (aborting (duties reliable o (.manufacture : Party ι))
      fun l => reliable → l.Idle o) (setStatus ref process status) (fun _ => post) l := by
  have there : l.making = some (ref, process) := by
    have := congrArg Position.making h.1
    rw [making] at this
    exact this
  refine keeps_perform ⟨rfl, h.2, process, there, rfl, unfinished⟩ (fun _ on => h.2 on)
    fun g u l' g' _ acted => ?_
  cases acted
  obtain ⟨rfl, -⟩ := h
  exact done _ rfl rfl rfl rfl

/-- A failed manufacture and its report. -/
theorem fail_at {ref : Nat} {process : ManufactureProcess} {error : ErrorRequest}
    (h : At reliable o x l) (making : x.making = some (ref, process))
    (unfinished : process.status ≠ .cardCreated) :
    Keeps machine (aborting (duties reliable o (.manufacture : Party ι))
      fun l => reliable → l.Idle o)
      (do
        setStatus ref process .manufactureError
        updateStatus .cardError process.orderId (some { asError := some error }))
      (fun _ => At reliable o
        { x with making := some (ref, { process with status := .manufactureError }) }) l := by
  rw [keeps_bind]
  refine setStatus_at h making unfinished fun l' position due awaiting updated => ?_
  rw [if_neg nofun] at due
  have rest : At reliable o
      { x with making := some (ref, { process with status := .manufactureError }) } l' :=
    ⟨position, fun on => ⟨due ▸ (h.2 on).1, awaiting ▸ (h.2 on).2, updated ▸ (h.2 on).3⟩⟩
  refine (keeps_updateStatus_at (fun _ h => h.tick) (fun _ h _ => h) (fun l h => ?_)
    rest).mono_abort fun _ _ out => out.2
  by_cases own : process.orderId = o
  · rw [own]
    refine keeps_report_at rfl h fun l h => ?_
    change Keeps _ _ (send (.insertStatus o .cardError error.details)) _ _
    exact keeps_insertStatus h.1 (fun on => ⟨rfl, h.2 on⟩) fun _ => h
  · exact keeps_report_other _ (fun _ => own) h

/-- A card that has been made and its report. -/
theorem finish_at {ref : Nat} {process : ManufactureProcess} {card : CreditCardRequest}
    (h : At reliable o x l) (making : x.making = some (ref, process))
    (unfinished : process.status ≠ .cardCreated) :
    Keeps machine (aborting (duties reliable o (.manufacture : Party ι))
      fun l => reliable → l.Idle o)
      (do
        setStatus ref process .cardCreated
        updateStatus .cardCreated process.orderId (some { asCreditCard := some card }))
      (fun _ => At reliable o
        { x with making := some (ref, { process with status := .cardCreated }) }) l := by
  rw [keeps_bind]
  refine setStatus_at h making unfinished fun l' position due awaiting updated => ?_
  rw [if_pos rfl] at due
  by_cases own : process.orderId = o
  · rw [own] at due ⊢
    have reporting : Due reliable o
        { x with making := some (ref, { process with status := .cardCreated }) } l' :=
      ⟨position, fun on => ⟨due, awaiting ▸ (h.2 on).2, updated ▸ (h.2 on).3⟩⟩
    refine (keeps_updateStatus_at (fun _ h => h.tick) (fun _ h => h.at) (fun l h => ?_)
      reporting).mono_abort fun _ _ out => out.2
    refine keeps_report_due rfl h (fun g old assumed on due mem => ?_) fun l h => ?_
    · exact (assumed on due old mem).1 rfl
    · change Keeps _ _ (do
        send (.insertCard o card)
        OrderController.insertNewStatus o .cardCreated) _ _
      rw [keeps_bind]
      refine keeps_perform (fun on => .inr ⟨rfl, rfl, (h.2 on).1, (h.2 on).2.1⟩) h.at
        fun g u l' g' _ acted => ?_
      obtain ⟨rfl, -⟩ := of_withDb acted
      have due : reliable → l.due = some o := fun on => (h.2 on).1
      refine keeps_insertStatus h.1 (fun on => ⟨rfl, due on, rfl⟩) fun may => ⟨h.1, fun on => ?_⟩
      exact absurd (due on) (may on)
  · have rest : At reliable o
        { x with making := some (ref, { process with status := .cardCreated }) } l' :=
      ⟨position, fun on => ⟨fun same => own (Option.some.inj (due.symm.trans same)),
        awaiting ▸ (h.2 on).2, updated ▸ (h.2 on).3⟩⟩
    exact (keeps_updateStatus_at (fun _ h => h.tick) (fun _ h _ => h)
      (fun l h => keeps_report_other _ (fun _ => own) h) rest).mono_abort fun _ _ out => out.2

theorem only_generateCardDetails (cardLevel : String) :
    (generateCardDetails cardLevel).Only (Command.Plain reliable o) := by
  refine only_bind (only_perform ⟨trivial, fun _ => trivial⟩) fun _ => ?_
  refine only_bind (only_perform ⟨trivial, fun _ => trivial⟩) fun _ => ?_
  refine only_bind (only_perform ⟨trivial, fun _ => trivial⟩) fun _ => ?_
  refine only_bind (only_perform ⟨trivial, fun _ => trivial⟩) fun _ => ?_
  exact only_bind (only_perform ⟨trivial, fun _ => trivial⟩) fun _ => trivial

/-- Between two steps of a walk over the manufacturer's list. -/
def Walking (reliable : Prop) (o : OrderId) (expected cursor : Nat) (l : Private) : Prop :=
  l.expected = expected ∧ l.cursor = cursor ∧ (reliable → l.Idle o)

/-- Wherever else a program is, its walk has come as far. -/
theorem walking_of_at {y : Position} (h : At reliable o y l) (expected : y.expected = x.expected)
    (cursor : y.cursor = x.cursor) : Walking reliable o x.expected x.cursor l :=
  ⟨(congrArg Position.expected h.1).trans expected, (congrArg Position.cursor h.1).trans cursor, h.2⟩

theorem processIssueAndErrorStatus_at {ref : Nat} {process : ManufactureProcess}
    (h : At reliable o x l) (making : x.making = some (ref, process))
    (unfinished : process.status ≠ .cardCreated) :
    Keeps machine (aborting (duties reliable o (.manufacture : Party ι)) fun l => reliable → l.Idle o)
      (processIssueAndErrorStatus ref process)
      (fun _ => Walking reliable o x.expected x.cursor) l := by
  have plain : ∀ {c : Command} {l}, c.Plain reliable o → At reliable o x l →
      Keeps machine (aborting (duties reliable o (.manufacture : Party ι)) fun l => reliable → l.Idle o)
        (send c) (fun _ => At reliable o x) l :=
    fun plain h => (send_plain plain h).mono_abort fun _ _ out => out.2
  have nextInt : ∀ bound l, At reliable o x l →
      Keeps machine (aborting (duties reliable o (.manufacture : Party ι)) fun l => reliable → l.Idle o)
        (send (.nextInt bound)) (fun _ => At reliable o x) l :=
    fun bound _ => plain ⟨trivial, fun _ => trivial⟩
  unfold processIssueAndErrorStatus
  rw [keeps_bind]
  have asks : Command.Plain reliable o .flag := ⟨trivial, fun _ => trivial⟩
  refine (plain asks h).mono fun crisis l h => ?_
  split
  · split
    · exact (fail_at h making unfinished).mono fun _ _ h => walking_of_at h rfl rfl
    · exact walking_of_at h rfl rfl
  · rw [keeps_bind]
    refine (nextInt 100 l h).mono fun delay l h => ?_
    split
    · rw [keeps_bind]
      exact (nextInt 2 l h).mono fun chips l h =>
        (fail_at h making unfinished).mono fun _ _ h => walking_of_at h rfl rfl
    · rw [keeps_bind]
      exact ((keeps_of_plain (only_generateCardDetails _) h).mono_abort fun _ _ out => out.2).mono
        fun card l h => (finish_at h making unfinished).mono fun _ _ h => walking_of_at h rfl rfl

theorem visit_at {ref : Nat} {process : ManufactureProcess} (h : At reliable o x l)
    (making : x.making = some (ref, process)) (kept : x.handedOver = false) :
    Keeps machine (aborting (duties reliable o (.manufacture : Party ι)) fun l => reliable → l.Idle o)
      (visit ref process) (fun _ => Walking reliable o x.expected x.cursor) l := by
  unfold visit
  cases status : process.status with
  | issuing =>
    rw [keeps_bind]
    exact processIssueAndErrorStatus_at h making (by rw [status]; exact nofun)
  | manufactureError =>
    rw [keeps_bind]
    exact processIssueAndErrorStatus_at h making (by rw [status]; exact nofun)
  | cardCreated =>
    rw [keeps_bind]
    refine keeps_perform ⟨rfl, h.2, ref, process, ?_, status, ?_, rfl⟩ (fun _ => h.2)
      fun g u l' g' _ acted => ?_
    · exact (congrArg Position.making h.1).trans making
    · exact (congrArg Position.handedOver h.1).trans kept
    · cases acted
      exact ⟨congrArg Position.expected h.1, congrArg Position.cursor h.1,
        fun on => ⟨(h.2 on).1, (h.2 on).2, (h.2 on).3⟩⟩

theorem run_at (h : reliable → l.Idle o) :
    Keeps machine (duties reliable o (.manufacture : Party ι)) run
      (fun _ l => reliable → l.Idle o) l := by
  refine keeps_pass ?_
  rw [keeps_bind]
  refine keeps_perform rfl (fun _ => h) fun g reply l' g' _ acted => ?_
  cases acted
  rw [keeps_bind]
  generalize g.manufacture.modCount = modCount, g.manufacture.listed.length = size
  have start : Walking reliable o modCount 0 (l.sawManufacture .iterator (modCount, size)).tick :=
    ⟨rfl, rfl, fun on => ⟨(h on).1, (h on).2, (h on).3⟩⟩
  refine (keeps_walk (fun cursor _ => Walking reliable o modCount cursor)
    (fun _ l => reliable → l.Idle o) (fun cursor removed l walking => ?_) _ _ _ _
    start).mono fun toBeRemoved l h => ?_
  · obtain ⟨rfl, rfl, idle⟩ := walking
    refine keeps_perform ⟨rfl, rfl, rfl⟩ (fun _ => idle) fun g found l' g' _ acted => ?_
    obtain ⟨done, -, same⟩ := Option.map_eq_some_iff.1 acted
    cases same
    obtain ⟨found, list⟩ := done
    cases found with
    | none => exact ⟨fun on => ⟨(idle on).1, (idle on).2, (idle on).3⟩, nofun⟩
    | some found =>
      refine ⟨fun on => ⟨(idle on).1, (idle on).2, (idle on).3⟩, fun ref process same => ?_⟩
      cases same
      have there : At reliable o ⟨l.expected, l.cursor + 1, some (ref, process), false, l.carrying⟩
          (l.sawManufacture (.next l.cursor l.expected) (some (ref, process))).tick :=
        ⟨rfl, fun on => ⟨(idle on).1, (idle on).2, (idle on).3⟩⟩
      exact visit_at there rfl rfl
  · refine keeps_forEach (fun _ l => reliable → l.Idle o) (fun ref rest l h => ?_) toBeRemoved l h
    refine keeps_perform rfl (fun _ => h) fun g u l' g' _ acted => ?_
    cases acted
    exact fun on => ⟨(h on).1, (h on).2, (h on).3⟩

end ManufactureScheduler

/-! ## The courier -/

namespace CourierScheduler

/-- A process advanced, with nothing due before. -/
theorem set_at {ref : Nat} {old process : CourierProcess} {post : Private → Prop}
    (h : At reliable o x l) (carrying : x.carrying = some (ref, old))
    (same : process.creditCardOrderId = old.creditCardOrderId)
    (advance : (old.status = .newCardReceived ∧ process.status = .cardSent ∧
        process.shippingId ≠ none) ∨
      (old.status = .cardSent ∧ process.status = .cardDelivered ∧
        process.shippingId = old.shippingId))
    (done : ∀ l' : Private, l'.position = { x with carrying := some (ref, process) } →
      l'.due = (if process.status = .cardSent then some process.creditCardOrderId else l.due) →
      l'.awaiting = l.awaiting → l'.updated = l.updated → post l') :
    Keeps machine (aborting (duties reliable o (.courier : Party ι)) fun l => reliable → l.Idle o)
      (send (.courier (.set ref process))) (fun _ => post) l := by
  have there : l.carrying = some (ref, old) := (congrArg Position.carrying h.1).trans carrying
  refine keeps_perform ⟨rfl, h.2, old, there, same, advance⟩ (fun _ on => h.2 on)
    fun g u l' g' _ acted => ?_
  cases acted
  obtain ⟨rfl, -⟩ := h
  exact done _ rfl rfl rfl rfl

/-- A card that has been sent and its report. -/
theorem ship_at {ref : Nat} {process : CourierProcess} {address : ShippingAddress} {guid : String}
    (h : At reliable o x l) (carrying : x.carrying = some (ref, process))
    (new : process.status = .newCardReceived) :
    Keeps machine (aborting (duties reliable o (.courier : Party ι)) fun l => reliable → l.Idle o)
      (do
        send (.courier (.set ref
          { process with
            address := some address, status := .cardSent, shippingId := some guid }))
        updateStatus .cardShipped process.creditCardOrderId (some { asShippingId := some guid }))
      (fun _ l => reliable → l.Idle o) l := by
  rw [keeps_bind]
  refine set_at h carrying rfl (.inl ⟨new, rfl, nofun⟩) fun l' position due awaiting updated => ?_
  rw [if_pos rfl] at due
  by_cases own : process.creditCardOrderId = o
  · rw [own]
    have reporting : Due reliable o _ l' :=
      ⟨position, fun on => ⟨due.trans (congrArg some own), awaiting ▸ (h.2 on).2,
        updated ▸ (h.2 on).3⟩⟩
    refine ((keeps_updateStatus_at (fun _ h => h.tick) (fun _ h => h.at) (fun l h => ?_)
      reporting).mono_abort fun _ _ out => out.2).mono fun _ _ out => out.2
    refine keeps_report_due rfl h (fun g old assumed on due mem => ?_) fun l h => ?_
    · exact (assumed on due old mem).2 rfl
    · change Keeps _ _ (do
        send (.updateOrder o guid)
        OrderController.insertNewStatus o .cardShipped) _ _
      rw [keeps_bind]
      have at_process := congrArg Position.carrying h.1
      refine keeps_perform (fun on => .inr ⟨rfl, rfl, (h.2 on).1, ref, _, at_process, own, rfl⟩) h.at
        fun g u l' g' _ acted => ?_
      cases acted
      have due : reliable → l.due = some o := fun on => (h.2 on).1
      refine keeps_insertStatus h.1 (fun on => ⟨rfl, due on, rfl⟩) fun may => ⟨h.1, fun on => ?_⟩
      exact absurd (due on) (may on)
  · have rest : At reliable o _ l' :=
      ⟨position, fun on => ⟨fun same => own (Option.some.inj (due.symm.trans same)),
        awaiting ▸ (h.2 on).2, updated ▸ (h.2 on).3⟩⟩
    exact ((keeps_updateStatus_at (fun _ h => h.tick) (fun _ h _ => h)
      (fun l h => keeps_report_other _ (fun _ => own) h) rest).mono_abort
        fun _ _ out => out.2).mono fun _ _ out => out.2

theorem processNewCardReceivedStatus_at {ref : Nat} {process : CourierProcess}
    (h : At reliable o x l) (carrying : x.carrying = some (ref, process))
    (new : process.status = .newCardReceived) :
    Keeps machine (aborting (duties reliable o (.courier : Party ι)) fun l => reliable → l.Idle o)
      (processNewCardReceivedStatus ref process) (fun _ l => reliable → l.Idle o) l := by
  unfold processNewCardReceivedStatus
  rw [keeps_bind]
  have asks : Keeps machine (aborting (duties reliable o (.courier : Party ι)) (At reliable o x))
      (getShippingAddress process.creditCardOrderId) (fun _ => At reliable o x) l :=
    keeps_getShippingAddress (t := aborting (duties reliable o (.courier : Party ι)) (At reliable o x))
      duties_callsFree (fun _ h => h.tick) (fun _ h => h)
      (fun _ h => keeps_of_plain
        ((only_getShippingAddress _).mono fun _ => Command.Reads.plain) h) h
  refine (asks.mono_abort fun _ _ out => out.2).mono fun address l h => ?_
  cases address with
  | none => exact h.2
  | some address =>
    rw [keeps_bind]
    have draw : Command.Plain reliable o .randomUUID := ⟨trivial, fun _ => trivial⟩
    refine ((send_plain draw h).mono_abort fun _ _ out => out.2).mono fun guid l h => ?_
    exact ship_at h carrying new

theorem processCardSentStatus_at {ref : Nat} {process : CourierProcess}
    (h : At reliable o x l) (carrying : x.carrying = some (ref, process))
    (sent : process.status = .cardSent) :
    Keeps machine (aborting (duties reliable o (.courier : Party ι)) fun l => reliable → l.Idle o)
      (processCardSentStatus ref process) (fun _ l => reliable → l.Idle o) l := by
  unfold processCardSentStatus
  rw [keeps_bind]
  refine set_at h carrying rfl (.inr ?_) fun l' position due awaiting updated => ?_
  · exact ⟨sent, rfl, rfl⟩
  rw [if_neg nofun] at due
  have rest : At reliable o _ l' :=
    ⟨position, fun on => ⟨due ▸ (h.2 on).1, awaiting ▸ (h.2 on).2, updated ▸ (h.2 on).3⟩⟩
  refine ((keeps_updateStatus_at (fun _ h => h.tick) (fun _ h _ => h) (fun l h => ?_)
    rest).mono_abort fun _ _ out => out.2).mono fun _ _ out => out.2
  by_cases own : process.creditCardOrderId = o
  · subst own
    refine keeps_report_at rfl h fun l h => ?_
    have carries := congrArg Position.carrying h.1
    exact keeps_insertStatus h.1 (fun on => ⟨rfl, h.2 on, ref, _, carries, rfl, rfl⟩) fun _ => h
  · exact keeps_report_other _ (fun _ => own) h

theorem run_at (h : reliable → l.Idle o) :
    Keeps machine (duties reliable o (.courier : Party ι)) run
      (fun _ l => reliable → l.Idle o) l := by
  refine keeps_pass ?_
  rw [keeps_bind]
  refine keeps_perform rfl (fun _ => h) fun g reply l' g' _ acted => ?_
  cases acted
  rw [keeps_bind]
  have start : reliable → (l.sawCourier .iterator
      (g.courier.modCount, g.courier.listed.length)).tick.Idle o :=
    fun on => ⟨(h on).1, (h on).2, (h on).3⟩
  refine (keeps_walk (fun _ _ l => reliable → l.Idle o) (fun _ l => reliable → l.Idle o)
    (fun cursor removed l idle => ?_) _ _ _ _ start).mono fun toBeRemoved l h => ?_
  · refine keeps_perform rfl (fun _ => idle) fun g found l' g' _ acted => ?_
    obtain ⟨done, -, same⟩ := Option.map_eq_some_iff.1 acted
    cases same
    refine ⟨fun on => ⟨(idle on).1, (idle on).2, (idle on).3⟩, fun ref process isFound => ?_⟩
    have there : At reliable o ⟨l.expected, l.cursor, l.making, l.handedOver, some (ref, process)⟩
        (l.sawCourier (.next cursor _) done.1).tick := by
      rw [isFound]
      exact ⟨rfl, fun on => ⟨(idle on).1, (idle on).2, (idle on).3⟩⟩
    unfold visit
    cases status : process.status with
    | newCardReceived =>
      rw [keeps_bind]
      exact processNewCardReceivedStatus_at there rfl status
    | cardSent =>
      rw [keeps_bind]
      exact processCardSentStatus_at there rfl status
    | cardDelivered => exact there.2
  · refine keeps_forEach (fun _ l => reliable → l.Idle o) (fun ref rest l h => ?_) toBeRemoved l h
    refine keeps_perform rfl (fun _ => h) fun g u l' g' _ acted => ?_
    cases acted
    exact fun on => ⟨(h on).1, (h on).2, (h on).3⟩

end CourierScheduler

/-! ## The other parties -/

/-- A process put on the manufacturer's list. -/
theorem issueCreditCard_at (request : Option ManufactureRequest) (h : At reliable o x l) :
    Keeps machine (aborting (duties reliable o i) (At reliable o x)) (issueCreditCard request)
      (fun _ => At reliable o x) l := by
  cases request with
  | none => exact h
  | some request =>
    unfold issueCreditCard
    rw [keeps_bind]
    refine keeps_perform rfl (fun _ => h) fun g u l' g' _ acted => ?_
    cases acted
    exact h.tick

namespace OrderController

theorem createCreditCardOrder_at {j : ι} (request : CreditCardOrderRequest)
    (h : At reliable o x l) :
    Keeps machine (aborting (duties reliable o (.client j)) (At reliable o x))
      (createCreditCardOrder request) (fun _ => At reliable o x) l := by
  refine keeps_handleSQLException (fun _ _ out => out) ?_
  rw [keeps_bind]
  have counts : Command.Plain reliable o (.orderCount request.accountId) :=
    ⟨trivial, fun _ => trivial⟩
  refine (send_plain counts h).mono fun count l h => ?_
  split
  · rw [keeps_bind]
    refine keeps_perform trivial (fun _ => h) fun g guid l' g' _ acted => ?_
    obtain ⟨db', -, same⟩ := Option.map_eq_some_iff.1 acted
    cases same
    rw [keeps_bind]
    have rest : At reliable o x { l with created := some (g.uuids g.drawn) }.tick :=
      ⟨h.1, fun on => ⟨(h.2 on).1, (h.2 on).2, (h.2 on).3⟩⟩
    by_cases own : g.uuids g.drawn = o
    · rw [own] at rest ⊢
      exact keeps_insertStatus rest.1 (fun _ => ⟨j, rfl⟩) fun _ => rest
    · exact send_plain ⟨trivial, fun _ => own⟩ rest
  · exact h

theorem deleteOrder_at (accountId : AccountId) (h : At reliable o x l) :
    Keeps machine (aborting (duties reliable o i) (At reliable o x)) (deleteOrder accountId)
      (fun _ => At reliable o x) l := by
  have deletes : (deleteOrder accountId).Only (Command.Plain reliable o) := by
    refine only_handleSQLException (only_bind (only_perform ⟨trivial, fun _ => trivial⟩) fun _ => ?_)
    refine only_bind (only_perform ⟨trivial, fun _ => trivial⟩) fun _ => ?_
    exact only_bind (only_perform ⟨trivial, fun _ => trivial⟩) fun _ => trivial
  exact keeps_of_plain deletes h

end OrderController

/-- The request is no status update of the order. -/
def Request.IsNoUpdateOf (o : OrderId) : Request → Prop
  | .updateStatus id _ => id ≠ o
  | _ => True

theorem handler_at {j : ι} (request : Request) (closed : reliable → request.IsNoUpdateOf o)
    (h : At reliable o x l) :
    Keeps machine (aborting (duties reliable o (.client j)) (At reliable o x)) request.handler
      (fun _ => At reliable o x) l := by
  have reads : ∀ {p : Task StandardResponse}, p.Only Command.Reads →
      Keeps machine (aborting (duties reliable o (.client j)) (At reliable o x)) p
        (fun _ => At reliable o x) l := fun only => keeps_of_plain (only.mono fun _ => Command.Reads.plain) h
  cases request with
  | createCreditCardOrder request => exact OrderController.createCreditCardOrder_at request h
  | getShippingAddress id => exact reads (only_getShippingAddress id)
  | getStatusHistory accountId => exact reads (only_getStatusHistory accountId)
  | getLatestStatus accountId => exact reads (only_getLatestStatus accountId)
  | deleteOrder accountId => exact OrderController.deleteOrder_at accountId h
  | issueCreditCard request => exact issueCreditCard_at request h
  | updateStatus id request => exact keeps_report_other request closed h

theorem WorkScheduler.run_at (h : reliable → l.Idle o) :
    Keeps machine (duties reliable o (.work : Party ι)) WorkScheduler.run
      (fun _ l => reliable → l.Idle o) l := by
  refine keeps_pass ?_
  unfold WorkScheduler.getOrderIdsWithStatusOrderCreated
  simp only [keeps_bind]
  refine keeps_perform trivial (fun _ => h) fun g rows l' g' _ acted => ?_
  cases acted
  rw [keeps_pure]
  refine keeps_forEach (fun _ (l : Private) => reliable → l.Idle o) (fun orderId rest l h => ?_) _ _
    fun on => ⟨(h on).1, (h on).2, (h on).3⟩
  have start : At reliable o l.position l := ⟨rfl, h⟩
  rw [keeps_bind]
  have asks : Command.Plain reliable o (.manufactureData orderId) := ⟨trivial, fun _ => trivial⟩
  refine ((send_plain asks start).mono_abort fun _ _ out => out.2).mono fun body l h => ?_
  rw [keeps_bind]
  have called : Keeps machine (aborting (duties reliable o (.work : Party ι)) (At reliable o _))
      (exchange (issueCreditCard body)) (fun _ => At reliable o _) l :=
    keeps_exchange (t := aborting (duties reliable o (.work : Party ι)) (At reliable o _))
      duties_callsFree (fun _ h => h.tick) (fun _ h => h.tick) (fun _ h _ => h) (fun _ h => h)
      (fun _ h => issueCreditCard_at body h) h
  refine (called.mono_abort fun _ _ out => out.2).mono fun response l h => ?_
  split
  · have ordered : Keeps machine (aborting (duties reliable o (.work : Party ι))
        (At reliable o l.position))
        (OrderController.insertNewStatus orderId .cardOrdered) (fun _ => At reliable o l.position) l := by
      by_cases own : orderId = o
      · have guarded : reliable → statusGuard (.work : Party ι) o l .cardOrdered := fun _ => rfl
        rw [own]
        exact keeps_insertStatus rfl guarded fun _ => ⟨rfl, h.2⟩
      · have other : Command.Plain reliable o
            (.insertStatus orderId .cardOrdered StatusType.cardOrdered.description) :=
          ⟨trivial, fun _ => own⟩
        exact send_plain other ⟨rfl, h.2⟩
    exact (ordered.mono_abort fun _ _ out => out.2).mono fun _ _ out => out.2
  · exact h.2

/-- Every party does its duty, if no client sends a status update where that matters. -/
theorem program_duties {requests : ι → Request} {rounds : Party ι → Nat}
    (closed : reliable → ∀ i, (requests i).IsNoUpdateOf o) (i : Party ι) (h : reliable → l.Idle o) :
    Keeps machine (duties reliable o i) (program requests rounds i)
      (fun _ l => reliable → l.Idle o) l := by
  cases i with
  | client i =>
    rw [program, keeps_bind]
    have start : At reliable o l.position l := ⟨rfl, h⟩
    exact ((handler_at (requests i) (fun on => closed on i) start).mono_abort
      fun _ _ out => out.2).mono fun _ _ out => out.2
  | work =>
    rw [program, keeps_bind]
    exact keeps_passes (P := fun l => reliable → l.Idle o) (fun _ => WorkScheduler.run_at) _ h
  | manufacture =>
    rw [program, keeps_bind]
    exact keeps_passes (P := fun l => reliable → l.Idle o)
      (fun _ => ManufactureScheduler.run_at) _ h
  | courier =>
    rw [program, keeps_bind]
    exact keeps_passes (P := fun l => reliable → l.Idle o) (fun _ => CourierScheduler.run_at) _ h

/-- What every command by the duties keeps holds after every schedule that respects the
condition, if what is not carried out was refusable. -/
theorem invariant_of_duties {ι : Type} [DecidableEq ι] {o : OrderId} {requests : ι → Request}
    {rounds : Party ι → Nat} {chances : Party ι → Nat → Chance} {g : World} {reliable : Prop}
    {cond : Party ι → Bool → Command → Private → World → Prop}
    (closed : reliable → ∀ i, (requests i).IsNoUpdateOf o)
    (inv : (Party ι → Private) → World → Prop)
    (valid : ∀ privs g, inv privs g → ∀ i, (duties reliable o i).assume (privs i) g)
    (excused : ∀ privs g i c refused, inv privs g → (duties reliable o i).guard c (privs i) →
      cond i refused c (privs i) g → (refused = true ∨ act c (privs i) g = none) →
      (duties reliable o i).refusable c (privs i))
    (kept : ∀ privs g i c reply l' g', (duties reliable o i).guard c (privs i) →
      cond i false c (privs i) g → inv privs g → act c (privs i) g = some (reply, l', g') →
      inv (Function.update privs i l') g')
    {schedule : List (Party ι × Bool)} (first : inv (fun i => { chances := chances i }) g)
    (respects : (start requests rounds chances g).Respects machine cond schedule) :
    inv ((start requests rounds chances g).run machine schedule).privs
      ((start requests rounds chances g).run machine schedule).shared :=
  (System.run_terms (t := duties reliable o) (s := start requests rounds chances g) inv valid
    excused kept schedule (fun i => program_duties closed i fun _ =>
      ⟨Option.some_ne_none o |>.symm, Option.some_ne_none o |>.symm, Option.some_ne_none o |>.symm⟩)
    first respects).1

end EasyTrade.Cards
