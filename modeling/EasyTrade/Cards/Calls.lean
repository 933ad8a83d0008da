import EasyTrade.Cards.Services
import EasyTrade.Logic.Alone

/-!
# Calls, walks and passes

What the programs of the parties are built from keeps whatever its parts keep:
a call over HTTP, a walk over a shared list, a pass that catches everything, any
number of passes. And which commands the handlers issue.
-/

namespace EasyTrade.Cards

open EasyTrade.Logic EasyTrade.Logic.Program

variable {t : Terms Command Failure Private World} {α : Type} {P Q : Private → Prop} {l : Private}

/-- The terms under which every error is met in the given states only. -/
abbrev aborting (t : Terms Command Failure Private World) (Q : Private → Prop) :
    Terms Command Failure Private World := { t with abort := fun _ => Q }

/-- A handler answers a failed statement and passes on every other error. -/
theorem keeps_handleSQLException {body : Task StandardResponse}
    (ends : ∀ e l, P l → t.abort e l)
    (h : Keeps machine (aborting t P) body (fun _ => P) l) :
    Keeps machine t (OrderController.handleSQLException body) (fun _ => P) l := by
  refine keeps_tryCatch (h.mono_abort fun e l out => ?_)
  cases e with
  | refused => exact out
  | _ => exact ends _ l out

/-- The terms leave the steps of a call free. -/
structure Terms.CallsFree (t : Terms Command Failure Private World) : Prop where
  /-- A request may be sent. -/
  request : ∀ l, t.guard .request l
  /-- An answer may be sent. -/
  answer : ∀ l, t.guard .answer l
  /-- Something on the way may answer. -/
  onTheWay : ∀ l, t.guard .answeredOnTheWay l

/-- A call takes `P` to `Q` if its handler does, whatever is lost: where a request
may be lost, `P` has to be enough for `Q`. -/
theorem keeps_exchange {handler : Task StandardResponse} (free : Terms.CallsFree t)
    (ticks : ∀ l, P l → P l.tick) (ticked : ∀ l, Q l → Q l.tick)
    (lost : ∀ l, P l → t.refusable .request l → Q l) (ends : ∀ l, Q l → t.abort .refused l)
    (handled : ∀ l, P l → Keeps machine (aborting t Q) handler (fun _ => Q) l) (start : P l) :
    Keeps machine t (exchange handler) (fun _ => Q) l := by
  have onTheWay : ∀ l, Q l → Keeps machine t undelivered (fun _ => Q) l := by
    intro l out
    rw [undelivered, keeps_bind]
    refine keeps_perform (free.onTheWay l) (fun _ => ends l out) fun g reply l' g' _ acted => ?_
    cases acted
    split
    · exact ticked _ out
    · exact ends _ (ticked _ out)
  have read : ∀ answer l, Q l → Keeps machine t (readAnswer answer) (fun _ => Q) l := by
    intro answer l out
    unfold readAnswer
    rw [keeps_bind]
    refine keeps_perform (free.answer l) (fun _ => ends l out) fun g reply l' g' _ acted => ?_
    cases acted
    cases answer with
    | none => exact ends _ (ticked _ out)
    | some response => exact ticked _ out
  have answers : ∀ l, P l → Keeps machine t (answerOf handler) (fun _ => Q) l := by
    intro l arrived
    refine keeps_tryCatch ?_
    rw [keeps_bind]
    exact handled l arrived
  rw [exchange, keeps_bind]
  refine keeps_tryCatch ?_
  rw [keeps_bind]
  refine keeps_perform (free.request l) (fun may => ?_) fun g reply l' g' _ acted => ?_
  · exact onTheWay l (lost l start may)
  · cases acted
    rw [keeps_pure, if_pos rfl, keeps_bind]
    exact (answers _ (ticks l start)).mono fun answer l out => read answer l out

/-- A report to the order service. -/
theorem keeps_updateStatus {status : StatusType} {id : OrderId} {details : Option Details}
    (free : Terms.CallsFree t) (ticks : ∀ l, P l → P l.tick) (ticked : ∀ l, Q l → Q l.tick)
    (lost : ∀ l, P l → t.refusable .request l → Q l) (ends : ∀ l, Q l → t.abort .runtime l)
    (handled : ∀ l, P l → Keeps machine (aborting t Q)
      (OrderController.handleNewStatus id { orderId := id, type := status.name, details })
      (fun _ => Q) l) (start : P l) :
    Keeps machine t (updateStatus status id details) (fun _ => Q) l := by
  refine keeps_tryCatch ?_
  rw [keeps_bind]
  exact keeps_exchange ⟨free.request, free.answer, free.onTheWay⟩ ticks ticked lost ends handled start

/-- The address, asked of the order service. -/
theorem keeps_getShippingAddress {id : OrderId} (free : Terms.CallsFree t)
    (ticks : ∀ l, P l → P l.tick) (ends : ∀ l, P l → t.abort .runtime l)
    (handled : ∀ l, P l → Keeps machine (aborting t P) (OrderController.getShippingAddress id)
      (fun _ => P) l) (start : P l) :
    Keeps machine t (getShippingAddress id) (fun _ => P) l := by
  refine keeps_tryCatch ?_
  rw [keeps_bind]
  have call : Keeps machine
      { t with abort := fun _ => t.abort .runtime }
      (exchange (OrderController.getShippingAddress id)) (fun _ => P) l :=
    keeps_exchange ⟨free.request, free.answer, free.onTheWay⟩ ticks ticks
      (fun l start _ => start) ends handled start
  refine call.mono fun response l out => ?_
  split
  · split <;> exact out
  · exact out

/-- A pass ends well or not at all. -/
theorem keeps_pass {body : Task Unit} (h : Keeps machine (aborting t P) body (fun _ => P) l) :
    Keeps machine t (pass body) (fun _ => P) l := keeps_tryCatch h

/-- A scheduler keeps what each of its passes keeps. -/
theorem keeps_passes {run : Task Unit} (h : ∀ l, P l → Keeps machine t run (fun _ => P) l)
    (n : Nat) (start : P l) : Keeps machine t (passes run n) (fun _ => P) l := by
  have each : Keeps machine t (forEach (List.replicate n run) id)
      (fun _ l => (∀ body ∈ ([] : List (Task Unit)), body = run) ∧ P l) l := by
    apply keeps_forEach (fun (bodies : List (Task Unit)) l => (∀ body ∈ bodies, body = run) ∧ P l)
    · intro body rest l held
      have own := held.1 body List.mem_cons_self
      subst own
      exact (h l held.2).mono fun _ _ kept =>
        ⟨fun b mem => held.1 b (List.mem_cons_of_mem _ mem), kept⟩
    · exact ⟨fun body mem => List.eq_of_mem_replicate mem, start⟩
  exact each.mono fun _ _ held => held.2

/-- A walk: what holds between two objects, and what holds at the end. -/
theorem keeps_walk {X : Type} {next : Nat → Task (Option (Nat × X))}
    {body : Nat → X → Task (List Nat)} (inv : Nat → List Nat → Private → Prop)
    (out : List Nat → Private → Prop)
    (visits : ∀ cursor removed l, inv cursor removed l →
      Keeps machine t (next cursor) (fun found l => out removed l ∧
        ∀ ref object, found = some (ref, object) → Keeps machine t (body ref object)
          (fun more l => inv (cursor + 1) (removed ++ more) l) l) l) :
    ∀ (steps cursor : Nat) (removed : List Nat) (l : Private), inv cursor removed l →
      Keeps machine t (walk next body steps cursor removed) out l
  | 0, cursor, removed, l, held => by
    rw [walk, keeps_bind]
    exact (visits cursor removed l held).mono fun _ _ h => h.1
  | steps + 1, cursor, removed, l, held => by
    rw [walk, keeps_bind]
    refine (visits cursor removed l held).mono fun found l h => ?_
    cases found with
    | none => exact h.1
    | some found =>
      rw [keeps_bind]
      exact (h.2 found.1 found.2 rfl).mono fun more l held =>
        keeps_walk inv out visits steps (cursor + 1) (removed ++ more) l held

section WalkingPass

variable {X : Type} {iterate : Task (Nat × Nat)} {next : Nat → Nat → Task (Option (Nat × X))}
  {visit : Nat → X → Task (List Nat)} {remove : Nat → Task Unit}

/-- A pass that walks over a list and then removes what it has collected. -/
def walkingPass (iterate : Task (Nat × Nat)) (next : Nat → Nat → Task (Option (Nat × X)))
    (visit : Nat → X → Task (List Nat)) (remove : Nat → Task Unit) : Task Unit := pass do
  let (modCount, size) ← iterate
  let toBeRemoved ← walk (fun cursor => next cursor modCount) visit size 0 []
  forEach toBeRemoved remove

theorem manufactureRun_eq : ManufactureScheduler.run = walkingPass (send (.manufacture .iterator))
    (fun cursor modCount => send (.manufacture (.next cursor modCount))) ManufactureScheduler.visit
    fun ref => send (.manufacture (.remove ref)) := rfl

theorem courierRun_eq : CourierScheduler.run = walkingPass (send (.courier .iterator))
    (fun cursor modCount => send (.courier (.next cursor modCount))) CourierScheduler.visit
    fun ref => send (.courier (.remove ref)) := rfl

/-- Such a pass keeps the terms if its visits do. -/
theorem keeps_walkingPass
    (iterates : ∀ l, Keeps machine (aborting t fun _ => True) iterate (fun _ _ => True) l)
    (removes : ∀ ref l, Keeps machine (aborting t fun _ => True) (remove ref) (fun _ _ => True) l)
    (walks : ∀ cursor modCount l, Keeps machine (aborting t fun _ => True) (next cursor modCount)
      (fun found l => ∀ ref object, found = some (ref, object) →
        Keeps machine (aborting t fun _ => True) (visit ref object) (fun _ _ => True) l) l) :
    Keeps machine t (walkingPass iterate next visit remove) (fun _ _ => True) l := by
  refine keeps_pass ?_
  rw [keeps_bind]
  refine (iterates l).mono fun reply l _ => ?_
  rw [keeps_bind]
  refine (keeps_walk (fun _ _ _ => True) (fun _ _ => True) (fun cursor removed l _ => ?_) _ _ _ _
    trivial).mono fun removed l _ => ?_
  · exact (walks cursor reply.1 l).mono fun found l visits => ⟨trivial, visits⟩
  · exact keeps_forEach (fun _ _ => True) (fun ref _ l _ => removes ref l) removed l trivial

end WalkingPass

/-- What a step of a walk over the manufacturer's list has found. -/
theorem found_manufacture {cursor modCount ref : Nat} {process : ManufactureProcess} {l' : Private}
    {g g' : World}
    (acted : act (.manufacture (.next cursor modCount)) l g = some (some (ref, process), l', g')) :
    ref ∈ g.manufacture.listed ∧ g.manufacture.objects[ref]? = some process := by
  obtain ⟨⟨reply, list⟩, stepped, same⟩ := Option.map_eq_some_iff.mp acted
  obtain ⟨next, isNext, isDone⟩ := Option.map_eq_some_iff.mp stepped
  cases isDone
  cases same
  obtain ⟨-, listed, object⟩ := Store.SyncList.next_eq_some isNext
  exact ⟨List.mem_of_getElem? listed, object⟩

/-- What a step of a walk over the courier's list has found. -/
theorem found_courier {cursor modCount ref : Nat} {process : CourierProcess} {l' : Private}
    {g g' : World}
    (acted : act (.courier (.next cursor modCount)) l g = some (some (ref, process), l', g')) :
    ref ∈ g.courier.listed ∧ g.courier.objects[ref]? = some process := by
  obtain ⟨⟨reply, list⟩, stepped, same⟩ := Option.map_eq_some_iff.mp acted
  obtain ⟨next, isNext, isDone⟩ := Option.map_eq_some_iff.mp stepped
  cases isDone
  cases same
  obtain ⟨-, listed, object⟩ := Store.SyncList.next_eq_some isNext
  exact ⟨List.mem_of_getElem? listed, object⟩

/-! ## What the handlers issue -/

/-- The commands of a handler that only reads. -/
def Command.Reads : Command → Prop
  | .shippingAddress _ | .orderIdForAccount _ | .statusList _ | .lastStatusForAccount _ | .flag =>
    True
  | _ => False

/-- The commands of a status update. -/
def Command.Updates : Command → Prop
  | .lastStatus _ | .insertStatus _ _ _ | .insertCard _ _ | .updateOrder _ _ => True
  | _ => False

/-- The commands of a status update of an order. -/
def Command.UpdatesOf (o : OrderId) : Command → Prop
  | .lastStatus _ => True
  | .insertStatus id _ _ | .insertCard id _ | .updateOrder id _ => id = o
  | _ => False

/-- The command of the manufacturer's handler. -/
def Command.Adds : Command → Prop
  | .manufacture (.add _) => True
  | _ => False

theorem only_handleSQLException {allowed : Command → Prop} {body : Task StandardResponse}
    (only : body.Only allowed) : (OrderController.handleSQLException body).Only allowed := by
  refine only_tryCatch only fun e => ?_
  cases e <;> trivial

/-- The details are read without a command. -/
theorem only_convert {allowed : Command → Prop} {α β : Type} (details : Option Details)
    (as : Details → Option α) {f : α → Task β} (only : ∀ a, (f a).Only allowed) :
    (OrderController.convert details as >>= f).Only allowed := by
  refine only_bind ?_ only
  unfold OrderController.convert
  split
  · trivial
  · split <;> trivial

theorem only_applyNewStatus_of (request : StatusRequest) (status : StatusType) :
    (OrderController.applyNewStatus request status).Only (Command.UpdatesOf request.orderId) := by
  have inserts : ∀ status details, (send (.insertStatus request.orderId status details)).Only
      (Command.UpdatesOf request.orderId) := fun _ _ => only_perform rfl
  cases status with
  | orderCreated => trivial
  | sequenceError => trivial
  | cardOrdered => exact inserts _ _
  | cardDelivered => exact inserts _ _
  | cardError => exact only_convert _ _ fun _ => inserts _ _
  | cardShipped =>
    exact only_convert _ _ fun _ => only_bind (only_perform rfl) fun _ => inserts _ _
  | cardCreated =>
    exact only_convert _ _ fun _ => only_bind (only_perform rfl) fun _ => inserts _ _

theorem only_handleNewStatus_of (id : OrderId) (request : StatusRequest) :
    (OrderController.handleNewStatus id request).Only (Command.UpdatesOf id) := by
  refine only_handleSQLException ?_
  split
  · trivial
  · rename_i same
    obtain rfl := not_not.1 same
    refine only_bind (only_perform trivial) fun status => ?_
    cases status with
    | none => trivial
    | some status =>
      change (OrderController.actOnNewStatus request status.status).Only _
      unfold OrderController.actOnNewStatus
      split
      · trivial
      · rename_i newStatusType _
        by_cases late : newStatusType.sequence ≤ status.status.sequence
        · rw [if_pos late]
          trivial
        · rw [if_neg late]
          by_cases supported : OrderController.isSupported newStatusType = true
          · rw [if_pos supported]
            exact only_bind (only_applyNewStatus_of _ _) fun _ => only_pure _
          · rw [if_neg supported]
            trivial

theorem only_handleNewStatus (id : OrderId) (request : StatusRequest) :
    (OrderController.handleNewStatus id request).Only Command.Updates :=
  (only_handleNewStatus_of id request).mono fun c updates => by cases c <;> trivial

theorem only_exchange {allowed : Command → Prop} {handler : Task StandardResponse}
    (calls : allowed .request ∧ allowed .answer ∧ allowed .answeredOnTheWay)
    (only : handler.Only allowed) : (exchange handler).Only allowed := by
  have answers : (answerOf handler).Only allowed :=
    only_tryCatch (only_bind only fun _ => trivial) fun _ => trivial
  have delivers : deliver.Only allowed :=
    only_tryCatch (only_bind (only_perform calls.1) fun _ => trivial) fun _ => trivial
  refine only_bind delivers fun delivered => ?_
  split
  · refine only_bind answers fun answer => only_bind (only_perform calls.2.1) fun _ => ?_
    cases answer <;> trivial
  · refine only_bind (only_perform calls.2.2) fun onTheWay => ?_
    split <;> trivial

theorem only_getShippingAddress (id : OrderId) :
    (OrderController.getShippingAddress id).Only Command.Reads := by
  refine only_handleSQLException (only_bind (only_perform trivial) fun address => ?_)
  cases address <;> trivial

theorem only_getStatusHistory (accountId : AccountId) :
    (OrderController.getStatusHistory accountId).Only Command.Reads := by
  refine only_handleSQLException (only_bind (only_perform trivial) fun order => ?_)
  cases order with
  | none => trivial
  | some order => exact only_bind (only_perform trivial) fun _ => trivial

theorem only_getLatestStatus (accountId : AccountId) :
    (OrderController.getLatestStatus accountId).Only Command.Reads := by
  refine only_handleSQLException (only_bind (only_perform trivial) fun meltdown => ?_)
  split
  · trivial
  · refine only_bind (only_perform trivial) fun status => ?_
    cases status <;> trivial

theorem only_issueCreditCard (request : Option ManufactureRequest) :
    (issueCreditCard request).Only Command.Adds := by
  cases request with
  | none => trivial
  | some request => exact only_bind (only_perform trivial) fun _ => trivial

end EasyTrade.Cards
