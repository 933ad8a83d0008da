import EasyTrade.Cards.Alone

/-!
# Where an order stands

Where an order stands is seen from its rows and from the processes on the two lists. A pass that
runs alone, with nothing refused, comes to its end whatever it finds of other orders, and leaves
an order where it stands or takes it one step further: the work scheduler asks for its card, the
manufacturer's scheduler makes it, or fails to, and then hands it over, and the courier's sends
it and then delivers it.
-/

namespace EasyTrade.Cards

open EasyTrade.Logic EasyTrade.Logic.Program EasyTrade.Store

/-! ## Where an order stands -/

/-- The newest status. -/
def Latest (statuses : List CreditCardOrderStatus) (status : StatusType) : Prop :=
  ∃ x ∈ statuses, (∀ y ∈ statuses, y.id ≤ x.id) ∧ x.status = status

/-- No status comes after the given one. -/
def UpTo (status : StatusType) (statuses : List CreditCardOrderStatus) : Prop :=
  ∀ s ∈ statuses, s.status.sequence ≤ status.sequence

/-- The work scheduler has seen to the order. -/
def Taken (statuses : List CreditCardOrderStatus) : Prop :=
  ∃ status, Latest statuses status ∧ status ≠ .orderCreated

/-- What there is of an order. -/
structure Standing where
  /-- Its rows. -/
  rows : Rows
  /-- The manufacturer's processes on the list. -/
  making : List (Nat × ManufactureProcess)
  /-- The courier's processes on the list. -/
  carrying : List (Nat × CourierProcess)

/-- Where an order stands, without the processes that are to go. -/
def World.standing (o : OrderId) (gone gone' : List Nat) (g : World) : Standing where
  rows := g.rows o
  making := waiting g.manufacture (fun p => p.orderId = o) gone
  carrying := waiting g.courier (fun p => p.creditCardOrderId = o) gone'

/-- How far an order is. -/
inductive Milestone where
  /-- It has been placed. -/
  | placed
  /-- The manufacturer has been asked for its card. -/
  | ordered
  /-- The card has been made. -/
  | made
  /-- The card has been handed over. -/
  | handed
  /-- The card has been sent. -/
  | sent
  /-- The card has been delivered. -/
  | delivered
  deriving DecidableEq

namespace Standing

/-- The rows carry the identifier of a shipment. -/
def Shipped (v : Standing) : Prop :=
  ∃ row shippingId, v.rows.orders = [row] ∧ row.shippingId = some shippingId

/-- What holds at each milestone: of the manufacturer, the courier, the cards and the statuses. -/
def At (v : Standing) : Milestone → Prop
  | .placed => v.making = [] ∧ v.carrying = [] ∧ v.rows.cards = [] ∧
      (Latest v.rows.statuses .orderCreated ∧ UpTo .orderCreated v.rows.statuses) ∧
      ∀ row ∈ v.rows.orders, row.cardLevel ∈ cardLevels
  | .ordered => (∃ ref p, v.making = [(ref, p)] ∧ p.status ≠ .cardCreated ∧
      p.request.cardLevel ∈ cardLevels) ∧ v.carrying = [] ∧ v.rows.cards = [] ∧
      Taken v.rows.statuses ∧ UpTo .cardError v.rows.statuses
  | .made => (∃ ref p, v.making = [(ref, p)] ∧ p.status = .cardCreated) ∧ v.carrying = [] ∧
      v.rows.cards.length = 1 ∧ Taken v.rows.statuses ∧ UpTo .cardCreated v.rows.statuses
  | .handed => v.making = [] ∧ (∃ ref p, v.carrying = [(ref, p)] ∧ p.status = .newCardReceived) ∧
      v.rows.cards.length = 1 ∧ Taken v.rows.statuses ∧ UpTo .cardCreated v.rows.statuses
  | .sent => v.making = [] ∧ (∃ ref p, v.carrying = [(ref, p)] ∧ p.status = .cardSent) ∧
      v.rows.cards.length = 1 ∧ (Taken v.rows.statuses ∧ UpTo .cardShipped v.rows.statuses) ∧
      v.Shipped
  | .delivered => v.making = [] ∧
      (v.carrying = [] ∨ ∃ ref p, v.carrying = [(ref, p)] ∧ p.status = .cardDelivered) ∧
      v.rows.cards.length = 1 ∧ Latest v.rows.statuses .cardDelivered ∧ v.Shipped

end Standing

section Standing

variable {o : OrderId} {g g' : World} {gone gone' : List Nat} {rows : Rows} {status : StatusType}
  {before after : List CreditCardOrderStatus} {chances : Nat → Chance}

theorem Added.latest (added : Added status before after) : Latest after status := by
  obtain ⟨row, rfl, newer, rfl⟩ := added
  refine ⟨row, by simp, fun y mem => ?_, rfl⟩
  rcases List.mem_append.mp mem with old | new
  · exact Nat.le_of_lt (newer y old)
  · rw [List.mem_singleton.mp new]

theorem Added.upTo {bound bound' : StatusType} (added : Added status before after)
    (early : UpTo bound before) (later : bound.sequence ≤ bound'.sequence)
    (within : status.sequence ≤ bound'.sequence) : UpTo bound' after := by
  obtain ⟨row, rfl, -, rfl⟩ := added
  intro s mem
  rcases List.mem_append.mp mem with old | new
  · exact Nat.le_trans (early s old) later
  · rw [List.mem_singleton.mp new]
    exact within

theorem Latest.known (latest : Latest before status) : before ≠ [] := by
  obtain ⟨x, mem, -⟩ := latest
  exact List.ne_nil_of_mem mem

theorem Taken.known (taken : Taken before) : before ≠ [] := by
  obtain ⟨status, latest, -⟩ := taken
  exact latest.known

/-- An order stands where it stood, but for its rows. -/
theorem Wrote.standing (wrote : Wrote o rows g g') :
    g'.standing o gone gone' = { g.standing o gone gone' with rows } := by
  unfold World.standing
  rw [wrote.rows, wrote.manufacture, wrote.courier]

/-- A step on the manufacturer's list. -/
theorem goes_manufacture {command : ListCommand ManufactureProcess} {reply : command.Reply}
    {list : SyncList ManufactureProcess}
    {post : Reply (.manufacture command) → World → Prop}
    (acted : command.act g.manufacture = some (reply, list))
    (holds : post reply { g with manufacture := list }) :
    Goes chances (send (.manufacture command)) post g := by
  refine goes_send (fun l _ => ?_) fun l reply' l' g' _ acted' => ?_
  · simp [act, acted]
  · rw [act, acted] at acted'
    cases acted'
    exact holds

/-- A step on the courier's list. -/
theorem goes_courier {command : ListCommand CourierProcess} {reply : command.Reply}
    {list : SyncList CourierProcess} {post : Reply (.courier command) → World → Prop}
    (acted : command.act g.courier = some (reply, list))
    (holds : post reply { g with courier := list }) :
    Goes chances (send (.courier command)) post g := by
  refine goes_send (fun l _ => ?_) fun l reply' l' g' _ acted' => ?_
  · simp [act, acted]
  · rw [act, acted] at acted'
    cases acted'
    exact holds

end Standing

/-! ## Passes of the manufacturer -/

/-- The factory has no crisis, and the numbers drawn let every card be made. -/
def Favourable (chances : Nat → Chance) : Prop :=
  ∀ n, (chances n).flag = false ∧ 20 ≤ (chances n).random % 100

/-- The world once a process of the manufacturer has been set. -/
def World.withMade (g : World) (ref : Nat) (process : ManufactureProcess) : World :=
  { g with manufacture := g.manufacture.set ref process }

theorem World.Valid.withMade {g : World} (valid : g.Valid) (ref : Nat)
    (process : ManufactureProcess) : (g.withMade ref process).Valid :=
  { valid with manufacture := valid.manufacture.set ref process }

section Manufacture

open ManufactureScheduler

variable {o : OrderId} {g g' : World} {gone : List Nat} {chances : Nat → Chance} {ref : Nat}
  {process : ManufactureProcess}

/-- A process of another order is set. -/
theorem standing_withMade_of_other {old : ManufactureProcess}
    (isObject : g.manufacture.objects[ref]? = some old) (other : old.orderId ≠ o)
    (same : process.orderId = old.orderId) :
    (g.withMade ref process).standing o gone [] = g.standing o gone [] := by
  have off : decide (process.orderId = o) = false := decide_eq_false (same ▸ other)
  exact congrArg (Standing.mk (g.rows o) · _)
    (waiting_set_of_not isObject (decide_eq_false other) off)

/-- What is to go is removed from the manufacturer's list. -/
theorem standing_removeMade (valid : g.Valid) :
    ({ g with manufacture := g.manufacture.remove ref } : World).standing o gone [] =
      g.standing o (ref :: gone) [] :=
  congrArg (Standing.mk (g.rows o) · _) (waiting_remove valid.manufacture)

theorem goes_setStatus {status : ManufactureStatus} {post : Unit → World → Prop}
    (holds : post () (g.withMade ref { process with status })) :
    Goes chances (setStatus ref process status) post g := goes_manufacture rfl holds

/-- A process is set to its error state and reported, or left there, or its card is made. -/
theorem goes_processIssue (post : World → Prop)
    (leaves : ¬Favourable chances → process.status = .manufactureError → post g)
    (fails : ¬Favourable chances → ∀ e, Goes chances (do
      setStatus ref process .manufactureError
      updateStatus .cardError process.orderId (some { asError := some e })) (fun _ => post) g)
    (makes : ∀ card : CreditCardRequest, card.cardLevel = process.request.cardLevel →
      Goes chances (do
        setStatus ref process .cardCreated
        updateStatus .cardCreated process.orderId (some { asCreditCard := some card }))
        (fun _ => post) g) :
    Goes chances (processIssueAndErrorStatus ref process) (fun _ => post) g := by
  unfold processIssueAndErrorStatus
  refine goes_bind (goes_send (fun _ _ => rfl) fun l flag l' g' same acted => ?_)
  cases acted
  by_cases on : l.chance.flag = true
  · rw [if_pos on]
    have unlucky : ¬Favourable chances := fun favourable => by
      rw [Private.chance, same, (favourable _).1] at on
      cases on
    split
    · exact fails unlucky _
    · exact goes_pure (leaves unlucky (not_not.mp ‹_›))
  · rw [if_neg on]
    refine goes_bind (goes_send (fun _ _ => rfl) fun l number l' g' same acted => ?_)
    cases acted
    split
    · have unlucky : ¬Favourable chances := fun favourable => by
        have := (favourable l.turn).2
        rename_i less
        rw [Private.chance, same] at less
        exact absurd less (Nat.not_lt.mpr this)
      refine goes_bind (goes_send (fun _ _ => rfl) fun l coin l' g' _ acted => ?_)
      cases acted
      exact fails unlucky _
    · refine goes_bind (goes_bind (goes_send (fun _ _ => rfl) fun l date l' g' _ acted => ?_))
      cases acted
      refine goes_bind (goes_send (fun _ _ => rfl) fun l a l' g' _ acted => ?_)
      cases acted
      refine goes_bind (goes_send (fun _ _ => rfl) fun l b l' g' _ acted => ?_)
      cases acted
      refine goes_bind (goes_send (fun _ _ => rfl) fun l c l' g' _ acted => ?_)
      cases acted
      refine goes_bind (goes_send (fun _ _ => rfl) fun l cvs l' g' _ acted => ?_)
      cases acted
      exact goes_pure (makes _ rfl)

/-- A visit of a process of another order leaves an order where it stands. -/
theorem goes_visitForeign (valid : g.Valid) (isObject : g.manufacture.objects[ref]? = some process)
    (other : process.orderId ≠ o) : Goes chances (visit ref process) (fun removed g' =>
      Visited World.manufacture ref removed g g' ∧
        ∀ gone, g'.standing o (gone ++ removed) [] = g.standing o gone []) g := by
  have reports : ∀ (status : ManufactureStatus) (report : StatusType) (details : Option Details),
      Details.Fit report details → Goes chances (do
        setStatus ref process status
        updateStatus report process.orderId details) (fun _ g' =>
          Visited World.manufacture ref [] g g' ∧
            ∀ gone, g'.standing o (gone ++ []) [] = g.standing o gone []) g := by
    intro status report details fit
    have valid' := valid.withMade ref { process with status }
    refine goes_bind (goes_setStatus ((goes_foreignReport valid' other fit).mono
      fun _ g' wrote => ⟨⟨wrote.valid, ?_, ?_, nofun⟩, fun gone => ?_⟩))
    · rw [wrote.manufacture]
      rfl
    · rw [wrote.manufacture]
      rfl
    · rw [List.append_nil, wrote.standing]
      exact standing_withMade_of_other isObject other rfl
  have issues : Goes chances (processIssueAndErrorStatus ref process >>= fun _ => pure [])
      (fun removed g' => Visited World.manufacture ref removed g g' ∧
        ∀ gone, g'.standing o (gone ++ removed) [] = g.standing o gone []) g := by
    refine goes_bind ((goes_processIssue (fun g' => Visited World.manufacture ref [] g g' ∧
      ∀ gone, g'.standing o (gone ++ []) [] = g.standing o gone []) ?_ ?_ ?_).mono
        fun _ g' out => goes_pure out)
    · exact fun _ _ => ⟨⟨valid, rfl, rfl, nofun⟩, fun gone => by rw [List.append_nil]⟩
    · exact fun _ e => reports _ _ _ ⟨_, e, rfl, rfl⟩
    · exact fun card _ => reports _ _ _ ⟨_, card, rfl, rfl⟩
  unfold visit
  cases status : process.status with
  | issuing => exact issues
  | manufactureError => exact issues
  | cardCreated =>
    refine goes_bind (goes_courier rfl (goes_pure ⟨⟨?_, rfl, rfl, ?_⟩, fun gone => ?_⟩))
    · exact { valid with courier := valid.courier.add _ }
    · exact fun r mem => List.mem_singleton.mp mem
    · unfold World.standing
      rw [waiting_add_of_not valid.courier (decide_eq_false other)]
      rw [waiting_gone_of_not isObject (decide_eq_false other)]
      rfl

/-- A visit of the process of an order, and where the order stands after it. -/
abbrev Makes (o : OrderId) (after : Standing → Prop) :
    Nat → List Nat → World → List Nat → World → Prop :=
  Meets World.manufacture (fun p => p.orderId = o) fun gone g => after (g.standing o gone [])

/-- The only process of an order has been set, and a report may have reached the rows. -/
theorem Wrote.makes {old : ManufactureProcess} {rows : Rows} {after : Standing → Prop}
    (wrote : Wrote o rows (g.withMade ref process) g')
    (once : (g.standing o gone []).making = [(ref, old)]) (own : process.orderId = o)
    (holds : after ⟨rows, [(ref, process)], (g.standing o gone []).carrying⟩) :
    Makes o after ref gone g [] g' := by
  have manufacture : g'.manufacture = g.manufacture.set ref process := wrote.manufacture
  have made : waiting g'.manufacture (fun p => decide (p.orderId = o)) gone = [(ref, process)] := by
    rw [manufacture]
    exact waiting_set_of_once once (decide_eq_true own)
  have stands : g'.standing o gone [] =
      ⟨rows, [(ref, process)], (g.standing o gone []).carrying⟩ := by
    rw [← made, ← wrote.rows]
    unfold World.standing
    rw [wrote.courier]
    rfl
  refine ⟨⟨wrote.valid, by rw [manufacture]; rfl, by rw [manufacture]; rfl, nofun⟩,
    fun x mem => ?_, ?_⟩
  · rw [List.append_nil, made] at mem
    rw [List.mem_singleton.mp mem]
  · rw [List.append_nil, stands]
    exact holds

/-- The process of an order that waits for a visit. -/
theorem own_of_once (once : (g.standing o gone []).making = [(ref, process)]) :
    process.orderId = o := by
  obtain ⟨-, -, -, own⟩ := mem_waiting.mp (once ▸ List.mem_singleton_self (ref, process))
  exact of_decide_eq_true own

/-- A visit of the process of an order whose card is to be made. -/
theorem goes_visitOrdered (valid : g.Valid)
    (once : (g.standing o gone []).making = [(ref, process)])
    (stands : (g.standing o gone []).At .ordered) : Goes chances (visit ref process)
      (Makes o (fun v => v.At .made ∨ ¬Favourable chances ∧ v.At .ordered) ref gone g) g := by
  obtain ⟨⟨ref', p, same, unmade, level⟩, carrying, cards, taken, early⟩ := stands
  rw [once] at same
  obtain ⟨rfl, rfl⟩ := Prod.mk.inj (List.singleton_inj.mp same)
  obtain rfl := own_of_once once
  have valid' := fun status => valid.withMade ref { process with status }
  have issues : Goes chances (processIssueAndErrorStatus ref process >>= fun _ => pure [])
      (Makes process.orderId (fun v => v.At .made ∨ ¬Favourable chances ∧ v.At .ordered) ref gone g)
      g := by
    refine goes_bind ((goes_processIssue (Makes process.orderId _ ref gone g []) ?_ ?_ ?_).mono
      fun _ g' out => goes_pure out)
    · intro unlucky _
      have same : g.standing process.orderId (gone ++ []) [] =
          g.standing process.orderId gone [] := by
        rw [List.append_nil]
      refine ⟨⟨valid, rfl, rfl, nofun⟩, fun x mem => ?_, .inr ⟨unlucky, ?_⟩⟩
      · have mem : x ∈ (g.standing process.orderId (gone ++ []) []).making := mem
        rw [same, once] at mem
        rw [List.mem_singleton.mp mem]
      · rw [same]
        exact ⟨⟨ref, process, once, unmade, level⟩, carrying, cards, taken, early⟩
    · intro unlucky e
      refine goes_bind (goes_setStatus (goes_ownReport taken.known rfl ?_ ?_))
      · intro s mem _
        have same : Wrote process.orderId (g.rows process.orderId)
            (g.withMade ref { process with status := .manufactureError })
            (g.withMade ref { process with status := .manufactureError }) :=
          ⟨valid' _, rfl, rfl, rfl⟩
        exact same.makes once rfl
          (.inr ⟨unlucky, ⟨ref, _, rfl, nofun, level⟩, carrying, cards, taken, early⟩)
      · change Goes chances (OrderController.convert _ _ >>= _) _ _
        refine (goes_insertStatus .cardError e.details (valid' _) taken.known (by decide)).mono
          fun _ g' out => ?_
        obtain ⟨statuses, added, wrote⟩ := out
        exact wrote.makes once rfl (.inr ⟨unlucky, ⟨ref, _, rfl, nofun, level⟩, carrying, cards,
          ⟨_, added.latest, nofun⟩, added.upTo early (le_refl _) (le_refl _)⟩)
    · intro card sameLevel
      refine goes_bind (goes_setStatus ((goes_createCard (valid' _) taken.known
        (sameLevel ▸ level) fun s mem => Nat.lt_of_le_of_lt (early s mem) (by decide)).mono
          fun _ g' out => ?_))
      obtain ⟨statuses, row, added, wrote⟩ := out
      refine wrote.makes once rfl (.inl ⟨⟨ref, _, rfl, rfl⟩, carrying, ?_, ⟨_, added.latest, nofun⟩,
        added.upTo early (by decide) (le_refl _)⟩)
      have none : g.db.cardsOf process.orderId = [] := cards
      change (g.db.cardsOf process.orderId ++ [row]).length = 1
      rw [none]
      rfl
  unfold visit
  cases status : process.status with
  | issuing => exact issues
  | manufactureError => exact issues
  | cardCreated => exact absurd status unmade

/-- A visit of the process of an order whose card has been made hands the card over. -/
theorem goes_visitMade (valid : g.Valid)
    (once : (g.standing o gone []).making = [(ref, process)])
    (stands : (g.standing o gone []).At .made) :
    Goes chances (visit ref process) (Makes o (Standing.At · .handed) ref gone g) g := by
  obtain ⟨⟨ref', p, same, made⟩, carrying, cards, taken, early⟩ := stands
  rw [once] at same
  obtain ⟨rfl, rfl⟩ := Prod.mk.inj (List.singleton_inj.mp same)
  obtain rfl := own_of_once once
  have none : waiting g.manufacture (fun p => decide (p.orderId = process.orderId))
      (gone ++ [ref]) = [] := waiting_gone_of_once once
  have carried : waiting (g.courier.add { creditCardOrderId := process.orderId })
      (fun p => decide (p.creditCardOrderId = process.orderId)) [] =
        [(g.courier.objects.length, { creditCardOrderId := process.orderId })] := by
    have empty : waiting g.courier (fun p => decide (p.creditCardOrderId = process.orderId)) [] =
        [] := carrying
    rw [waiting_add valid.courier (decide_eq_true rfl), empty]
    rfl
  unfold visit
  rw [made]
  refine goes_bind (goes_courier rfl (goes_pure ⟨⟨?_, rfl, rfl, ?_⟩, fun x mem => ?_, ?_⟩))
  · exact { valid with courier := valid.courier.add _ }
  · exact fun r mem => List.mem_singleton.mp mem
  · have absent : x ∈ waiting g.manufacture (fun p => decide (p.orderId = process.orderId))
      (gone ++ [ref]) := mem
    rw [none] at absent
    cases absent
  · exact ⟨none, ⟨_, _, carried, rfl⟩, cards, taken, early⟩

/-- A pass visits the process of an order that is on the list, and removes what is to go. -/
theorem goes_manufactureRun (before after : Standing → Prop) (valid : g.Valid)
    (starts : (∃ ref p, (g.standing o [] []).making = [(ref, p)] ∧ before (g.standing o [] [])) ∨
      (g.standing o [] []).making = [] ∧ after (g.standing o [] []))
    (visits : ∀ ref p gone (g : World), g.Valid → (g.standing o gone []).making = [(ref, p)] →
      before (g.standing o gone []) → Goes chances (visit ref p) (Makes o after ref gone g) g) :
    Goes chances run (fun _ g' => g'.Valid ∧ after (g'.standing o [] [])) g := by
  refine goes_tryCatch (goes_bind (goes_manufacture rfl ?_))
  refine goes_rounds World.manufacture (fun p => p.orderId = o)
    (fun gone g => before (g.standing o gone [])) (fun gone g => after (g.standing o gone []))
    (fun g valid => valid.manufacture) ?_ ?_ ?_ visits valid starts
  · intro cursor g found post isNext holds
    exact goes_manufacture (by simp [ListCommand.act, isNext]) holds
  · intro ref gone g valid holds
    refine goes_manufacture rfl ⟨{ valid with manufacture := valid.manufacture.remove ref }, ?_⟩
    rw [standing_removeMade valid]
    exact holds
  · intro ref p gone g valid isObject other
    refine (goes_visitForeign valid isObject (of_decide_eq_false other)).mono fun _ g' out => ?_
    obtain ⟨visited, same⟩ := out
    refine ⟨visited, congrArg Standing.making (same gone), fun holds => ?_, fun holds => ?_⟩
    · rw [same]
      exact holds
    · rw [same]
      exact holds

end Manufacture

/-! ## Passes of the courier -/

/-- The world once a process of the courier has been set. -/
def World.withCarried (g : World) (ref : Nat) (process : CourierProcess) : World :=
  { g with courier := g.courier.set ref process }

theorem World.Valid.withCarried {g : World} (valid : g.Valid) (ref : Nat)
    (process : CourierProcess) : (g.withCarried ref process).Valid :=
  { valid with courier := valid.courier.set ref process }

section Courier

open CourierScheduler

variable {o : OrderId} {g g' : World} {gone : List Nat} {chances : Nat → Chance} {ref : Nat}
  {process : CourierProcess}

/-- A process of another order is set. -/
theorem standing_withCarried_of_other {old : CourierProcess}
    (isObject : g.courier.objects[ref]? = some old) (other : old.creditCardOrderId ≠ o)
    (same : process.creditCardOrderId = old.creditCardOrderId) :
    (g.withCarried ref process).standing o [] gone = g.standing o [] gone := by
  have off : decide (process.creditCardOrderId = o) = false := decide_eq_false (same ▸ other)
  exact congrArg (Standing.mk (g.rows o) _)
    (waiting_set_of_not isObject (decide_eq_false other) off)

theorem goes_setCarried {post : Unit → World → Prop} (holds : post () (g.withCarried ref process)) :
    Goes chances (send (.courier (.set ref process))) post g := goes_courier rfl holds

/-- A process is given its address and the identifier of its shipment, if there is an address. -/
theorem goes_processNewCardReceivedStatus (post : World → Prop)
    (unknown : g.db.shippingAddress process.creditCardOrderId = none → post g)
    (sends : ∀ address guid, g.db.shippingAddress process.creditCardOrderId = some address →
      Goes chances (do
        send (.courier (.set ref { process with
          address := some address, status := .cardSent, shippingId := some guid }))
        updateStatus .cardShipped process.creditCardOrderId (some { asShippingId := some guid }))
        (fun _ => post) { g with drawn := g.drawn + 1 }) :
    Goes chances (processNewCardReceivedStatus ref process) (fun _ => post) g := by
  refine goes_bind (goes_getShippingAddress ?_)
  cases address : g.db.shippingAddress process.creditCardOrderId with
  | none => exact goes_pure (unknown address)
  | some address' =>
    refine goes_bind (goes_send (fun _ _ => rfl) fun l guid l' g' _ acted => ?_)
    cases acted
    exact sends address' _ address

/-- A visit of the process of an order, and where the order stands after it. -/
abbrev Carries (o : OrderId) (after : Standing → Prop) :
    Nat → List Nat → World → List Nat → World → Prop :=
  Meets World.courier (fun p => p.creditCardOrderId = o) fun gone g => after (g.standing o [] gone)

/-- The only process of an order has been set, and a report has reached the rows. -/
theorem Wrote.carries {old : CourierProcess} {rows : Rows} {after : Standing → Prop} {g₁ : World}
    (wrote : Wrote o rows g₁ g') (set : g₁.courier = g.courier.set ref process)
    (same : g₁.manufacture = g.manufacture)
    (once : (g.standing o [] gone).carrying = [(ref, old)]) (own : process.creditCardOrderId = o)
    (holds : after ⟨rows, (g.standing o [] gone).making, [(ref, process)]⟩) :
    Carries o after ref gone g [] g' := by
  have courier : g'.courier = g.courier.set ref process := wrote.courier.trans set
  have carried : waiting g'.courier (fun p => decide (p.creditCardOrderId = o)) gone =
      [(ref, process)] := by
    rw [courier]
    exact waiting_set_of_once once (decide_eq_true own)
  have stands : g'.standing o [] gone =
      ⟨rows, (g.standing o [] gone).making, [(ref, process)]⟩ := by
    rw [← carried, ← wrote.rows]
    unfold World.standing
    rw [wrote.manufacture, same]
  refine ⟨⟨wrote.valid, by rw [courier]; rfl, by rw [courier]; rfl, nofun⟩, fun x mem => ?_, ?_⟩
  · rw [List.append_nil, carried] at mem
    rw [List.mem_singleton.mp mem]
  · rw [List.append_nil, stands]
    exact holds

/-- A visit of a process of another order leaves an order where it stands. -/
theorem goes_carryForeign (valid : g.Valid) (isObject : g.courier.objects[ref]? = some process)
    (other : process.creditCardOrderId ≠ o) : Goes chances (visit ref process) (fun removed g' =>
      Visited World.courier ref removed g g' ∧
        ∀ gone, g'.standing o [] (gone ++ removed) = g.standing o [] gone) g := by
  have reports : ∀ (new : CourierProcess) (report : StatusType) (details : Option Details)
      (n : Nat), g.drawn ≤ n → new.creditCardOrderId = process.creditCardOrderId →
      Details.Fit report details → Goes chances (do
        send (.courier (.set ref new))
        updateStatus report process.creditCardOrderId details) (fun _ g' =>
          Visited World.courier ref [] g g' ∧ ∀ gone,
            g'.standing o [] (gone ++ []) = g.standing o [] gone) { g with drawn := n } := by
    intro new report details n later same fit
    have valid' : ({ g with drawn := n } : World).Valid :=
      { valid with fresh := fun m undrawn => valid.fresh m (Nat.le_trans later undrawn) }
    refine goes_bind (goes_setCarried ((goes_foreignReport (valid'.withCarried ref new) other
      fit).mono fun _ g' wrote => ⟨⟨wrote.valid, ?_, ?_, nofun⟩, fun gone => ?_⟩))
    · rw [wrote.courier]
      rfl
    · rw [wrote.courier]
      rfl
    · rw [List.append_nil, wrote.standing]
      exact standing_withCarried_of_other isObject other same
  unfold visit
  cases status : process.status with
  | newCardReceived =>
    refine goes_bind ((goes_processNewCardReceivedStatus _ ?_ ?_).mono fun _ _ out =>
      goes_pure out)
    · exact fun _ => ⟨⟨valid, rfl, rfl, nofun⟩, fun gone => by rw [List.append_nil]⟩
    · exact fun address guid _ => reports _ _ _ _ (Nat.le_succ _) rfl ⟨_, guid, rfl, rfl⟩
  | cardSent =>
    exact goes_bind ((reports { process with status := .cardDelivered } .cardDelivered none g.drawn
      (le_refl _) rfl trivial).mono fun _ g' out => goes_pure out)
  | cardDelivered =>
    refine goes_pure ⟨⟨valid, rfl, rfl, fun r mem => List.mem_singleton.mp mem⟩, fun gone => ?_⟩
    exact congrArg (Standing.mk (g.rows o) _) (waiting_gone_of_not isObject (decide_eq_false other))

/-- The process of an order that waits for a visit. -/
theorem own_of_carried_once (once : (g.standing o [] gone).carrying = [(ref, process)]) :
    process.creditCardOrderId = o := by
  obtain ⟨-, -, -, own⟩ := mem_waiting.mp (once ▸ List.mem_singleton_self (ref, process))
  exact of_decide_eq_true own

/-- A visit of the process of an order whose card has been handed over sends the card. -/
theorem goes_visitHanded (valid : g.Valid)
    (once : (g.standing o [] gone).carrying = [(ref, process)])
    (stands : (g.standing o [] gone).At .handed) :
    Goes chances (visit ref process) (Carries o (Standing.At · .sent) ref gone g) g := by
  obtain ⟨making, ⟨ref', p, same, received⟩, cards, taken, early⟩ := stands
  rw [once] at same
  obtain ⟨rfl, rfl⟩ := Prod.mk.inj (List.singleton_inj.mp same)
  obtain rfl := own_of_carried_once once
  unfold visit
  rw [received]
  refine goes_bind ((goes_processNewCardReceivedStatus
    (Carries process.creditCardOrderId _ ref gone g []) ?_ ?_).mono fun _ g' out => goes_pure out)
  · -- an order with a status has an address
    intro unknown
    obtain ⟨row, mem, isRow⟩ := List.mem_map.mp (mem_orderIds_of_known valid taken.known)
    rw [Database.shippingAddress, Option.map_eq_none_iff, List.find?_eq_none] at unknown
    exact absurd (decide_eq_true isRow) (unknown row mem)
  · intro address guid _
    have valid' : ({ g with drawn := g.drawn + 1 } : World).Valid :=
      { valid with fresh := fun m undrawn => valid.fresh m (Nat.le_of_succ_le undrawn) }
    refine goes_bind (goes_setCarried ((goes_ship (valid'.withCarried ref _) taken.known
      fun s mem => Nat.lt_of_le_of_lt (early s mem) (by decide)).mono fun _ g' out => ?_))
    obtain ⟨statuses, row, added, shipped, wrote⟩ := out
    exact wrote.carries rfl rfl once rfl ⟨making, ⟨ref, _, rfl, rfl⟩, cards,
      ⟨⟨_, added.latest, nofun⟩, added.upTo early (by decide) (le_refl _)⟩, row, guid, rfl, shipped⟩

/-- A visit of the process of an order whose card has been sent delivers the card. -/
theorem goes_visitSent (valid : g.Valid)
    (once : (g.standing o [] gone).carrying = [(ref, process)])
    (stands : (g.standing o [] gone).At .sent) :
    Goes chances (visit ref process) (Carries o (Standing.At · .delivered) ref gone g) g := by
  obtain ⟨making, ⟨ref', p, same, sent⟩, cards, ⟨taken, early⟩, shipped⟩ := stands
  rw [once] at same
  obtain ⟨rfl, rfl⟩ := Prod.mk.inj (List.singleton_inj.mp same)
  obtain rfl := own_of_carried_once once
  unfold visit
  rw [sent]
  have valid' := valid.withCarried ref { process with status := .cardDelivered }
  refine goes_bind (goes_bind (goes_setCarried (goes_ownReport taken.known rfl ?_ ?_)))
  · exact fun s mem late => absurd (Nat.le_trans late (early s mem)) (by decide)
  · refine (goes_insertStatus .cardDelivered _ valid' taken.known (by decide)).mono fun _ g' out => ?_
    obtain ⟨statuses, added, wrote⟩ := out
    exact goes_pure (wrote.carries rfl rfl once rfl
      ⟨making, .inr ⟨ref, _, rfl, rfl⟩, cards, added.latest, shipped⟩)

/-- A visit of the process of an order whose card has been delivered lets the process go. -/
theorem goes_visitDelivered (valid : g.Valid)
    (once : (g.standing o [] gone).carrying = [(ref, process)])
    (stands : (g.standing o [] gone).At .delivered) :
    Goes chances (visit ref process) (Carries o (Standing.At · .delivered) ref gone g) g := by
  obtain ⟨making, carrying, cards, latest, shipped⟩ := stands
  have delivered : process.status = .cardDelivered := by
    rcases carrying with none | ⟨ref', p, same, delivered⟩
    · rw [once] at none
      cases none
    · rw [once] at same
      obtain ⟨rfl, rfl⟩ := Prod.mk.inj (List.singleton_inj.mp same)
      exact delivered
  have none : waiting g.courier (fun p => decide (p.creditCardOrderId = o)) (gone ++ [ref]) = [] :=
    waiting_gone_of_once once
  unfold visit
  rw [delivered]
  refine goes_pure ⟨⟨valid, rfl, rfl, fun r mem => List.mem_singleton.mp mem⟩, fun x mem => ?_,
    making, .inl none, cards, latest, shipped⟩
  rw [none] at mem
  cases mem

/-- What is to go is removed from the courier's list. -/
theorem standing_removeCarried (valid : g.Valid) :
    ({ g with courier := g.courier.remove ref } : World).standing o [] gone =
      g.standing o [] (ref :: gone) :=
  congrArg (Standing.mk (g.rows o) _) (waiting_remove valid.courier)

/-- A pass visits the process of an order that is on the list, and removes what is to go. -/
theorem goes_courierRun (before after : Standing → Prop) (valid : g.Valid)
    (starts : (∃ ref p, (g.standing o [] []).carrying = [(ref, p)] ∧ before (g.standing o [] [])) ∨
      (g.standing o [] []).carrying = [] ∧ after (g.standing o [] []))
    (visits : ∀ ref p gone (g : World), g.Valid → (g.standing o [] gone).carrying = [(ref, p)] →
      before (g.standing o [] gone) → Goes chances (visit ref p) (Carries o after ref gone g) g) :
    Goes chances run (fun _ g' => g'.Valid ∧ after (g'.standing o [] [])) g := by
  refine goes_tryCatch (goes_bind (goes_courier rfl ?_))
  refine goes_rounds World.courier (fun p => p.creditCardOrderId = o)
    (fun gone g => before (g.standing o [] gone)) (fun gone g => after (g.standing o [] gone))
    (fun g valid => valid.courier) ?_ ?_ ?_ visits valid starts
  · intro cursor g found post isNext holds
    exact goes_courier (by simp [ListCommand.act, isNext]) holds
  · intro ref gone g valid holds
    refine goes_courier rfl ⟨{ valid with courier := valid.courier.remove ref }, ?_⟩
    rw [standing_removeCarried valid]
    exact holds
  · intro ref p gone g valid isObject other
    refine (goes_carryForeign valid isObject (of_decide_eq_false other)).mono fun _ g' out => ?_
    obtain ⟨visited, same⟩ := out
    refine ⟨visited, congrArg Standing.carrying (same gone), fun holds => ?_, fun holds => ?_⟩
    · rw [same]
      exact holds
    · rw [same]
      exact holds

end Courier

/-! ## Passes of the work scheduler -/

section Work

open WorkScheduler

variable {o id : OrderId} {g g' : World} {l l' : Private} {chances : Nat → Chance}

/-- The world once the manufacturer has been asked for a card. -/
def World.asked (g : World) (row : CreditCardOrder) : World :=
  { g with manufacture := g.manufacture.add { request := ⟨row.id, row.name, row.cardLevel⟩ } }

theorem World.Valid.asked {g : World} (valid : g.Valid) (row : CreditCardOrder) :
    (g.asked row).Valid := { valid with manufacture := valid.manufacture.add _ }

/-- The manufacturer is asked for the card of an order, and the order is given the status. -/
theorem goes_ask {post : World → Prop} (valid : g.Valid) (known : g.db.statusesOf id ≠ [])
    (holds : ∀ row ∈ g.db.orders, row.id = id → ∀ l l' g' u,
      act (.insertStatus id .cardOrdered StatusType.cardOrdered.description) l (g.asked row) =
        some (u, l', g') → post g') :
    Goes chances (do
      let body ← send (.manufactureData id)
      let response ← exchange (issueCreditCard body)
      if response.statusCode = 200 then OrderController.insertNewStatus id .cardOrdered)
      (fun _ => post) g := by
  refine goes_bind (goes_send (fun _ _ => rfl) fun l body l' g' _ acted => ?_)
  cases acted
  cases found : g.db.orders.find? fun row => row.id = id with
  | none =>
    obtain ⟨row, mem, isRow⟩ := List.mem_map.mp (mem_orderIds_of_known valid known)
    exact absurd (decide_eq_true isRow) (List.find?_eq_none.mp found row mem)
  | some row =>
    have isRow : row.id = id := by simpa using List.find?_some found
    rw [Database.manufactureData, found]
    have asks : Goes chances (issueCreditCard (some ⟨row.id, row.name, row.cardLevel⟩))
        (fun response g' => response.statusCode = 200 ∧ g' = g.asked row) g :=
      goes_bind (goes_manufacture rfl (goes_pure ⟨rfl, rfl⟩))
    refine goes_bind ((goes_exchange asks).mono fun response g' out => ?_)
    obtain ⟨ok, rfl⟩ := out
    rw [if_pos ok]
    exact goes_insert (valid.asked row) known nofun
      (holds row (List.mem_of_find?_eq_some found) isRow)

/-- A status more leaves no order without a status. -/
theorem known_insertStatus {status : StatusType} {text : String} {u : Unit} {id' : OrderId}
    (acted : act (.insertStatus id status text) l g = some (u, l', g'))
    (known : g.db.statusesOf id' ≠ []) : g'.db.statusesOf id' ≠ [] := by
  obtain ⟨s, mem⟩ := List.exists_mem_of_ne_nil _ known
  obtain ⟨isStatus, own⟩ := Database.mem_statusesOf.mp mem
  refine List.ne_nil_of_mem (Database.mem_statusesOf.mpr ⟨?_, own⟩)
  rw [(tables_act acted).2.1]
  exact List.mem_append_left _ isStatus

/-- The manufacturer is asked for the card of an order. -/
theorem standing_asked {row : CreditCardOrder} {statuses : List CreditCardOrderStatus}
    (valid : g.Valid) (isRow : row ∈ g.db.orders) (stands : (g.standing row.id [] []).At .placed)
    (added : Added .cardOrdered (g.db.statusesOf row.id) statuses)
    (wrote : Wrote row.id { (g.asked row).rows row.id with statuses } (g.asked row) g') :
    (g'.standing row.id [] []).At .ordered := by
  obtain ⟨making, carrying, cards, ⟨latest, early⟩, levels⟩ := stands
  rw [wrote.standing]
  have level : row.cardLevel ∈ cardLevels :=
    levels row (List.mem_filter.mpr ⟨isRow, decide_eq_true rfl⟩)
  refine ⟨⟨g.manufacture.objects.length, { request := ⟨row.id, row.name, row.cardLevel⟩ }, ?_,
    nofun, level⟩, carrying, cards, ⟨_, added.latest, nofun⟩,
    added.upTo early (by decide) (by decide)⟩
  change waiting (g.manufacture.add _) _ [] = _
  have empty : waiting g.manufacture (fun p => decide (p.orderId = row.id)) [] = [] := making
  rw [waiting_add valid.manufacture (decide_eq_true rfl), empty]
  rfl

/-- The manufacturer is asked for the card of another order. -/
theorem standing_asked_of_other {row : CreditCardOrder} (valid : g.Valid) (other : row.id ≠ o) :
    (g.asked row).standing o [] [] = g.standing o [] [] := by
  refine congrArg (Standing.mk (g.rows o) · _) ?_
  change waiting (g.manufacture.add _) _ [] = _
  exact waiting_add_of_not valid.manufacture (decide_eq_false other)

/-- No order is named twice among those to see to. -/
theorem nodup_currentStatuses {db : Database} (valid : db.Valid) (status : StatusType) :
    ((db.currentStatuses.filter fun row => row.2 = status).map Prod.fst).Nodup := by
  have distinct : db.statuses.Nodup :=
    valid.ascending.imp fun less same => absurd (same ▸ less) (Nat.lt_irrefl _)
  have once : (db.currentStatuses.map Prod.fst).Nodup := by
    unfold Database.currentStatuses
    rw [List.map_map]
    refine (distinct.filter _).map_on fun x hx y hy same => ?_
    have newest : ∀ z ∈ db.statuses.filter fun x => db.statuses.all fun y =>
        y.creditCardOrderId = x.creditCardOrderId → y.id ≤ x.id,
        db.Newest z.creditCardOrderId z := by
      intro z mem
      obtain ⟨isStatus, all⟩ := List.mem_filter.mp mem
      refine ⟨Database.mem_statusesOf.mpr ⟨isStatus, rfl⟩, fun y mem => ?_⟩
      obtain ⟨isStatus', own⟩ := Database.mem_statusesOf.mp mem
      exact of_decide_eq_true (List.all_eq_true.mp all y isStatus') own
    have same : x.creditCardOrderId = y.creditCardOrderId := same
    exact valid.newest_unique (newest x hx) (same ▸ newest y hy)
  exact once.sublist (List.filter_sublist.map _)

/-- A pass sees to the order if it has been placed. -/
theorem goes_workRun (after : Standing → Prop) (valid : g.Valid)
    (starts : (g.standing o [] []).At .placed ∧ after = (Standing.At · .ordered) ∨
      (o, .orderCreated) ∉ g.db.currentStatuses ∧ after (g.standing o [] [])) :
    Goes chances run (fun _ g' => g'.Valid ∧ after (g'.standing o [] [])) g := by
  refine goes_tryCatch (goes_bind (goes_bind (goes_send (fun _ _ => rfl)
    fun l rows l' g' _ acted => ?_)))
  cases acted
  refine goes_pure ((goes_forEach (fun ids g => g.Valid ∧ ids.Nodup ∧
    (∀ id ∈ ids, g.db.statusesOf id ≠ []) ∧
    (o ∈ ids ∧ (g.standing o [] []).At .placed ∧ after = (Standing.At · .ordered) ∨
      o ∉ ids ∧ after (g.standing o [] []))) (fun id ids g held => ?_) _ g ?_).mono
        fun _ g' held => ⟨held.1, (held.2.2.2.resolve_left fun there => by cases there.1).2⟩)
  · obtain ⟨valid, nodup, known, stage⟩ := held
    refine goes_ask valid (known id List.mem_cons_self) fun row isRow own l l' g' u acted => ?_
    obtain ⟨absent, nodup⟩ := List.nodup_cons.mp nodup
    refine ⟨act_valid (valid.asked row) acted, nodup, fun id' mem =>
      known_insertStatus acted (known id' (List.mem_cons_of_mem _ mem)), ?_⟩
    by_cases here : id = o
    · subst here
      rcases stage with ⟨-, stands, rfl⟩ | ⟨none, -⟩
      · subst own
        obtain ⟨statuses, added, wrote⟩ := wrote_insertStatus (valid.asked row) acted
        exact .inr ⟨absent, standing_asked valid isRow stands added wrote⟩
      · exact absurd List.mem_cons_self none
    · have wrote :=
        wrote_update (o := o) (valid.asked row) here (c := .insertStatus _ _ _) rfl acted
      have same : g'.standing o [] [] = g.standing o [] [] := by
        rw [wrote.standing]
        exact standing_asked_of_other valid (own ▸ here)
      rw [same]
      rcases stage with ⟨there, stands⟩ | ⟨none, holds⟩
      · exact .inl ⟨(List.mem_cons.mp there).resolve_left fun same => here same.symm, stands⟩
      · exact .inr ⟨fun there => none (List.mem_cons_of_mem _ there), holds⟩
  · have isListed : ∀ id, id ∈ (g.db.currentStatuses.filter fun row => row.2 = .orderCreated).map
        Prod.fst ↔ (id, .orderCreated) ∈ g.db.currentStatuses := by
      simp
    refine ⟨valid, nodup_currentStatuses valid.db _, fun id mem => ?_, ?_⟩
    · obtain ⟨x, newest, -⟩ := Database.mem_currentStatuses.mp ((isListed id).mp mem)
      exact List.ne_nil_of_mem newest.1
    · refine starts.imp (fun placed => ⟨(isListed o).mpr ?_, placed⟩) fun other =>
        ⟨fun mem => other.1 ((isListed o).mp mem), other.2⟩
      obtain ⟨x, mem, newest, isStatus⟩ := placed.1.2.2.2.1.1
      exact Database.mem_currentStatuses.mpr ⟨x, ⟨mem, newest⟩, isStatus⟩

end Work

end EasyTrade.Cards
