import EasyTrade.Cards.Handover
import EasyTrade.Cards.Statuses

/-!
# From the order to the delivery

The course of one order through the four components, seen from outside: the processes
the manufacturer and the courier have of it, its rows, and what has been done and not
reported yet. The course goes through seven stages. Everything the components do
leaves an order at its stage or takes it to the next one, as long as no report of an
advance of the order fails, the order is asked for and handed over once and nobody
deletes its rows. So a card that is shipped has been made, once, and its order carries
the identifier of its shipment (`shipped_cards_accounted`).
-/

namespace EasyTrade.Cards

open EasyTrade.Logic EasyTrade.Store

/-! ## The course of an order -/

/-- The manufacturer has made the card. -/
structure Finished (made : List ManufactureProcess) (statuses : List CreditCardOrderStatus) :
    Prop where
  /-- There is a process. -/
  asked : made ≠ []
  /-- It is finished. -/
  created : ∀ process ∈ made, process.status = .cardCreated
  /-- There is a status. -/
  known : statuses ≠ []

/-- The manufacturer has not made the card. -/
structure Unfinished (made : List ManufactureProcess) (statuses : List CreditCardOrderStatus) :
    Prop where
  /-- No process is finished. -/
  working : ∀ process ∈ made, process.status ≠ .cardCreated
  /-- There is a status once there is a process. -/
  known : made ≠ [] → statuses ≠ []

/-- What there is of an order. -/
structure Course where
  /-- The manufacturer's processes. -/
  made : List ManufactureProcess
  /-- The courier's processes. -/
  carried : List CourierProcess
  /-- The rows of `CreditCardOrders`. -/
  rows : List CreditCardOrder
  /-- The rows of `CreditCardOrderStatus`. -/
  statuses : List CreditCardOrderStatus
  /-- The rows of `CreditCards`. -/
  cards : List CreditCard
  /-- A card has been made and not reported. -/
  cardDue : Prop
  /-- The row of that card is stored. -/
  cardStored : Prop
  /-- A card has been sent and not reported. -/
  shipmentDue : Prop
  /-- The identifier of that shipment is stored. -/
  shipmentStored : Prop

theorem Finished.append {made : List ManufactureProcess} {statuses : List CreditCardOrderStatus}
    (finished : Finished made statuses) (row : CreditCardOrderStatus) :
    Finished made (statuses ++ [row]) := ⟨finished.asked, finished.created, by simp⟩

namespace Course

variable {v : Course}

/-- All statuses come before the given one. -/
def Before (v : Course) (status : StatusType) : Prop :=
  ∀ s ∈ v.statuses, s.status.sequence < status.sequence

/-- The rows carry the identifier of the shipment. -/
def Addressed (v : Course) : Prop :=
  ∀ process ∈ v.carried, ∀ row ∈ v.rows, row.shippingId = process.shippingId

/-- A card has been reported, and nothing of its shipment. -/
def CardReported (v : Course) : Prop :=
  v.Before .cardShipped ∧ ∃ s ∈ v.statuses, s.status = .cardCreated

/-- A shipment has been reported, each time after the card. -/
def ShipmentReported (v : Course) : Prop :=
  (∃ s ∈ v.statuses, s.status = .cardShipped) ∧ ∀ s ∈ v.statuses, s.status = .cardShipped →
    ∃ s' ∈ v.statuses, s'.status = .cardCreated ∧ s'.id < s.id

/-- The courier has one process, which has an identifier. -/
def Sent (v : Course) (status : CourierStatus → Prop) : Prop :=
  ∃ process, v.carried = [process] ∧ status process.status ∧ process.shippingId ≠ none

/-- The stages of an order. -/
inductive Stage where
  /-- No card has been made. -/
  | unmade
  /-- A card has been made. -/
  | made
  /-- Its row is stored. -/
  | stored
  /-- It has been reported; the courier may have a process, and has not sent it. -/
  | created
  /-- It has been sent. -/
  | sent
  /-- The identifier of the shipment is stored. -/
  | addressed
  /-- The shipment has been reported. -/
  | shipped
  deriving DecidableEq

/-- What holds of an order at each stage: of the manufacturer, the statuses, the cards
and the courier, and what is due. -/
def Reached (v : Course) : Stage → Prop
  | .unmade => Unfinished v.made v.statuses ∧ v.Before .cardCreated ∧ v.cards = [] ∧ v.carried = [] ∧
      ¬v.cardDue ∧ ¬v.shipmentDue
  | .made => Finished v.made v.statuses ∧ v.Before .cardCreated ∧ v.cards = [] ∧ v.carried = [] ∧
      (v.cardDue ∧ ¬v.cardStored) ∧ ¬v.shipmentDue
  | .stored => Finished v.made v.statuses ∧ v.Before .cardCreated ∧ v.cards.length = 1 ∧ v.carried = [] ∧
      (v.cardDue ∧ v.cardStored) ∧ ¬v.shipmentDue
  | .created => Finished v.made v.statuses ∧ v.CardReported ∧ v.cards.length = 1 ∧
      (v.carried = [] ∨ ∃ process, v.carried = [process] ∧ process.status = .newCardReceived) ∧
      ¬v.cardDue ∧ ¬v.shipmentDue
  | .sent => Finished v.made v.statuses ∧ v.CardReported ∧ v.cards.length = 1 ∧ v.Sent (· = .cardSent) ∧
      ¬v.cardDue ∧ (v.shipmentDue ∧ ¬v.shipmentStored)
  | .addressed => Finished v.made v.statuses ∧ v.CardReported ∧ v.cards.length = 1 ∧
      (v.Sent (· = .cardSent) ∧ v.Addressed) ∧ ¬v.cardDue ∧ (v.shipmentDue ∧ v.shipmentStored)
  | .shipped => Finished v.made v.statuses ∧ v.ShipmentReported ∧ v.cards.length = 1 ∧
      (v.Sent (· ≠ .newCardReceived) ∧ v.Addressed) ∧ ¬v.cardDue ∧ ¬v.shipmentDue

/-- An order is at one of the stages. -/
def Sound (v : Course) : Prop := ∃ stage, v.Reached stage

/-! ## Where an order is -/

theorem not_unfinished (finished : Finished v.made v.statuses)
    (working : ∀ process ∈ v.made, process.status ≠ .cardCreated) : False := by
  obtain ⟨process, mem⟩ := List.exists_mem_of_ne_nil _ finished.asked
  exact working process mem (finished.created process mem)

/-- Without a finished process no card has been made. -/
theorem Sound.unmade (sound : v.Sound)
    (working : ∀ process ∈ v.made, process.status ≠ .cardCreated) : v.Reached .unmade := by
  obtain ⟨stage, reached⟩ := sound
  cases stage with
  | unmade => exact reached
  | _ => exact (not_unfinished reached.1 working).elim

/-- While a card is due, its order is at one of two stages. -/
theorem Sound.cardDue (sound : v.Sound) (due : v.cardDue) :
    v.Reached .made ∨ v.Reached .stored := by
  obtain ⟨stage, reached⟩ := sound
  cases stage with
  | made => exact .inl reached
  | stored => exact .inr reached
  | _ => exact absurd due reached.2.2.2.2.1

/-- While a shipment is due, its order is at one of two stages. -/
theorem Sound.shipmentDue (sound : v.Sound) (due : v.shipmentDue) :
    v.Reached .sent ∨ v.Reached .addressed := by
  obtain ⟨stage, reached⟩ := sound
  cases stage with
  | sent => exact .inl reached
  | addressed => exact .inr reached
  | _ => exact absurd due reached.2.2.2.2.2

/-- A finished card that is not due and not carried has been reported. -/
theorem Sound.created (sound : v.Sound) {process : ManufactureProcess} (mem : process ∈ v.made)
    (finished : process.status = .cardCreated) (notDue : ¬v.cardDue) (here : v.carried = []) :
    v.Reached .created := by
  have notSent : ∀ status, ¬v.Sent status := by
    intro status sent
    obtain ⟨carried, same, -⟩ := sent
    rw [here] at same
    cases same
  obtain ⟨stage, reached⟩ := sound
  cases stage with
  | unmade => exact absurd finished (reached.1.working process mem)
  | made => exact absurd reached.2.2.2.2.1.1 notDue
  | stored => exact absurd reached.2.2.2.2.1.1 notDue
  | created => exact reached
  | sent => exact absurd reached.2.2.2.1 (notSent _)
  | addressed => exact absurd reached.2.2.2.1.1 (notSent _)
  | shipped => exact absurd reached.2.2.2.1.1 (notSent _)

/-- What the courier has is new, or its shipment has been reported. -/
theorem Sound.carried (sound : v.Sound) {process : CourierProcess} (mem : process ∈ v.carried)
    (notDue : ¬v.shipmentDue) :
    v.carried = [process] ∧ ((process.status = .newCardReceived ∧ v.Reached .created) ∨
      (process.status ≠ .newCardReceived ∧ v.Reached .shipped)) := by
  have no : v.carried = [] → False := fun none => List.not_mem_nil (none ▸ mem)
  obtain ⟨stage, reached⟩ := sound
  cases stage with
  | unmade => exact (no reached.2.2.2.1).elim
  | made => exact (no reached.2.2.2.1).elim
  | stored => exact (no reached.2.2.2.1).elim
  | created =>
    obtain ⟨process', same, new⟩ := reached.2.2.2.1.resolve_left no
    rw [same] at mem
    obtain rfl := List.mem_singleton.mp mem
    exact ⟨same, .inl ⟨new, reached⟩⟩
  | sent => exact absurd reached.2.2.2.2.2.1 notDue
  | addressed => exact absurd reached.2.2.2.2.2.1 notDue
  | shipped =>
    obtain ⟨process', same, old, -⟩ := reached.2.2.2.1.1
    rw [same] at mem
    obtain rfl := List.mem_singleton.mp mem
    exact ⟨same, .inr ⟨old, reached⟩⟩

/-! ## Steps -/

theorem Before.append {status : StatusType} {row : CreditCardOrderStatus}
    (before : v.Before status) (less : row.status.sequence < status.sequence) :
    Before { v with statuses := v.statuses ++ [row] } status := by
  intro s mem
  rcases List.mem_append.mp mem with old | new
  · exact before s old
  · exact List.mem_singleton.mp new ▸ less

theorem CardReported.append {row : CreditCardOrderStatus} (reported : v.CardReported)
    (less : row.status.sequence < StatusType.cardShipped.sequence) :
    CardReported { v with statuses := v.statuses ++ [row] } := by
  obtain ⟨before, s, mem, created⟩ := reported
  exact ⟨before.append less, s, List.mem_append_left _ mem, created⟩

theorem ShipmentReported.append {row : CreditCardOrderStatus} (reported : v.ShipmentReported)
    (other : row.status ≠ .cardShipped) :
    ShipmentReported { v with statuses := v.statuses ++ [row] } := by
  obtain ⟨⟨s, mem, shipped⟩, after⟩ := reported
  refine ⟨⟨s, List.mem_append_left _ mem, shipped⟩, fun s mem shipped => ?_⟩
  rcases List.mem_append.mp mem with old | new
  · obtain ⟨s', mem', created, before⟩ := after s old shipped
    exact ⟨s', List.mem_append_left _ mem', created, before⟩
  · rw [List.mem_singleton.mp new] at shipped
    exact absurd shipped other

/-- The manufacturer is asked for the card. -/
theorem Sound.ask (sound : v.Sound) {process : ManufactureProcess} (unasked : v.made = [])
    (known : v.statuses ≠ []) (new : process.status = .issuing) :
    Sound { v with made := [process] } := by
  have none : ∀ process ∈ v.made, process.status ≠ .cardCreated := by
    rw [unasked]
    exact fun _ mem => absurd mem List.not_mem_nil
  obtain ⟨-, rest⟩ := sound.unmade none
  refine ⟨.unmade, ⟨fun p mem => ?_, fun _ => known⟩, rest⟩
  rw [List.mem_singleton.mp mem, new]
  exact ManufactureStatus.noConfusion

/-- The manufacturer fails to make the card. -/
theorem Sound.fail (sound : v.Sound) {old new : ManufactureProcess} (own : v.made = [old])
    (working : old.status ≠ .cardCreated) (failed : new.status ≠ .cardCreated) :
    Sound { v with made := [new] } := by
  have unfinished : ∀ process ∈ v.made, process.status ≠ .cardCreated := by
    rw [own]
    exact fun p mem => List.mem_singleton.mp mem ▸ working
  obtain ⟨⟨-, known⟩, rest⟩ := sound.unmade unfinished
  have hasStatus := known (by rw [own]; exact List.cons_ne_nil _ _)
  exact ⟨.unmade, ⟨fun p mem => List.mem_singleton.mp mem ▸ failed, fun _ => hasStatus⟩, rest⟩

/-- The manufacturer makes the card. -/
theorem Sound.finish (sound : v.Sound) {old new : ManufactureProcess} (own : v.made = [old])
    (working : old.status ≠ .cardCreated) (finished : new.status = .cardCreated)
    (notStored : ¬v.cardStored) : Sound { v with made := [new], cardDue := True } := by
  have unfinished : ∀ process ∈ v.made, process.status ≠ .cardCreated := by
    rw [own]
    exact fun p mem => List.mem_singleton.mp mem ▸ working
  obtain ⟨⟨-, known⟩, before, noCard, notCarried, -, notDue⟩ := sound.unmade unfinished
  have hasStatus := known (by rw [own]; exact List.cons_ne_nil _ _)
  refine ⟨.made, ⟨List.cons_ne_nil _ _, fun p mem => ?_, hasStatus⟩, before, noCard, notCarried,
    ⟨trivial, notStored⟩, notDue⟩
  exact List.mem_singleton.mp mem ▸ finished

/-- The row of the card is stored. -/
theorem Sound.storeCard (sound : v.Sound) (due : v.cardDue) (notStored : ¬v.cardStored)
    (card : CreditCard) :
    Sound { v with cards := v.cards ++ [card], cardStored := True } := by
  rcases sound.cardDue due with made | stored
  · obtain ⟨finished, before, noCard, notCarried, -, notDue⟩ := made
    refine ⟨.stored, finished, before, ?_, notCarried, ⟨due, trivial⟩, notDue⟩
    rw [noCard]
    rfl
  · exact absurd stored.2.2.2.2.1.2 notStored

/-- The card is reported. -/
theorem Sound.reportCard (sound : v.Sound) {row : CreditCardOrderStatus} (due : v.cardDue)
    (stored : v.cardStored) (created : row.status = .cardCreated) :
    Sound { v with statuses := v.statuses ++ [row], cardDue := False, cardStored := False } := by
  rcases sound.cardDue due with made | stored
  · exact absurd stored made.2.2.2.2.1.2
  · obtain ⟨finished, before, card, notCarried, -, notDue⟩ := stored
    have earlier : v.Before .cardShipped := fun s mem => Nat.lt_trans (before s mem) (by decide)
    have less : row.status.sequence < StatusType.cardShipped.sequence := by
      rw [created]
      decide
    exact ⟨.created, finished.append row, ⟨earlier.append less, row, by simp, created⟩, card,
      .inl notCarried, id, notDue⟩

/-- The card is handed over to the courier. -/
theorem Sound.handOver (sound : v.Sound) {process : ManufactureProcess} {new : CourierProcess}
    (mem : process ∈ v.made) (finished : process.status = .cardCreated) (notDue : ¬v.cardDue)
    (here : v.carried = []) (received : new.status = .newCardReceived) :
    Sound { v with carried := [new] } := by
  obtain ⟨finished, reported, card, -, rest⟩ := sound.created mem finished notDue here
  exact ⟨.created, finished, reported, card, .inr ⟨new, rfl, received⟩, rest⟩

/-- The courier sends the card. -/
theorem Sound.send (sound : v.Sound) {old new : CourierProcess} (own : v.carried = [old])
    (received : old.status = .newCardReceived) (sent : new.status = .cardSent)
    (named : new.shippingId ≠ none) (notDue : ¬v.shipmentDue) (notStored : ¬v.shipmentStored) :
    Sound { v with carried := [new], shipmentDue := True } := by
  have mem : old ∈ v.carried := own ▸ List.mem_singleton_self old
  rcases (sound.carried mem notDue).2 with ⟨-, created⟩ | ⟨other, -⟩
  · obtain ⟨finished, reported, card, -, noCardDue, -⟩ := created
    exact ⟨.sent, finished, reported, card, ⟨new, rfl, sent, named⟩, noCardDue, trivial, notStored⟩
  · exact absurd received other

/-- The identifier of the shipment is stored. -/
theorem Sound.storeShipment (sound : v.Sound) {rows : List CreditCardOrder} (due : v.shipmentDue)
    (carries : ∀ process ∈ v.carried, ∀ row ∈ rows, row.shippingId = process.shippingId) :
    Sound { v with rows := rows, shipmentStored := True } := by
  have both : Finished v.made v.statuses ∧ v.CardReported ∧ v.cards.length = 1 ∧ v.Sent (· = .cardSent) ∧
      ¬v.cardDue := by
    rcases sound.shipmentDue due with sent | addressed
    · exact ⟨sent.1, sent.2.1, sent.2.2.1, sent.2.2.2.1, sent.2.2.2.2.1⟩
    · exact ⟨addressed.1, addressed.2.1, addressed.2.2.1, addressed.2.2.2.1.1, addressed.2.2.2.2.1⟩
  obtain ⟨finished, reported, card, sent, noCardDue⟩ := both
  exact ⟨.addressed, finished, reported, card,
    ⟨sent, carries⟩, noCardDue, due, trivial⟩

/-- The shipment is reported. -/
theorem Sound.reportShipment (sound : v.Sound) {row : CreditCardOrderStatus} (due : v.shipmentDue)
    (stored : v.shipmentStored) (shipped : row.status = .cardShipped)
    (last : ∀ s ∈ v.statuses, s.id < row.id) :
    Sound
      { v with statuses := v.statuses ++ [row], shipmentDue := False, shipmentStored := False } := by
  rcases sound.shipmentDue due with sent | addressed
  · exact absurd stored sent.2.2.2.2.2.2
  · obtain ⟨finished, ⟨before, s', mem', created⟩, card, ⟨sent, carries⟩, noCardDue, -⟩ := addressed
    refine ⟨.shipped, finished.append row, ⟨⟨row, by simp, shipped⟩, fun s mem isShipped => ?_⟩, card,
      ⟨?_, carries⟩, noCardDue, id⟩
    · rcases List.mem_append.mp mem with old | new
      · have less := before s old
        rw [isShipped] at less
        exact absurd less (Nat.lt_irrefl _)
      · rw [List.mem_singleton.mp new]
        exact ⟨s', List.mem_append_left _ mem', created, last s' mem'⟩
    · obtain ⟨process, own, status, named⟩ := sent
      exact ⟨process, own, by rw [status]; exact CourierStatus.noConfusion, named⟩

/-- The courier delivers the card. -/
theorem Sound.deliver (sound : v.Sound) {old new : CourierProcess} (own : v.carried = [old])
    (sent : old.status = .cardSent) (delivered : new.status = .cardDelivered)
    (same : new.shippingId = old.shippingId) (notDue : ¬v.shipmentDue) :
    Sound { v with carried := [new] } := by
  have mem : old ∈ v.carried := own ▸ List.mem_singleton_self old
  rcases (sound.carried mem notDue).2 with ⟨received, -⟩ | ⟨-, shipped⟩
  · rw [sent] at received
    cases received
  · obtain ⟨finished, reported, card, ⟨⟨old', own', -, named⟩, carries⟩, rest⟩ := shipped
    rw [own] at own'
    cases own'
    refine ⟨.shipped, finished, reported, card,
      ⟨⟨new, rfl, ?_, same ▸ named⟩, fun p isNew row memRow => ?_⟩, rest⟩
    · rw [delivered]
      exact CourierStatus.noConfusion
    · rw [List.mem_singleton.mp isNew, same]
      exact carries old mem row memRow

/-- A status of the time before the card, stored at any time. -/
theorem Sound.reportEarly (sound : v.Sound) {row : CreditCardOrderStatus}
    (early : row.status.sequence < StatusType.cardCreated.sequence) :
    Sound { v with statuses := v.statuses ++ [row] } := by
  have earlier : row.status.sequence < StatusType.cardShipped.sequence :=
    Nat.lt_trans early (by decide)
  have other : row.status ≠ .cardShipped := by
    intro shipped
    rw [shipped] at earlier
    exact Nat.lt_irrefl _ earlier
  obtain ⟨stage, reached⟩ := sound
  cases stage with
  | unmade =>
    obtain ⟨⟨working, -⟩, before, rest⟩ := reached
    exact ⟨.unmade, ⟨working, fun _ => by simp⟩, before.append early, rest⟩
  | made => exact ⟨.made, reached.1.append row, reached.2.1.append early, reached.2.2⟩
  | stored => exact ⟨.stored, reached.1.append row, reached.2.1.append early, reached.2.2⟩
  | created => exact ⟨.created, reached.1.append row, reached.2.1.append earlier, reached.2.2⟩
  | sent => exact ⟨.sent, reached.1.append row, reached.2.1.append earlier, reached.2.2⟩
  | addressed => exact ⟨.addressed, reached.1.append row, reached.2.1.append earlier, reached.2.2⟩
  | shipped => exact ⟨.shipped, reached.1.append row, reached.2.1.append other, reached.2.2⟩

/-- The delivery is reported. -/
theorem Sound.reportDelivery (sound : v.Sound) {row : CreditCardOrderStatus}
    {process : CourierProcess} (mem : process ∈ v.carried)
    (delivered : process.status = .cardDelivered) (notDue : ¬v.shipmentDue)
    (isDelivery : row.status = .cardDelivered) :
    Sound { v with statuses := v.statuses ++ [row] } := by
  rcases (sound.carried mem notDue).2 with ⟨received, -⟩ | ⟨-, shipped⟩
  · rw [delivered] at received
    cases received
  · have other : row.status ≠ .cardShipped := by
      rw [isDelivery]
      exact StatusType.noConfusion
    exact ⟨.shipped, shipped.1.append row, shipped.2.1.append other, shipped.2.2⟩

/-- The row of an order without a status comes or goes. -/
theorem Sound.reorder (sound : v.Sound) {rows : List CreditCardOrder} (none : v.statuses = []) :
    Sound { v with rows := rows } := by
  obtain ⟨stage, reached⟩ := sound
  cases stage with
  | unmade => exact ⟨.unmade, reached⟩
  | _ => exact absurd none reached.1.known

/-- Whatever is due is of an order with a status. -/
theorem Sound.known (sound : v.Sound) (due : v.cardDue ∨ v.shipmentDue) : v.statuses ≠ [] := by
  obtain ⟨stage, reached⟩ := sound
  cases stage with
  | unmade => exact absurd due (not_or.mpr reached.2.2.2.2)
  | _ => exact reached.1.known

end Course

/-! ## The course in the world -/

/-- The course of an order, from where the manufacturer's and the courier's scheduler are. -/
def World.course (o : OrderId) (m k : Private) (g : World) : Course where
  made := g.manufacture.objects.filter fun process => process.orderId = o
  carried := g.courier.objects.filter fun process => process.creditCardOrderId = o
  rows := g.db.orders.filter fun row => row.id = o
  statuses := g.db.statusesOf o
  cards := g.db.cardsOf o
  cardDue := m.due = some o
  cardStored := m.awaiting = some o
  shipmentDue := k.due = some o
  shipmentStored := k.updated = some o

/-- The manufacturer is asked for the card of an order that has a status, and nobody deletes
the statuses or the cards of the order. -/
def World.Spares (g : World) (o : OrderId) : Command → Prop
  | .manufacture (.add process) => process.orderId = o → g.db.statusesOf o ≠ []
  | .deleteStatuses a | .deleteCards a => g.db.orderIdOf a ≠ some (some o)
  | _ => True

/-- The order is asked for once and handed over once, its rows are spared, and nothing fails
while an advance of it is due to be reported. -/
def Unbroken {ι : Type} (o : OrderId) (i : Party ι) (refused : Bool) (c : Command) (l : Private)
    (g : World) : Prop :=
  Prompt o i refused c l g ∧ (refused = false → g.Spares o c) ∧
    (l.due = some o → refused = false ∧ (act c l g).isSome = true)

instance (g : World) (o : OrderId) : (c : Command) → Decidable (g.Spares o c)
  | .manufacture (.add process) =>
    inferInstanceAs (Decidable (process.orderId = o → g.db.statusesOf o ≠ []))
  | .deleteStatuses a | .deleteCards a =>
    inferInstanceAs (Decidable (g.db.orderIdOf a ≠ some (some o)))
  | .manufacture .iterator | .manufacture (.next _ _) | .manufacture (.set _ _)
  | .manufacture (.remove _) | .courier _ | .orderCount _ | .insertOrder _ | .insertStatus _ _ _
  | .insertCard _ _ | .updateOrder _ _ | .deleteOrders _ | .lastStatus _ | .lastStatusForAccount _
  | .statusList _ | .orderIdForAccount _ | .shippingAddress _ | .manufactureData _
  | .currentStatuses | .request | .answer | .answeredOnTheWay | .flag | .nextInt _ | .validDate
  | .randomUUID => isTrue trivial

instance {ι : Type} (o : OrderId) (i : Party ι) (refused : Bool) (c : Command) (l : Private)
    (g : World) : Decidable (Unbroken o i refused c l g) := by
  unfold Unbroken
  infer_instance

section Lists

variable {P : Type} {p : P → Bool} {objects : List P} {ref : Nat} {old new : P}

/-- A list around one of its elements. -/
theorem exists_around (found : objects[ref]? = some old) : ∃ front back,
    objects = front ++ old :: back ∧ ∀ new, objects.set ref new = front ++ new :: back := by
  obtain ⟨bound, at_ref⟩ := List.getElem?_eq_some_iff.mp found
  refine ⟨objects.take ref, objects.drop (ref + 1), ?_, fun new => ?_⟩
  · rw [← at_ref, List.getElem_cons_drop, List.take_append_drop]
  · rw [List.set_eq_take_append_cons_drop, if_pos bound]

/-- An element that does not count is set to another one. -/
theorem filter_set_of_not (found : objects[ref]? = some old) (before : p old = false)
    (after : p new = false) : (objects.set ref new).filter p = objects.filter p := by
  obtain ⟨front, back, split, set⟩ := exists_around found
  rw [set, split]
  simp [before, after]

/-- The only element that counts is set to another one. -/
theorem filter_set_of_once (new : P) (found : objects[ref]? = some old) (before : p old = true)
    (after : p new = true) (once : (objects.filter p).length ≤ 1) :
    objects.filter p = [old] ∧ (objects.set ref new).filter p = [new] := by
  obtain ⟨front, back, split, set⟩ := exists_around found
  rw [set]
  rw [split] at once ⊢
  simp only [List.filter_append, List.filter_cons_of_pos before, List.filter_cons_of_pos after,
    List.length_append, List.length_cons] at once ⊢
  have noneBefore : front.filter p = [] := List.eq_nil_of_length_eq_zero (by omega)
  have noneAfter : back.filter p = [] := List.eq_nil_of_length_eq_zero (by omega)
  rw [noneBefore, noneAfter]
  exact ⟨rfl, rfl⟩

/-- The only element that counts. -/
theorem filter_eq_singleton (mem : old ∈ objects) (counts : p old = true)
    (once : (objects.filter p).length ≤ 1) : objects.filter p = [old] := by
  obtain ⟨ref, found⟩ := List.getElem?_of_mem mem
  exact (filter_set_of_once old found counts counts once).1

end Lists

section Steps

variable {ι : Type} {i : Party ι} {o id : OrderId} {l l' : Private} {g g' : World} {c : Command}
  {reply : Reply c} {x y : Position}

/-- The manufacturer has one process of the order. -/
theorem Handing.made_once (handing : Handing o x y g) :
    (g.manufacture.objects.filter fun process => process.orderId = o).length ≤ 1 := by
  have distinct := handing.distinct
  rw [World.made, List.count, List.countP_map] at distinct
  rw [← List.countP_eq_length_filter]
  refine le_trans (Nat.le_of_eq (List.countP_congr fun process _ => ?_)) distinct
  simp

/-- The courier has one process of the order. -/
theorem Handing.carried_once (handing : Handing o x y g) :
    (g.courier.objects.filter fun process => process.creditCardOrderId = o).length ≤ 1 := by
  have once := handing.once
  rw [World.handed, List.count, List.countP_map] at once
  rw [← List.countP_eq_length_filter]
  refine le_trans (Nat.le_of_eq (List.countP_congr fun process _ => ?_)) once
  simp

/-- The advance a program has made and not reported. -/
def dueAfter (l : Private) (g : World) : Command → Option OrderId
  | .insertStatus id _ _ => strike l.due id
  | .lastStatus id => if g.db.lastStatus l.chance.rank id = none then strike l.due id else l.due
  | _ => l.due

/-- The order a program has given a shipping identifier and no status since. -/
def updatedAfter (l : Private) : Command → Option OrderId
  | .insertStatus id _ _ => strike l.updated id
  | .updateOrder id _ => some id
  | _ => l.updated

/-- The records of reports after a command that is no step on a list. -/
theorem reports_act (off : c.OffList) (acted : act c l g = some (reply, l', g')) :
    l'.due = dueAfter l g c ∧ l'.updated = updatedAfter l c := by
  cases c with
  | manufacture command => exact off.elim
  | courier command => exact off.elim
  | insertOrder request =>
    obtain ⟨db', -, same⟩ := Option.map_eq_some_iff.1 acted
    cases same
    exact ⟨rfl, rfl⟩
  | lastStatusForAccount a =>
    obtain ⟨status, -, same⟩ := Option.map_eq_some_iff.1 acted
    cases same
    exact ⟨rfl, rfl⟩
  | insertStatus id status details =>
    obtain ⟨rfl, -⟩ := of_withDb acted
    exact ⟨rfl, rfl⟩
  | insertCard id card =>
    obtain ⟨rfl, -⟩ := of_withDb acted
    exact ⟨rfl, rfl⟩
  | updateOrder id shippingId =>
    obtain ⟨rfl, -⟩ := of_withDb acted
    exact ⟨rfl, rfl⟩
  | deleteStatuses a =>
    obtain ⟨rfl, -⟩ := of_withDb acted
    exact ⟨rfl, rfl⟩
  | deleteCards a =>
    obtain ⟨rfl, -⟩ := of_withDb acted
    exact ⟨rfl, rfl⟩
  | deleteOrders a =>
    obtain ⟨rfl, -⟩ := of_withDb acted
    exact ⟨rfl, rfl⟩
  | lastStatus id =>
    cases acted
    refine ⟨?_, rfl⟩
    simp only [Private.sawStatus, Private.tick, dueAfter, Option.isNone_map, Option.isNone_iff_eq_none]
  | _ =>
    cases acted
    exact ⟨rfl, rfl⟩

theorem strike_eq_some {order : Option OrderId} (other : id ≠ o) :
    strike order id = some o ↔ order = some o := by
  unfold strike
  split
  · rename_i same
    rw [same]
    simp [other]
  · exact Iff.rfl

/-! ## Steps of the components -/

/-- The course of an order, from where all parties are. -/
abbrev courseOf (o : OrderId) (privs : Party ι → Private) (g : World) : Course :=
  g.course o (privs .manufacture) (privs .courier)

variable {privs : Party ι → Private} [DecidableEq ι]

/-- What a party that is neither of the two schedulers does leaves their records alone. -/
theorem update_other {j : Party ι} (other : i ≠ j) : Function.update privs i l' j = privs j :=
  Function.update_of_ne other.symm _ _

/-- A record of the two schedulers stays, if the program that has acted keeps its own. -/
theorem record_update (record : Private → Option OrderId) {j : Party ι}
    (kept : i = j → (record l' = some o ↔ record (privs i) = some o)) :
    (record (Function.update privs i l' j) = some o) = (record (privs j) = some o) := by
  by_cases here : i = j
  · subst here
    rw [Function.update_self]
    exact propext (kept rfl)
  · rw [update_other here]

/-- A command off the lists that changes no row of the order and no record of it. -/
theorem course_offList (off : c.OffList) (acted : act c (privs i) g = some (reply, l', g'))
    (rows : (ordersAfter g c).filter (fun row => row.id = o) =
      g.db.orders.filter fun row => row.id = o)
    (statuses : g'.db.statusesOf o = g.db.statusesOf o)
    (cards : (cardsAfter g c).filter (fun card => card.creditCardOrderId = o) = g.db.cardsOf o)
    (due : i = .manufacture ∨ i = .courier →
      (dueAfter (privs i) g c = some o ↔ (privs i).due = some o))
    (awaiting : awaitingAfter (privs i) c = some o ↔ (privs i).awaiting = some o)
    (updated : updatedAfter (privs i) c = some o ↔ (privs i).updated = some o) :
    courseOf o (Function.update privs i l') g' = courseOf o privs g := by
  obtain ⟨orders', -, cards'⟩ := tables_act acted
  obtain ⟨manufacture, courier⟩ := lists_act off acted
  obtain ⟨due', updated'⟩ := reports_act off acted
  obtain ⟨-, -, awaiting'⟩ := records_act acted
  rw [← due'] at due
  rw [← awaiting'] at awaiting
  rw [← updated'] at updated
  unfold courseOf World.course
  rw [manufacture, courier, statuses, orders', rows, Database.cardsOf, cards', cards,
    record_update Private.due fun here => due (.inl here),
    record_update Private.due fun here => due (.inr here),
    record_update Private.awaiting fun _ => awaiting,
    record_update Private.updated fun _ => updated]

/-- A status of the order is stored. -/
theorem course_insertStatus {status : StatusType} {details : String} {u : Unit}
    (acted : act (.insertStatus o status details) (privs i) g = some (u, l', g')) :
    ∃ row : CreditCardOrderStatus, row.status = status ∧ row.id = g.db.statusSeed ∧
      courseOf o (Function.update privs i l') g' =
        { courseOf o privs g with
          statuses := g.db.statusesOf o ++ [row]
          cardDue := i ≠ .manufacture ∧ (privs .manufacture).due = some o
          cardStored := i ≠ .manufacture ∧ (privs .manufacture).awaiting = some o
          shipmentDue := i ≠ .courier ∧ (privs .courier).due = some o
          shipmentStored := i ≠ .courier ∧ (privs .courier).updated = some o } := by
  refine ⟨⟨g.db.statusSeed, o, Database.toSecond (privs i).chance.clock, status, details⟩, rfl, rfl, ?_⟩
  have statuses := statusesOf_insertStatus acted
  obtain ⟨orders, -, cards⟩ := tables_act acted
  obtain ⟨manufacture, courier⟩ := lists_act (c := .insertStatus o status details) trivial acted
  have struck : ∀ (record : Private → Option OrderId) {j : Party ι}, record l' ≠ some o →
      (record (Function.update privs i l' j) = some o) = (i ≠ j ∧ record (privs j) = some o) := by
    intro record j gone
    by_cases here : i = j
    · subst here
      rw [Function.update_self]
      simp [gone]
    · rw [update_other here]
      simp [here]
  obtain ⟨rfl, -⟩ := of_withDb acted
  unfold courseOf World.course
  rw [manufacture, courier, statuses, orders, Database.cardsOf, cards,
    struck Private.due (strike_self _ o), struck Private.due (strike_self _ o),
    struck Private.awaiting (strike_self _ o),
    struck Private.updated (strike_self _ o)]
  rfl

/-- Where an order is, and that everything about it is in order. -/
structure Delivering (o : OrderId) (privs : Party ι → Private) (g : World) : Prop where
  /-- The world is valid. -/
  valid : g.Valid
  /-- The order is handed over once. -/
  handing : Handing o (privs .manufacture).position (privs .courier).position g
  /-- The order is at one of its stages. -/
  sound : (courseOf o privs g).Sound

variable {status : StatusType} {details : String} {u : Unit}

/-- The statuses each party may insert leave the order at a stage. -/
theorem Delivering.report (delivering : Delivering o privs g)
    (guarded : statusGuard i o (privs i) status)
    (acted : act (.insertStatus o status details) (privs i) g = some (u, l', g')) :
    (courseOf o (Function.update privs i l') g').Sound := by
  have courier := manufacture_ne_courier (ι := ι)
  obtain ⟨row, isStatus, isId, course⟩ := course_insertStatus acted
  have sound := delivering.sound
  have early : ∀ (cardDue cardStored shipmentDue shipmentStored : Prop),
      row.status.sequence < StatusType.cardCreated.sequence →
      cardDue = ((privs .manufacture).due = some o) →
      cardStored = ((privs .manufacture).awaiting = some o) →
      shipmentDue = ((privs .courier).due = some o) →
      shipmentStored = ((privs .courier).updated = some o) →
      Course.Sound
        { courseOf o privs g with
          statuses := g.db.statusesOf o ++ [row], cardDue, cardStored, shipmentDue,
          shipmentStored } := by
    rintro _ _ _ _ less rfl rfl rfl rfl
    exact sound.reportEarly less
  rw [course]
  cases status with
  | orderCreated =>
    obtain ⟨j, rfl⟩ := guarded
    exact early _ _ _ _ (by rw [isStatus]; decide) (by simp) (by simp) (by simp) (by simp)
  | cardOrdered =>
    obtain rfl := guarded
    exact early _ _ _ _ (by rw [isStatus]; decide) (by simp) (by simp) (by simp) (by simp)
  | cardError =>
    obtain ⟨rfl, idle⟩ := guarded
    exact early _ _ _ _ (by rw [isStatus]; decide) (by simp [idle.due]) (by simp [idle.awaiting])
      (by simp) (by simp)
  | cardCreated =>
    obtain ⟨rfl, due, stored⟩ := guarded
    have reported := sound.reportCard due stored isStatus
    simpa [courseOf, World.course] using reported
  | cardShipped =>
    obtain ⟨rfl, due, stored⟩ := guarded
    have last : ∀ s ∈ g.db.statusesOf o, s.id < row.id := by
      intro s mem
      rw [isId]
      exact delivering.valid.db.seed s (Database.mem_statusesOf.1 mem).1
    have reported := sound.reportShipment due stored isStatus last
    simpa [courseOf, World.course] using reported
  | cardDelivered =>
    obtain ⟨rfl, idle, ref, process, carrying, own, delivered⟩ := guarded
    have isObject := delivering.handing.carrying ref process carrying
    have mem : process ∈ (courseOf o privs g).carried := by
      simpa [courseOf, World.course, own] using List.mem_of_getElem? isObject
    have reported := sound.reportDelivery mem delivered idle.due isStatus
    simpa [courseOf, World.course, idle.due, idle.updated] using reported
  | sequenceError => exact guarded.elim

/-- The row of the card made is stored. -/
theorem Delivering.storeCard (delivering : Delivering o privs g) {card : CreditCardRequest}
    (isManufacture : i = .manufacture) (due : (privs i).due = some o)
    (notStored : (privs i).awaiting ≠ some o)
    (acted : act (.insertCard o card) (privs i) g = some (u, l', g')) :
    (courseOf o (Function.update privs i l') g').Sound := by
  subst isManufacture
  have stored := delivering.sound.storeCard due notStored (card.row g.db.cardSeed o)
  obtain ⟨orders, statuses, cards⟩ := tables_act acted
  obtain ⟨manufacture, courier⟩ := lists_act (c := .insertCard o card) trivial acted
  obtain ⟨rfl, -⟩ := of_withDb acted
  have isCourse : courseOf o
      (Function.update privs .manufacture { privs .manufacture with awaiting := some o }.tick) g' =
      { courseOf o privs g with
        cards := g.db.cardsOf o ++ [card.row g.db.cardSeed o], cardStored := True } := by
    unfold courseOf World.course
    rw [Function.update_self, update_other manufacture_ne_courier, manufacture, courier, orders,
      Database.cardsOf, cards, Database.statusesOf, statuses]
    simp [cardsAfter, ordersAfter, statusesAfter, Database.statusesOf, Database.cardsOf,
      CreditCardRequest.row, Private.tick]
  rw [isCourse]
  exact stored

/-- The identifier of the shipment is stored. -/
theorem Delivering.storeShipment (delivering : Delivering o privs g) {shippingId : String}
    {ref : Nat} {process : CourierProcess} (isCourier : i = .courier)
    (due : (privs i).due = some o) (carrying : (privs i).carrying = some (ref, process))
    (own : process.creditCardOrderId = o) (named : process.shippingId = some shippingId)
    (acted : act (.updateOrder o shippingId) (privs i) g = some (u, l', g')) :
    (courseOf o (Function.update privs i l') g').Sound := by
  subst isCourier
  have mem := List.mem_of_getElem? (delivering.handing.carrying ref process carrying)
  have carried : (courseOf o privs g).carried = [process] :=
    filter_eq_singleton mem (by simpa using own) delivering.handing.carried_once
  have sets : ∀ row ∈ (g.db.updateOrder o shippingId).orders.filter (fun row => row.id = o),
      row.shippingId = some shippingId := by
    intro row mem
    obtain ⟨mem, isOwn⟩ := List.mem_filter.mp mem
    obtain ⟨old, -, rfl⟩ := List.mem_map.mp mem
    by_cases here : old.id = o
    · rw [if_pos here]
    · rw [if_neg here] at isOwn
      exact absurd (of_decide_eq_true isOwn) here
  have carries : ∀ p ∈ (courseOf o privs g).carried,
      ∀ row ∈ (g.db.updateOrder o shippingId).orders.filter (fun row => row.id = o),
        row.shippingId = p.shippingId := by
    intro p isProcess row mem
    rw [carried, List.mem_singleton] at isProcess
    rw [isProcess, named]
    exact sets row mem
  have stored := delivering.sound.storeShipment due carries
  cases acted
  have isCourse : courseOf o
      (Function.update privs .courier { privs .courier with updated := some o }.tick)
        { g with db := g.db.updateOrder o shippingId } =
      { courseOf o privs g with
        rows := (g.db.updateOrder o shippingId).orders.filter fun row => row.id = o
        shipmentStored := True } := by
    unfold courseOf World.course
    rw [Function.update_self, update_other manufacture_ne_courier.symm]
    simp [Private.tick, Database.statusesOf, Database.cardsOf, Database.updateOrder]
  rw [isCourse]
  exact stored

/-- A row of another order is updated. -/
theorem filter_updateOrder_of_ne {db : Database} {shippingId : String} (other : id ≠ o) :
    (db.updateOrder id shippingId).orders.filter (fun row => row.id = o) =
      db.orders.filter fun row => row.id = o := by
  simp only [Database.updateOrder]
  induction db.orders with
  | nil => rfl
  | cons row rest ih =>
    rw [List.map_cons]
    by_cases here : row.id = id
    · have off : row.id ≠ o := fun same => other (here.symm.trans same)
      rw [if_pos here, List.filter_cons_of_neg (by simpa using off),
        List.filter_cons_of_neg (by simpa using off), ih]
    · rw [if_neg here, List.filter_cons, List.filter_cons, ih]

/-- The deletion of an account's orders leaves an order with a status. -/
theorem filter_deleteOrders {a : AccountId}
    (unreferenced : ∀ row ∈ g.db.ordersOf a, g.db.statusesOf row.id = [] ∧ g.db.cardsOf row.id = [])
    (known : g.db.statusesOf o ≠ []) :
    (g.db.orders.filter fun row => row.accountId ≠ a).filter (fun row => row.id = o) =
      g.db.orders.filter fun row => row.id = o := by
  rw [List.filter_filter]
  refine List.filter_congr fun row mem => ?_
  by_cases own : row.id = o
  · have other : row.accountId ≠ a := by
      intro same
      have none := (unreferenced row (Database.mem_ordersOf.mpr ⟨mem, same⟩)).1
      rw [own] at none
      exact known none
    simp [own, other]
  · simp [own]

/-- A row that comes or goes while the order has no status. -/
theorem Delivering.reorder (delivering : Delivering o privs g) (off : c.OffList)
    (acted : act c (privs i) g = some (reply, l', g')) (none : g.db.statusesOf o = [])
    (statuses : g'.db.statusesOf o = g.db.statusesOf o)
    (cards : (cardsAfter g c).filter (fun card => card.creditCardOrderId = o) = g.db.cardsOf o)
    (due : dueAfter (privs i) g c = (privs i).due)
    (awaiting : awaitingAfter (privs i) c = (privs i).awaiting)
    (updated : updatedAfter (privs i) c = (privs i).updated) :
    (courseOf o (Function.update privs i l') g').Sound := by
  obtain ⟨-, -, cards'⟩ := tables_act acted
  obtain ⟨manufacture, courier⟩ := lists_act off acted
  obtain ⟨due', updated'⟩ := reports_act off acted
  obtain ⟨-, -, awaiting'⟩ := records_act acted
  have isCourse : courseOf o (Function.update privs i l') g' =
      { courseOf o privs g with rows := g'.db.orders.filter fun row => row.id = o } := by
    unfold courseOf World.course
    rw [manufacture, courier, statuses, Database.cardsOf, cards', cards,
      record_update Private.due fun _ => by rw [due', due],
      record_update Private.due fun _ => by rw [due', due],
      record_update Private.awaiting fun _ => by rw [awaiting', awaiting],
      record_update Private.updated fun _ => by rw [updated', updated]]
  rw [isCourse]
  exact delivering.sound.reorder none

omit [DecidableEq ι] in
/-- A status is read. -/
theorem Delivering.dueAfter_lastStatus (delivering : Delivering o privs g)
    (scheduler : i = .manufacture ∨ i = .courier) :
    dueAfter (privs i) g (.lastStatus id) = some o ↔ (privs i).due = some o := by
  simp only [dueAfter]
  split
  · rename_i unread
    by_cases own : id = o
    · subst own
      have none := Database.lastStatus_eq_none.mp unread
      have notDue : (privs i).due ≠ some id := by
        intro due
        refine delivering.sound.known ?_ none
        rcases scheduler with rfl | rfl
        · exact .inl due
        · exact .inr due
      simp [strike_self, notDue]
    · exact strike_eq_some own
  · exact Iff.rfl

/-- Every command off the lists, by its party's duties, leaves the order at a stage. -/
theorem Delivering.offList (delivering : Delivering o privs g) (off : c.OffList)
    (guarded : (duties True o i).guard c (privs i)) (spares : g.Spares o c)
    (acted : act c (privs i) g = some (reply, l', g')) :
    (courseOf o (Function.update privs i l') g').Sound := by
  have sound := delivering.sound
  have statuses := (tables_act acted).2.1
  cases c with
  | manufacture command => exact off.elim
  | courier command => exact off.elim
  | insertStatus id status details =>
    by_cases own : id = o
    · subst own
      exact delivering.report (guarded trivial rfl) acted
    · have other : ∀ status' details',
          Command.insertStatus id status details ≠ .insertStatus o status' details' :=
        fun _ _ same => own (Command.insertStatus.inj same).1
      have kept : g'.db.statusesOf o = g.db.statusesOf o := by
        rcases statusesOf_kept acted other with same | ⟨-, a, isDelete, -⟩
        · exact same
        · cases isDelete
      rw [course_offList off acted rfl kept rfl (fun _ => strike_eq_some own) (strike_eq_some own)
        (strike_eq_some own)]
      exact sound
  | insertCard id card =>
    rcases guarded trivial with ⟨other, idle⟩ | ⟨rfl, isManufacture, due, notStored⟩
    · have kept : (cardsAfter g (.insertCard id card)).filter
          (fun card => card.creditCardOrderId = o) = g.db.cardsOf o := by
        simp [cardsAfter, Database.cardsOf, CreditCardRequest.row, other]
      rw [course_offList off acted rfl (congrArg _ statuses) kept (fun _ => Iff.rfl)
        (by simp [awaitingAfter, other, idle.awaiting]) Iff.rfl]
      exact sound
    · exact delivering.storeCard isManufacture due notStored acted
  | updateOrder id shippingId =>
    rcases guarded trivial with ⟨other, idle⟩ |
      ⟨rfl, isCourier, due, ref, process, carrying, own, named⟩
    · rw [course_offList off acted (filter_updateOrder_of_ne other) (congrArg _ statuses) rfl
        (fun _ => Iff.rfl) Iff.rfl (by simp [updatedAfter, other, idle.updated])]
      exact sound
    · exact delivering.storeShipment isCourier due carrying own named acted
  | insertOrder request =>
    have kept : g'.db.statusesOf o = g.db.statusesOf o := congrArg _ statuses
    by_cases own : g.uuids g.drawn = o
    · have none : g.db.statusesOf o = [] :=
        own ▸ delivering.valid.statusesOf_undrawn (Nat.le_refl g.drawn)
      exact delivering.reorder off acted none kept rfl rfl rfl rfl
    · rw [course_offList off acted (by simp [ordersAfter, CreditCardOrderRequest.row, own]) kept rfl
        (fun _ => Iff.rfl) Iff.rfl Iff.rfl]
      exact sound
  | deleteOrders a =>
    have kept : g'.db.statusesOf o = g.db.statusesOf o := congrArg _ statuses
    by_cases none : g.db.statusesOf o = []
    · exact delivering.reorder off acted none kept rfl rfl rfl rfl
    · obtain ⟨-, db', deleted, rfl⟩ := of_withDb acted
      obtain ⟨unreferenced, -⟩ := Database.deleteOrders_eq_some deleted
      rw [course_offList off acted (filter_deleteOrders unreferenced none) kept rfl
        (fun _ => Iff.rfl) Iff.rfl Iff.rfl]
      exact sound
  | deleteStatuses a =>
    have other : ∀ status details, Command.deleteStatuses a ≠ .insertStatus o status details :=
      fun _ _ same => by cases same
    have kept : g'.db.statusesOf o = g.db.statusesOf o := by
      rcases statusesOf_kept acted other with same | ⟨-, a', isDelete, own⟩
      · exact same
      · cases isDelete
        exact absurd own spares
    rw [course_offList off acted rfl kept rfl (fun _ => Iff.rfl) Iff.rfl Iff.rfl]
    exact sound
  | deleteCards a =>
    have kept : (cardsAfter g (.deleteCards a)).filter (fun card => card.creditCardOrderId = o) =
        g.db.cardsOf o := by
      simp only [cardsAfter, List.filter_filter, Database.cardsOf]
      refine List.filter_congr fun card _ => ?_
      by_cases own : card.creditCardOrderId = o
      · rw [own]
        have spared : g.db.orderIdOf a ≠ some (some o) := spares
        simp [spared]
      · simp [own]
    rw [course_offList off acted rfl (congrArg _ statuses) kept (fun _ => Iff.rfl) Iff.rfl Iff.rfl]
    exact sound
  | lastStatus id =>
    rw [course_offList off acted rfl (congrArg _ statuses) rfl
      delivering.dueAfter_lastStatus Iff.rfl Iff.rfl]
    exact sound
  | _ =>
    rw [course_offList off acted rfl (congrArg _ statuses) rfl (fun _ => Iff.rfl) Iff.rfl Iff.rfl]
    exact sound

/-! ## Steps on the lists -/

omit [DecidableEq ι] in
/-- An order the manufacturer has not been asked for. -/
theorem made_eq_nil (unasked : o ∉ g.made) : (courseOf o privs g).made = [] := by
  refine List.filter_eq_nil_iff.mpr fun process mem own => unasked ?_
  exact List.mem_map.mpr ⟨process, mem, by simpa using own⟩

omit [DecidableEq ι] in
/-- An order the courier has not been handed. -/
theorem carried_eq_nil (here : o ∉ g.handed) : (courseOf o privs g).carried = [] := by
  refine List.filter_eq_nil_iff.mpr fun process mem own => here ?_
  exact List.mem_map.mpr ⟨process, mem, by simpa using own⟩

/-- A step on the manufacturer's list that makes no report of the order due. -/
theorem course_manufacture (command : ListCommand ManufactureProcess) (reply : command.Reply)
    (list : SyncList ManufactureProcess)
    (due : ((privs i).sawManufacture command reply).due = some o ↔ (privs i).due = some o) :
    courseOf o (Function.update privs i ((privs i).sawManufacture command reply).tick)
        { g with manufacture := list } =
      { courseOf o privs g with
        made := list.objects.filter fun process => process.orderId = o } := by
  have due : ((privs i).sawManufacture command reply).tick.due = some o ↔ (privs i).due = some o := due
  have records : ((privs i).sawManufacture command reply).tick.awaiting = (privs i).awaiting ∧
      ((privs i).sawManufacture command reply).tick.updated = (privs i).updated := by
    cases command with
    | next cursor modCount => cases reply <;> exact ⟨rfl, rfl⟩
    | _ => exact ⟨rfl, rfl⟩
  unfold courseOf World.course
  rw [record_update Private.due fun _ => due, record_update Private.due fun _ => due,
    record_update Private.awaiting fun _ => by rw [records.1],
    record_update Private.updated fun _ => by rw [records.2]]

/-- A step on the courier's list that makes no report of the order due. -/
theorem course_courier (command : ListCommand CourierProcess) (reply : command.Reply)
    (list : SyncList CourierProcess)
    (due : ((privs i).sawCourier command reply).due = some o ↔ (privs i).due = some o) :
    courseOf o (Function.update privs i ((privs i).sawCourier command reply).tick)
        { g with courier := list } =
      { courseOf o privs g with
        carried := list.objects.filter fun process => process.creditCardOrderId = o } := by
  have due : ((privs i).sawCourier command reply).tick.due = some o ↔ (privs i).due = some o := due
  have records : ((privs i).sawCourier command reply).tick.awaiting = (privs i).awaiting ∧
      ((privs i).sawCourier command reply).tick.updated = (privs i).updated := by
    cases command <;> exact ⟨rfl, rfl⟩
  unfold courseOf World.course
  rw [record_update Private.due fun _ => due, record_update Private.due fun _ => due,
    record_update Private.awaiting fun _ => by rw [records.1],
    record_update Private.updated fun _ => by rw [records.2]]

/-- The steps on the manufacturer's list leave the order at a stage. -/
theorem Delivering.manufactureAct {command : ListCommand ManufactureProcess}
    {reply : command.Reply} {list : SyncList ManufactureProcess}
    (delivering : Delivering o privs g) (guarded : manufactureGuard True o i command (privs i))
    (prompt : Prompt o i false (.manufacture command) (privs i) g)
    (spares : g.Spares o (.manufacture command))
    (acted : command.act g.manufacture = some (reply, list)) :
    (courseOf o (Function.update privs i ((privs i).sawManufacture command reply).tick)
      { g with manufacture := list }).Sound := by
  have sound := delivering.sound
  cases command with
  | add process =>
    cases acted
    rw [course_manufacture (.add process) () _ Iff.rfl]
    by_cases own : process.orderId = o
    · have unasked : (courseOf o privs g).made = [] := made_eq_nil (prompt own)
      have asked : (g.manufacture.add process).objects.filter (fun p => p.orderId = o) =
          [process] := by
        rw [SyncList.objects_add, List.filter_append]
        have none : g.manufacture.objects.filter (fun p => p.orderId = o) = [] := unasked
        simp [none, own]
      rw [asked]
      exact sound.ask unasked (spares own) guarded
    · have kept : (g.manufacture.add process).objects.filter (fun p => p.orderId = o) =
          g.manufacture.objects.filter fun p => p.orderId = o := by
        rw [SyncList.objects_add, List.filter_append]
        simp [own]
      rw [kept]
      exact sound
  | iterator =>
    cases acted
    rw [course_manufacture .iterator _ _ Iff.rfl]
    exact sound
  | next cursor modCount =>
    obtain ⟨found, -, same⟩ := Option.map_eq_some_iff.mp acted
    cases same
    have due : ((privs i).sawManufacture (.next cursor modCount) reply).due = some o ↔
        (privs i).due = some o := by
      cases reply <;> exact Iff.rfl
    rw [course_manufacture (.next cursor modCount) reply g.manufacture due]
    exact sound
  | remove ref =>
    cases acted
    rw [course_manufacture (.remove ref) () _ Iff.rfl, SyncList.objects_remove]
    exact sound
  | set ref process =>
    cases acted
    obtain ⟨rfl, idle, old, making, same, working⟩ := guarded
    have idle := idle trivial
    have isObject := delivering.handing.making ref old making
    have sameOrder : process.orderId = old.orderId :=
      congrArg ManufactureRequest.creditCardOrderId same
    by_cases own : old.orderId = o
    · obtain ⟨before, after⟩ := filter_set_of_once (p := fun p : ManufactureProcess => p.orderId = o)
        process isObject (by simpa using own) (by simpa [sameOrder] using own)
        delivering.handing.made_once
      by_cases finished : process.status = .cardCreated
      · have done := sound.finish before working finished idle.awaiting
        have isCourse : courseOf o (Function.update privs .manufacture
            ((privs .manufacture).sawManufacture (.set ref process) ()).tick)
            { g with manufacture := g.manufacture.set ref process } =
            { courseOf o privs g with made := [process], cardDue := True } := by
          unfold courseOf World.course
          rw [Function.update_self, update_other manufacture_ne_courier, SyncList.objects_set, after]
          simp [Private.sawManufacture, Private.tick, finished, sameOrder, own]
        rw [isCourse]
        exact done
      · have failed := sound.fail before working finished
        rw [course_manufacture (.set ref process) () _ (by simp [Private.sawManufacture, finished]),
          SyncList.objects_set, after]
        exact failed
    · have notDue : (if process.status = .cardCreated then some process.orderId
          else (privs .manufacture).due) = some o ↔ (privs .manufacture).due = some o := by
        split
        · simp [sameOrder, own, idle.due]
        · exact Iff.rfl
      rw [course_manufacture (.set ref process) () _ notDue, SyncList.objects_set,
        filter_set_of_not isObject (by simpa using own) (by simpa [sameOrder] using own)]
      exact sound

/-- So do the steps on the courier's list. -/
theorem Delivering.courierAct {command : ListCommand CourierProcess} {reply : command.Reply}
    {list : SyncList CourierProcess} (delivering : Delivering o privs g)
    (guarded : courierGuard True o i command (privs i))
    (acted : command.act g.courier = some (reply, list)) :
    (courseOf o (Function.update privs i ((privs i).sawCourier command reply).tick)
      { g with courier := list }).Sound := by
  have sound := delivering.sound
  cases command with
  | add process =>
    cases acted
    obtain ⟨rfl, idle, ref, made, making, finished, notYet, rfl⟩ := guarded
    rw [course_courier (.add _) () _ Iff.rfl]
    by_cases own : made.orderId = o
    · have here : (courseOf o privs g).carried = [] :=
        carried_eq_nil (delivering.handing.waits ref made making notYet own)
      have mem : made ∈ (courseOf o privs g).made := by
        have isObject := delivering.handing.making ref made making
        simpa [courseOf, World.course, own] using List.mem_of_getElem? isObject
      have handed : (g.courier.add { creditCardOrderId := made.orderId }).objects.filter
          (fun p => p.creditCardOrderId = o) = [{ creditCardOrderId := made.orderId }] := by
        rw [SyncList.objects_add, List.filter_append]
        have none : g.courier.objects.filter (fun p => p.creditCardOrderId = o) = [] := here
        simp [none, own]
      rw [handed]
      exact sound.handOver mem finished (idle trivial).due here rfl
    · have kept : (g.courier.add { creditCardOrderId := made.orderId }).objects.filter
          (fun p => p.creditCardOrderId = o) =
          g.courier.objects.filter fun p => p.creditCardOrderId = o := by
        rw [SyncList.objects_add, List.filter_append]
        simp [own]
      rw [kept]
      exact sound
  | iterator =>
    cases acted
    rw [course_courier .iterator _ _ Iff.rfl]
    exact sound
  | next cursor modCount =>
    obtain ⟨found, -, same⟩ := Option.map_eq_some_iff.mp acted
    cases same
    rw [course_courier (.next cursor modCount) reply _ Iff.rfl]
    exact sound
  | remove ref =>
    cases acted
    rw [course_courier (.remove ref) () _ Iff.rfl, SyncList.objects_remove]
    exact sound
  | set ref process =>
    cases acted
    obtain ⟨rfl, idle, old, carrying, same, advance⟩ := guarded
    have idle := idle trivial
    have isObject := delivering.handing.carrying ref old carrying
    by_cases own : old.creditCardOrderId = o
    · obtain ⟨before, after⟩ := filter_set_of_once
        (p := fun p : CourierProcess => p.creditCardOrderId = o) process isObject
        (by simpa using own) (by simpa [same] using own) delivering.handing.carried_once
      rcases advance with ⟨received, sent, named⟩ | ⟨sent, delivered, sameId⟩
      · have done := sound.send before received sent named idle.due idle.updated
        have isCourse : courseOf o (Function.update privs .courier
            ((privs .courier).sawCourier (.set ref process) ()).tick)
            { g with courier := g.courier.set ref process } =
            { courseOf o privs g with carried := [process], shipmentDue := True } := by
          unfold courseOf World.course
          rw [Function.update_self, update_other manufacture_ne_courier.symm, SyncList.objects_set,
            after]
          simp [Private.sawCourier, Private.tick, sent, same, own]
        rw [isCourse]
        exact done
      · have done := sound.deliver before sent delivered sameId idle.due
        rw [course_courier (.set ref process) () _ (by simp [Private.sawCourier, delivered]),
          SyncList.objects_set, after]
        exact done
    · have notDue : (if process.status = .cardSent then some process.creditCardOrderId
          else (privs .courier).due) = some o ↔ (privs .courier).due = some o := by
        split
        · simp [same, own, idle.due]
        · exact Iff.rfl
      rw [course_courier (.set ref process) () _ notDue, SyncList.objects_set,
        filter_set_of_not isObject (by simpa using own) (by simpa [same] using own)]
      exact sound

/-- Every command by the duties leaves everything about the order in order. -/
theorem Delivering.act (delivering : Delivering o privs g)
    (guarded : (duties True o i).guard c (privs i)) (unbroken : Unbroken o i false c (privs i) g)
    (acted : Cards.act c (privs i) g = some (reply, l', g')) :
    Delivering o (Function.update privs i l') g' := by
  obtain ⟨prompt, spares, -⟩ := unbroken
  have spares := spares rfl
  have offList : c.OffList → (courseOf o (Function.update privs i l') g').Sound :=
    fun off => delivering.offList off guarded spares acted
  refine ⟨act_valid delivering.valid acted, delivering.handing.act guarded prompt acted, ?_⟩
  cases c with
  | manufacture command =>
    obtain ⟨⟨reply', list⟩, stepped, same⟩ := Option.map_eq_some_iff.mp acted
    cases same
    exact delivering.manufactureAct guarded prompt spares stepped
  | courier command =>
    obtain ⟨⟨reply', list⟩, stepped, same⟩ := Option.map_eq_some_iff.mp acted
    cases same
    exact delivering.courierAct guarded stepped
  | _ => exact offList trivial

end Steps

/-! ## Runs -/

/-- A shipped card is accounted for. -/
structure World.Accounted (g : World) (o : OrderId) : Prop where
  /-- There is one card. -/
  card : (g.db.cardsOf o).length = 1
  /-- The order carries the identifier of the courier's only process. -/
  shipment : ∃ process row shippingId,
    g.courier.objects.filter (fun process => process.creditCardOrderId = o) = [process] ∧
      g.db.orders.filter (fun row => row.id = o) = [row] ∧
        process.shippingId = some shippingId ∧ row.shippingId = some shippingId
  /-- The shipment has been reported. -/
  shipped : ∃ s ∈ g.db.statusesOf o, s.status = .cardShipped
  /-- The card was reported before. -/
  created : ∀ s ∈ g.db.statusesOf o, s.status = .cardShipped →
    ∃ s' ∈ g.db.statusesOf o, s'.status = .cardCreated ∧ s'.id < s.id

/-- An order with a status has one row. -/
theorem Database.Valid.row_of_status {db : Database} {o : OrderId} (valid : db.Valid)
    {s : CreditCardOrderStatus} (mem : s ∈ db.statusesOf o) :
    ∃ row, db.orders.filter (fun row => row.id = o) = [row] := by
  obtain ⟨memStatus, own⟩ := Database.mem_statusesOf.1 mem
  obtain ⟨row, memRow, isRow⟩ := List.mem_map.1 (own ▸ valid.statusOrder s memStatus)
  have once : (db.orders.filter fun row => row.id = o).length ≤ 1 := by
    have distinct := List.nodup_iff_count_le_one.mp valid.keys o
    rw [Database.orderIds, List.count, List.countP_map] at distinct
    rw [← List.countP_eq_length_filter]
    refine le_trans (Nat.le_of_eq (List.countP_congr fun row _ => ?_)) distinct
    simp
  exact ⟨row, filter_eq_singleton memRow (by simpa using isRow) once⟩

/-- What is shipped is accounted for. -/
theorem Delivering.accounted {ι : Type} {o : OrderId} {privs : Party ι → Private} {g : World}
    (delivering : Delivering o privs g) {s : CreditCardOrderStatus} (mem : s ∈ g.db.statusesOf o)
    (late : StatusType.cardShipped.sequence ≤ s.status.sequence) : g.Accounted o := by
  have notBefore : ∀ status : StatusType, status.sequence ≤ StatusType.cardShipped.sequence →
      ¬(courseOf o privs g).Before status := by
    intro status less before
    have := before s mem
    omega
  obtain ⟨stage, reached⟩ := delivering.sound
  cases stage with
  | unmade => exact absurd reached.2.1 (notBefore _ (by decide))
  | made => exact absurd reached.2.1 (notBefore _ (by decide))
  | stored => exact absurd reached.2.1 (notBefore _ (by decide))
  | created => exact absurd reached.2.1.1 (notBefore _ (Nat.le_refl _))
  | sent => exact absurd reached.2.1.1 (notBefore _ (Nat.le_refl _))
  | addressed => exact absurd reached.2.1.1 (notBefore _ (Nat.le_refl _))
  | shipped =>
    obtain ⟨-, ⟨shipped, created⟩, card, ⟨⟨process, carried, -, named⟩, addressed⟩, -⟩ := reached
    obtain ⟨row, isRow⟩ := delivering.valid.db.row_of_status mem
    obtain ⟨shippingId, isId⟩ := Option.ne_none_iff_exists'.mp named
    refine ⟨card, ⟨process, row, shippingId, carried, isRow, isId, ?_⟩, shipped, created⟩
    have memProcess : process ∈ (courseOf o privs g).carried := carried ▸ List.mem_singleton_self _
    have memRow : row ∈ (courseOf o privs g).rows := by
      change row ∈ g.db.orders.filter fun row => row.id = o
      rw [isRow]
      exact List.mem_singleton_self row
    rw [addressed process memProcess row memRow, isId]

/-- A client orders a card, and the schedulers have time to make and deliver it. -/
def ordered : Parties Unit :=
  start (fun _ => .createCreditCardOrder sampleOrder) (fun i => if i = .work then 1 else 2)
    (fun _ _ => { random := 50 }) emptyWorld

/-- Whole passes, one after the other. -/
def inTurn : List (Party Unit × Bool) :=
  turns (.client ()) 3 ++ turns .work 6 ++ turns .manufacture 22 ++ turns .courier 21

/-- With the report of the card lost on its way, the order is delivered without a card. -/
example :
    let w := (ordered.run machine (turns (.client ()) 3 ++ turns .work 6 ++ turns .manufacture 10 ++
      [(.manufacture, true)] ++ turns .manufacture 12 ++ turns .courier 21)).shared
    w.db.newestStatus "u" = some .cardDelivered ∧ w.db.cardsOf "u" = [] := by decide +kernel

end EasyTrade.Cards
