import EasyTrade.Cards.Statuses

/-!
# The current status

The sequence check and the customer see the status with the latest timestamp,
the work scheduler the one with the greatest identifier. A timestamp has seconds
only and rows of one second come in any order. All are one status, whatever that
order, just while every status is inserted in a later second than all others of
its order.
-/

namespace EasyTrade.Cards

open EasyTrade.Logic

namespace Database

variable {db : Database} {id : OrderId} {x : CreditCardOrderStatus}

/-- All notions of the current status name the status inserted last, whatever the
order of tied rows. -/
structure OneCurrent (db : Database) : Prop where
  /-- `getLastOrderStatus`. -/
  last : ∀ rank id, db.lastStatus rank id = (db.statusesOf id).getLast?
  /-- The first element of `getOrderStatusList`. -/
  list : ∀ rank id, (db.statusList rank id).head? = (db.statusesOf id).getLast?
  /-- `getLastOrderStatusForAccountId`, where the subquery has a value. -/
  account : ∀ rank a order, db.orderIdOf a = some order →
    db.lastStatusForAccount rank a = some (order.bind fun id => (db.statusesOf id).getLast?)
  /-- `GET_ORDER_ID_AND_CURRENT_STATUS`. -/
  scheduler : ∀ id, db.newestStatus id = (db.statusesOf id).getLast?.map CreditCardOrderStatus.status

/-- The newest status of every order is alone in the latest second. -/
def LatestLast (db : Database) : Prop :=
  ∀ id x, db.Newest id x → ∀ y ∈ db.statusesOf id, y ≠ x → y.timestamp < x.timestamp

instance (rank : Nat → Nat) : Std.Total (Later rank) where
  total a b := by
    unfold Later
    omega

instance (rank : Nat → Nat) : IsTrans CreditCardOrderStatus (Later rank) where
  trans a b c hab hbc := by
    unfold Later at *
    omega

/-- The status read is before all others of its order. -/
theorem later_of_lastStatus {rank : Nat → Nat} (h : db.lastStatus rank id = some x)
    {y : CreditCardOrderStatus} (mem : y ∈ db.statusesOf id) : y = x ∨ Later rank x y := by
  have sorted := List.pairwise_insertionSort (Later rank) (db.statusesOf id)
  have mem : y ∈ db.statusList rank id := (List.mem_insertionSort _).2 mem
  obtain ⟨rest, whole⟩ := List.head?_eq_some_iff.1 h
  change (db.statusList rank id).Pairwise _ at sorted
  rw [whole] at sorted mem
  rcases List.mem_cons.1 mem with same | inRest
  · exact .inl same
  · exact .inr (List.rel_of_pairwise_cons sorted inRest)

/-- The status inserted last has the greatest identifier. -/
theorem Valid.getLast_statusesOf (valid : db.Valid) :
    (db.statusesOf id).getLast? = some x ↔ db.Newest id x := by
  have newest : ∀ z, (db.statusesOf id).getLast? = some z → db.Newest id z := by
    intro z h
    obtain ⟨rest, whole⟩ := List.getLast?_eq_some_iff.1 h
    have ascending : (db.statusesOf id).Pairwise fun a b => a.id < b.id := valid.ascending.filter _
    rw [whole] at ascending
    refine ⟨by simp [whole], fun y mem => ?_⟩
    rw [whole] at mem
    rcases List.mem_append.1 mem with before | same
    · have less := (List.pairwise_append.1 ascending).2.2 y before z (List.mem_singleton.2 rfl)
      omega
    · rw [List.mem_singleton.1 same]
  constructor
  · exact newest x
  · intro isNewest
    cases last : (db.statusesOf id).getLast? with
    | none =>
      have empty := List.getLast?_eq_none_iff.1 last
      exact absurd isNewest.1 (by simp [empty])
    | some z => rw [valid.newest_unique (newest z last) isNewest]

/-- The newest status is the one read, whatever the order of tied rows, just where
it is alone in the latest second. -/
theorem Valid.lastStatus_iff (valid : db.Valid) (newest : db.Newest id x) :
    (∀ rank, db.lastStatus rank id = some x) ↔
      ∀ y ∈ db.statusesOf id, y ≠ x → y.timestamp < x.timestamp := by
  constructor
  · intro read y mem other
    have apart : y.id ≠ x.id := fun same =>
      other (valid.eq_of_id_eq (mem_statusesOf.1 mem).1 (mem_statusesOf.1 newest.1).1 same)
    -- the rank that puts `y` before every row of its second
    have before := (later_of_lastStatus (read fun n => if n = y.id then 1 else 0) mem).resolve_left other
    simp only [Later, if_true, if_neg (Ne.symm apart)] at before
    omega
  · intro alone rank
    cases read : db.lastStatus rank id with
    | none =>
      have empty := lastStatus_eq_none.1 read
      exact absurd newest.1 (by simp [empty])
    | some z =>
      by_cases same : z = x
      · rw [same]
      · have less := alone z (mem_of_lastStatus read) same
        have before := (later_of_lastStatus read newest.1).resolve_left fun h => same h.symm
        unfold Later at before
        omega

/-- One status is current just where the newest of each order is alone in the
latest second. -/
theorem Valid.oneCurrent_iff (valid : db.Valid) : db.OneCurrent ↔ db.LatestLast := by
  constructor
  · intro one id x newest
    have last := valid.getLast_statusesOf.2 newest
    exact (valid.lastStatus_iff newest).1 fun rank => by rw [one.last rank id, last]
  · intro alone
    have last : ∀ rank id, db.lastStatus rank id = (db.statusesOf id).getLast? := by
      intro rank id
      cases whole : (db.statusesOf id).getLast? with
      | none => rw [lastStatus_eq_none, List.getLast?_eq_none_iff.1 whole]
      | some x =>
        have newest := valid.getLast_statusesOf.1 whole
        exact (valid.lastStatus_iff newest).2 (alone id x newest) rank
    refine ⟨last, last, fun rank a order known => ?_, fun id => ?_⟩
    · simp only [lastStatusForAccount, known, Option.map_some]
      cases order with
      | none => rfl
      | some id => simp [last]
    · cases whole : (db.statusesOf id).getLast? with
      | none =>
        have empty := List.getLast?_eq_none_iff.1 whole
        cases read : db.newestStatus id with
        | none => rfl
        | some status =>
          obtain ⟨x, newest, -⟩ := valid.newestStatus_eq_some.1 read
          exact absurd newest.1 (by simp [empty])
      | some x =>
        exact valid.newestStatus_eq_some.2 ⟨x, valid.getLast_statusesOf.1 whole, rfl⟩

end Database

/-- A status is inserted in a later second than every other of its order. -/
def LaterSecond : Command → Private → World → Prop
  | .insertStatus id _ _, l, g =>
    ∀ s ∈ g.db.statusesOf id, s.timestamp < Database.toSecond l.chance.clock
  | _, _, _ => True

instance (c : Command) (l : Private) (g : World) : Decidable (LaterSecond c l g) := by
  induction c using Command.casesOn with
  | insertStatus id =>
    exact inferInstanceAs (Decidable (∀ s ∈ g.db.statusesOf id,
      s.timestamp < Database.toSecond l.chance.clock))
  | _ => exact isTrue trivial

/-- The newest status of an order stays alone in its second unless one is inserted,
and that one has to come in a later second. -/
theorem latestLast_act {c : Command} {l l' : Private} {g g' : World} {reply : Reply c}
    (valid : g.Valid) (before : g.db.LatestLast) (acted : act c l g = some (reply, l', g')) :
    g'.db.LatestLast ↔ LaterSecond c l g := by
  have others : ∀ id, (∀ status details, c ≠ .insertStatus id status details) → ∀ x,
      g'.db.Newest id x → ∀ y ∈ g'.db.statusesOf id, y ≠ x → y.timestamp < x.timestamp := by
    intro id other x newest y mem apart
    rcases statusesOf_kept acted other with same | ⟨empty, -⟩
    · unfold Database.Newest at newest
      rw [same] at newest mem
      exact before id x newest y mem apart
    · rw [empty] at mem
      cases mem
  cases c with
  | insertStatus id status details =>
    have after := statusesOf_insertStatus acted
    have last : g'.db.Newest id _ := (act_valid valid acted).db.getLast_statusesOf.1
      (by rw [after]; exact List.getLast?_concat)
    constructor
    · intro alone s mem
      refine alone id _ last s (by rw [after]; exact List.mem_append_left _ mem) fun same => ?_
      have bound := valid.db.seed s (Database.mem_statusesOf.1 mem).1
      rw [same] at bound
      exact absurd bound (Nat.lt_irrefl _)
    · intro later id' x newest y mem apart
      by_cases same : id' = id
      · subst same
        have isLast := (act_valid valid acted).db.newest_unique newest last
        subst isLast
        rw [after] at mem
        rcases List.mem_append.1 mem with old | new
        · exact later y old
        · exact absurd (List.mem_singleton.1 new) apart
      · exact others id' (fun _ _ clash => same (by cases clash; rfl)) x newest y mem apart
  | _ => exact iff_of_true (fun id => others id nofun) trivial

/-- All along a schedule the notions of the current status agree just where every
status is inserted in a later second than the others of its order. -/
theorem current_status_is_one {ι : Type} [DecidableEq ι] (requests : ι → Request)
    (rounds : Party ι → Nat) (chances : Party ι → Nat → Chance) (g : World) (valid : g.Valid)
    (schedule : List (Party ι × Bool)) :
    (∀ n, ((start requests rounds chances g).run machine (schedule.take n)).shared.db.OneCurrent) ↔
      g.db.OneCurrent ∧ (start requests rounds chances g).Respects machine
        (fun _ refused c l g => refused = false → (act c l g).isSome → LaterSecond c l g)
        schedule := by
  refine System.always_iff_respects (P := fun g : World => g.db.OneCurrent)
    (t := fun _ => Terms.none Command Failure Private World) (fun _ _ _ => trivial)
    (fun _ _ _ _ => trivial) (fun _ _ g _ _ _ (valid : g.Valid) acted => act_valid valid acted) ?_
    schedule (fun _ => Program.keeps_none _ _) valid
  intro _ c l g reply l' g' _ valid one acted
  rw [(act_valid valid acted).db.oneCurrent_iff]
  exact latestLast_act valid (valid.db.oneCurrent_iff.1 one) acted

/-- An order is created and then marked as ordered, one request after the other. -/
def createAndOrder (clock : Int) : Parties Bool :=
  start
    (fun second => if second then .updateStatus "u" ⟨"u", "card_ordered", none⟩
      else .createCreditCardOrder sampleOrder)
    (fun _ => 0) (fun i _ => { clock := if i = .client true then clock else 0 }) emptyWorld

theorem emptyWorld_oneCurrent : emptyWorld.db.OneCurrent :=
  emptyWorld_valid.db.oneCurrent_iff.2 fun id x newest => by
    have mem := (Database.mem_statusesOf.1 newest.1).1
    cases mem

/-- Within one second the customer may still be shown the first status. -/
theorem two_statuses_in_one_second :
    emptyWorld.Valid ∧ emptyWorld.db.OneCurrent ∧
      let db := ((createAndOrder 0).run machine
        (turns (.client false) 3 ++ turns (.client true) 2)).shared.db
      (db.lastStatus (fun n => if n = 1 then 1 else 0) "u").map CreditCardOrderStatus.status =
          some .orderCreated ∧
        db.newestStatus "u" = some .cardOrdered ∧ ¬ db.OneCurrent := by
  refine ⟨emptyWorld_valid, emptyWorld_oneCurrent, by decide +kernel, by decide +kernel,
    fun one => ?_⟩
  have last := one.last (fun n => if n = 1 then 1 else 0) "u"
  revert last
  decide +kernel

/-- A second later there is one current status. -/
theorem current_status_is_one_later :
    let schedule := turns (.client false) 3 ++ turns (.client true) 2
    ((createAndOrder 10000000).run machine schedule).shared.db.newestStatus "u" =
        some .cardOrdered ∧
      ∀ n, ((createAndOrder 10000000).run machine (schedule.take n)).shared.db.OneCurrent := by
  refine ⟨by decide +kernel, ?_⟩
  exact (current_status_is_one _ _ _ _ emptyWorld_valid _).2
    ⟨emptyWorld_oneCurrent, by decide +kernel⟩

end EasyTrade.Cards
