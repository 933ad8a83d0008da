import EasyTrade.Cards.Rules

/-!
# Orders of an account

`createCreditCardOrder` counts the orders of the account and inserts one if there
is none; no constraint keeps two requests from doing so side by side. While every
count still stands when the order is inserted, no account has two orders, and no
scalar subquery over the orders of an account fails.
-/

namespace EasyTrade.Cards

open EasyTrade.Logic

/-- The count an order is inserted on still stands. -/
def CountStands : Command → Private → World → Prop
  | .insertOrder request, l, g =>
    l.counted = some (request.accountId, g.db.orderCount request.accountId)
  | _, _, _ => True

instance (c : Command) (l : Private) (g : World) : Decidable (CountStands c l g) := by
  cases c <;> unfold CountStands <;> infer_instance

/-- No account has two orders. -/
def Database.Single (db : Database) : Prop := ∀ a, db.orderCount a ≤ 1

/-- Where no account has two orders, every scalar subquery has a value. -/
theorem Database.Single.orderIdOf {db : Database} (single : db.Single) (a : AccountId) :
    db.orderIdOf a = some (db.orderIdForAccount a) := by
  have few := single a
  unfold Database.orderCount at few
  unfold Database.orderIdOf Database.orderIdForAccount
  match own : db.ordersOf a with
  | [] => rfl
  | [order] => rfl
  | first :: second :: rest =>
    rw [own] at few
    simp at few

/-- That value is the account's order. -/
theorem Database.Single.orderIdOf_of_mem {db : Database} (single : db.Single) {a : AccountId}
    {o : CreditCardOrder} (mem : o ∈ db.ordersOf a) : db.orderIdOf a = some (some o.id) := by
  have few := single a
  unfold Database.orderCount at few
  unfold Database.orderIdOf
  match own : db.ordersOf a with
  | [] =>
    rw [own] at mem
    cases mem
  | [only] =>
    rw [own] at mem
    rw [List.mem_singleton.1 mem]
  | first :: second :: rest =>
    rw [own] at few
    simp at few

/-- The orders of an account that a command leaves or adds. -/
theorem ordersOf_act {c : Command} {l l' : Private} {g g' : World} {reply : Reply c}
    (acted : act c l g = some (reply, l', g')) (a : AccountId) :
    g'.db.orderCount a ≤ g.db.orderCount a ∨
      ∃ request, c = .insertOrder request ∧ request.accountId = a ∧
        g'.db.orderCount a = g.db.orderCount a + 1 := by
  have orders := (tables_act acted).1
  unfold Database.orderCount Database.ordersOf
  rw [orders]
  cases c with
  | insertOrder request =>
    by_cases own : request.accountId = a
    · exact .inr ⟨request, rfl, own, by simp [ordersAfter, CreditCardOrderRequest.row, own]⟩
    · exact .inl (by simp [ordersAfter, CreditCardOrderRequest.row, own])
  | deleteOrders b =>
    exact .inl ((List.filter_sublist.filter _).length_le)
  | updateOrder id shippingId =>
    refine .inl (Nat.le_of_eq ?_)
    simp only [ordersAfter, Database.updateOrder, List.filter_map, List.length_map]
    congr 2
    funext o
    simp only [Function.comp_apply]
    split <;> rfl
  | _ => exact .inl (Nat.le_refl _)

theorem one_order_per_account {ι : Type} [DecidableEq ι] (requests : ι → Request)
    (rounds : Party ι → Nat) (chances : Party ι → Nat → Chance) (g : World) (valid : g.Valid)
    (single : g.db.Single) (schedule : List (Party ι × Bool))
    (stands : (start requests rounds chances g).Respects machine
      (fun _ refused c l g => refused = false → CountStands c l g) schedule) :
    let db := ((start requests rounds chances g).run machine schedule).shared.db
    db.Single ∧ ∀ a rank, (db.lastStatusForAccount rank a).isSome ∧
      (db.deleteStatuses a).isSome ∧ (db.deleteCards a).isSome := by
  intro db
  have kept := (invariant_of_rules False (fun _ g => g.Valid ∧ g.db.Single)
    (fun _ _ held => held.1) (fun _ _ _ c _ _ _ _ _ => refusable_of_not_paired c) ?_ ⟨valid, single⟩ stands).1
  · have known := kept.2.orderIdOf
    refine ⟨kept.2, fun a rank => ?_⟩
    simp only [Database.lastStatusForAccount, Database.deleteStatuses, Database.deleteCards]
    rw [known a]
    exact ⟨rfl, rfl, rfl⟩
  · rintro privs g i c reply l' g' guarded stands ⟨valid, single⟩ acted
    refine ⟨act_valid valid acted, fun a => ?_⟩
    rcases ordersOf_act acted a with fewer | ⟨request, rfl, rfl, more⟩
    · exact Nat.le_trans fewer (single a)
    · have counted : (privs i).counted = some (request.accountId, 0) := guarded
      have still : (privs i).counted =
          some (request.accountId, g.db.orderCount request.accountId) := stands rfl
      rw [counted] at still
      have none : 0 = g.db.orderCount request.accountId := by simpa using still
      omega

/-- Of two clients that order for the same account, turn by turn, both count no order. -/
def sideBySide : List (Party Bool × Bool) :=
  (List.replicate 3 (turns (.client false) 1 ++ turns (.client true) 1)).flatten

/-- Both orders are stored, and every scalar subquery over them fails. -/
theorem two_orders_for_one_account :
    emptyWorld.Valid ∧ emptyWorld.db.Single ∧
      let db := ((start (fun _ : Bool => .createCreditCardOrder sampleOrder) (fun _ => 0)
        (fun _ _ => {}) emptyWorld).run machine sideBySide).shared.db
      db.orderCount 1 = 2 ∧ db.lastStatusForAccount id 1 = none ∧ db.deleteStatuses 1 = none ∧
        db.deleteCards 1 = none :=
  ⟨emptyWorld_valid, fun _ => Nat.zero_le 1, by decide +kernel⟩

/-- One order is placed while another client waits. -/
theorem one_order_per_account_one_by_one :
    emptyWorld.db.Single ∧
      let db := ((start (fun _ : Bool => .createCreditCardOrder sampleOrder) (fun _ => 0)
        (fun _ _ => {}) emptyWorld).run machine
          (turns (.client false) 3 ++ turns (.client true) 1)).shared.db
      db.Single ∧ ∀ a rank, (db.lastStatusForAccount rank a).isSome ∧
        (db.deleteStatuses a).isSome ∧ (db.deleteCards a).isSome :=
  ⟨fun _ => Nat.zero_le 1, one_order_per_account _ _ _ _ emptyWorld_valid (fun _ => Nat.zero_le 1) _
    (by decide +kernel)⟩

end EasyTrade.Cards
