import EasyTrade.Cards.OneCard
import EasyTrade.Cards.Orders

/-!
# Stranded orders

Requests one after the other, with any of their statements refused. A request
that fails half way leaves what it has done. A creation whose status insert fails
leaves an order without a status, and so does a deletion that fails after its
first statement; from then on the order is stuck. No other failure leaves one.
-/

namespace EasyTrade.Cards

open EasyTrade.Logic EasyTrade.Logic.Program

/-- A request, what its commands find, and which of them are refused. -/
structure Call where
  /-- The request. -/
  request : Request
  /-- What its commands find. -/
  chances : Nat → Chance := fun _ => {}
  /-- Which of its commands are refused. -/
  fails : Nat → Bool := fun _ => false

/-- The world after a call. -/
def Call.serve (call : Call) (g : World) : World :=
  leaves machine call.request.handler call.fails { chances := call.chances } g

/-- The world after calls in turn. -/
def serveAll (calls : List Call) (g : World) : World := calls.foldl (fun g call => call.serve g) g

/-- Every order has a status. -/
def Database.Complete (db : Database) : Prop := ∀ o ∈ db.orders, db.statusesOf o.id ≠ []

instance (db : Database) : Decidable db.Complete :=
  inferInstanceAs (Decidable (∀ o ∈ db.orders, _))

/-- The call strands an order: the status insert of a creation is refused after its
order insert, or a later statement of a deletion after the first. -/
def Call.Strands (call : Call) (g : World) : Prop :=
  match call.request with
  | .createCreditCardOrder request =>
    g.db.orderCount request.accountId = 0 ∧ call.fails 0 = false ∧ call.fails 1 = false ∧
      (g.db.insertOrder (request.row (g.uuids g.drawn))).isSome ∧ call.fails 2 = true
  | .deleteOrder accountId =>
    g.db.orderCount accountId ≠ 0 ∧ call.fails 0 = false ∧
      (call.fails 1 = true ∨ call.fails 2 = true)
  | _ => False

instance (call : Call) (g : World) : Decidable (call.Strands g) := by
  unfold Call.Strands
  split <;> infer_instance

/-- No call of the sequence strands an order. -/
def NoneStrands : List Call → World → Prop
  | [], _ => True
  | first :: rest, g => ¬ first.Strands g ∧ NoneStrands rest (first.serve g)

instance NoneStrands.decidable : ∀ (calls : List Call) (g : World), Decidable (NoneStrands calls g)
  | [], _ => isTrue trivial
  | first :: rest, g =>
    have := NoneStrands.decidable rest (first.serve g)
    inferInstanceAs (Decidable (_ ∧ _))

variable {g g' : World} {l l' : Private} {c : Command} {reply : Reply c}

/-- The handler of failed statements issues no command. -/
theorem leaves_handleSQLException (body : Task StandardResponse) (fails : Nat → Bool) (l : Private)
    (g : World) :
    leaves machine (OrderController.handleSQLException body) fails l g =
      leaves machine body fails l g := by
  refine leaves_tryCatch (fun e => ?_) fails l g
  cases e with
  | refused => exact .inl ⟨_, rfl⟩
  | _ => exact .inr ⟨_, rfl⟩

/-! ## Requests that strand nothing -/

/-- A command that neither inserts an order nor deletes a status. -/
def Command.Harmless : Command → Prop
  | .insertOrder _ | .deleteStatuses _ => False
  | _ => True

/-- What a serial run keeps of the world. -/
structure Sound (g : World) : Prop where
  /-- The world is valid. -/
  valid : g.Valid
  /-- No account has two orders. -/
  single : g.db.Single

/-- A harmless command strands nothing. -/
theorem complete_act (harmless : c.Harmless) (complete : g.db.Complete)
    (acted : act c l g = some (reply, l', g')) : g'.db.Complete := by
  intro o mem
  have old : ∃ o' ∈ g.db.orders, o'.id = o.id := by
    rw [(tables_act acted).1] at mem
    cases c with
    | insertOrder request => exact harmless.elim
    | updateOrder id shippingId =>
      obtain ⟨o', mem', rfl⟩ := List.mem_map.1 mem
      exact ⟨o', mem', by split <;> rfl⟩
    | deleteOrders a => exact ⟨o, List.mem_of_mem_filter mem, rfl⟩
    | _ => exact ⟨o, mem, rfl⟩
  obtain ⟨o', mem', same⟩ := old
  have some := complete o' mem'
  rw [same] at some
  by_cases given : ∃ status details, c = .insertStatus o.id status details
  · obtain ⟨status, details, rfl⟩ := given
    rw [statusesOf_insertStatus acted]
    simp
  · rcases @statusesOf_kept o.id _ _ _ _ _ _ acted fun status details same =>
      given ⟨status, details, same⟩ with kept | ⟨-, a, rfl, -⟩
    · rwa [kept]
    · exact harmless.elim

/-- A harmless command keeps a sound world sound. -/
theorem Sound.act (sound : Sound g) (harmless : c.Harmless)
    (acted : Cards.act c l g = some (reply, l', g')) : Sound g' := by
  refine ⟨act_valid sound.valid acted, fun a => ?_⟩
  rcases ordersOf_act acted a with fewer | ⟨request, rfl, -⟩
  · exact Nat.le_trans fewer (sound.single a)
  · exact harmless.elim

/-- A request of harmless commands strands nothing. -/
theorem harmless_serve {call : Call} (only : call.request.handler.Only Command.Harmless)
    (sound : Sound g) (complete : g.db.Complete) :
    Sound (call.serve g) ∧ (call.serve g).db.Complete :=
  only.leaves_inv (fun g => Sound g ∧ g.db.Complete)
    (fun _ _ _ _ _ _ harmless held acted =>
      ⟨held.1.act harmless acted, complete_act harmless held.2 acted⟩) _ _ ⟨sound, complete⟩

/-! ## Creations and deletions -/

/-- A command that is carried out. -/
theorem of_attempt {refused : Bool} (h : attempt machine refused c l g = some (reply, l', g')) :
    refused = false ∧ act c l g = some (reply, l', g') := attempt_eq_some.1 h

/-- A creation leaves the world alone, or the order without a status, or with its first. -/
theorem leaves_create (request : CreditCardOrderRequest) (fails : Nat → Bool) (l : Private)
    (g : World) :
    leaves machine (OrderController.createCreditCardOrder request) fails l g =
      (attempt machine (fails 0) (.orderCount request.accountId) l g).elim g fun count =>
        if count.1 = 0 then
          (attempt machine (fails 1) (.insertOrder request) count.2.1 count.2.2).elim count.2.2
            fun order =>
              (attempt machine (fails 2) (.insertStatus order.1 .orderCreated
                StatusType.orderCreated.description) order.2.1 order.2.2).elim order.2.2
                fun status => status.2.2
        else count.2.2 := by
  rw [OrderController.createCreditCardOrder, leaves_handleSQLException]
  simp only [send, leaves_send]
  congr 1
  funext count
  by_cases none : count.1 = 0
  · simp only [if_pos none, OrderController.insertNewStatus, send, leaves_send, leaves_pure]
  · simp only [if_neg none, leaves_pure]

/-- A deletion leaves what its statements have left before one fails. -/
theorem leaves_delete (a : AccountId) (fails : Nat → Bool) (l : Private) (g : World) :
    leaves machine (OrderController.deleteOrder a) fails l g =
      (attempt machine (fails 0) (.deleteStatuses a) l g).elim g fun statuses =>
        (attempt machine (fails 1) (.deleteCards a) statuses.2.1 statuses.2.2).elim statuses.2.2
          fun cards =>
            (attempt machine (fails 2) (.deleteOrders a) cards.2.1 cards.2.2).elim cards.2.2
              fun orders => orders.2.2 := by
  rw [OrderController.deleteOrder, leaves_handleSQLException]
  simp only [send, leaves_send, leaves_pure]

/-- An order just inserted is the only one without a status. -/
theorem inserted_order {request : CreditCardOrderRequest} {guid : OrderId} (sound : Sound g)
    (complete : g.db.Complete) (none : g.db.orderCount request.accountId = 0)
    (acted : act (.insertOrder request) l g = some (guid, l', g')) :
    Sound g' ∧ g'.db.statusesOf guid = [] ∧ (∃ o ∈ g'.db.orders, o.id = guid) ∧
      ∀ o ∈ g'.db.orders, o.id = guid ∨ g'.db.statusesOf o.id ≠ [] := by
  have orders := (tables_act acted).1
  have statuses := (tables_act acted).2.1
  have drawn : guid = g.uuids g.drawn := by
    obtain ⟨db', -, same⟩ := Option.map_eq_some_iff.1 acted
    cases same
    rfl
  subst drawn
  have sameStatuses : ∀ id, g'.db.statusesOf id = g.db.statusesOf id := fun id => by
    unfold Database.statusesOf
    rw [statuses]
    rfl
  have valid := act_valid sound.valid acted
  refine ⟨⟨valid, fun a => ?_⟩, ?_, ?_, fun o mem => ?_⟩
  · rcases ordersOf_act acted a with fewer | ⟨request', same, rfl, more⟩
    · exact Nat.le_trans fewer (sound.single a)
    · cases same
      omega
  · rw [sameStatuses, List.eq_nil_iff_forall_not_mem]
    intro s mem
    obtain ⟨mem, own⟩ := Database.mem_statusesOf.1 mem
    have known := sound.valid.db.statusOrder s mem
    rw [own] at known
    exact sound.valid.fresh g.drawn (Nat.le_refl _) known
  · exact ⟨request.row (g.uuids g.drawn), by rw [orders]; simp [ordersAfter], rfl⟩
  · rw [orders] at mem
    rcases List.mem_append.1 mem with old | new
    · exact .inr (by rw [sameStatuses]; exact complete o old)
    · exact .inl (by rw [List.mem_singleton.1 new]; rfl)

/-- The order a creation has inserted stays without a status just where the status
insert is refused. -/
theorem create_leaves {request : CreditCardOrderRequest} {fails : Nat → Bool} (sound : Sound g)
    (complete : g.db.Complete)
    (ends : leaves machine (OrderController.createCreditCardOrder request) fails l g = g') :
    Sound g' ∧ (g'.db.Complete ↔
      ¬ (g.db.orderCount request.accountId = 0 ∧ fails 0 = false ∧ fails 1 = false ∧
        (g.db.insertOrder (request.row (g.uuids g.drawn))).isSome ∧ fails 2 = true)) := by
  rw [leaves_create] at ends
  cases counted : attempt machine (fails 0) (.orderCount request.accountId) l g with
  | none =>
    have refused := (attempt_eq_none.1 counted).resolve_right nofun
    rw [counted] at ends
    subst ends
    exact ⟨sound, iff_of_true complete fun strands => by simp [refused] at strands⟩
  | some count =>
    obtain ⟨done₀, acted⟩ := attempt_eq_some.1 counted
    cases acted
    rw [counted, Option.elim_some] at ends
    by_cases none : g.db.orderCount request.accountId = 0
    · rw [if_pos none] at ends
      cases inserted : attempt machine (fails 1) (.insertOrder request)
          { l with counted := some (request.accountId, g.db.orderCount request.accountId) }.tick g with
      | none =>
        rw [inserted] at ends
        subst ends
        refine ⟨sound, iff_of_true complete fun strands => ?_⟩
        rcases attempt_eq_none.1 inserted with refused | impossible
        · simp [refused] at strands
        · have impossible : g.db.insertOrder (request.row (g.uuids g.drawn)) = Option.none :=
            Option.map_eq_none_iff.1 impossible
          simp [impossible] at strands
      | some order =>
        obtain ⟨done₁, acted⟩ := attempt_eq_some.1 inserted
        have possible : (g.db.insertOrder (request.row (g.uuids g.drawn))).isSome := by
          obtain ⟨db', inserted, -⟩ := Option.map_eq_some_iff.1 acted
          rw [inserted]
          rfl
        rw [inserted, Option.elim_some] at ends
        obtain ⟨sound₁, empty, ⟨o, mem, own⟩, others⟩ := inserted_order sound complete none acted
        cases given : attempt machine (fails 2) (.insertStatus order.1 .orderCreated
            StatusType.orderCreated.description) order.2.1 order.2.2 with
        | none =>
          rw [given] at ends
          subst ends
          have refused : fails 2 = true := by
            refine (attempt_eq_none.1 given).resolve_right fun impossible => ?_
            have known : order.1 ∈ order.2.2.db.orderIds := List.mem_map.2 ⟨o, mem, own⟩
            simp [machine, act, World.withDb, Database.insertStatus, known] at impossible
          refine ⟨sound₁, iff_of_false (fun complete => complete o mem (own ▸ empty)) ?_⟩
          exact fun spared => spared ⟨none, done₀, done₁, possible, refused⟩
        | some status =>
          obtain ⟨u, l₃, g₃⟩ := status
          obtain ⟨done₂, acted⟩ := of_attempt given
          rw [given, Option.elim_some] at ends
          subst ends
          have sound₂ := Sound.act (c := .insertStatus order.1 _ _) sound₁ trivial acted
          refine ⟨sound₂, iff_of_true (fun o mem => ?_) fun strands => ?_⟩
          · rw [(tables_act acted).1] at mem
            by_cases own : o.id = order.1
            · rw [own, statusesOf_insertStatus acted]
              simp
            · have other : g₃.db.statusesOf o.id = order.2.2.db.statusesOf o.id :=
                (statusesOf_kept acted fun _ _ same =>
                  own (Command.insertStatus.inj same).1.symm).resolve_right fun deleted => by
                    obtain ⟨-, a, isDelete, -⟩ := deleted
                    cases isDelete
              rw [other]
              exact (others o mem).resolve_left own
          · rw [done₂] at strands
            cases strands.2.2.2.2
    · rw [if_neg none] at ends
      subst ends
      exact ⟨sound, iff_of_true complete fun strands => none strands.1⟩

/-- A deletion keeps a sound world sound. -/
theorem Sound.delete (sound : Sound g) (isDelete : c.deletes = true)
    (acted : Cards.act c l g = some (reply, l', g')) : Sound g' := by
  refine ⟨act_valid sound.valid acted, fun a => ?_⟩
  rcases ordersOf_act acted a with fewer | ⟨request, rfl, -⟩
  · exact Nat.le_trans fewer (sound.single a)
  · cases isDelete

/-- The first statement of a deletion takes the statuses of the account's orders and
of no others. -/
theorem statusesOf_deleteStatuses {a : AccountId} {u : Unit} (sound : Sound g)
    (acted : act (.deleteStatuses a) l g = some (u, l', g')) {o : CreditCardOrder}
    (mem : o ∈ g.db.orders) :
    g'.db.statusesOf o.id = if o.accountId = a then [] else g.db.statusesOf o.id := by
  by_cases mine : o.accountId = a
  · have subquery := sound.single.orderIdOf_of_mem (Database.mem_ordersOf.2 ⟨mem, mine⟩)
    rw [if_pos mine, List.eq_nil_iff_forall_not_mem]
    intro s inStatuses
    obtain ⟨inStatuses, own⟩ := Database.mem_statusesOf.1 inStatuses
    rw [(tables_act acted).2.1] at inStatuses
    have kept := (List.mem_filter.1 inStatuses).2
    simp [subquery, own] at kept
  · rw [if_neg mine]
    refine (statusesOf_kept acted nofun).resolve_right fun deleted => ?_
    obtain ⟨-, b, same, own⟩ := deleted
    cases same
    rw [sound.single.orderIdOf a] at own
    -- an order with the identifier of the account's order is that order
    obtain ⟨o', isFirst, same⟩ := Option.map_eq_some_iff.1 (Option.some.inj own)
    have inOrders := Database.mem_ordersOf.1 (List.mem_of_mem_head? isFirst)
    have equal := List.inj_on_of_nodup_map sound.valid.db.keys inOrders.1 mem same
    exact mine (equal ▸ inOrders.2)

/-- The second statement takes the cards of the account's orders. -/
theorem cardsOf_deleteCards {a : AccountId} {u : Unit} (sound : Sound g)
    (acted : act (.deleteCards a) l g = some (u, l', g')) {o : CreditCardOrder}
    (mine : o ∈ g.db.ordersOf a) : g'.db.cardsOf o.id = [] := by
  have subquery := sound.single.orderIdOf_of_mem mine
  rw [List.eq_nil_iff_forall_not_mem]
  intro card inCards
  obtain ⟨inCards, own⟩ := Database.mem_cardsOf.1 inCards
  rw [(tables_act acted).2.2] at inCards
  have kept := (List.mem_filter.1 inCards).2
  simp [subquery, own] at kept

/-- A deletion leaves an order without a status just where a statement after the
first is refused. -/
theorem delete_leaves {a : AccountId} {fails : Nat → Bool} (sound : Sound g)
    (complete : g.db.Complete)
    (ends : leaves machine (OrderController.deleteOrder a) fails l g = g') :
    Sound g' ∧ (g'.db.Complete ↔ ¬ (g.db.orderCount a ≠ 0 ∧ fails 0 = false ∧
      (fails 1 = true ∨ fails 2 = true))) := by
  rw [leaves_delete] at ends
  cases deleted₀ : attempt machine (fails 0) (.deleteStatuses a) l g with
  | none =>
    have refused : fails 0 = true := by
      refine (attempt_eq_none.1 deleted₀).resolve_right fun impossible => ?_
      have subquery := sound.single.orderIdOf a
      simp [machine, act, World.withDb, Database.deleteStatuses, subquery] at impossible
    rw [deleted₀] at ends
    subst ends
    exact ⟨sound, iff_of_true complete fun strands => by simp [refused] at strands⟩
  | some statuses =>
    obtain ⟨_, l₁, g₁⟩ := statuses
    obtain ⟨done₀, acted₀⟩ := of_attempt deleted₀
    rw [deleted₀, Option.elim_some] at ends
    have sound₁ := sound.delete rfl acted₀
    have orders₁ : g₁.db.orders = g.db.orders := (tables_act acted₀).1
    have left : ∀ o ∈ g.db.orders, g₁.db.statusesOf o.id =
        if o.accountId = a then [] else g.db.statusesOf o.id := fun o mem =>
      statusesOf_deleteStatuses sound acted₀ mem
    have count : g₁.db.orderCount a = g.db.orderCount a := by
      unfold Database.orderCount Database.ordersOf
      rw [orders₁]
    -- with the orders still there, one without a status is one of the account
    have incomplete : ∀ g₂ : World, g₂.db.orders = g.db.orders →
        g₂.db.statuses = g₁.db.statuses → (g₂.db.Complete ↔ g.db.orderCount a = 0) := by
      intro g₂ sameOrders sameStatuses
      have same : ∀ id, g₂.db.statusesOf id = g₁.db.statusesOf id := fun id => by
        unfold Database.statusesOf
        rw [sameStatuses]
      constructor
      · intro complete
        rw [Database.orderCount, List.length_eq_zero_iff, List.eq_nil_iff_forall_not_mem]
        intro o mine
        obtain ⟨mem, own⟩ := Database.mem_ordersOf.1 mine
        refine complete o (sameOrders ▸ mem) ?_
        rw [same, left o mem, if_pos own]
      · intro none o mem
        rw [sameOrders] at mem
        rw [same, left o mem]
        have other : o.accountId ≠ a := fun own => by
          rw [Database.orderCount, List.length_eq_zero_iff] at none
          have mine := Database.mem_ordersOf.2 ⟨mem, own⟩
          rw [none] at mine
          cases mine
        rw [if_neg other]
        exact complete o mem
    cases deleted₁ : attempt machine (fails 1) (.deleteCards a) l₁ g₁ with
    | none =>
      have refused : fails 1 = true := by
        refine (attempt_eq_none.1 deleted₁).resolve_right fun impossible => ?_
        have subquery := sound₁.single.orderIdOf a
        simp [machine, act, World.withDb, Database.deleteCards, subquery] at impossible
      rw [deleted₁, Option.elim_none] at ends
      subst ends
      refine ⟨sound₁, (incomplete g₁ orders₁ rfl).trans ?_⟩
      simp [done₀, refused]
    | some cards =>
      obtain ⟨_, l₂, g₂⟩ := cards
      obtain ⟨done₁, acted₁⟩ := of_attempt deleted₁
      rw [deleted₁, Option.elim_some] at ends
      have sound₂ := sound₁.delete rfl acted₁
      have orders₂ : g₂.db.orders = g₁.db.orders := (tables_act acted₁).1
      have statuses₂ : g₂.db.statuses = g₁.db.statuses := (tables_act acted₁).2.1
      have sameStatuses : ∀ id, g₂.db.statusesOf id = g₁.db.statusesOf id := fun id => by
        unfold Database.statusesOf
        rw [statuses₂]
      cases deleted₂ : attempt machine (fails 2) (.deleteOrders a) l₂ g₂ with
      | none =>
        have refused : fails 2 = true := by
          refine (attempt_eq_none.1 deleted₂).resolve_right fun impossible => ?_
          have unreferenced : ∀ o ∈ g₂.db.ordersOf a,
              g₂.db.statusesOf o.id = [] ∧ g₂.db.cardsOf o.id = [] := by
            intro o mine
            obtain ⟨mem, own⟩ := Database.mem_ordersOf.1 mine
            rw [orders₂] at mem
            refine ⟨?_, cardsOf_deleteCards sound₁ acted₁ (Database.mem_ordersOf.2 ⟨mem, own⟩)⟩
            rw [sameStatuses, left o (orders₁ ▸ mem), if_pos own]
          have possible : g₂.db.deleteOrders a ≠ none := by
            rw [Database.deleteOrders, if_pos unreferenced]
            exact Option.some_ne_none _
          exact possible (Option.map_eq_none_iff.1 impossible)
        rw [deleted₂, Option.elim_none] at ends
        subst ends
        refine ⟨sound₂, (incomplete g₂ (orders₂.trans orders₁) statuses₂).trans ?_⟩
        simp [done₀, refused]
      | some orders =>
        obtain ⟨_, l₃, g₃⟩ := orders
        obtain ⟨done₂, acted₂⟩ := of_attempt deleted₂
        rw [deleted₂, Option.elim_some] at ends
        subst ends
        refine ⟨sound₂.delete rfl acted₂, iff_of_true (fun o mem => ?_) ?_⟩
        · rw [(tables_act acted₂).1] at mem
          obtain ⟨mem, other⟩ := List.mem_filter.1 mem
          have other : o.accountId ≠ a := by simpa using other
          have kept : g₃.db.statusesOf o.id = g₂.db.statusesOf o.id :=
            (statusesOf_kept acted₂ (by simp)).resolve_right fun deleted => by
              obtain ⟨-, b, isDelete, -⟩ := deleted
              cases isDelete
          rw [orders₂, orders₁] at mem
          rw [kept, sameStatuses, left o mem, if_neg other]
          exact complete o mem
        · rw [done₁, done₂]
          simp

/-! ## Runs -/

/-- What a call does to the orders. -/
theorem serve_complete (call : Call) (sound : Sound g) (complete : g.db.Complete) :
    Sound (call.serve g) ∧ ((call.serve g).db.Complete ↔ ¬ call.Strands g) := by
  have harmless : ∀ {issued : Command → Prop}, call.request.handler.Only issued →
      (∀ c, issued c → c.Harmless) → ¬ call.Strands g →
      Sound (call.serve g) ∧ ((call.serve g).db.Complete ↔ ¬ call.Strands g) :=
    fun only implies spared => by
      obtain ⟨after, kept⟩ := harmless_serve (only.mono implies) sound complete
      exact ⟨after, iff_of_true kept spared⟩
  have reads : ∀ c : Command, c.Reads → c.Harmless := fun c h => by cases c <;> trivial
  have updates : ∀ c : Command, c.Updates → c.Harmless := fun c h => by cases c <;> trivial
  have adds : ∀ c : Command, c.Adds → c.Harmless := fun c h => by cases c <;> trivial
  obtain ⟨request, chances, fails⟩ := call
  cases request with
  | createCreditCardOrder request => exact create_leaves sound complete rfl
  | deleteOrder accountId => exact delete_leaves sound complete rfl
  | getShippingAddress id => exact harmless (only_getShippingAddress id) reads fun strands => strands
  | getStatusHistory accountId =>
    exact harmless (only_getStatusHistory accountId) reads fun strands => strands
  | getLatestStatus accountId =>
    exact harmless (only_getLatestStatus accountId) reads fun strands => strands
  | updateStatus id request =>
    exact harmless (only_handleNewStatus id request) updates fun strands => strands
  | issueCreditCard request =>
    exact harmless (only_issueCreditCard request) adds fun strands => strands

/-- In every world calls in turn reach, every order has a status, just where no call
strands one. -/
theorem orders_have_statuses (calls : List Call) (g : World) (valid : g.Valid)
    (single : g.db.Single) (complete : g.db.Complete) :
    (∀ n, (serveAll (calls.take n) g).db.Complete) ↔ NoneStrands calls g := by
  have sound : Sound g := ⟨valid, single⟩
  clear valid single
  induction calls generalizing g with
  | nil => exact iff_of_true (fun n => by simpa [serveAll] using complete) trivial
  | cons first rest ih =>
    obtain ⟨after, exact⟩ := serve_complete first sound complete
    constructor
    · intro always
      have kept := always 1
      exact ⟨exact.1 kept, (ih _ kept after).1 fun n => always (n + 1)⟩
    · rintro ⟨spared, later⟩ n
      cases n with
      | zero => exact complete
      | succ n => exact (ih _ (exact.2 spared) after).2 later n

/-- A creation whose last statement is refused answers 500 and leaves its order without
a status, after which the account gets no other order. A deletion whose second statement
is refused leaves one too. -/
theorem order_without_status :
    emptyWorld.Valid ∧ emptyWorld.db.Single ∧ emptyWorld.db.Complete ∧
      (let g := serveAll [⟨.createCreditCardOrder sampleOrder, fun _ => {}, fun n => n = 2⟩]
        emptyWorld
      ¬ g.db.Complete ∧
        (serveAll [⟨.createCreditCardOrder sampleOrder, fun _ => {}, fun _ => false⟩] g).db =
          g.db) ∧
      ¬ (serveAll [⟨.createCreditCardOrder sampleOrder, fun _ => {}, fun _ => false⟩,
        ⟨.deleteOrder 1, fun _ => {}, fun n => n = 1⟩] emptyWorld).db.Complete :=
  ⟨emptyWorld_valid, fun _ => Nat.zero_le 1, by decide +kernel, by decide +kernel,
    by decide +kernel⟩

/-- A creation whose order insert is refused, a creation, a refused update, a deletion
that fails at once and one that succeeds. -/
theorem orders_have_statuses_of_failures :
    let calls : List Call :=
      [⟨.createCreditCardOrder sampleOrder, fun _ => {}, fun n => n = 1⟩,
        ⟨.createCreditCardOrder sampleOrder, fun _ => {}, fun _ => false⟩,
        ⟨.updateStatus "v" ⟨"v", "order_created", none⟩, fun _ => {}, fun n => n = 0⟩,
        ⟨.deleteOrder 1, fun _ => {}, fun n => n = 0⟩,
        ⟨.deleteOrder 1, fun _ => {}, fun _ => false⟩]
    ∀ n, (serveAll (calls.take n) emptyWorld).db.Complete :=
  (orders_have_statuses _ _ emptyWorld_valid (fun _ => Nat.zero_le 1) (by decide +kernel)).2
    (by decide +kernel)

end EasyTrade.Cards
