import EasyTrade.Cards.Statuses

/-!
# One card per order

A `CARD_CREATED` update inserts the card and then the status that blocks a second
one, each on a connection of its own, after a check on a third. An order has one
card at most, and its status with it once the update has returned, as long as
three things hold whenever a program writes: the status it has read is still the
newest, no card of the order still lacks its status when another is inserted, and
the status insert after a card is not refused.
-/

namespace EasyTrade.Cards

open EasyTrade.Logic

/-- `CARD_CREATED` is stored for the order. -/
def Database.Created (db : Database) (id : OrderId) : Prop :=
  ∃ s ∈ db.statusesOf id, s.status = .cardCreated

instance (db : Database) (id : OrderId) : Decidable (db.Created id) :=
  inferInstanceAs (Decidable (∃ s ∈ db.statusesOf id, _))

/-- A statement that deletes rows. -/
def Command.deletes : Command → Bool
  | .deleteStatuses _ | .deleteCards _ | .deleteOrders _ => true
  | _ => false

/-- A statement that inserts a status. -/
def Command.givesStatus : Command → Bool
  | .insertStatus _ _ _ => true
  | _ => false

/-- Nothing has come between the check and the statement: the status read is still
the newest, and no card of the order lacks its status. -/
def CheckStands : Command → Private → World → Prop
  | .insertCard id _, l, g =>
    l.read id = g.db.newestStatus id ∧ (g.db.cardsOf id ≠ [] → g.db.Created id)
  | c, l, g => NewestStands c l g

instance (c : Command) (l : Private) (g : World) : Decidable (CheckStands c l g) := by
  induction c using Command.casesOn with
  | insertCard id =>
    exact inferInstanceAs (Decidable (l.read id = g.db.newestStatus id ∧
      (g.db.cardsOf id ≠ [] → g.db.Created id)))
  | insertStatus id status details =>
    exact inferInstanceAs (Decidable (NewestStands (.insertStatus id status details) l g))
  | _ => exact isTrue trivial

/-- The condition of a turn: nothing is deleted, every check stands, and a status
insert after a card is not refused. -/
def Undisturbed {ι : Type} (_ : Party ι) (refused : Bool) (c : Command) (l : Private) (g : World) :
    Prop :=
  match refused with
  | false => c.deletes = false ∧ CheckStands c l g
  | true => l.awaiting.isSome → c.givesStatus = false

instance {ι : Type} (i : Party ι) (refused : Bool) (c : Command) (l : Private) (g : World) :
    Decidable (Undisturbed i refused c l g) :=
  match refused with
  | false => inferInstanceAs (Decidable (_ ∧ _))
  | true => inferInstanceAs (Decidable (_ → _))

/-- What holds of the cards, and of the programs that have inserted one. -/
structure Carded {ι : Type} (privs : Party ι → Private) (g : World) : Prop where
  /-- Orders are kept apart. -/
  apart : Apart privs g
  /-- Statuses climb. -/
  climbing : g.db.Climbing
  /-- An order has one card at most. -/
  single : ∀ id, (g.db.cardsOf id).length ≤ 1
  /-- A card has its status, or somebody is about to give it. -/
  stored : ∀ id, g.db.cardsOf id ≠ [] → g.db.Created id ∨ ∃ i, (privs i).awaiting = some id
  /-- Who is about to give a card its status has inserted one. -/
  waits : ∀ i id, (privs i).awaiting = some id → g.db.cardsOf id ≠ []

variable {ι : Type} {l l' : Private} {g g' : World} {c : Command} {reply : Reply c} {id : OrderId}
  {privs : Party ι → Private} {i : Party ι}

/-- The cards of an order after a command that deletes nothing. -/
theorem cardsOf_act (acted : act c l g = some (reply, l', g')) (keeps : c.deletes = false)
    (id : OrderId) :
    g'.db.cardsOf id = g.db.cardsOf id ∨ ∃ card, c = .insertCard id card ∧
      g'.db.cardsOf id = g.db.cardsOf id ++ [card.row g.db.cardSeed id] := by
  unfold Database.cardsOf
  rw [(tables_act acted).2.2]
  cases c with
  | insertCard id' card =>
    by_cases same : id' = id
    · subst same
      exact .inr ⟨card, rfl, by simp [cardsAfter, CreditCardRequest.row]⟩
    · exact .inl (by simp [cardsAfter, CreditCardRequest.row, same])
  | deleteCards a => cases keeps
  | _ => exact .inl rfl

/-- A command that deletes nothing keeps `CARD_CREATED`. -/
theorem Database.Created.act (created : g.db.Created id) (keeps : c.deletes = false)
    (acted : Cards.act c l g = some (reply, l', g')) : g'.db.Created id := by
  obtain ⟨s, mem, isCreated⟩ := created
  obtain ⟨mem, own⟩ := Database.mem_statusesOf.1 mem
  refine ⟨s, Database.mem_statusesOf.2 ⟨?_, own⟩, isCreated⟩
  rw [(tables_act acted).2.1]
  cases c with
  | insertStatus id' status details => exact List.mem_append_left _ mem
  | deleteStatuses a => cases keeps
  | _ => exact mem

/-- A card is only inserted for an order that has none. -/
theorem Carded.none_before (carded : Carded privs g) {card : CreditCardRequest}
    (guarded : (rules True).guard (.insertCard id card) (privs i))
    (stands : CheckStands (.insertCard id card) (privs i) g) : g.db.cardsOf id = [] := by
  by_contra stored
  obtain ⟨old, read, less⟩ := guarded.1
  obtain ⟨newest, created⟩ := stands
  obtain ⟨s, mem, isCreated⟩ := created stored
  rw [read] at newest
  obtain ⟨x, isNewest, rfl⟩ := carded.apart.valid.db.newestStatus_eq_some.1 newest.symm
  have top := carded.climbing.le_newest carded.apart.valid.db isNewest mem
  rw [isCreated] at top
  omega

variable [DecidableEq ι]

/-- Commands by the rules, undisturbed, keep one card per order. -/
theorem Carded.kept (carded : Carded privs g) (guarded : (rules True).guard c (privs i))
    (undisturbed : Undisturbed i false c (privs i) g)
    (acted : act c (privs i) g = some (reply, l', g')) :
    Carded (Function.update privs i l') g' := by
  obtain ⟨keeps, stands⟩ := undisturbed
  obtain ⟨-, -, awaiting'⟩ := records_act acted
  have newestStands : NewestStands c (privs i) g := by
    cases c with
    | insertCard id card => exact trivial
    | _ => exact stands
  have others : ∀ j, j ≠ i → Function.update privs i l' j = privs j := fun j other =>
    Function.update_of_ne other ..
  have own : (Function.update privs i l' i).awaiting = awaitingAfter (privs i) c := by
    rw [Function.update_self, awaiting']
  constructor
  · exact carded.apart.kept guarded acted
  · exact carded.apart.climbing_act carded.climbing guarded newestStands acted
  · intro id
    rcases cardsOf_act acted keeps id with same | ⟨card, rfl, more⟩
    · rw [same]
      exact carded.single id
    · rw [more, carded.none_before guarded stands]
      exact Nat.le_refl 1
  · intro id stored
    rcases cardsOf_act acted keeps id with same | ⟨card, rfl, more⟩
    · rw [same] at stored
      rcases carded.stored id stored with created | ⟨j, waiting⟩
      · exact .inl (created.act keeps acted)
      · by_cases mine : j = i
        · subst mine
          cases c with
          | insertCard id' card =>
            have free := guarded.2 trivial
            rw [free] at waiting
            cases waiting
          | insertStatus id' status details =>
            -- the status given is the one its card waits for
            have due := guarded.2 trivial
            rw [waiting] at due
            split at due
            · rename_i isCreated
              obtain rfl : id = id' := Option.some.inj due
              have new : ⟨g.db.statusSeed, id, Database.toSecond (privs j).chance.clock, status,
                  details⟩ ∈ g'.db.statusesOf id := by
                rw [statusesOf_insertStatus acted]
                exact List.mem_append_right _ (List.mem_singleton.2 rfl)
              exact .inl ⟨_, new, isCreated⟩
            · cases due
          | _ => exact .inr ⟨j, own.trans waiting⟩
        · exact .inr ⟨j, by rw [others j mine]; exact waiting⟩
    · exact .inr ⟨i, own⟩
  · intro j id waiting
    have grows : g.db.cardsOf id ≠ [] → g'.db.cardsOf id ≠ [] := by
      intro stored
      rcases cardsOf_act acted keeps id with same | ⟨card, -, more⟩
      · rwa [same]
      · simp [more]
    by_cases mine : j = i
    · subst mine
      rw [own] at waiting
      cases c with
      | insertCard id' card =>
        obtain rfl : id' = id := Option.some.inj waiting
        refine List.ne_nil_of_mem (Database.mem_cardsOf.2 ⟨?_, rfl⟩ : card.row g.db.cardSeed id' ∈ _)
        rw [(tables_act acted).2.2]
        exact List.mem_append_right _ (List.mem_singleton.2 rfl)
      | insertStatus id' status details =>
        simp only [awaitingAfter, strike] at waiting
        split at waiting
        · cases waiting
        · exact grows (carded.waits j id waiting)
      | _ => exact grows (carded.waits j id waiting)
    · rw [others j mine] at waiting
      exact grows (carded.waits j id waiting)

omit [DecidableEq ι] in
/-- Only the status insert after a card may not be refused, and it is possible: the
order of the card is stored. -/
theorem Carded.excused {refused : Bool} (carded : Carded privs g)
    (guarded : (rules True).guard c (privs i)) (undisturbed : Undisturbed i refused c (privs i) g)
    (undone : refused = true ∨ act c (privs i) g = none) :
    (rules True).refusable c (privs i) := by
  cases c with
  | insertStatus id status details =>
    intro _
    by_contra waiting
    obtain ⟨id', waiting⟩ := Option.ne_none_iff_exists'.1 waiting
    cases refused with
    | true =>
      have spared := undisturbed (by rw [waiting]; rfl)
      cases spared
    | false =>
      have due := guarded.2 trivial
      rw [waiting] at due
      split at due
      · rename_i isCreated
        obtain rfl : id' = id := Option.some.inj due
        obtain ⟨card, mem⟩ := List.exists_mem_of_ne_nil _ (carded.waits i id' waiting)
        obtain ⟨mem, own⟩ := Database.mem_cardsOf.1 mem
        have known := carded.apart.valid.db.cardOrder card mem
        rw [own] at known
        subst isCreated
        rcases undone with off | impossible
        · cases off
        · simp [act, World.withDb, Database.insertStatus, known] at impossible
      · cases due
  | _ => exact trivial

/-- The tables at the start: cards have their statuses. -/
structure Database.Carded (db : Database) : Prop where
  /-- Statuses climb. -/
  climbing : db.Climbing
  /-- An order has one card at most. -/
  single : ∀ id, (db.cardsOf id).length ≤ 1
  /-- A card has its status. -/
  stored : ∀ id, db.cardsOf id ≠ [] → db.Created id

theorem one_card_per_order (requests : ι → Request) (rounds : Party ι → Nat)
    (chances : Party ι → Nat → Chance) (g : World) (valid : g.Valid) (carded : g.db.Carded)
    (schedule : List (Party ι × Bool))
    (undisturbed : (start requests rounds chances g).Respects machine Undisturbed schedule) :
    let s := (start requests rounds chances g).run machine schedule
    (∀ id, (s.shared.db.cardsOf id).length ≤ 1) ∧
      ∀ id, s.shared.db.cardsOf id ≠ [] → s.shared.db.Created id ∨
        ∃ i c next, (s.threads i).program = .call c next ∧ (s.threads i).priv.awaiting = some id := by
  intro s
  obtain ⟨kept, keeps⟩ := invariant_of_rules True Carded (fun _ _ held => held.apart.valid)
    (fun privs g i c refused held guarded undisturbed undone =>
      held.excused guarded undisturbed undone)
    (fun privs g i c reply l' g' guarded undisturbed held acted =>
      held.kept guarded undisturbed acted)
    ⟨Apart.start valid chances, carded.climbing, carded.single,
      fun id stored => .inl (carded.stored id stored), nofun⟩ undisturbed
  refine ⟨kept.single, fun id stored => ?_⟩
  rcases kept.stored id stored with created | ⟨i, waiting⟩
  · exact .inl created
  · refine .inr ⟨i, ?_⟩
    have keeps := keeps i
    change (s.threads i).priv.awaiting = some id at waiting
    -- a program that has ended waits for nothing
    cases reached : (s.threads i).program with
    | call c next => exact ⟨c, next, rfl, waiting⟩
    | done value =>
      rw [reached] at keeps
      exact absurd (keeps trivial) (by rw [waiting]; simp)
    | fail error =>
      rw [reached] at keeps
      exact absurd (keeps trivial) (by rw [waiting]; simp)
/-- An order, and clients that report its card as made. -/
def createAndIssue : Parties Nat :=
  start
    (fun n => if n = 0 then .createCreditCardOrder sampleOrder
      else .updateStatus "u" ⟨"u", "card_created",
        some { asCreditCard := some ⟨"gold", "0123456789012345", "123", 0⟩ }⟩)
    (fun _ => 0) (fun _ _ => {}) emptyWorld

theorem emptyWorld_carded : emptyWorld.db.Carded := ⟨nofun, fun _ => Nat.zero_le 1, nofun⟩

/-- Two reports side by side store two cards. A report whose last statement fails
stores a card, returns and leaves the order without `CARD_CREATED`. -/
theorem two_cards_or_no_status :
    emptyWorld.Valid ∧ emptyWorld.db.Carded ∧
      ((createAndIssue.run machine (turns (.client 0) 3 ++ turns (.client 1) 1 ++
        turns (.client 2) 1 ++ turns (.client 1) 2 ++ turns (.client 2) 2)).shared.db.cardsOf
          "u").length = 2 ∧
      let s := createAndIssue.run machine
        (turns (.client 0) 3 ++ turns (.client 1) 2 ++ [(.client 1, true)])
      (s.shared.db.cardsOf "u").length = 1 ∧ ¬ s.shared.db.Created "u" ∧
        (match (s.threads (.client 1)).program with
          | .done (some response) => response.statusCode
          | _ => 0) = 500 :=
  ⟨emptyWorld_valid, emptyWorld_carded, by decide +kernel, by decide +kernel⟩

/-- A report and then another one: one card, with its status. -/
theorem one_card_per_order_in_turn :
    let s := createAndIssue.run machine
      (turns (.client 0) 3 ++ turns (.client 1) 3 ++ turns (.client 2) 3)
    (∀ id, (s.shared.db.cardsOf id).length ≤ 1) ∧
      ∀ id, s.shared.db.cardsOf id ≠ [] → s.shared.db.Created id ∨
        ∃ i c next, (s.threads i).program = .call c next ∧ (s.threads i).priv.awaiting = some id :=
  one_card_per_order _ _ _ _ emptyWorld_valid emptyWorld_carded _ (by decide +kernel)

end EasyTrade.Cards
