import EasyTrade.Cards.Rules

/-!
# Statuses move forward

A status is inserted after one with a smaller sequence number has been read, on
another connection and without a lock. While the status read is still the newest
of its order when the next one is inserted, the statuses of every order have
strictly increasing sequence numbers. The first status of an order needs no such
condition: its identifier is new, so nobody else can have read a status of it.
-/

namespace EasyTrade.Cards

open EasyTrade.Logic

/-! ## Orders just inserted -/

section Apart

variable {ι : Type} {l l' : Private} {g g' : World} {c : Command} {reply : Reply c} {id : OrderId}

/-- A status of an order was there before the command, or the command inserts it. -/
theorem statusesOf_act (acted : act c l g = some (reply, l', g')) {s : CreditCardOrderStatus}
    (mem : s ∈ g'.db.statusesOf id) :
    s ∈ g.db.statusesOf id ∨ ∃ status details, c = .insertStatus id status details := by
  obtain ⟨mem, own⟩ := Database.mem_statusesOf.1 mem
  rw [(tables_act acted).2.1] at mem
  cases c with
  | insertStatus id' status details =>
    rcases List.mem_append.1 mem with old | new
    · exact .inl (Database.mem_statusesOf.2 ⟨old, own⟩)
    · rw [List.mem_singleton.1 new] at own
      exact .inr ⟨status, details, by rw [← own]⟩
  | deleteStatuses a => exact .inl (Database.mem_statusesOf.2 ⟨List.mem_of_mem_filter mem, own⟩)
  | _ => exact .inl (Database.mem_statusesOf.2 ⟨mem, own⟩)

/-- Nothing is read of an order without a status. -/
theorem readAfter_eq_none (unread : l.read id = none) (empty : g.db.statusesOf id = []) :
    readAfter l g c id = none := by
  cases c with
  | lastStatus id' =>
    by_cases same : id' = id
    · subst same
      simp [readAfter, Database.lastStatus_eq_none.2 empty]
    · simp [readAfter, Function.update_of_ne (Ne.symm same), unread]
  | currentStatuses =>
    have absent : g.db.currentStatuses.find? (fun row => row.1 = id) = none := by
      refine List.find?_eq_none.2 fun row mem own => ?_
      obtain ⟨id', status⟩ := row
      have own : id' = id := by simpa using own
      subst own
      obtain ⟨x, newest, -⟩ := Database.mem_currentStatuses.1 mem
      exact List.ne_nil_of_mem newest.1 empty
    simp [readAfter, Private.sawStatuses, absent, unread]
  | _ => exact unread

/-- The order a program has just inserted is the one the command inserts, or one it
had inserted before and gives no status now. -/
theorem createdAfter_eq_some (h : createdAfter l g c = some id) :
    (∃ request, c = .insertOrder request ∧ id = g.uuids g.drawn) ∨
      (l.created = some id ∧ ∀ status details, c ≠ .insertStatus id status details) := by
  cases c with
  | insertOrder request => exact .inl ⟨request, rfl, (Option.some.inj h).symm⟩
  | insertStatus id' status details =>
    simp only [createdAfter, strike] at h
    split at h
    · cases h
    · rename_i other
      refine .inr ⟨h, fun _ _ same => other ?_⟩
      cases same
      exact h
  | _ => exact .inr ⟨h, by simp⟩

/-- An order that has been inserted and given no status belongs to one program:
it has none, and nobody has read one. -/
structure Apart (privs : Party ι → Private) (g : World) : Prop where
  /-- The world is valid. -/
  valid : g.Valid
  /-- Its identifier has been drawn. -/
  drawn : ∀ i id, (privs i).created = some id → ∃ n, n < g.drawn ∧ g.uuids n = id
  /-- It has no status. -/
  empty : ∀ i id, (privs i).created = some id → g.db.statusesOf id = []
  /-- Nobody has read a status of it. -/
  unread : ∀ i id, (privs i).created = some id → ∀ j, (privs j).read id = none
  /-- Nobody else has inserted it. -/
  own : ∀ i id, (privs i).created = some id → ∀ j, (privs j).created = some id → j = i
  /-- Of an order that is still to come nobody has read a status. -/
  later : ∀ n, g.drawn ≤ n → ∀ j, (privs j).read (g.uuids n) = none

/-- No status is of an order that is still to come. -/
theorem World.Valid.statusesOf_undrawn (valid : g.Valid) {n : Nat} (undrawn : g.drawn ≤ n) :
    g.db.statusesOf (g.uuids n) = [] := by
  rw [List.eq_nil_iff_forall_not_mem]
  intro s mem
  obtain ⟨mem, own⟩ := Database.mem_statusesOf.1 mem
  have known := valid.db.statusOrder s mem
  rw [own] at known
  exact valid.fresh n undrawn known

variable {privs : Party ι → Private} {i : Party ι} {paired : Prop}

/-- At the start no order has just been inserted. -/
theorem Apart.start (valid : g.Valid) (chances : Party ι → Nat → Chance) :
    Apart (fun i => { chances := chances i }) g where
  valid := valid
  drawn := nofun
  empty := nofun
  unread := nofun
  own := nofun
  later _ _ _ := rfl

/-- Commands by the rules keep orders apart. -/
theorem Apart.kept [DecidableEq ι] (apart : Apart privs g) (guarded : (rules paired).guard c (privs i))
    (acted : act c (privs i) g = some (reply, l', g')) :
    Apart (Function.update privs i l') g' := by
  obtain ⟨created', read', -⟩ := records_act acted
  obtain ⟨uuids', grown, inserted⟩ := drawn_act acted
  -- whoever has inserted the order now had it before, or inserts it with this command
  have owner : ∀ j id, (Function.update privs i l' j).created = some id →
      (j = i ∧ (∃ request, c = .insertOrder request) ∧ id = g.uuids g.drawn) ∨
        ((privs j).created = some id ∧
          (j = i → ∀ status details, c ≠ .insertStatus id status details)) := by
    intro j id has
    by_cases same : j = i
    · subst same
      rw [Function.update_self, created'] at has
      rcases createdAfter_eq_some has with ⟨request, isInsert, drawn⟩ | ⟨before, other⟩
      · exact .inl ⟨rfl, ⟨request, isInsert⟩, drawn⟩
      · exact .inr ⟨before, fun _ => other⟩
    · rw [Function.update_of_ne same] at has
      exact .inr ⟨has, fun same' => absurd same' same⟩
  have unread : ∀ id, g.db.statusesOf id = [] → (∀ j, (privs j).read id = none) →
      ∀ j, (Function.update privs i l' j).read id = none := by
    intro id empty unread j
    by_cases same : j = i
    · subst same
      rw [Function.update_self, read']
      exact readAfter_eq_none (unread j) empty
    · rw [Function.update_of_ne same]
      exact unread j
  -- a status is given by the program that has inserted the order, or by one that has read another
  have stays : ∀ j id, (privs j).created = some id →
      (j = i → ∀ status details, c ≠ .insertStatus id status details) →
      g'.db.statusesOf id = [] := by
    intro j id has other
    rw [List.eq_nil_iff_forall_not_mem]
    intro s mem
    rcases statusesOf_act acted mem with old | ⟨status, details, isInsert⟩
    · exact List.ne_nil_of_mem old (apart.empty j id has)
    · subst isInsert
      rcases guarded.1 with ⟨mine, -⟩ | ⟨old, read, -⟩
      · exact other (apart.own i id mine j has) _ _ rfl
      · exact absurd (apart.unread j id has i) (by simp [read])
  have notDrawn : ∀ j, (privs j).created ≠ some (g.uuids g.drawn) := by
    intro j has
    obtain ⟨n, less, same⟩ := apart.drawn j _ has
    exact absurd (apart.valid.distinct same) (by omega)
  have now := apart.valid.statusesOf_undrawn (Nat.le_refl g.drawn)
  constructor
  · exact act_valid apart.valid acted
  · intro j id has
    rw [uuids']
    rcases owner j id has with ⟨-, ⟨request, isInsert⟩, rfl⟩ | ⟨before, -⟩
    · exact ⟨g.drawn, by rw [inserted request isInsert]; exact Nat.lt_succ_self _, rfl⟩
    · obtain ⟨n, less, same⟩ := apart.drawn j id before
      exact ⟨n, Nat.lt_of_lt_of_le less grown, same⟩
  · intro j id has
    rcases owner j id has with ⟨-, ⟨request, rfl⟩, rfl⟩ | ⟨before, other⟩
    · rw [List.eq_nil_iff_forall_not_mem]
      intro s mem
      rcases statusesOf_act acted mem with old | ⟨_, _, isInsert⟩
      · exact List.ne_nil_of_mem old now
      · cases isInsert
    · exact stays j id before other
  · intro j id has
    rcases owner j id has with ⟨-, -, rfl⟩ | ⟨before, -⟩
    · exact unread _ now (apart.later _ (Nat.le_refl _))
    · exact unread _ (apart.empty j id before) (apart.unread j id before)
  · intro j id has k has'
    rcases owner j id has with ⟨atJ, -, rfl⟩ | ⟨before, -⟩
    · rcases owner k _ has' with ⟨atK, -, -⟩ | ⟨before', -⟩
      · rw [atJ, atK]
      · exact absurd before' (notDrawn k)
    · rcases owner k id has' with ⟨-, -, rfl⟩ | ⟨before', -⟩
      · exact absurd before (notDrawn j)
      · exact apart.own j id before k before'
  · intro n undrawn
    rw [uuids']
    have undrawn := Nat.le_trans grown undrawn
    exact unread _ (apart.valid.statusesOf_undrawn undrawn) (apart.later n undrawn)

/-! ## Sequence numbers -/

/-- In the order of their identifiers the statuses of every order have strictly
increasing sequence numbers. -/
def Database.Climbing (db : Database) : Prop :=
  ∀ x ∈ db.statuses, ∀ y ∈ db.statuses, x.creditCardOrderId = y.creditCardOrderId → x.id < y.id →
    x.status.sequence < y.status.sequence

instance (db : Database) : Decidable db.Climbing :=
  inferInstanceAs (Decidable (∀ x ∈ db.statuses, ∀ y ∈ db.statuses, _ → _ → _))

/-- The newest status of an order has the greatest sequence number. -/
theorem Database.Climbing.le_newest {db : Database} (climbing : db.Climbing) (valid : db.Valid)
    {x s : CreditCardOrderStatus} (newest : db.Newest id x) (mem : s ∈ db.statusesOf id) :
    s.status.sequence ≤ x.status.sequence := by
  obtain ⟨memS, ownS⟩ := Database.mem_statusesOf.1 mem
  obtain ⟨memX, ownX⟩ := Database.mem_statusesOf.1 newest.1
  rcases Nat.lt_or_eq_of_le (newest.2 s mem) with before | same
  · exact Nat.le_of_lt (climbing s memS x memX (ownS.trans ownX.symm) before)
  · rw [valid.eq_of_id_eq memS memX same]

/-- The status a new one comes after is still the newest of its order, unless the
new one is the first. -/
def NewestStands : Command → Private → World → Prop
  | .insertStatus id _ _, l, g => l.created = some id ∨ l.read id = g.db.newestStatus id
  | _, _, _ => True

instance (c : Command) (l : Private) (g : World) : Decidable (NewestStands c l g) := by
  induction c using Command.casesOn with
  | insertStatus id =>
    exact inferInstanceAs (Decidable (l.created = some id ∨ l.read id = g.db.newestStatus id))
  | _ => exact isTrue trivial

/-- A status inserted while the one read still stands comes after all others. -/
theorem Apart.below (apart : Apart privs g) (climbing : g.db.Climbing) {status : StatusType}
    {details : String} (guarded : (rules paired).guard (.insertStatus id status details) (privs i))
    (stands : NewestStands (.insertStatus id status details) (privs i) g)
    {s : CreditCardOrderStatus} (mem : s ∈ g.db.statusesOf id) :
    s.status.sequence < status.sequence := by
  have given : (privs i).created ≠ some id := fun mine =>
    List.ne_nil_of_mem mem (apart.empty i id mine)
  have advances : (privs i).Advances id status :=
    guarded.1.resolve_left fun first => given first.1
  have newest : (privs i).read id = g.db.newestStatus id := stands.resolve_left given
  obtain ⟨old, read, less⟩ := advances
  rw [read] at newest
  obtain ⟨x, isNewest, rfl⟩ := apart.valid.db.newestStatus_eq_some.1 newest.symm
  have top := climbing.le_newest apart.valid.db isNewest mem
  omega

/-- Such a status keeps the statuses climbing; no other command adds one. -/
theorem Apart.climbing_act (apart : Apart privs g) (climbing : g.db.Climbing)
    (guarded : (rules paired).guard c (privs i)) (stands : NewestStands c (privs i) g)
    (acted : act c (privs i) g = some (reply, l', g')) : g'.db.Climbing := by
  intro x memX y memY same before
  rw [(tables_act acted).2.1] at memX memY
  cases c with
  | insertStatus id status details =>
    rcases List.mem_append.1 memX with oldX | newX
    · rcases List.mem_append.1 memY with oldY | newY
      · exact climbing x oldX y oldY same before
      · rw [List.mem_singleton.1 newY] at same ⊢
        exact apart.below climbing guarded stands (Database.mem_statusesOf.2 ⟨oldX, same⟩)
    · rcases List.mem_append.1 memY with oldY | newY
      · have bound := apart.valid.db.seed y oldY
        rw [List.mem_singleton.1 newX] at before
        simp only at before
        omega
      · rw [List.mem_singleton.1 newX, List.mem_singleton.1 newY] at before
        omega
  | deleteStatuses a =>
    exact climbing x (List.mem_of_mem_filter memX) y (List.mem_of_mem_filter memY) same before
  | _ => exact climbing x memX y memY same before

end Apart

theorem statuses_move_forward {ι : Type} [DecidableEq ι] (requests : ι → Request)
    (rounds : Party ι → Nat) (chances : Party ι → Nat → Chance) (g : World) (valid : g.Valid)
    (climbing : g.db.Climbing) (schedule : List (Party ι × Bool))
    (stands : (start requests rounds chances g).Respects machine
      (fun _ refused c l g => refused = false → NewestStands c l g) schedule) :
    ((start requests rounds chances g).run machine schedule).shared.db.Climbing := by
  refine (invariant_of_rules False (fun privs g => Apart privs g ∧ g.db.Climbing)
    (fun _ _ held => held.1.valid) (fun _ _ _ c _ _ _ _ _ => refusable_of_not_paired c) ?_
    ⟨Apart.start valid chances, climbing⟩ stands).1.2
  rintro privs g i c reply l' g' guarded stands ⟨apart, climbing⟩ acted
  exact ⟨apart.kept guarded acted, apart.climbing_act climbing guarded (stands rfl) acted⟩

/-- A client orders a card while each scheduler makes a pass; the card is a success. -/
def oneCard : Parties Unit :=
  start (fun _ => .createCreditCardOrder sampleOrder) (fun _ => 1) (fun _ _ => { random := 50 })
    emptyWorld

/-- The manufacturer makes the card before the work scheduler has heard its answer. -/
def overtaking : List (Party Unit × Bool) :=
  turns (.client ()) 3 ++ turns .work 4 ++ turns .manufacture 15 ++ turns .work 2

/-- `CARD_ORDERED` is stored after `CARD_CREATED`. -/
theorem ordered_after_created :
    emptyWorld.Valid ∧ emptyWorld.db.Climbing ∧
      let db := (oneCard.run machine overtaking).shared.db
      db.statuses.map (fun s => (s.id, s.status)) =
        [(1, .orderCreated), (2, .cardCreated), (3, .cardOrdered)] ∧ ¬ db.Climbing :=
  ⟨emptyWorld_valid, nofun, by decide +kernel⟩

/-- With the answer heard first, the card's statuses climb. -/
theorem statuses_move_forward_in_turn :
    emptyWorld.db.Climbing ∧
      (oneCard.run machine (turns (.client ()) 3 ++ turns .work 6 ++ turns .manufacture 15 ++
        turns .courier 1)).shared.db.Climbing :=
  ⟨nofun, statuses_move_forward _ _ _ _ emptyWorld_valid nofun _ (by decide +kernel)⟩

end EasyTrade.Cards
