import EasyTrade.Cards.Delivery
import EasyTrade.Logic.Progress

/-!
# Passes alone

What programs of the parties bring about when they run alone, nothing is refused and every
command finds what it finds in given `chances`: a call brings about what its handler does, a
report of another order leaves an order alone, and a walk over a list that nobody changes
visits its objects one after the other.
-/

namespace EasyTrade.Cards

open EasyTrade.Logic EasyTrade.Logic.Program EasyTrade.Store

/-! ## The judgement -/

section Judgement

variable {α β : Type} {chances : Nat → Chance} {g g' : World} {post post' : α → World → Prop}

/-- A run alone returns, in `post`. -/
def Goes (chances : Nat → Chance) (p : Task α) (post : α → World → Prop) (g : World) : Prop :=
  ∀ l : Private, l.chances = chances → Leads machine p
    (Ending (fun a l' g' => l'.chances = chances ∧ post a g') fun _ _ _ => False) l g

theorem goes_pure {a : α} (holds : post a g) : Goes chances (pure a : Task α) post g :=
  fun _ same => ⟨same, holds⟩

/-- A weaker postcondition asks no more. -/
theorem Goes.mono {p : Task α} (h : Goes chances p post g)
    (weaker : ∀ a g', post a g' → post' a g') : Goes chances p post' g := fun l same =>
  (h l same).mono fun r l' g' out => by
    cases r with
    | ok a => exact ⟨out.1, weaker a g' out.2⟩
    | error e => exact out

theorem goes_bind {p : Task α} {f : α → Task β} {post : β → World → Prop}
    (h : Goes chances p (fun a g' => Goes chances (f a) post g') g) :
    Goes chances (p >>= f) post g := fun l same =>
  leads_bind.mpr ((h l same).mono fun r l' g' out => by
    cases r with
    | ok a => exact out.2 l' out.1
    | error e => exact out)

/-- A handler is not needed. -/
theorem goes_tryCatch {p : Task α} {handler : Failure → Task α} (h : Goes chances p post g) :
    Goes chances (tryCatch p handler) post g := fun l same =>
  leads_tryCatch.mpr ((h l same).mono fun r l' g' out => by
    cases r with
    | ok a => exact out
    | error e => exact out.elim)

/-- A command that can be carried out. -/
theorem goes_send {c : Command} {post : Reply c → World → Prop}
    (possible : ∀ l : Private, l.chances = chances → (act c l g).isSome)
    (acts : ∀ l reply l' g', l.chances = chances → act c l g = some (reply, l', g') →
      post reply g') : Goes chances (send c) post g := by
  intro l same
  obtain ⟨⟨reply, l', g'⟩, acted⟩ := Option.isSome_iff_exists.mp (possible l same)
  exact leads_perform (m := machine) acted
    ⟨(chances_act acted).trans same, acts l reply l' g' same acted⟩

/-- A loop keeps an invariant that each pass of its body keeps. -/
theorem goes_forEach {body : β → Task Unit} (inv : List β → World → Prop)
    (pass : ∀ b rest g, inv (b :: rest) g → Goes chances (body b) (fun _ => inv rest) g) :
    ∀ (bs : List β) (g : World), inv bs g → Goes chances (forEach bs body) (fun _ => inv []) g
  | [], _, held => goes_pure held
  | b :: rest, g, held =>
    goes_bind ((pass b rest g held).mono fun _ g' held => goes_forEach inv pass rest g' held)

/-! ## Programs that may be refused a statement -/

/-- A run alone keeps an invariant, and no error but a refused statement ends it. -/
def Stays (chances : Nat → Chance) (inv : World → Prop) (p : Task α) : Prop :=
  ∀ l g, l.chances = chances → inv g → Leads machine p
    (Ending (fun _ l' g' => l'.chances = chances ∧ inv g')
      fun e l' g' => e = .refused ∧ l'.chances = chances ∧ inv g') l g

variable {inv : World → Prop}

theorem stays_pure {a : α} : Stays chances inv (pure a : Task α) :=
  fun _ _ same held => ⟨same, held⟩

theorem stays_bind {p : Task α} {f : α → Task β} (first : Stays chances inv p)
    (second : ∀ a, Stays chances inv (f a)) : Stays chances inv (p >>= f) := fun l g same held =>
  leads_bind.mpr ((first l g same held).mono fun r l' g' out => by
    cases r with
    | ok a => exact second a l' g' out.1 out.2
    | error e => exact out)

/-- A command that may be impossible. -/
theorem stays_send {c : Command} (kept : ∀ l g reply l' g', inv g →
    act c l g = some (reply, l', g') → inv g') : Stays chances inv (send c) := by
  intro l g same held
  cases acted : act c l g with
  | none => exact leads_perform_of_none (m := machine) acted ⟨rfl, same, held⟩
  | some r =>
    exact leads_perform (m := machine) acted
      ⟨(chances_act acted).trans same, kept l g r.1 r.2.1 r.2.2 held acted⟩

/-- A handler of the order service answers a refused statement. -/
theorem Stays.goes {body : Task StandardResponse} (stays : Stays chances inv body) (held : inv g) :
    Goes chances (OrderController.handleSQLException body) (fun _ => inv) g := fun l same =>
  leads_tryCatch.mpr ((stays l g same held).mono fun r l' g' out => by
    cases r with
    | ok a => exact out
    | error e =>
      obtain ⟨rfl, same, held⟩ := out
      exact ⟨same, held⟩)

/-! ## Calls -/

/-- A call brings about what its handler does. -/
theorem goes_exchange {handler : Task StandardResponse} {post : StandardResponse → World → Prop}
    (h : Goes chances handler post g) : Goes chances (exchange handler) post g := by
  refine goes_bind (goes_tryCatch (goes_bind (goes_send (fun _ _ => rfl)
    fun l reply l' g' _ acted => ?_)))
  cases acted
  refine goes_pure ?_
  rw [if_pos rfl]
  refine goes_bind (goes_tryCatch (goes_bind (h.mono fun response g' out => ?_)))
  refine goes_pure (goes_bind (goes_send (fun _ _ => rfl) fun l reply l' g'' _ acted => ?_))
  cases acted
  exact goes_pure out

/-- A report brings about what the order service does. -/
theorem goes_updateStatus {status : StatusType} {id : OrderId} {details : Option Details}
    {post : World → Prop} (h : Goes chances (OrderController.handleNewStatus id
      { orderId := id, type := status.name, details }) (fun _ => post) g) :
    Goes chances (updateStatus status id details) (fun _ => post) g :=
  goes_tryCatch (goes_bind ((goes_exchange h).mono fun _ _ out => goes_pure out))

/-- The address is the one of the order. -/
theorem goes_getShippingAddress {id : OrderId} {post : Option ShippingAddress → World → Prop}
    (holds : post (g.db.shippingAddress id) g) : Goes chances (getShippingAddress id) post g := by
  have handler : Goes chances (OrderController.getShippingAddress id) (fun response g' => g' = g ∧
      (response.statusCode = 200 → response.results = (g.db.shippingAddress id).map .address) ∧
      (response.statusCode ≠ 200 → g.db.shippingAddress id = none)) g := by
    refine goes_tryCatch (goes_bind (goes_send (fun _ _ => rfl) fun l reply l' g' _ acted => ?_))
    cases acted
    cases address : g.db.shippingAddress id with
    | none =>
      refine goes_pure ⟨rfl, fun found => ?_, fun _ => rfl⟩
      cases found
    | some address =>
      exact goes_pure ⟨rfl, fun _ => rfl, fun other => absurd rfl other⟩
  refine goes_tryCatch (goes_bind ((goes_exchange handler).mono fun response g' out => ?_))
  obtain ⟨rfl, found, missing⟩ := out
  by_cases ok : response.statusCode = 200
  · rw [if_pos ok, found ok]
    cases address : g'.db.shippingAddress id with
    | none =>
      rw [address] at holds
      exact goes_pure holds
    | some address' =>
      rw [address] at holds
      exact goes_pure holds
  · rw [missing ok] at holds
    rw [if_neg ok]
    exact goes_pure holds

end Judgement

/-! ## Lists -/

section Lists

variable {P : Type} {s : SyncList P} {own : P → Bool} {gone gone' : List Nat} {ref r : Nat}
  {old new p : P}

/-- The listed objects that count, with their references, without those that are to go. -/
def waiting (s : SyncList P) (own : P → Bool) (gone : List Nat) : List (Nat × P) :=
  s.listed.filterMap fun ref =>
    if ref ∈ gone then none else ((s.objects[ref]?).filter own).map fun p => (ref, p)

@[simp] theorem mem_waiting :
    (r, p) ∈ waiting s own gone ↔
      r ∈ s.listed ∧ r ∉ gone ∧ s.objects[r]? = some p ∧ own p = true := by
  simp only [waiting, List.mem_filterMap]
  constructor
  · rintro ⟨ref, listed, found⟩
    split at found
    · cases found
    · obtain ⟨q, isObject, same⟩ := Option.map_eq_some_iff.mp found
      cases same
      exact ⟨listed, ‹_›, Option.filter_eq_some_iff.mp isObject⟩
  · rintro ⟨listed, stays, isObject⟩
    refine ⟨r, listed, ?_⟩
    rw [if_neg stays, Option.filter_eq_some_iff.mpr isObject]
    rfl

/-- Only the objects that count matter. -/
theorem waiting_congr {s' : SyncList P} (listed : s'.listed = s.listed)
    (same : ∀ r ∈ s.listed, (if r ∈ gone' then none else (s'.objects[r]?).filter own) =
      if r ∈ gone then none else (s.objects[r]?).filter own) :
    waiting s' own gone' = waiting s own gone := by
  unfold waiting
  rw [listed]
  refine List.filterMap_congr fun r mem => ?_
  have same := congrArg (Option.map fun p => (r, p)) (same r mem)
  simpa only [apply_ite (Option.map _), Option.map_none] using same

/-- An object that does not count is set to another one. -/
theorem waiting_set_of_not (found : s.objects[ref]? = some old) (before : own old = false)
    (after : own new = false) : waiting (s.set ref new) own gone = waiting s own gone := by
  refine waiting_congr rfl fun r _ => ?_
  by_cases here : ref = r
  · subst here
    rw [SyncList.objects_set, List.getElem?_set_self (List.getElem?_eq_some_iff.mp found).1, found]
    simp [Option.filter, before, after]
  · rw [SyncList.objects_set, List.getElem?_set_ne here]

/-- The only object that counts is set to another one. -/
theorem waiting_set_of_once (once : waiting s own gone = [(ref, old)]) (after : own new = true) :
    waiting (s.set ref new) own gone = [(ref, new)] := by
  have mem : (ref, old) ∈ waiting s own gone := once ▸ List.mem_singleton_self _
  obtain ⟨-, stays, found, before⟩ := mem_waiting.mp mem
  have mapped : waiting (s.set ref new) own gone =
      (waiting s own gone).map fun x => if x.1 = ref then (ref, new) else x := by
    unfold waiting
    rw [List.map_filterMap, SyncList.listed_set]
    refine List.filterMap_congr fun r _ => ?_
    by_cases here : ref = r
    · subst here
      rw [SyncList.objects_set, List.getElem?_set_self (List.getElem?_eq_some_iff.mp found).1,
        found]
      simp [Option.filter, stays, before, after]
    · rw [SyncList.objects_set, List.getElem?_set_ne here]
      split
      · rfl
      · rw [Option.map_map]
        refine congrFun (congrArg Option.map (funext fun q => ?_)) _
        exact (if_neg fun same : r = ref => here same.symm).symm
  rw [mapped, once]
  simp

/-- The only object that counts is to go. -/
theorem waiting_gone_of_once (once : waiting s own gone = [(ref, p)]) :
    waiting s own (gone ++ [ref]) = [] := by
  refine List.eq_nil_iff_forall_not_mem.mpr fun x mem => ?_
  obtain ⟨listed, stays, found, counts⟩ := mem_waiting.mp (show (x.1, x.2) ∈ _ from mem)
  rw [List.mem_append, not_or] at stays
  have here : (x.1, x.2) ∈ waiting s own gone := mem_waiting.mpr ⟨listed, stays.1, found, counts⟩
  rw [once] at here
  exact stays.2 (List.mem_singleton.mpr (Prod.mk.inj (List.mem_singleton.mp here)).1)

/-- An object that does not count is to go. -/
theorem waiting_gone_of_not (found : s.objects[ref]? = some p) (other : own p = false) :
    waiting s own (gone ++ [ref]) = waiting s own gone := by
  refine waiting_congr rfl fun r _ => ?_
  by_cases here : r = ref
  · rw [here, found]
    simp [Option.filter, other]
  · simp [here]

/-- A new object that counts. -/
theorem waiting_add (valid : s.Valid) (counts : own new = true) :
    waiting (s.add new) own [] = waiting s own [] ++ [(s.objects.length, new)] := by
  unfold waiting SyncList.add
  rw [List.filterMap_append]
  refine congrArg₂ _ (List.filterMap_congr fun r listed => ?_) ?_
  · rw [List.getElem?_append_left (valid.added r listed)]
  · simp [Option.filter, counts]

/-- A new object that does not count. -/
theorem waiting_add_of_not (valid : s.Valid) (other : own new = false) :
    waiting (s.add new) own [] = waiting s own [] := by
  unfold waiting SyncList.add
  rw [List.filterMap_append]
  refine (congrArg₂ _ (List.filterMap_congr fun r listed => ?_) ?_).trans (List.append_nil _)
  · rw [List.getElem?_append_left (valid.added r listed)]
  · simp [Option.filter, other]

/-- What is to go is removed. -/
theorem waiting_remove (valid : s.Valid) :
    waiting (s.remove ref) own gone = waiting s own (ref :: gone) := by
  unfold SyncList.remove
  split
  · unfold waiting
    rw [valid.nodup.erase_eq_filter, List.filterMap_filter]
    refine List.filterMap_congr fun r _ => ?_
    by_cases here : r = ref
    · simp [here]
    · simp [here]
  · rename_i absent
    refine waiting_congr rfl fun r listed => ?_
    have other : r ≠ ref := fun same => absent (same ▸ listed)
    simp [other]

end Lists

/-! ## Walks alone -/

section Walks

variable {P : Type} {list : World → SyncList P} {own : P → Bool} {refs : List Nat} {count : Nat}
  {before after : List Nat → World → Prop} {cursor : Nat} {gone removed : List Nat} {g g' : World}
  {ref : Nat} {p : P}

/-- What every visit of an object leaves: its walk can go on, and nothing but the object is to
go. -/
structure Visited (list : World → SyncList P) (ref : Nat) (removed : List Nat) (g g' : World) :
    Prop where
  /-- The world stays valid. -/
  valid : g'.Valid
  /-- The list is as long as before. -/
  listed : (list g').listed = (list g).listed
  /-- Nothing has come or gone. -/
  modCount : (list g').modCount = (list g).modCount
  /-- What is to go. -/
  removed : ∀ r ∈ removed, r = ref

/-- A visit of an object that does not count. -/
structure Passes (list : World → SyncList P) (own : P → Bool)
    (before after : List Nat → World → Prop) (ref : Nat) (gone : List Nat) (g : World)
    (removed : List Nat) (g' : World) : Prop where
  /-- The walk can go on. -/
  visited : Visited list ref removed g g'
  /-- What counts is the same. -/
  same : waiting (list g') own (gone ++ removed) = waiting (list g) own gone
  /-- What holds before the visit of the object that counts still holds. -/
  before : before gone g → before (gone ++ removed) g'
  /-- What holds after it still holds. -/
  after : after gone g → after (gone ++ removed) g'

/-- A visit of the only object that counts. -/
structure Meets (list : World → SyncList P) (own : P → Bool) (after : List Nat → World → Prop)
    (ref : Nat) (gone : List Nat) (g : World) (removed : List Nat) (g' : World) : Prop where
  /-- The walk can go on. -/
  visited : Visited list ref removed g g'
  /-- Nothing else counts. -/
  only : ∀ x ∈ waiting (list g') own (gone ++ removed), x.1 = ref
  /-- What holds after the visit. -/
  after : after (gone ++ removed) g'

/-- Where a walk is. The only object that counts is ahead of it and waits to be visited, or is
not. -/
structure OnWalk (list : World → SyncList P) (own : P → Bool) (refs : List Nat) (count : Nat)
    (before after : List Nat → World → Prop) (cursor : Nat) (gone : List Nat) (g : World) :
    Prop where
  /-- The world is valid. -/
  valid : g.Valid
  /-- Nobody has changed the list. -/
  listed : (list g).listed = refs
  /-- Nobody has changed the list. -/
  modCount : (list g).modCount = count
  /-- What is to go has been visited. -/
  behind : ∀ r ∈ gone, r ∈ refs.take cursor
  /-- What holds before and after the visit. -/
  stage : (∃ ref p, waiting (list g) own gone = [(ref, p)] ∧ ref ∈ refs.drop cursor ∧
      before gone g) ∨ (∀ x ∈ waiting (list g) own gone, x.1 ∉ refs.drop cursor) ∧ after gone g

/-- The next step of a walk finds an object, up to the end of the list. -/
theorem OnWalk.found (walking : OnWalk list own refs count before after cursor gone g)
    (valid : (list g).Valid) (bound : cursor < refs.length) : ∃ p,
      (list g).objects[refs[cursor]]? = some p ∧
        (list g).next cursor count = some (some (refs[cursor], p)) := by
  have listed : refs[cursor] ∈ (list g).listed := walking.listed ▸ List.getElem_mem bound
  refine ⟨_, List.getElem?_eq_getElem (valid.added _ listed), ?_⟩
  rw [SyncList.next, walking.listed, if_neg (Nat.ne_of_lt bound), walking.modCount,
    if_neg (not_not.mpr rfl), List.getElem?_eq_getElem bound]
  simp [valid.added _ listed]

/-- A walk goes on. -/
theorem OnWalk.advance (walking : OnWalk list own refs count before after cursor gone g)
    (bound : cursor < refs.length) (visited : Visited list refs[cursor] removed g g')
    (stage : (∃ ref p, waiting (list g') own (gone ++ removed) = [(ref, p)] ∧
        ref ∈ refs.drop (cursor + 1) ∧ before (gone ++ removed) g') ∨
      (∀ x ∈ waiting (list g') own (gone ++ removed), x.1 ∉ refs.drop (cursor + 1)) ∧
        after (gone ++ removed) g') :
    OnWalk list own refs count before after (cursor + 1) (gone ++ removed) g' := by
  refine ⟨visited.valid, visited.listed.trans walking.listed,
    visited.modCount.trans walking.modCount, fun r mem => ?_, stage⟩
  rw [List.take_add_one, List.getElem?_eq_getElem bound]
  rcases List.mem_append.mp mem with old | new
  · exact List.mem_append_left _ (walking.behind r old)
  · rw [visited.removed r new]
    exact List.mem_append_right _ (List.mem_singleton_self _)

/-- It goes on past an object that does not count. -/
theorem OnWalk.passes (walking : OnWalk list own refs count before after cursor gone g)
    (bound : cursor < refs.length) (isObject : (list g).objects[refs[cursor]]? = some p)
    (other : own p = false) (out : Passes list own before after refs[cursor] gone g removed g') :
    OnWalk list own refs count before after (cursor + 1) (gone ++ removed) g' := by
  have drop : refs.drop cursor = refs[cursor] :: refs.drop (cursor + 1) :=
    List.drop_eq_getElem_cons bound
  refine walking.advance bound out.visited ?_
  rw [out.same]
  rcases walking.stage with ⟨ref, q, once, ahead, holds⟩ | ⟨behind, holds⟩
  · refine .inl ⟨ref, q, once, ?_, out.before holds⟩
    rw [drop] at ahead
    refine (List.mem_cons.mp ahead).resolve_left fun here => ?_
    obtain ⟨-, -, found, counts⟩ := mem_waiting.mp (once ▸ List.mem_singleton_self (ref, q))
    rw [here, isObject] at found
    cases found
    rw [other] at counts
    cases counts
  · exact .inr ⟨fun x mem ahead => behind x mem (drop ▸ List.mem_cons_of_mem _ ahead),
      out.after holds⟩

/-- It goes on past the only object that counts. -/
theorem OnWalk.meets (walking : OnWalk list own refs count before after cursor gone g)
    (valid : (list g).Valid) (bound : cursor < refs.length)
    (out : Meets list own after refs[cursor] gone g removed g') :
    OnWalk list own refs count before after (cursor + 1) (gone ++ removed) g' := by
  have distinct : (refs.drop cursor).Nodup :=
    (walking.listed ▸ valid.nodup).sublist (List.drop_sublist _ _)
  rw [List.drop_eq_getElem_cons bound, List.nodup_cons] at distinct
  refine walking.advance bound out.visited (.inr ⟨fun x mem => ?_, out.after⟩)
  rw [out.only x mem]
  exact distinct.1

/-- An object that counts is the one that waits to be visited. -/
theorem OnWalk.once (walking : OnWalk list own refs count before after cursor gone g)
    (valid : (list g).Valid) (bound : cursor < refs.length)
    (isObject : (list g).objects[refs[cursor]]? = some p) (counts : own p = true) :
    waiting (list g) own gone = [(refs[cursor], p)] ∧ before gone g := by
  have drop : refs.drop cursor = refs[cursor] :: refs.drop (cursor + 1) :=
    List.drop_eq_getElem_cons bound
  have stays : refs[cursor] ∉ gone := fun isGone => by
    have nodup : refs.Nodup := walking.listed ▸ valid.nodup
    rw [← List.take_append_drop cursor refs, List.nodup_append] at nodup
    exact nodup.2.2 _ (walking.behind _ isGone) _ (drop ▸ List.mem_cons_self) rfl
  have waits : (refs[cursor], p) ∈ waiting (list g) own gone :=
    mem_waiting.mpr ⟨walking.listed ▸ List.getElem_mem bound, stays, isObject, counts⟩
  rcases walking.stage with ⟨ref, q, once, -, holds⟩ | ⟨behind, -⟩
  · rw [once, List.mem_singleton] at waits
    exact ⟨waits ▸ once, holds⟩
  · exact absurd (drop ▸ List.mem_cons_self) (behind _ waits)

section Rule

variable {chances : Nat → Chance} {next : Nat → Task (Option (Nat × P))}
  {body : Nat → P → Task (List Nat)} {remove : Nat → Task Unit}

/-- A walk that nobody disturbs comes to its end, and visits the only object that counts where it
is listed. -/
theorem goes_walk (validList : ∀ g : World, g.Valid → (list g).Valid)
    (asks : ∀ cursor g found (post : Option (Nat × P) → World → Prop),
      (list g).next cursor count = some found → post found g → Goes chances (next cursor) post g)
    (foreign : ∀ ref p gone g, g.Valid → (list g).objects[ref]? = some p → own p = false →
      Goes chances (body ref p) (Passes list own before after ref gone g) g)
    (counts : ∀ ref p gone g, g.Valid → waiting (list g) own gone = [(ref, p)] → before gone g →
      Goes chances (body ref p) (Meets list own after ref gone g) g)
    (steps cursor : Nat) (gone : List Nat) (g : World) (rest : cursor + steps = refs.length)
    (walking : OnWalk list own refs count before after cursor gone g) :
    Goes chances (walk next body steps cursor gone)
      (OnWalk list own refs count before after refs.length) g := by
  induction steps generalizing cursor gone g with
  | zero =>
    obtain rfl : cursor = refs.length := rest
    refine goes_bind (asks _ g none _ ?_ (goes_pure walking))
    rw [SyncList.next, walking.listed, if_pos rfl]
  | succ steps ih =>
    have bound : cursor < refs.length := by omega
    have valid := validList g walking.valid
    obtain ⟨p, isObject, isNext⟩ := walking.found valid bound
    have visit : Goes chances (body refs[cursor] p) (fun removed g' =>
        OnWalk list own refs count before after (cursor + 1) (gone ++ removed) g') g := by
      cases isOwn : own p with
      | false =>
        exact (foreign _ p gone g walking.valid isObject isOwn).mono fun removed g' =>
          walking.passes bound isObject isOwn
      | true =>
        obtain ⟨once, holds⟩ := walking.once valid bound isObject isOwn
        exact (counts _ p gone g walking.valid once holds).mono fun removed g' =>
          walking.meets valid bound
    refine goes_bind (asks cursor g _ _ isNext (goes_bind (visit.mono fun _ g' walking => ?_)))
    exact ih _ _ g' (by omega) walking

/-- A pass of a scheduler visits the only object that counts, and removes what is to go. -/
theorem goes_rounds (list : World → SyncList P) (own : P → Bool)
    (before after : List Nat → World → Prop) (validList : ∀ g : World, g.Valid → (list g).Valid)
    (asks : ∀ cursor g' found (post : Option (Nat × P) → World → Prop),
      (list g').next cursor (list g).modCount = some found → post found g' →
        Goes chances (next cursor) post g')
    (removes : ∀ ref gone g, g.Valid → after (ref :: gone) g →
      Goes chances (remove ref) (fun _ g' => g'.Valid ∧ after gone g') g)
    (foreign : ∀ ref p gone g, g.Valid → (list g).objects[ref]? = some p → own p = false →
      Goes chances (body ref p) (Passes list own before after ref gone g) g)
    (counts : ∀ ref p gone g, g.Valid → waiting (list g) own gone = [(ref, p)] → before gone g →
      Goes chances (body ref p) (Meets list own after ref gone g) g)
    (valid : g.Valid) (starts : (∃ ref p, waiting (list g) own [] = [(ref, p)] ∧ before [] g) ∨
      waiting (list g) own [] = [] ∧ after [] g) :
    Goes chances (walk next body (list g).listed.length 0 [] >>= fun gone => forEach gone remove)
      (fun _ g' => g'.Valid ∧ after [] g') g := by
  have first : OnWalk list own (list g).listed (list g).modCount before after 0 [] g := by
    refine ⟨valid, rfl, rfl, nofun, ?_⟩
    rcases starts with ⟨ref, p, once, holds⟩ | ⟨none, holds⟩
    · exact .inl ⟨ref, p, once, (mem_waiting.mp (once ▸ List.mem_singleton_self (ref, p))).1, holds⟩
    · refine .inr ⟨fun x mem => ?_, holds⟩
      rw [none] at mem
      cases mem
  have walks := goes_walk validList asks foreign counts _ 0 [] g (Nat.zero_add _) first
  refine goes_bind (walks.mono fun gone g' ended => ?_)
  refine goes_forEach (fun refs g => g.Valid ∧ after refs g)
    (fun ref rest g held => removes ref rest g held.1 held.2) gone g' ⟨ended.valid, ?_⟩
  rcases ended.stage with ⟨ref, p, -, ahead, -⟩ | ⟨-, holds⟩
  · rw [List.drop_length] at ahead
    cases ahead
  · exact holds

end Rule

end Walks

/-! ## What reports bring about -/

/-- The rows of an order. -/
structure Rows where
  /-- In `CreditCardOrders`. -/
  orders : List CreditCardOrder
  /-- In `CreditCardOrderStatus`. -/
  statuses : List CreditCardOrderStatus
  /-- In `CreditCards`. -/
  cards : List CreditCard

/-- The rows of an order in the tables. -/
def World.rows (o : OrderId) (g : World) : Rows where
  orders := g.db.orders.filter fun row => row.id = o
  statuses := g.db.statusesOf o
  cards := g.db.cardsOf o

/-- The lists have not changed, and the rows of an order are the given ones. -/
structure Wrote (o : OrderId) (rows : Rows) (g g' : World) : Prop where
  /-- The world is valid. -/
  valid : g'.Valid
  /-- The manufacturer's list is the same. -/
  manufacture : g'.manufacture = g.manufacture
  /-- The courier's list is the same. -/
  courier : g'.courier = g.courier
  /-- The rows. -/
  rows : g'.rows o = rows

section Reports

variable {o id : OrderId} {g g' g'' : World} {l l' : Private} {c : Command} {reply : Reply c}
  {chances : Nat → Chance} {status : StatusType} {details : Option Details} {rows : Rows}

theorem Wrote.trans {rows' : Rows} (first : Wrote o rows g g') (second : Wrote o rows' g' g'') :
    Wrote o rows' g g'' :=
  ⟨second.valid, second.manufacture.trans first.manufacture, second.courier.trans first.courier,
    second.rows⟩

/-- A status update of another order. -/
theorem wrote_update (valid : g.Valid) (other : id ≠ o) (updates : c.UpdatesOf id)
    (acted : act c l g = some (reply, l', g')) : Wrote o (g.rows o) g g' := by
  obtain ⟨orders, statuses, cards⟩ := tables_act acted
  have off : c.OffList := by cases c <;> trivial
  obtain ⟨manufacture, courier⟩ := lists_act off acted
  refine ⟨act_valid valid acted, manufacture, courier, ?_⟩
  unfold World.rows Database.statusesOf Database.cardsOf
  rw [orders, statuses, cards]
  cases c with
  | lastStatus id' => rfl
  | updateOrder id' shippingId =>
    obtain rfl := updates
    rw [ordersAfter, filter_updateOrder_of_ne other]
    rfl
  | insertStatus id' status details =>
    obtain rfl := updates
    simp [ordersAfter, statusesAfter, cardsAfter, other]
  | insertCard id' card =>
    obtain rfl := updates
    simp [ordersAfter, statusesAfter, cardsAfter, CreditCardRequest.row, other]
  | _ => exact updates.elim

/-- The details that a report of a status carries. -/
def Details.Fit : StatusType → Option Details → Prop
  | .cardError, details => ∃ d e, details = some d ∧ d.asError = some e
  | .cardShipped, details => ∃ d shippingId, details = some d ∧ d.asShippingId = some shippingId
  | .cardCreated, details => ∃ d card, details = some d ∧ d.asCreditCard = some card
  | _, _ => True

theorem convert_of_fit {α : Type} {d : Details} {as : Details → Option α} {a : α}
    (fits : as d = some a) : OrderController.convert (some d) as = pure a := by
  simp only [OrderController.convert, fits]

/-- A report of another order leaves an order alone. -/
theorem goes_foreignReport (valid : g.Valid) (other : id ≠ o) (fit : Details.Fit status details) :
    Goes chances (updateStatus status id details) (fun _ => Wrote o (g.rows o) g) g := by
  refine goes_updateStatus ?_
  have first : Wrote o (g.rows o) g g := ⟨valid, rfl, rfl, rfl⟩
  have updates : ∀ c : Command, c.UpdatesOf id → Stays chances (Wrote o (g.rows o) g) (send c) :=
    fun c updates => stays_send fun l g₁ reply l' g' wrote acted =>
      wrote.trans (wrote.rows ▸ wrote_update wrote.valid other updates acted)
  have inserts : ∀ (status : StatusType) (text : String),
      Stays chances (Wrote o (g.rows o) g) (send (.insertStatus id status text)) :=
    fun _ _ => updates _ rfl
  have applies : Stays chances (Wrote o (g.rows o) g)
      (OrderController.applyNewStatus { orderId := id, type := status.name, details } status) := by
    cases status with
    | cardError =>
      obtain ⟨d, e, rfl, fits⟩ := fit
      change Stays _ _ (OrderController.convert (some d) _ >>= _)
      rw [convert_of_fit fits]
      exact inserts _ _
    | cardShipped =>
      obtain ⟨d, shippingId, rfl, fits⟩ := fit
      change Stays _ _ (OrderController.convert (some d) _ >>= _)
      rw [convert_of_fit fits]
      change Stays _ _ (send (.updateOrder id shippingId) >>= _)
      exact stays_bind (updates _ rfl) fun _ => inserts _ _
    | cardCreated =>
      obtain ⟨d, card, rfl, fits⟩ := fit
      change Stays _ _ (OrderController.convert (some d) _ >>= _)
      rw [convert_of_fit fits]
      change Stays _ _ (send (.insertCard id card) >>= _)
      exact stays_bind (updates _ rfl) fun _ => inserts _ _
    | cardOrdered => exact inserts _ _
    | cardDelivered => exact inserts _ _
    | orderCreated => exact stays_pure
    | sequenceError => exact stays_pure
  refine Stays.goes ?_ first
  rw [if_neg (not_not.mpr rfl)]
  refine stays_bind (updates _ trivial) fun old => ?_
  cases old with
  | none => exact stays_pure
  | some old =>
    change Stays chances _ (OrderController.actOnNewStatus _ old.status)
    unfold OrderController.actOnNewStatus
    rw [StatusType.valueOf_name]
    change Stays chances _ (if _ then _ else _ : Task StandardResponse)
    split
    · exact stays_pure
    · split
      · exact stays_bind applies fun _ => stays_pure
      · exact stays_pure

/-- A report of the order itself: it comes too late, or is acted upon. -/
theorem goes_ownReport {post : World → Prop} (known : g.db.statusesOf o ≠ [])
    (supported : OrderController.isSupported status = true)
    (late : ∀ s ∈ g.db.statusesOf o, status.sequence ≤ s.status.sequence → post g)
    (applied : Goes chances (OrderController.applyNewStatus
      { orderId := o, type := status.name, details } status) (fun _ => post) g) :
    Goes chances (updateStatus status o details) (fun _ => post) g := by
  refine goes_updateStatus (goes_tryCatch ?_)
  rw [if_neg (not_not.mpr rfl)]
  refine goes_bind (goes_send (fun _ _ => rfl) fun l reply l' g' _ acted => ?_)
  cases acted
  cases last : g.db.lastStatus l.chance.rank o with
  | none => exact absurd (Database.lastStatus_eq_none.mp last) known
  | some old =>
    change Goes chances (OrderController.actOnNewStatus _ old.status) _ g
    unfold OrderController.actOnNewStatus
    rw [StatusType.valueOf_name]
    change Goes chances (if _ then _ else _ : Task StandardResponse) _ g
    rw [if_pos supported]
    split
    · exact goes_pure (late old (Database.mem_of_lastStatus last) ‹_›)
    · exact goes_bind (applied.mono fun _ _ holds => goes_pure holds)

/-- A status has been added, newer than those before. -/
def Added (status : StatusType) (before after : List CreditCardOrderStatus) : Prop :=
  ∃ row : CreditCardOrderStatus, row.status = status ∧ (∀ s ∈ before, s.id < row.id) ∧
    after = before ++ [row]

/-- An order with a status is an order. -/
theorem mem_orderIds_of_known (valid : g.Valid) (known : g.db.statusesOf o ≠ []) :
    o ∈ g.db.orderIds := by
  obtain ⟨s, mem⟩ := List.exists_mem_of_ne_nil _ known
  obtain ⟨isStatus, rfl⟩ := Database.mem_statusesOf.mp mem
  exact valid.db.statusOrder s isStatus

/-- A status of an order that has one can be inserted. -/
theorem goes_insert {text : String} {post : World → Prop} (valid : g.Valid)
    (known : g.db.statusesOf o ≠ []) (proper : status ≠ .sequenceError)
    (holds : ∀ l l' g' u, act (.insertStatus o status text) l g = some (u, l', g') → post g') :
    Goes chances (send (.insertStatus o status text)) (fun _ => post) g := by
  refine goes_send (fun l _ => ?_) fun l reply l' g' _ acted => holds l l' g' reply acted
  simp [act, World.withDb, Database.insertStatus, mem_orderIds_of_known valid known, proper]

/-- What a status inserted does to the rows of its order. -/
theorem wrote_insertStatus {text : String} {u : Unit} (valid : g.Valid)
    (acted : act (.insertStatus o status text) l g = some (u, l', g')) :
    ∃ statuses, Added status (g.db.statusesOf o) statuses ∧
      Wrote o { g.rows o with statuses } g g' := by
  obtain ⟨orders, -, cards⟩ := tables_act acted
  obtain ⟨manufacture, courier⟩ := lists_act (c := .insertStatus o status text) trivial acted
  refine ⟨_, ⟨⟨g.db.statusSeed, o, Database.toSecond l.chance.clock, status, text⟩, rfl,
    fun s mem => ?_, rfl⟩, act_valid valid acted, manufacture, courier, ?_⟩
  · exact valid.db.seed s (Database.mem_statusesOf.mp mem).1
  · unfold World.rows Database.cardsOf
    rw [orders, cards, statusesOf_insertStatus acted]
    rfl

/-- A status of the order is inserted. -/
theorem goes_insertStatus (status : StatusType) (text : String) (valid : g.Valid)
    (known : g.db.statusesOf o ≠ []) (proper : status ≠ .sequenceError) :
    Goes chances (send (.insertStatus o status text)) (fun _ g' => ∃ statuses,
      Added status (g.db.statusesOf o) statuses ∧ Wrote o { g.rows o with statuses } g g') g :=
  goes_insert valid known proper fun _ _ _ _ acted => wrote_insertStatus valid acted

/-- The card of the order is stored, and reported. -/
theorem goes_createCard {card : CreditCardRequest} (valid : g.Valid)
    (known : g.db.statusesOf o ≠ []) (level : card.cardLevel ∈ cardLevels)
    (early : ∀ s ∈ g.db.statusesOf o, s.status.sequence < StatusType.cardCreated.sequence) :
    Goes chances (updateStatus .cardCreated o (some { asCreditCard := some card }))
      (fun _ g' => ∃ statuses row, Added .cardCreated (g.db.statusesOf o) statuses ∧
        Wrote o ⟨(g.rows o).orders, statuses, g.db.cardsOf o ++ [row]⟩ g g') g := by
  refine goes_ownReport known rfl (fun s mem late => absurd (early s mem) (by omega)) ?_
  change Goes chances (send (.insertCard o card) >>= _) _ g
  have isOrder := mem_orderIds_of_known valid known
  refine goes_bind (goes_send (fun l _ => ?_) fun l reply l' g' _ acted => ?_)
  · simp [act, World.withDb, Database.insertCard, isOrder, level]
  · obtain ⟨orders, statuses, cards⟩ := tables_act acted
    obtain ⟨manufacture, courier⟩ := lists_act (c := .insertCard o card) trivial acted
    have sameStatuses : g'.db.statusesOf o = g.db.statusesOf o := by
      rw [Database.statusesOf, statuses]
      rfl
    refine (goes_insertStatus .cardCreated _ (act_valid valid acted) (sameStatuses ▸ known)
      (by decide)).mono fun _ g'' out => ?_
    obtain ⟨statuses', added, wrote⟩ := out
    refine ⟨statuses', card.row g.db.cardSeed o, sameStatuses ▸ added,
      wrote.valid, wrote.manufacture.trans manufacture, wrote.courier.trans courier, ?_⟩
    rw [wrote.rows]
    unfold World.rows Database.cardsOf
    rw [orders, cards]
    simp [ordersAfter, cardsAfter, CreditCardRequest.row]

/-- The identifier of the shipment is stored, and the shipment reported. -/
theorem goes_ship {shippingId : String} (valid : g.Valid) (known : g.db.statusesOf o ≠ [])
    (early : ∀ s ∈ g.db.statusesOf o, s.status.sequence < StatusType.cardShipped.sequence) :
    Goes chances (updateStatus .cardShipped o (some { asShippingId := some shippingId }))
      (fun _ g' => ∃ statuses row, Added .cardShipped (g.db.statusesOf o) statuses ∧
        row.shippingId = some shippingId ∧ Wrote o ⟨[row], statuses, g.db.cardsOf o⟩ g g') g := by
  refine goes_ownReport known rfl (fun s mem late => absurd (early s mem) (by omega)) ?_
  change Goes chances (send (.updateOrder o shippingId) >>= _) _ g
  refine goes_bind (goes_send (fun l _ => rfl) fun l reply l' g' _ acted => ?_)
  obtain ⟨orders, statuses, cards⟩ := tables_act acted
  obtain ⟨manufacture, courier⟩ := lists_act (c := .updateOrder o shippingId) trivial acted
  have sameStatuses : g'.db.statusesOf o = g.db.statusesOf o := by
    rw [Database.statusesOf, statuses]
    rfl
  have valid' := act_valid valid acted
  refine (goes_insertStatus .cardShipped _ valid' (sameStatuses ▸ known) (by decide)).mono
    fun _ g'' out => ?_
  obtain ⟨statuses', added, wrote⟩ := out
  obtain ⟨s, mem⟩ := List.exists_mem_of_ne_nil _ known
  obtain ⟨row, isRow⟩ := valid'.db.row_of_status (sameStatuses ▸ mem)
  refine ⟨statuses', row, sameStatuses ▸ added, ?_, wrote.valid,
    wrote.manufacture.trans manufacture, wrote.courier.trans courier, ?_⟩
  · have mem : row ∈ g'.db.orders.filter fun row => row.id = o :=
      isRow ▸ List.mem_singleton_self row
    obtain ⟨mem, own⟩ := List.mem_filter.mp mem
    rw [orders] at mem
    obtain ⟨old, -, rfl⟩ := List.mem_map.mp mem
    have own := of_decide_eq_true own
    by_cases here : old.id = o
    · rw [if_pos here]
    · rw [if_neg here] at own
      exact absurd own here
  · rw [wrote.rows]
    unfold World.rows Database.cardsOf
    rw [isRow, cards]
    rfl

end Reports

end EasyTrade.Cards
