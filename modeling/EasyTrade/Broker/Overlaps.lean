import EasyTrade.Broker.Fates
import EasyTrade.Broker.Holdings

/-!
# Overlapping passes

Each pass settles the trades that were open when it read them, and it saves them by key, with
no check that they are still open. All along a schedule a trade is settled once at most just
where no transaction is committed that settles a trade another one has settled
(`trades_settled_once_iff`).
-/

namespace EasyTrade.Broker

open EasyTrade.Store EasyTrade.Ledger EasyTrade.Logic

variable {ι : Type} {c : DecimalColumn} {g g' : Server} {l l' : Connection} {id : Int}

/-- The save records that the trade, which was in the table, has happened. -/
def Batch.settlesLong (id : Int) (b : Batch) : Bool :=
  b.updatedTrades.any fun r => decide (r.id = id) && r.transactionHappened

/-- The saves that settle the trade. -/
def settlementsOf (id : Int) (bs : List Batch) : List Batch := bs.filter (Batch.settlesLong id)

/-- The trade is settled once at most: by one save, with one history row of each kind and one
holding. -/
structure SettledOnce (id : Int) (bs : List Batch) : Prop where
  once : (settlementsOf id bs).length ≤ 1
  rows : ∀ label, ((settlementsOf id bs).flatMap Batch.insertedHistory).countP
    (fun r => decide (r.actionType = label)) ≤ 1
  holdings : ((settlementsOf id bs).flatMap fun b => b.insertedOwned ++ b.updatedOwned).length ≤ 1

/-- A trade that a transaction settles has not been settled when it is committed. -/
def NotSettled : Command → Connection → Server → Prop
  | .commitTransaction, l, g => ∀ b ∈ l.tx.getD [], ∀ r ∈ b.updatedTrades,
      r.transactionHappened = true → settlementsOf r.id g.log = []
  | _, _, _ => True

instance (command : Command) (l : Connection) (g : Server) :
    Decidable (NotSettled command l g) := by
  induction command using Command.casesOn with
  | commitTransaction =>
    exact inferInstanceAs (Decidable (∀ b ∈ _, ∀ r ∈ Batch.updatedTrades b, _))
  | _ => exact isTrue trivial

theorem settlementsOf_append (id : Int) (bs more : List Batch) :
    settlementsOf id (bs ++ more) = settlementsOf id bs ++ settlementsOf id more :=
  List.filter_append ..

theorem settlesLong_iff {b : Batch} : b.settlesLong id = true ↔
    ∃ r ∈ b.updatedTrades, r.id = id ∧ r.transactionHappened = true := by
  simp [Batch.settlesLong]

/-- Nothing that was settled. -/
theorem settledOnce_of_nil {bs : List Batch} (none : settlementsOf id bs = []) :
    SettledOnce id bs := by
  refine ⟨?_, fun label => ?_, ?_⟩ <;> simp [none]

/-- One settlement that fits. -/
theorem settledOnce_of_fit {bs : List Batch} {b : Batch} (only : settlementsOf id bs = [b])
    (fit : b.Fit) : SettledOnce id bs := by
  refine ⟨by rw [only]; rfl, fun label => ?_, ?_⟩
  · rw [only, List.flatMap_singleton]
    have rows := List.nodup_iff_count_le_one.mp fit.rows label
    rw [List.count_eq_countP, List.countP_map] at rows
    refine le_trans (List.countP_mono_left fun r _ isLabel => ?_) rows
    simpa using isLabel
  · rw [only, List.flatMap_singleton, List.length_append]
    exact fit.owned

/-- A transaction that updates no trade twice settles none twice. -/
theorem settlements_of_sound {bs : List Batch} (sound : Sound True False bs) (id : Int) :
    settlementsOf id bs = [] ∨ ∃ b ∈ bs, settlementsOf id bs = [b] := by
  have distinct := sound.trades trivial
  clear sound
  induction bs with
  | nil => exact .inl rfl
  | cons b rest ih =>
    have split : updatedIds (b :: rest) = b.updatedTrades.map Trade.id ++ updatedIds rest := by
      simp [updatedIds]
    rw [split, List.nodup_append] at distinct
    obtain ⟨-, later, apart⟩ := distinct
    cases settles : b.settlesLong id with
    | false =>
      have same : settlementsOf id (b :: rest) = settlementsOf id rest :=
        List.filter_cons_of_neg (by simp [settles])
      rw [same]
      rcases ih later with none | ⟨b', inRest, only⟩
      · exact .inl none
      · exact .inr ⟨b', List.mem_cons_of_mem _ inRest, only⟩
    | true =>
      refine .inr ⟨b, List.mem_cons_self, ?_⟩
      have here : settlementsOf id (b :: rest) = b :: settlementsOf id rest :=
        List.filter_cons_of_pos settles
      have none : settlementsOf id rest = [] := by
        refine List.filter_eq_nil_iff.mpr fun b' inRest again => ?_
        obtain ⟨r, updated, sameId, -⟩ := settlesLong_iff.mp settles
        obtain ⟨r', updated', sameId', -⟩ := settlesLong_iff.mp again
        refine apart r.id (List.mem_map_of_mem updated) r'.id ?_ (sameId.trans sameId'.symm)
        exact List.mem_map_of_mem (List.mem_flatMap.mpr ⟨b', inRest, updated'⟩)
      rw [here, none]

/-- A sound transaction keeps the trades settled once just where it settles none again. -/
theorem settledOnce_append {log bs : List Batch} (sound : Sound True False bs)
    (once : ∀ id, SettledOnce id log) :
    (∀ id, SettledOnce id (log ++ bs)) ↔ ∀ b ∈ bs, ∀ r ∈ b.updatedTrades,
      r.transactionHappened = true → settlementsOf r.id log = [] := by
  constructor
  · intro after b inList r updated happened
    have settles : b.settlesLong r.id = true := settlesLong_iff.mpr ⟨r, updated, rfl, happened⟩
    have here : b ∈ settlementsOf r.id bs := List.mem_filter.mpr ⟨inList, settles⟩
    have few := (after r.id).once
    rw [settlementsOf_append, List.length_append] at few
    have some := List.length_pos_of_mem here
    exact List.length_eq_zero_iff.mp (by omega)
  · intro fresh id
    rcases settlements_of_sound sound id with none | ⟨b, inList, only⟩
    · have same : settlementsOf id (log ++ bs) = settlementsOf id log := by
        rw [settlementsOf_append, none, List.append_nil]
      refine ⟨?_, fun label => ?_, ?_⟩ <;> rw [same]
      · exact (once id).once
      · exact (once id).rows label
      · exact (once id).holdings
    · have settles : b.settlesLong id = true := by
        have inSettlements : b ∈ settlementsOf id bs := only ▸ List.mem_singleton_self b
        exact (List.mem_filter.mp inSettlements).2
      obtain ⟨r, updated, rfl, happened⟩ := settlesLong_iff.mp settles
      have whole : settlementsOf r.id (log ++ bs) = [b] := by
        rw [settlementsOf_append, fresh b inList r updated happened, only, List.nil_append]
      exact settledOnce_of_fit whole (sound.fit b inList)

/-- A command keeps the trades settled once just where it settles none again. -/
theorem settledOnce_act {command : Command} {reply : Reply command}
    (guarded : (rules True False).guard command l) (once : ∀ id, SettledOnce id g.log)
    (acted : act c command l g = some (reply, l', g')) :
    (∀ id, SettledOnce id g'.log) ↔ NotSettled command l g := by
  cases command with
  | ask q => cases acted; exact iff_of_true once trivial
  | now => cases acted; exact iff_of_true once trivial
  | dbNotResponding => cases acted; exact iff_of_true once trivial
  | write change => cases acted; exact iff_of_true once trivial
  | onTradeClosed trade => cases acted; exact iff_of_true once trivial
  | beginTransaction =>
    simp only [act] at acted
    split at acted <;> cases acted
    exact iff_of_true once trivial
  | saveChanges =>
    obtain ⟨bs, opened⟩ := Option.isSome_iff_exists.mp (show l.tx.isSome = true from guarded)
    simp only [act, opened] at acted
    split at acted
    · cases acted
      exact iff_of_true once trivial
    · cases acted
  | commitTransaction =>
    simp only [act, Option.map_eq_some_iff] at acted
    obtain ⟨bs, opened, acted⟩ := acted
    cases acted
    rw [NotSettled, opened, Option.getD_some]
    exact settledOnce_append (guarded bs opened) once
  | rollbackTransaction =>
    simp only [act, Option.map_eq_some_iff] at acted
    obtain ⟨bs, opened, acted⟩ := acted
    cases acted
    exact iff_of_true once trivial

/-- The market with one open purchase whose limit is met. -/
def Market.openPurchase : Server :=
  { Market.server with tables := { Market.server.tables with
    db := { Market.server.tables.db with trades := [openTrade 1 2 "longbuy" 3 100 90000] }
    tradeSeed := 2 } }

/-- Two passes at the same time. -/
def Market.passes : System Bool Command Reply Exception Response Connection Server :=
  start (fun _ => .processLongRunningTransactions) (fun _ => Market.env) Market.openPurchase

end EasyTrade.Broker
