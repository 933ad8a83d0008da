import EasyTrade.Broker.Services
import EasyTrade.Content.Excess
import EasyTrade.Logic.Alone

/-!
# Open trades and the removal of excess rows

The broker never deletes a trade. The content creator deletes the 15000 trades opened first when
it has counted more than 30000; it does not look at whether they are closed, so a trade that waits
for its price may be among them. Nothing else takes a trade from the table, and only a run that
processes the long-running trades changes one: it closes it.

Requests of the broker run beside the content creator, command by command. The other statements of
a day leave the trades alone, as long as no account is deleted.
-/

namespace EasyTrade.Content.OpenTrades

open EasyTrade.Logic EasyTrade.Logic.Program EasyTrade.Store EasyTrade.Ledger
open EasyTrade.Broker (Trade Batch Server Connection Request)

/-! ## The content creator beside the broker -/

/-- The statements about `Trades`. -/
inductive Statement where
  | getTableCount
  | deleteFromTableTop (n : Int)

/-- A command of the broker, or a statement. -/
abbrev Command := Broker.Command ⊕ Statement

/-- What answers a command. -/
abbrev Reply : Command → Type := Sum.elim Broker.Reply fun
  | .getTableCount => Int
  | .deleteFromTableTop _ => Unit

/-- The private state of a request, or of the content creator. -/
structure Private where
  /-- The connection of a request. -/
  connection : Connection
  /-- So many trades have been counted. -/
  counted : Int := 0

/-- The order of `getDeleteTopQuery`. -/
abbrev Older (rank : Int → Nat) : Trade → Trade → Prop :=
  Excess.Earlier Trade.timestampOpen fun trade => rank trade.id

/-- The trades in the table. -/
abbrev trades (g : Server) : List Trade := g.tables.db.trades

/-- The `DELETE` of the first rows. -/
def deleteTop (rank : Int → Nat) (n : Nat) (g : Server) : Server :=
  { g with tables := { g.tables with
      db := { g.tables.db with trades := rest (Older rank) n (trades g) } } }

/-- What a command does. -/
def act (c : DecimalColumn) (rank : Int → Nat) :
    (command : Command) → Private → Server → Option (Reply command × Private × Server)
  | .inl command, l, g => (Broker.act c command l.connection g).map fun done =>
      (done.1, { l with connection := done.2.1 }, done.2.2)
  | .inr .getTableCount, l, g =>
    some (Int.ofNat (trades g).length, { l with counted := (trades g).length }, g)
  | .inr (.deleteFromTableTop n), l, g =>
    if n < 0 then none else some ((), { l with counted := 0 }, deleteTop rank n.toNat g)

/-- The machine of all of them; `rank` is the order the server gives rows of one date. -/
def machine (c : DecimalColumn) (rank : Int → Nat) :
    Machine Command Reply Broker.Exception Private Server where
  act := act c rank
  fault := .refused

/-- A program that runs beside others. -/
abbrev Task := Program Command Reply Broker.Exception

/-- `getTableCount`: -1 for a statement that fails. -/
def getTableCount : Task Int :=
  tryCatch (perform (Sum.inr .getTableCount : Command)) fun _ => return (-1 : Int)

/-- `checkTableCount`. -/
def checkTableCount (maxCount : Nat) : Task Bool := do
  let count ← getTableCount
  return decide (count > maxCount)

/-- `deleteFromTableTop`: an error is printed. -/
def deleteFromTableTop (n : Int) : Task Unit :=
  tryCatch (perform (Sum.inr (.deleteFromTableTop n) : Command)) fun _ => return ()

/-- `removeExcessiveTradeData`. -/
def removeExcessiveTradeData : Task Unit := do
  let maxCount := Excess.SQLTable.trades.maxCount
  if ← checkTableCount maxCount then
    deleteFromTableTop (cleanupCount id maxCount cleanupRatio)

/-- What runs: the content creator for so many days, and any number of requests. -/
def program (requests : Nat → Request) (days : Nat) : Option Nat → Task Unit
  | none => forEach (List.range days) fun _ => removeExcessiveTradeData
  | some n => do
    let _ ← (Broker.handle (requests n)).among

/-- All of them before the first command. -/
def start (requests : Nat → Request) (env : Nat → Broker.Env) (days : Nat) (g : Server) :
    System (Option Nat) Command Reply Broker.Exception Unit Private Server :=
  ⟨fun i => ⟨program requests days i, { connection := { env := env (i.getD 0) } }⟩, g⟩

/-! ## What the services write to trades -/

/-- A change of a trade closes it, and only who may close trades changes one. -/
def Closes (may : Prop) : Broker.Command → Prop
  | .write (.updateTrade trade) => may ∧ trade.tradeClosed = true
  | _ => True

section Services

open Broker Broker.TradeServiceBase

variable {may : Prop} {α : Type}

theorem only_ofExcept (value : Except Exception α) : (ofExcept value).Only (Closes may) := by
  cases value <;> trivial

theorem only_deref (value : Option α) : (deref value).Only (Closes may) := by
  cases value <;> trivial

theorem only_item (key : α → Int) (dictionary : List α) (k : Int) :
    (item key dictionary k).Only (Closes may) := by
  unfold item
  split <;> trivial

theorem only_toDictionary (key : α → Int) (rows : List α) :
    (toDictionary key rows).Only (Closes may) := by
  unfold toDictionary
  split <;> trivial

theorem only_saveChangesOrRollback : saveChangesOrRollback.Only (Closes may) := by
  refine only_tryCatch ?_ fun _ => ?_
  · exact only_bind (only_perform trivial) fun _ =>
      only_bind (only_perform trivial) fun _ => trivial
  · exact only_bind (only_perform trivial) fun _ => trivial

theorem only_addTrade (trade : Trade) : (addTrade trade).Only (Closes may) :=
  only_bind (only_perform trivial) fun _ => only_perform trivial

theorem only_modifyBalance (accountId : Int) (amount : ℚ) (actionType : ActionType) :
    (BalanceService.modifyBalance accountId amount actionType).Only (Closes may) := by
  refine only_bind (only_perform trivial) fun found => ?_
  cases found with
  | none => trivial
  | some balance =>
    refine only_bind (only_perform trivial) fun _ => only_bind (only_ofExcept _) fun _ => ?_
    refine only_bind (only_perform trivial) fun _ => only_bind (only_perform trivial) fun _ => ?_
    refine only_bind (only_perform trivial) fun _ => ?_
    exact only_bind only_saveChangesOrRollback fun _ => trivial

theorem only_updateOwned (owned : OwnedInstrument) (amount : ℚ) :
    (updateOwned owned amount).Only (Closes may) :=
  only_bind (only_perform trivial) fun _ => only_perform trivial

theorem only_updateOwnedInstrument (accountId instrumentId : Int) (amount : ℚ) :
    (TradeServiceBase.updateOwnedInstrument accountId instrumentId amount).Only (Closes may) := by
  refine only_bind (only_perform trivial) fun found => ?_
  cases found with
  | none => exact only_bind (only_perform trivial) fun _ => only_perform trivial
  | some owned => exact only_updateOwned owned amount

theorem only_updateBalance (balance : Balance) (amount ppt : ℚ) (actionType : ActionType) :
    (TradeServiceBase.updateBalance balance amount ppt actionType).Only (Closes may) := by
  refine only_bind (only_perform trivial) fun _ => only_bind (only_perform trivial) fun _ => ?_
  refine only_bind (only_perform trivial) fun _ => only_bind (only_perform trivial) fun _ => ?_
  refine only_bind (only_perform trivial) fun _ => only_bind (only_perform trivial) fun _ => ?_
  refine only_bind (only_deref _) fun _ => only_bind (only_perform trivial) fun _ => ?_
  exact only_bind (only_perform trivial) fun _ => only_perform trivial

theorem only_buyAssets (accountId instrumentId : Int) (amount : ℚ) :
    (TradeService.buyAssets accountId instrumentId amount).Only (Closes may) := by
  have valid : (TradeService.validateInput amount).Only (Closes may) := by
    unfold TradeService.validateInput
    split <;> trivial
  refine only_bind valid fun _ => only_bind (only_perform trivial) fun balance => ?_
  cases balance with
  | none => trivial
  | some balance =>
    refine only_bind (only_perform trivial) fun instrument => ?_
    cases instrument with
    | none => trivial
    | some instrument =>
      refine only_bind (only_perform trivial) fun _ => only_bind (only_deref _) fun _ => ?_
      refine only_bind (only_perform trivial) fun _ => only_bind (only_deref _) fun _ => ?_
      simp only
      split
      · trivial
      · refine only_bind (only_perform trivial) fun _ => only_bind (only_perform trivial) fun _ => ?_
        refine only_bind (only_addTrade _) fun _ => only_bind (only_updateBalance ..) fun _ => ?_
        refine only_bind (only_updateOwnedInstrument ..) fun _ => ?_
        exact only_bind only_saveChangesOrRollback fun _ => trivial

theorem only_sellAssets (accountId instrumentId : Int) (amount : ℚ) :
    (TradeService.sellAssets accountId instrumentId amount).Only (Closes may) := by
  have valid : (TradeService.validateInput amount).Only (Closes may) := by
    unfold TradeService.validateInput
    split <;> trivial
  refine only_bind valid fun _ => only_bind (only_perform trivial) fun balance => ?_
  cases balance with
  | none => trivial
  | some balance =>
    refine only_bind (only_perform trivial) fun instrument => ?_
    cases instrument with
    | none => trivial
    | some instrument =>
      refine only_bind (only_perform trivial) fun _ => only_bind (only_deref _) fun _ => ?_
      refine only_bind (only_perform trivial) fun _ => ?_
      refine only_bind (only_perform trivial) fun owned => ?_
      cases owned with
      | none => trivial
      | some owned =>
        simp only
        split
        · trivial
        · refine only_bind (only_perform trivial) fun _ => ?_
          refine only_bind (only_perform trivial) fun _ => only_bind (only_addTrade _) fun _ => ?_
          refine only_bind (only_deref _) fun _ => only_bind (only_updateBalance ..) fun _ => ?_
          refine only_bind (only_updateOwned ..) fun _ => ?_
          exact only_bind only_saveChangesOrRollback fun _ => trivial

theorem only_createLongTransaction (accountId instrumentId : Int) (amount : ℚ) (duration : Int)
    (price : ℚ) (type : ActionType) :
    (LongTradeService.createLongTransaction accountId instrumentId amount duration price type).Only
      (Closes may) := by
  have valid : (LongTradeService.validateInput amount price duration).Only (Closes may) := by
    unfold LongTradeService.validateInput
    split
    · trivial
    · split
      · trivial
      · split <;> trivial
  refine only_bind valid fun _ => only_bind (only_perform trivial) fun balance => ?_
  cases balance with
  | none => trivial
  | some balance =>
    refine only_bind (only_perform trivial) fun instrument => ?_
    cases instrument with
    | none => trivial
    | some instrument =>
      refine only_bind (only_perform trivial) fun _ => only_bind (only_perform trivial) fun _ => ?_
      refine only_bind (only_ofExcept _) fun _ => only_bind (only_addTrade _) fun _ => ?_
      exact only_bind only_saveChangesOrRollback fun _ => trivial

/-- The only place that changes a trade. -/
theorem only_closeTrade (trade : Trade) (status : String) (happened : Bool) :
    (LongTradeService.closeTrade trade status happened).Only (Closes True) :=
  only_bind (only_perform ⟨trivial, rfl⟩) fun _ => only_perform trivial

theorem only_processLongBuy (trade : Trade) (instrument : Instrument) (price : Price)
    (product : Product) :
    (LongTradeService.processLongBuy trade instrument price product).Only (Closes True) := by
  unfold LongTradeService.processLongBuy
  split
  · trivial
  · refine only_bind (only_perform trivial) fun _ => only_bind (only_deref _) fun _ => ?_
    simp only
    split
    · exact only_closeTrade ..
    · refine only_bind (only_updateBalance ..) fun _ => ?_
      exact only_bind (only_updateOwnedInstrument ..) fun _ => only_closeTrade ..

theorem only_processLongSell (trade : Trade) (instrument : Instrument) (price : Price)
    (product : Product) :
    (LongTradeService.processLongSell trade instrument price product).Only (Closes True) := by
  unfold LongTradeService.processLongSell
  split
  · trivial
  · refine only_bind (only_perform trivial) fun owned => ?_
    cases owned with
    | none => exact only_closeTrade ..
    | some owned =>
      simp only
      split
      · exact only_closeTrade ..
      · refine only_bind (only_perform trivial) fun _ => only_bind (only_deref _) fun _ => ?_
        refine only_bind (only_updateBalance ..) fun _ => ?_
        exact only_bind (only_updateOwned ..) fun _ => only_closeTrade ..

theorem only_processTrade (instruments : List Instrument) (prices : List Price)
    (products : List Product) (trade : Trade) :
    (LongTradeService.processTrade instruments prices products trade).Only (Closes True) := by
  have saves : ∀ p : Broker.Task Unit, p.Only (Closes True) →
      Program.Only (Closes True) (do p; let _ ← saveChanges : Broker.Task Unit) := fun p only =>
    only_bind only fun _ => only_bind (only_perform trivial) fun _ => trivial
  refine only_bind (only_item ..) fun _ => only_bind (only_item ..) fun _ => ?_
  refine only_bind (only_item ..) fun _ => ?_
  split
  · exact saves _ (only_processLongBuy ..)
  · split
    · exact saves _ (only_processLongSell ..)
    · exact saves _ (only_closeTrade ..)

theorem only_forEach {β : Type} {body : β → Broker.Task Unit}
    (each : ∀ b, (body b).Only (Closes may)) :
    ∀ bs : List β, (forEach bs body).Only (Closes may)
  | [] => trivial
  | b :: rest => only_bind (each b) fun _ => only_forEach each rest

theorem only_processLongRunningTransactions :
    LongTradeService.processLongRunningTransactions.Only (Closes True) := by
  have overdue : LongTradeService.closeOverdueTrades.Only (Closes True) :=
    only_bind (only_perform trivial) fun _ => only_bind (only_perform trivial) fun _ =>
      only_forEach (fun _ => only_closeTrade ..) _
  refine only_bind (only_perform trivial) fun _ => only_bind overdue fun _ => ?_
  refine only_bind (only_perform trivial) fun _ => only_bind (only_perform trivial) fun _ => ?_
  refine only_bind (only_perform trivial) fun _ => only_bind (only_toDictionary ..) fun _ => ?_
  refine only_bind (only_perform trivial) fun _ => only_bind (only_toDictionary ..) fun _ => ?_
  refine only_bind (only_perform trivial) fun _ => only_bind (only_toDictionary ..) fun _ => ?_
  refine only_bind (only_forEach (fun _ => only_processTrade ..) _) fun _ => ?_
  exact only_bind only_saveChangesOrRollback fun _ => trivial

/-- Only a run that processes the long-running trades changes trades, and it closes them. -/
theorem only_handle (request : Request) :
    (handle request).Only (Closes (request = .processLongRunningTransactions)) := by
  cases request with
  | deposit => exact only_bind (only_modifyBalance ..) fun _ => trivial
  | withdraw => exact only_bind (only_modifyBalance ..) fun _ => trivial
  | buyAssets => exact only_bind (only_buyAssets ..) fun _ => trivial
  | sellAssets => exact only_bind (only_sellAssets ..) fun _ => trivial
  | longBuyAssets => exact only_bind (only_createLongTransaction ..) fun _ => trivial
  | longSellAssets => exact only_bind (only_createLongTransaction ..) fun _ => trivial
  | processLongRunningTransactions =>
    refine only_bind (only_processLongRunningTransactions.mono fun command closes => ?_)
      fun _ => trivial
    cases command with
    | write change =>
      cases change with
      | updateTrade trade => exact ⟨rfl, closes.2⟩
      | _ => trivial
    | _ => trivial

end Services

/-! ## What each may do -/

/-- The content creator deletes 15000 trades when it has counted more than 30000. The requests
change trades as the services do. -/
def terms (requests : Nat → Request) :
    Option Nat → Terms Command Broker.Exception Private Server
  | none =>
    { assume _ _ := True
      guard
        | .inr (.deleteFromTableTop n), l => n = 15000 ∧ 30000 < l.counted
        | .inr .getTableCount, _ => True
        | .inl _, _ => False
      abort _ _ := True
      refusable _ _ := True }
  | some n =>
    { assume _ _ := True
      guard
        | .inl command, _ => Closes (requests n = .processLongRunningTransactions) command
        | .inr _, _ => False
      abort _ _ := True
      refusable _ _ := True }

variable {c : DecimalColumn} {rank : Int → Nat} {requests : Nat → Request} {may : Prop}
  {g g' : Server}

theorem cleanupCount_eq :
    cleanupCount id Excess.SQLTable.trades.maxCount cleanupRatio = 15000 := by decide +kernel

theorem removeExcessiveTradeData_keeps {l : Private} :
    removeExcessiveTradeData.Keeps (machine c rank) (terms requests none) (fun _ _ => True) l := by
  have deletes : ∀ (n : Int) (l : Private), (30000 < n → 30000 < l.counted) →
      Program.Keeps (machine c rank) (terms requests none)
        (if decide (n > Excess.SQLTable.trades.maxCount) = true then
          deleteFromTableTop (cleanupCount id Excess.SQLTable.trades.maxCount cleanupRatio)
        else pure () : Task Unit) (fun _ _ => True) l := by
    intro n l known
    by_cases many : n > Excess.SQLTable.trades.maxCount
    · rw [if_pos (decide_eq_true many), cleanupCount_eq]
      apply keeps_tryCatch
      exact keeps_perform ⟨rfl, known many⟩ (fun _ => trivial) fun _ _ _ _ _ _ => trivial
    · rw [if_neg (by simpa using many)]
      trivial
  unfold removeExcessiveTradeData checkTableCount getTableCount
  rw [keeps_bind, keeps_bind]
  apply keeps_tryCatch
  refine keeps_perform trivial (fun _ => ?_) fun g n l' g' _ acted => ?_
  · exact deletes (-1) l (by omega)
  · cases acted
    exact deletes _ _ id

theorem program_keeps {days : Nat} {l : Private} (i : Option Nat) :
    (program requests days i).Keeps (machine c rank) (terms requests i) (fun _ _ => True) l := by
  cases i with
  | none =>
    refine (keeps_forEach (fun _ _ => True) (fun _ _ l _ => ?_) _ l trivial).mono
      fun _ _ _ => trivial
    exact removeExcessiveTradeData_keeps
  | some n =>
    have only : (program requests days (some n)).Only fun c => ∃ command, c = .inl command ∧
        Closes (requests n = .processLongRunningTransactions) command :=
      only_bind ((only_handle (requests n)).among fun c closes => ⟨c, rfl, closes⟩)
        fun _ => trivial
    refine only.keeps (fun _ => True) ?_ (fun _ _ _ _ _ _ _ _ _ => trivial)
      (fun _ _ _ => trivial) trivial
    rintro c l ⟨command, rfl, closes⟩ -
    exact closes

/-! ## What becomes of a trade -/

/-- A batch changes trades only by closing them. -/
def BatchCloses (may : Prop) (b : Batch) : Prop :=
  ∀ trade ∈ b.updatedTrades, may ∧ trade.tradeClosed = true

/-- So do all batches of a connection, sent or not. -/
structure Closing (may : Prop) (l : Connection) : Prop where
  pending : BatchCloses may l.pending
  sent : ∀ b ∈ l.tx.getD [], BatchCloses may b

theorem BatchCloses.store {b : Batch} (h : BatchCloses may b) : BatchCloses may (b.store c) := by
  intro trade mem
  obtain ⟨trade', mem', rfl⟩ := List.mem_map.mp mem
  exact h trade' mem'

theorem BatchCloses.write {b : Batch} {change : Broker.Change} (h : BatchCloses may b)
    (closes : Closes may (.write change)) : BatchCloses may (b.write change) := by
  cases change with
  | updateTrade trade =>
    intro trade' mem
    rcases mem_put.mp mem with ⟨old, -⟩ | rfl
    · exact h trade' old
    · exact closes
  | _ => exact h

/-- The trade is there, or it has been closed. -/
def StillThere (may : Prop) (x : Trade) (rows : List Trade) : Prop :=
  ∃ x' ∈ rows, x'.id = x.id ∧ (x' = x ∨ may ∧ x'.tradeClosed = true)

theorem stillThere_apply {db : Broker.Database} {b : Batch} (h : BatchCloses may b) {x : Trade}
    (mem : x ∈ db.trades) : StillThere may x (db.apply b).trades := by
  have there : resolve Trade.id b.updatedTrades x ∈ (db.apply b).trades :=
    List.mem_append_left _ (List.mem_map_of_mem mem)
  cases found : lookup Trade.id x.id b.updatedTrades with
  | none =>
    rw [resolve_of_none found] at there
    exact ⟨x, there, rfl, Or.inl rfl⟩
  | some copy =>
    rw [resolve_of_lookup found] at there
    exact ⟨copy, there, key_of_lookup found, Or.inr (h copy (mem_of_lookup found))⟩

theorem stillThere_applyAll {db : Broker.Database} {bs : List Batch}
    (h : ∀ b ∈ bs, BatchCloses may b) {x : Trade} (mem : x ∈ db.trades) :
    StillThere may x (db.applyAll bs).trades := by
  induction bs generalizing db x with
  | nil => exact ⟨x, mem, rfl, Or.inl rfl⟩
  | cons b bs ih =>
    obtain ⟨y, there, same, how⟩ := stillThere_apply (h b List.mem_cons_self) mem
    obtain ⟨z, there', same', how'⟩ := ih (fun b later => h b (List.mem_cons_of_mem _ later)) there
    refine ⟨z, there', same'.trans same, ?_⟩
    rcases how' with rfl | closed
    · exact how
    · exact Or.inr closed

theorem length_applyAll (db : Broker.Database) (bs : List Batch) :
    db.trades.length ≤ (db.applyAll bs).trades.length := by
  induction bs generalizing db with
  | nil => exact Nat.le_refl _
  | cons b bs ih =>
    have one : db.trades.length ≤ (db.apply b).trades.length := by
      show _ ≤ (overwrite Trade.id b.updatedTrades db.trades ++ b.insertedTrades).length
      rw [List.length_append, overwrite, List.length_map]
      omega
    exact Nat.le_trans one (ih _)

/-- What a command of the broker does: it commits nothing, or batches that close trades. -/
theorem Closing.act {command : Broker.Command} {l l' : Connection} {reply : Broker.Reply command}
    (h : Closing may l) (closes : Closes may command)
    (acted : Broker.act c command l g = some (reply, l', g')) :
    Closing may l' ∧ ∃ bs, (∀ b ∈ bs, BatchCloses may b) ∧
      g'.tables.db = g.tables.db.applyAll bs := by
  obtain ⟨pending, sent⟩ := h
  have numbered : BatchCloses may (l.pending.number g.tables.tradeSeed g.tables.ownedSeed) :=
    pending
  have nothing : BatchCloses may {} := List.forall_mem_nil _
  cases command with
  | ask q =>
    cases acted
    refine ⟨⟨?_, ?_⟩, [], nofun, rfl⟩
    · rw [Connection.pending_receive]
      exact pending
    · rw [Connection.tx_receive]
      exact sent
  | write change =>
    cases acted
    refine ⟨⟨?_, ?_⟩, [], nofun, rfl⟩
    · rw [Connection.pending_write]
      exact pending.write closes
    · rw [Connection.tx_write]
      exact sent
  | beginTransaction =>
    simp only [Broker.act] at acted
    split at acted
    · cases acted
      exact ⟨⟨pending, nofun⟩, [], nofun, rfl⟩
    · cases acted
  | saveChanges =>
    simp only [Broker.act] at acted
    split at acted
    · cases opened : l.tx with
      | some bs =>
        rw [opened] at acted sent
        cases acted
        refine ⟨⟨nothing, fun b mem => ?_⟩, [], nofun, rfl⟩
        rcases List.mem_append.mp mem with old | new
        · exact sent b old
        · rw [List.mem_singleton.mp new]
          exact numbered.store
      | none =>
        rw [opened] at acted
        cases acted
        refine ⟨⟨nothing, ?_⟩, [_], fun b mem => ?_, rfl⟩
        · show ∀ b ∈ l.tx.getD [], _
          exact sent
        · rw [List.mem_singleton.mp mem]
          exact numbered.store
    · cases acted
  | commitTransaction =>
    obtain ⟨bs, opened, same⟩ := Option.map_eq_some_iff.1 acted
    cases same
    rw [opened] at sent
    exact ⟨⟨pending, nofun⟩, bs, sent, rfl⟩
  | rollbackTransaction =>
    obtain ⟨bs, opened, same⟩ := Option.map_eq_some_iff.1 acted
    cases same
    exact ⟨⟨pending, nofun⟩, [], nofun, rfl⟩
  | _ =>
    cases acted
    exact ⟨⟨pending, sent⟩, [], nofun, rfl⟩

/-- What a run keeps: as many trades as have been counted are still there, and connections change
trades only by closing them. -/
structure Kept (requests : Nat → Request) (privs : Option Nat → Private) (g : Server) : Prop where
  counted : (privs none).counted ≤ (trades g).length
  closing : ∀ n, Closing (requests n = .processLongRunningTransactions) (privs (some n)).connection

/-- Every command within the terms keeps it. -/
theorem Kept.act {privs : Option Nat → Private} {i : Option Nat} {command : Command}
    {reply : Reply command} {l' : Private} (kept : Kept requests privs g)
    (guarded : (terms requests i).guard command (privs i))
    (acted : (machine c rank).act command (privs i) g = some (reply, l', g')) :
    Kept requests (Function.update privs i l') g' := by
  obtain ⟨counted, closing⟩ := kept
  cases i with
  | none =>
    have others : ∀ n, Function.update privs none l' (some n) = privs (some n) :=
      fun n => Function.update_of_ne (by simp) _ _
    cases command with
    | inl command => exact guarded.elim
    | inr statement =>
      cases statement with
      | getTableCount =>
        cases acted
        refine ⟨?_, fun n => ?_⟩
        · rw [Function.update_self]
        · rw [others]
          exact closing n
      | deleteFromTableTop n =>
        obtain ⟨rfl, -⟩ := guarded
        cases acted
        refine ⟨?_, fun n => ?_⟩
        · rw [Function.update_self]
          exact Int.natCast_nonneg _
        · rw [others]
          exact closing n
  | some n =>
    cases command with
    | inr statement => exact guarded.elim
    | inl command =>
      obtain ⟨⟨answer, connection, after⟩, done, same⟩ := Option.map_eq_some_iff.1 acted
      cases same
      obtain ⟨closes, bs, -, committed⟩ := (closing n).act guarded done
      refine ⟨?_, fun k => ?_⟩
      · rw [Function.update_of_ne (by simp)]
        have more := length_applyAll g.tables.db bs
        rw [← committed] at more
        exact Int.le_trans counted (Int.ofNat_le.mpr more)
      · by_cases own : k = n
        · subst own
          rw [Function.update_self]
          exact closes
        · have other : (some k : Option Nat) ≠ some n := fun same => own (Option.some.inj same)
          rw [Function.update_of_ne other]
          exact closing k

/-- The statement of the content creator deletes the trade: one of those opened first, in a
table of too many. -/
def Swept (rank : Int → Nat) (g : Server) (x : Trade) : Prop :=
  30000 < (trades g).length ∧ x ∈ top (Older rank) 15000 (trades g)

/-- The trade has been closed. -/
def Closed (g : Server) (x : Trade) : Prop :=
  ∃ x' ∈ trades g, x'.id = x.id ∧ x'.tradeClosed = true

/-- What a turn takes from the table is swept by the content creator or closed by a run that
processes the long-running trades. -/
theorem turn_cases {s : System (Option Nat) Command Reply Broker.Exception Unit Private Server}
    (keeps : ∀ i, (s.threads i).program.Keeps (machine c rank) (terms requests i)
      (fun _ _ => True) (s.threads i).priv)
    (kept : Kept requests s.privs s.shared) (turn : Option Nat × Bool) {x : Trade}
    (there : x ∈ trades s.shared) (gone : x ∉ trades (s.step (machine c rank) turn).shared) :
    (turn.1 = none ∧ Swept rank s.shared x) ∨
      ∃ n, turn.1 = some n ∧ requests n = .processLongRunningTransactions ∧
        Closed (s.step (machine c rank) turn).shared x := by
  obtain ⟨i, refused⟩ := turn
  have isShared : (s.step (machine c rank) (i, refused)).shared =
      ((s.threads i).step (machine c rank) s.shared refused).2 := rfl
  rw [isShared] at gone ⊢
  rcases (s.threads i).step_cases (machine c rank) s.shared refused with
    ⟨command, -, next, reply, l', program, acted, -⟩ | ⟨same, -⟩
  swap
  · rw [same] at gone
    exact absurd there gone
  have guarded : (terms requests i).guard command (s.privs i) := by
    have own := keeps i
    rw [program] at own
    exact own.1
  generalize ((s.threads i).step (machine c rank) s.shared refused).2 = g' at acted gone ⊢
  cases i with
  | none =>
    cases command with
    | inl command => exact guarded.elim
    | inr statement =>
      cases statement with
      | getTableCount =>
        cases acted
        exact absurd there gone
      | deleteFromTableTop n =>
        obtain ⟨rfl, enough⟩ := guarded
        cases acted
        have counted := kept.counted
        refine Or.inl ⟨rfl, by omega, ?_⟩
        by_contra left
        exact gone ((mem_rest _).mpr ⟨there, left⟩)
  | some n =>
    cases command with
    | inr statement => exact guarded.elim
    | inl command =>
      obtain ⟨⟨answer, connection, after⟩, done, same⟩ := Option.map_eq_some_iff.1 acted
      cases same
      obtain ⟨-, bs, closes, committed⟩ := (kept.closing n).act guarded done
      obtain ⟨x', mem, same, rfl | ⟨isProcessing, closed⟩⟩ := stillThere_applyAll closes there
      · rw [← committed] at mem
        exact absurd mem gone
      · rw [← committed] at mem
        exact Or.inr ⟨n, rfl, isProcessing, x', mem, same, closed⟩

/-- After every schedule the programs keep their terms, and what a run keeps holds. -/
theorem reachable_kept (c : DecimalColumn) (rank : Int → Nat) (requests : Nat → Request)
    (env : Nat → Broker.Env) (days : Nat) (g : Server) (schedule : List (Option Nat × Bool)) :
    Kept requests ((start requests env days g).run (machine c rank) schedule).privs
        ((start requests env days g).run (machine c rank) schedule).shared ∧
      ∀ i, (((start requests env days g).run (machine c rank) schedule).threads i).program.Keeps
        (machine c rank) (terms requests i) (fun _ _ => True)
        (((start requests env days g).run (machine c rank) schedule).threads i).priv := by
  have first : Kept requests (start requests env days g).privs g :=
    ⟨Int.natCast_nonneg _, fun n => ⟨List.forall_mem_nil _, List.forall_mem_nil _⟩⟩
  have free : (start requests env days g).Respects (machine c rank) (fun _ _ _ _ _ => True)
      schedule := System.Respects.of_forall (fun _ _ _ _ _ => trivial) _ _
  exact System.run_terms (t := terms requests) (Kept requests)
    (fun _ _ _ i => by cases i <;> trivial) (fun _ _ i _ _ _ _ _ _ => by cases i <;> trivial)
    (fun _ _ _ _ _ _ _ guarded _ kept acted => kept.act guarded acted) schedule
    (fun i => program_keeps i) first free

/-- A trade that is no longer in the table as it was has been swept, open or closed, as one of
the 15000 opened first in a table of more than 30000, or a run that processes the long-running
trades has closed it. -/
theorem trades_swept_or_closed (c : DecimalColumn) (rank : Int → Nat) (requests : Nat → Request)
    (env : Nat → Broker.Env) (days : Nat) (g : Server) (earlier later : List (Option Nat × Bool))
    (x : Trade) (there : x ∈ trades ((start requests env days g).run (machine c rank) earlier).shared)
    (gone : x ∉ trades ((start requests env days g).run (machine c rank)
      (earlier ++ later)).shared) :
    ∃ before turn after, later = before ++ turn :: after ∧
      let s := (start requests env days g).run (machine c rank) (earlier ++ before)
      x ∈ trades s.shared ∧ ((turn.1 = none ∧ Swept rank s.shared x) ∨
        ∃ n, turn.1 = some n ∧ requests n = .processLongRunningTransactions ∧
          Closed (s.step (machine c rank) turn).shared x) := by
  rw [System.run_append] at gone
  obtain ⟨before, turn, after, split, held, lost⟩ :=
    System.exists_turn (fun s => x ∈ trades s.shared) there gone
  rw [← System.run_append] at held lost
  obtain ⟨kept, keeps⟩ := reachable_kept c rank requests env days g (earlier ++ before)
  exact ⟨before, turn, after, split, held, turn_cases keeps kept turn held lost⟩

/-- A trade that waits longer than a day for its price. -/
def waiting : Trade := ⟨1, 2, 1, "longbuy", 1, 10, 0, some 200000, false, false, "registered"⟩

/-- A server with these trades. -/
def serverOf (trades : List Trade) : Server where
  tables :=
    { db :=
        { balances := [⟨1, 0⟩, ⟨2, 1000⟩]
          history := []
          owned := []
          trades := trades
          instruments := [⟨1, 1, "ETRAVE", "EasyTravel", "Travel agency"⟩]
          products := [⟨1, "Share", 5, "USD"⟩] }
      tradeSeed := 40000
      ownedSeed := 1 }

/-- What a request finds outside the database after so many seconds. -/
def envAt (now : Int) : Broker.Env where
  now := now
  latestPrices := []
  lastPrice _ := none
  rank _ := 0
  dbNotResponding := false

/-- The waiting trade is overdue after three days, and a run closes it. -/
theorem waiting_closed :
    ∃ before turn after,
      List.replicate 12 (some 0, false) = before ++ turn :: after ∧
      let s := (start (fun _ => .processLongRunningTransactions) (fun _ => envAt 259200) 0
        (serverOf [waiting])).run (machine .exact Int.toNat) ([] ++ before)
      waiting ∈ trades s.shared ∧ ((turn.1 = none ∧ Swept Int.toNat s.shared waiting) ∨
        ∃ n, turn.1 = some n ∧ Request.processLongRunningTransactions =
          .processLongRunningTransactions ∧
          Closed (s.step (machine .exact Int.toNat) turn).shared waiting) :=
  trades_swept_or_closed .exact Int.toNat (fun _ => .processLongRunningTransactions)
    (fun _ => envAt 259200) 0 (serverOf [waiting]) [] (List.replicate 12 (some 0, false)) waiting
    (by decide +kernel) (by decide +kernel)

/-- A quick purchase, a second after another. -/
def quick (n : Nat) : Trade :=
  ⟨n + 2, 2, 1, "buy", 1, 10, n + 1, some (n + 1), true, true, "Instant buy done"⟩

/-- The content creator alone, on a table of too many trades. -/
theorem alone_sweeps (env : Nat → Broker.Env) (many : 30000 < (trades g).length) :
    ((start requests env 1 g).run (machine c rank) [(none, false), (none, false)]).shared =
      deleteTop rank 15000 g := by
  have counted : Int.ofNat (trades g).length > Excess.SQLTable.trades.maxCount := by
    show (30000 : Int) < Int.ofNat (trades g).length
    exact Int.ofNat_lt.mpr many
  have first : ((start requests env 1 g).step (machine c rank) (none, false)).shared = g := rfl
  have program : (((start requests env 1 g).step (machine c rank) (none, false)).threads
      none).program = Program.bind (if decide (Int.ofNat (trades g).length >
          Excess.SQLTable.trades.maxCount) = true then
          deleteFromTableTop (cleanupCount id Excess.SQLTable.trades.maxCount cleanupRatio)
        else pure () : Task Unit) fun _ => pure () := rfl
  rw [if_pos (decide_eq_true counted), cleanupCount_eq] at program
  show (((start requests env 1 g).step (machine c rank) (none, false)).step (machine c rank)
    (none, false)).shared = _
  rw [System.shared_step_of_call program, first]
  rfl

/-- The waiting trade is swept when more than 30000 others have been opened after it. -/
theorem waiting_swept {others : List Trade} (many : 30000 ≤ others.length)
    (later : ∀ y ∈ others, 1 < y.id ∧ 0 < y.timestampOpen) (env : Nat → Broker.Env) {x : Trade}
    (left : x ∈ trades ((start requests env 1 (serverOf (waiting :: others))).run
      (machine c rank) [(none, false), (none, false)]).shared) : x.id ≠ waiting.id := by
  have all : 30000 < (trades (serverOf (waiting :: others))).length := by
    show 30000 < (waiting :: others).length
    rw [List.length_cons]
    omega
  rw [alone_sweeps env all] at left
  obtain ⟨mem, left⟩ := (mem_rest _).mp left
  intro same
  have isWaiting : x = waiting := by
    rcases List.mem_cons.mp mem with here | there
    · exact here
    · have apart := (later x there).1
      have : x.id = 1 := same
      omega
  subst isWaiting
  refine left (mem_top_of_first _ (fun y mem other older => ?_) mem (by decide))
  have earlier : y.timestampOpen ≤ 0 := older.date_le
  rcases List.mem_cons.mp mem with here | there
  · exact other here
  · have after := (later y there).2
    omega

/-- The waiting trade is the oldest of 30001, and is swept on the first day while it is open. -/
theorem open_trade_swept :
    let g := serverOf (waiting :: (List.range 30000).map quick)
    let s := (start (fun _ => .processLongRunningTransactions) (fun _ => envAt 86400) 1 g).run
      (machine .exact Int.toNat) [(none, false), (none, false)]
    waiting.tradeClosed = false ∧ waiting ∈ trades g ∧
      ∀ x ∈ trades s.shared, x.id ≠ waiting.id := by
  refine ⟨rfl, List.mem_cons_self, fun x left => waiting_swept ?_ ?_ _ left⟩
  · rw [List.length_map, List.length_range]
  · intro y mem
    obtain ⟨n, -, rfl⟩ := List.mem_map.mp mem
    exact ⟨show (1 : Int) < n + 2 by omega, show (0 : Int) < n + 1 by omega⟩

end EasyTrade.Content.OpenTrades
