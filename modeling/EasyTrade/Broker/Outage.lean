import EasyTrade.Broker.Concurrent
import EasyTrade.Logic.Hiding

/-!
# No answer from the database

While the problem pattern `db_not_responding` is on, a new trade gets an identifier the database
does not accept, and the save of a request that places a trade fails. Such a request never
returns, and nobody notices it: the tables, the trades reported closed and every other request
are where they are in the run without it (`trades_stop_while_db_not_responding`).
-/

namespace EasyTrade.Broker

open EasyTrade.Ledger EasyTrade.Logic EasyTrade.Logic.Program

variable {ι α : Type} {c : DecimalColumn} {l l' : Connection} {g g' : Server}

/-! ## What is hidden -/

/-- The requests that place a trade. -/
def Request.placesTrade : Request → Bool
  | .buyAssets _ _ _ | .sellAssets _ _ _ => true
  | .longBuyAssets _ _ _ _ _ | .longSellAssets _ _ _ _ _ => true
  | .deposit _ _ | .withdraw _ _ | .processLongRunningTransactions => false

/-- The requests that place a trade while the problem pattern is on. -/
def stopped (requests : ι → Request) (envs : ι → Env) (i : ι) : Bool :=
  (requests i).placesTrade && (envs i).dbNotResponding

/-- No save is carried out, nothing is committed and nobody is told of a closed trade. -/
def unsaved : Terms Command Exception Connection Server where
  assume l _ := l.env.dbNotResponding = true
  guard
    | .saveChanges, l => ¬l.pending.Unnumbered
    | .commitTransaction, _ => False
    | .onTradeClosed _, _ => False
    | _, _ => True
  abort _ _ := True
  refusable _ _ := True

/-- Such commands leave no trace. -/
theorem unsaved_act {command : Command} {reply : Reply command}
    (guarded : unsaved.guard command l) (acted : act c command l g = some (reply, l', g')) :
    g' = g ∧ l'.env = l.env := by
  cases command with
  | ask q => cases acted; exact ⟨rfl, by simp⟩
  | now => cases acted; exact ⟨rfl, rfl⟩
  | dbNotResponding => cases acted; exact ⟨rfl, rfl⟩
  | write change => cases acted; exact ⟨rfl, by simp⟩
  | onTradeClosed trade => exact guarded.elim
  | beginTransaction =>
    simp only [act] at acted
    split at acted <;> cases acted
    exact ⟨rfl, rfl⟩
  | saveChanges =>
    simp only [act, if_neg (show ¬l.pending.Unnumbered from guarded)] at acted
    cases acted
  | commitTransaction => exact guarded.elim
  | rollbackTransaction =>
    obtain ⟨bs, -, same⟩ := Option.map_eq_some_iff.mp acted
    cases same
    exact ⟨rfl, rfl⟩

/-! ## Before and after the new trade -/

/-- The commands before the save. -/
def Command.Prepares : Command → Prop
  | .saveChanges | .commitTransaction | .onTradeClosed _ => False
  | _ => True

/-- A row that no save accepts is pending. -/
def Spoiled (l : Connection) : Prop := ∃ r ∈ l.pending.insertedTrades, r.id = invalidTradeId

theorem Spoiled.not_unnumbered (spoiled : Spoiled l) : ¬l.pending.Unnumbered := by
  obtain ⟨r, pending, invalid⟩ := spoiled
  intro unnumbered
  have zero := unnumbered.1 r pending
  rw [invalid] at zero
  exact absurd zero (by decide)

/-- More changes do not help. -/
theorem Spoiled.write (spoiled : Spoiled l) (change : Change) : Spoiled (l.write change) := by
  obtain ⟨r, pending, invalid⟩ := spoiled
  refine ⟨r, ?_, invalid⟩
  rw [Connection.pending_write]
  cases change with
  | addTrade trade => exact List.mem_append_left _ pending
  | _ => exact pending

theorem Spoiled.act {command : Command} {reply : Reply command} (spoiled : Spoiled l)
    (prepares : command.Prepares) (acted : Broker.act c command l g = some (reply, l', g')) :
    Spoiled l' := by
  cases command with
  | ask q =>
    cases acted
    simpa [Spoiled] using spoiled
  | now => cases acted; exact spoiled
  | dbNotResponding => cases acted; exact spoiled
  | write change => cases acted; exact spoiled.write change
  | beginTransaction =>
    simp only [Broker.act] at acted
    split at acted <;> cases acted
    exact spoiled
  | rollbackTransaction =>
    obtain ⟨bs, -, same⟩ := Option.map_eq_some_iff.mp acted
    cases same
    exact spoiled
  | _ => exact prepares.elim

/-- The commands before the save are free. -/
theorem Command.Prepares.guard {command : Command} (prepares : command.Prepares)
    (l : Connection) : unsaved.guard command l := by
  cases command with
  | saveChanges => exact prepares.elim
  | commitTransaction => exact prepares.elim
  | onTradeClosed trade => exact prepares.elim
  | _ => trivial

section Rules

variable {β : Type} {p : Task α} {f : α → Task β} {post : β → Connection → Prop}

/-- Whatever comes before the new trade. -/
theorem keeps_before (only : p.Only Command.Prepares)
    (next : ∀ a l, Keeps (machine c) unsaved (f a) post l) :
    Keeps (machine c) unsaved (p >>= f) post l := by
  rw [keeps_bind]
  exact (only.keeps (fun _ => True) (fun _ l prepares _ => prepares.guard l)
    (fun _ _ _ _ _ _ _ _ _ => trivial) (fun _ _ _ => trivial) trivial).mono fun a l _ => next a l

/-- A row that has to be there. -/
theorem keeps_found {row : Task (Option α)} {f : Option α → Task β}
    (only : row.Only Command.Prepares)
    (missing : ∀ l, Keeps (machine c) unsaved (f none) post l)
    (next : ∀ a l, Keeps (machine c) unsaved (f (some a)) post l) :
    Keeps (machine c) unsaved (row >>= f) post l := by
  refine keeps_before only fun found l => ?_
  cases found with
  | none => exact missing l
  | some a => exact next a l

/-- Whatever comes between the new trade and the save. -/
theorem keeps_after (only : p.Only Command.Prepares) (spoiled : Spoiled l)
    (next : ∀ a l, Spoiled l → Keeps (machine c) unsaved (f a) post l) :
    Keeps (machine c) unsaved (p >>= f) post l := by
  rw [keeps_bind]
  exact (only.keeps Spoiled (fun _ l prepares _ => prepares.guard l)
    (fun _ _ _ _ _ _ prepares spoiled acted => spoiled.act prepares acted) (fun _ _ _ => trivial)
    spoiled).mono next

/-- The new trade. -/
theorem keeps_addTrade (trade : Trade) {f : Unit → Task β}
    (next : ∀ l, Spoiled l → Keeps (machine c) unsaved (f ()) post l) :
    Keeps (machine c) unsaved (addTrade trade >>= f) post l := by
  unfold addTrade
  rw [keeps_bind, keeps_bind]
  refine keeps_perform trivial (fun _ => trivial) fun g flag l₁ g₁ on asked => ?_
  have on : l.env.dbNotResponding = true := on
  cases asked
  refine keeps_perform trivial (fun _ => trivial) fun _ _ _ _ _ written => ?_
  cases written
  exact next _ ⟨{ trade with id := invalidTradeId }, by simp [Batch.write, on], rfl⟩

/-- The save that is not accepted. -/
theorem keeps_saveChangesOrRollback {f : Batch → Task β} (spoiled : Spoiled l) :
    Keeps (machine c) unsaved (saveChangesOrRollback >>= f) post l := by
  rw [keeps_bind]
  refine keeps_tryCatch ?_
  rw [keeps_bind]
  refine keeps_perform spoiled.not_unnumbered (fun _ => ?_) fun _ _ _ _ _ saved => ?_
  · exact keeps_bind.mpr (keeps_perform trivial (fun _ => trivial) fun _ _ _ _ _ _ => trivial)
  · simp only [machine, act, if_neg spoiled.not_unnumbered] at saved
    cases saved

end Rules

/-! ## Programs before the save -/

theorem only_ofExcept (value : Except Exception α) : (ofExcept value).Only Command.Prepares := by
  cases value <;> trivial

theorem only_deref (value : Option α) : (deref value).Only Command.Prepares := by
  cases value <;> trivial

theorem only_updateOwned (owned : OwnedInstrument) (amount : ℚ) :
    (TradeServiceBase.updateOwned owned amount).Only Command.Prepares :=
  only_bind (only_perform trivial) fun _ => only_perform trivial

theorem only_updateOwnedInstrument (accountId instrumentId : Int) (amount : ℚ) :
    (TradeServiceBase.updateOwnedInstrument accountId instrumentId amount).Only
      Command.Prepares := by
  refine only_bind (only_perform trivial) fun found => ?_
  cases found with
  | none => exact only_bind (only_perform trivial) fun _ => only_perform trivial
  | some owned => exact only_updateOwned owned amount

theorem only_updateBalance (balance : Balance) (amount ppt : ℚ) (actionType : ActionType) :
    (TradeServiceBase.updateBalance balance amount ppt actionType).Only Command.Prepares := by
  refine only_bind (only_perform trivial) fun _ => only_bind (only_perform trivial) fun _ => ?_
  refine only_bind (only_perform trivial) fun _ => only_bind (only_perform trivial) fun _ => ?_
  refine only_bind (only_perform trivial) fun _ => only_bind (only_perform trivial) fun _ => ?_
  refine only_bind (only_deref _) fun _ => only_bind (only_perform trivial) fun _ => ?_
  exact only_bind (only_perform trivial) fun _ => only_perform trivial

/-! ## The services -/

theorem only_validateInput (amount : ℚ) :
    (TradeService.validateInput amount).Only Command.Prepares := by
  unfold TradeService.validateInput
  split <;> trivial

theorem keeps_buyAssets (accountId instrumentId : Int) (amount : ℚ)
    {post : Trade → Connection → Prop} (l : Connection) :
    Keeps (machine c) unsaved (TradeService.buyAssets accountId instrumentId amount) post l := by
  refine keeps_before (only_validateInput amount) fun _ l => ?_
  refine keeps_found (only_perform trivial) (fun _ => trivial) fun balance l => ?_
  refine keeps_found (only_perform trivial) (fun _ => trivial) fun instrument l => ?_
  refine keeps_before (only_perform trivial) fun price l => ?_
  refine keeps_before (only_deref _) fun price l => ?_
  refine keeps_before (only_perform trivial) fun product l => ?_
  refine keeps_before (only_deref _) fun product l => ?_
  simp only
  split
  · trivial
  · refine keeps_before (only_perform trivial) fun _ l => ?_
    refine keeps_before (only_perform trivial) fun now l => ?_
    refine keeps_addTrade _ fun l spoiled => ?_
    refine keeps_after (only_updateBalance ..) spoiled fun _ l spoiled => ?_
    refine keeps_after (only_updateOwnedInstrument ..) spoiled fun _ l spoiled => ?_
    exact keeps_saveChangesOrRollback spoiled

theorem keeps_sellAssets (accountId instrumentId : Int) (amount : ℚ)
    {post : Trade → Connection → Prop} (l : Connection) :
    Keeps (machine c) unsaved (TradeService.sellAssets accountId instrumentId amount) post l := by
  refine keeps_before (only_validateInput amount) fun _ l => ?_
  refine keeps_found (only_perform trivial) (fun _ => trivial) fun balance l => ?_
  refine keeps_found (only_perform trivial) (fun _ => trivial) fun instrument l => ?_
  refine keeps_before (only_perform trivial) fun price l => ?_
  refine keeps_before (only_deref _) fun price l => ?_
  refine keeps_before (only_perform trivial) fun product l => ?_
  refine keeps_found (only_perform trivial) (fun _ => trivial) fun owned l => ?_
  simp only
  split
  · trivial
  · refine keeps_before (only_perform trivial) fun _ l => ?_
    refine keeps_before (only_perform trivial) fun now l => ?_
    refine keeps_addTrade _ fun l spoiled => ?_
    refine keeps_after (only_deref _) spoiled fun product l spoiled => ?_
    refine keeps_after (only_updateBalance ..) spoiled fun _ l spoiled => ?_
    refine keeps_after (only_updateOwned ..) spoiled fun _ l spoiled => ?_
    exact keeps_saveChangesOrRollback spoiled

theorem keeps_createLongTransaction (accountId instrumentId : Int) (amount : ℚ) (duration : Int)
    (price : ℚ) (type : ActionType) {post : Trade → Connection → Prop} (l : Connection) :
    Keeps (machine c) unsaved
      (LongTradeService.createLongTransaction accountId instrumentId amount duration price type)
      post l := by
  have valid : (LongTradeService.validateInput amount price duration).Only Command.Prepares := by
    unfold LongTradeService.validateInput
    split
    · trivial
    · split
      · trivial
      · split <;> trivial
  refine keeps_before valid fun _ l => ?_
  refine keeps_found (only_perform trivial) (fun _ => trivial) fun balance l => ?_
  refine keeps_found (only_perform trivial) (fun _ => trivial) fun instrument l => ?_
  refine keeps_before (only_perform trivial) fun _ l => ?_
  refine keeps_before (only_perform trivial) fun now l => ?_
  refine keeps_before (only_ofExcept _) fun trade l => ?_
  refine keeps_addTrade _ fun l spoiled => ?_
  exact keeps_saveChangesOrRollback spoiled

/-- A request that places a trade keeps to the terms and does not return. -/
theorem keeps_placesTrade {request : Request} (places : request.placesTrade = true)
    (l : Connection) : Keeps (machine c) unsaved (handle request) (fun _ _ => False) l := by
  cases request with
  | buyAssets => exact keeps_bind.mpr (keeps_buyAssets _ _ _ l)
  | sellAssets => exact keeps_bind.mpr (keeps_sellAssets _ _ _ l)
  | longBuyAssets => exact keeps_bind.mpr (keeps_createLongTransaction _ _ _ _ _ _ l)
  | longSellAssets => exact keeps_bind.mpr (keeps_createLongTransaction _ _ _ _ _ _ l)
  | _ => cases places

/-! ## The result -/

/-- A request on the terms of a stopped one. -/
def Stopped (c : DecimalColumn) (t : Thread Command Reply Exception Response Connection) : Prop :=
  t.program.Keeps (machine c) unsaved (fun _ _ => False) t.priv ∧ t.priv.env.dbNotResponding = true

theorem hides_stopped (c : DecimalColumn) : System.Hides (machine c) (Stopped c) := by
  refine System.hides_keeps (fun l : Connection => l.env.dbNotResponding = true) (fun _ _ on => on)
    (fun _ _ => trivial) fun command l g reply l' g' guarded on acted => ?_
  obtain ⟨same, sameEnv⟩ := unsaved_act guarded acted
  exact ⟨same, by rw [sameEnv]; exact on⟩

/-- Trading stops while the problem pattern is on. A request that places a trade meanwhile never
returns, and the server and all others are where they are in the run without it. -/
theorem trades_stop_while_db_not_responding [DecidableEq ι] (c : DecimalColumn)
    (requests : ι → Request) (envs : ι → Env) (g : Server) (schedule : List (ι × Bool)) :
    let s := (start requests envs g).run (machine c) schedule
    let without := (start requests envs g).run (machine c)
      (schedule.filter fun turn => !stopped requests envs turn.1)
    s.shared = without.shared ∧
      (∀ i, stopped requests envs i = false → s.threads i = without.threads i) ∧
      ∀ i, stopped requests envs i = true → ∀ response, (s.threads i).program ≠ .done response := by
  have same : (start requests envs g).Agree (stopped requests envs) (start requests envs g) :=
    ⟨rfl, fun _ _ => rfl⟩
  have first : ∀ i, stopped requests envs i = true → Stopped c ((start requests envs g).threads i) :=
    fun i isStopped => by
      obtain ⟨places, on⟩ := Bool.and_eq_true_iff.mp isStopped
      exact ⟨keeps_placesTrade places _, on⟩
  obtain ⟨agree, still⟩ := System.run_hidden (hides_stopped c) schedule same first
  refine ⟨agree.shared, agree.threads, fun i isStopped response returned => ?_⟩
  have keeps := (still i isStopped).1
  rw [returned] at keeps
  exact keeps

-- a purchase under way while the owner of the account deposits
example : let envs : Bool → Env := fun _ => { Market.env with dbNotResponding := true }
    let requests : Bool → Request := fun second =>
      if second then .deposit 2 100 else .buyAssets 2 1 3
    let s := (start requests envs Market.server).run (machine .exact)
      ((List.replicate 30 [(false, false), (true, false)]).flatten)
    s.shared.tables.db.balances = [⟨1, 0⟩, ⟨2, 1100⟩, ⟨3, 500⟩] ∧ s.shared.tables.db.trades = [] := by
  decide +kernel

end EasyTrade.Broker
