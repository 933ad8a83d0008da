import EasyTrade.Broker.Refinement

/-!
# A refused command ends the request

No service goes on after a command that was refused: it throws, and the only
handlers roll back and throw again. So a call that returns is one in which
everything was carried out, and it is a run of the services on the book.
-/

namespace EasyTrade.Broker

open EasyTrade.Ledger EasyTrade.Logic EasyTrade.Logic.Program

/-- A refused command ends the program, and nothing is rolled back before. -/
abbrev Task.Disciplined {α : Type} (p : Task α) : Prop := p.Orderly Forward .refused

theorem disciplined_send {command : Command} (forward : Forward command) :
    (send command).Disciplined := orderly_perform forward

theorem disciplined_deref {α : Type} (value : Option α) : (deref value).Disciplined := by
  cases value <;> trivial

theorem disciplined_item {ρ : Type} (key : ρ → Int) (dictionary : List ρ) (k : Int) :
    (item key dictionary k).Disciplined := by
  unfold item
  split <;> trivial

theorem disciplined_toDictionary {ρ : Type} (key : ρ → Int) (rows : List ρ) :
    (toDictionary key rows).Disciplined := by
  unfold toDictionary
  split <;> trivial

theorem disciplined_ofExcept {α : Type} (value : Except Exception α) :
    (ofExcept value).Disciplined := by
  cases value <;> trivial

theorem disciplined_now : now.Disciplined := disciplined_send nofun

theorem disciplined_getBalanceOfAccount (accountId : Int) :
    (getBalanceOfAccount accountId).Disciplined := disciplined_send nofun

theorem disciplined_addTrade (trade : Trade) : (addTrade trade).Disciplined :=
  orderly_bind (disciplined_send nofun) fun _ => disciplined_send nofun

/-- Rolling back is left to the handler, which throws again. -/
theorem disciplined_saveChangesOrRollback : saveChangesOrRollback.Disciplined := by
  refine ⟨nofun, fun reply => ?_, fun saved => ⟨nofun, fun reply => ?_, fun _ => trivial⟩⟩
  · cases reply <;> trivial
  · cases reply <;> trivial

theorem disciplined_modifyBalance (accountId : Int) (amount : ℚ) (actionType : ActionType) :
    (BalanceService.modifyBalance accountId amount actionType).Disciplined := by
  refine orderly_bind (disciplined_send nofun) fun found => ?_
  split
  · refine orderly_bind disciplined_now fun _ => orderly_bind (disciplined_ofExcept _) fun _ => ?_
    refine orderly_bind (disciplined_send nofun) fun _ => ?_
    refine orderly_bind (disciplined_send nofun) fun _ => ?_
    refine orderly_bind (disciplined_send nofun) fun _ => ?_
    exact orderly_bind disciplined_saveChangesOrRollback fun _ => trivial
  · trivial

namespace TradeServiceBase

theorem disciplined_updateOwned (owned : OwnedInstrument) (amount : ℚ) :
    (updateOwned owned amount).Disciplined :=
  orderly_bind disciplined_now fun _ => disciplined_send nofun

theorem disciplined_updateOwnedInstrument (accountId instrumentId : Int) (amount : ℚ) :
    (updateOwnedInstrument accountId instrumentId amount).Disciplined := by
  refine orderly_bind (disciplined_send nofun) fun found => ?_
  cases found with
  | none => exact orderly_bind disciplined_now fun _ => disciplined_send nofun
  | some owned => exact disciplined_updateOwned owned amount

theorem disciplined_updateBalance (balance : Balance) (amount ppt : ℚ) (actionType : ActionType) :
    (updateBalance balance amount ppt actionType).Disciplined := by
  refine orderly_bind disciplined_now fun _ => orderly_bind (disciplined_send nofun) fun _ => ?_
  refine orderly_bind disciplined_now fun _ => orderly_bind (disciplined_send nofun) fun _ => ?_
  refine orderly_bind (disciplined_send nofun) fun _ => ?_
  refine orderly_bind (disciplined_send nofun) fun _ => ?_
  refine orderly_bind (disciplined_deref _) fun _ => ?_
  exact orderly_bind disciplined_now fun _ =>
    orderly_bind (disciplined_send nofun) fun _ => disciplined_send nofun

end TradeServiceBase

open TradeServiceBase

namespace TradeService

theorem disciplined_validateInput (amount : ℚ) : (validateInput amount).Disciplined := by
  unfold validateInput
  split <;> trivial

theorem disciplined_buyAssets (accountId instrumentId : Int) (amount : ℚ) :
    (buyAssets accountId instrumentId amount).Disciplined := by
  refine orderly_bind (disciplined_validateInput _) fun _ => ?_
  refine orderly_bind (disciplined_send nofun) fun balance => ?_
  split
  · refine orderly_bind (disciplined_send nofun) fun instrument => ?_
    split
    · refine orderly_bind (disciplined_send nofun) fun _ => ?_
      refine orderly_bind (disciplined_deref _) fun _ => ?_
      refine orderly_bind (disciplined_send nofun) fun _ => ?_
      refine orderly_bind (disciplined_deref _) fun _ => ?_
      simp only
      split
      · trivial
      · refine orderly_bind (disciplined_send nofun) fun _ => ?_
        refine orderly_bind disciplined_now fun _ => ?_
        refine orderly_bind (disciplined_addTrade _) fun _ => ?_
        refine orderly_bind (disciplined_updateBalance ..) fun _ => ?_
        refine orderly_bind (disciplined_updateOwnedInstrument ..) fun _ => ?_
        exact orderly_bind disciplined_saveChangesOrRollback fun _ => trivial
    · trivial
  · trivial

theorem disciplined_sellAssets (accountId instrumentId : Int) (amount : ℚ) :
    (sellAssets accountId instrumentId amount).Disciplined := by
  refine orderly_bind (disciplined_validateInput _) fun _ => ?_
  refine orderly_bind (disciplined_send nofun) fun balance => ?_
  split
  · refine orderly_bind (disciplined_send nofun) fun instrument => ?_
    split
    · refine orderly_bind (disciplined_send nofun) fun _ => ?_
      refine orderly_bind (disciplined_deref _) fun _ => ?_
      refine orderly_bind (disciplined_send nofun) fun _ => ?_
      refine orderly_bind (disciplined_send nofun) fun _ => ?_
      split
      · split
        · trivial
        · refine orderly_bind (disciplined_send nofun) fun _ => ?_
          refine orderly_bind disciplined_now fun _ => ?_
          refine orderly_bind (disciplined_addTrade _) fun _ => ?_
          refine orderly_bind (disciplined_deref _) fun _ => ?_
          refine orderly_bind (disciplined_updateBalance ..) fun _ => ?_
          refine orderly_bind (disciplined_updateOwned ..) fun _ => ?_
          exact orderly_bind disciplined_saveChangesOrRollback fun _ => trivial
      · trivial
    · trivial
  · trivial

end TradeService

namespace LongTradeService

theorem disciplined_validateInput (amount price : ℚ) (duration : Int) :
    (validateInput amount price duration).Disciplined := by
  unfold validateInput
  split
  · trivial
  · split
    · trivial
    · split <;> trivial

theorem disciplined_closeTrade (trade : Trade) (status : String) (happened : Bool) :
    (closeTrade trade status happened).Disciplined :=
  orderly_bind (disciplined_send nofun) fun _ => disciplined_send nofun

theorem disciplined_closeOverdueTrades : closeOverdueTrades.Disciplined :=
  orderly_bind disciplined_now fun _ => orderly_bind (disciplined_send nofun) fun trades =>
    orderly_forEach (fun _ => disciplined_closeTrade ..) trades

theorem disciplined_createLongTransaction (accountId instrumentId : Int) (amount : ℚ)
    (duration : Int) (price : ℚ) (type : ActionType) :
    (createLongTransaction accountId instrumentId amount duration price type).Disciplined := by
  refine orderly_bind (disciplined_validateInput ..) fun _ => ?_
  refine orderly_bind (disciplined_send nofun) fun balance => ?_
  split
  · refine orderly_bind (disciplined_send nofun) fun instrument => ?_
    split
    · refine orderly_bind (disciplined_send nofun) fun _ => ?_
      refine orderly_bind disciplined_now fun _ => ?_
      refine orderly_bind (disciplined_ofExcept _) fun _ => ?_
      refine orderly_bind (disciplined_addTrade _) fun _ => ?_
      exact orderly_bind disciplined_saveChangesOrRollback fun _ => trivial
    · trivial
  · trivial

theorem disciplined_processLongBuy (trade : Trade) (instrument : Instrument) (price : Price)
    (product : Product) : (processLongBuy trade instrument price product).Disciplined := by
  unfold processLongBuy
  split
  · trivial
  · refine orderly_bind (disciplined_send nofun) fun _ => ?_
    refine orderly_bind (disciplined_deref _) fun _ => ?_
    simp only
    split
    · exact disciplined_closeTrade ..
    · refine orderly_bind (disciplined_updateBalance ..) fun _ => ?_
      exact orderly_bind (disciplined_updateOwnedInstrument ..) fun _ => disciplined_closeTrade ..

theorem disciplined_processLongSell (trade : Trade) (instrument : Instrument) (price : Price)
    (product : Product) : (processLongSell trade instrument price product).Disciplined := by
  unfold processLongSell
  split
  · trivial
  · refine orderly_bind (disciplined_send nofun) fun owned => ?_
    cases owned with
    | none => exact disciplined_closeTrade ..
    | some owned =>
      simp only
      split
      · exact disciplined_closeTrade ..
      · refine orderly_bind (disciplined_send nofun) fun _ => ?_
        refine orderly_bind (disciplined_deref _) fun _ => ?_
        refine orderly_bind (disciplined_updateBalance ..) fun _ => ?_
        exact orderly_bind (disciplined_updateOwned ..) fun _ => disciplined_closeTrade ..

theorem disciplined_processTrade (instruments : List Instrument) (prices : List Price)
    (products : List Product) (trade : Trade) :
    (processTrade instruments prices products trade).Disciplined := by
  refine orderly_bind (disciplined_item ..) fun _ => orderly_bind (disciplined_item ..) fun _ => ?_
  refine orderly_bind (disciplined_item ..) fun _ => ?_
  have saves : ∀ p : Task Unit, p.Disciplined →
      Task.Disciplined (do p; let _ ← saveChanges) := fun p h =>
    orderly_bind h fun _ => orderly_bind (disciplined_send nofun) fun _ => trivial
  split
  · exact saves _ (disciplined_processLongBuy ..)
  · split
    · exact saves _ (disciplined_processLongSell ..)
    · exact saves _ (disciplined_closeTrade ..)

theorem disciplined_processLongRunningTransactions :
    processLongRunningTransactions.Disciplined := by
  refine orderly_bind (disciplined_send nofun) fun _ => ?_
  refine orderly_bind disciplined_closeOverdueTrades fun _ => ?_
  refine orderly_bind (disciplined_send nofun) fun _ => ?_
  refine orderly_bind (disciplined_send nofun) fun _ => ?_
  refine orderly_bind (disciplined_send nofun) fun _ => ?_
  refine orderly_bind (disciplined_toDictionary ..) fun _ => ?_
  refine orderly_bind (disciplined_send nofun) fun _ => ?_
  refine orderly_bind (disciplined_toDictionary ..) fun _ => ?_
  refine orderly_bind (disciplined_send nofun) fun _ => ?_
  refine orderly_bind (disciplined_toDictionary ..) fun _ => ?_
  refine orderly_bind (orderly_forEach (fun _ => disciplined_processTrade ..) _) fun _ => ?_
  exact orderly_bind disciplined_saveChangesOrRollback fun _ => trivial

end LongTradeService

/-- No request goes on after a refused command. -/
theorem disciplined_handle (request : Request) : (handle request).Disciplined := by
  cases request with
  | deposit => exact orderly_bind (disciplined_modifyBalance ..) fun _ => trivial
  | withdraw => exact orderly_bind (disciplined_modifyBalance ..) fun _ => trivial
  | buyAssets => exact orderly_bind (TradeService.disciplined_buyAssets ..) fun _ => trivial
  | sellAssets => exact orderly_bind (TradeService.disciplined_sellAssets ..) fun _ => trivial
  | longBuyAssets =>
    exact orderly_bind (LongTradeService.disciplined_createLongTransaction ..) fun _ => trivial
  | longSellAssets =>
    exact orderly_bind (LongTradeService.disciplined_createLongTransaction ..) fun _ => trivial
  | processLongRunningTransactions =>
    exact orderly_bind LongTradeService.disciplined_processLongRunningTransactions fun _ => trivial

/-- A call that returns is a run of its request on the book. -/
theorem Call.eval_of_ok {c : DecimalColumn} {call : Call} {g : Server} (valid : g.tables.Valid)
    {response : Response} (ok : (call.exec c g).1 = .ok response) :
    ∃ μ, call.request.eval call.env g.tables = .ok (response, μ) ∧
      Exact g (call.exec c g).2.1 (call.exec c g).2.2 ∧
      Related c g.tables (call.exec c g).2.1 μ :=
  (disciplined_handle call.request).exec_simulated (machine_simulated c g)
    ⟨exact_start call.env g, related_start c call.env valid⟩ ok

/-- A run of a request on the book is the call in which nothing is refused. -/
theorem Call.exec_of_eval {c : DecimalColumn} {call : Call} {g : Server} (valid : g.tables.Valid)
    (undisturbed : call.refuses = fun _ => false) {response : Response} {μ : Book}
    (ok : call.request.eval call.env g.tables = .ok (response, μ)) :
    (call.exec c g).1 = .ok response := by
  rw [Call.exec, undisturbed]
  exact (disciplined_handle call.request).eval_simulated (machine_simulated c g)
    (fun _ _ _ _ forward related refused => act_refused related.2 forward refused)
    ⟨exact_start call.env g, related_start c call.env valid⟩ ok

/-- A call that returns is the call in which nothing was refused. -/
theorem Call.exec_undisturbed {c : DecimalColumn} {call : Call} {g : Server}
    {response : Response} (ok : (call.exec c g).1 = .ok response) :
    Call.exec c { call with refuses := fun _ => false } g = call.exec c g :=
  (disciplined_handle call.request).exec_eq (m := machine c) ok

end EasyTrade.Broker
