import EasyTrade.Broker.Turns

/-!
# Turns that return

A turn throws only where the dictionaries do not know its trade or a balance is missing
that it reads: where there is no verdict.
-/

namespace EasyTrade.Broker

open EasyTrade.Store EasyTrade.Ledger EasyTrade.Logic EasyTrade.Logic.Program

variable {μ μ' : Book} {db : Database} {now : Int} {t : Trade} {q : Quote}

/-- The program returns on the book. -/
def Returns {α : Type} (p : Task α) (μ : Book) : Prop :=
  ∃ a ν, p.eval Book.act .refused μ = .ok (a, ν)

/-- Every account with a balance is answered with one. -/
theorem Book.ask_balance_isSome (ν : Book) {accountId : Int}
    (hasBalance : (ν.saved.db.balanceOf accountId).isSome = true) :
    ∃ row, ν.ask (.balanceOfAccount accountId) = some row := by
  obtain ⟨row, found⟩ := Option.isSome_iff_exists.mp hasBalance
  exact ⟨_, congrArg (Option.map _) found⟩

/-- Money moves where the owner has a balance for the fee. -/
theorem updateBalance_returns {balance : Balance} {amount ppt : ℚ} {type : ActionType}
    (owner : (μ.saved.db.balanceOf ownerId).isSome = true) :
    Returns (TradeServiceBase.updateBalance balance amount ppt type) μ := by
  unfold Returns TradeServiceBase.updateBalance TradeServiceBase.collectFee
  simp only [eval_bind_ok, eval_now_ok, eval_addBalanceHistory_ok, eval_putBalance_ok,
    eval_getBalanceOfAccount_ok, eval_deref_ok, and_assoc, exists_and_left, exists_eq_left,
    exists_const, Book.pending_stage, Book.env_stage, Book.stage_stage]
  rw [exists_comm]
  exact Exists.imp (fun row asked => ⟨_, asked, rfl⟩) (Book.ask_balance_isSome (μ.stage _) owner)

theorem updateOwned_returns {owned : OwnedInstrument} {amount : ℚ} :
    Returns (TradeServiceBase.updateOwned owned amount) μ := by
  unfold Returns TradeServiceBase.updateOwned
  simp

theorem updateOwnedInstrument_returns {accountId instrumentId : Int} {amount : ℚ} :
    Returns (TradeServiceBase.updateOwnedInstrument accountId instrumentId amount) μ := by
  unfold Returns TradeServiceBase.updateOwnedInstrument
  simp only [eval_bind_ok, eval_getOwnedInstrument_ok, and_assoc, exists_and_left, exists_eq_left]
  cases μ.ask (.ownedInstrument accountId instrumentId) with
  | none => simp
  | some row => exact updateOwned_returns

theorem closeTrade_returns {status : String} {happened : Bool} :
    Returns (LongTradeService.closeTrade t status happened) μ :=
  ⟨(), _, eval_closeTrade_ok.mpr rfl⟩

theorem returns_bind {α β : Type} {p : Task α} {f : α → Task β} (first : Returns p μ)
    (second : ∀ a ν, p.eval Book.act .refused μ = .ok (a, ν) → Returns (f a) ν) :
    Returns (p >>= f) μ := by
  obtain ⟨a, ν, ended⟩ := first
  obtain ⟨b, ξ, ended'⟩ := second a ν ended
  exact ⟨b, ξ, eval_bind_ok.mpr ⟨a, ν, ended, ended'⟩⟩

/-- A program that goes on from a given value and a given book. -/
theorem returns_bind_of_eq {α β : Type} {p : Task α} {f : α → Task β} {a : α} {ν : Book}
    (first : p.eval Book.act .refused μ = .ok (a, ν)) (second : Returns (f a) ν) :
    Returns (p >>= f) μ := by
  obtain ⟨b, ξ, ended⟩ := second
  exact ⟨b, ξ, eval_bind_ok.mpr ⟨a, ν, first, ended⟩⟩

/-- Saving and committing in a transaction. -/
theorem saveChangesOrRollback_returns (unnumbered : μ.pending.Unnumbered)
    (opened : μ.inTransaction = true) : Returns saveChangesOrRollback μ := by
  have body : Returns (do
      let saved ← saveChanges
      commitTransaction
      return saved) μ := by
    refine returns_bind_of_eq (eval_saveChanges_ok.mpr ⟨unnumbered, rfl, rfl⟩) ?_
    refine returns_bind_of_eq (a := ()) (eval_commitTransaction_ok.mpr ⟨opened, rfl⟩) ?_
    exact ⟨_, _, rfl⟩
  obtain ⟨saved, ν, ended⟩ := body
  exact ⟨saved, ν, eval_tryCatch_of_ok ended⟩

/-- The balance of the account and the owner, where the turn settles the trade. -/
theorem processLongBuy_returns {instrument : Instrument} {v : Verdict} (idle : μ.pending = {})
    (direction : t.isLongBuy = true) (verdict : t.verdict q μ.saved.db.position = some v) :
    Returns (LongTradeService.processLongBuy t instrument q.price q.product) μ := by
  unfold LongTradeService.processLongBuy
  split
  · exact ⟨(), μ, rfl⟩
  · rename_i met
    have asked : μ.ask (.balanceOfAccount t.accountId) = μ.saved.db.balanceOf t.accountId :=
      Book.ask_balanceOfAccount (by rw [idle]) _
    refine returns_bind_of_eq (eval_getBalanceOfAccount_ok.mpr ⟨rfl, rfl⟩) ?_
    rw [asked]
    cases found : μ.saved.db.balanceOf t.accountId with
    | none =>
      simp [Trade.verdict, Trade.limitMet, direction, met, balance_of_balanceOf found] at verdict
    | some balance =>
      refine returns_bind_of_eq (eval_deref_ok.mpr ⟨rfl, rfl⟩) ?_
      dsimp only
      split
      · exact closeTrade_returns
      · rename_i covered
        have owner : (μ.saved.db.balanceOf ownerId).isSome = true := by
          rw [Option.isSome_iff_ne_none]
          intro missing
          simp [Trade.verdict, Trade.limitMet, Trade.covered, direction, met, not_lt.1 covered,
            balance_of_balanceOf found, balance_of_balanceOf missing] at verdict
        refine returns_bind (updateBalance_returns owner) fun _ ν charged => ?_
        exact returns_bind updateOwnedInstrument_returns fun _ _ _ => closeTrade_returns

theorem processLongSell_returns {instrument : Instrument} {v : Verdict} (idle : μ.pending = {})
    (direction : t.isLongSell = true) (same : instrument.id = t.instrumentId)
    (verdict : t.verdict q μ.saved.db.position = some v) :
    Returns (LongTradeService.processLongSell t instrument q.price q.product) μ := by
  have notBuy := isLongBuy_of_isLongSell direction
  unfold LongTradeService.processLongSell
  split
  · exact ⟨(), μ, rfl⟩
  · rename_i met
    have asked : μ.ask (.ownedInstrument t.accountId t.instrumentId) =
        μ.saved.db.ownedOf t.accountId t.instrumentId :=
      Book.ask_ownedInstrument (by rw [idle]) _ _
    refine returns_bind_of_eq (eval_getOwnedInstrument_ok.mpr ⟨rfl, rfl⟩) ?_
    rw [same, asked]
    cases isOwned : μ.saved.db.ownedOf t.accountId t.instrumentId with
    | none => exact closeTrade_returns
    | some owned =>
      simp only
      split
      · exact closeTrade_returns
      · rename_i enough
        have both : (μ.saved.db.balanceOf t.accountId).isSome = true ∧
            (μ.saved.db.balanceOf ownerId).isSome = true := by
          rw [Option.isSome_iff_ne_none, Option.isSome_iff_ne_none]
          constructor <;>
            (intro missing
             simp [Trade.verdict, Trade.limitMet, Trade.covered, notBuy, direction, met,
               not_lt.1 enough, holding_of_ownedOf isOwned, balance_of_balanceOf missing] at verdict)
        obtain ⟨balance, found⟩ := Option.isSome_iff_exists.mp both.1
        have asked : μ.ask (.balanceOfAccount t.accountId) = some balance :=
          (Book.ask_balanceOfAccount (by rw [idle]) _).trans found
        refine returns_bind_of_eq (eval_getBalanceOfAccount_ok.mpr ⟨rfl, rfl⟩) ?_
        refine returns_bind_of_eq (eval_deref_ok.mpr ⟨asked, rfl⟩) ?_
        refine returns_bind (updateBalance_returns both.2) fun _ ν charged => ?_
        exact returns_bind updateOwned_returns fun _ _ _ => closeTrade_returns

/-- A new holding leaves its identifier to the database. -/
theorem Moved.unnumbered {accountId instrumentId : Int} {amount : ℚ} {news olds : List OwnedInstrument}
    (moved : Moved db now accountId instrumentId amount news olds) : ∀ r ∈ news, r.id = 0 := by
  cases moved with
  | created => exact fun r inRows => by rw [List.mem_singleton.mp inRows]; rfl
  | changed => exact List.forall_mem_nil _

/-- New rows of a turn leave their identifier to the database. -/
theorem Turned.unnumbered {v : Verdict} {b : Batch} (turned : Turned db now t q v b) :
    b.Unnumbered := by
  refine ⟨by rw [turned.trades.1]; exact List.forall_mem_nil _, ?_⟩
  cases turned with
  | unsettled => exact List.forall_mem_nil _
  | settled verdict inserted updated settles => exact settles.moved.unnumbered

/-- A turn returns where the dictionaries know the trade and there is a verdict. -/
theorem processTrade_returns {prices : List Price} {v : Verdict} (idle : μ.pending = {})
    (known : quote μ.saved.db.instruments prices μ.saved.db.products t = some q)
    (verdict : t.verdict q μ.saved.db.position = some v) :
    Returns (LongTradeService.processTrade μ.saved.db.instruments prices μ.saved.db.products t)
      μ := by
  simp only [quote, Option.bind_eq_bind, Option.bind_eq_some_iff, Option.pure_def,
    Option.some.injEq] at known
  obtain ⟨instrument, isInstrument, price, isPrice, product, isProduct, rfl⟩ := known
  have saves : ∀ ν : Book, μ.TurnOf t ⟨price, product⟩ ν →
      Returns (saveChanges >>= fun _ => (pure () : Task Unit)) ν := by
    rintro ν ⟨v, b, turned, staged, -⟩
    have unnumbered : ν.pending.Unnumbered := by
      rw [staged.pending]
      exact turned.unnumbered
    exact returns_bind_of_eq (eval_saveChanges_ok.mpr ⟨unnumbered, rfl, rfl⟩) ⟨(), _, rfl⟩
  unfold LongTradeService.processTrade
  refine returns_bind_of_eq (eval_item_ok.mpr ⟨isInstrument, rfl⟩) ?_
  refine returns_bind_of_eq (eval_item_ok.mpr ⟨isPrice, rfl⟩) ?_
  refine returns_bind_of_eq (eval_item_ok.mpr ⟨isProduct, rfl⟩) ?_
  split
  · rename_i direction
    refine returns_bind (processLongBuy_returns (q := ⟨price, product⟩) idle direction verdict)
      fun _ ν processed => saves ν ?_
    exact processLongBuy_turn idle direction isInstrument isProduct processed
  · rename_i notBuy
    split
    · rename_i direction
      refine returns_bind (processLongSell_returns (q := ⟨price, product⟩) idle direction
        (key_of_lookup isInstrument) verdict) fun _ ν processed => saves ν ?_
      exact processLongSell_turn idle direction isInstrument isProduct processed
    · rename_i notSell
      refine returns_bind closeTrade_returns fun _ ν processed => saves ν (turn_failed idle ?_ processed)
      have foreign : t.isLongBuy = false ∧ t.isLongSell = false :=
        ⟨Bool.eq_false_of_not_eq_true notBuy, Bool.eq_false_of_not_eq_true notSell⟩
      simp [Trade.verdict, foreign]

end EasyTrade.Broker
