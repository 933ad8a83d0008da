import EasyTrade.Broker.Fates
import EasyTrade.Broker.Interchange

/-!
# Trades whose settlement data is missing

A pass looks up the candle and the product of every open trade and reads the balance of
its account, and it throws where one of them is missing. The trades of a pass are saved
together, so one such trade keeps all others, and the overdue ones, as they were. When
that makes a difference is decided by the tables and the price list alone
(`bad_trades_isolated_iff`).
-/

namespace EasyTrade.Broker

open EasyTrade.Store EasyTrade.Ledger EasyTrade.Logic

variable {c : DecimalColumn} {g : Server} {db : Database} {env : Env} {t : Trade} {q : Quote}
  {v : Verdict} {p p₀ : Position Int Int ℚ}

/-! ## Bad trades -/

namespace Database

/-- The trade is going to have a turn. -/
def takesTurn (env : Env) (t : Trade) : Bool := t.isOpen && !t.isOverdue env.now

/-- The trade is going to have a turn, and there is no candle for its instrument, no product
or no balance of its account. -/
def isBad (db : Database) (env : Env) (t : Trade) : Bool :=
  takesTurn env t && ((db.quotes env t).isNone || (db.balanceOf t.accountId).isNone)

/-- The trade is going to have a turn, and nothing is missing. -/
def isGood (db : Database) (env : Env) (t : Trade) : Bool := takesTurn env t && !db.isBad env t

/-- The tables without the bad trades. -/
def spared (db : Database) (env : Env) : Database :=
  { db with trades := db.trades.filter fun t => !db.isBad env t }

/-- What is missing of the bad trade is asked for: its candle or its product always, its
balance where its limit is met, of a sale only if the holding covers it. -/
def blocks (db : Database) (env : Env) (t : Trade) : Bool :=
  match db.quotes env t with
  | none => true
  | some q => t.limitMet q.price &&
      (t.isLongBuy || (t.isLongSell && t.covered q.product.ppt db.position))

/-- The trade is to be settled: its limit is met, and its account covers it. -/
def due (db : Database) (env : Env) (t : Trade) : Bool :=
  (db.quotes env t).any fun q => (t.isLongBuy || t.isLongSell) && t.limitMet q.price &&
    t.covered q.product.ppt db.position

/-- The trade waits for its price. -/
def waits (db : Database) (env : Env) (t : Trade) : Bool :=
  (db.quotes env t).any fun q => (t.isLongBuy || t.isLongSell) && !t.limitMet q.price

end Database

/-- The server without the bad trades. -/
def Server.spared (g : Server) (env : Env) : Server :=
  { g with tables := { g.tables with db := g.tables.db.spared env } }

/-- The row of a trade, decimal columns aside. -/
def Server.row (g : Server) (t : Trade) : Option Trade :=
  lookup Trade.id t.id (g.tables.db.trades.map Trade.blank)

/-- A pass leaves every trade that is not bad as it would have without the bad trades. -/
def Isolated (c : DecimalColumn) (g : Server) (env : Env) : Prop :=
  ∀ t ∈ g.tables.db.trades, g.tables.db.isBad env t = false →
    (serve c g env.process).row t = (serve c (g.spared env) env.process).row t

/-! ## Verdicts -/

/-- Where a trade has no verdict. -/
theorem Trade.verdict_eq_none : t.verdict q p = none ↔
    (t.isLongBuy = true ∨ t.isLongSell = true) ∧ t.limitMet q.price = true ∧
      ((t.isLongBuy = true ∧ p.balance t.accountId = none) ∨
        (t.covered q.product.ppt p = true ∧
          (p.balance t.accountId = none ∨ p.balance ownerId = none))) := by
  unfold Trade.verdict
  cases isBuy : t.isLongBuy <;> cases isSell : t.isLongSell <;>
    cases met : t.limitMet q.price <;> cases covered : t.covered q.product.ppt p <;>
    cases account : p.balance t.accountId <;> cases owner : p.balance ownerId <;> simp

/-- What is settled is covered, and both balances are there. -/
theorem Trade.of_happened {type : ActionType} (verdict : t.verdict q p = some (.happened type)) :
    (p.balance t.accountId).isSome = true ∧ (p.balance ownerId).isSome = true := by
  unfold Trade.verdict at verdict
  split_ifs at verdict with _ _ _ _ missing <;> cases verdict
  rw [Bool.or_eq_true, not_or, Option.isNone_iff_eq_none, Option.isNone_iff_eq_none] at missing
  exact ⟨Option.isSome_iff_ne_none.mpr missing.1, Option.isSome_iff_ne_none.mpr missing.2⟩

/-- Accounts have balances as before, and accounts without one hold what they held. -/
structure Kept (p₀ p : Position Int Int ℚ) : Prop where
  balance : ∀ a, (p.balance a).isSome = (p₀.balance a).isSome
  holding : ∀ a, p₀.balance a = none → p.holding a = p₀.holding a

namespace Kept

theorem refl (p : Position Int Int ℚ) : Kept p p := ⟨fun _ => rfl, fun _ _ => rfl⟩

theorem balance_eq_none (kept : Kept p₀ p) {a : Int} :
    p.balance a = none ↔ p₀.balance a = none := by
  rw [← Option.not_isSome_iff_eq_none, kept.balance, Option.not_isSome_iff_eq_none]

/-- Every turn keeps it. -/
theorem settle (kept : Kept p₀ p) (verdict : t.verdict q p = some v) (fee : ℚ) :
    Kept p₀ (v.settle t fee p) := by
  cases v with
  | waiting => exact kept
  | failed => exact kept
  | happened type =>
    have account := (Trade.of_happened verdict).1
    refine ⟨fun a => ?_, fun a none => ?_⟩
    · rw [← kept.balance a]
      simp [Verdict.settle, Trade.settleOn]
    · have apart : a ≠ t.accountId := by
        rintro rfl
        rw [kept.balance, none] at account
        cases account
      rw [← kept.holding a none]
      simp [Verdict.settle, Trade.settleOn, apart]

/-- Without a balance, whether a holding covers a sale does not change. -/
theorem covered_eq (kept : Kept p₀ p) (none : p₀.balance t.accountId = none) (fee : ℚ) :
    t.covered fee p = t.covered fee p₀ := by
  unfold Trade.covered
  rw [kept.balance_eq_none.mpr none, none, kept.holding _ none]

end Kept

/-! ## Turns of good and of bad trades -/

section Turns

variable {s s' : Progress}

theorem mem_takesTurn {env : Env} : Database.takesTurn env t = true ↔
    t.isOpen = true ∧ t.isOverdue env.now = false := by
  simp [Database.takesTurn]

/-- A good trade has a quote and its account a balance. -/
theorem of_isGood (good : db.isGood env t = true) :
    Database.takesTurn env t = true ∧ db.isBad env t = false ∧
      (∃ q, db.quotes env t = some q) ∧ (db.position.balance t.accountId).isSome = true := by
  simp only [Database.isGood, Bool.and_eq_true, Bool.not_eq_true'] at good
  obtain ⟨takes, notBad⟩ := good
  refine ⟨takes, notBad, ?_⟩
  simp only [Database.isBad, takes, Bool.true_and, Bool.or_eq_false_iff, Option.isNone_eq_false_iff]
    at notBad
  refine ⟨Option.isSome_iff_exists.mp notBad.1, ?_⟩
  rw [Database.position, Option.isSome_map]
  exact notBad.2

/-- The account of a bad trade with a quote has no balance. -/
theorem balance_of_isBad (bad : db.isBad env t = true) (isQuote : db.quotes env t = some q) :
    db.position.balance t.accountId = none := by
  simp only [Database.isBad, isQuote, Option.isNone_some, Bool.false_or, Bool.and_eq_true,
    Option.isNone_iff_eq_none] at bad
  exact Option.map_eq_none_iff.mpr bad.2

/-- A bad trade without a quote has no turn. -/
theorem turn_eq_none (isQuote : db.quotes env t = none) :
    Progress.turn (db.quotes env) t s = none := by
  rw [Progress.turn, isQuote, Option.bind_none]

/-- A bad trade that blocks has no turn at any position of the pass. -/
theorem turn_of_blocks (bad : db.isBad env t = true) (blocks : db.blocks env t = true)
    (kept : Kept db.position s.position) : Progress.turn (db.quotes env) t s = none := by
  cases isQuote : db.quotes env t with
  | none => exact turn_eq_none isQuote
  | some q =>
    have missing := balance_of_isBad bad isQuote
    simp only [Database.blocks, isQuote, Bool.and_eq_true, Bool.or_eq_true] at blocks
    obtain ⟨met, side⟩ := blocks
    have noVerdict : t.verdict q s.position = none := by
      refine Trade.verdict_eq_none.mpr ⟨side.imp_right And.left, met, ?_⟩
      rw [kept.balance_eq_none, kept.covered_eq missing]
      exact side.imp (fun isBuy => ⟨isBuy, missing⟩) fun isSell => ⟨isSell.2, .inl missing⟩
    rw [turn_eq isQuote, noVerdict, Option.map_none]

/-- A bad trade that does not block has a turn that does nothing but give it a verdict. -/
theorem turn_of_not_blocks (bad : db.isBad env t = true) (free : db.blocks env t = false)
    (kept : Kept db.position s.position) :
    ∃ v, Progress.turn (db.quotes env) t s = some ⟨s.position, Function.update s.verdict t v⟩ := by
  cases isQuote : db.quotes env t with
  | none => simp [Database.blocks, isQuote] at free
  | some q =>
    have missing := balance_of_isBad bad isQuote
    cases verdict : t.verdict q s.position with
    | none =>
      obtain ⟨isLong, met, unread⟩ := Trade.verdict_eq_none.mp verdict
      rw [kept.covered_eq missing] at unread
      have blocks : db.blocks env t = true := by
        simp only [Database.blocks, isQuote, met, Bool.true_and, Bool.or_eq_true,
          Bool.and_eq_true]
        rcases unread with ⟨isBuy, -⟩ | ⟨covered, -⟩
        · exact .inl isBuy
        · exact isLong.imp_right fun isSell => ⟨isSell, covered⟩
      rw [blocks] at free
      cases free
    | some v =>
      refine ⟨v, ?_⟩
      rw [turn_eq isQuote, verdict, Option.map_some]
      cases v with
      | waiting => rfl
      | failed => rfl
      | happened type =>
        have account := (Trade.of_happened verdict).1
        rw [kept.balance, missing] at account
        cases account

/-- The turn of a good trade while the owner has a balance. -/
theorem turn_of_owner (good : db.isGood env t = true)
    (owner : (db.position.balance ownerId).isSome = true) (kept : Kept db.position s.position) :
    ∃ s', Progress.turn (db.quotes env) t s = some s' ∧ Kept db.position s'.position := by
  obtain ⟨-, -, ⟨q, isQuote⟩, account⟩ := of_isGood good
  obtain ⟨v, verdict⟩ := @Trade.exists_verdict t q s.position
    ((kept.balance _).trans account) ((kept.balance _).trans owner)
  exact ⟨_, by rw [turn_eq isQuote, verdict, Option.map_some], kept.settle verdict _⟩

/-- Without a balance of the owner, no good trade is settled, and one that is due has no turn. -/
theorem turn_of_no_owner (good : db.isGood env t = true) (owner : db.position.balance ownerId = none)
    (position : s.position = db.position) :
    (db.due env t = true → Progress.turn (db.quotes env) t s = none) ∧
      (db.due env t = false → ∃ s', Progress.turn (db.quotes env) t s = some s') ∧
      ∀ s', Progress.turn (db.quotes env) t s = some s' → s'.position = db.position := by
  obtain ⟨-, -, ⟨q, isQuote⟩, account⟩ := of_isGood good
  have isDue : db.due env t = true ↔ t.verdict q s.position = none := by
    rw [position, Trade.verdict_eq_none, owner]
    simp only [Database.due, isQuote, Option.any_some, Bool.and_eq_true, Bool.or_eq_true]
    rw [Option.isSome_iff_ne_none] at account
    simp [account, and_assoc]
  rw [turn_eq isQuote]
  refine ⟨fun due => by rw [isDue.mp due, Option.map_none], fun notDue => ?_, fun s' turned => ?_⟩
  · cases verdict : t.verdict q s.position with
    | none =>
      rw [isDue.mpr verdict] at notDue
      cases notDue
    | some v => exact ⟨_, rfl⟩
  · obtain ⟨v, verdict, rfl⟩ := Option.map_eq_some_iff.mp turned
    rw [position] at verdict
    cases v with
    | waiting => exact position
    | failed => exact position
    | happened type =>
      have hasOwner := (Trade.of_happened verdict).2
      rw [owner] at hasOwner
      cases hasOwner

end Turns

/-! ## Passes with and without the bad trades -/

/-- The trades of a pass are those that take a turn. -/
theorem Database.queue_eq (db : Database) (env : Env) :
    db.queue env = Trade.arrange env.rank (db.trades.filter (takesTurn env)) := by
  have open_ : (db.swept env.now).filter Trade.isOpen = db.trades.filter (takesTurn env) := by
    unfold Database.swept
    induction db.trades with
    | nil => rfl
    | cons t rest ih =>
      cases overdue : t.isOverdue env.now with
      | true =>
        have swept : t.sweep env.now = t.expire := if_pos overdue
        have closed : t.expire.isOpen = false := rfl
        rw [List.map_cons, swept, List.filter_cons_of_neg (by simp [closed]), ih,
          List.filter_cons_of_neg (by simp [takesTurn, overdue])]
      | false =>
        have swept : t.sweep env.now = t := if_neg (by simp [overdue])
        rw [List.map_cons, swept]
        cases isOpen : t.isOpen with
        | true =>
          rw [List.filter_cons_of_pos isOpen, ih,
            List.filter_cons_of_pos (by simp [takesTurn, overdue, isOpen])]
        | false =>
          rw [List.filter_cons_of_neg (by simp [isOpen]), ih,
            List.filter_cons_of_neg (by simp [takesTurn, isOpen])]
  rw [Database.queue, open_]

theorem Database.mem_queue_iff : t ∈ db.queue env ↔
    t ∈ db.trades ∧ Database.takesTurn env t = true := by
  rw [queue_eq, Trade.arrange, List.mem_insertionSort, List.mem_filter]

/-- Without the bad trades the others take their turns in the same order. -/
theorem Database.queue_spared (db : Database) (env : Env) :
    (db.spared env).queue env = (db.queue env).filter fun t => !db.isBad env t := by
  rw [queue_eq, queue_eq, Trade.arrange, Trade.arrange, filter_insertionSort, spared,
    List.filter_filter, List.filter_filter]
  simp only [Bool.and_comm]

/-- The trades of a pass without the bad ones are good. -/
theorem Database.isGood_of_mem (listed : t ∈ (db.spared env).queue env) :
    t ∈ db.queue env ∧ db.isGood env t = true := by
  rw [queue_spared, List.mem_filter, Bool.not_eq_true'] at listed
  have takes := (mem_queue_iff.mp listed.1).2
  exact ⟨listed.1, by rw [isGood, takes, listed.2]; rfl⟩

theorem Database.mem_spared_queue (inTable : t ∈ db.trades) (good : db.isGood env t = true) :
    t ∈ (db.spared env).queue env := by
  obtain ⟨takes, notBad, -⟩ := of_isGood good
  rw [queue_spared, List.mem_filter, notBad]
  exact ⟨mem_queue_iff.mpr ⟨inTable, takes⟩, rfl⟩

/-- A bad trade that blocks ends the pass. -/
theorem passed_of_blocks (inTable : t ∈ db.trades) (bad : db.isBad env t = true)
    (blocks : db.blocks env t = true) : db.passed env = none := by
  have takes : Database.takesTurn env t = true := by
    rw [Database.isBad, Bool.and_eq_true] at bad
    exact bad.1
  refine pass_eq_none (fun x _ s s' (kept : Kept db.position s.position) turned => ?_)
    (Database.mem_queue_iff.mpr ⟨inTable, takes⟩) (fun s kept => turn_of_blocks bad blocks kept)
    (show Kept db.position (Progress.start db.position).position from Kept.refl _)
  simp only [Progress.turn, Option.bind_eq_some_iff, Option.map_eq_some_iff] at turned
  obtain ⟨q, -, v, verdict, rfl⟩ := turned
  exact kept.settle verdict _

/-- Bad trades that do not block make no difference to a pass. -/
theorem passed_of_not_blocks (free : ∀ t ∈ db.trades, db.isBad env t = true →
    db.blocks env t = false) :
    Option.Rel (fun s s' => ∀ t, db.isBad env t = false → s.verdict t = s'.verdict t)
      (db.passed env) ((db.spared env).passed env) := by
  have related : Option.Rel (fun s s' : Progress => s.position = s'.position ∧
      Kept db.position s.position ∧ ∀ t, db.isBad env t = false → s.verdict t = s'.verdict t)
      (db.passed env) ((db.spared env).passed env) := by
    rw [Database.passed, Database.passed, Database.queue_spared]
    refine pass_filter _ (fun x _ _ s s' => ?_) (fun x listed bad s s' => ?_)
      ⟨rfl, Kept.refl _, fun _ _ => rfl⟩
    · rintro ⟨position, kept, same⟩
      cases isQuote : db.quotes env x with
      | none =>
        rw [turn_eq_none isQuote, turn_eq_none isQuote]
        exact .none
      | some q =>
        rw [turn_eq isQuote, turn_eq isQuote, ← position]
        cases verdict : x.verdict q s.position with
        | none => exact .none
        | some v =>
          refine .some ⟨rfl, kept.settle verdict _, fun y notBad => ?_⟩
          change Function.update s.verdict x v y = Function.update s'.verdict x v y
          by_cases isX : y = x
          · rw [isX, Function.update_self, Function.update_self]
          · rw [Function.update_of_ne isX, Function.update_of_ne isX, same y notBad]
    · rintro ⟨position, kept, same⟩
      have bad : db.isBad env x = true := by simpa using bad
      have inTable := (Database.mem_queue_iff.mp listed).1
      obtain ⟨v, turned⟩ := turn_of_not_blocks bad (free x inTable bad) kept
      refine ⟨_, turned, position, kept, fun y notBad => ?_⟩
      have apart : y ≠ x := by
        rintro rfl
        rw [bad] at notBad
        cases notBad
      exact (Function.update_of_ne apart v s.verdict).trans (same y notBad)
  generalize db.passed env = ends, (db.spared env).passed env = ends' at related
  cases related with
  | none => exact .none
  | some both => exact .some both.2.2

/-- Without the bad trades a pass ends, if not for a trade that is due while the owner has
no balance. -/
theorem spared_passed_eq_none : (db.spared env).passed env = none ↔
    db.balanceOf ownerId = none ∧ ∃ t ∈ db.trades, db.isGood env t = true ∧ db.due env t = true := by
  have isOwner : db.position.balance ownerId = none ↔ db.balanceOf ownerId = none :=
    Option.map_eq_none_iff
  constructor
  · intro endless
    have owner : db.position.balance ownerId = none := by
      by_contra present
      have goes : ∀ x ∈ (db.spared env).queue env, ∀ s : Progress, Kept db.position s.position →
          ∃ s', Progress.turn (db.quotes env) x s = some s' ∧ Kept db.position s'.position :=
        fun x listed s kept => turn_of_owner (Database.isGood_of_mem listed).2
          (Option.isSome_iff_ne_none.mpr present) kept
      obtain ⟨s', ends, -⟩ := exists_pass goes
        (show Kept db.position (Progress.start db.position).position from Kept.refl _)
      exact Option.some_ne_none s' (ends.symm.trans endless)
    refine ⟨isOwner.mp owner, ?_⟩
    by_contra noneDue
    push Not at noneDue
    have goes : ∀ x ∈ (db.spared env).queue env, ∀ s : Progress, s.position = db.position →
        ∃ s', Progress.turn (db.quotes env) x s = some s' ∧ s'.position = db.position := by
      intro x listed s position
      obtain ⟨inQueue, good⟩ := Database.isGood_of_mem listed
      obtain ⟨-, goes, keeps⟩ := turn_of_no_owner good owner position
      have notDue := noneDue x (Database.mem_queue_iff.mp inQueue).1 good
      obtain ⟨s', turned⟩ := goes (Bool.eq_false_of_not_eq_true notDue)
      exact ⟨s', turned, keeps s' turned⟩
    obtain ⟨s', ends, -⟩ := exists_pass goes
      (show (Progress.start db.position).position = db.position from rfl)
    exact Option.some_ne_none s' (ends.symm.trans endless)
  · rintro ⟨missing, t, inTable, good, due⟩
    have owner := isOwner.mpr missing
    refine pass_eq_none (fun x listed s s' (position : s.position = db.position) turned => ?_)
      (Database.mem_spared_queue inTable good)
      (fun s position => (turn_of_no_owner good owner position).1 due)
      (show (Progress.start db.position).position = db.position from rfl)
    exact (turn_of_no_owner (Database.isGood_of_mem listed).2 owner position).2.2 s' turned

/-! ## Rows after the calls -/

theorem valid_spared (valid : g.tables.Valid) : (g.spared env).tables.Valid where
  balances := valid.balances
  trades := (List.filter_sublist.map Trade.id).nodup valid.trades
  owned := valid.owned
  tradeSeed r inSpared := valid.tradeSeed r (List.mem_of_mem_filter inSpared)
  ownedSeed := valid.ownedSeed

/-- The row of a trade after a call whose pass has an end. -/
theorem row_of_passed (c : DecimalColumn) (valid : g.tables.Valid) (keyed : g.tables.db.Keyed env)
    {s : Progress} (ends : g.tables.db.passed env = some s) (inTable : t ∈ g.tables.db.trades) :
    (serve c g env.process).row t =
      some ((s.verdict (t.sweep env.now)).row (t.sweep env.now)).blank := by
  obtain ⟨μ, served⟩ := serve_of_ok valid (process_returns c valid keyed ends)
  obtain ⟨s', passed⟩ := served.passed valid rfl
  obtain rfl : s' = s := Option.some.inj (passed.passed.symm.trans ends)
  have sameId : (t.sweep env.now).id = t.id := by
    rw [Trade.sweep]
    split <;> rfl
  have unique : (((s'.rows (g.tables.db.swept env.now)).map Trade.blank).map Trade.id).Nodup := by
    have same : ((s'.rows (g.tables.db.swept env.now)).map Trade.blank).map Trade.id =
        (g.tables.db.swept env.now).map Trade.id := by
      rw [Progress.rows, List.map_map, List.map_map]
      exact List.map_congr_left fun x _ => Verdict.id_row _ x
    rw [same]
    exact Database.nodup_swept valid.trades _
  have inRows : ((s'.verdict (t.sweep env.now)).row (t.sweep env.now)).blank ∈
      (s'.rows (g.tables.db.swept env.now)).map Trade.blank :=
    List.mem_map_of_mem (List.mem_map_of_mem (List.mem_map_of_mem inTable))
  have found := lookup_of_mem unique inRows
  have key : ((s'.verdict (t.sweep env.now)).row (t.sweep env.now)).blank.id = t.id :=
    (Verdict.id_row _ _).trans sameId
  rw [key] at found
  rw [Server.row, served.blank_trades, passed.trades]
  exact found

/-- The row of a trade after a call whose pass has no end. -/
theorem row_of_none (c : DecimalColumn) (valid : g.tables.Valid)
    (endless : g.tables.db.Keyed env → g.tables.db.passed env = none)
    (inTable : t ∈ g.tables.db.trades) : (serve c g env.process).row t = some t.blank := by
  have unique : ((g.tables.db.trades.map Trade.blank).map Trade.id).Nodup := by
    rw [List.map_map]
    exact valid.trades
  rw [Server.row, serve_process_of_none c valid endless]
  exact lookup_of_mem unique (List.mem_map_of_mem inTable)

/-- Only a verdict to wait leaves a row open. -/
theorem Verdict.tradeClosed_row (closes : v ≠ .waiting ∨ t.tradeClosed = true) :
    (v.row t).tradeClosed = true := by
  cases v with
  | waiting => exact closes.resolve_left fun different => different rfl
  | failed => rfl
  | happened => rfl

/-- A good trade has the verdict to wait just where it waits for its price. -/
theorem verdict_eq_waiting {s : Progress} (distinct : (db.trades.map Trade.id).Nodup)
    (inTable : t ∈ db.trades) (good : db.isGood env t = true)
    (ends : (db.spared env).passed env = some s) :
    s.verdict t = .waiting ↔ db.waits env t = true := by
  have unique : (((db.spared env).trades).map Trade.id).Nodup :=
    (List.filter_sublist.map Trade.id).nodup distinct
  obtain ⟨q, p, isQuote, verdict⟩ := Progress.verdict_of_mem (Database.nodup_queue unique)
    (Database.mem_spared_queue inTable good) ends
  have isQuote : db.quotes env t = some q := isQuote
  simp only [Database.waits, isQuote, Option.any_some, Bool.and_eq_true, Bool.or_eq_true,
    Bool.not_eq_true']
  rcases Trade.verdict_cases verdict with
    ⟨notBuy, notSell, failed⟩ | ⟨isLong, ⟨unmet, waiting⟩ | ⟨met, ⟨-, -, failed⟩ | ⟨-, happened⟩⟩⟩
  · simp [failed, notBuy, notSell]
  · simp [waiting, isLong, unmet]
  · simp [failed, met]
  · simp [happened, met]

/-- Which trades a pass without the bad trades leaves as they were. -/
theorem row_eq_self {s : Progress} (distinct : (db.trades.map Trade.id).Nodup)
    (inTable : t ∈ db.trades) (ends : (db.spared env).passed env = some s) :
    ((s.verdict (t.sweep env.now)).row (t.sweep env.now)).blank = t.blank ↔
      t.isOverdue env.now = false ∧ (db.isGood env t = true → db.waits env t = true) := by
  cases overdue : t.isOverdue env.now with
  | true =>
    have swept : t.sweep env.now = t.expire := if_pos overdue
    have isOpen : t.tradeClosed = false := by
      simp only [Trade.isOverdue, Trade.isOpen, Bool.and_eq_true, Bool.not_eq_true'] at overdue
      exact overdue.1
    refine iff_of_false (fun same => ?_) fun stays => by cases stays.1
    have closed : (t.blank).tradeClosed = true := by
      rw [← same, swept]
      exact Verdict.tradeClosed_row (.inr rfl)
    cases isOpen.symm.trans closed
  | false =>
    have swept : t.sweep env.now = t := if_neg (by simp [overdue])
    rw [swept]
    cases good : db.isGood env t with
    | true =>
      have takes := mem_takesTurn.mp (of_isGood good).1
      have isOpen : t.tradeClosed = false := by simpa [Trade.isOpen] using takes.1
      rw [← verdict_eq_waiting distinct inTable good ends]
      constructor
      · intro same
        refine ⟨rfl, fun _ => ?_⟩
        by_contra different
        have closed : (t.blank).tradeClosed = true := by
          rw [← same]
          exact Verdict.tradeClosed_row (.inl different)
        cases isOpen.symm.trans closed
      · intro stays
        rw [stays.2 rfl]
        rfl
    | false =>
      have notListed : t ∉ (db.spared env).queue env := fun listed => by
        rw [(Database.isGood_of_mem listed).2] at good
        cases good
      have waiting : s.verdict t = .waiting := Progress.verdict_of_pass notListed ends
      rw [waiting]
      simp [Verdict.row]

/-- A trade that is closed for its time was open before. -/
theorem blank_ne_expire {now : Int} (overdue : t.isOverdue now = true) :
    t.blank ≠ t.expire.blank := by
  intro same
  simp only [Trade.isOverdue, Trade.isOpen, Bool.and_eq_true, Bool.not_eq_true'] at overdue
  have closed := congrArg Trade.tradeClosed same
  exact absurd (overdue.1.symm.trans closed) Bool.false_ne_true

/-! ## When the others are not affected -/

theorem Database.mem_spared : t ∈ (db.spared env).trades ↔
    t ∈ db.trades ∧ db.isBad env t = false := by
  rw [spared, List.mem_filter, Bool.not_eq_true']

/-- Bad trades that do not block leave the others alone. -/
theorem isolated_of_not_blocks (c : DecimalColumn) (valid : g.tables.Valid)
    (keyed : g.tables.db.Keyed env) (free : ∀ t ∈ g.tables.db.trades,
      g.tables.db.isBad env t = true → g.tables.db.blocks env t = false) : Isolated c g env := by
  intro t inTable notBad
  have inSpared := Database.mem_spared.mpr ⟨inTable, notBad⟩
  have related := passed_of_not_blocks free
  cases ends : g.tables.db.passed env with
  | none =>
    cases ends' : (g.tables.db.spared env).passed env with
    | none =>
      rw [row_of_none c valid (fun _ => ends) inTable]
      exact (row_of_none c (valid_spared valid) (fun _ => ends') inSpared).symm
    | some s' =>
      rw [ends, ends'] at related
      cases related
  | some s =>
    cases ends' : (g.tables.db.spared env).passed env with
    | none =>
      rw [ends, ends'] at related
      cases related
    | some s' =>
      rw [ends, ends'] at related
      cases related with
      | some same =>
        have notBad' : g.tables.db.isBad env (t.sweep env.now) = false := by
          cases overdue : t.isOverdue env.now with
          | true =>
            have swept : t.sweep env.now = t.expire := if_pos overdue
            rw [swept]
            rfl
          | false =>
            have swept : t.sweep env.now = t := if_neg (by simp [overdue])
            rw [swept, notBad]
        rw [row_of_passed c valid keyed ends inTable, same _ notBad']
        exact (row_of_passed c (valid_spared valid) keyed ends' inSpared).symm

/-- Where a bad trade blocks, the others are left alone just where nothing had to be done. -/
theorem isolated_iff_of_blocks (c : DecimalColumn) (valid : g.tables.Valid)
    (keyed : g.tables.db.Keyed env) (endless : g.tables.db.passed env = none) :
    Isolated c g env ↔ (g.tables.db.spared env).passed env = none ∨
      ∀ t ∈ g.tables.db.trades, t.isOverdue env.now = false ∧
        (g.tables.db.isGood env t = true → g.tables.db.waits env t = true) := by
  cases ends : (g.tables.db.spared env).passed env with
  | none =>
    refine iff_of_true (fun t inTable notBad => ?_) (.inl rfl)
    rw [row_of_none c valid (fun _ => endless) inTable]
    exact (row_of_none c (valid_spared valid) (fun _ => ends)
      (Database.mem_spared.mpr ⟨inTable, notBad⟩)).symm
  | some s =>
    have rows : ∀ t ∈ g.tables.db.trades, g.tables.db.isBad env t = false →
        ((serve c g env.process).row t = (serve c (g.spared env) env.process).row t ↔
          t.isOverdue env.now = false ∧
            (g.tables.db.isGood env t = true → g.tables.db.waits env t = true)) := by
      intro t inTable notBad
      have after : (serve c (g.spared env) env.process).row t = _ :=
        row_of_passed c (valid_spared valid) keyed ends (Database.mem_spared.mpr ⟨inTable, notBad⟩)
      rw [row_of_none c valid (fun _ => endless) inTable, after, Option.some_inj, eq_comm]
      exact row_eq_self valid.trades inTable ends
    constructor
    · refine fun isolated => .inr fun t inTable => ?_
      cases bad : g.tables.db.isBad env t with
      | false => exact (rows t inTable bad).mp (isolated t inTable bad)
      | true =>
        have takes : Database.takesTurn env t = true := by
          rw [Database.isBad, Bool.and_eq_true] at bad
          exact bad.1
        refine ⟨(mem_takesTurn.mp takes).2, fun good => ?_⟩
        cases bad.symm.trans (of_isGood good).2.1
    · intro idle t inTable notBad
      have stays := idle.resolve_left (Option.some_ne_none s) t inTable
      exact (rows t inTable notBad).mpr stays

/-- With an empty price list every trade that is to have a turn blocks. -/
theorem blocks_of_no_prices (noPrices : env.latestPrices = [])
    (takes : Database.takesTurn env t = true) :
    db.isBad env t = true ∧ db.blocks env t = true := by
  have isQuote : db.quotes env t = none := by
    rw [Database.quotes, quote, noPrices]
    cases lookup Instrument.id t.instrumentId db.instruments <;> rfl
  constructor
  · rw [Database.isBad, takes, isQuote]
    rfl
  · rw [Database.blocks, isQuote]

/-- With an empty price list the overdue trades are closed just where no other trade is to
have a turn, or there are none. -/
theorem closes_overdue_iff (c : DecimalColumn) (valid : g.tables.Valid)
    (keyed : g.tables.db.Keyed env) (noPrices : env.latestPrices = []) :
    (∀ t ∈ g.tables.db.trades, t.isOverdue env.now = true →
        (serve c g env.process).row t = some t.expire.blank) ↔
      (∀ t ∈ g.tables.db.trades, Database.takesTurn env t = false) ∨
        ∀ t ∈ g.tables.db.trades, t.isOverdue env.now = false := by
  by_cases quiet : ∀ t ∈ g.tables.db.trades, Database.takesTurn env t = false
  · refine iff_of_true (fun t inTable overdue => ?_) (.inl quiet)
    have empty : g.tables.db.queue env = [] := List.eq_nil_iff_forall_not_mem.mpr fun x listed => by
      obtain ⟨inTable, takes⟩ := Database.mem_queue_iff.mp listed
      cases (quiet x inTable).symm.trans takes
    have ends : g.tables.db.passed env = some (.start g.tables.db.position) := by
      rw [Database.passed, empty]
      rfl
    have swept : t.sweep env.now = t.expire := if_pos overdue
    rw [row_of_passed c valid keyed ends inTable, swept]
    rfl
  · rw [or_iff_right quiet]
    push Not at quiet
    obtain ⟨x, inTable, takes⟩ := quiet
    obtain ⟨bad, blocks⟩ := blocks_of_no_prices noPrices (Bool.eq_true_of_not_eq_false takes)
    have endless := passed_of_blocks inTable bad blocks
    constructor
    · intro closed t inTable
      by_contra overdue
      have isOverdue := Bool.eq_true_of_not_eq_false overdue
      have row := closed t inTable isOverdue
      rw [row_of_none c valid (fun _ => endless) inTable, Option.some_inj] at row
      exact blank_ne_expire isOverdue row
    · intro none t inTable overdue
      cases (none t inTable).symm.trans overdue

/-- A pass leaves the other trades as without the bad ones just where no bad trade ends it,
or it would not have ended without them either, or it has nothing to close. With an empty
price list, the overdue trades are closed just where there are none or no other trade is
to have a turn. -/
theorem bad_trades_isolated_iff (c : DecimalColumn) (g : Server) (env : Env)
    (valid : g.tables.Valid) :
    let db := g.tables.db
    (Isolated c g env ↔
      (∀ t ∈ db.trades, db.isBad env t = true → db.blocks env t = false) ∨
        ¬db.Keyed env ∨
        (db.balanceOf ownerId = none ∧
          ∃ t ∈ db.trades, db.isGood env t = true ∧ db.due env t = true) ∨
        ∀ t ∈ db.trades, t.isOverdue env.now = false ∧
          (db.isGood env t = true → db.waits env t = true)) ∧
      (env.latestPrices = [] → db.Keyed env →
        ((∀ t ∈ db.trades, t.isOverdue env.now = true →
            (serve c g env.process).row t = some t.expire.blank) ↔
          (∀ t ∈ db.trades, Database.takesTurn env t = false) ∨
            ∀ t ∈ db.trades, t.isOverdue env.now = false)) := by
  intro db
  refine ⟨?_, fun noPrices keyed => closes_overdue_iff c valid keyed noPrices⟩
  by_cases keyed : db.Keyed env
  · by_cases free : ∀ t ∈ db.trades, db.isBad env t = true → db.blocks env t = false
    · exact iff_of_true (isolated_of_not_blocks c valid keyed free) (.inl free)
    · rw [or_iff_right free, or_iff_right (not_not_intro keyed), ← spared_passed_eq_none]
      push Not at free
      obtain ⟨t, inTable, bad, blocks⟩ := free
      exact isolated_iff_of_blocks c valid keyed
        (passed_of_blocks inTable bad (Bool.eq_true_of_not_eq_false blocks))
  · refine iff_of_true (fun t inTable notBad => ?_) (.inr (.inl keyed))
    have inSpared := Database.mem_spared.mpr ⟨inTable, notBad⟩
    rw [row_of_none c valid (fun isKeyed => absurd isKeyed keyed) inTable]
    exact (row_of_none c (valid_spared valid) (fun isKeyed => absurd isKeyed keyed) inSpared).symm

/-- The market with an overdue trade, one whose limit is met and one of an account without
a balance. -/
def Market.missingBalance : Server :=
  { Market.server with tables := { Market.server.tables with
    db := { Market.server.tables.db with
      trades := [openTrade 1 2 "longbuy" 3 100 500, openTrade 2 2 "longbuy" 3 100 90000,
        openTrade 3 4 "longbuy" 1 5 90000] }
    tradeSeed := 4 } }

/-- The market while its prices cannot be had. -/
def Market.noPrices : Env := { Market.env with latestPrices := [] }

/-- The account without a balance does not matter while its trade waits; without prices the
overdue trade of that market stays open. -/
theorem bad_trades_isolated_of_missingBalance :
    Isolated .exact Market.missingBalance Market.env ∧
      ¬∀ t ∈ Market.missingBalance.tables.db.trades, t.isOverdue Market.noPrices.now = true →
        (serve .exact Market.missingBalance Market.noPrices.process).row t =
          some t.expire.blank := by
  have valid : Market.missingBalance.tables.Valid :=
    ⟨by decide, by decide, by decide, by decide, List.forall_mem_nil _⟩
  refine ⟨(bad_trades_isolated_iff .exact _ _ valid).1.mpr (.inl (by decide +kernel)), fun closed => ?_⟩
  have quiet := ((bad_trades_isolated_iff .exact _ _ valid).2 rfl (by decide)).mp closed
  revert quiet
  decide +kernel

/-- Without prices the overdue trade is left open; without the trades that take turns it
would be closed. -/
theorem overdue_trade_stranded :
    ¬Isolated .exact Market.missingBalance Market.noPrices ∧
      (serve .exact Market.missingBalance Market.noPrices.process).row
        (Market.openTrade 1 2 "longbuy" 3 100 500) =
          some (Market.openTrade 1 2 "longbuy" 3 100 500).blank := by
  have before : (serve .exact Market.missingBalance Market.noPrices.process).row
      (Market.openTrade 1 2 "longbuy" 3 100 500) =
        some (Market.openTrade 1 2 "longbuy" 3 100 500).blank := by decide +kernel
  refine ⟨fun isolated => ?_, before⟩
  have same := isolated _ List.mem_cons_self (by decide)
  revert same
  decide +kernel

end EasyTrade.Broker
