import EasyTrade.Broker.Runs
import EasyTrade.Broker.Returns
import EasyTrade.Logic.Commuting

/-!
# Passes over the open trades

A pass closes the overdue trades and then takes each open trade its turn. Without the
book, it is a `pass` of turns over positions and verdicts. The pass on the book returns
just where that one has an end, and then it has the position and the verdicts of that
end in its tables.
-/

namespace EasyTrade.Broker

open EasyTrade.Store EasyTrade.Ledger EasyTrade.Logic EasyTrade.Logic.Program

/-! ## Passes without the book -/

/-- How far a pass has come: the position, and what has been made of each trade. -/
structure Progress where
  position : Position Int Int ℚ
  verdict : Trade → Verdict

namespace Progress

/-- Before the first turn every trade waits. -/
def start (position : Position Int Int ℚ) : Progress := ⟨position, fun _ => .waiting⟩

/-- The turn of a trade. -/
def turn (quotes : Trade → Option Quote) (t : Trade) (s : Progress) : Option Progress :=
  (quotes t).bind fun q => (t.verdict q s.position).map fun v =>
    ⟨v.settle t q.product.ppt s.position, Function.update s.verdict t v⟩

/-- The rows of the trades. -/
def rows (s : Progress) (trades : List Trade) : List Trade := trades.map fun t => (s.verdict t).row t

end Progress

/-- The turns of other trades leave what has been made of a trade. -/
theorem Progress.verdict_of_pass {quotes : Trade → Option Quote} {t : Trade} {rest : List Trade}
    {s s' : Progress} (others : t ∉ rest) (ends : pass (turn quotes) rest s = some s') :
    s'.verdict t = s.verdict t := by
  induction rest generalizing s with
  | nil => rw [Option.some.inj ends]
  | cons x rest ih =>
    rw [pass_cons, Option.bind_eq_some_iff] at ends
    obtain ⟨s₁, turned, ends⟩ := ends
    rw [ih (fun later => others (List.mem_cons_of_mem _ later)) ends]
    simp only [turn, Option.bind_eq_some_iff, Option.map_eq_some_iff] at turned
    obtain ⟨q, -, v, -, rfl⟩ := turned
    have apart : t ≠ x := fun same => others (same ▸ List.mem_cons_self)
    exact Function.update_of_ne apart v s.verdict

/-- What has been made of a trade that had a turn is its verdict at some position. -/
theorem Progress.verdict_of_mem {quotes : Trade → Option Quote} {t : Trade} {items : List Trade}
    {s s' : Progress} (distinct : items.Nodup) (listed : t ∈ items)
    (ends : pass (turn quotes) items s = some s') :
    ∃ q p, quotes t = some q ∧ t.verdict q p = some (s'.verdict t) := by
  induction items generalizing s with
  | nil => cases listed
  | cons x rest ih =>
    obtain ⟨others, distinct⟩ := List.nodup_cons.mp distinct
    rw [pass_cons, Option.bind_eq_some_iff] at ends
    obtain ⟨s₁, turned, ends⟩ := ends
    rcases List.mem_cons.mp listed with rfl | later
    · simp only [turn, Option.bind_eq_some_iff, Option.map_eq_some_iff] at turned
      obtain ⟨q, isQuote, v, verdict, rfl⟩ := turned
      refine ⟨q, s.position, isQuote, ?_⟩
      rw [verdict_of_pass others ends, verdict]
      exact congrArg some (Function.update_self t v s.verdict).symm
    · exact ih distinct later ends

/-- The trade after the sweep. -/
def Trade.sweep (now : Int) (t : Trade) : Trade := if t.isOverdue now then t.expire else t

/-- The trades after the sweep. -/
def Database.swept (db : Database) (now : Int) : List Trade := db.trades.map (Trade.sweep now)

/-- The trades that take turns, in their order. -/
def Database.queue (db : Database) (env : Env) : List Trade :=
  Trade.arrange env.rank ((db.swept env.now).filter Trade.isOpen)

/-- The dictionaries of a pass. -/
def Database.quotes (db : Database) (env : Env) : Trade → Option Quote :=
  quote db.instruments env.latestPrices db.products

/-- The end of a pass, if it has one. -/
def Database.passed (db : Database) (env : Env) : Option Progress :=
  pass (Progress.turn (db.quotes env)) (db.queue env) (.start db.position)

/-- No dictionary of a pass is built from two rows with one key. -/
def Database.Keyed (db : Database) (env : Env) : Prop :=
  (db.instruments.map Instrument.id).Nodup ∧ (env.latestPrices.map Price.instrumentId).Nodup ∧
    (db.products.map Product.id).Nodup

instance (db : Database) (env : Env) : Decidable (db.Keyed env) :=
  inferInstanceAs (Decidable (_ ∧ _))

/-! ## The loop -/

/-- The save has a row of the trade. -/
def Batch.HasRow (b : Batch) (t : Trade) : Prop := ∃ r ∈ b.updatedTrades, r.id = t.id

theorem Batch.hasRow_number {b : Batch} {t : Trade} {tradeSeed ownedSeed : Int} :
    (b.number tradeSeed ownedSeed).HasRow t ↔ b.HasRow t := Iff.rfl

/-- The log has a save that is made of the tables of that moment, and no other save has a
row of the trade. -/
def Moment (base : Tables) (log : List Batch) (t : Trade) (made : Database → Batch → Prop) : Prop :=
  ∃ before p after, log = before ++
      p.number (base.applyAll before).tradeSeed (base.applyAll before).ownedSeed :: after ∧
    made (base.applyAll before).db p ∧ ∀ b ∈ before ++ after, ¬b.HasRow t

namespace Moment

variable {base : Tables} {log more : List Batch} {t : Trade} {made made' : Database → Batch → Prop}

theorem append (moment : Moment base log t made) (quiet : ∀ b ∈ more, ¬b.HasRow t) :
    Moment base (log ++ more) t made := by
  obtain ⟨before, p, after, split, isMade, others⟩ := moment
  refine ⟨before, p, after ++ more, by rw [split, List.append_assoc, List.cons_append], isMade, ?_⟩
  intro b inLog
  rw [← List.append_assoc] at inLog
  exact (List.mem_append.mp inLog).elim (others b) (quiet b)

theorem imp (moment : Moment base log t made) (weaker : ∀ db p, made db p → made' db p) :
    Moment base log t made' := by
  obtain ⟨before, p, after, split, isMade, others⟩ := moment
  exact ⟨before, p, after, split, weaker _ p isMade, others⟩

end Moment

/-- The book in the loop of a pass that began on `base`, from the tables after the sweep
`μ₀`, once the turns of `made` are over. -/
structure Book.Passing (base : Tables) (μ₀ : Book) (quotes : Trade → Option Quote)
    (made : List Trade) (ν : Book) (s : Progress) : Prop where
  idle : ν.pending = {}
  env : ν.env = μ₀.env
  transaction : ν.inTransaction = μ₀.inTransaction
  saved : ν.saved = base.applyAll ν.log
  /-- The saves after the sweep have rows of the trades of `made` only. -/
  log : ∃ saves, ν.log = μ₀.log ++ saves ∧
    ∀ t ∈ μ₀.saved.db.trades, t ∉ made → ∀ b ∈ saves, ¬b.HasRow t
  valid : ν.saved.Valid
  instruments : ν.saved.db.instruments = μ₀.saved.db.instruments
  products : ν.saved.db.products = μ₀.saved.db.products
  position : ν.saved.db.position = s.position
  trades : ν.saved.db.trades = s.rows μ₀.saved.db.trades
  /-- The turns made lead here. -/
  passed : pass (Progress.turn quotes) made (.start μ₀.saved.db.position) = some s
  /-- The others are still to come. -/
  waiting : ∀ t ∉ made, s.verdict t = .waiting
  /-- Each turn has its moment. -/
  moments : ∀ t ∈ made, ∃ q, quotes t = some q ∧
    Moment base ν.log t fun db p => Turned db μ₀.env.now t q (s.verdict t) p

variable {base : Tables} {μ₀ ν ν' : Book} {prices : List Price} {made : List Trade} {s : Progress}
  {t : Trade} {u : Unit}

/-- The row of one trade is overwritten. -/
theorem overwrite_rows {trades : List Trade} (unique : (trades.map Trade.id).Nodup)
    (inTable : t ∈ trades) (waits : s.verdict t = .waiting) (v : Verdict)
    (position : Position Int Int ℚ) :
    overwrite Trade.id (v.rows t) (s.rows trades) =
      Progress.rows ⟨position, Function.update s.verdict t v⟩ trades := by
  simp only [Progress.rows, overwrite, List.map_map]
  refine List.map_congr_left fun x inTrades => ?_
  simp only [Function.comp]
  by_cases same : x = t
  · subst same
    rw [Function.update_self, waits]
    cases v with
    | waiting => rfl
    | failed => exact resolve_of_lookup (by simp [lookup, Trade.close, Verdict.row, Verdict.rows])
    | happened => exact resolve_of_lookup (by simp [lookup, Trade.close, Verdict.row, Verdict.rows])
  · rw [Function.update_of_ne same]
    refine resolve_of_none (lookup_eq_none.mpr fun r inRows sameId => same ?_)
    rw [Verdict.id_of_mem_rows inRows, Verdict.id_row] at sameId
    exact eq_of_key_eq unique inTrades inTable sameId.symm

/-- One more turn. -/
theorem Book.Passing.turn {quotes : Trade → Option Quote}
    (dictionaries : quotes = quote μ₀.saved.db.instruments prices μ₀.saved.db.products)
    (h : Book.Passing base μ₀ quotes made ν s) (unique : (μ₀.saved.db.trades.map Trade.id).Nodup)
    (inTable : t ∈ μ₀.saved.db.trades) (new : t ∉ made) (unswept : ∀ b ∈ μ₀.log, ¬b.HasRow t)
    (madeIn : ∀ t ∈ made, t ∈ μ₀.saved.db.trades)
    (ok : (LongTradeService.processTrade μ₀.saved.db.instruments prices μ₀.saved.db.products t).eval
      Book.act .refused ν = .ok (u, ν')) :
    ∃ s', Book.Passing base μ₀ quotes (made ++ [t]) ν' s' := by
  rw [← h.instruments, ← h.products] at ok
  obtain ⟨q, ξ, known, isProduct, ⟨v, p, turned, staged, transaction⟩, rfl⟩ :=
    processTrade_turn h.idle ok
  have isQuote : quotes t = some q := by rw [dictionaries, ← h.instruments, ← h.products, known]
  have batch : ξ.batch = p.number ν.saved.tradeSeed ν.saved.ownedSeed := by
    rw [Book.batch, staged.pending, staged.saved]
  have waits := h.waiting t new
  have others : ∀ x ∈ μ₀.saved.db.trades, x ≠ t → ¬ξ.batch.HasRow x := fun x isRow apart has => by
    obtain ⟨r, inRows, sameId⟩ := has
    rw [batch] at inRows
    have inVerdict : r ∈ v.rows t := turned.trades.2 ▸ inRows
    have ids : x.id = t.id := sameId.symm.trans (Verdict.id_of_mem_rows inVerdict)
    exact apart (eq_of_key_eq unique isRow inTable ids)
  have after : Progress.turn quotes t s =
      some ⟨v.settle t q.product.ppt s.position, Function.update s.verdict t v⟩ := by
    have verdict := turned.verdict_eq
    rw [h.position] at verdict
    simp [Progress.turn, isQuote, verdict]
  refine ⟨_, {
    idle := rfl
    env := staged.env.trans h.env
    transaction := transaction.trans h.transaction
    saved := ?_
    log := ?_
    valid := ?_
    instruments := ?_
    products := ?_
    position := ?_
    trades := ?_
    passed := by rw [pass_append, h.passed, Option.bind_some, pass_cons, after]; rfl
    waiting := ?_
    moments := ?_ }⟩
  · rw [Book.save, Tables.applyAll_append, staged.log, ← h.saved, Tables.applyAll_singleton,
      staged.saved]
  · obtain ⟨saves, grown, quiet⟩ := h.log
    refine ⟨saves ++ [ξ.batch], by rw [Book.save, staged.log, grown, List.append_assoc], ?_⟩
    intro x isRow notMade b inSaves
    have apart : x ≠ t := fun same => notMade (List.mem_append_right _ (by simp [same]))
    have notBefore : x ∉ made := fun inMade => notMade (List.mem_append_left _ inMade)
    rcases List.mem_append.mp inSaves with before | last
    · exact quiet x isRow notBefore b before
    · rw [List.mem_singleton.mp last]
      exact others x isRow apart
  · rw [Book.save, Book.batch, staged.saved]
    exact h.valid.apply_number ξ.pending
  · rw [Book.save, staged.saved]
    exact h.instruments
  · rw [Book.save, staged.saved]
    exact h.products
  · have position := turned.position isProduct h.valid.owned ν.saved.tradeSeed ν.saved.ownedSeed
    rw [← h.position, ← position, Book.save, batch, staged.saved]
    rfl
  · have trades : (ξ.save).saved.db.trades =
        overwrite Trade.id (v.rows t) ν.saved.db.trades := by
      rw [Book.save, batch, staged.saved]
      change overwrite Trade.id p.updatedTrades ν.saved.db.trades ++ List.mapIdx _ p.insertedTrades = _
      rw [turned.trades.1, turned.trades.2, List.mapIdx_nil, List.append_nil]
    rw [trades, h.trades]
    exact overwrite_rows unique inTable waits v _
  · intro x notMade
    have apart : x ≠ t := fun same => notMade (List.mem_append_right _ (by simp [same]))
    have notBefore : x ∉ made := fun inMade => notMade (List.mem_append_left _ inMade)
    change Function.update s.verdict t v x = _
    rw [Function.update_of_ne apart]
    exact h.waiting x notBefore
  · intro x inMade
    have log : (ξ.save).log = ν.log ++ [p.number ν.saved.tradeSeed ν.saved.ownedSeed] := by
      rw [Book.save, batch, staged.log]
    rw [log]
    rcases List.mem_append.mp inMade with before | last
    · have apart : x ≠ t := fun same => new (same ▸ before)
      obtain ⟨q', isQuote', moment⟩ := h.moments x before
      refine ⟨q', isQuote', ?_⟩
      change Moment _ _ x fun db p => Turned db _ x q' (Function.update s.verdict t v x) p
      rw [Function.update_of_ne apart]
      refine moment.append fun b isLast => ?_
      rw [List.mem_singleton.mp isLast, ← batch]
      exact others x (madeIn x before) apart
    · obtain rfl := List.mem_singleton.mp last
      refine ⟨q, isQuote, ν.log, p, [], ?_, ?_, ?_⟩
      · rw [← h.saved]
      · change Turned _ _ x q (Function.update s.verdict x v x) p
        rw [Function.update_self, ← h.saved, ← h.env]
        exact turned
      · rw [List.append_nil]
        obtain ⟨saves, grown, quiet⟩ := h.log
        intro b inLog
        rw [grown] at inLog
        exact (List.mem_append.mp inLog).elim (unswept b) (quiet x inTable new b)

/-- All turns of the loop. -/
theorem Book.Passing.loop {quotes : Trade → Option Quote}
    (dictionaries : quotes = quote μ₀.saved.db.instruments prices μ₀.saved.db.products)
    (unique : (μ₀.saved.db.trades.map Trade.id).Nodup) {rest : List Trade}
    (h : Book.Passing base μ₀ quotes made ν s) (distinct : (made ++ rest).Nodup)
    (inTable : ∀ t ∈ made ++ rest, t ∈ μ₀.saved.db.trades)
    (unswept : ∀ t ∈ rest, ∀ b ∈ μ₀.log, ¬b.HasRow t)
    (ok : (forEach rest (LongTradeService.processTrade μ₀.saved.db.instruments prices
      μ₀.saved.db.products)).eval Book.act .refused ν = .ok (u, ν')) :
    ∃ s', Book.Passing base μ₀ quotes (made ++ rest) ν' s' := by
  induction rest generalizing made ν s with
  | nil =>
    obtain ⟨-, rfl⟩ := eval_pure_ok.mp ok
    exact ⟨s, by rw [List.append_nil]; exact h⟩
  | cons t rest ih =>
    obtain ⟨_, ν₁, first, others⟩ := eval_bind_eq_ok.mp ok
    have new : t ∉ made := fun inMade =>
      (List.nodup_append.mp distinct).2.2 t inMade t List.mem_cons_self rfl
    have isIn : t ∈ made ++ t :: rest := List.mem_append_right _ List.mem_cons_self
    obtain ⟨s₁, next⟩ := h.turn dictionaries unique (inTable t isIn) new
      (unswept t List.mem_cons_self) (fun x inMade => inTable x (List.mem_append_left _ inMade)) first
    have shift : made ++ t :: rest = made ++ [t] ++ rest := by simp
    rw [shift] at distinct inTable ⊢
    exact ih next distinct inTable (fun x inRest => unswept x (List.mem_cons_of_mem _ inRest)) others

/-- The loop returns where the pass has an end. -/
theorem Book.Passing.loop_returns {quotes : Trade → Option Quote}
    (dictionaries : quotes = quote μ₀.saved.db.instruments prices μ₀.saved.db.products)
    (unique : (μ₀.saved.db.trades.map Trade.id).Nodup) {rest : List Trade} {s' : Progress}
    (h : Book.Passing base μ₀ quotes made ν s) (distinct : (made ++ rest).Nodup)
    (inTable : ∀ t ∈ made ++ rest, t ∈ μ₀.saved.db.trades)
    (unswept : ∀ t ∈ rest, ∀ b ∈ μ₀.log, ¬b.HasRow t)
    (ends : pass (Progress.turn quotes) rest s = some s') :
    Returns (forEach rest (LongTradeService.processTrade μ₀.saved.db.instruments prices
      μ₀.saved.db.products)) ν := by
  induction rest generalizing made ν s with
  | nil => exact ⟨(), ν, rfl⟩
  | cons t rest ih =>
    have new : t ∉ made := fun inMade =>
      (List.nodup_append.mp distinct).2.2 t inMade t List.mem_cons_self rfl
    have isIn : t ∈ made ++ t :: rest := List.mem_append_right _ List.mem_cons_self
    obtain ⟨s₁, made₁, later⟩ := Option.bind_eq_some_iff.mp ends
    obtain ⟨q, isQuote, judged⟩ := Option.bind_eq_some_iff.mp made₁
    obtain ⟨v, verdict, -⟩ := Option.map_eq_some_iff.mp judged
    have first : Returns (LongTradeService.processTrade μ₀.saved.db.instruments prices
        μ₀.saved.db.products t) ν := by
      rw [dictionaries] at isQuote
      rw [← h.position] at verdict
      rw [← h.instruments, ← h.products] at isQuote ⊢
      exact processTrade_returns h.idle isQuote verdict
    refine returns_bind first fun _ ν₁ processed => ?_
    obtain ⟨s₂, next⟩ := h.turn dictionaries unique (inTable t isIn) new
      (unswept t List.mem_cons_self) (fun x inMade => inTable x (List.mem_append_left _ inMade)) processed
    have same : s₂ = s₁ := by
      have both := next.passed
      rw [pass_append, h.passed, Option.bind_some, pass_cons, made₁] at both
      exact (Option.some.inj both).symm
    subst same
    have shift : made ++ t :: rest = made ++ [t] ++ rest := by simp
    rw [shift] at distinct inTable
    exact ih next distinct inTable (fun x inRest => unswept x (List.mem_cons_of_mem _ inRest)) later

/-! ## The sweep -/

/-- The trades that the sweep closes. -/
def Database.overdue (db : Database) (env : Env) : List Trade :=
  Trade.arrange env.rank (db.trades.filter (Trade.isOverdue env.now))

/-- The save of the sweep. -/
def Database.sweepBatch (db : Database) (env : Env) : Batch :=
  { updatedTrades := (db.overdue env).map Trade.expire }

variable {db : Database} {env : Env}

theorem Database.mem_overdue : t ∈ db.overdue env ↔ t ∈ db.trades ∧ t.isOverdue env.now = true := by
  rw [overdue, Trade.arrange, List.mem_insertionSort, List.mem_filter]

/-- The sweep overwrites each overdue trade. -/
theorem trades_sweepBatch (unique : (db.trades.map Trade.id).Nodup) :
    (db.apply (db.sweepBatch env)).trades = db.swept env.now := by
  have insertsNothing : (db.apply (db.sweepBatch env)).trades =
      overwrite Trade.id ((db.overdue env).map Trade.expire) db.trades := List.append_nil _
  rw [insertsNothing]
  refine List.map_congr_left fun x inTrades => ?_
  have ids : ∀ r ∈ (db.overdue env).map Trade.expire, r.id = x.id → x.isOverdue env.now = true := by
    intro r inRows same
    obtain ⟨y, listed, rfl⟩ := List.mem_map.mp inRows
    obtain ⟨inTable, isOverdue⟩ := Database.mem_overdue.mp listed
    rw [← eq_of_key_eq unique inTable inTrades same]
    exact isOverdue
  unfold Trade.sweep
  split
  · rename_i isOverdue
    have distinct : (((db.overdue env).map Trade.expire).map Trade.id).Nodup := by
      rw [List.map_map]
      exact nodup_arrange _ unique
    have listed : x.expire ∈ (db.overdue env).map Trade.expire :=
      List.mem_map_of_mem (Database.mem_overdue.mpr ⟨inTrades, isOverdue⟩)
    exact resolve_of_lookup (lookup_of_mem distinct listed)
  · rename_i notOverdue
    exact resolve_of_none (lookup_eq_none.mpr fun r inRows same => notOverdue (ids r inRows same))

/-- A loop whose body returns returns. -/
theorem forEach_returns {β : Type} {body : β → Task Unit} (each : ∀ b μ, Returns (body b) μ)
    (bs : List β) (μ : Book) : Returns (forEach bs body) μ := by
  induction bs generalizing μ with
  | nil => exact ⟨(), μ, rfl⟩
  | cons b rest ih => exact returns_bind (each b μ) fun _ ν _ => ih ν

theorem closeOverdueTrades_returns {μ : Book} :
    Returns LongTradeService.closeOverdueTrades μ := by
  refine returns_bind_of_eq (eval_now_ok.mpr ⟨rfl, rfl⟩) ?_
  refine returns_bind_of_eq (eval_ask_ok.mpr ⟨rfl, rfl⟩) ?_
  exact forEach_returns (fun _ _ => closeTrade_returns) _ _

/-- The book after the sweep, before the first turn. -/
structure Book.Swept (base : Tables) (env : Env) (ν : Book) : Prop where
  isEnv : ν.env = env
  transaction : ν.inTransaction = true
  log : ν.log = [base.db.sweepBatch env]
  trades : ν.saved.db.trades = base.db.swept env.now
  first : Book.Passing base ν (base.db.quotes env) [] ν (.start base.db.position)
  position : ν.saved.db.position = base.db.position
  quotes : base.db.quotes env = quote ν.saved.db.instruments env.latestPrices ν.saved.db.products
  openTrades : ν.ask .openTrades = base.db.queue env
  instruments : ν.saved.db.instruments = base.db.instruments
  products : ν.saved.db.products = base.db.products

/-- The tables that a pass asks for whole. -/
theorem Book.ask_instruments (μ : Book) : μ.ask .instruments = μ.saved.db.instruments := rfl

theorem Book.ask_products (μ : Book) : μ.ask .products = μ.saved.db.products := rfl

theorem Book.ask_latestPrices (μ : Book) : μ.ask .latestPrices = μ.env.latestPrices := rfl

/-- The save of the sweep. -/
theorem closeOverdueTrades_swept {base : Tables} {ξ : Book} (valid : base.Valid)
    (swept : LongTradeService.closeOverdueTrades.eval Book.act .refused
      { env := env, saved := base, inTransaction := true } = .ok (u, ξ)) :
    ξ.pending.Unnumbered ∧ Book.Swept base env ξ.save := by
  obtain ⟨staged, transaction⟩ := closeOverdueTrades_expires rfl valid.trades swept
  have overdue : Book.ask { env := env, saved := base, inTransaction := true }
      (.overdueTrades env.now) = base.db.overdue env := List.map_id _
  have pending : ξ.pending = base.db.sweepBatch env := by
    rw [staged.pending, Database.sweepBatch, ← overdue]
  have batch : ξ.batch = base.db.sweepBatch env := by
    rw [Book.batch, pending]
    rfl
  have saved : ξ.save.saved = base.apply (base.db.sweepBatch env) := by
    rw [Book.save, batch, staged.saved]
  have log : ξ.save.log = [base.db.sweepBatch env] := by
    rw [Book.save, batch, staged.log]
    rfl
  have isEnv : ξ.save.env = env := staged.env
  have position : ξ.save.saved.db.position = base.db.position := by
    rw [saved]
    exact position_apply_of_none (b := base.db.sweepBatch env) rfl rfl rfl base.tradeSeed
      base.ownedSeed
  have trades : ξ.save.saved.db.trades = base.db.swept env.now := by
    rw [saved]
    exact trades_sweepBatch valid.trades
  refine ⟨by rw [pending]; exact ⟨List.forall_mem_nil _, List.forall_mem_nil _⟩, {
    isEnv := isEnv
    transaction := transaction
    log := log
    trades := trades
    first := ?_
    position := position
    quotes := by rw [saved]; rfl
    openTrades := ?_
    instruments := by rw [saved]; rfl
    products := by rw [saved]; rfl }⟩
  · exact {
      idle := rfl
      env := rfl
      transaction := rfl
      saved := by rw [log, saved]; rfl
      log := ⟨[], (List.append_nil _).symm, fun _ _ _ => List.forall_mem_nil _⟩
      valid := by
        rw [saved]
        exact valid.apply_number (base.db.sweepBatch env)
      instruments := rfl
      products := rfl
      position := position
      trades := (List.map_id _).symm
      passed := by rw [position]; rfl
      waiting := fun t _ => rfl
      moments := List.forall_mem_nil _ }
  · have asked : ξ.save.ask .openTrades = (Trade.arrange ξ.save.env.rank
        (ξ.save.saved.db.trades.filter Trade.isOpen)).map (resolve Trade.id []) := rfl
    rw [asked, isEnv, trades]
    exact List.map_id _

/-! ## Whole passes -/

/-- What a pass on the book has done when it is over. -/
structure Book.Passed (base : Tables) (env : Env) (μ : Book) (s : Progress) : Prop where
  keyed : base.db.Keyed env
  /-- The pass without the book ends here. -/
  passed : base.db.passed env = some s
  saved : μ.saved = base.applyAll μ.log
  position : μ.saved.db.position = s.position
  trades : μ.saved.db.trades = s.rows (base.db.swept env.now)
  /-- The first save is that of the sweep; the others have rows of the trades with turns only. -/
  sweep : ∃ saves, μ.log = base.db.sweepBatch env :: saves ∧
    ∀ t ∈ base.db.swept env.now, t ∉ base.db.queue env → ∀ b ∈ saves, ¬b.HasRow t
  /-- The trades without a turn stay as they are after the sweep. -/
  waiting : ∀ t ∉ base.db.queue env, s.verdict t = .waiting
  /-- The others have had their turns. -/
  moments : ∀ t ∈ base.db.queue env, ∃ q, base.db.quotes env t = some q ∧
    Moment base μ.log t fun db p => Turned db env.now t q (s.verdict t) p

/-- The sweep keeps the identifiers. -/
theorem Database.nodup_swept (unique : (db.trades.map Trade.id).Nodup) (now : Int) :
    ((db.swept now).map Trade.id).Nodup := by
  have same : (db.swept now).map Trade.id = db.trades.map Trade.id := by
    rw [Database.swept, List.map_map]
    refine List.map_congr_left fun t _ => ?_
    rw [Function.comp, Trade.sweep]
    split <;> rfl
  rw [same]
  exact unique

/-- The trades that take turns are distinct. -/
theorem Database.nodup_queue (unique : (db.trades.map Trade.id).Nodup) :
    (db.queue env).Nodup := by
  exact (nodup_arrange Trade.isOpen (Database.nodup_swept unique env.now)).of_map

theorem Database.mem_queue : t ∈ db.queue env ↔ t ∈ db.swept env.now ∧ t.isOpen = true := by
  rw [queue, Trade.arrange, List.mem_insertionSort, List.mem_filter]

/-- The sweep saves no row of a trade that takes a turn. -/
theorem Database.not_hasRow_sweepBatch (unique : (db.trades.map Trade.id).Nodup)
    (listed : t ∈ db.queue env) : ¬(db.sweepBatch env).HasRow t := by
  rintro ⟨r, inRows, sameId⟩
  obtain ⟨y, isListed, rfl⟩ := List.mem_map.mp inRows
  obtain ⟨inTable, isOverdue⟩ := mem_overdue.mp isListed
  obtain ⟨inSwept, isOpen⟩ := mem_queue.mp listed
  have swept : y.expire ∈ db.swept env.now := by
    have sweep : y.sweep env.now = y.expire := if_pos isOverdue
    exact sweep ▸ List.mem_map_of_mem inTable
  have same : y.expire = t := eq_of_key_eq (nodup_swept unique _) swept inSwept sameId
  rw [← same] at isOpen
  cases isOpen

theorem Book.Swept.unswept {base : Tables} {μ : Book} (swept : Book.Swept base env μ)
    (valid : base.Valid) : ∀ t ∈ base.db.queue env, ∀ b ∈ μ.log, ¬b.HasRow t := by
  intro t listed b inLog
  rw [swept.log] at inLog
  rw [List.mem_singleton.mp inLog]
  exact Database.not_hasRow_sweepBatch valid.trades listed

/-- A pass on the book that returns has an end without the book, which it has reached. -/
theorem processLongRunningTransactions_passed {base : Tables} {μ : Book} (valid : base.Valid)
    (ok : LongTradeService.processLongRunningTransactions.eval Book.act .refused
      { env := env, saved := base } = .ok (u, μ)) : ∃ s, Book.Passed base env μ s := by
  unfold LongTradeService.processLongRunningTransactions at ok
  simp only [eval_bind_ok, eval_beginTransaction_ok, eval_saveChanges_ok, and_assoc,
    exists_and_left, exists_eq_left, exists_const] at ok
  obtain ⟨-, _, ξ, closed, -, _, _, asked, ok⟩ := ok
  have swept : Book.Swept base env ξ.save := (closeOverdueTrades_swept valid closed).2
  obtain ⟨rfl, same⟩ := eval_ask_ok.mp asked
  rw [same, swept.openTrades] at ok
  simp only [eval_getAllInstruments_ok, eval_getLatestPrices_ok, eval_getProducts_ok,
    eval_toDictionary_ok, Book.ask_instruments, Book.ask_products, Book.ask_latestPrices,
    swept.isEnv, and_assoc, exists_and_left, exists_eq_left] at ok
  obtain ⟨instruments, prices, products, _, ν, looped, _, _, ended, -, rfl⟩ := ok
  have unique : (ξ.save.saved.db.trades.map Trade.id).Nodup := by
    rw [swept.trades]
    exact Database.nodup_swept valid.trades _
  have inTable : ∀ t ∈ base.db.queue env, t ∈ ξ.save.saved.db.trades := fun t listed => by
    rw [swept.trades]
    exact (Database.mem_queue.mp listed).1
  obtain ⟨s, last⟩ := swept.first.loop swept.quotes unique (Database.nodup_queue valid.trades)
    inTable (swept.unswept valid) looped
  rw [List.nil_append] at last
  obtain ⟨-, rfl⟩ := eval_saveChangesOrRollback_ok ended
  have quiet : ν.batch = ({} : Batch) := by
    rw [Book.batch, last.idle]
    rfl
  have nothing : ∀ {t : Trade}, ∀ b ∈ [({} : Batch)], ¬b.HasRow t := fun b isLast => by
    rw [List.mem_singleton.mp isLast]
    rintro ⟨r, inRows, -⟩
    cases inRows
  have log : (ν.save.transact false).log = ν.log ++ [({} : Batch)] := by
    rw [Book.transact, Book.save, quiet]
  have saved : (ν.save.transact false).saved.db = ν.saved.db := by
    rw [Book.transact, Book.save, quiet]
    exact Database.apply_empty _
  refine ⟨s, {
    keyed := ⟨swept.instruments ▸ instruments, prices, swept.products ▸ products⟩
    passed := by rw [Database.passed, ← swept.position]; exact last.passed
    saved := ?_
    position := by rw [saved]; exact last.position
    trades := by rw [saved, last.trades, swept.trades]
    sweep := ?_
    waiting := last.waiting
    moments := fun t listed => ?_ }⟩
  · rw [log, Tables.applyAll_append, ← last.saved, Tables.applyAll_singleton, Book.transact,
      Book.save, quiet]
  · obtain ⟨saves, grown, others⟩ := last.log
    refine ⟨saves ++ [({} : Batch)], by rw [log, grown, swept.log]; rfl, ?_⟩
    intro t isRow notListed b inSaves
    rcases List.mem_append.mp inSaves with before | isLast
    · rw [← swept.trades] at isRow
      exact others t isRow notListed b before
    · exact nothing b isLast
  · obtain ⟨q, isQuote, moment⟩ := last.moments t listed
    rw [swept.isEnv] at moment
    refine ⟨q, isQuote, ?_⟩
    rw [log]
    exact moment.append nothing

/-- Where the pass has an end without the book, it returns on the book. -/
theorem processLongRunningTransactions_returns {base : Tables} {s : Progress} (valid : base.Valid)
    (keyed : base.db.Keyed env) (ends : base.db.passed env = some s) :
    Returns LongTradeService.processLongRunningTransactions { env := env, saved := base } := by
  obtain ⟨instruments, prices, products⟩ := keyed
  refine returns_bind_of_eq (a := ()) (eval_beginTransaction_ok.mpr ⟨rfl, rfl⟩) ?_
  refine returns_bind closeOverdueTrades_returns fun _ ξ closed => ?_
  have unnumbered := (closeOverdueTrades_swept valid closed).1
  have swept : Book.Swept base env ξ.save := (closeOverdueTrades_swept valid closed).2
  refine returns_bind_of_eq (eval_saveChanges_ok.mpr ⟨unnumbered, rfl, rfl⟩) ?_
  refine returns_bind_of_eq (eval_ask_ok.mpr ⟨rfl, rfl⟩) ?_
  refine returns_bind_of_eq (eval_getAllInstruments_ok.mpr ⟨rfl, rfl⟩) ?_
  rw [swept.openTrades, Book.ask_instruments]
  refine returns_bind_of_eq (eval_toDictionary_ok.mpr
    ⟨swept.instruments ▸ instruments, rfl, rfl⟩) ?_
  refine returns_bind_of_eq (eval_getLatestPrices_ok.mpr ⟨rfl, rfl⟩) ?_
  rw [Book.ask_latestPrices, swept.isEnv]
  refine returns_bind_of_eq (eval_toDictionary_ok.mpr ⟨prices, rfl, rfl⟩) ?_
  refine returns_bind_of_eq (eval_getProducts_ok.mpr ⟨rfl, rfl⟩) ?_
  rw [Book.ask_products]
  refine returns_bind_of_eq (eval_toDictionary_ok.mpr ⟨swept.products ▸ products, rfl, rfl⟩) ?_
  have unique : (ξ.save.saved.db.trades.map Trade.id).Nodup := by
    rw [swept.trades]
    exact Database.nodup_swept valid.trades _
  have inTable : ∀ t ∈ base.db.queue env, t ∈ ξ.save.saved.db.trades := fun t listed => by
    rw [swept.trades]
    exact (Database.mem_queue.mp listed).1
  have looping := swept.first.loop_returns swept.quotes unique
    (Database.nodup_queue valid.trades) inTable (swept.unswept valid) ends
  refine returns_bind looping fun _ ν looped => ?_
  obtain ⟨s', last⟩ := swept.first.loop swept.quotes unique
    (Database.nodup_queue valid.trades) inTable (swept.unswept valid) looped
  have saves : Returns saveChangesOrRollback ν := by
    refine saveChangesOrRollback_returns ?_ (last.transaction.trans swept.transaction)
    rw [last.idle]
    exact ⟨List.forall_mem_nil _, List.forall_mem_nil _⟩
  exact returns_bind saves fun _ ν' _ => ⟨(), ν', rfl⟩

end EasyTrade.Broker
