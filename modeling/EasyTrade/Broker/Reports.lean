import EasyTrade.Broker.Lifecycle

/-!
# What the engine is told

A closing is reported from inside the pass that closes the trade, before the pass
commits. A pass that returns has committed what it reported, and no trade is
reported by two such passes, since a committed closing is not touched again. A pass
that throws after a report has told the engine of a closing that is undone.
-/

namespace EasyTrade.Broker

open EasyTrade.Store EasyTrade.Ledger EasyTrade.Logic

variable {db : Database} {now : Int} {s t : Tables} {c : DecimalColumn} {g : Server}

/-! ## The closings of a run -/

/-- A copy takes the place of the row with its key. -/
theorem mem_overwrite_of_copy {ρ κ : Type} [DecidableEq κ] {key : ρ → κ} {copies rows : List ρ}
    (unique : (copies.map key).Nodup) {copy row : ρ} (inCopies : copy ∈ copies)
    (inRows : row ∈ rows) (same : key copy = key row) : copy ∈ overwrite key copies rows :=
  List.mem_map.2 ⟨row, inRows, resolve_of_lookup (same ▸ lookup_of_mem unique inCopies)⟩

/-- A save updates a trade once. -/
theorem Step.updates_nodup {flow : ℚ} {p : Batch} (step : Step now db flow p) :
    (p.updatedTrades.map Trade.id).Nodup := by
  cases step with
  | cash => exact .nil
  | register => exact .nil
  | close distinct _ => exact distinct
  | quick _ _ _ updated _ =>
    rw [updated]
    exact .nil
  | long _ _ _ _ updated _ =>
    rw [updated]
    exact List.nodup_singleton _

/-- The trades a run closes: each once, each open or absent at its start, and each still
in the table at its end as it was closed. -/
structure Closings (s : Tables) (bs : List Batch) (t : Tables) : Prop where
  once : ((bs.flatMap Batch.updatedTrades).map Trade.id).Nodup
  new : ∀ r ∈ bs.flatMap Batch.updatedTrades, ∀ x ∈ s.db.trades, x.id = r.id →
    x.tradeClosed = false
  kept : ∀ r ∈ bs.flatMap Batch.updatedTrades, r ∈ t.db.trades ∧ r.tradeClosed = true

/-- A run closes each trade once and for all. -/
theorem Run.closings {cash : ℚ} {bs : List Batch} (run : Run s cash bs t) (valid : s.Valid) :
    Closings s bs t := by
  induction run with
  | nil => exact ⟨.nil, List.forall_mem_nil _, List.forall_mem_nil _⟩
  | draw _ db _ _ ih => exact ⟨ih.once, ih.new, db ▸ ih.kept⟩
  | @save now cash flow bs p t before step ih =>
    have valid' := before.valid valid
    have rows : (bs ++ [p.number t.tradeSeed t.ownedSeed]).flatMap Batch.updatedTrades =
        bs.flatMap Batch.updatedTrades ++ p.updatedTrades := by
      rw [List.flatMap_append, List.flatMap_singleton]
      rfl
    -- A trade that is updated was open, so it is none that was closed before.
    have wasOpen : ∀ r ∈ p.updatedTrades, ∀ x ∈ t.db.trades, x.id = r.id →
        x.tradeClosed = false := by
      intro r updated x inTable same
      obtain ⟨y, inTrades, isOpen, key, -⟩ := step.updates r updated
      rw [eq_of_key_eq valid'.trades inTable inTrades (by rw [same, key])]
      exact isOpen
    refine ⟨?_, fun r inRows x inTable same => ?_, fun r inRows => ?_⟩
    · rw [rows, List.map_append]
      refine List.Nodup.append ih.once step.updates_nodup fun id earlier later => ?_
      obtain ⟨x, closed, rfl⟩ := List.mem_map.1 earlier
      obtain ⟨r, updated, same⟩ := List.mem_map.1 later
      obtain ⟨inTable, isClosed⟩ := ih.kept x closed
      rw [wasOpen r updated x inTable same.symm] at isClosed
      cases isClosed
    · rw [rows] at inRows
      rcases List.mem_append.1 inRows with earlier | updated
      · exact ih.new r earlier x inTable same
      · by_contra notOpen
        have closed : x.tradeClosed = true := by simpa using notOpen
        have still := before.keeps_closed valid inTable closed
        rw [wasOpen r updated x still same] at closed
        cases closed
    · rw [rows] at inRows
      rcases List.mem_append.1 inRows with earlier | updated
      · obtain ⟨inTable, closed⟩ := ih.kept r earlier
        exact ⟨step.keeps_closed valid' _ _ inTable closed, closed⟩
      · obtain ⟨y, inTrades, -, key, closed⟩ := step.updates r updated
        exact ⟨List.mem_append_left _
          (mem_overwrite_of_copy step.updates_nodup updated inTrades key), closed⟩

/-! ## Reports and tables -/

/-- The call throws an exception after it has reported a trade closed. -/
def Call.throwsAfterReport (c : DecimalColumn) (g : Server) (call : Call) : Bool :=
  match call.exec c g with
  | (.ok _, _, _) => false
  | (.error _, l, _) => !l.notified.isEmpty

/-- The closing that was reported is the one committed. -/
def Database.Confirms (db : Database) (r : Trade) : Prop :=
  ∃ x ∈ db.trades, x.id = r.id ∧ x.tradeClosed = true ∧ x.status = r.status ∧
    x.transactionHappened = r.transactionHappened

instance (db : Database) (r : Trade) : Decidable (db.Confirms r) :=
  inferInstanceAs (Decidable (∃ x ∈ db.trades, _))

/-- The reports since the start name each trade once, and each is confirmed. -/
def Server.Reports (g₀ g : Server) : Prop :=
  ∃ reports, g.notified = g₀.notified ++ reports ∧ (reports.map Trade.id).Nodup ∧
    ∀ r ∈ reports, g.tables.db.Confirms r

/-- A call that returns leaves the closings of its run in the table. -/
theorem Served.closes {call : Call} {response : Response} {μ : Book}
    (served : Served c g call response μ) (valid : g.tables.Valid) :
    ∃ bs, Closings g.tables bs μ.saved ∧
      (serve c g call).notified = g.notified ++ bs.flatMap Batch.updatedTrades ∧
      ∀ x : Trade, x.tradeClosed = true → (x ∈ g.tables.db.trades ∨ x ∈ μ.saved.db.trades) →
        (serve c g call).tables.db.Confirms x := by
  have between := Request.between valid served.eval
  refine ⟨μ.log, between.run.closings valid, by rw [served.notified, between.notified], ?_⟩
  intro x closed either
  have inSaved : x ∈ μ.saved.db.trades := either.elim
    (fun inTable => between.run.keeps_closed valid inTable closed) id
  have inBlank : x.blank ∈ (serve c g call).tables.db.trades.map Trade.blank :=
    served.blank_trades ▸ List.mem_map_of_mem inSaved
  obtain ⟨y, inTable, blank⟩ := List.mem_map.1 inBlank
  have key := congrArg Trade.id blank
  have isClosed := congrArg Trade.tradeClosed blank
  have status := congrArg Trade.status blank
  have happened := congrArg Trade.transactionHappened blank
  exact ⟨y, inTable, key, isClosed.trans closed, status, happened⟩

/-- A call that does not throw after a report keeps the reports confirmed. -/
theorem serve_reports {g₀ : Server} {call : Call} (valid : g.tables.Valid)
    (reports : g₀.Reports g) (quiet : call.throwsAfterReport c g = false) :
    g₀.Reports (serve c g call) := by
  obtain ⟨rows, notified, distinct, confirmed⟩ := reports
  cases outcome : (call.exec c g).1 with
  | error e =>
    obtain ⟨db, -, -⟩ := serve_of_error outcome
    have silent : (call.exec c g).2.1.notified = [] := by
      unfold Call.throwsAfterReport at quiet
      revert outcome quiet
      match call.exec c g with
      | (.ok _, _, _) => exact nofun
      | (.error _, _, _) => exact fun quiet _ => by simpa using quiet
    refine ⟨rows, ?_, distinct, fun r inRows => ?_⟩
    · rw [serve, (call.ends c g).2.1.notified, silent, List.append_nil, notified]
    · rw [db]
      exact confirmed r inRows
  | ok response =>
    obtain ⟨μ, served⟩ := serve_of_ok valid outcome
    obtain ⟨bs, closings, told, confirms⟩ := served.closes valid
    refine ⟨rows ++ bs.flatMap Batch.updatedTrades, ?_, ?_, fun r inRows => ?_⟩
    · rw [told, notified, List.append_assoc]
    · rw [List.map_append]
      refine List.Nodup.append distinct closings.once fun id earlier later => ?_
      obtain ⟨r, inRows, rfl⟩ := List.mem_map.1 earlier
      obtain ⟨r', closed, same⟩ := List.mem_map.1 later
      obtain ⟨x, inTable, key, isClosed, -⟩ := confirmed r inRows
      rw [closings.new r' closed x inTable (by rw [key, same])] at isClosed
      cases isClosed
    · rcases List.mem_append.1 inRows with earlier | later
      · obtain ⟨x, inTable, key, isClosed, status, happened⟩ := confirmed r earlier
        obtain ⟨y, inTable', key', isClosed', status', happened'⟩ :=
          confirms x isClosed (.inl inTable)
        exact ⟨y, inTable', by rw [key', key], isClosed', by rw [status', status],
          by rw [happened', happened]⟩
      · obtain ⟨inSaved, isClosed⟩ := closings.kept r later
        exact confirms r isClosed (.inr inSaved)

/-- After any sequence of calls none of which throws after a report, the engine has been
told of a trade at most once, and only of a closing that is committed with the status
and the outcome it was told. -/
theorem reports_are_committed (c : DecimalColumn) (g : Server) (calls : List Call)
    (valid : g.tables.Valid)
    (quiet : ∀ before call after, calls = before ++ call :: after →
      call.throwsAfterReport c (serveAll c g before) = false) :
    ∃ reports, (serveAll c g calls).notified = g.notified ++ reports ∧
      (reports.map Trade.id).Nodup ∧
      ∀ r ∈ reports, (serveAll c g calls).tables.db.Confirms r :=
  serveAll_invariant (P := fun g' => g.Reports g')
    (Q := fun g' call => call.throwsAfterReport c g' = false)
    (fun _ _ valid reports quiet => serve_reports valid reports quiet) calls valid
    ⟨[], (List.append_nil _).symm, .nil, List.forall_mem_nil _⟩ quiet

/-- A sale is registered and a pass settles it. -/
theorem reports_are_committed_of_sale :
    ∃ reports, (serveAll .exact Market.server
        [Market.purchase, Market.call (.longSellAssets 2 1 1 24 12),
          Market.call .processLongRunningTransactions]).notified = [] ++ reports ∧
      (reports.map Trade.id).Nodup ∧
      ∀ r ∈ reports, (serveAll .exact Market.server
        [Market.purchase, Market.call (.longSellAssets 2 1 1 24 12),
          Market.call .processLongRunningTransactions]).tables.db.Confirms r :=
  reports_are_committed .exact Market.server _ Market.valid fun before call after split => by
    have short : before.length < 3 := by
      have lengths := congrArg List.length split
      simp only [List.length_append, List.length_cons, List.length_nil] at lengths
      omega
    match before, split with
    | [], split =>
      cases split
      decide +kernel
    | [_], split =>
      cases split
      decide +kernel
    | [_, _], split =>
      cases split
      decide +kernel
    | _ :: _ :: _ :: _, _ =>
      simp only [List.length_cons] at short
      omega

/-- Two purchases are registered, one of them for no time at all. -/
def Market.waiting : Server :=
  serveAll .exact Market.server
    [Market.call (.longBuyAssets 2 1 1 0 10), Market.call (.longBuyAssets 2 1 1 24 5)]

/-- A later pass, for which the price service has no candle. -/
def Market.unpriced : Call :=
  { Market.call .processLongRunningTransactions with
    env := { Market.env with now := 2000, latestPrices := [] } }

/-- The pass reports the overdue purchase closed and then throws, since the price of the
other one is missing: the closing is undone. Another such pass reports it again. -/
theorem report_is_undone :
    (serve .exact Market.waiting Market.unpriced).notified.map Trade.id = [1] ∧
      (¬∀ r ∈ (serve .exact Market.waiting Market.unpriced).notified,
        (serve .exact Market.waiting Market.unpriced).tables.db.Confirms r) ∧
      ¬((serveAll .exact Market.waiting
        [Market.unpriced, Market.unpriced]).notified.map Trade.id).Nodup := by
  decide +kernel

end EasyTrade.Broker
