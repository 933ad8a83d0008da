import EasyTrade.Broker.Passes

/-!
# Calls that process the open trades

A call in which nothing is refused returns just where its pass has an end. What it
leaves in the tables is then that end; otherwise the tables are as they were.
-/

namespace EasyTrade.Broker

open EasyTrade.Store EasyTrade.Ledger EasyTrade.Logic EasyTrade.Logic.Program

variable {c : DecimalColumn} {g : Server} {env : Env} {s : Progress}

/-- The call that processes the open trades, with nothing refused. -/
def Env.process (env : Env) : Call := ⟨env, fun _ => false, .processLongRunningTransactions⟩

/-- A call that processes the open trades and returns has passed over them. -/
theorem Served.passed {call : Call} {response : Response} {μ : Book}
    (served : Served c g call response μ) (valid : g.tables.Valid)
    (processes : call.request = .processLongRunningTransactions) :
    ∃ s, Book.Passed g.tables call.env μ s := by
  have ok := served.eval
  rw [processes] at ok
  obtain ⟨_, ν, processed, ended⟩ := eval_bind_ok.mp ok
  obtain ⟨-, rfl⟩ := eval_pure_ok.mp ended
  exact processLongRunningTransactions_passed valid processed

/-- The call returns where its pass has an end. -/
theorem process_returns (c : DecimalColumn) (valid : g.tables.Valid)
    (keyed : g.tables.db.Keyed env) (ends : g.tables.db.passed env = some s) :
    (env.process.exec c g).1 = .ok .nothing := by
  obtain ⟨_, μ, processed⟩ := processLongRunningTransactions_returns valid keyed ends
  have ok : env.process.request.eval env g.tables = .ok (.nothing, μ) :=
    eval_bind_ok.mpr ⟨_, μ, processed, rfl⟩
  exact Call.exec_of_eval valid rfl ok

/-- The tables after a pass that has an end. -/
theorem serve_process (valid : g.tables.Valid) (keyed : g.tables.db.Keyed env)
    (ends : g.tables.db.passed env = some s) :
    (serve .exact g env.process).tables.db.position = s.position ∧
      (serve .exact g env.process).tables.db.trades = s.rows (g.tables.db.swept env.now) := by
  obtain ⟨μ, served⟩ := serve_of_ok valid (process_returns .exact valid keyed ends)
  obtain ⟨s', passed⟩ := served.passed valid rfl
  obtain rfl : s' = s := Option.some.inj (passed.passed.symm.trans ends)
  have same : (serve .exact g env.process).tables.db = μ.saved.db := by
    rw [served.db, served.saved, Tables.db_applyAll]
    congr 1
    conv_rhs => rw [← List.map_id μ.log]
    exact List.map_congr_left fun b _ => store_exact b
  rw [same]
  exact ⟨passed.position, passed.trades⟩

/-- The call comes in its pass to the turn of the trade, finds this quote and this
position, and goes on to its end. -/
structure Server.Processes (g : Server) (env : Env) (t : Trade) (q : Quote)
    (p : Position Int Int ℚ) : Prop where
  returns : (env.process.exec .exact g).1 = .ok .nothing
  isQuote : g.tables.db.quotes env t = some q
  reached : ∃ before after s, g.tables.db.queue env = before ++ t :: after ∧
    pass (Progress.turn (g.tables.db.quotes env)) before (.start g.tables.db.position) = some s ∧
    s.position = p

/-- After the call the row of the trade is the one of its verdict at its turn. -/
theorem Server.Processes.row {t : Trade} {q : Quote} {p : Position Int Int ℚ}
    (processes : g.Processes env t q p) (valid : g.tables.Valid) :
    ∃ v, t.verdict q p = some v ∧ v.row t ∈ (serve .exact g env.process).tables.db.trades := by
  obtain ⟨μ, served⟩ := serve_of_ok valid processes.returns
  obtain ⟨s, passed⟩ := served.passed valid rfl
  obtain ⟨before, after, s₀, queue, reached, rfl⟩ := processes.reached
  have ends : g.tables.db.passed env = some s := passed.passed
  have keyed : g.tables.db.Keyed env := passed.keyed
  have rows := (serve_process valid keyed ends).2
  have listed : t ∈ g.tables.db.queue env := queue ▸ List.mem_append_cons_self
  have distinct : (before ++ t :: after).Nodup := queue ▸ Database.nodup_queue valid.trades
  have later : t ∉ after := (List.nodup_cons.mp (List.nodup_append.mp distinct).2.1).1
  rw [Database.passed, queue, pass_append, reached, Option.bind_some, pass_cons,
    Option.bind_eq_some_iff] at ends
  obtain ⟨s₁, turned, ends⟩ := ends
  simp only [Progress.turn, processes.isQuote, Option.bind_some, Option.map_eq_some_iff] at turned
  obtain ⟨v, verdict, rfl⟩ := turned
  refine ⟨v, verdict, ?_⟩
  have isVerdict : s.verdict t = v :=
    (Progress.verdict_of_pass later ends).trans (Function.update_self t v s₀.verdict)
  rw [rows, Progress.rows, ← isVerdict]
  exact List.mem_map_of_mem (Database.mem_queue.mp listed).1

/-- The call does not return where its pass has no end. -/
theorem not_returns_of_none (c : DecimalColumn) (valid : g.tables.Valid)
    (endless : g.tables.db.Keyed env → g.tables.db.passed env = none) {response : Response} :
    (env.process.exec c g).1 ≠ .ok response := by
  intro returns
  obtain ⟨μ, served⟩ := serve_of_ok valid returns
  obtain ⟨s, passed⟩ := served.passed valid rfl
  have ends : g.tables.db.passed env = some s := passed.passed
  rw [endless passed.keyed] at ends
  cases ends

/-- The tables after a pass that has none. -/
theorem serve_process_of_none (c : DecimalColumn) (valid : g.tables.Valid)
    (endless : g.tables.db.Keyed env → g.tables.db.passed env = none) :
    (serve c g env.process).tables.db = g.tables.db := by
  cases outcome : (env.process.exec c g).1 with
  | error e => exact (serve_of_error outcome).1
  | ok response => exact absurd outcome (not_returns_of_none c valid endless)

end EasyTrade.Broker
