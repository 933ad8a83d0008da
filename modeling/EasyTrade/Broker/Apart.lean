import EasyTrade.Broker.Position
import EasyTrade.Broker.Serial

/-!
# Balances apart

A deposit or a withdrawal reads and changes the balance of its account and nothing else. So while
no two of them are of one account, each is up to date when it is committed, however they
interleave and whatever is refused, and what they leave is what they leave one after another
(`balances_apart_serial`).
-/

namespace EasyTrade.Broker

open EasyTrade.Store EasyTrade.Ledger EasyTrade.Logic EasyTrade.Logic.Program

variable {ι : Type} {c : DecimalColumn} {a other : Int} {l l' : Connection} {g g' : Server}

/-! ## What a cash movement does -/

/-- A deposit or a withdrawal of the account. -/
def Request.Moves (a : Int) : Request → Prop
  | .deposit accountId _ => accountId = a
  | .withdraw accountId _ => accountId = a
  | _ => False

/-- The request asks for the balance of the account and changes it, with history rows. -/
def onlyBalance (a : Int) : Contract Command Exception Connection Server where
  assume _ _ := True
  guard
    | .ask q, _ => q = .balanceOfAccount a
    | .write (.updateBalance balance), _ => balance.accountId = a
    | .write (.addBalanceHistory _), _ => True
    | .write _, _ => False
    | _, _ => True
  abort _ _ := True

theorem onlyBalance_saveChangesOrRollback (l : Connection) :
    Holds (machine c) (onlyBalance a) saveChangesOrRollback (fun _ _ => True) l := by
  have handler : ∀ l : Connection, Holds (machine c) (onlyBalance a)
      (do rollbackTransaction; throw .db : Task Batch) (fun _ _ => True) l := fun l => by
    rw [holds_bind]
    exact holds_perform trivial trivial fun _ _ _ _ _ _ => trivial
  refine holds_tryCatch ?_
  rw [holds_bind]
  refine holds_perform trivial (handler l) fun _ _ l' _ _ _ => ?_
  rw [holds_bind]
  exact holds_perform trivial (handler l') fun _ _ _ _ _ _ => trivial

theorem onlyBalance_modifyBalance (amount : ℚ) (actionType : ActionType) (l : Connection) :
    Holds (machine c) (onlyBalance a) (BalanceService.modifyBalance a amount actionType)
      (fun _ _ => True) l := by
  rw [BalanceService.modifyBalance, holds_bind]
  refine holds_perform rfl trivial fun g reply l' g' _ acted => ?_
  have own : ∀ balance, reply = some balance → balance.accountId = a := by
    rintro balance rfl
    have found := congrArg Prod.fst (Option.some.inj acted)
    obtain ⟨row, isRow, rfl⟩ := Option.map_eq_some_iff.mp (show Option.map _ _ = _ from found)
    exact (key_resolve l.balances row).trans (key_of_lookup isRow)
  cases reply with
  | none => trivial
  | some balance =>
    rw [holds_bind]
    refine holds_perform trivial trivial fun _ _ l' _ _ _ => ?_
    rw [holds_bind]
    cases changed : BalanceService.change actionType balance amount with
    | error e => trivial
    | ok balance' =>
      have same : balance'.accountId = a := by
        rw [(change_ok changed).1]
        exact own balance rfl
      change Holds (machine c) (onlyBalance a) (beginTransaction >>= fun _ => _) _ l'
      rw [holds_bind]
      refine holds_perform trivial trivial fun _ _ l' _ _ _ => ?_
      rw [holds_bind]
      refine holds_perform same trivial fun _ _ l' _ _ _ => ?_
      rw [holds_bind]
      refine holds_perform trivial trivial fun _ _ l' _ _ _ => ?_
      rw [holds_bind]
      exact (onlyBalance_saveChangesOrRollback l').mono fun _ _ _ => trivial

/-- A cash movement keeps to the balance of its account. -/
theorem onlyBalance_handle {request : Request} (moves : request.Moves a) (l : Connection) :
    Holds (machine c) (onlyBalance a) (handle request) (fun _ _ => True) l := by
  cases request with
  | deposit accountId amount =>
    cases moves
    rw [handle, holds_bind]
    exact (onlyBalance_modifyBalance amount .deposit l).mono fun _ _ _ => trivial
  | withdraw accountId amount =>
    cases moves
    rw [handle, holds_bind]
    exact (onlyBalance_modifyBalance amount .withdraw l).mono fun _ _ _ => trivial
  | _ => exact moves.elim

/-! ## Rows of one account -/

/-- The batch changes the balance of the account and adds history rows. -/
structure Batch.About (a : Int) (b : Batch) : Prop where
  balances : ∀ r ∈ b.updatedBalances, r.accountId = a
  insertedTrades : b.insertedTrades = []
  updatedTrades : b.updatedTrades = []
  insertedOwned : b.insertedOwned = []
  updatedOwned : b.updatedOwned = []

theorem about_empty (a : Int) : Batch.About a {} := ⟨List.forall_mem_nil _, rfl, rfl, rfl, rfl⟩

/-- A guarded change keeps the pending rows about the account. -/
theorem Batch.About.write {b : Batch} (about : b.About a) {change : Change} {l : Connection}
    (guarded : (onlyBalance a).guard (.write change) l) : (b.write change).About a := by
  cases change with
  | updateBalance balance =>
    refine { about with balances := fun r inList => ?_ }
    rcases mem_put.mp inList with ⟨old, -⟩ | rfl
    · exact about.balances r old
    · exact guarded
  | addBalanceHistory history => exact { about with }
  | _ => exact guarded.elim

/-- Numbering and rounding keep the account. -/
theorem Batch.About.sent {b : Batch} (about : b.About a) (c : DecimalColumn)
    (tradeSeed ownedSeed : Int) : ((b.number tradeSeed ownedSeed).store c).About a := by
  refine ⟨fun r inList => ?_, ?_, ?_, ?_, ?_⟩
  · obtain ⟨row, inBatch, rfl⟩ := List.mem_map.mp inList
    exact about.balances row inBatch
  · simp [Batch.store, Batch.number, about.insertedTrades]
  · simp [Batch.store, Batch.number, about.updatedTrades]
  · simp [Batch.store, Batch.number, about.insertedOwned]
  · simp [Batch.store, Batch.number, about.updatedOwned]

/-- What such batches leave as it is. -/
structure Tables.SameKeys (s t : Tables) : Prop where
  balances : t.db.balances.map Balance.accountId = s.db.balances.map Balance.accountId
  trades : t.db.trades = s.db.trades
  owned : t.db.owned = s.db.owned
  tradeSeed : t.tradeSeed = s.tradeSeed
  ownedSeed : t.ownedSeed = s.ownedSeed

theorem Tables.SameKeys.valid {s t : Tables} (same : s.SameKeys t) (valid : s.Valid) : t.Valid where
  balances := by rw [same.balances]; exact valid.balances
  trades := by rw [same.trades]; exact valid.trades
  owned := by rw [same.owned]; exact valid.owned
  tradeSeed := by rw [same.trades, same.tradeSeed]; exact valid.tradeSeed
  ownedSeed := by rw [same.owned, same.ownedSeed]; exact valid.ownedSeed

/-- With such tables only the database has changed. -/
theorem Tables.SameKeys.eq {s t : Tables} (same : s.SameKeys t) {db : Database} (now : t.db = db) :
    { s with db := db } = t := by
  obtain ⟨_, _, _⟩ := t
  cases now
  rw [← same.tradeSeed, ← same.ownedSeed]

/-- Such batches leave trades, holdings and next identifiers as they are. -/
theorem sameKeys_applyAll {bs : List Batch} (about : ∀ b ∈ bs, b.About a) (s : Tables) :
    s.SameKeys (s.applyAll bs) := by
  induction bs generalizing s with
  | nil => exact ⟨rfl, rfl, rfl, rfl, rfl⟩
  | cons b rest ih =>
    have here := about b List.mem_cons_self
    obtain ⟨balances, trades, owned, tradeSeed, ownedSeed⟩ :=
      ih (fun b' inRest => about b' (List.mem_cons_of_mem _ inRest)) (s.apply b)
    refine ⟨balances.trans ?_, trades.trans ?_, owned.trans ?_, tradeSeed.trans ?_,
      ownedSeed.trans ?_⟩
    · exact map_key_overwrite b.updatedBalances s.db.balances
    · simp [Tables.apply, Database.apply, here.insertedTrades, here.updatedTrades]
    · simp [Tables.apply, Database.apply, here.insertedOwned, here.updatedOwned]
    · simp [Tables.apply, here.insertedTrades]
    · simp [Tables.apply, here.insertedOwned]

/-- The balance of another account stays as it is. -/
theorem balanceOf_applyAll_about {bs : List Batch} (about : ∀ b ∈ bs, b.About a)
    (apart : other ≠ a) (db : Database) : (db.applyAll bs).balanceOf other = db.balanceOf other := by
  induction bs generalizing db with
  | nil => rfl
  | cons b rest ih =>
    rw [Database.applyAll_cons, ih fun b' inRest => about b' (List.mem_cons_of_mem _ inRest),
      balanceOf_apply]
    cases isRow : db.balanceOf other with
    | none => rfl
    | some row =>
      rw [Option.map_some, resolve_of_none]
      refine lookup_eq_none.mpr fun copy inList same => apart ?_
      rw [← key_of_lookup isRow, ← same, (about b List.mem_cons_self).balances copy inList]

/-- What follows of the balance of an account depends on the balance of the account. -/
theorem balanceOf_applyAll_congr (bs : List Batch) {db db' : Database}
    (same : db.balanceOf a = db'.balanceOf a) :
    (db.applyAll bs).balanceOf a = (db'.applyAll bs).balanceOf a := by
  induction bs generalizing db db' with
  | nil => exact same
  | cons b rest ih => exact ih (by rw [balanceOf_apply, balanceOf_apply, same])

/-! ## Runs -/

/-- What is known of a connection whose request moves the balance of the account. -/
structure Mover (a : Int) (l : Connection) (g : Server) : Prop where
  pending : l.pending.About a
  tx : ∀ b ∈ l.tx.getD [], b.About a
  committed : ∀ b ∈ l.committed, b.About a
  /-- Its answers are those the tables give now, until it has committed. -/
  reads : l.committed = [] → ∀ r ∈ l.reads,
    r.answer = answer l.env (g.tables.db.applyAll r.sent) r.query
  queries : ∀ r ∈ l.reads, r.query = .balanceOfAccount a
  /-- It has drawn no identifiers. -/
  numberings : ∀ n ∈ l.numberings, (∀ b ∈ n.sent, b.About a) ∧
    n.tradeSeed = g.tables.tradeSeed ∧ n.ownedSeed = g.tables.ownedSeed

/-- A fresh connection. -/
theorem mover_start (a : Int) (env : Env) (g : Server) : Mover a { env := env } g where
  pending := about_empty a
  tx := List.forall_mem_nil _
  committed := List.forall_mem_nil _
  reads _ := List.forall_mem_nil _
  queries := List.forall_mem_nil _
  numberings := List.forall_mem_nil _

/-- A mover about to commit is up to date. -/
theorem Mover.upToDate (mover : Mover a l g) (uncommitted : l.committed = [])
    (valid : g.tables.Valid) : l.UpToDate g := by
  have seeds : (l.found g).tradeSeed = g.tables.tradeSeed ∧
      (l.found g).ownedSeed = g.tables.ownedSeed := by
    unfold Connection.found
    cases drawn : l.numberings with
    | nil => exact ⟨rfl, rfl⟩
    | cons n rest =>
      obtain ⟨-, trade, owned⟩ := mover.numberings n (drawn ▸ List.mem_cons_self)
      exact ⟨trade, owned⟩
  refine ⟨⟨mover.reads uncommitted, fun n inList => ?_⟩, ?_, ?_⟩
  · obtain ⟨about, trade, owned⟩ := mover.numberings n inList
    have same := sameKeys_applyAll about (l.found g)
    rw [same.tradeSeed, same.ownedSeed, seeds.1, seeds.2]
    exact ⟨trade, owned⟩
  · rw [seeds.1]
    exact valid.tradeSeed
  · rw [seeds.2]
    exact valid.ownedSeed

/-- A mover does not see what happens to other balances. -/
theorem Mover.others (mover : Mover a l g)
    (balance : g'.tables.db.balanceOf a = g.tables.db.balanceOf a)
    (tradeSeed : g'.tables.tradeSeed = g.tables.tradeSeed)
    (ownedSeed : g'.tables.ownedSeed = g.tables.ownedSeed) : Mover a l g' where
  pending := mover.pending
  tx := mover.tx
  committed := mover.committed
  reads uncommitted r inList := by
    have isAnswer := mover.reads uncommitted r inList
    have isQuery := mover.queries r inList
    obtain ⟨sent, query, given⟩ := r
    cases isQuery
    exact isAnswer.trans (balanceOf_applyAll_congr sent balance.symm)
  queries := mover.queries
  numberings n inList := by
    rw [tradeSeed, ownedSeed]
    exact mover.numberings n inList

/-- What a request sends is about its account. -/
theorem Mover.sent (mover : Mover a l g) : ∀ b ∈ l.sent, b.About a := by
  intro b inList
  rcases List.mem_append.mp inList with before | now
  · exact mover.committed b before
  · exact mover.tx b now

/-- A command of a mover leaves it one, and the tables change by batches about its account. -/
theorem Mover.act {command : Command} {reply : Reply command} (mover : Mover a l g)
    (uncommitted : l.committed = []) (guarded : (onlyBalance a).guard command l)
    (inside : (rules False False).guard command l)
    (acted : Broker.act c command l g = some (reply, l', g')) :
    Mover a l' g' ∧ ∃ bs, (∀ b ∈ bs, b.About a) ∧ g'.tables = g.tables.applyAll bs := by
  have idle : ∃ bs, (∀ b ∈ bs, Batch.About a b) ∧ g.tables = g.tables.applyAll bs :=
    ⟨[], List.forall_mem_nil _, rfl⟩
  cases command with
  | ask q =>
    cases acted
    cases guarded
    refine ⟨⟨mover.pending, mover.tx, mover.committed, fun _ r inList => ?_, fun r inList => ?_,
      mover.numberings⟩, idle⟩
    · rcases List.mem_append.mp inList with old | new
      · exact mover.reads uncommitted r old
      · rw [List.mem_singleton.mp new, Connection.sent, uncommitted]
        rfl
    · rcases List.mem_append.mp inList with old | new
      · exact mover.queries r old
      · rw [List.mem_singleton.mp new]
  | now => cases acted; exact ⟨mover, idle⟩
  | dbNotResponding => cases acted; exact ⟨mover, idle⟩
  | write change =>
    cases acted
    refine ⟨⟨?_, ?_, ?_, ?_, ?_, ?_⟩, idle⟩
    · rw [Connection.pending_write]
      exact mover.pending.write guarded
    · rw [Connection.tx_write]
      exact mover.tx
    · rw [Connection.committed_write]
      exact mover.committed
    · rw [Connection.committed_write, Connection.reads_write, Connection.env_write]
      exact mover.reads
    · rw [Connection.reads_write]
      exact mover.queries
    · rw [Connection.numberings_write]
      exact mover.numberings
  | onTradeClosed trade => cases acted; exact ⟨{ mover with }, idle⟩
  | beginTransaction =>
    simp only [Broker.act] at acted
    split at acted <;> cases acted
    exact ⟨{ mover with tx := List.forall_mem_nil _ }, idle⟩
  | saveChanges =>
    obtain ⟨bs, opened⟩ := Option.isSome_iff_exists.mp (show l.tx.isSome = true from inside)
    simp only [Broker.act, opened] at acted
    split at acted <;> cases acted
    have trades : (g.draw (l.pending.number g.tables.tradeSeed g.tables.ownedSeed)).tables =
        g.tables := by
      simp [Server.draw, Batch.number, mover.pending.insertedTrades, mover.pending.insertedOwned]
    refine ⟨⟨about_empty a, fun b inList => ?_, mover.committed, ?_, mover.queries,
      fun n inList => ?_⟩, by rw [trades]; exact idle⟩
    · rcases List.mem_append.mp inList with old | new
      · exact mover.tx b (by rw [opened]; exact old)
      · rw [List.mem_singleton.mp new]
        exact mover.pending.sent c _ _
    · rw [trades]
      exact mover.reads
    · rw [trades]
      rcases List.mem_append.mp inList with old | new
      · exact mover.numberings n old
      · rw [List.mem_singleton.mp new]
        exact ⟨mover.sent, rfl, rfl⟩
  | commitTransaction =>
    simp only [Broker.act, Option.map_eq_some_iff] at acted
    obtain ⟨bs, opened, acted⟩ := acted
    cases acted
    have about : ∀ b ∈ bs, b.About a := fun b inList => mover.tx b (by rw [opened]; exact inList)
    have tables := (sameKeys_applyAll about g.tables).eq (Tables.db_applyAll g.tables bs)
    refine ⟨⟨mover.pending, List.forall_mem_nil _, fun b inList => ?_, fun empty => ?_,
      mover.queries, mover.numberings⟩, bs, about, tables⟩
    · rcases List.mem_append.mp inList with old | new
      · exact mover.committed b old
      · exact about b new
    · have none : bs = [] := (List.append_eq_nil_iff.mp empty).2
      rw [none]
      exact mover.reads uncommitted
  | rollbackTransaction =>
    simp only [Broker.act, Option.map_eq_some_iff] at acted
    obtain ⟨bs, opened, acted⟩ := acted
    cases acted
    exact ⟨{ mover with tx := List.forall_mem_nil _ }, idle⟩

/-- Any number of movers, each under way, and none of whose accounts is another's. -/
structure Movers (c : DecimalColumn) (requests : ι → Request) (envs : ι → Env)
    (accounts : ι → Int) (s : System ι Command Reply Exception Response Connection Server) :
    Prop where
  valid : s.shared.tables.Valid
  each : ∀ i, Mover (accounts i) (s.threads i).priv s.shared
  underWay : ∀ i, UnderWay c (requests i) (envs i) (s.threads i)
  keeps : ∀ i, (s.threads i).Safe (machine c) (onlyBalance (accounts i)) fun _ _ => True

variable {requests : ι → Request} {envs : ι → Env} {accounts : ι → Int}
  {s : System ι Command Reply Exception Response Connection Server}

theorem movers_start (c : DecimalColumn) (envs : ι → Env)
    (moves : ∀ i, (requests i).Moves (accounts i)) (valid : g.tables.Valid) :
    Movers c requests envs accounts (start requests envs g) where
  valid := valid
  each i := mover_start (accounts i) (envs i) g
  underWay i := underWay_start c (requests i) (envs i)
  keeps i := onlyBalance_handle (moves i) _

/-- What a mover commits is up to date. -/
theorem Movers.current (movers : Movers c requests envs accounts s) (i : ι) {command : Command}
    {next : Except Exception (Reply command) → Task Response}
    (program : (s.threads i).program = .call command next) :
    Current command (s.threads i).priv s.shared := by
  cases command with
  | commitTransaction =>
    exact (movers.each i).upToDate ((movers.underWay i).uncommitted ⟨_, next, program⟩) movers.valid
  | _ => exact trivial

variable [DecidableEq ι]

/-- Every turn of one of them leaves the others what they are. -/
theorem Movers.step (movers : Movers c requests envs accounts s)
    (apart : Function.Injective accounts) (turn : ι × Bool) :
    Movers c requests envs accounts (s.step (machine c) turn) := by
  have underWay := System.step_threads (m := machine c) movers.underWay turn
    ((movers.underWay turn.1).step s.shared turn.2)
  have keeps := System.step_threads (m := machine c)
    (P := fun i t => t.Safe (machine c) (onlyBalance (accounts i)) fun _ _ => True)
    movers.keeps turn ((movers.keeps turn.1).step trivial turn.2)
  have moved : (s.step (machine c) turn).threads turn.1 =
      ((s.threads turn.1).step (machine c) s.shared turn.2).1 := Function.update_self ..
  rcases (s.threads turn.1).step_cases (machine c) s.shared turn.2 with
    ⟨command, -, issues⟩ | ⟨sameShared, samePriv, -⟩
  · have guarded := ((movers.keeps turn.1).issues trivial issues).1
    have inside := ((movers.underWay turn.1).safe.issues ⟨False.elim, False.elim⟩ issues).1
    obtain ⟨next, reply, l', program, acted, now⟩ := issues
    obtain ⟨mover, bs, about, tables⟩ := (movers.each turn.1).act
      ((movers.underWay turn.1).uncommitted ⟨command, next, program⟩) guarded inside acted
    have same : s.shared.tables.SameKeys (s.step (machine c) turn).shared.tables := by
      rw [show (s.step (machine c) turn).shared.tables = _ from tables]
      exact sameKeys_applyAll about _
    refine ⟨same.valid movers.valid, fun i => ?_, underWay, keeps⟩
    by_cases own : i = turn.1
    · rw [own, moved, now]
      exact mover
    · rw [System.thread_step_of_ne own]
      refine (movers.each i).others ?_ same.tradeSeed same.ownedSeed
      rw [show (s.step (machine c) turn).shared.tables = _ from tables, Tables.db_applyAll]
      exact balanceOf_applyAll_about about (fun isOwn => own (apart isOwn)) _
  · have shared : (s.step (machine c) turn).shared = s.shared := sameShared
    refine ⟨by rw [shared]; exact movers.valid, fun i => ?_, underWay, keeps⟩
    rw [shared]
    by_cases own : i = turn.1
    · rw [own, moved, samePriv]
      exact movers.each turn.1
    · rw [System.thread_step_of_ne own]
      exact movers.each i

/-- In every run of movers whatever is committed is up to date. -/
theorem Movers.meets (movers : Movers c requests envs accounts s)
    (apart : Function.Injective accounts) (schedule : List (ι × Bool)) :
    s.Meets (machine c) Current schedule := by
  induction schedule generalizing s with
  | nil => trivial
  | cons turn rest ih =>
    exact ⟨fun _ _ program _ => movers.current turn.1 program, ih (movers.step apart turn)⟩

/-- However deposits and withdrawals of different accounts interleave, and whatever is refused
on the way, those that return have a serial order. -/
theorem balances_apart_serial (c : DecimalColumn) (requests : ι → Request) (envs : ι → Env)
    (accounts : ι → Int) (apart : Function.Injective accounts)
    (moves : ∀ i, (requests i).Moves (accounts i)) (g : Server) (valid : g.tables.Valid)
    (schedule : List (ι × Bool)) :
    ∃ seats, SerialOrder c requests envs g.tables.db
      ((start requests envs g).run (machine c) schedule) seats := by
  obtain ⟨seats, serially⟩ := (serially_start c requests envs g valid).run schedule
    ((movers_start c envs moves valid).meets apart schedule)
  exact ⟨seats, serially.toSerialOrder⟩

/-- A deposit and a withdrawal turn by turn. -/
theorem balances_apart_serial_in_turns :
    let requests : Bool → Request := fun second =>
      if second then .withdraw 2 300 else .deposit 3 100
    let s := (start requests (fun _ => Market.env) Market.server).run (machine .exact)
      ((List.replicate 7 [(false, false), (true, false)]).flatten)
    s.shared.tables.db.balances = [⟨1, 0⟩, ⟨2, 700⟩, ⟨3, 600⟩] ∧ ∃ seats,
      SerialOrder .exact requests (fun _ => Market.env) Market.server.tables.db s seats :=
  ⟨by decide +kernel, balances_apart_serial .exact _ _ (fun second => if second then 2 else 3)
    (fun one two => by cases one <;> cases two <;> simp)
    (fun second => by cases second <;> rfl) Market.server Market.valid _⟩

end EasyTrade.Broker
