import EasyTrade.Broker.Holdings
import EasyTrade.Logic.Closing

/-!
# Serial orders

No request locks what it has read, so a commit may overwrite what others have committed since.
Where each transaction is up to date when it is committed, that is, every answer its request has
got is the one the tables would give now and the identifiers it has drawn are above those in the
tables, the requests that return have a serial order (`current_commits_serial`).
-/

namespace EasyTrade.Broker

open EasyTrade.Store EasyTrade.Ledger EasyTrade.Logic EasyTrade.Logic.Program

/-! ## How requests end -/

/-- The program saves and commits, and a refusal on the way ends in an error. -/
def Task.Saving {α : Type} (p : Task α) : Prop :=
  ∃ next, p = .call .saveChanges next ∧ (next (.error .refused)).Fails ∧ ∀ saved, ∃ next',
    next (.ok saved) = .call .commitTransaction next' ∧ (next' (.error .refused)).Fails

/-- The program returns only after a save and a commit. -/
abbrev Task.Closing {α : Type} (p : Task α) : Prop := p.ClosesWith Task.Saving

theorem Task.Saving.bind {α β : Type} {p : Task α} (saving : p.Saving) (f : α → Task β) :
    Task.Saving (p >>= f) := by
  obtain ⟨next, rfl, refused, answered⟩ := saving
  refine ⟨fun reply => (next reply).bind f, rfl, fails_bind refused, fun saved => ?_⟩
  obtain ⟨next', commits, refused'⟩ := answered saved
  exact ⟨fun reply => (next' reply).bind f, congrArg (fun p => p.bind f) commits,
    fails_bind refused'⟩

/-- What follows a closing program does not matter. -/
theorem closing_then {α β : Type} {p : Task α} (closing : p.Closing) (f : α → Task β) :
    Task.Closing (p >>= f) := ClosesWith.bind (fun _ saving => saving.bind f) closing

theorem closing_saveChangesOrRollback : saveChangesOrRollback.Closing := by
  refine .inl ⟨_, rfl, fun reply => ?_, fun saved => ⟨_, rfl, fun reply => ?_⟩⟩
  · cases reply <;> trivial
  · cases reply <;> trivial

theorem closing_modifyBalance (accountId : Int) (amount : ℚ) (actionType : ActionType) :
    (BalanceService.modifyBalance accountId amount actionType).Closing := by
  refine closesWith_bind _ fun found => ?_
  split
  · refine closesWith_bind _ fun _ => closesWith_bind _ fun _ => closesWith_bind _ fun _ => ?_
    refine closesWith_bind _ fun _ => closesWith_bind _ fun _ => ?_
    exact closing_then closing_saveChangesOrRollback _
  · trivial

theorem closing_buyAssets (accountId instrumentId : Int) (amount : ℚ) :
    (TradeService.buyAssets accountId instrumentId amount).Closing := by
  refine closesWith_bind _ fun _ => closesWith_bind _ fun balance => ?_
  split
  · refine closesWith_bind _ fun instrument => ?_
    split
    · refine closesWith_bind _ fun _ => closesWith_bind _ fun _ => closesWith_bind _ fun _ => ?_
      refine closesWith_bind _ fun _ => ?_
      simp only
      split
      · trivial
      · refine closesWith_bind _ fun _ => closesWith_bind _ fun _ => closesWith_bind _ fun _ => ?_
        refine closesWith_bind _ fun _ => closesWith_bind _ fun _ => ?_
        exact closing_then closing_saveChangesOrRollback _
    · trivial
  · trivial

theorem closing_sellAssets (accountId instrumentId : Int) (amount : ℚ) :
    (TradeService.sellAssets accountId instrumentId amount).Closing := by
  refine closesWith_bind _ fun _ => closesWith_bind _ fun balance => ?_
  split
  · refine closesWith_bind _ fun instrument => ?_
    split
    · refine closesWith_bind _ fun _ => closesWith_bind _ fun _ => closesWith_bind _ fun _ => ?_
      refine closesWith_bind _ fun owned => ?_
      split
      · split
        · trivial
        · refine closesWith_bind _ fun _ => closesWith_bind _ fun _ => ?_
          refine closesWith_bind _ fun _ => closesWith_bind _ fun _ => ?_
          refine closesWith_bind _ fun _ => closesWith_bind _ fun _ => ?_
          exact closing_then closing_saveChangesOrRollback _
      · trivial
    · trivial
  · trivial

theorem closing_createLongTransaction (accountId instrumentId : Int) (amount : ℚ)
    (duration : Int) (price : ℚ) (type : ActionType) : (LongTradeService.createLongTransaction
      accountId instrumentId amount duration price type).Closing := by
  refine closesWith_bind _ fun _ => closesWith_bind _ fun balance => ?_
  split
  · refine closesWith_bind _ fun instrument => ?_
    split
    · refine closesWith_bind _ fun _ => closesWith_bind _ fun _ => closesWith_bind _ fun _ => ?_
      exact closesWith_bind _ fun _ => closing_then closing_saveChangesOrRollback _
    · trivial
  · trivial

theorem closing_processLongRunningTransactions :
    LongTradeService.processLongRunningTransactions.Closing := by
  refine closesWith_bind _ fun _ => closesWith_bind _ fun _ => closesWith_bind _ fun _ => ?_
  refine closesWith_bind _ fun _ => closesWith_bind _ fun _ => closesWith_bind _ fun _ => ?_
  refine closesWith_bind _ fun _ => closesWith_bind _ fun _ => closesWith_bind _ fun _ => ?_
  refine closesWith_bind _ fun _ => closesWith_bind _ fun _ => ?_
  exact closing_then closing_saveChangesOrRollback _

/-- No request returns before it has saved and committed. -/
theorem closing_handle (request : Request) : (handle request).Closing := by
  cases request with
  | deposit => exact closing_then (closing_modifyBalance ..) _
  | withdraw => exact closing_then (closing_modifyBalance ..) _
  | buyAssets => exact closing_then (closing_buyAssets ..) _
  | sellAssets => exact closing_then (closing_sellAssets ..) _
  | longBuyAssets => exact closing_then (closing_createLongTransaction ..) _
  | longSellAssets => exact closing_then (closing_createLongTransaction ..) _
  | processLongRunningTransactions =>
    exact closing_then closing_processLongRunningTransactions _

/-! ## Requests under way -/

section UnderWay

variable {c : DecimalColumn} {request : Request} {env : Env} {l l' : Connection} {g g' : Server}
  {t : Thread Command Reply Exception Response Connection} {command : Command}
  {reply : Reply command}

/-- The tables now, with the identifiers as they were before the request has drawn its own. -/
def Connection.found (l : Connection) (g : Server) : Tables where
  db := g.tables.db
  tradeSeed := (l.numberings.head?.map Numbering.tradeSeed).getD g.tables.tradeSeed
  ownedSeed := (l.numberings.head?.map Numbering.ownedSeed).getD g.tables.ownedSeed

/-- What the request has been answered it would be answered now, and the identifiers it has
drawn are above those in the tables. -/
structure Connection.UpToDate (l : Connection) (g : Server) : Prop where
  /-- Its answers. -/
  agrees : Agrees (l.found g) l
  /-- The identifiers of trades. -/
  trades : ∀ r ∈ g.tables.db.trades, r.id < (l.found g).tradeSeed
  /-- The identifiers of holdings. -/
  owned : ∀ r ∈ g.tables.db.owned, r.id < (l.found g).ownedSeed

/-- A transaction is up to date when it is committed. -/
def Current : Command → Connection → Server → Prop
  | .commitTransaction, l, g => l.UpToDate g
  | _, _, _ => True

instance (q : Query) : DecidableEq q.Answer := by
  cases q <;> infer_instance

instance (base : Tables) (l : Connection) : Decidable (Agrees base l) :=
  decidable_of_iff ((∀ r ∈ l.reads, r.answer = answer l.env (base.db.applyAll r.sent) r.query) ∧
      ∀ n ∈ l.numberings, n.tradeSeed = (base.applyAll n.sent).tradeSeed ∧
        n.ownedSeed = (base.applyAll n.sent).ownedSeed)
    ⟨fun both => ⟨both.1, both.2⟩, fun agrees => ⟨agrees.reads, agrees.numberings⟩⟩

instance (l : Connection) (g : Server) : Decidable (l.UpToDate g) :=
  decidable_of_iff (Agrees (l.found g) l ∧
      (∀ r ∈ g.tables.db.trades, r.id < (l.found g).tradeSeed) ∧
        ∀ r ∈ g.tables.db.owned, r.id < (l.found g).ownedSeed)
    ⟨fun all => ⟨all.1, all.2.1, all.2.2⟩, fun now => ⟨now.agrees, now.trades, now.owned⟩⟩

instance (command : Command) (l : Connection) (g : Server) : Decidable (Current command l g) := by
  unfold Current
  split <;> infer_instance

/-- Only the commit of a transaction changes the tables. -/
theorem committed_act (guarded : (rules False False).guard command l)
    (acted : act c command l g = some (reply, l', g')) :
    (g'.tables.db = g.tables.db ∧ l'.committed = l.committed) ∨
      command = .commitTransaction ∧ ∃ bs, bs ≠ [] ∧ l.tx = some bs ∧
        l' = { l with tx := none, committed := l.committed ++ bs } ∧ g' = g.commit bs := by
  cases command with
  | ask q => cases acted; exact .inl ⟨rfl, by simp⟩
  | now => cases acted; exact .inl ⟨rfl, rfl⟩
  | dbNotResponding => cases acted; exact .inl ⟨rfl, rfl⟩
  | write change => cases acted; exact .inl ⟨rfl, by simp⟩
  | onTradeClosed trade => cases acted; exact .inl ⟨rfl, rfl⟩
  | beginTransaction =>
    simp only [act] at acted
    split at acted <;> cases acted
    exact .inl ⟨rfl, rfl⟩
  | saveChanges =>
    obtain ⟨bs, opened⟩ := Option.isSome_iff_exists.mp (show l.tx.isSome = true from guarded)
    simp only [act, opened] at acted
    split at acted <;> cases acted
    exact .inl ⟨rfl, rfl⟩
  | commitTransaction =>
    simp only [act, Option.map_eq_some_iff] at acted
    obtain ⟨bs, opened, acted⟩ := acted
    cases acted
    by_cases empty : bs = []
    · exact .inl ⟨by rw [empty]; rfl, by simp [empty]⟩
    · exact .inr ⟨rfl, bs, empty, opened, rfl, rfl⟩
  | rollbackTransaction =>
    simp only [act, Option.map_eq_some_iff] at acted
    obtain ⟨bs, opened, acted⟩ := acted
    cases acted
    exact .inl ⟨rfl, rfl⟩

/-- What a request has recorded and committed it keeps. -/
theorem records_act (acted : act c command l g = some (reply, l', g')) :
    l'.env = l.env ∧ (∃ reads, l'.reads = l.reads ++ reads) ∧
      (∃ numberings, l'.numberings = l.numberings ++ numberings) ∧
        ∃ bs, l'.committed = l.committed ++ bs := by
  have none : ∀ {α : Type} (xs : List α), ∃ more, xs = xs ++ more := fun xs => ⟨[], by simp⟩
  cases command with
  | ask q =>
    cases acted
    exact ⟨by simp, ⟨_, rfl⟩, by simp, by simp⟩
  | now => cases acted; exact ⟨rfl, none _, none _, none _⟩
  | dbNotResponding => cases acted; exact ⟨rfl, none _, none _, none _⟩
  | write change =>
    cases acted
    exact ⟨by simp, by simp, by simp, by simp⟩
  | onTradeClosed trade => cases acted; exact ⟨rfl, none _, none _, none _⟩
  | beginTransaction =>
    simp only [act] at acted
    split at acted <;> cases acted
    exact ⟨rfl, none _, none _, none _⟩
  | saveChanges =>
    simp only [act] at acted
    split at acted
    · split at acted <;> cases acted
      · exact ⟨rfl, none _, ⟨_, rfl⟩, none _⟩
      · exact ⟨rfl, none _, ⟨_, rfl⟩, ⟨_, rfl⟩⟩
    · cases acted
  | commitTransaction =>
    simp only [act, Option.map_eq_some_iff] at acted
    obtain ⟨bs, opened, acted⟩ := acted
    cases acted
    exact ⟨rfl, none _, none _, ⟨_, rfl⟩⟩
  | rollbackTransaction =>
    simp only [act, Option.map_eq_some_iff] at acted
    obtain ⟨bs, opened, acted⟩ := acted
    cases acted
    exact ⟨rfl, none _, none _, none _⟩

/-- Tables that agree with all answers agree with the earlier ones. -/
theorem agrees_recalled {base : Tables} (acted : act c command l g = some (reply, l', g'))
    (agrees : Agrees base l') : Agrees base l := by
  obtain ⟨env, ⟨reads, allReads⟩, ⟨numberings, allNumberings⟩, -⟩ := records_act acted
  refine ⟨fun r inList => ?_, fun n inList => ?_⟩
  · have given := agrees.reads r (by rw [allReads]; exact List.mem_append_left _ inList)
    rwa [env] at given
  · exact agrees.numberings n (by rw [allNumberings]; exact List.mem_append_left _ inList)

/-- The request fails, or it has still to save, or it has saved and is about to commit, or it
has committed something. -/
def Closes (t : Thread Command Reply Exception Response Connection) : Prop :=
  t.program.Fails ∨ Task.Closing t.program ∨
    (∃ next, t.program = .call .commitTransaction next ∧ (next (.error .refused)).Fails ∧
      t.priv.tx ≠ some []) ∨ t.priv.committed ≠ []

/-- Every turn of a request leaves it in one of these states. -/
theorem Closes.step (closes : Closes t) (g : Server) (refused : Bool) :
    Closes (t.step (machine c) g refused).1 := by
  rcases t.step_cases (machine c) g refused with
    ⟨command, -, next, reply, l', program, acted, now⟩ |
      ⟨-, samePriv, same | ⟨command, next, program, now⟩⟩
  · rw [now]
    generalize (t.step (machine c) g refused).2 = g' at acted
    rcases closes with fails | closing | ⟨next', committing, -, sent⟩ | committed
    · rw [program] at fails
      exact .inl (fails _)
    · rw [program] at closing
      rcases closing with ⟨next', same, -, answered⟩ | later
      · -- the save the request closes with
        cases same
        obtain ⟨next'', commits, refused'⟩ := answered reply
        simp only [machine, act] at acted
        split at acted
        · split at acted <;> cases acted
          · exact .inr (.inr (.inl ⟨next'', commits, refused', by simp⟩))
          · exact .inr (.inr (.inr (by simp)))
        · cases acted
      · exact .inr (.inl (later _))
    · rw [program] at committing
      cases committing
      simp only [machine, act, Option.map_eq_some_iff] at acted
      obtain ⟨bs, opened, acted⟩ := acted
      cases acted
      refine .inr (.inr (.inr ?_))
      rw [opened] at sent
      have some : bs ≠ [] := fun empty => sent (by rw [empty])
      simp [some]
    · obtain ⟨-, -, -, bs, more⟩ := records_act acted
      refine .inr (.inr (.inr ?_))
      simp [more, committed]
  · rw [same]
    exact closes
  · rcases closes with fails | closing | ⟨next', committing, fails, -⟩ | committed
    · rw [program] at fails
      exact .inl (by rw [now]; exact fails _)
    · rw [program] at closing
      rcases closing with ⟨next', same, fails, -⟩ | later
      · cases same
        exact .inl (by rw [now]; exact fails)
      · exact .inr (.inl (by rw [now]; exact later _))
    · rw [program] at committing
      cases committing
      exact .inl (by rw [now]; exact fails)
    · exact .inr (.inr (.inr (by rw [samePriv]; exact committed)))

/-- What is known of a request under way. -/
structure UnderWay (c : DecimalColumn) (request : Request) (env : Env)
    (t : Thread Command Reply Exception Response Connection) : Prop where
  /-- Its run on the book of any tables that agree with its answers. -/
  follows : t.Follows Book.act .refused Forward (fun base l => base.Valid ∧ Agrees base l)
    (Related c) (handle request) fun base => { env := env, saved := base }
  /-- It keeps the rules. -/
  safe : t.Safe (machine c) (rules False False) fun _ l => l.tx = none
  /-- It ends with a commit. -/
  closes : Closes t

/-- A request before its first command. -/
theorem underWay_start (c : DecimalColumn) (request : Request) (env : Env) :
    UnderWay c request env ⟨handle request, { env := env }⟩ where
  follows := .inr ⟨disciplined_handle request, fun _ agreed =>
    ⟨_, rfl, related_start c env agreed.1⟩⟩
  safe := handle_holds request rfl rfl
  closes := .inr (.inl (closing_handle request))

namespace UnderWay

theorem step (way : UnderWay c request env t) (g : Server) (refused : Bool) :
    UnderWay c request env (t.step (machine c) g refused).1 where
  follows := by
    refine Thread.Follows.step (m := machine c) ?_ ?_ way.follows g refused
    · exact fun base command l g reply l' g' acted agreed =>
        ⟨agreed.1, agrees_recalled acted agreed.2⟩
    · exact fun base command l g μ reply l' g' forward related acted agreed =>
        act_simulated related forward acted agreed.2
  safe := way.safe.step ⟨False.elim, False.elim⟩ refused
  closes := way.closes.step g refused

/-- A request that has committed something has not been refused anything, and it has
returned. -/
theorem ended (way : UnderWay c request env t) (committed : t.priv.committed ≠ []) :
    (∃ response, t.program = .done response) ∧ ∀ base : Tables, base.Valid → Agrees base t.priv →
      ∃ μ, Program.eval Book.act .refused (handle request) { env := env, saved := base } =
        Program.eval Book.act .refused t.program μ ∧ Related c base t.priv μ := by
  rcases way.follows with fails | ⟨orderly, ideal⟩
  · obtain ⟨error, aborted⟩ := fails.aborts way.safe
    exact absurd aborted committed
  · obtain ⟨response, ended, -⟩ := orderly.returned way.safe fun _ => committed
    exact ⟨⟨response, ended⟩, fun base valid agrees => ideal base ⟨valid, agrees⟩⟩

/-- A request that has not returned has committed nothing. -/
theorem uncommitted (way : UnderWay c request env t)
    (under : ∃ command next, t.program = .call command next) : t.priv.committed = [] := by
  by_contra committed
  obtain ⟨response, ended⟩ := (way.ended committed).1
  obtain ⟨command, next, underWay⟩ := under
  rw [ended] at underWay
  cases underWay

/-- The requests that have returned are those that have committed something. -/
theorem returned_iff (way : UnderWay c request env t) :
    (∃ response, t.program = .done response) ↔ t.priv.committed ≠ [] := by
  refine ⟨?_, fun committed => (way.ended committed).1⟩
  rintro ⟨response, ended⟩
  rcases way.closes with fails | closing | ⟨next, committing, -⟩ | committed
  · rw [ended] at fails
    exact fails.elim
  · rw [ended] at closing
    exact closing.elim
  · rw [ended] at committing
    cases committing
  · exact committed

end UnderWay

/-- A request that commits while it is up to date has the outcome it has alone on the tables
as they are, and it leaves the tables it leaves there. -/
theorem UnderWay.commit {t' : Thread Command Reply Exception Response Connection} {bs : List Batch}
    (before : UnderWay c request env t) (after : UnderWay c request env t')
    (found : (t.priv.found g).Valid) (current : t.priv.UpToDate g) (some : bs ≠ [])
    (under : ∃ command next, t.program = .call command next)
    (priv : t'.priv = { t.priv with tx := none, committed := t.priv.committed ++ bs }) :
    ∃ response, t'.program = .done response ∧
      (Call.exec c ⟨env, fun _ => false, request⟩ { tables := t.priv.found g }).1 = .ok response ∧
        (serve c { tables := t.priv.found g } ⟨env, fun _ => false, request⟩).tables.db =
          g.tables.db.applyAll bs := by
  have committed : t'.priv.committed = bs := by rw [priv, before.uncommitted under]; rfl
  have agrees : Agrees (t.priv.found g) t'.priv := by
    rw [priv]
    exact ⟨current.agrees.reads, current.agrees.numberings⟩
  obtain ⟨⟨response, ended⟩, ideal⟩ := after.ended (by rw [committed]; exact some)
  obtain ⟨μ, same, related⟩ := ideal _ found agrees
  rw [ended] at same
  have evaluated : request.eval env (t.priv.found g) = .ok (response, μ) := same
  have ok : (Call.exec c ⟨env, fun _ => false, request⟩ { tables := t.priv.found g }).1 =
      .ok response := Call.exec_of_eval found rfl evaluated
  obtain ⟨ν, served⟩ := serve_of_ok found ok
  obtain ⟨-, rfl⟩ := Prod.mk.inj (Except.ok.inj (evaluated.symm.trans served.eval))
  refine ⟨response, ended, ok, ?_⟩
  rw [served.db, ← related.sent, Connection.sent, committed, priv]
  simp [Connection.found]

end UnderWay

/-! ## Requests one after another -/

/-- A place in a serial order: a request and the next identifiers it finds. -/
structure Seat (ι : Type) where
  /-- The request. -/
  request : ι
  /-- The next trade. -/
  tradeSeed : Int
  /-- The next holding. -/
  ownedSeed : Int

section Seats

variable {ι : Type}

/-- The run of one request alone, with nothing refused. -/
def Seat.exec (c : DecimalColumn) (requests : ι → Request) (envs : ι → Env) (db : Database)
    (seat : Seat ι) : Except Exception Response × Connection × Server :=
  Call.exec c ⟨envs seat.request, fun _ => false, requests seat.request⟩
    { tables := ⟨db, seat.tradeSeed, seat.ownedSeed⟩ }

/-- The outcomes of requests one after another, each on the tables the one before it has
left, and the tables after all. -/
def serveSeats (c : DecimalColumn) (requests : ι → Request) (envs : ι → Env) :
    Database → List (Seat ι) → List (Except Exception Response) × Database
  | db, [] => ([], db)
  | db, seat :: rest =>
    let served := seat.exec c requests envs db
    let others := serveSeats c requests envs served.2.2.tables.db rest
    (served.1 :: others.1, others.2)

/-- One more request. -/
theorem serveSeats_append (c : DecimalColumn) (requests : ι → Request) (envs : ι → Env)
    (db : Database) (seats : List (Seat ι)) (seat : Seat ι) :
    serveSeats c requests envs db (seats ++ [seat]) =
      ((serveSeats c requests envs db seats).1 ++
          [(seat.exec c requests envs (serveSeats c requests envs db seats).2).1],
        (seat.exec c requests envs (serveSeats c requests envs db seats).2).2.2.tables.db) := by
  induction seats generalizing db with
  | nil => rfl
  | cons first rest ih =>
    rw [List.cons_append, serveSeats, ih]
    rfl

/-- The requests that have returned, in an order in which they have the same outcomes one
after another and leave the same tables. -/
structure SerialOrder (c : DecimalColumn) (requests : ι → Request) (envs : ι → Env)
    (db : Database) (s : System ι Command Reply Exception Response Connection Server)
    (seats : List (Seat ι)) : Prop where
  /-- No request is served twice. -/
  once : (seats.map Seat.request).Nodup
  /-- The requests served are those that have returned. -/
  returned : ∀ i, i ∈ seats.map Seat.request ↔ ∃ response, (s.threads i).program = .done response
  /-- They return what they have returned. -/
  outcomes : List.Forall₂ (fun seat outcome => ∃ response,
    (s.threads seat.request).program = .done response ∧ outcome = .ok response) seats
      (serveSeats c requests envs db seats).1
  /-- They leave the tables there are. -/
  tables : (serveSeats c requests envs db seats).2 = s.shared.tables.db

variable {c : DecimalColumn} {requests : ι → Request} {envs : ι → Env} {db : Database}
  {s : System ι Command Reply Exception Response Connection Server}
  {seats : List (Seat ι)}

/-- What a run keeps: a serial order, the keys of the tables, and what is known of every
request. -/
structure Serially (c : DecimalColumn) (requests : ι → Request) (envs : ι → Env)
    (db : Database) (s : System ι Command Reply Exception Response Connection Server)
    (seats : List (Seat ι)) : Prop extends SerialOrder c requests envs db s seats where
  /-- The tables have their keys. -/
  valid : ∃ base : Tables, base.db = s.shared.tables.db ∧ base.Valid
  /-- The requests are under way. -/
  each : ∀ i, UnderWay c (requests i) (envs i) (s.threads i)

/-- Before the first command nothing has been served. -/
theorem serially_start (c : DecimalColumn) (requests : ι → Request) (envs : ι → Env) (g : Server)
    (valid : g.tables.Valid) :
    Serially c requests envs g.tables.db (start requests envs g) [] where
  once := .nil
  returned i := by
    refine iff_of_false List.not_mem_nil fun returned => ?_
    exact (underWay_start c (requests i) (envs i)).returned_iff.mp returned rfl
  outcomes := .nil
  tables := rfl
  valid := ⟨g.tables, rfl, valid⟩
  each i := underWay_start c (requests i) (envs i)

variable [DecidableEq ι]

/-- A turn that commits nothing. -/
theorem Serially.idle (h : Serially c requests envs db s seats) (turn : ι × Bool)
    (tables : (s.step (machine c) turn).shared.tables.db = s.shared.tables.db)
    (committed : ((s.step (machine c) turn).threads turn.1).priv.committed =
      (s.threads turn.1).priv.committed) :
    Serially c requests envs db (s.step (machine c) turn) seats := by
  have each := System.step_threads (m := machine c) h.each turn
    ((h.each turn.1).step s.shared turn.2)
  refine ⟨⟨h.once, fun i => ?_, ?_, by rw [h.tables, tables]⟩, by rw [tables]; exact h.valid, each⟩
  · rw [h.returned, (h.each i).returned_iff, (each i).returned_iff]
    by_cases own : i = turn.1
    · rw [own, committed]
    · rw [System.thread_step_of_ne own]
  · refine h.outcomes.imp fun seat outcome => ?_
    rintro ⟨response, ended, isOk⟩
    exact ⟨response, by rw [System.thread_step_of_done ended]; exact ended, isOk⟩

/-- A turn that commits a transaction that is up to date: its request comes last. -/
theorem Serially.commit (h : Serially c requests envs db s seats) (turn : ι × Bool)
    {bs : List Batch} (some : bs ≠ []) (current : (s.threads turn.1).priv.UpToDate s.shared)
    (under : ∃ command next, (s.threads turn.1).program = .call command next)
    (priv : ((s.step (machine c) turn).threads turn.1).priv =
      { (s.threads turn.1).priv with
        tx := none
        committed := (s.threads turn.1).priv.committed ++ bs })
    (shared : (s.step (machine c) turn).shared = s.shared.commit bs) :
    Serially c requests envs db (s.step (machine c) turn)
      (seats ++ [⟨turn.1, ((s.threads turn.1).priv.found s.shared).tradeSeed,
        ((s.threads turn.1).priv.found s.shared).ownedSeed⟩]) := by
  have each := System.step_threads (m := machine c) h.each turn
    ((h.each turn.1).step s.shared turn.2)
  obtain ⟨base, same, valid⟩ := h.valid
  have found : ((s.threads turn.1).priv.found s.shared).Valid :=
    ⟨same ▸ valid.balances, same ▸ valid.trades, same ▸ valid.owned, current.trades, current.owned⟩
  obtain ⟨response, ended, ok, tables⟩ :=
    (h.each turn.1).commit (each turn.1) found current some under priv
  have notYet : turn.1 ∉ seats.map Seat.request := by
    rw [h.returned]
    rintro ⟨response, returned⟩
    obtain ⟨command, next, underWay⟩ := under
    rw [returned] at underWay
    cases underWay
  have append := serveSeats_append c requests envs db seats ⟨turn.1,
    ((s.threads turn.1).priv.found s.shared).tradeSeed,
    ((s.threads turn.1).priv.found s.shared).ownedSeed⟩
  rw [h.tables] at append
  refine ⟨⟨?_, fun i => ?_, ?_, ?_⟩, ?_, each⟩
  · rw [List.map_append, List.map_singleton]
    exact List.nodup_append.mpr ⟨h.once, List.nodup_singleton _, fun i old j new => by
      rw [List.mem_singleton.mp new]
      rintro rfl
      exact notYet old⟩
  · rw [List.map_append, List.mem_append, h.returned, List.map_singleton, List.mem_singleton]
    by_cases own : i = turn.1
    · subst own
      exact iff_of_true (.inr rfl) ⟨response, ended⟩
    · rw [System.thread_step_of_ne own]
      exact or_iff_left own
  · rw [append]
    refine List.rel_append (h.outcomes.imp fun seat outcome => ?_)
      (.cons ⟨response, ended, ok⟩ .nil)
    rintro ⟨response, ended, isOk⟩
    exact ⟨response, by rw [System.thread_step_of_done ended]; exact ended, isOk⟩
  · rw [append, shared]
    exact tables
  · rw [shared]
    exact ⟨_, tables, serve_valid c ⟨envs turn.1, fun _ => false, requests turn.1⟩ found⟩

/-- Every turn keeps a serial order, if what it commits is up to date. -/
theorem Serially.step (h : Serially c requests envs db s seats) (turn : ι × Bool)
    (current : ∀ command next, (s.threads turn.1).program = .call command next →
      turn.2 = false → Current command (s.threads turn.1).priv s.shared) :
    ∃ seats, Serially c requests envs db (s.step (machine c) turn) seats := by
  have moved : (s.step (machine c) turn).threads turn.1 =
      ((s.threads turn.1).step (machine c) s.shared turn.2).1 := Function.update_self ..
  rcases (s.threads turn.1).step_cases (machine c) s.shared turn.2 with
    ⟨command, notRefused, issues⟩ | ⟨sameShared, samePriv, -⟩
  · have guarded := ((h.each turn.1).safe.issues ⟨False.elim, False.elim⟩ issues).1
    obtain ⟨next, reply, l', program, acted, now⟩ := issues
    rcases committed_act guarded acted with ⟨tables, committed⟩ | ⟨rfl, bs, some, -, priv, shared⟩
    · exact ⟨seats, h.idle turn tables (by rw [moved, now]; exact committed)⟩
    · exact ⟨_, h.commit turn some (current _ next program notRefused) ⟨_, next, program⟩
        (by rw [moved, now]; exact priv) shared⟩
  · refine ⟨seats, h.idle turn ?_ (by rw [moved, samePriv])⟩
    rw [show (s.step (machine c) turn).shared = s.shared from sameShared]

/-- Every run whose commits are up to date has a serial order. -/
theorem Serially.run (h : Serially c requests envs db s seats) (schedule : List (ι × Bool))
    (current : s.Meets (machine c) Current schedule) :
    ∃ seats, Serially c requests envs db (s.run (machine c) schedule) seats := by
  induction schedule generalizing s seats with
  | nil => exact ⟨seats, h⟩
  | cons turn rest ih =>
    obtain ⟨seats', h'⟩ := h.step turn current.1
    exact ih h' current.2

/-- In every run of any requests in which each transaction is up to date when it is committed,
the requests that have returned have a serial order: one after another they return the same
and leave the same tables. -/
theorem current_commits_serial (c : DecimalColumn) (requests : ι → Request) (envs : ι → Env)
    (g : Server) (valid : g.tables.Valid) (schedule : List (ι × Bool))
    (current : (start requests envs g).Meets (machine c) Current schedule) :
    ∃ seats, SerialOrder c requests envs g.tables.db
      ((start requests envs g).run (machine c) schedule) seats := by
  obtain ⟨seats, serially⟩ := (serially_start c requests envs g valid).run schedule current
  exact ⟨seats, serially.toSerialOrder⟩

end Seats

/-! ## In the market -/

/-- A deposit of one trader while the other buys. -/
def Market.apart : System Bool Command Reply Exception Response Connection Server :=
  start (fun second => if second then .buyAssets 2 1 3 else .deposit 3 100) (fun _ => Market.env)
    Market.server

/-- A deposit of a trader while the same trader buys. -/
def Market.together : System Bool Command Reply Exception Response Connection Server :=
  start (fun second => if second then .buyAssets 2 1 3 else .deposit 2 100) (fun _ => Market.env)
    Market.server

/-- The deposit is made while the purchase is under way. -/
theorem current_commits_serial_apart :
    let s := Market.apart.run (machine .exact)
      (Market.turns true 10 ++ Market.turns false 7 ++ Market.turns true 12)
    s.shared.log.length = 2 ∧ ∃ seats, SerialOrder .exact
      (fun second => if second then .buyAssets 2 1 3 else .deposit 3 100) (fun _ => Market.env)
      Market.server.tables.db s seats :=
  ⟨by decide +kernel,
    current_commits_serial .exact _ _ Market.server Market.valid _ (by decide +kernel)⟩

/-- Where both are of one account, the purchase is not up to date and the deposit is lost. -/
example :
    let schedule := Market.turns true 10 ++ Market.turns false 7 ++ Market.turns true 12
    let s := Market.together.run (machine .exact) schedule
    ¬Market.together.Meets (machine .exact) Current schedule ∧ s.shared.log.length = 2 ∧
      s.shared.tables.db.balanceOf 2 = some ⟨2, 965⟩ := by
  decide +kernel

end EasyTrade.Broker
