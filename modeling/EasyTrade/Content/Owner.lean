import EasyTrade.Accounts.Services
import EasyTrade.Broker.Entities
import EasyTrade.Content.Retirement

/-!
# The owner's account

Every fee is credited to the account of the owner. No condition of a clean-up spares it: it is
active and of an origin of its own, so it is counted and may be marked like any other. It is the
oldest account. The marks go to the newest accounts, and to fewer of them than have been counted,
so they never reach it.

Requests that create accounts run beside the content creator. The other statements of a day
touch other tables.
-/

namespace EasyTrade.Content.Owner

open EasyTrade.Logic EasyTrade.Logic.Program EasyTrade.Store
open EasyTrade.Accounts (Database Request)
open EasyTrade.Broker (ownerId)

/-! ## Statements -/

/-- What the statements read of an account. -/
def row (a : Accounts.Account) : Account :=
  ⟨a.id, a.origin, a.creationDate.instant, some a.accountActive⟩

/-- How many accounts meet a condition. -/
def count (condition : Condition) (db : Database) : Nat :=
  db.accounts.countP fun a => condition.Holds (row a)

/-- The keys of the accounts that meet a condition. -/
def selected (condition : Condition) (db : Database) : List Int :=
  (db.accounts.filter fun a => condition.Holds (row a)).map Accounts.Account.id

/-- The accounts that meet a condition are deleted, with their balances. -/
def delete (condition : Condition) (db : Database) : Database :=
  { db with
    accounts := db.accounts.filter fun a => ¬condition.Holds (row a)
    balances := db.balances.filter fun b => b.accountId ∉ selected condition db }

/-- The flag of the accounts of these keys is set. -/
def mark (ids : List Int) (status : Bool) (db : Database) : Database :=
  { db with accounts := db.accounts.map fun a =>
      if a.id ∈ ids then { a with accountActive := status } else a }

/-- The statements about accounts. -/
inductive Statement where
  | getTableCount (condition : Condition)
  | deleteSelected (condition : Condition)
  | updateAccountStatus (q : SelectTop) (status : Bool)

/-- A number of rows, and what is left. A key that still refers to a deleted account refuses
the statement, as any error does. -/
def Statement.act (rank : Int → Nat) (db : Database) : Statement → Option (Int × Database)
  | getTableCount condition => some (count condition db, db)
  | deleteSelected condition => some (count condition db, delete condition db)
  | updateAccountStatus q status => (q.rows rank (db.accounts.map row)).map fun rows =>
      (rows.length, mark (rows.map Account.id) status db)

/-- What is known of the number of active accounts that are not preset after a statement. -/
def Statement.known (answer : Int) : Statement → Int
  | getTableCount .nonPresetActiveAccounts => answer
  | _ => 0

/-! ## The content creator and the requests -/

/-- A request's command, or a statement. -/
abbrev Command := Accounts.Command ⊕ Statement

/-- What answers a command. -/
abbrev Reply : Command → Type := Sum.elim Accounts.Reply fun _ => Int

/-- The private state of a request, or of the content creator. -/
structure Private where
  /-- A request's own. -/
  request : Accounts.Private := {}
  /-- So many active accounts that are not preset have been counted. -/
  counted : Int := 0

/-- What a command does. -/
def act (rank : Int → Nat) :
    (command : Command) → Private → Database → Option (Reply command × Private × Database)
  | .inl command, l, db => (Accounts.act command l.request db).map fun done =>
      (done.1, { l with request := done.2.1 }, done.2.2)
  | .inr statement, l, db => (statement.act rank db).map fun done =>
      (done.1, { l with counted := statement.known done.1 }, done.2)

/-- The machine of all of them; `rank` is the order the server gives rows of one date. -/
def machine (rank : Int → Nat) : Machine Command Reply Accounts.Failure Private Database where
  act := act rank
  fault := .refused

/-- A program that runs beside others. -/
abbrev Task := Program Command Reply Accounts.Failure

/-- `executeUpdateQuery`: -1 for a statement that fails. -/
def executeUpdateQuery (statement : Statement) : Task Int :=
  tryCatch (perform (Sum.inr statement : Command)) fun _ => return -1

/-- `getTableCount`: -1 for a statement that fails. -/
def getTableCount (condition : Condition) : Task Int :=
  tryCatch (perform (Sum.inr (.getTableCount condition) : Command)) fun _ => return -1

/-- `MAX_ACCOUNT_COUNT`. -/
def maxAccountCount : Nat := 5000

/-- `removeInactiveAccounts`. -/
def removeInactiveAccounts : Task Unit := do
  let _ ← executeUpdateQuery (.deleteSelected .nonPresetInactiveAccounts)

/-- `markExcessiveAccountsAsInactive`. -/
def markExcessiveAccountsAsInactive (count : Int) : Task Unit := do
  let selectQuery := selectTopOldestAccounts count .nonPresetActiveAccounts
  let _ ← executeUpdateQuery (.updateAccountStatus selectQuery false)

/-- `removeExcessiveAccounts`. The product is a number of type `double` without rounding. -/
def removeExcessiveAccounts (limit : Nat) (cleanupRatio : ℚ) : Task Unit := do
  let tableCount ← getTableCount .nonPresetActiveAccounts
  if tableCount > limit then
    markExcessiveAccountsAsInactive (cleanupCount id limit cleanupRatio)

/-- `doEachDay`, what it does to accounts. -/
def doEachDay : Task Unit := do
  removeInactiveAccounts
  removeExcessiveAccounts maxAccountCount cleanupRatio

/-- What runs: the content creator for so many days, and any number of requests. -/
def program (hash : String → String) (requests : Nat → Request) (days : Nat) :
    Option Nat → Task Unit
  | none => forEach (List.range days) fun _ => doEachDay
  | some n => do
    let _ ← ((requests n).handler hash).among

/-- All of them before the first command. -/
def start (hash : String → String) (requests : Nat → Request)
    (clocks : Nat → Nat → Accounts.DateTimeOffset) (days : Nat) (db : Database) :
    System (Option Nat) Command Reply Accounts.Failure Unit Private Database :=
  ⟨fun i => ⟨program hash requests days i, { request := { now := clocks (i.getD 0) } }⟩, db⟩

/-! ## What each may do -/

/-- The content creator deletes inactive accounts only, and marks 2500 accounts when it has
counted more than 5000. The requests modify no account. -/
def terms : Option Nat → Terms Command Accounts.Failure Private Database
  | none =>
    { assume _ _ := True
      guard
        | .inr (.updateAccountStatus q status), l => status = false ∧
          q = selectTopOldestAccounts 2500 .nonPresetActiveAccounts ∧ 5000 < l.counted
        | .inr (.deleteSelected condition), _ =>
          ∀ a, condition.Holds a → Condition.nonPresetInactiveAccounts.Holds a
        | .inr (.getTableCount _), _ => True
        | .inl _, _ => False
      abort _ _ := True
      refusable _ _ := True }
  | some _ =>
    { assume _ _ := True
      guard
        | .inl command, _ => ∀ account, command ≠ .updateAccount account
        | .inr _, _ => False
      abort _ _ := True
      refusable _ _ := True }

variable {rank : Int → Nat} {hash : String → String} {l l' : Private} {db db' : Database}
  {owner : Accounts.Account}

theorem cleanupCount_eq : cleanupCount id maxAccountCount cleanupRatio = 2500 := by decide +kernel

theorem removeInactiveAccounts_keeps :
    removeInactiveAccounts.Keeps (machine rank) (terms none) (fun _ _ => True) l := by
  unfold removeInactiveAccounts executeUpdateQuery
  rw [keeps_bind]
  apply keeps_tryCatch
  exact keeps_perform (fun _ inactive => inactive) (fun _ => trivial) fun _ _ _ _ _ _ => trivial

/-- What has been counted is what the marks rely on. -/
theorem markExcessiveAccountsAsInactive_keeps (counted : 5000 < l.counted) :
    (markExcessiveAccountsAsInactive 2500).Keeps (machine rank) (terms none) (fun _ _ => True)
      l := by
  unfold markExcessiveAccountsAsInactive executeUpdateQuery
  rw [keeps_bind]
  apply keeps_tryCatch
  exact keeps_perform ⟨rfl, rfl, counted⟩ (fun _ => trivial) fun _ _ _ _ _ _ => trivial

theorem removeExcessiveAccounts_keeps :
    (removeExcessiveAccounts maxAccountCount cleanupRatio).Keeps (machine rank) (terms none)
      (fun _ _ => True) l := by
  have decides : ∀ (n : Int) (l : Private), (5000 < n → 5000 < l.counted) →
      Program.Keeps (machine rank) (terms none)
        (if n > maxAccountCount then
          markExcessiveAccountsAsInactive (cleanupCount id maxAccountCount cleanupRatio)
        else pure () : Task Unit) (fun _ _ => True) l := by
    intro n l known
    by_cases many : n > maxAccountCount
    · rw [if_pos many, cleanupCount_eq]
      exact markExcessiveAccountsAsInactive_keeps (known many)
    · rw [if_neg many]
      trivial
  unfold removeExcessiveAccounts getTableCount
  rw [keeps_bind]
  apply keeps_tryCatch
  refine keeps_perform trivial (fun _ => ?_) fun db n l' db' _ acted => ?_
  · exact decides (-1) l (by omega)
  · cases acted
    exact decides _ _ id

theorem doEachDay_keeps :
    doEachDay.Keeps (machine rank) (terms none) (fun _ _ => True) l := by
  unfold doEachDay
  rw [keeps_bind]
  exact removeInactiveAccounts_keeps.mono fun _ _ _ => removeExcessiveAccounts_keeps

/-- The commands of a request that creates an account. -/
theorem handler_only {request : Request} (creates : ∀ account, request ≠ .modifyAccount account) :
    (request.handler hash).Only fun c => ∀ account, c ≠ .updateAccount account := by
  cases request with
  | modifyAccount account => exact absurd rfl (creates account)
  | signup request =>
    unfold Request.handler Accounts.signup
    refine only_bind (only_perform fun _ => by simp) fun found => ?_
    cases found with
    | some account => trivial
    | none =>
      refine only_tryCatch ?_ fun _ => trivial
      refine only_bind (only_perform fun _ => by simp) fun _ => ?_
      exact only_bind (only_perform fun _ => by simp) fun _ => trivial
  | createNewAccount request =>
    unfold Request.handler Accounts.createNewAccount
    refine only_bind (only_perform fun _ => by simp) fun found => ?_
    cases found with
    | some account => trivial
    | none =>
      refine only_bind (only_perform fun _ => by simp) fun found => ?_
      cases found with
      | some account => trivial
      | none =>
        refine only_bind (only_perform fun _ => by simp) fun _ => ?_
        exact only_bind (only_perform fun _ => by simp) fun _ => trivial

theorem program_keeps {requests : Nat → Request} {days : Nat}
    (create : ∀ n account, requests n ≠ .modifyAccount account) (i : Option Nat) :
    (program hash requests days i).Keeps (machine rank) (terms i) (fun _ _ => True) l := by
  cases i with
  | none =>
    refine (keeps_forEach (fun _ _ => True) (fun _ _ l _ => ?_) _ l trivial).mono
      fun _ _ _ => trivial
    exact doEachDay_keeps
  | some n =>
    have only : (program hash requests days (some n)).Only
        fun c => ∃ command, c = .inl command ∧ ∀ account, command ≠ .updateAccount account :=
      only_bind ((handler_only (create n)).among fun c creates => ⟨c, rfl, creates⟩)
        fun _ => trivial
    refine only.keeps (fun _ => True) ?_ (fun _ _ _ _ _ _ _ _ _ => trivial)
      (fun _ _ _ => trivial) trivial
    rintro c l ⟨command, rfl, creates⟩ -
    exact creates

/-! ## What keeps the owner's account -/

/-- The owner's account is there, it is older than every other account and than everything that
happens, and as many accounts as the content creator has counted are still active. -/
structure Kept (owner : Accounts.Account) (privs : Option Nat → Private) (db : Database) :
    Prop where
  valid : db.Valid
  there : owner ∈ db.accounts
  oldest : ∀ a ∈ db.accounts, a.id ≠ owner.id →
    owner.creationDate.instant < a.creationDate.instant
  later : ∀ i n, owner.creationDate.instant < ((privs i).request.now n).instant
  counted : (privs none).counted ≤ count .nonPresetActiveAccounts db

/-- The clock of a request is its own. -/
theorem now_act {c : Accounts.Command} {l l' : Accounts.Private} {reply : Accounts.Reply c}
    (acted : Accounts.act c l db = some (reply, l', db')) : l'.now = l.now := by
  cases c with
  | insertAccount request =>
    obtain ⟨_, -, same⟩ := Option.map_eq_some_iff.1 acted
    cases same
    rfl
  | insertBalance balance =>
    obtain ⟨_, -, same⟩ := Option.map_eq_some_iff.1 acted
    cases same
    rfl
  | updateAccount account =>
    obtain ⟨_, -, same⟩ := Option.map_eq_some_iff.1 acted
    cases same
    rfl
  | _ =>
    cases acted
    rfl

/-- A request that modifies no account adds at most one account, dated now. -/
theorem accounts_act {c : Accounts.Command} {l l' : Accounts.Private} {reply : Accounts.Reply c}
    (creates : ∀ account, c ≠ .updateAccount account)
    (acted : Accounts.act c l db = some (reply, l', db')) :
    db'.accounts = db.accounts ∨ ∃ a n, a.id = db.seed ∧ a.creationDate = l.now n ∧
      db'.accounts = db.accounts ++ [a] := by
  cases c with
  | insertAccount request =>
    obtain ⟨_, inserted, same⟩ := Option.map_eq_some_iff.1 acted
    cases same
    have rows := Accounts.Database.insertAccount_eq_some inserted
    subst rows
    exact Or.inr ⟨_, 2 * l.turn, rfl, rfl, rfl⟩
  | insertBalance balance =>
    obtain ⟨_, inserted, same⟩ := Option.map_eq_some_iff.1 acted
    cases same
    obtain ⟨-, -, rfl⟩ := Accounts.Database.insertBalance_eq_some inserted
    exact Or.inl rfl
  | updateAccount account => exact absurd rfl (creates account)
  | _ =>
    cases acted
    exact Or.inl rfl

/-- What a deletion leaves is valid: the balances go with their accounts. -/
theorem delete_valid (condition : Condition) (valid : db.Valid) :
    (delete condition db).Valid := by
  have fewer : (delete condition db).accountIds ⊆ db.accountIds :=
    (List.Sublist.map _ List.filter_sublist).subset
  refine ⟨?_, ?_, ?_, ?_⟩
  · exact valid.keys.sublist (List.Sublist.map _ List.filter_sublist)
  · exact valid.balanceKeys.sublist (List.Sublist.map _ List.filter_sublist)
  · intro id mem
    obtain ⟨balance, left, rfl⟩ := List.mem_map.mp mem
    obtain ⟨member, spared⟩ := List.mem_filter.mp left
    obtain ⟨a, there, own⟩ := List.mem_map.mp (valid.owners (List.mem_map_of_mem member))
    have stays : ¬condition.Holds (row a) := fun meets =>
      of_decide_eq_true spared (own ▸ List.mem_map_of_mem
        (List.mem_filter.mpr ⟨there, decide_eq_true meets⟩))
    exact own ▸ List.mem_map_of_mem (List.mem_filter.mpr ⟨there, decide_eq_true stays⟩)
  · exact fun id mem => valid.seed id (fewer mem)

/-- The accounts after a mark are the same, up to their flags. -/
theorem mem_mark {ids : List Int} {status : Bool} {a : Accounts.Account}
    (mem : a ∈ (mark ids status db).accounts) :
    ∃ b ∈ db.accounts, a.id = b.id ∧ a.creationDate = b.creationDate := by
  obtain ⟨b, there, same⟩ := List.mem_map.mp mem
  refine ⟨b, there, ?_⟩
  rw [← same]
  split
  · exact ⟨rfl, rfl⟩
  · exact ⟨rfl, rfl⟩

theorem mark_valid (ids : List Int) (status : Bool) (valid : db.Valid) :
    (mark ids status db).Valid := by
  have keys : (mark ids status db).accountIds = db.accountIds := by
    show (List.map _ (List.map _ _)) = List.map _ _
    rw [List.map_map]
    refine List.map_congr_left fun a _ => ?_
    show (if a.id ∈ ids then { a with accountActive := status } else a).id = a.id
    split
    · rfl
    · rfl
  refine ⟨?_, valid.balanceKeys, ?_, ?_⟩
  · rw [keys]
    exact valid.keys
  · rw [keys]
    exact valid.owners
  · rw [keys]
    exact valid.seed

/-- The oldest account is not among the newest ones while there are more of them. -/
theorem owner_not_marked {k : Nat} (valid : db.Valid) (there : owner ∈ db.accounts)
    (oldest : ∀ a ∈ db.accounts, a.id ≠ owner.id →
      owner.creationDate.instant < a.creationDate.instant)
    (more : k < count .nonPresetActiveAccounts db) :
    owner.id ∉ (top (Newer rank) k ((db.accounts.map row).filter fun a =>
      Condition.nonPresetActiveAccounts.Holds a)).map Account.id := by
  intro taken
  obtain ⟨a, taken, same⟩ := List.mem_map.mp taken
  have keys : ((db.accounts.map row).map Account.id).Nodup := by
    rw [List.map_map]
    exact valid.keys
  have isOwner : a = row owner := by
    have mem := List.mem_of_mem_filter (mem_of_mem_top _ taken)
    exact List.inj_on_of_nodup_map keys mem (List.mem_map_of_mem there) same
  subst isOwner
  refine not_mem_top (Newer rank) ?_ ?_ (keys.of_map.filter _) taken
  · intro b mem other newer
    obtain ⟨c, member, rfl⟩ := List.mem_map.mp (List.mem_of_mem_filter mem)
    have apart : c.id ≠ owner.id := fun same =>
      other (List.inj_on_of_nodup_map valid.keys member there same ▸ rfl)
    have older := oldest c member apart
    change c.creationDate.instant < owner.creationDate.instant ∨
      (owner.creationDate.instant = c.creationDate.instant ∧ _) at newer
    omega
  · rw [← List.countP_eq_length_filter, List.countP_map]
    exact more

/-- Every command within the terms keeps the owner's account. -/
theorem Kept.act {privs : Option Nat → Private} {i : Option Nat} {c : Command} {reply : Reply c}
    (active : owner.accountActive = true) (kept : Kept owner privs db)
    (guarded : (terms i).guard c (privs i))
    (acted : (machine rank).act c (privs i) db = some (reply, l', db')) :
    Kept owner (Function.update privs i l') db' := by
  obtain ⟨valid, there, oldest, later, counted⟩ := kept
  cases i with
  | some n =>
    cases c with
    | inr statement => exact guarded.elim
    | inl command =>
      obtain ⟨⟨answer, own, after⟩, done, same⟩ := Option.map_eq_some_iff.1 acted
      cases same
      have clocks : ∀ j m, owner.creationDate.instant <
          ((Function.update privs (some n) { privs (some n) with request := own } j).request.now
            m).instant := by
        intro j m
        by_cases self : j = some n
        · subst self
          rw [Function.update_self]
          show _ < (own.now m).instant
          rw [now_act done]
          exact later (some n) m
        · rw [Function.update_of_ne self]
          exact later j m
      have others : (Function.update privs (some n) { privs (some n) with request := own }
          none).counted = (privs none).counted := by
        rw [Function.update_of_ne (by simp)]
      have validAfter := Accounts.act_valid valid done
      rcases accounts_act guarded done with same | ⟨a, m, key, now, more⟩
      · refine ⟨validAfter, ?_, ?_, clocks, ?_⟩
        · rw [same]
          exact there
        · rw [same]
          exact oldest
        · rw [others, count, same]
          exact counted
      · refine ⟨validAfter, ?_, ?_, clocks, ?_⟩
        · rw [more]
          exact List.mem_append_left _ there
        · rw [more]
          intro b mem apart
          rcases List.mem_append.mp mem with old | new
          · exact oldest b old apart
          · rw [List.mem_singleton.mp new, now]
            exact later (some n) m
        · rw [others, count, more, List.countP_append]
          have := counted
          unfold count at this
          omega
  | none =>
    cases c with
    | inl command => exact guarded.elim
    | inr statement =>
      obtain ⟨⟨answer, after⟩, done, same⟩ := Option.map_eq_some_iff.1 acted
      cases same
      have clocks : ∀ j m, owner.creationDate.instant <
          ((Function.update privs none { privs none with counted := statement.known answer }
            j).request.now m).instant := by
        intro j m
        by_cases self : j = none
        · subst self
          rw [Function.update_self]
          exact later none m
        · rw [Function.update_of_ne self]
          exact later j m
      have own : (Function.update privs none { privs none with counted := statement.known answer }
          none).counted = statement.known answer := by
        rw [Function.update_self]
      cases statement with
      | getTableCount condition =>
        cases done
        refine ⟨valid, there, oldest, clocks, ?_⟩
        rw [own]
        cases condition with
        | nonPresetActiveAccounts => exact Int.le_refl _
        | nonPresetInactiveAccounts => exact Int.natCast_nonneg _
        | emptyCondition => exact Int.natCast_nonneg _
      | deleteSelected condition =>
        cases done
        have stays : ¬condition.Holds (row owner) := by
          intro meets
          have inactive := (guarded (row owner) meets).1
          change some owner.accountActive = some false at inactive
          rw [active] at inactive
          cases inactive
        refine ⟨delete_valid condition valid, ?_, ?_, clocks, ?_⟩
        · exact List.mem_filter.mpr ⟨there, decide_eq_true stays⟩
        · exact fun a mem => oldest a (List.mem_of_mem_filter mem)
        · rw [own]
          exact Int.natCast_nonneg _
      | updateAccountStatus q status =>
        obtain ⟨rfl, rfl, enough⟩ := guarded
        rw [Statement.act] at done
        obtain ⟨rows, isRows, same⟩ := Option.map_eq_some_iff.1 done
        cases same
        cases isRows
        have spared := @owner_not_marked rank _ _ 2500 valid there oldest (by omega)
        refine ⟨mark_valid _ _ valid, ?_, ?_, clocks, ?_⟩
        · exact List.mem_map.mpr ⟨owner, there, if_neg spared⟩
        · intro a mem apart
          obtain ⟨b, member, key, date⟩ := mem_mark mem
          rw [date]
          exact oldest b member (key ▸ apart)
        · rw [own]
          exact Int.natCast_nonneg _

/-- The owner's account as the database is set up: active, and older than every other account. -/
structure Seeded (owner : Accounts.Account) (db : Database) : Prop where
  there : owner ∈ db.accounts
  isOwner : owner.id = ownerId
  internal : owner.origin = "INTERNAL"
  active : owner.accountActive = true
  oldest : ∀ a ∈ db.accounts, a.id ≠ ownerId →
    owner.creationDate.instant < a.creationDate.instant

/-- The owner's account is there and active. -/
def HasOwner (db : Database) : Prop := ∃ a ∈ db.accounts, a.id = ownerId ∧ a.accountActive = true

/-- Beside any requests that create accounts the owner's account outlives every clean-up. -/
theorem owner_survives (rank : Int → Nat) (hash : String → String) (requests : Nat → Request)
    (create : ∀ n account, requests n ≠ .modifyAccount account)
    (clocks : Nat → Nat → Accounts.DateTimeOffset) (days : Nat) (db : Database) (valid : db.Valid)
    (owner : Accounts.Account) (seeded : Seeded owner db)
    (later : ∀ n k, owner.creationDate.instant < (clocks n k).instant)
    (schedule : List (Option Nat × Bool)) :
    HasOwner ((start hash requests clocks days db).run (machine rank) schedule).shared := by
  have first : Kept owner (start hash requests clocks days db).privs db := by
    refine ⟨valid, seeded.there, ?_, fun i k => later (i.getD 0) k, Int.natCast_nonneg _⟩
    intro a mem apart
    exact seeded.oldest a mem (seeded.isOwner ▸ apart)
  have free : (start hash requests clocks days db).Respects (machine rank)
      (fun _ _ _ _ _ => True) schedule := System.Respects.of_forall (fun _ _ _ _ _ => trivial) _ _
  have kept := (System.run_terms (t := terms) (Kept owner)
    (fun _ _ _ i => by cases i <;> trivial) (fun _ _ i _ _ _ _ _ _ => by cases i <;> trivial)
    (fun _ _ _ _ _ _ _ guarded _ kept acted => kept.act seeded.active guarded acted) schedule
    (fun i => program_keeps create i) first free).1
  exact ⟨owner, kept.there, seeded.isOwner, seeded.active⟩

/-- The first two accounts of the set-up. -/
def setUp (id : Int) (firstName username : String) (date : Int) : Accounts.Account :=
  { id, packageId := 1, firstName, lastName := "User", username, email := username
    hashedPassword := "hash", origin := "INTERNAL", creationDate := ⟨date, 0⟩
    packageActivationDate := ⟨date, 0⟩, accountActive := true, address := "Main St" }

/-- The tables with these two accounts. -/
def setUpDatabase : Database :=
  { packages := [1]
    accounts := [setUp 1 "EASYTRADE" "owneristhebest" 63775549482,
      setUp 2 "Lab" "userName" 63777223086]
    balances := [⟨1, 0⟩, ⟨2, 0⟩]
    seed := 3 }

/-- The clean-up of a year beside requests that sign up. -/
theorem owner_survives_of_sign_ups :
    HasOwner ((start id (fun _ => .signup ⟨1, "Jo", "Doe", "jo", "jo", "secret", "WEB", "Main St"⟩)
      (fun _ _ => ⟨63902822400, 0⟩) 365 setUpDatabase).run (machine Int.toNat)
        [(some 0, false), (none, false), (some 0, false), (none, true), (some 1, false)]).shared :=
  owner_survives Int.toNat id _ (by intro _ _; exact nofun) (fun _ _ => ⟨63902822400, 0⟩) 365
    setUpDatabase ⟨by decide, by decide, by decide, by decide⟩
    (setUp 1 "EASYTRADE" "owneristhebest" 63775549482) ⟨by decide, rfl, rfl, rfl, by decide⟩
    (fun _ _ => by decide) _

end EasyTrade.Content.Owner
