import EasyTrade.Accounts.Entities
import EasyTrade.Logic.Alone

/-!
# Signing up, creating and modifying accounts

The handlers that write `Accounts`, as programs. Each query is one command, and each
`SaveChanges` is one: it opens a transaction of its own and commits it. Dates are
taken from the clock when a row is built.
-/

namespace EasyTrade.Accounts

open EasyTrade.Logic EasyTrade.Logic.Program

/-! ## The tables -/

/-- The tables. -/
structure Database where
  /-- The keys of `Packages`. -/
  packages : List Int := []
  /-- `Accounts`. -/
  accounts : List Account := []
  /-- `Balance`. -/
  balances : List Balance := []
  /-- The next identifier of an account. -/
  seed : Int := 1
  deriving DecidableEq

namespace Database

/-- The keys of `Accounts`. -/
def accountIds (db : Database) : List Int := db.accounts.map Account.id

/-- The keys of `Balance`. -/
def balanceIds (db : Database) : List Int := db.balances.map Balance.accountId

/-- An `INSERT` into `Accounts`: its package has to exist. -/
def insertAccount (db : Database) (account : Account) : Option Database :=
  if account.packageId ∈ db.packages then
    some { db with accounts := db.accounts ++ [account], seed := db.seed + 1 }
  else none

/-- An `INSERT` into `Balance`: its account has to exist and to have no balance. -/
def insertBalance (db : Database) (balance : Balance) : Option Database :=
  if balance.accountId ∈ db.accountIds ∧ balance.accountId ∉ db.balanceIds then
    some { db with balances := db.balances ++ [balance] }
  else none

/-- An `UPDATE` of every column of an account; how many rows it changes. -/
def updateAccount (db : Database) (account : Account) : Option (Nat × Database) :=
  if account.id ∉ db.accountIds then some (0, db)
  else if account.packageId ∈ db.packages then
    some (db.accountIds.count account.id,
      { db with accounts := db.accounts.map fun a => if a.id = account.id then account else a })
  else none

end Database

/-! ## Commands -/

/-- The commands of all handlers. -/
inductive Command where
  /-- `FirstOrDefault` by username or email. -/
  | firstByUsernameOrEmail (username email : String)
  /-- `FirstOrDefault` by username. -/
  | firstByUsername (username : String)
  /-- `FirstOrDefault` by email. -/
  | firstByEmail (email : String)
  /-- `SaveChanges` with a new account. -/
  | insertAccount (request : AccountRequest)
  /-- `SaveChanges` with a new balance. -/
  | insertBalance (balance : Balance)
  /-- `SaveChanges` with a modified account. -/
  | updateAccount (account : Account)
  /-- `AccountExists`. -/
  | accountExists (id : Int)

/-- What answers a command. -/
abbrev Reply : Command → Type
  | .firstByUsernameOrEmail _ _ => Option Account
  | .firstByUsername _ => Option Account
  | .firstByEmail _ => Option Account
  | .insertAccount _ => Int
  | .insertBalance _ => Unit
  | .updateAccount _ => Nat
  | .accountExists _ => Bool

/-- The private state of a request. -/
structure Private where
  /-- The clock, as the request finds it each time. -/
  now : Nat → DateTimeOffset := fun _ => ⟨0, 0⟩
  /-- How many commands it has carried out. -/
  turn : Nat := 0
  /-- The username it has last found free. -/
  freeUsername : Option String := none
  /-- The email it has last found free. -/
  freeEmail : Option String := none

/-- One more command has been carried out. -/
def Private.tick (l : Private) : Private := { l with turn := l.turn + 1 }

/-- A text that has been found free. -/
def freed {α : Type} (found : Option α) (text : String) (old : Option String) : Option String :=
  if found.isNone then some text else old

/-- What a command does. -/
def act : (command : Command) → Private → Database → Option (Reply command × Private × Database)
  | .firstByUsernameOrEmail username email, l, db =>
    let found := db.accounts.find? fun a => a.username = username ∨ a.email = email
    some (found, { l with
      freeUsername := freed found username l.freeUsername
      freeEmail := freed found email l.freeEmail }.tick, db)
  | .firstByUsername username, l, db =>
    let found := db.accounts.find? fun a => a.username = username
    some (found, { l with freeUsername := freed found username l.freeUsername }.tick, db)
  | .firstByEmail email, l, db =>
    let found := db.accounts.find? fun a => a.email = email
    some (found, { l with freeEmail := freed found email l.freeEmail }.tick, db)
  | .insertAccount request, l, db =>
    let account := request.account db.seed (l.now (2 * l.turn)) (l.now (2 * l.turn + 1))
    (db.insertAccount account).map fun db' => (db.seed, l.tick, db')
  | .insertBalance balance, l, db => (db.insertBalance balance).map fun db => ((), l.tick, db)
  | .updateAccount account, l, db =>
    (db.updateAccount account).map fun done => (done.1, l.tick, done.2)
  | .accountExists id, l, db => some (decide (id ∈ db.accountIds), l.tick, db)

/-- The machine of all requests. -/
def machine : Machine Command Reply Failure Private Database where
  act := act
  fault := .refused

theorem machine_act (c : Command) (l : Private) (db : Database) : machine.act c l db = act c l db :=
  rfl

/-- A handler. -/
abbrev Task := Program Command Reply Failure

/-- Issue a command. -/
def send (command : Command) : Task (Reply command) := Program.perform command

/-! ## Handlers -/

/-- `Signup`. Both `SaveChanges` stand in one `try`. -/
def signup (hash : String → String) (signupRequest : SignupRequest) : Task Response := do
  match ← send (.firstByUsernameOrEmail signupRequest.username signupRequest.email) with
  | some _ => return .badRequest "User already exists"
  | none =>
    tryCatch
      (do
        let id ← send (.insertAccount (signupRequest.accountRequest hash))
        send (.insertBalance { accountId := id })
        return .created id)
      fun exception => return .failed exception

/-- `CreateNewAccount`. -/
def createNewAccount (accountRequest : AccountRequest) : Task Response := do
  match ← send (.firstByUsername accountRequest.username) with
  | some _ => return .badRequest "An account with given username already exists!"
  | none =>
    match ← send (.firstByEmail accountRequest.email) with
    | some _ => return .badRequest "An account with given email already exists!"
    | none =>
      let id ← send (.insertAccount accountRequest)
      send (.insertBalance { accountId := id })
      return .created id

/-- `SaveChanges` of a modified account: it fails if there is no row to update. -/
def saveModified (account : Account) : Task Unit := do
  let rows ← send (.updateAccount account)
  if rows = 0 then throw .concurrency

/-- `PutAccount`. -/
def putAccount (account : Account) : Task Response := do
  if account.id ≤ 0 then return .badRequest ""
  tryCatch
    (do
      saveModified account
      return .noContent)
    fun
    | .concurrency => do
      if ← send (.accountExists account.id) then throw .concurrency else return .notFound
    | exception => throw exception

/-- The requests. -/
inductive Request where
  | signup (request : SignupRequest)
  | createNewAccount (request : AccountRequest)
  | modifyAccount (account : Account)

/-- The handler of a request. -/
def Request.handler (hash : String → String) : Request → Task Response
  | signup request => Accounts.signup hash request
  | createNewAccount request => Accounts.createNewAccount request
  | modifyAccount account => putAccount account

/-- The commands of a modification. -/
def Command.Modifies : Command → Prop
  | .updateAccount _ | .accountExists _ => True
  | _ => False

theorem only_putAccount (account : Account) : (putAccount account).Only Command.Modifies := by
  unfold putAccount
  split
  · trivial
  · refine only_tryCatch ?_ fun e => ?_
    · unfold saveModified
      refine only_bind (only_bind (only_perform trivial) fun rows => ?_) fun _ => trivial
      split <;> trivial
    · cases e with
      | refused => trivial
      | concurrency =>
        refine only_bind (only_perform trivial) fun there => ?_
        split <;> trivial

/-! ## What every command keeps -/

/-- What always holds of the tables. -/
structure Database.Valid (db : Database) : Prop where
  /-- `PK_Accounts`. -/
  keys : db.accountIds.Nodup
  /-- `PK_Balance`. -/
  balanceKeys : db.balanceIds.Nodup
  /-- `FK_Balance_Accounts`. -/
  owners : db.balanceIds ⊆ db.accountIds
  /-- The identity column is past every account. -/
  seed : ∀ id ∈ db.accountIds, id < db.seed

variable {db db' : Database} {l l' : Private} {c : Command} {reply : Reply c}

theorem Database.insertAccount_eq_some {account : Account}
    (h : db.insertAccount account = some db') :
    db' = { db with accounts := db.accounts ++ [account], seed := db.seed + 1 } := by
  unfold insertAccount at h
  split at h
  · exact (Option.some.inj h).symm
  · cases h

theorem Database.insertBalance_eq_some {balance : Balance}
    (h : db.insertBalance balance = some db') :
    balance.accountId ∈ db.accountIds ∧ balance.accountId ∉ db.balanceIds ∧
      db' = { db with balances := db.balances ++ [balance] } := by
  unfold insertBalance at h
  split at h
  · rename_i allowed
    exact ⟨allowed.1, allowed.2, (Option.some.inj h).symm⟩
  · cases h

/-- What an update does to the accounts, whether there is a row to update or not. -/
theorem Database.updateAccount_eq_some {account : Account} {n : Nat}
    (h : db.updateAccount account = some (n, db')) :
    db' = { db with accounts := db.accounts.map fun a => if a.id = account.id then account else a } := by
  unfold updateAccount at h
  split at h
  · rename_i absent
    cases h
    have same : (db.accounts.map fun a => if a.id = account.id then account else a) = db.accounts := by
      refine (List.map_congr_left fun a mem => if_neg fun own => ?_).trans (List.map_id _)
      exact absent (own ▸ List.mem_map_of_mem mem)
    rw [same]
  · split at h
    · cases h
      rfl
    · cases h

/-- An update keeps the keys. -/
theorem accountIds_update (account : Account) :
    ((db.accounts.map fun a => if a.id = account.id then account else a).map Account.id) =
      db.accountIds := by
  rw [Database.accountIds, List.map_map]
  refine List.map_congr_left fun a _ => ?_
  simp only [Function.comp_apply]
  split
  · rename_i same
    exact same.symm
  · rfl

/-- Every command keeps the tables valid. -/
theorem act_valid (valid : db.Valid) (acted : act c l db = some (reply, l', db')) : db'.Valid := by
  cases c with
  | insertAccount request =>
    obtain ⟨db'', inserted, same⟩ := Option.map_eq_some_iff.1 acted
    cases same
    have rows := Database.insertAccount_eq_some inserted
    subst rows
    have new : db.seed ∉ db.accountIds := fun mem => by
      have := valid.seed _ mem
      omega
    have grown : (db.accounts ++ [request.account db.seed (l.now (2 * l.turn))
        (l.now (2 * l.turn + 1))]).map Account.id = db.accountIds ++ [db.seed] := by
      simp [Database.accountIds, AccountRequest.account]
    constructor
    · change ((db.accounts ++ [_]).map Account.id).Nodup
      rw [grown, List.nodup_append]
      refine ⟨valid.keys, List.nodup_singleton _, fun a old b now same => ?_⟩
      rw [List.mem_singleton.1 now] at same
      exact new (same ▸ old)
    · exact valid.balanceKeys
    · intro id mem
      change id ∈ (db.accounts ++ [_]).map Account.id
      rw [grown]
      exact List.mem_append_left _ (valid.owners mem)
    · intro id mem
      change id ∈ (db.accounts ++ [_]).map Account.id at mem
      rw [grown] at mem
      change id < db.seed + 1
      rcases List.mem_append.1 mem with old | now
      · have := valid.seed id old
        omega
      · rw [List.mem_singleton.1 now]
        omega
  | insertBalance balance =>
    obtain ⟨db'', inserted, same⟩ := Option.map_eq_some_iff.1 acted
    cases same
    obtain ⟨owner, new, rfl⟩ := Database.insertBalance_eq_some inserted
    have grown : (db.balances ++ [balance]).map Balance.accountId =
        db.balanceIds ++ [balance.accountId] := by
      simp [Database.balanceIds]
    refine { valid with balanceKeys := ?_, owners := ?_ }
    · change ((db.balances ++ [balance]).map Balance.accountId).Nodup
      rw [grown, List.nodup_append]
      refine ⟨valid.balanceKeys, List.nodup_singleton _, fun a old b now same => ?_⟩
      rw [List.mem_singleton.1 now] at same
      exact new (same ▸ old)
    · intro id mem
      change id ∈ (db.balances ++ [balance]).map Balance.accountId at mem
      rw [grown] at mem
      rcases List.mem_append.1 mem with old | now
      · exact valid.owners old
      · rw [List.mem_singleton.1 now]
        exact owner
  | updateAccount account =>
    obtain ⟨⟨n, db''⟩, updated, same⟩ := Option.map_eq_some_iff.1 acted
    cases same
    have rows := Database.updateAccount_eq_some updated
    subst rows
    have keys := @accountIds_update db account
    constructor
    · change ((db.accounts.map _).map Account.id).Nodup
      rw [keys]
      exact valid.keys
    · exact valid.balanceKeys
    · intro id mem
      change id ∈ (db.accounts.map _).map Account.id
      rw [keys]
      exact valid.owners mem
    · intro id mem
      change id ∈ (db.accounts.map _).map Account.id at mem
      rw [keys] at mem
      exact valid.seed id mem
  | _ =>
    cases acted
    exact valid

/-- One package and no account. -/
def emptyDatabase : Database := { packages := [1] }

theorem emptyDatabase_valid : emptyDatabase.Valid where
  keys := List.nodup_nil
  balanceKeys := List.nodup_nil
  owners := List.nil_subset _
  seed := nofun

/-- A sign-up. -/
def sampleSignup : SignupRequest :=
  ⟨1, "Jo", "Doe", "jo", "jo@example.com", "secret", "WEB", "Main St"⟩

end EasyTrade.Accounts
