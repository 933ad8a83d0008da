import EasyTrade.Accounts.Services
import EasyTrade.Logic.Rely

/-!
# Logging in

`Login` looks an account up by its username and compares the hash of a password, `Logout` looks
an account up by its identifier. Beside any sign-ups, account requests, modifications, logins
and logouts, a user who has signed up logs in with the password of the sign-up and with no
other one, as long as inserted usernames are still free and no modification touches a username
or a hash (`signed_up_logs_in`). The hashes are compared in the process, so they are told apart
letter by letter.
-/

namespace EasyTrade.Accounts

open EasyTrade.Logic EasyTrade.Logic.Program

/-! ## The handlers -/

/-- `LoginRequest`. -/
structure LoginRequest where
  /-- The username. -/
  username : String
  /-- The password. -/
  password : String
  deriving DecidableEq, Repr

/-- The answers of the login service and the manager together. -/
inductive Answer where
  /-- The answer of a request that writes accounts. -/
  | ofResponse (response : Response)
  /-- `Ok` with the identifier of the account. -/
  | loggedIn (id : Int)
  /-- `Ok` with a message. -/
  | message (text : String)
  /-- `NotFound` with an error. -/
  | notFound (error : String)
  deriving DecidableEq, Repr

/-- A handler with such an answer. -/
abbrev Visiting := Program Command Reply Failure Answer

/-- `Login`. -/
def login (hash : String → String) (loginRequest : LoginRequest) : Visiting := do
  match ← send (.firstByUsername loginRequest.username) with
  | none => return .notFound "Invalid username or password"
  | some account =>
    if account.hashedPassword = hash loginRequest.password then return .loggedIn account.id
    return .notFound "Invalid username or password"

/-- `Logout`. -/
def logout (accountId : Int) : Visiting := do
  if ← send (.accountExists accountId) then
    return .message "User has been successfully logged out."
  return .notFound "Invalid accountId"

/-- The requests, with logins and logouts. -/
inductive Visit where
  | write (request : Request)
  | login (request : LoginRequest)
  | logout (accountId : Int)

/-- The handler of a request. -/
def Visit.handler (hash : String → String) : Visit → Visiting
  | .write request => do return .ofResponse (← request.handler hash)
  | .login request => Accounts.login hash request
  | .logout accountId => Accounts.logout accountId

/-- Any number of requests together. -/
def startVisits {ι : Type} (hash : String → String) (visits : ι → Visit)
    (clocks : ι → Nat → DateTimeOffset) (db : Database) :
    System ι Command Reply Failure Answer Private Database :=
  ⟨fun i => ⟨(visits i).handler hash, { now := clocks i }⟩, db⟩

/-! ## What lasts -/

/-- What a login needs of an account. -/
def Account.login (account : Account) : Int × String × String :=
  (account.id, account.username, account.hashedPassword)

/-- What logins need of the accounts. -/
def Database.logins (db : Database) : List (Int × String × String) := db.accounts.map Account.login

/-- The tables are valid, and no two accounts share their username. -/
structure Database.Named (db : Database) : Prop where
  /-- Keys and balances. -/
  valid : db.Valid
  /-- Usernames. -/
  usernames : (db.accounts.map Account.username).Nodup

/-- Usernames stay apart, and every login stays. -/
def Lasts (db db' : Database) : Prop := db.Named → db'.Named ∧ db.logins ⊆ db'.logins

/-- The username of a new account is still the one found free, and a modified account keeps
its username and its hash. -/
def Settled : Command → Private → Database → Prop
  | .insertAccount _, l, db => ∀ a ∈ db.accounts, l.freeUsername ≠ some a.username
  | .updateAccount account, _, db =>
    ∀ a ∈ db.accounts, a.id = account.id → a.login = account.login
  | _, _, _ => True

instance : (c : Command) → (l : Private) → (db : Database) → Decidable (Settled c l db)
  | .insertAccount _, l, db =>
    inferInstanceAs (Decidable (∀ a ∈ db.accounts, l.freeUsername ≠ some a.username))
  | .updateAccount account, _, db =>
    inferInstanceAs (Decidable (∀ a ∈ db.accounts, a.id = account.id → a.login = account.login))
  | .firstByUsernameOrEmail _ _, _, _ | .firstByUsername _, _, _ | .firstByEmail _, _, _
  | .insertBalance _, _, _ | .accountExists _, _, _ => isTrue trivial

/-- What every request relies on and guarantees. -/
def pact : Pact Command Private Database where
  rely := Lasts
  guarantee := Lasts
  granted := Settled
  rely_refl _ named := ⟨named, List.Subset.refl _⟩
  rely_trans first second named :=
    ⟨(second (first named).1).1, List.Subset.trans (first named).2 (second (first named).1).2⟩

instance (c : Command) (l : Private) (db : Database) : Decidable (pact.granted c l db) :=
  inferInstanceAs (Decidable (Settled c l db))

section Pact

variable {db db' : Database} {l l' : Private} {c : Command} {reply : Reply c} {id : Int}
  {hash : String → String} {username hashed : String}

/-- A new account. -/
theorem insertAccount_lasts {request : AccountRequest} {reply : Int}
    (free : l.freeUsername = some request.username) (settled : Settled (.insertAccount request) l db)
    (acted : act (.insertAccount request) l db = some (reply, l', db')) :
    Lasts db db' ∧ (reply, request.username, request.hashedPassword) ∈ db'.logins := by
  have kept : db.Valid → db'.Valid := fun valid => act_valid valid acted
  obtain ⟨db'', inserted, same⟩ := Option.map_eq_some_iff.1 acted
  cases same
  have rows := Database.insertAccount_eq_some inserted
  subst rows
  refine ⟨fun named => ⟨⟨kept named.valid, ?_⟩, ?_⟩, ?_⟩
  · change ((db.accounts ++ [_]).map Account.username).Nodup
    rw [List.map_append, List.map_singleton, List.nodup_append]
    refine ⟨named.usernames, List.nodup_singleton _, fun u old v new same => ?_⟩
    obtain ⟨a, mem, rfl⟩ := List.mem_map.1 old
    rw [List.mem_singleton.1 new] at same
    exact settled a mem (free.trans (congrArg some same.symm))
  · exact List.map_subset _ (List.subset_append_left _ _)
  · exact List.mem_map.2 ⟨_, List.mem_append_right _ List.mem_cons_self, rfl⟩

/-- Every other command. -/
theorem act_lasts (settled : Settled c l db) (acted : act c l db = some (reply, l', db'))
    (other : ∀ request, c ≠ .insertAccount request) : Lasts db db' := by
  have kept : db.Valid → db'.Valid := fun valid => act_valid valid acted
  cases c with
  | insertAccount request => exact absurd rfl (other request)
  | insertBalance balance =>
    obtain ⟨db'', inserted, same⟩ := Option.map_eq_some_iff.1 acted
    cases same
    obtain ⟨-, -, rfl⟩ := Database.insertBalance_eq_some inserted
    exact fun named => ⟨⟨kept named.valid, named.usernames⟩, List.Subset.refl _⟩
  | updateAccount account =>
    obtain ⟨⟨n, db''⟩, updated, same⟩ := Option.map_eq_some_iff.1 acted
    cases same
    have rows := Database.updateAccount_eq_some updated
    subst rows
    have logins : (db.accounts.map fun a => if a.id = account.id then account else a).map
        Account.login = db.accounts.map Account.login := by
      rw [List.map_map]
      refine List.map_congr_left fun a mem => ?_
      simp only [Function.comp_apply]
      split
      · rename_i own
        exact (settled a mem own).symm
      · rfl
    have usernames := (congrArg (List.map fun login => login.2.1) logins).trans List.map_map
    rw [List.map_map] at usernames
    refine fun named => ⟨⟨kept named.valid, ?_⟩, fun login mem => ?_⟩
    · exact (congrArg List.Nodup usernames).mpr named.usernames
    · exact (congrArg (login ∈ ·) logins).mpr mem
  | _ =>
    cases acted
    exact fun named => ⟨named, List.Subset.refl _⟩

/-- A username that is in use leads to its account. -/
theorem Database.Named.find (named : db.Named) (mem : (id, username, hashed) ∈ db.logins) :
    ∃ account, db.accounts.find? (fun a => a.username = username) = some account ∧
      account.id = id ∧ account.hashedPassword = hashed := by
  obtain ⟨account, there, same⟩ := List.mem_map.1 mem
  obtain ⟨sameId, sameName, sameHash⟩ :
      account.id = id ∧ account.username = username ∧ account.hashedPassword = hashed := by
    simpa [Account.login] using same
  cases found : db.accounts.find? fun a => a.username = username with
  | none =>
    have absent := List.find?_eq_none.1 found account there
    exact absurd (decide_eq_true sameName) absent
  | some first =>
    have firstName := List.find?_some found
    rw [decide_eq_true_eq] at firstName
    have one := List.inj_on_of_nodup_map named.usernames (List.mem_of_find?_eq_some found) there
      (firstName.trans sameName.symm)
    exact ⟨first, rfl, one ▸ sameId, one ▸ sameHash⟩

/-! ## The handlers keep the pact -/

/-- One lasting change after another. -/
theorem Lasts.trans {db'' : Database} (first : Lasts db db') (second : Lasts db' db'') :
    Lasts db db'' := pact.rely_trans first second

/-- A command that inserts no account. -/
theorem assures_send {post : Except Failure (Reply c) → Private → Database → Prop}
    (other : ∀ request, c ≠ .insertAccount request)
    (refused : ∀ db', Lasts db db' → post (.error .refused) l db')
    (acts : ∀ db₁ reply l' db₂ db₃, Lasts db db₁ → act c l db₁ = some (reply, l', db₂) →
      Lasts db₁ db₂ → Lasts db₂ db₃ → post (.ok reply) l' db₃) :
    Assures machine pact (send c) post l db := by
  refine assures_perform refused fun db₁ reply l' db₂ within settled acted => ?_
  have lasts := act_lasts settled acted other
  exact ⟨lasts, fun db₃ later => acts db₁ reply l' db₂ db₃ within acted lasts later⟩

/-- An account is inserted with a username found free. -/
theorem assures_insertAccount {request : AccountRequest}
    {post : Except Failure Int → Private → Database → Prop}
    (free : l.freeUsername = some request.username)
    (refused : ∀ db', Lasts db db' → post (.error .refused) l db')
    (acts : ∀ db₁ id l' db₂ db₃, Lasts db db₁ → Lasts db₁ db₂ →
      (id, request.username, request.hashedPassword) ∈ db₂.logins → Lasts db₂ db₃ →
      post (.ok id) l' db₃) :
    Assures machine pact (send (.insertAccount request)) post l db := by
  refine assures_perform refused fun db₁ id l' db₂ within settled acted => ?_
  obtain ⟨lasts, mem⟩ := insertAccount_lasts free settled acted
  exact ⟨lasts, fun db₃ later => acts db₁ id l' db₂ db₃ within lasts mem later⟩

/-- A sign-up that has returned an identifier has left a login with it. -/
theorem assures_signup (request : SignupRequest) (named : db.Named) :
    Assures machine pact (signup hash request) (fun answer _ db' => ∀ id,
      answer = .ok (.created id) →
        (id, request.username, hash request.password) ∈ db'.logins) l db := by
  unfold signup
  refine assures_bind (assures_send (fun _ same => by cases same) ?_ ?_)
  · intro db' _ id same
    cases same
  intro db₁ found l₁ db₂ db₃ first acted _ second
  cases acted
  cases none : db₁.accounts.find? fun a => a.username = request.username ∨
      a.email = request.email with
  | some account =>
    intro db' _ id same
    cases same
  | none =>
    refine assures_tryCatch (assures_bind (assures_insertAccount rfl ?_ ?_))
    · intro db' _ db'' _ id same
      cases same
    intro db₄ id l₂ db₅ db₆ third fourth mem fifth
    have named' := ((((first.trans second).trans third).trans fourth) named).1
    refine assures_bind (assures_send (fun _ same => by cases same) ?_ ?_)
    · intro db' _ db'' _ id same
      cases same
    intro db₇ _ l₃ db₈ db₉ sixth _ seventh eighth db' last id' same
    cases same
    exact (((((fifth.trans sixth).trans seventh).trans eighth).trans last) named').2 mem

theorem assures_createNewAccount (request : AccountRequest) :
    Assures machine pact (createNewAccount request) (fun _ _ _ => True) l db := by
  unfold createNewAccount
  refine assures_bind (assures_send (fun _ same => by cases same) (fun _ _ => trivial)
    fun db₁ found l₁ db₂ db₃ _ acted _ _ => ?_)
  cases acted
  cases none : db₁.accounts.find? fun a => a.username = request.username with
  | some account => exact fun _ _ => trivial
  | none =>
    refine assures_bind (assures_send (fun _ same => by cases same) (fun _ _ => trivial)
      fun db₄ found l₂ db₅ db₆ _ acted _ _ => ?_)
    cases acted
    cases none : db₄.accounts.find? fun a => a.email = request.email with
    | some account => exact fun _ _ => trivial
    | none =>
      refine assures_bind (assures_insertAccount rfl (fun _ _ => trivial) ?_)
      intro db₇ id l₃ db₈ db₉ _ _ _ _
      refine assures_bind (assures_send (fun _ same => by cases same) (fun _ _ => trivial) ?_)
      exact fun _ _ _ _ _ _ _ _ _ _ _ => trivial

/-- Commands that insert no account. -/
def Command.InsertsNone (c : Command) : Prop := ∀ request, c ≠ .insertAccount request

theorem assures_of_only {α : Type} {p : Program Command Reply Failure α}
    (only : p.Only Command.InsertsNone) : Assures machine pact p (fun _ _ _ => True) l db :=
  only.assures (fun _ _ _ _ _ _ none settled acted => act_lasts settled acted none) l db

theorem only_login (request : LoginRequest) : (login hash request).Only Command.InsertsNone := by
  refine only_bind (only_perform fun _ same => by cases same) fun found => ?_
  cases found with
  | none => trivial
  | some account =>
    change (if _ then _ else _ : Visiting).Only _
    split <;> trivial

theorem only_logout (accountId : Int) : (logout accountId).Only Command.InsertsNone := by
  refine only_bind (only_perform fun _ same => by cases same) fun there => ?_
  change (if _ then _ else _ : Visiting).Only _
  split <;> trivial

theorem assures_request (request : Request) (named : db.Named) :
    Assures machine pact (request.handler hash) (fun answer _ db' => ∀ r id,
      request = .signup r → answer = .ok (.created id) →
        (id, r.username, hash r.password) ∈ db'.logins) l db := by
  cases request with
  | signup request =>
    refine (assures_signup request named).mono fun answer _ db' left r id same created => ?_
    cases same
    exact left id created
  | createNewAccount request =>
    refine (assures_createNewAccount request).mono fun _ _ _ _ r id same => ?_
    cases same
  | modifyAccount account =>
    have only : (putAccount account).Only Command.InsertsNone :=
      (only_putAccount account).mono fun c modifies request same => by
        rw [same] at modifies
        exact modifies
    refine (assures_of_only only).mono fun _ _ _ _ r id same => ?_
    cases same

/-- Every request keeps the pact, and a sign-up leaves its login. -/
theorem assures_visit (visit : Visit) (named : db.Named) :
    Assures machine pact (visit.handler hash) (fun answer _ db' => ∀ r id,
      visit = .write (.signup r) → answer = .ok (.ofResponse (.created id)) →
        (id, r.username, hash r.password) ∈ db'.logins) l db := by
  cases visit with
  | write request =>
    have own : Assures machine pact (request.handler hash) _ l db := assures_request request named
    have kept := own.related Lasts Lasts.trans (fun _ _ within => within) (fun _ _ within => within)
      (pact.rely_refl db)
    refine assures_bind (kept.mono fun answer l' db' left => ?_)
    cases answer with
    | ok response =>
      intro db'' last r id same created
      cases same
      cases created
      exact (last (left.2 named).1).2 (left.1 r id rfl rfl)
    | error error =>
      intro r id _ created
      cases created
  | login request =>
    refine (assures_of_only (only_login request)).mono fun _ _ _ _ r id same => ?_
    cases same
  | logout accountId =>
    refine (assures_of_only (only_logout accountId)).mono fun _ _ _ _ r id same => ?_
    cases same

/-! ## Answers -/

/-- A login with a known username. -/
theorem assures_login (request : LoginRequest) (named : db.Named)
    (mem : (id, request.username, hashed) ∈ db.logins) :
    Assures machine pact (login hash request) (fun answer _ _ => ∀ a, answer = .ok a →
      a = if hashed = hash request.password then .loggedIn id
        else .notFound "Invalid username or password") l db := by
  unfold login
  refine assures_bind (assures_send (fun _ same => by cases same) ?_ ?_)
  · intro db' _ a same
    cases same
  intro db₁ found l₁ db₂ db₃ within acted _ _
  obtain ⟨named', kept⟩ := within named
  obtain ⟨account, isFound, sameId, sameHash⟩ := named'.find (kept mem)
  cases acted
  rw [isFound]
  subst sameId sameHash
  change Assures machine pact (if _ then _ else _ : Visiting) _ _ _
  by_cases same : account.hashedPassword = hash request.password
  · rw [if_pos same, if_pos same]
    intro db' _ a isAnswer
    cases isAnswer
    rfl
  · rw [if_neg same, if_neg same]
    intro db' _ a isAnswer
    cases isAnswer
    rfl

/-- A logout of a known account. -/
theorem assures_logout (named : db.Named) (mem : (id, username, hashed) ∈ db.logins) :
    Assures machine pact (logout id) (fun answer _ _ => ∀ a, answer = .ok a →
      a = .message "User has been successfully logged out.") l db := by
  unfold logout
  refine assures_bind (assures_send (fun _ same => by cases same) ?_ ?_)
  · intro db' _ a same
    cases same
  intro db₁ there l₁ db₂ db₃ within acted _ _
  obtain ⟨account, isThere, same⟩ := List.mem_map.1 ((within named).2 mem)
  have known : id ∈ db₁.accountIds :=
    List.mem_map.2 ⟨account, isThere, congrArg Prod.fst same⟩
  cases acted
  rw [decide_eq_true known]
  intro db' _ a isAnswer
  cases isAnswer
  rfl

/-- What a user who has signed up is answered. -/
def Visit.Serves (hash : String → String) (user : SignupRequest) (id : Int) :
    Visit → Answer → Prop
  | .login request, answer => request.username = user.username →
    answer = if hash user.password = hash request.password then .loggedIn id
      else .notFound "Invalid username or password"
  | .logout accountId, answer => accountId = id →
    answer = .message "User has been successfully logged out."
  | .write _, _ => True

theorem assures_serves (visit : Visit) {user : SignupRequest} (named : db.Named)
    (mem : (id, user.username, hash user.password) ∈ db.logins) :
    Assures machine pact (visit.handler hash)
      (fun answer _ _ => ∀ a, answer = .ok a → visit.Serves hash user id a) l db := by
  cases visit with
  | write request =>
    exact (assures_visit (.write request) named).mono fun _ _ _ _ _ _ => trivial
  | login request =>
    by_cases own : request.username = user.username
    · rw [← own] at mem
      exact (assures_login request named mem).mono fun _ _ _ answers a isAnswer _ =>
        answers a isAnswer
    · exact (assures_of_only (only_login request)).mono fun _ _ _ _ _ _ same => absurd same own
  | logout accountId =>
    by_cases own : accountId = id
    · subst own
      exact (assures_logout named mem).mono fun _ _ _ answers a isAnswer _ => answers a isAnswer
    · exact (assures_of_only (only_logout accountId)).mono fun _ _ _ _ _ _ same => absurd same own

end Pact

/-! ## Runs -/

section Runs

variable {ι : Type} [DecidableEq ι]

/-- The rule for requests that all keep the pact. -/
theorem run_visits {post : ι → Except Failure Answer → Private → Database → Prop}
    {s : System ι Command Reply Failure Answer Private Database} {schedule : List (ι × Bool)}
    (assures : ∀ i, Assures machine pact (s.threads i).program (post i) (s.threads i).priv s.shared)
    (grants : s.Grants machine (fun _ => pact) schedule) :
    Lasts s.shared (s.run machine schedule).shared ∧
      ∀ i, Assures machine pact ((s.run machine schedule).threads i).program (post i)
        ((s.run machine schedule).threads i).priv (s.run machine schedule).shared :=
  System.run_assures pact.rely_refl Lasts.trans (fun _ _ _ _ _ within => within)
    (fun _ _ _ within => within) schedule assures grants

/-- A user who has signed up logs in from then on with the password of the sign-up and with no
password of another hash, gets the identifier the sign-up has returned, and logs out with it.
This is so beside any other requests, refused or not, as long as every inserted username is still
free and no modification touches a username or a hash. -/
theorem signed_up_logs_in (hash : String → String) (visits : ι → Visit)
    (clocks : ι → Nat → DateTimeOffset) (db : Database) (named : db.Named)
    (before after : List (ι × Bool))
    (settled : (startVisits hash visits clocks db).Grants machine (fun _ => pact) (before ++ after))
    {i j : ι} {user : SignupRequest} {id : Int} {answer : Answer}
    (signup : visits i = .write (.signup user))
    (created : (((startVisits hash visits clocks db).run machine before).threads i).program =
      .done (.ofResponse (.created id)))
    (waiting : (((startVisits hash visits clocks db).run machine before).threads j).program =
      (visits j).handler hash)
    (answered : (((startVisits hash visits clocks db).run machine (before ++ after)).threads
      j).program = .done answer) :
    (visits j).Serves hash user id answer := by
  obtain ⟨earlier, later⟩ := System.respects_append.mp settled
  obtain ⟨lasts, all⟩ := run_visits (fun i => assures_visit (visits i) named) earlier
  rw [System.run_append] at answered
  obtain ⟨s, isMid⟩ : ∃ s, s = (startVisits hash visits clocks db).run machine before := ⟨_, rfl⟩
  rw [← isMid] at lasts all later created waiting answered
  have namedThen : s.shared.Named := (lasts named).1
  have mem : (id, user.username, hash user.password) ∈ s.shared.logins := by
    have left := all i
    rw [created] at left
    exact left.ended user id signup rfl
  -- from here on only the answer of the request in question matters
  have toCome : ∀ k, Assures machine pact (s.threads k).program
      (fun answer _ _ => ∀ a, k = j → answer = .ok a → (visits j).Serves hash user id a)
      (s.threads k).priv s.shared := by
    intro k
    by_cases mine : k = j
    · subst mine
      rw [waiting]
      exact (assures_serves (visits k) namedThen mem).mono fun _ _ _ serves a _ => serves a
    · exact (all k).mono fun _ _ _ _ a same => absurd same mine
  have last := (run_visits toCome later).2 j
  rw [answered] at last
  exact last.ended answer rfl rfl

/-- Two sign-ups, side by side, and visits of their users. -/
def sampleVisits : Nat → Visit
  | 0 => .write (.signup sampleSignup)
  | 1 => .write (.signup { sampleSignup with username := "al", email := "al@example.com" })
  | 2 => .login ⟨"jo", "secret"⟩
  | 3 => .login ⟨"jo", "guess"⟩
  | _ => .logout 1

/-- The sign-ups interleave, and a modification gives their accounts a new address. -/
def sampleVisitsTurns : List (Nat × Bool) :=
  [(1, false), (0, false), (0, false), (1, false), (0, false)]

theorem emptyDatabase_named : emptyDatabase.Named := ⟨emptyDatabase_valid, List.nodup_nil⟩

theorem signed_up_logs_in_beside_another :
    (sampleVisits 2).Serves id sampleSignup 1 (.loggedIn 1) ∧
      (sampleVisits 3).Serves id sampleSignup 1 (.notFound "Invalid username or password") ∧
      (sampleVisits 4).Serves id sampleSignup 1
        (.message "User has been successfully logged out.") := by
  have visit := fun (j : Nat) answer => @signed_up_logs_in Nat _ id sampleVisits
    (fun _ _ => ⟨0, 0⟩) emptyDatabase emptyDatabase_named sampleVisitsTurns
    [(2, false), (3, false), (4, false), (1, false)] (by decide +kernel) 0 j sampleSignup 1 answer
    rfl rfl
  exact ⟨visit 2 _ rfl rfl, visit 3 _ rfl rfl, visit 4 _ rfl rfl⟩

/-- Of two users who sign up for one username at the same time, the second one is let in with the
password of the first one only. -/
example :
    let visits : Nat → Visit := fun n =>
      if n = 0 then .write (.signup sampleSignup)
      else if n = 1 then .write (.signup { sampleSignup with password := "other" })
      else .login ⟨"jo", if n = 2 then "other" else "secret"⟩
    let s := (startVisits id visits (fun _ _ => ⟨0, 0⟩) emptyDatabase).run machine
      [(0, false), (1, false), (0, false), (1, false), (0, false), (1, false), (2, false),
        (3, false)]
    (s.threads 1).program = .done (.ofResponse (.created 2)) ∧
      (s.threads 2).program = .done (.notFound "Invalid username or password") ∧
      (s.threads 3).program = .done (.loggedIn 1) := ⟨rfl, rfl, rfl⟩

end Runs

end EasyTrade.Accounts
