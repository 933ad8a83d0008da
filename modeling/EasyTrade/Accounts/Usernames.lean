import EasyTrade.Accounts.Services

/-!
# Usernames and emails

Two handlers look for the username and the email before they insert an account,
without a lock; a third one overwrites both and looks for nothing. No constraint of
the table keeps them unique. They stay unique just where everything a request has
found free is still free when it inserts, and no modification takes what belongs to
another account.
-/

namespace EasyTrade.Accounts

open EasyTrade.Logic EasyTrade.Logic.Program

/-- No two accounts share their username or their email. -/
structure Database.Unique (db : Database) : Prop where
  /-- Usernames. -/
  usernames : (db.accounts.map Account.username).Nodup
  /-- Emails. -/
  emails : (db.accounts.map Account.email).Nodup

instance (db : Database) : Decidable db.Unique :=
  decidable_of_iff ((db.accounts.map Account.username).Nodup ∧ (db.accounts.map Account.email).Nodup)
    ⟨fun h => ⟨h.1, h.2⟩, fun h => ⟨h.usernames, h.emails⟩⟩

/-- What a request has found free is still free when it inserts an account, and what it
gives an existing account belongs to no other. -/
def StillFree : Command → Private → Database → Prop
  | .insertAccount _, l, db =>
    ∀ a ∈ db.accounts, l.freeUsername ≠ some a.username ∧ l.freeEmail ≠ some a.email
  | .updateAccount account, _, db => account.id ∈ db.accountIds →
    ∀ a ∈ db.accounts, a.id ≠ account.id → a.username ≠ account.username ∧ a.email ≠ account.email
  | _, _, _ => True

instance (c : Command) (l : Private) (db : Database) : Decidable (StillFree c l db) := by
  cases c <;> unfold StillFree <;> infer_instance

/-- An account is inserted with a username and an email that have been found free. -/
def checked : Terms Command Failure Private Database where
  assume _ _ := True
  guard
    | .insertAccount request, l =>
      l.freeUsername = some request.username ∧ l.freeEmail = some request.email
    | _, _ => True
  abort _ _ := True
  refusable _ _ := True

variable {db db' : Database} {l l' : Private}

/-! ## The handlers check first -/

theorem signup_checked (hash : String → String) (request : SignupRequest) :
    Keeps machine checked (signup hash request) (fun _ _ => True) l := by
  unfold signup
  rw [keeps_bind]
  refine keeps_perform trivial (fun _ => trivial) fun g found l' g' _ acted => ?_
  cases acted
  cases none : g.accounts.find? fun a => a.username = request.username ∨ a.email = request.email with
  | some account => trivial
  | none =>
    refine keeps_tryCatch ?_
    rw [keeps_bind]
    refine keeps_perform ⟨rfl, rfl⟩ (fun _ => trivial) fun g id l' g' _ _ => ?_
    rw [keeps_bind]
    exact keeps_perform trivial (fun _ => trivial) fun _ _ _ _ _ _ => trivial

theorem createNewAccount_checked (request : AccountRequest) :
    Keeps machine checked (createNewAccount request) (fun _ _ => True) l := by
  unfold createNewAccount
  rw [keeps_bind]
  refine keeps_perform trivial (fun _ => trivial) fun g found l₁ g' _ acted => ?_
  cases acted
  cases none : g.accounts.find? fun a => a.username = request.username with
  | some account => trivial
  | none =>
    rw [keeps_bind]
    refine keeps_perform trivial (fun _ => trivial) fun g found l₂ g' _ acted => ?_
    cases acted
    cases none : g.accounts.find? fun a => a.email = request.email with
    | some account => trivial
    | none =>
      rw [keeps_bind]
      refine keeps_perform ⟨rfl, rfl⟩ (fun _ => trivial) fun g id l' g' _ _ => ?_
      rw [keeps_bind]
      exact keeps_perform trivial (fun _ => trivial) fun _ _ _ _ _ _ => trivial

theorem putAccount_checked (account : Account) :
    Keeps machine checked (putAccount account) (fun _ _ => True) l :=
  (only_putAccount account).keeps (fun _ => True) (fun c _ modifies _ => by cases c <;> trivial)
    (fun _ _ _ _ _ _ _ _ _ => trivial) (fun _ _ _ => trivial) trivial

theorem handler_checked (hash : String → String) (request : Request) :
    Keeps machine checked (request.handler hash) (fun _ _ => True) l := by
  cases request with
  | signup request => exact signup_checked hash request
  | createNewAccount request => exact createNewAccount_checked request
  | modifyAccount account => exact putAccount_checked account

/-! ## What a command does to the usernames and emails -/

/-- An account inserted as the rules have it keeps all unique just where it is new. -/
theorem unique_insert {request : AccountRequest} {id : Int} (unique : db.Unique)
    (guarded : checked.guard (.insertAccount request) l)
    (acted : act (.insertAccount request) l db = some (id, l', db')) :
    db'.Unique ↔ StillFree (.insertAccount request) l db := by
  obtain ⟨db'', inserted, same⟩ := Option.map_eq_some_iff.1 acted
  cases same
  have rows := Database.insertAccount_eq_some inserted
  subst rows
  have usernames : (db.accounts ++ [request.account db.seed (l.now (2 * l.turn))
      (l.now (2 * l.turn + 1))]).map Account.username =
      db.accounts.map Account.username ++ [request.username] := by
    simp [AccountRequest.account]
  have emails : (db.accounts ++ [request.account db.seed (l.now (2 * l.turn))
      (l.now (2 * l.turn + 1))]).map Account.email =
      db.accounts.map Account.email ++ [request.email] := by
    simp [AccountRequest.account]
  have appended : ∀ {xs : List String} {x : String}, xs.Nodup → ((xs ++ [x]).Nodup ↔ x ∉ xs) := by
    intro xs x nodup
    rw [List.nodup_append]
    constructor
    · rintro ⟨-, -, apart⟩ mem
      exact apart x mem x List.mem_cons_self rfl
    · intro absent
      refine ⟨nodup, List.nodup_singleton _, fun a mem b now same => ?_⟩
      rw [List.mem_singleton.1 now] at same
      exact absent (same ▸ mem)
  have iff : ∀ a ∈ db.accounts, (l.freeUsername ≠ some a.username ∧ l.freeEmail ≠ some a.email) ↔
      (a.username ≠ request.username ∧ a.email ≠ request.email) := by
    intro a _
    rw [guarded.1, guarded.2]
    simp only [ne_eq, Option.some.injEq, eq_comm]
  constructor
  · rintro ⟨uniqueUsernames, uniqueEmails⟩ a mem
    change ((db.accounts ++ [_]).map Account.username).Nodup at uniqueUsernames
    change ((db.accounts ++ [_]).map Account.email).Nodup at uniqueEmails
    rw [usernames, appended unique.usernames] at uniqueUsernames
    rw [emails, appended unique.emails] at uniqueEmails
    refine (iff a mem).2 ⟨fun same => ?_, fun same => ?_⟩
    · exact uniqueUsernames (same ▸ List.mem_map_of_mem mem)
    · exact uniqueEmails (same ▸ List.mem_map_of_mem mem)
  · intro free
    constructor
    · change ((db.accounts ++ [_]).map Account.username).Nodup
      rw [usernames, appended unique.usernames]
      intro taken
      obtain ⟨a, mem, same⟩ := List.mem_map.1 taken
      exact ((iff a mem).1 (free a mem)).1 same
    · change ((db.accounts ++ [_]).map Account.email).Nodup
      rw [emails, appended unique.emails]
      intro taken
      obtain ⟨a, mem, same⟩ := List.mem_map.1 taken
      exact ((iff a mem).1 (free a mem)).2 same

/-- A column stays without repetition, when one row is replaced, just where the new value
is in no other row. -/
theorem nodup_replace {column : Account → String} {accounts : List Account} {account : Account}
    (keys : (accounts.map Account.id).Nodup) (nodup : (accounts.map column).Nodup)
    (known : account.id ∈ accounts.map Account.id) :
    ((accounts.map fun a => if a.id = account.id then account else a).map column).Nodup ↔
      ∀ a ∈ accounts, a.id ≠ account.id → column a ≠ column account := by
  rw [List.map_map]
  have distinct := keys.of_map
  rw [List.nodup_map_iff_inj_on distinct]
  have injective := List.inj_on_of_nodup_map nodup
  obtain ⟨old, there, own⟩ := List.mem_map.1 known
  constructor
  · intro inj a mem other same
    have both : (column ∘ fun a => if a.id = account.id then account else a) a =
        (column ∘ fun a => if a.id = account.id then account else a) old := by
      simp only [Function.comp_apply, if_neg other, if_pos own, same]
    exact other (inj a mem old there both ▸ own)
  · intro apart a memA b memB same
    simp only [Function.comp_apply] at same
    by_cases ownA : a.id = account.id
    · by_cases ownB : b.id = account.id
      · exact List.inj_on_of_nodup_map keys memA memB (ownA.trans ownB.symm)
      · rw [if_pos ownA, if_neg ownB] at same
        exact absurd same.symm (apart b memB ownB)
    · by_cases ownB : b.id = account.id
      · rw [if_neg ownA, if_pos ownB] at same
        exact absurd same (apart a memA ownA)
      · rw [if_neg ownA, if_neg ownB] at same
        exact injective memA memB same

/-- A modification keeps all unique just where it takes nothing from another account. -/
theorem unique_update {account : Account} {rows : Nat} (valid : db.Valid) (unique : db.Unique)
    (acted : act (.updateAccount account) l db = some (rows, l', db')) :
    db'.Unique ↔ StillFree (.updateAccount account) l db := by
  obtain ⟨⟨n, db''⟩, updated, same⟩ := Option.map_eq_some_iff.1 acted
  cases same
  by_cases known : account.id ∈ db.accountIds
  · have rows := Database.updateAccount_eq_some updated
    subst rows
    have usernames := nodup_replace valid.keys unique.usernames known
    have emails := nodup_replace valid.keys unique.emails known
    constructor
    · rintro ⟨uniqueUsernames, uniqueEmails⟩ _ a mem other
      exact ⟨usernames.1 uniqueUsernames a mem other, emails.1 uniqueEmails a mem other⟩
    · intro free
      exact ⟨usernames.2 fun a mem other => (free known a mem other).1,
        emails.2 fun a mem other => (free known a mem other).2⟩
  · have rows : db'' = db := by
      unfold Database.updateAccount at updated
      rw [if_pos known] at updated
      cases updated
      rfl
    subst rows
    exact iff_of_true unique fun there => absurd there known

/-- Any number of requests together. -/
def start {ι : Type} (hash : String → String) (requests : ι → Request)
    (clocks : ι → Nat → DateTimeOffset) (db : Database) :
    System ι Command Reply Failure Response Private Database :=
  ⟨fun i => ⟨(requests i).handler hash, { now := clocks i }⟩, db⟩

/-- All along a schedule usernames and emails are unique just where what has been found
free is still free when it is taken, and no modification takes what is another's. -/
theorem usernames_unique {ι : Type} [DecidableEq ι] (hash : String → String)
    (requests : ι → Request) (clocks : ι → Nat → DateTimeOffset) (db : Database)
    (valid : db.Valid) (unique : db.Unique) (schedule : List (ι × Bool)) :
    (∀ n, ((start hash requests clocks db).run machine (schedule.take n)).shared.Unique) ↔
      (start hash requests clocks db).Respects machine
        (fun _ refused c l db => refused = false → (machine.act c l db).isSome → StillFree c l db)
        schedule := by
  refine (System.always_iff_respects (t := fun _ : ι => checked) (fun _ _ _ => trivial)
    (fun _ _ _ _ => trivial)
    (fun _ _ (db : Database) _ _ _ (valid : db.Valid) acted => act_valid valid acted) ?_ schedule
    (fun i => handler_checked hash (requests i)) valid).trans (and_iff_right unique)
  intro _ c l g reply l' g' guarded valid unique acted
  have acted : act c l g = some (reply, l', g') := acted
  cases c with
  | insertAccount request => exact unique_insert unique guarded acted
  | updateAccount account => exact unique_update valid unique acted
  | insertBalance balance =>
    obtain ⟨db'', inserted, same⟩ := Option.map_eq_some_iff.1 acted
    cases same
    obtain ⟨-, -, rfl⟩ := Database.insertBalance_eq_some inserted
    exact iff_of_true ⟨unique.usernames, unique.emails⟩ trivial
  | _ =>
    cases acted
    exact iff_of_true unique trivial

/-- An account request for the username of `sampleSignup`, or for another one. -/
def sampleRequest (username email : String) : AccountRequest :=
  ⟨1, "Al", "Doe", username, email, "hash", "WEB", "Main St"⟩

/-- Two requests for one username, side by side, are both served. A modification gives one
account the username and the email of another. -/
theorem two_accounts_of_one_username :
    emptyDatabase.Valid ∧ emptyDatabase.Unique ∧
      (let requests : Bool → Request := fun second =>
        if second then .createNewAccount (sampleRequest "jo" "al@example.com")
        else .signup sampleSignup
      let s := (start id requests (fun _ _ => ⟨0, 0⟩) emptyDatabase).run machine
        [(true, false), (true, false), (false, false), (true, false), (false, false)]
      ¬ s.shared.Unique ∧ s.shared.accounts.map Account.username = ["jo", "jo"]) ∧
      (let requests : Nat → Request := fun n =>
        if n = 0 then .signup sampleSignup
        else if n = 1 then .createNewAccount (sampleRequest "al" "al@example.com")
        else .modifyAccount ((sampleRequest "jo" "jo@example.com").account 2 ⟨0, 0⟩ ⟨0, 0⟩)
      let s := (start id requests (fun _ _ => ⟨0, 0⟩) emptyDatabase).run machine
        [(0, false), (0, false), (0, false), (1, false), (1, false), (1, false), (1, false),
          (2, false)]
      ¬ s.shared.Unique ∧ s.shared.accounts.map Account.email =
        ["jo@example.com", "jo@example.com"]) :=
  ⟨emptyDatabase_valid, ⟨List.nodup_nil, List.nodup_nil⟩, by decide +kernel, by decide +kernel⟩

/-- The same requests, the second one for other names and the third one for new ones. -/
theorem usernames_unique_of_requests :
    let requests : Nat → Request := fun n =>
      if n = 0 then .signup sampleSignup
      else if n = 1 then .createNewAccount (sampleRequest "al" "al@example.com")
      else .modifyAccount ((sampleRequest "bo" "bo@example.com").account 2 ⟨0, 0⟩ ⟨0, 0⟩)
    ∀ n, ((start id requests (fun _ _ => ⟨0, 0⟩) emptyDatabase).run machine
      (List.take n [(1, false), (0, false), (1, false), (0, false), (1, false), (0, false),
        (1, false), (2, false)])).shared.Unique :=
  (usernames_unique id _ _ _ emptyDatabase_valid ⟨List.nodup_nil, List.nodup_nil⟩ _).2
    (by decide +kernel)

end EasyTrade.Accounts
