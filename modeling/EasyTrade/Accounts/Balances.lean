import EasyTrade.Accounts.Services

/-!
# Accounts and their balances

An account and its balance are saved by two `SaveChanges` in turn, each committed
on its own. Where the second one fails the request is answered with an error and the
account stays, without a balance and with its username taken. Nothing else leaves an
account without a balance.
-/

namespace EasyTrade.Accounts

open EasyTrade.Logic EasyTrade.Logic.Program

/-- A request, the clock it finds, and which of its commands are refused. -/
structure Call where
  /-- The request. -/
  request : Request
  /-- The clock. -/
  now : Nat → DateTimeOffset := fun _ => ⟨0, 0⟩
  /-- Which of its commands are refused. -/
  fails : Nat → Bool := fun _ => false

variable (hash : String → String)

/-- The answer of a call, if it is no exception, and the tables after it. -/
def Call.outcome (call : Call) (db : Database) : Except Failure Response × Private × Database :=
  exec machine (call.request.handler hash) call.fails { now := call.now } db

/-- The tables after a call. -/
def Call.serve (call : Call) (db : Database) : Database := (call.outcome hash db).2.2

/-- The tables after calls in turn. -/
def serveAll (calls : List Call) (db : Database) : Database :=
  calls.foldl (fun db call => call.serve hash db) db

/-- Every account from a key on has exactly one balance. -/
def Database.Balanced (base : Int) (db : Database) : Prop :=
  ∀ id ∈ db.accountIds, base ≤ id → db.balanceIds.count id = 1

instance (base : Int) (db : Database) : Decidable (db.Balanced base) :=
  inferInstanceAs (Decidable (∀ id ∈ db.accountIds, _))

/-- A call that is not answered with a new account has created none. -/
def Call.Honest (call : Call) (db : Database) : Prop :=
  (∀ id, (call.outcome hash db).1 ≠ .ok (.created id)) →
    (call.serve hash db).accountIds = db.accountIds

/-- The account is saved and the balance is not. -/
def Call.Strands (call : Call) (db : Database) : Prop :=
  match call.request with
  | .signup r =>
    call.fails 0 = false ∧ (∀ a ∈ db.accounts, a.username ≠ r.username ∧ a.email ≠ r.email) ∧
      call.fails 1 = false ∧ r.packageId ∈ db.packages ∧ call.fails 2 = true
  | .createNewAccount r =>
    call.fails 0 = false ∧ (∀ a ∈ db.accounts, a.username ≠ r.username) ∧
      call.fails 1 = false ∧ (∀ a ∈ db.accounts, a.email ≠ r.email) ∧
      call.fails 2 = false ∧ r.packageId ∈ db.packages ∧ call.fails 3 = true
  | .modifyAccount _ => False

instance (call : Call) (db : Database) : Decidable (call.Strands db) := by
  unfold Call.Strands
  split <;> infer_instance

/-- No call of the sequence strands an account. -/
def NoneStrands : List Call → Database → Prop
  | [], _ => True
  | first :: rest, db => ¬ first.Strands db ∧ NoneStrands rest (first.serve hash db)

instance NoneStrands.decidable :
    ∀ (calls : List Call) (db : Database), Decidable (NoneStrands hash calls db)
  | [], _ => isTrue trivial
  | first :: rest, db =>
    have := NoneStrands.decidable rest (first.serve hash db)
    inferInstanceAs (Decidable (_ ∧ _))

variable {hash} {db db' : Database} {l : Private} {fails : Nat → Bool}

/-! ## Saving an account and its balance -/

/-- What the two `SaveChanges` come to. -/
inductive Saved (db : Database) (strands : Prop) :
    Except Failure Response × Private × Database → Prop where
  /-- Nothing is saved. -/
  | nothing (answer l) (spared : ¬ strands) (error : ∀ id, answer ≠ .ok (.created id)) :
      Saved db strands (answer, l, db)
  /-- The account is saved alone. -/
  | account (answer l account) (stranded : strands) (error : ∀ id, answer ≠ .ok (.created id))
      (own : account.id = db.seed) :
      Saved db strands (answer, l,
        { db with accounts := db.accounts ++ [account], seed := db.seed + 1 })
  /-- Both are saved. -/
  | both (l account) (spared : ¬ strands) (own : account.id = db.seed) :
      Saved db strands (.ok (.created db.seed), l,
        { db with
          accounts := db.accounts ++ [account]
          balances := db.balances ++ [⟨db.seed, 0⟩]
          seed := db.seed + 1 })

/-- The two `SaveChanges`, alone. -/
theorem save_outcome (valid : db.Valid) (request : AccountRequest) :
    Saved db (fails 0 = false ∧ request.packageId ∈ db.packages ∧ fails 1 = true)
      (exec machine
        (do
          let id ← send (.insertAccount request)
          send (.insertBalance { accountId := id })
          return Response.created id) fails l db) := by
  rw [send, exec_send]
  cases saved : attempt machine (fails 0) (.insertAccount request) l db with
  | none =>
    refine .nothing _ _ (fun strands => ?_) (by simp)
    rcases attempt_eq_none.1 saved with refused | impossible
    · rw [strands.1] at refused
      cases refused
    · have possible : db.insertAccount (request.account db.seed (l.now (2 * l.turn))
          (l.now (2 * l.turn + 1))) ≠ none := by
        have known : (request.account db.seed (l.now (2 * l.turn))
            (l.now (2 * l.turn + 1))).packageId ∈ db.packages := strands.2.1
        unfold Database.insertAccount
        rw [if_pos known]
        exact Option.some_ne_none _
      exact possible (Option.map_eq_none_iff.1 impossible)
  | some r =>
    obtain ⟨id, l₁, db₁⟩ := r
    obtain ⟨done, acted⟩ := attempt_eq_some.1 saved
    obtain ⟨db₁', inserted, same⟩ := Option.map_eq_some_iff.1 acted
    cases same
    have known : request.packageId ∈ db.packages := by
      by_contra unknown
      simp [Database.insertAccount, AccountRequest.account, unknown] at inserted
    have rows := Database.insertAccount_eq_some inserted
    subst rows
    -- the new account has no balance yet, so only a refusal keeps it from getting one
    have new : db.seed ∉ db.balanceIds := fun mem => by
      have := valid.seed _ (valid.owners mem)
      omega
    rw [Option.elim_some, send, exec_send]
    cases failed : fails 1 with
    | true =>
      simp only [attempt_true, Option.elim_none]
      exact .account _ _ _ ⟨done, known, trivial⟩ (by simp) rfl
    | false =>
      have possible : db.seed ∈ (db.accounts ++ [request.account db.seed (l.now (2 * l.turn))
          (l.now (2 * l.turn + 1))]).map Account.id := by
        simp [AccountRequest.account]
      have acts : machine.act (.insertBalance { accountId := db.seed }) l.tick
          { db with
            accounts := db.accounts ++ [request.account db.seed (l.now (2 * l.turn))
              (l.now (2 * l.turn + 1))]
            seed := db.seed + 1 } =
          some ((), l.tick.tick,
            { db with
              accounts := db.accounts ++ [request.account db.seed (l.now (2 * l.turn))
                (l.now (2 * l.turn + 1))]
              balances := db.balances ++ [⟨db.seed, 0⟩]
              seed := db.seed + 1 }) := by
        change (Database.insertBalance _ _).map _ = _
        unfold Database.insertBalance
        rw [if_pos ⟨possible, new⟩]
        rfl
      simp only [attempt_false, acts, Option.elim_some, exec_pure]
      exact .both _ _ (fun strands => Bool.false_ne_true strands.2.2) rfl

/-- An error that is caught and answered is no new account either. -/
theorem Saved.tryCatch {strands : Prop} {r : Except Failure Response × Private × Database}
    (saved : Saved db strands r) :
    Saved db strands (.ok (caught Response.failed r.1), r.2) := by
  have caughtNone : ∀ answer : Except Failure Response, (∀ id, answer ≠ .ok (.created id)) →
      ∀ id, (.ok (caught Response.failed answer) : Except Failure Response) ≠ .ok (.created id) := by
    intro answer error id same
    cases answer with
    | ok response => exact error id same
    | error e => cases same
  cases saved with
  | nothing answer l spared error => exact .nothing _ _ spared (caughtNone answer error)
  | account answer l account stranded error own =>
    exact .account _ _ _ stranded (caughtNone answer error) own
  | both l account spared own => exact .both _ _ spared own

/-- The same result, under an equivalent condition. -/
theorem Saved.congr {strands strands' : Prop} {r : Except Failure Response × Private × Database}
    (saved : Saved db strands r) (same : strands ↔ strands') : Saved db strands' r := by
  rw [← propext same]
  exact saved

theorem signup_outcome (valid : db.Valid) (request : SignupRequest) :
    Saved db
      (fails 0 = false ∧
        (∀ a ∈ db.accounts, a.username ≠ request.username ∧ a.email ≠ request.email) ∧
        fails 1 = false ∧ request.packageId ∈ db.packages ∧ fails 2 = true)
      (exec machine (signup hash request) fails l db) := by
  unfold signup
  rw [send, exec_send]
  cases refused : fails 0 with
  | true =>
    simp only [attempt_true, Option.elim_none]
    exact .nothing _ _ (fun strands => nomatch strands.1) nofun
  | false =>
    simp only [attempt_false, machine_act, act, Option.elim_some]
    cases found : db.accounts.find? fun a => a.username = request.username ∨
        a.email = request.email with
    | some a =>
      refine .nothing _ _ (fun strands => ?_) nofun
      have taken := List.find?_some found
      rw [decide_eq_true_eq] at taken
      have free := strands.2.1 a (List.mem_of_find?_eq_some found)
      rcases taken with username | email
      · exact free.1 username
      · exact free.2 email
    | none =>
      have free : ∀ a ∈ db.accounts, a.username ≠ request.username ∧ a.email ≠ request.email := by
        intro a mem
        have absent := List.find?_eq_none.1 found a mem
        rw [decide_eq_true_eq, not_or] at absent
        exact absent
      simp only
      rw [exec_tryCatch fun _ => rfl]
      refine ((save_outcome valid (request.accountRequest hash)).congr ?_).tryCatch
      exact ⟨fun h => ⟨trivial, free, h⟩, fun h => h.2.2⟩

theorem createNewAccount_outcome (valid : db.Valid) (request : AccountRequest) :
    Saved db
      (fails 0 = false ∧ (∀ a ∈ db.accounts, a.username ≠ request.username) ∧
        fails 1 = false ∧ (∀ a ∈ db.accounts, a.email ≠ request.email) ∧
        fails 2 = false ∧ request.packageId ∈ db.packages ∧ fails 3 = true)
      (exec machine (createNewAccount request) fails l db) := by
  unfold createNewAccount
  rw [send, exec_send]
  cases refused₀ : fails 0 with
  | true =>
    simp only [attempt_true, Option.elim_none]
    exact .nothing _ _ (fun strands => nomatch strands.1) nofun
  | false =>
    simp only [attempt_false, machine_act, act, Option.elim_some]
    cases found : db.accounts.find? fun a => a.username = request.username with
    | some a =>
      refine .nothing _ _ (fun strands => ?_) nofun
      have taken := List.find?_some found
      rw [decide_eq_true_eq] at taken
      exact strands.2.1 a (List.mem_of_find?_eq_some found) taken
    | none =>
      have freeUsername : ∀ a ∈ db.accounts, a.username ≠ request.username := by
        intro a mem
        have absent := List.find?_eq_none.1 found a mem
        rwa [decide_eq_true_eq] at absent
      simp only
      rw [send, exec_send]
      cases refused₁ : fails 1 with
      | true =>
        simp only [attempt_true, Option.elim_none]
        exact .nothing _ _ (fun strands => nomatch strands.2.2.1) nofun
      | false =>
        simp only [attempt_false, machine_act, act, Option.elim_some]
        cases found : db.accounts.find? fun a => a.email = request.email with
        | some a =>
          refine .nothing _ _ (fun strands => ?_) nofun
          have taken := List.find?_some found
          rw [decide_eq_true_eq] at taken
          exact strands.2.2.2.1 a (List.mem_of_find?_eq_some found) taken
        | none =>
          have freeEmail : ∀ a ∈ db.accounts, a.email ≠ request.email := by
            intro a mem
            have absent := List.find?_eq_none.1 found a mem
            rwa [decide_eq_true_eq] at absent
          refine (save_outcome valid request).congr ?_
          exact ⟨fun h => ⟨trivial, freeUsername, trivial, freeEmail, h⟩, fun h => h.2.2.2.2⟩

/-! ## Modifying an account -/

/-- A modification leaves the keys of both tables. -/
theorem keys_modify {call : Call} {account : Account} (valid : db.Valid)
    (modify : call.request = .modifyAccount account) :
    (call.serve hash db).Valid ∧ (call.serve hash db).seed = db.seed ∧
      (call.serve hash db).accountIds = db.accountIds ∧
      (call.serve hash db).balanceIds = db.balanceIds := by
  have only : (call.request.handler hash).Only Command.Modifies := by
    rw [modify]
    exact only_putAccount account
  refine only.leaves_inv (fun db' : Database => db'.Valid ∧ db'.seed = db.seed ∧
    db'.accountIds = db.accountIds ∧ db'.balanceIds = db.balanceIds) ?_ _ _ ⟨valid, rfl, rfl, rfl⟩
  intro c l g reply l' g' modifies kept acted
  obtain ⟨valid, seed, accounts, balances⟩ := kept
  cases c with
  | updateAccount account =>
    have acted : act (.updateAccount account) l g = some (reply, l', g') := acted
    have validAfter := act_valid valid acted
    obtain ⟨⟨n, db''⟩, updated, same⟩ := Option.map_eq_some_iff.1 acted
    cases same
    have rows := Database.updateAccount_eq_some updated
    subst rows
    exact ⟨validAfter, seed, (accountIds_update account).trans accounts, balances⟩
  | accountExists id =>
    cases acted
    exact ⟨valid, seed, accounts, balances⟩
  | _ => exact modifies.elim

/-! ## Sequences of calls -/

/-- What a call does to the accounts and the balances. -/
theorem call_saved (valid : db.Valid) (call : Call) :
    (∃ account, call.request = .modifyAccount account) ∨
      Saved db (call.Strands db) (call.outcome hash db) := by
  obtain ⟨request, now, fails⟩ := call
  cases request with
  | signup request => exact .inr (signup_outcome valid request)
  | createNewAccount request => exact .inr (createNewAccount_outcome valid request)
  | modifyAccount account => exact .inl ⟨account, rfl⟩

/-- A call keeps the tables valid, and keeps accounts and balances together just where
it strands no account; elsewhere it has not told the truth. -/
theorem serve_balanced {base : Int} (valid : db.Valid) (balanced : db.Balanced base)
    (first : base ≤ db.seed) (call : Call) :
    (call.serve hash db).Valid ∧ base ≤ (call.serve hash db).seed ∧
      ((call.serve hash db).Balanced base ↔ ¬ call.Strands db) ∧
      (call.Honest hash db ↔ ¬ call.Strands db) := by
  have new : db.seed ∉ db.accountIds := fun mem => by
    have := valid.seed _ mem
    omega
  have unbalanced : db.balanceIds.count db.seed = 0 :=
    List.count_eq_zero.2 fun mem => new (valid.owners mem)
  rcases @call_saved hash db valid call with ⟨account, modify⟩ | saved
  · obtain ⟨validAfter, seed, accounts, balances⟩ := @keys_modify hash db call account valid modify
    have spared : ¬ call.Strands db := by
      unfold Call.Strands
      rw [modify]
      exact id
    refine ⟨validAfter, by omega, iff_of_true ?_ spared, iff_of_true (fun _ => accounts) spared⟩
    unfold Database.Balanced
    rw [accounts, balances]
    exact balanced
  · have validAfter : (call.serve hash db).Valid :=
      (show (call.request.handler hash).Only fun _ => True from
        only_of_forall (fun _ => trivial) _).leaves_inv Database.Valid
          (fun _ _ _ _ _ _ _ valid acted => act_valid valid acted) _ _ valid
    unfold Call.Honest Call.serve at *
    generalize call.outcome hash db = r at saved validAfter
    cases saved with
    | nothing answer l spared error =>
      exact ⟨validAfter, first, iff_of_true balanced spared, iff_of_true (fun _ => rfl) spared⟩
    | account answer l account stranded error own =>
      have grown : (db.accounts ++ [account]).map Account.id = db.accountIds ++ [db.seed] := by
        simp [Database.accountIds, own]
      refine ⟨validAfter, ?_, iff_of_false (fun balanced => ?_) (not_not.2 stranded),
        iff_of_false (fun honest => ?_) (not_not.2 stranded)⟩
      · change base ≤ db.seed + 1
        omega
      · have mem : db.seed ∈ (db.accounts ++ [account]).map Account.id := by
          rw [grown]
          exact List.mem_append_right _ List.mem_cons_self
        have one := balanced db.seed mem first
        change db.balanceIds.count db.seed = 1 at one
        omega
      · have same := honest error
        change (db.accounts ++ [account]).map Account.id = db.accountIds at same
        rw [grown] at same
        simp at same
    | both l account spared own =>
      have grown : (db.accounts ++ [account]).map Account.id = db.accountIds ++ [db.seed] := by
        simp [Database.accountIds, own]
      have more : (db.balances ++ [(⟨db.seed, 0⟩ : Balance)]).map Balance.accountId =
          db.balanceIds ++ [db.seed] := by
        simp [Database.balanceIds]
      refine ⟨validAfter, ?_, iff_of_true (fun id mem isNew => ?_) spared,
        iff_of_true (fun error => absurd rfl (error db.seed)) spared⟩
      · change base ≤ db.seed + 1
        omega
      · change id ∈ (db.accounts ++ [account]).map Account.id at mem
        change ((db.balances ++ [(⟨db.seed, 0⟩ : Balance)]).map Balance.accountId).count id = 1
        rw [grown] at mem
        rw [more, List.count_append]
        rcases List.mem_append.1 mem with old | now
        · have other : id ≠ db.seed := fun same => new (same ▸ old)
          rw [balanced id old isNew, List.count_singleton, if_neg (by simpa using other.symm)]
        · rw [List.mem_singleton.1 now, unbalanced, List.count_singleton, if_pos (by simp)]

/-- After every call of a sequence every new account has one balance, and every call
that is answered with an error has created none, just where no call strands an account. -/
theorem accounts_have_balances (hash : String → String) (calls : List Call) (db : Database)
    (valid : db.Valid) :
    (∀ n, (serveAll hash (calls.take n) db).Balanced db.seed ∧
      ∀ call ∈ calls[n]?, call.Honest hash (serveAll hash (calls.take n) db)) ↔
    NoneStrands hash calls db := by
  have balanced : db.Balanced db.seed := fun id mem isNew => by
    have := valid.seed id mem
    omega
  obtain ⟨base, isBase⟩ : ∃ base, base = db.seed := ⟨_, rfl⟩
  rw [← isBase] at balanced ⊢
  have first : base ≤ db.seed := by omega
  clear isBase
  induction calls generalizing db with
  | nil =>
    refine iff_of_true (fun n => ⟨?_, nofun⟩) trivial
    rw [List.take_nil]
    exact balanced
  | cons call rest ih =>
    obtain ⟨validAfter, later, kept, honest⟩ := @serve_balanced hash _ base valid balanced first call
    constructor
    · intro always
      have after := (always 1).1
      exact ⟨kept.1 after, (ih _ validAfter after later).1 fun n => always (n + 1)⟩
    · rintro ⟨spared, noneLater⟩ n
      cases n with
      | zero =>
        refine ⟨balanced, fun call' isCall => ?_⟩
        cases isCall
        exact honest.2 spared
      | succ n => exact (ih _ validAfter (kept.2 spared) later).2 noneLater n

/-- A sign-up whose balance is not saved answers with an error; its account stays, without
a balance, and the same sign-up is rejected from then on. -/
theorem account_without_balance :
    let db := emptyDatabase
    let failing : Call := ⟨.signup sampleSignup, fun _ => ⟨0, 0⟩, fun n => n = 2⟩
    let again : Call := ⟨.signup sampleSignup, fun _ => ⟨0, 0⟩, fun _ => false⟩
    let after := failing.serve id db
    ¬ after.Balanced db.seed ∧ after.accountIds = [1] ∧ after.balanceIds = [] ∧
      (failing.outcome id db).1.toOption = some (.failed .refused) ∧
      (again.outcome id after).1.toOption = some (.badRequest "User already exists") := by
  decide +kernel

/-- A sign-up whose account is not saved, the same sign-up again, and an account request
with its email. -/
theorem accounts_have_balances_of_signups :
    let db := emptyDatabase
    let calls : List Call :=
      [⟨.signup sampleSignup, fun _ => ⟨0, 0⟩, fun n => n = 1⟩,
        ⟨.signup sampleSignup, fun _ => ⟨0, 0⟩, fun _ => false⟩,
        ⟨.createNewAccount ⟨1, "Al", "Doe", "al", "jo@example.com", "hash", "WEB", "Main St"⟩,
          fun _ => ⟨0, 0⟩, fun n => n = 3⟩]
    ∀ n, (serveAll id (calls.take n) db).Balanced db.seed ∧
      ∀ call ∈ calls[n]?, call.Honest id (serveAll id (calls.take n) db) :=
  (accounts_have_balances id _ _ emptyDatabase_valid).2 (by decide +kernel)

end EasyTrade.Accounts
