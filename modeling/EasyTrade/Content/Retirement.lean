import EasyTrade.Store.Top
import Mathlib.Data.Rat.Floor

/-!
# The retirement of accounts

Once a day the content creator counts the active accounts that are not preset. If
there are more than a limit, it marks some of them as inactive: the documentation
says the oldest ones. The statements are put together from pieces of text; each
query here has its text beside what it selects.
-/

namespace EasyTrade.Content

open EasyTrade.Store

/-! ## Rows and queries -/

/-- What the statements read of a row of `Accounts`. -/
structure Account where
  /-- The primary key. -/
  id : Int
  /-- Where the account comes from. -/
  origin : String
  /-- When it was created. -/
  creationDate : Int
  /-- `AccountActive`, a `BIT` that may be `NULL`. -/
  accountActive : Option Bool
  deriving DecidableEq, Repr

/-- `Conditions`. -/
inductive Condition where
  | nonPresetActiveAccounts
  | nonPresetInactiveAccounts
  | emptyCondition

namespace Condition

/-- The text of a condition. -/
def text : Condition → String
  | nonPresetActiveAccounts => "WHERE (AccountActive=1 AND Origin<>'PRESET')"
  | nonPresetInactiveAccounts => "WHERE (AccountActive=0 AND Origin<>'PRESET')"
  | emptyCondition => ""

/-- The rows that meet a condition. -/
def Holds (a : Account) : Condition → Prop
  | nonPresetActiveAccounts => a.accountActive = some true ∧ a.origin ≠ "PRESET"
  | nonPresetInactiveAccounts => a.accountActive = some false ∧ a.origin ≠ "PRESET"
  | emptyCondition => True

instance (a : Account) (c : Condition) : Decidable (c.Holds a) := by
  cases c <;> unfold Holds <;> infer_instance

end Condition

/-- `ORDER BY CreationDate DESC`, rows of one date by the server's choice. -/
def Newer (rank : Int → Nat) (a b : Account) : Prop :=
  b.creationDate < a.creationDate ∨ (a.creationDate = b.creationDate ∧ rank a.id ≤ rank b.id)

instance (rank : Int → Nat) : DecidableRel (Newer rank) :=
  fun _ _ => inferInstanceAs (Decidable (_ ∨ _))

instance (rank : Int → Nat) : Std.Total (Newer rank) where
  total a b := by
    unfold Newer
    omega

instance (rank : Int → Nat) : IsTrans Account (Newer rank) where
  trans a b c hab hbc := by
    unfold Newer at *
    omega

/-- A `SELECT TOP` of accounts. -/
structure SelectTop where
  /-- How many rows. -/
  count : Int
  /-- Which rows. -/
  condition : Condition

/-- `selectTopOldestAccounts`. -/
def selectTopOldestAccounts (count : Int) (condition : Condition) : SelectTop := ⟨count, condition⟩

/-- Its text. -/
def SelectTop.text (q : SelectTop) : String :=
  "SELECT TOP(" ++ toString q.count ++ ") * FROM [dbo].[Accounts] " ++ q.condition.text ++
    " ORDER BY CreationDate DESC"

/-- The accounts it selects; the server rejects a negative number of rows. -/
def SelectTop.rows (rank : Int → Nat) (q : SelectTop) (accounts : List Account) :
    Option (List Account) :=
  if q.count < 0 then none
  else some (top (Newer rank) q.count.toNat (accounts.filter fun a => q.condition.Holds a))

/-- The text of `updateAccountStatus`. -/
def updateAccountStatusText (q : SelectTop) (status : Bool) : String :=
  "WITH T AS (" ++ q.text ++ ") UPDATE T SET AccountActive=" ++ if status then "1" else "0"

/-- `updateAccountStatus`: the selected rows are updated. -/
def updateAccountStatus (rank : Int → Nat) (q : SelectTop) (status : Bool)
    (accounts : List Account) : Option (List Account) :=
  (q.rows rank accounts).map fun selected => accounts.map fun a =>
    if a.id ∈ selected.map Account.id then { a with accountActive := some status } else a

/-! ## The daily task -/

/-- `getTableCount`, -1 if the statement fails. -/
def getTableCount (fails : Bool) (condition : Condition) (accounts : List Account) : Int :=
  if fails then -1 else (accounts.countP fun a => condition.Holds a : Nat)

/-- `markExcessiveAccountsAsInactive`: a statement that fails changes nothing. -/
def markExcessiveAccountsAsInactive (fails : Bool) (rank : Int → Nat) (count : Int)
    (accounts : List Account) : List Account :=
  let selectQuery := selectTopOldestAccounts count .nonPresetActiveAccounts
  if fails then accounts else (updateAccountStatus rank selectQuery false accounts).getD accounts

/-- `intValue` of a number that is in range: towards zero. -/
def intValue (x : ℚ) : Int := if x < 0 then ⌈x⌉ else ⌊x⌋

/-- `limit * cleanupRatio` as an integer; `round` is the rounding of the product. -/
def cleanupCount (round : ℚ → ℚ) (limit : Nat) (cleanupRatio : ℚ) : Int :=
  intValue (round (limit * cleanupRatio))

/-- `CLEANUP_RATIO`. -/
def cleanupRatio : ℚ := 1 / 2

/-- `removeExcessiveAccounts`; `fails` says which of its statements fail. -/
def removeExcessiveAccounts (fails : Nat → Bool) (rank : Int → Nat) (round : ℚ → ℚ) (limit : Nat)
    (cleanupRatio : ℚ) (accounts : List Account) : List Account :=
  let tableCount := getTableCount (fails 0) .nonPresetActiveAccounts accounts
  if tableCount > limit then
    markExcessiveAccountsAsInactive (fails 1) rank (cleanupCount round limit cleanupRatio) accounts
  else accounts

example : updateAccountStatusText (selectTopOldestAccounts 2500 .nonPresetActiveAccounts) false =
    "WITH T AS (SELECT TOP(2500) * FROM [dbo].[Accounts] " ++
      "WHERE (AccountActive=1 AND Origin<>'PRESET') ORDER BY CreationDate DESC) " ++
      "UPDATE T SET AccountActive=0" := by
  decide +kernel

/-! ## Which accounts are retired -/

/-- The active accounts that are not preset. -/
def activeAccounts (accounts : List Account) : List Account :=
  accounts.filter fun a => Condition.nonPresetActiveAccounts.Holds a

/-- An account as inactive. -/
def Account.retire (a : Account) : Account := { a with accountActive := some false }

/-- The accounts marked as inactive, if there are too many: so many, and the oldest ones. -/
def RetiresOldest (limit : Nat) (count : Int) (before after : List Account) : Prop :=
  limit < (activeAccounts before).length →
    ∃ retired : List Account, retired.Nodup ∧ retired ⊆ activeAccounts before ∧
      retired.length = min count.toNat (activeAccounts before).length ∧
      (∀ a ∈ retired, ∀ b ∈ activeAccounts before, b ∉ retired →
        a.creationDate ≤ b.creationDate) ∧
      after = before.map fun a => if a ∈ retired then a.retire else a

variable {before : List Account} {a b : Account}

theorem retire_ne (active : a ∈ activeAccounts before) : a.retire ≠ a := by
  intro same
  have flag := congrArg Account.accountActive same
  have held := (List.mem_filter.1 active).2
  rw [decide_eq_true_eq] at held
  rw [held.1] at flag
  cases flag

/-- The accounts retired can be told from the table afterwards. -/
theorem retired_unique {xs ys : List Account} (xsActive : xs ⊆ activeAccounts before)
    (ysActive : ys ⊆ activeAccounts before)
    (same : (before.map fun a => if a ∈ xs then a.retire else a) =
      before.map fun a => if a ∈ ys then a.retire else a) : ∀ a, a ∈ xs ↔ a ∈ ys := by
  have pointwise := List.map_inj_left.1 same
  intro a
  constructor
  · intro inXs
    have mem := List.mem_of_mem_filter (xsActive inXs)
    have now := pointwise a mem
    rw [if_pos inXs] at now
    by_contra notInYs
    rw [if_neg notInYs] at now
    exact retire_ne (xsActive inXs) now
  · intro inYs
    have mem := List.mem_of_mem_filter (ysActive inYs)
    have now := pointwise a mem
    rw [if_pos inYs] at now
    by_contra notInXs
    rw [if_neg notInXs] at now
    exact retire_ne (ysActive inYs) now.symm

/-- Where nothing changes nobody is retired. -/
theorem eq_nil_of_unchanged {retired : List Account} (active : retired ⊆ activeAccounts before)
    (same : before = before.map fun a => if a ∈ retired then a.retire else a) : retired = [] := by
  have nobody : before = before.map fun a => if a ∈ ([] : List Account) then a.retire else a := by
    simp
  have none := retired_unique active (List.nil_subset _) (same.symm.trans nobody)
  exact List.eq_nil_iff_forall_not_mem.2 fun a mem => List.not_mem_nil ((none a).1 mem)

/-- What the update does to the table, by rows instead of keys. -/
theorem updateAccountStatus_eq {rank : Int → Nat} {count : Int} (keys : (before.map Account.id).Nodup)
    (enough : 0 ≤ count) :
    updateAccountStatus rank (selectTopOldestAccounts count .nonPresetActiveAccounts) false before =
      some (before.map fun a =>
        if a ∈ top (Newer rank) count.toNat (activeAccounts before) then a.retire else a) := by
  have nonneg : ¬ count < 0 := by omega
  have selected : (selectTopOldestAccounts count .nonPresetActiveAccounts).rows rank before =
      some (top (Newer rank) count.toNat (activeAccounts before)) := if_neg nonneg
  rw [updateAccountStatus, selected, Option.map_some]
  refine congrArg some (List.map_congr_left fun a mem => ?_)
  have taken : a.id ∈ (top (Newer rank) count.toNat (activeAccounts before)).map Account.id ↔
      a ∈ top (Newer rank) count.toNat (activeAccounts before) := ?_
  · simp only [taken, Account.retire]
  constructor
  · intro selected
    obtain ⟨a', taken, same⟩ := List.mem_map.1 selected
    have mem' := List.mem_of_mem_filter (mem_of_mem_top _ taken)
    exact List.inj_on_of_nodup_map keys mem' mem same ▸ taken
  · exact fun taken => List.mem_map_of_mem taken

/-- No account is retired before an older one, just where there are few enough accounts,
or none is to be retired, or all of them are, or all are of one date. -/
theorem oldest_accounts_retired (fails : Nat → Bool) (rank : Int → Nat) (round : ℚ → ℚ)
    (limit : Nat) (cleanupRatio : ℚ) (before : List Account)
    (keys : (before.map Account.id).Nodup) :
    RetiresOldest limit (cleanupCount round limit cleanupRatio) before
        (removeExcessiveAccounts fails rank round limit cleanupRatio before) ↔
      (activeAccounts before).length ≤ limit ∨ cleanupCount round limit cleanupRatio ≤ 0 ∨
        fails 0 = false ∧ fails 1 = false ∧
          ((activeAccounts before).length ≤ cleanupCount round limit cleanupRatio ∨
            ∀ a ∈ activeAccounts before, ∀ b ∈ activeAccounts before,
              a.creationDate = b.creationDate) := by
  generalize isCount : cleanupCount round limit cleanupRatio = count
  by_cases above : limit < (activeAccounts before).length
  swap
  · exact iff_of_true (fun more => absurd more above) (.inl (by omega))
  have distinct : (activeAccounts before).Nodup := keys.of_map.filter _
  -- a table that stays as it is retires nobody
  have unchanged : RetiresOldest limit count before before ↔ count ≤ 0 := by
    constructor
    · intro retires
      obtain ⟨retired, -, active, size, -, same⟩ := retires above
      rw [eq_nil_of_unchanged active same, List.length_nil] at size
      omega
    · intro none _
      refine ⟨[], List.nodup_nil, List.nil_subset _, ?_, nofun, by simp⟩
      have : count.toNat = 0 := by omega
      simp [this]
  have counted : (activeAccounts before).length =
      before.countP fun a => Condition.nonPresetActiveAccounts.Holds a := by
    rw [activeAccounts, List.countP_eq_length_filter]
  unfold removeExcessiveAccounts getTableCount
  simp only [isCount]
  cases failed₀ : fails 0 with
  | true =>
    have few : ¬ ((-1 : Int) > limit) := by omega
    simp only [if_true, if_neg few]
    rw [unchanged]
    simp [above]
  | false =>
    have many : ((before.countP fun a => Condition.nonPresetActiveAccounts.Holds a : Nat) : Int) >
        limit := by omega
    simp only [Bool.false_eq_true, if_false, if_pos many]
    unfold markExcessiveAccountsAsInactive
    cases failed₁ : fails 1 with
    | true =>
      simp only [if_true]
      rw [unchanged]
      simp [above]
    | false =>
      simp only [Bool.false_eq_true, if_false]
      by_cases negative : count < 0
      · have rejected : updateAccountStatus rank
            (selectTopOldestAccounts count .nonPresetActiveAccounts) false before = none := by
          simp [updateAccountStatus, SelectTop.rows, selectTopOldestAccounts, negative]
        rw [rejected, Option.getD_none, unchanged]
        exact iff_of_true (by omega) (.inr (.inl (by omega)))
      rw [updateAccountStatus_eq keys (by omega), Option.getD_some]
      have active : top (Newer rank) count.toNat (activeAccounts before) ⊆ activeAccounts before :=
        fun a taken => mem_of_mem_top _ taken
      constructor
      · intro retires
        obtain ⟨retired, -, retiredActive, size, oldest, same⟩ := retires above
        have who := retired_unique active retiredActive same
        by_cases all : (activeAccounts before).length ≤ count
        · exact .inr (.inr ⟨trivial, trivial, .inl all⟩)
        by_cases none : count ≤ 0
        · exact .inr (.inl none)
        -- someone retires and someone stays: the newest retire, so all are of one date
        obtain ⟨⟨t, taken⟩, u, inActive, left⟩ := exists_taken_and_left (Newer rank)
          (n := count.toNat) (by omega) (by omega) distinct
        have between : ∀ x ∈ activeAccounts before, ∀ y ∈ activeAccounts before,
            x ∈ top (Newer rank) count.toNat (activeAccounts before) →
            y ∉ top (Newer rank) count.toNat (activeAccounts before) →
            x.creationDate = y.creationDate := by
          intro x _ y mem xTaken yLeft
          have newer := rel_of_mem_top (Newer rank) xTaken mem yLeft
          have older := oldest x ((who x).1 xTaken) y mem fun retired => yLeft ((who y).2 retired)
          unfold Newer at newer
          omega
        have date : ∀ x ∈ activeAccounts before, x.creationDate = u.creationDate := by
          intro x mem
          by_cases xTaken : x ∈ top (Newer rank) count.toNat (activeAccounts before)
          · exact between x mem u inActive xTaken left
          · have := between t (active taken) x mem taken xTaken
            have := between t (active taken) u inActive taken left
            omega
        exact .inr (.inr ⟨trivial, trivial, .inr fun x hx y hy => (date x hx).trans (date y hy).symm⟩)
      · intro condition _
        refine ⟨_, nodup_top _ distinct, active, length_top _, fun x taken y mem left => ?_, rfl⟩
        rcases condition with few | none | ⟨-, -, all | date⟩
        · omega
        · have size : (top (Newer rank) count.toNat (activeAccounts before)).length
              = min count.toNat (activeAccounts before).length := length_top _
          have := List.length_pos_of_mem taken
          omega
        · exact absurd (mem_top_of_length_le (Newer rank) (by omega) mem) left
        · exact Int.le_of_eq (date x (active taken) y mem)

/-- The newer of two accounts is retired, the older one stays. -/
theorem newest_account_retired :
    let before := [⟨1, "WEB", 100, some true⟩, ⟨2, "WEB", 200, some true⟩]
    (before.map Account.id).Nodup ∧
      removeExcessiveAccounts (fun _ => false) Int.toNat id 1 1 before =
        [⟨1, "WEB", 100, some true⟩, ⟨2, "WEB", 200, some false⟩] ∧
      ¬ RetiresOldest 1 (cleanupCount id 1 1) before
        (removeExcessiveAccounts (fun _ => false) Int.toNat id 1 1 before) := by
  refine ⟨by decide, by decide +kernel, fun retires => ?_⟩
  obtain ⟨retired, -, active, -, oldest, same⟩ := retires (by decide)
  have after : removeExcessiveAccounts (fun _ => false) Int.toNat id 1 1
      [⟨1, "WEB", 100, some true⟩, ⟨2, "WEB", 200, some true⟩] =
      [⟨1, "WEB", 100, some true⟩, ⟨2, "WEB", 200, some false⟩] := by decide +kernel
  rw [after] at same
  simp only [List.map_cons, List.map_nil, List.cons.injEq, and_true] at same
  obtain ⟨first, second⟩ := same
  have stays : (⟨1, "WEB", 100, some true⟩ : Account) ∉ retired := fun mem => by
    rw [if_pos mem] at first
    cases first
  have goes : (⟨2, "WEB", 200, some true⟩ : Account) ∈ retired := by
    by_contra left
    rw [if_neg left] at second
    cases second
  exact absurd (oldest _ goes _ (by decide) stays) (by decide)

/-- Two accounts of one date. -/
theorem oldest_accounts_retired_of_one_date :
    RetiresOldest 1 (cleanupCount id 1 1) [⟨1, "WEB", 100, some true⟩, ⟨2, "WEB", 100, some true⟩]
      (removeExcessiveAccounts (fun _ => false) Int.toNat id 1 1
        [⟨1, "WEB", 100, some true⟩, ⟨2, "WEB", 100, some true⟩]) :=
  (oldest_accounts_retired (fun _ => false) Int.toNat id 1 1 _ (by decide)).2
    (.inr (.inr ⟨rfl, rfl, .inr (by decide)⟩))

end EasyTrade.Content
