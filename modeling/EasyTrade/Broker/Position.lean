import EasyTrade.Broker.Steps
import EasyTrade.Ledger.Position

/-!
# What a settlement does to the position of the accounts

A settlement reads and writes balances and holdings. What it makes of them is said on
`Position`s, where it is three additions: the income of the trade less the fee, the fee
for the owner, and the shares.
-/

namespace EasyTrade.Broker

open EasyTrade.Store EasyTrade.Ledger

variable {db : Database} {now : Int}

/-- The balances and the holdings that the queries find. -/
def Database.position (db : Database) : Position Int Int ℚ where
  balance accountId := (db.balanceOf accountId).map Balance.value
  holding accountId instrumentId :=
    (db.ownedOf accountId instrumentId).map OwnedInstrument.quantity

/-- The position after a trade has been settled with a fee. -/
def Trade.settleOn (t : Trade) (type : ActionType) (fee : ℚ) (p : Position Int Int ℚ) :
    Position Int Int ℚ :=
  ((p.pay t.accountId (t.income type - fee)).pay ownerId fee).move t.accountId t.instrumentId
    (type.shares t.quantity)

/-- The balance of an account after a save. -/
theorem balanceOf_apply (db : Database) (b : Batch) (accountId : Int) :
    (db.apply b).balanceOf accountId =
      (db.balanceOf accountId).map (resolve Balance.accountId b.updatedBalances) :=
  lookup_map (key_resolve _) accountId _

/-- The money of a trade on the position. -/
theorem Paid.position {accountId : Int} {income fee : ℚ} {type : ActionType}
    {balances : List Balance} {rows : List BalanceHistory}
    (paid : Paid db now accountId income fee type balances rows) (a : Int) :
    ((db.balanceOf a).map (resolve Balance.accountId balances)).map Balance.value =
      ((db.position.pay accountId (income - fee)).pay ownerId fee).balance a := by
  have key : ∀ {r : Balance}, db.balanceOf a = some r → r.accountId = a := key_of_lookup
  cases paid with
  | @trader value owner apart balance ownerBalance =>
    by_cases isAccount : a = accountId
    · subst isAccount
      simp [Database.position, balance, apart, resolve, lookup]
      ring
    · by_cases isOwner : a = ownerId
      · subst isOwner
        simp [Database.position, ownerBalance, isAccount, resolve, lookup, Ne.symm isAccount]
      · cases found : db.balanceOf a with
        | none => simp [Database.position, found, isAccount, isOwner]
        | some r =>
          simp [Database.position, found, isAccount, isOwner, resolve, lookup, key found,
            Ne.symm isAccount, Ne.symm isOwner]
  | @owner value same balance =>
    subst same
    by_cases isOwner : a = ownerId
    · subst isOwner
      simp [Database.position, balance, resolve, lookup]
      ring
    · cases found : db.balanceOf a with
      | none => simp [Database.position, found, isOwner]
      | some r =>
        simp [Database.position, found, isOwner, resolve, lookup, key found, Ne.symm isOwner]

/-- The holding of an account after a save of shares moved. -/
theorem Moved.position {accountId instrumentId : Int} {amount : ℚ} {b : Batch}
    (moved : Moved db now accountId instrumentId amount b.insertedOwned b.updatedOwned)
    (unique : (db.owned.map OwnedInstrument.id).Nodup) (tradeSeed ownedSeed a i : Int) :
    ((db.apply (b.number tradeSeed ownedSeed)).ownedOf a i).map OwnedInstrument.quantity =
      (db.position.move accountId instrumentId amount).holding a i := by
  simp only [Database.ownedOf, Database.apply, Batch.number]
  generalize b.insertedOwned = news, b.updatedOwned = olds at moved
  cases moved with
  | created absent =>
    rw [overwrite_nil, List.find?_append]
    by_cases here : a = accountId ∧ i = instrumentId
    · obtain ⟨rfl, rfl⟩ := here
      rw [← Database.ownedOf, absent, Position.holding_move_self]
      simp [Database.position, absent, OwnedInstrument.new]
    · have apart : ¬(accountId = a ∧ instrumentId = i) := fun same => here ⟨same.1.symm, same.2.symm⟩
      rw [Position.move]
      simp [here, apart, OwnedInstrument.new, Database.position, Database.ownedOf]
  | @changed row found =>
    have key := List.find?_some found
    simp only [decide_eq_true_eq] at key
    -- The one row with the identifier of the copy is a row of the same holding.
    have same : ∀ r ∈ db.owned, decide ((resolve OwnedInstrument.id [{ row with
        quantity := row.quantity + amount, lastModificationDate := now }] r).accountId = a ∧
        (resolve OwnedInstrument.id [{ row with
        quantity := row.quantity + amount, lastModificationDate := now }] r).instrumentId = i) =
        decide (r.accountId = a ∧ r.instrumentId = i) := fun r inTable => by
      by_cases isRow : r.id = row.id
      · have : r = row := eq_of_key_eq unique inTable (List.mem_of_find?_eq_some found) isRow
        subst this
        simp [resolve, lookup]
      · rw [resolve_of_none (by simpa [lookup] using Ne.symm isRow)]
    rw [List.mapIdx_nil, List.append_nil, find?_overwrite _ same, ← Database.ownedOf]
    by_cases here : a = accountId ∧ i = instrumentId
    · obtain ⟨rfl, rfl⟩ := here
      rw [found, Position.holding_move_self]
      simp [Database.position, found, resolve, lookup]
    · cases other : db.ownedOf a i with
      | none => simp [Position.move, here, Database.position, other]
      | some r =>
        have otherKey := List.find?_some other
        simp only [decide_eq_true_eq] at otherKey
        have apart : row.id ≠ r.id := fun sameId => by
          have : row = r := eq_of_key_eq unique (List.mem_of_find?_eq_some found)
            (List.mem_of_find?_eq_some other) sameId
          subst this
          exact here ⟨otherKey.1.symm.trans key.1, otherKey.2.symm.trans key.2⟩
        simp [Position.move, here, Database.position, other, resolve, lookup, apart]

/-- A save that settles a trade is the settlement of the trade on the position. -/
theorem Settles.position {t : Trade} {type : ActionType} {b : Batch} {product : Product}
    (settles : Settles db now t type b) (isProduct : db.productOf t.instrumentId = some product)
    (unique : (db.owned.map OwnedInstrument.id).Nodup) (tradeSeed ownedSeed : Int) :
    (db.apply (b.number tradeSeed ownedSeed)).position =
      t.settleOn type product.ppt db.position := by
  obtain ⟨product', isProduct', paid, -⟩ := settles.paid
  obtain rfl : product = product' := Option.some.inj (isProduct.symm.trans isProduct')
  refine Position.ext (funext fun a => ?_) (funext fun a => funext fun i => ?_)
  · have after := balanceOf_apply db (b.number tradeSeed ownedSeed) a
    exact (congrArg (Option.map Balance.value) after).trans (paid.position a)
  · exact settles.moved.position unique tradeSeed ownedSeed a i

/-- A save without balances and holdings leaves the position. -/
theorem position_apply_of_none {b : Batch} (balances : b.updatedBalances = [])
    (inserted : b.insertedOwned = []) (updated : b.updatedOwned = []) (tradeSeed ownedSeed : Int) :
    (db.apply (b.number tradeSeed ownedSeed)).position = db.position := by
  simp [Database.position, Database.balanceOf, Database.ownedOf, Database.apply, Batch.number,
    balances, inserted, updated]

end EasyTrade.Broker
