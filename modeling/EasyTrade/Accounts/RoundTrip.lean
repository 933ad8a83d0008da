import EasyTrade.Accounts.Services

/-!
# Reading an account and putting it back

The account service reads an account from the manager and forwards what a client puts back.
Its dates pass through a pattern with `hh`, the hour from 1 to 12 without a half of the day:
what is read keeps an hour above 12, since the parser is lenient, and takes 12 for midnight;
what is written has no hour above 12. The pattern stops before the offset, so an offset is
neither read nor written, and the manager takes what comes back for its own local time.
-/

namespace EasyTrade.Accounts

open EasyTrade.Logic EasyTrade.Logic.Program

/-! ## Dates on the way -/

/-- A date and a time of day, as the text of a date shows them. -/
structure WallClock where
  /-- The days since the first day of year one. -/
  date : Int
  hour : Int
  minute : Int
  second : Int
  deriving DecidableEq

/-- The clock of a local time. -/
def WallClock.of (localTime : Int) : WallClock where
  date := localTime / 86400
  hour := localTime % 86400 / 3600
  minute := localTime % 3600 / 60
  second := localTime % 60

/-- The local time of a clock; an hour too many is an hour of the next day. -/
def WallClock.localTime (c : WallClock) : Int :=
  86400 * c.date + 3600 * c.hour + 60 * c.minute + c.second

@[simp] theorem WallClock.localTime_of (localTime : Int) :
    (WallClock.of localTime).localTime = localTime := by
  simp only [WallClock.of, WallClock.localTime]
  omega

/-- The text of a date, in ISO 8601, with or without an offset in minutes. -/
structure Stamp where
  clock : WallClock
  offset : Option Int
  deriving DecidableEq

/-- The time zone of the service, as lenient calendars use it. -/
structure ServiceZone where
  /-- The instant at which the clocks show a local time, or would show it. -/
  instantOf : Int → Int
  /-- The local time at an instant. -/
  localOf : Int → Int

/-- By how much the clocks of a zone are put forward at a local time they skip. -/
def ServiceZone.jump (zone : ServiceZone) (localTime : Int) : Int :=
  zone.localOf (zone.instantOf localTime) - localTime

/-- How the manager writes a date. -/
def DateTimeOffset.stamp (d : DateTimeOffset) : Stamp := ⟨.of d.localTime, some d.offset⟩

/-- How the manager reads a date: without an offset it is a local time of its own zone, whose
offset at a local time is given. -/
def Stamp.dateTimeOffset (offsetAt : Int → Int) (s : Stamp) : DateTimeOffset :=
  ⟨s.clock.localTime, s.offset.getD (offsetAt s.clock.localTime)⟩

/-- What `hh` makes of an hour that is read. -/
def readHour (hour : Int) : Int := if hour = 12 then 0 else hour

/-- The hour that `hh` writes. -/
def writeHour (hour : Int) : Int := if hour % 12 = 0 then 12 else hour % 12

/-- `gson.fromJson` of a date: what follows the pattern is not looked at. -/
def parseDate (zone : ServiceZone) (s : Stamp) : Int :=
  zone.instantOf { s.clock with hour := readHour s.clock.hour }.localTime

/-- `gson.toJson` of a date. -/
def formatDate (zone : ServiceZone) (instant : Int) : Stamp :=
  let clock := WallClock.of (zone.localOf instant)
  ⟨{ clock with hour := writeHour clock.hour }, none⟩

/-! ## Accounts on the way -/

/-- `Account` of the account service and of its clients. The answer to the client and the
client's request keep the instants. -/
structure AccountDetails where
  id : Int
  packageId : Int
  firstName : String
  lastName : String
  username : String
  email : String
  hashedPassword : String
  origin : String
  creationDate : Int
  packageActivationDate : Int
  accountActive : Bool
  address : String

/-- `get`, from the answer of the manager. -/
def getDetails (zone : ServiceZone) (a : Account) : AccountDetails :=
  ⟨a.id, a.packageId, a.firstName, a.lastName, a.username, a.email, a.hashedPassword, a.origin,
    parseDate zone a.creationDate.stamp, parseDate zone a.packageActivationDate.stamp,
    a.accountActive, a.address⟩

/-- `put`: the account that the manager receives. -/
def putDetails (zone : ServiceZone) (offsetAt : Int → Int) (details : AccountDetails) :
    Account where
  id := details.id
  packageId := details.packageId
  firstName := details.firstName
  lastName := details.lastName
  username := details.username
  email := details.email
  hashedPassword := details.hashedPassword
  origin := details.origin
  creationDate := (formatDate zone details.creationDate).dateTimeOffset offsetAt
  packageActivationDate := (formatDate zone details.packageActivationDate).dateTimeOffset offsetAt
  accountActive := details.accountActive
  address := details.address

/-- `GetAccount`. -/
def getAccount (db : Database) (id : Int) : Option Account := db.accounts.find? fun a => a.id = id

/-- An account is fetched and put back as it is. An account that is not there is not put
back. -/
def saveUnchanged (zone : ServiceZone) (offsetAt : Int → Int) (id : Int) (l : Private)
    (db : Database) : Database :=
  match getAccount db id with
  | none => db
  | some a => leaves machine (putAccount (putDetails zone offsetAt (getDetails zone a)))
      (fun _ => false) l db

/-- The row of an account. -/
structure Stored (db : Database) (a : Account) : Prop where
  /-- It is in the table. -/
  mem : a ∈ db.accounts
  /-- `PK_Accounts`. -/
  keys : db.accountIds.Nodup
  /-- The identity column starts at 1. -/
  positive : 0 < a.id
  /-- `FK_Accounts_Packages`. -/
  package : a.packageId ∈ db.packages

/-- Two rows agree on every column, and on the instants of both dates. -/
structure Account.Agrees (a b : Account) : Prop where
  columns : { a with
    creationDate := b.creationDate, packageActivationDate := b.packageActivationDate } = b
  created : a.creationDate.instant = b.creationDate.instant
  activated : a.packageActivationDate.instant = b.packageActivationDate.instant

/-! ## What becomes of a date -/

/-- The hour of a local time. -/
def hourOf (localTime : Int) : Int := localTime % 86400 / 3600

/-- Half a day is added to the hour that `hh` writes as 12, and taken from the hours above. -/
def halfDay (hour : Int) : Int := if hour = 0 then 43200 else if hour ≤ 12 then 0 else -43200

/-- The local time that is read: noon is taken for midnight. -/
def readTime (localTime : Int) : Int :=
  if hourOf localTime = 12 then localTime - 43200 else localTime

/-- By how much the local time of a date changes on its way. -/
def drift (zone : ServiceZone) (localTime : Int) : Int :=
  let shown := readTime localTime + zone.jump (readTime localTime)
  shown + halfDay (hourOf shown) - localTime

theorem hourOf_bounds (localTime : Int) : 0 ≤ hourOf localTime ∧ hourOf localTime < 24 := by
  unfold hourOf
  omega

/-- Another hour of the same day. -/
theorem WallClock.localTime_hour (localTime hour : Int) :
    { (WallClock.of localTime) with hour := hour }.localTime
      = localTime + 3600 * (hour - hourOf localTime) := by
  show 86400 * (localTime / 86400) + 3600 * hour + 60 * (localTime % 3600 / 60) + localTime % 60
    = localTime + 3600 * (hour - localTime % 86400 / 3600)
  omega

/-- The hour that is read. -/
theorem readHour_eq (hour : Int) :
    3600 * (readHour hour - hour) = if hour = 12 then -43200 else 0 := by
  unfold readHour
  by_cases noon : hour = 12
  · rw [if_pos noon, if_pos noon]
    omega
  · rw [if_neg noon, if_neg noon]
    omega

/-- The hour that is written. -/
theorem writeHour_eq (localTime : Int) :
    3600 * (writeHour (hourOf localTime) - hourOf localTime) = halfDay (hourOf localTime) := by
  obtain ⟨low, high⟩ := hourOf_bounds localTime
  unfold writeHour halfDay
  by_cases midnight : hourOf localTime = 0
  · rw [if_pos midnight, midnight]
    decide
  · rw [if_neg midnight]
    by_cases morning : hourOf localTime ≤ 12
    · rw [if_pos morning]
      by_cases noon : hourOf localTime = 12
      · rw [noon]
        decide
      · rw [if_neg (by omega)]
        omega
    · rw [if_neg morning, if_neg (by omega)]
      omega

/-- A date that is put back: its local time has drifted, and its offset is the manager's. -/
theorem dateTimeOffset_of_stamp (zone : ServiceZone) (offsetAt : Int → Int)
    (d : DateTimeOffset) :
    (formatDate zone (parseDate zone d.stamp)).dateTimeOffset offsetAt =
      ⟨d.localTime + drift zone d.localTime, offsetAt (d.localTime + drift zone d.localTime)⟩ := by
  have isRead : { (WallClock.of d.localTime) with
      hour := readHour (hourOf d.localTime) }.localTime = readTime d.localTime := by
    rw [WallClock.localTime_hour, readHour_eq, readTime]
    by_cases noon : hourOf d.localTime = 12
    · rw [if_pos noon, if_pos noon]
      omega
    · rw [if_neg noon, if_neg noon]
      omega
  have shown : zone.localOf (parseDate zone d.stamp)
      = readTime d.localTime + zone.jump (readTime d.localTime) := by
    show zone.localOf (zone.instantOf ({ (WallClock.of d.localTime) with
      hour := readHour (hourOf d.localTime) }.localTime)) = _
    rw [isRead, ServiceZone.jump]
    omega
  have whole : (formatDate zone (parseDate zone d.stamp)).clock.localTime
      = d.localTime + drift zone d.localTime := by
    show { (WallClock.of (zone.localOf (parseDate zone d.stamp))) with
      hour := writeHour (hourOf (zone.localOf (parseDate zone d.stamp))) }.localTime = _
    rw [shown, WallClock.localTime_hour, writeHour_eq, drift]
    omega
  rw [Stamp.dateTimeOffset, whole]
  rfl

/-- Where the clocks do not skip the local time that is read, hours from 1 to 12 stay, midnight
becomes noon, and the others lose half a day. -/
theorem drift_of_shown {zone : ServiceZone} {localTime : Int}
    (shown : zone.jump (readTime localTime) = 0) :
    drift zone localTime = halfDay (hourOf localTime) := by
  obtain ⟨low, high⟩ := hourOf_bounds localTime
  rw [drift, shown, Int.add_zero, readTime]
  by_cases noon : hourOf localTime = 12
  · have midnight : hourOf (localTime - 43200) = 0 := by
      unfold hourOf at noon ⊢
      omega
    rw [if_pos noon, midnight, noon]
    simp [halfDay]
  · rw [if_neg noon]
    omega

/-- A date denotes the instant it denoted exactly when the manager's offset at the local time it
has drifted to has drifted as far. -/
theorem instant_dateTimeOffset (zone : ServiceZone) (offsetAt : Int → Int) (d : DateTimeOffset) :
    ((formatDate zone (parseDate zone d.stamp)).dateTimeOffset offsetAt).instant = d.instant ↔
      60 * offsetAt (d.localTime + drift zone d.localTime)
        = 60 * d.offset + drift zone d.localTime := by
  rw [dateTimeOffset_of_stamp]
  simp only [DateTimeOffset.instant]
  omega

/-! ## What becomes of a row -/

/-- What the manager receives agrees with the row exactly when both dates denote the instants
they denoted. -/
theorem agrees_iff (zone : ServiceZone) (offsetAt : Int → Int) (a : Account) :
    (putDetails zone offsetAt (getDetails zone a)).Agrees a ↔
      ∀ d ∈ [a.creationDate, a.packageActivationDate],
        60 * offsetAt (d.localTime + drift zone d.localTime)
          = 60 * d.offset + drift zone d.localTime := by
  constructor
  · intro agrees d member
    rcases List.mem_cons.mp member with rfl | member
    · exact (instant_dateTimeOffset zone offsetAt _).mp agrees.created
    · rw [List.mem_singleton.mp member]
      exact (instant_dateTimeOffset zone offsetAt _).mp agrees.activated
  · intro kept
    exact ⟨rfl, (instant_dateTimeOffset zone offsetAt _).mpr (kept _ (by simp)),
      (instant_dateTimeOffset zone offsetAt _).mpr (kept _ (by simp))⟩

/-- A stored account is the one that is fetched by its key. -/
theorem getAccount_of_stored {db : Database} {a : Account} (stored : Stored db a) :
    getAccount db a.id = some a := by
  cases found : getAccount db a.id with
  | none =>
    have absent := List.find?_eq_none.mp found a stored.mem
    simp at absent
  | some b =>
    have key : b.id = a.id := by simpa using List.find?_some found
    have mem : b ∈ db.accounts := List.mem_of_find?_eq_some found
    rw [List.inj_on_of_nodup_map stored.keys mem stored.mem key]

/-- An account that is there is overwritten. -/
theorem leaves_putAccount {db : Database} {b : Account} (l : Private) (positive : 0 < b.id)
    (present : b.id ∈ db.accountIds) (package : b.packageId ∈ db.packages) :
    leaves machine (putAccount b) (fun _ => false) l db =
      { db with accounts := db.accounts.map fun c => if c.id = b.id then b else c } := by
  have updated : db.updateAccount b = some (db.accountIds.count b.id,
      { db with accounts := db.accounts.map fun c => if c.id = b.id then b else c }) := by
    rw [Database.updateAccount, if_neg (not_not_intro present), if_pos package]
  have acted : machine.act (.updateAccount b) l db = some (db.accountIds.count b.id, l.tick,
      { db with accounts := db.accounts.map fun c => if c.id = b.id then b else c }) := by
    show (db.updateAccount b).map _ = _
    rw [updated]
    rfl
  have rows : db.accountIds.count b.id ≠ 0 := by
    have := List.count_pos_iff.mpr present
    omega
  unfold putAccount
  rw [if_neg (by omega)]
  show (exec machine (.call (.updateAccount b) _) _ _ _).2.2 = _
  rw [exec]
  simp only [acted, Bool.false_eq_true, if_false]
  show (exec machine (Program.catchWith (Program.bind (if _ then _ else _) _) _) _ _ _).2.2 = _
  rw [if_neg rows]
  rfl

/-- The row of an account that is fetched and put back. -/
theorem getAccount_saveUnchanged (zone : ServiceZone) (offsetAt : Int → Int) (l : Private)
    {db : Database} {a : Account} (stored : Stored db a) :
    getAccount (saveUnchanged zone offsetAt a.id l db) a.id
      = some (putDetails zone offsetAt (getDetails zone a)) := by
  have present : a.id ∈ db.accountIds := List.mem_map_of_mem stored.mem
  let b := putDetails zone offsetAt (getDetails zone a)
  have after : saveUnchanged zone offsetAt a.id l db
      = { db with accounts := db.accounts.map fun c => if c.id = a.id then b else c } := by
    rw [saveUnchanged, getAccount_of_stored stored]
    exact leaves_putAccount l stored.positive present stored.package
  have overwritten : Stored (saveUnchanged zone offsetAt a.id l db) b := by
    rw [after]
    refine ⟨List.mem_map.mpr ⟨a, stored.mem, if_pos rfl⟩, ?_, stored.positive, stored.package⟩
    have ids : (db.accounts.map fun c => if c.id = a.id then b else c).map Account.id
        = db.accountIds := by
      rw [List.map_map]
      apply List.map_congr_left
      intro c _
      by_cases own : c.id = a.id
      · show (if c.id = a.id then b else c).id = c.id
        rw [if_pos own, own]
        rfl
      · show (if c.id = a.id then b else c).id = c.id
        rw [if_neg own]
    show ((db.accounts.map fun c => if c.id = a.id then b else c).map Account.id).Nodup
    rw [ids]
    exact stored.keys
  exact getAccount_of_stored overwritten

/-- Fetching an account and putting it back leaves its row as it was, with both dates denoting
the instants they denoted, exactly when for both dates the manager's offset at the drifted local
time has drifted as far. The local time drifts unless its hour is from 1 to 12. -/
theorem saved_accounts_unchanged (zone : ServiceZone) (offsetAt : Int → Int) (l : Private)
    {db : Database} {a : Account} (stored : Stored db a) :
    (∃ b, getAccount (saveUnchanged zone offsetAt a.id l db) a.id = some b ∧ b.Agrees a) ↔
      ∀ d ∈ [a.creationDate, a.packageActivationDate],
        60 * offsetAt (d.localTime + drift zone d.localTime)
          = 60 * d.offset + drift zone d.localTime := by
  rw [getAccount_saveUnchanged zone offsetAt l stored, ← agrees_iff]
  constructor
  · rintro ⟨b, same, agrees⟩
    rw [Option.some.inj same]
    exact agrees
  · exact fun agrees => ⟨_, rfl, agrees⟩

/-- A zone at UTC. -/
def utcZone : ServiceZone := ⟨id, id⟩

/-- An account of the given hour. -/
def accountOfHour (hour : Int) : Account :=
  ⟨1, 1, "Jo", "Doe", "jo", "jo@example.com", "hash", "WEB", ⟨3600 * hour, 0⟩, ⟨3600 * hour, 0⟩,
    true, "Main St"⟩

/-- The tables with one account. -/
def databaseOfHour (hour : Int) : Database :=
  { packages := [1], accounts := [accountOfHour hour], seed := 2 }

theorem databaseOfHour_stored (hour : Int) : Stored (databaseOfHour hour) (accountOfHour hour) where
  mem := List.mem_singleton_self _
  keys := List.nodup_singleton _
  positive := Int.one_pos
  package := List.mem_singleton_self _

/-- An account of one o'clock in the afternoon is put back with one o'clock at night, though
everything is at UTC. -/
theorem afternoon_lost :
    Stored (databaseOfHour 13) (accountOfHour 13) ∧
      getAccount (saveUnchanged utcZone (fun _ => 0) 1 {} (databaseOfHour 13)) 1
        = some (accountOfHour 1) ∧
      ¬(accountOfHour 1).Agrees (accountOfHour 13) := by
  refine ⟨databaseOfHour_stored 13, ?_, ?_⟩
  · exact getAccount_saveUnchanged utcZone (fun _ => 0) {} (databaseOfHour_stored 13)
  · intro agrees
    exact absurd agrees.created (by decide)

/-- An account of the morning is put back as it was. -/
theorem morning_account_unchanged :
    ∃ b, getAccount (saveUnchanged utcZone (fun _ => 0) 1 {} (databaseOfHour 9)) 1 = some b ∧
      b.Agrees (accountOfHour 9) :=
  (saved_accounts_unchanged utcZone (fun _ => 0) {} (databaseOfHour_stored 9)).mpr (by decide)

end EasyTrade.Accounts
