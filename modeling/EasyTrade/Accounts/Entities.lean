import Mathlib.Data.List.Nodup

/-!
# Accounts

The rows of `Accounts` as the login service and the manager see them, the requests
that write them and the answers. A text stands for all texts that the database's
collation does not tell apart. A `datetimeoffset(0)` value is a local date and time,
in whole seconds, and an offset in minutes.
-/

namespace EasyTrade.Accounts

/-- `DateTimeOffset`. -/
structure DateTimeOffset where
  /-- The seconds of the local date and time since the first day of year one. -/
  localTime : Int
  /-- The minutes by which local time is ahead of UTC. -/
  offset : Int
  deriving DecidableEq, Repr

/-- The instant, in seconds. -/
def DateTimeOffset.instant (d : DateTimeOffset) : Int := d.localTime - 60 * d.offset

/-- A row of `Accounts`. -/
structure Account where
  /-- The primary key, drawn from the identity column. -/
  id : Int
  /-- The package. -/
  packageId : Int
  /-- The first name. -/
  firstName : String
  /-- The last name. -/
  lastName : String
  /-- The username. -/
  username : String
  /-- The email address. -/
  email : String
  /-- The hash of the password. -/
  hashedPassword : String
  /-- Where the account comes from. -/
  origin : String
  /-- When it was created. -/
  creationDate : DateTimeOffset
  /-- Since when it has its package. -/
  packageActivationDate : DateTimeOffset
  /-- Whether it is active. -/
  accountActive : Bool
  /-- The address. -/
  address : String
  deriving DecidableEq, Repr

/-- A row of `Balance`, which a new account starts with nothing on. -/
structure Balance where
  /-- The primary key. -/
  accountId : Int
  /-- The value, in units of 10⁻⁸. -/
  value : Int := 0
  deriving DecidableEq, Repr

/-- `AccountRequest`. -/
structure AccountRequest where
  /-- The package. -/
  packageId : Int
  /-- The first name. -/
  firstName : String
  /-- The last name. -/
  lastName : String
  /-- The username. -/
  username : String
  /-- The email address. -/
  email : String
  /-- The hash of the password. -/
  hashedPassword : String
  /-- Where the account comes from. -/
  origin : String
  /-- The address. -/
  address : String
  deriving DecidableEq, Repr

/-- The account a request asks for; the identity column gives it its key. -/
def AccountRequest.account (r : AccountRequest) (id : Int) (now now' : DateTimeOffset) : Account :=
  { id, packageId := r.packageId, firstName := r.firstName, lastName := r.lastName
    username := r.username, email := r.email, hashedPassword := r.hashedPassword, origin := r.origin
    creationDate := now, packageActivationDate := now', accountActive := true, address := r.address }

/-- `SignupRequest`. -/
structure SignupRequest where
  /-- The package. -/
  packageId : Int
  /-- The first name. -/
  firstName : String
  /-- The last name. -/
  lastName : String
  /-- The username. -/
  username : String
  /-- The email address. -/
  email : String
  /-- The password. -/
  password : String
  /-- Where the account comes from. -/
  origin : String
  /-- The address. -/
  address : String
  deriving DecidableEq, Repr

/-- A sign-up asks for an account with the hash of its password. -/
def SignupRequest.accountRequest (r : SignupRequest) (hash : String → String) : AccountRequest :=
  ⟨r.packageId, r.firstName, r.lastName, r.username, r.email, hash r.password, r.origin, r.address⟩

/-- What ends a request early. -/
inductive Failure where
  /-- A statement that fails. -/
  | refused
  /-- `DbUpdateConcurrencyException`: no row was updated. -/
  | concurrency
  deriving DecidableEq, Repr

/-- The answers. An error that leaves a handler is answered with status 500. -/
inductive Response where
  /-- `CreatedAtAction`. -/
  | created (id : Int)
  /-- `BadRequest` with a message. -/
  | badRequest (message : String)
  /-- `BadRequest` with the message of an exception. -/
  | failed (exception : Failure)
  | notFound
  | noContent
  deriving DecidableEq, Repr

end EasyTrade.Accounts
