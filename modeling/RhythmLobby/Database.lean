import RhythmLobby.Profile

/-!
# Accounts and achievements

The database is only read.  It knows the accounts of users and, for every user and game mode, at
most one row of achievements, from which the ranks follow.  A zero read from it has no sign.

* `PasswordHasher`          a library that reads hashes and checks passwords against them;
* `Database.authenticate`   the profile behind a name and a password;
* `Database.userStats`      achievements and ranks of a user in one mode.
-/

namespace RhythmLobby

inductive DbError where
  | invalidCredentials
  | outOfRange (column : String) (value : Int)
  /-- the row asked for does not exist -/
  | rowNotFound
  /-- the connection has been closed -/
  | unavailable
  deriving DecidableEq

namespace DbError

def message : DbError → String
  | invalidCredentials => "invalid username or password"
  | outOfRange column value =>
    column ++ " value " ++ wholeText value ++ " does not fit in 32 bits"
  | rowNotFound =>
    "database error: no rows returned by a query that expected to return at least one row"
  | unavailable => "database error: attempted to acquire a connection on a closed pool"

/-- whether the error comes from the connection and says nothing of what was asked -/
def isDriverFailure : DbError → Bool
  | unavailable => true
  | _ => false

end DbError

/-- a number of a column as a number of 32 bits -/
def narrow (column : String) (value : Int) : Except DbError Int32 :=
  let x := Int32.ofInt value
  if x.toInt = value then .ok x else .error (.outOfRange column value)

/-- An account.  `passwordHash` is meant to be a hash of its password, and may be any text. -/
structure Account where
  id : Int64
  steamId : String
  username : String
  groups : Int64
  muteEnd : Int64
  country : String
  avatarUrl : String
  passwordHash : String

/-- A library that reads the texts of hashes, and checks passwords against what it has read. -/
structure PasswordHasher where
  Hash : Type
  parse : String → Option Hash
  verifies : Hash → String → Bool

/-- A text that is no hash and a hash of another password are not told apart. -/
def PasswordHasher.verifyPassword (H : PasswordHasher) (password hash : String) :
    Except DbError Unit := do
  let some parsed := H.parse hash | throw .invalidCredentials
  if !H.verifies parsed password then throw .invalidCredentials

/-- what a user has achieved in a mode -/
structure StatsRow where
  user : Int64
  mode : Int64
  totalScore : Int64
  rankedScore : Int64
  accuracy : Binary64
  rating : Binary64
  playCount : Int64

structure Database where
  accounts : List Account
  rows : List StatsRow
  isOpen : Bool

namespace Database

def empty : Database := ⟨[], [], true⟩

/-- the same contents, of which nothing can be asked any more -/
def close (d : Database) : Database := { d with isOpen := false }

/-- the part of a name that tells it apart: what is before the first NUL, with the capital letters
of ASCII made small -/
def foldedName (name : String) : List Char :=
  (name.toList.takeWhile (· ≠ '\x00')).map Char.toLower

/-- Names are the same if they have one length in bytes and one folded form. -/
def sameName (a b : String) : Bool :=
  a.utf8ByteSize == b.utf8ByteSize && foldedName a == foldedName b

def account? (d : Database) (username : String) : Option Account :=
  d.accounts.find? fun a => sameName a.username username

/-- An unknown name and a wrong password are not told apart. -/
def authenticate (d : Database) (H : PasswordHasher) (username password : String) :
    Except DbError Profile := do
  if !d.isOpen then throw .unavailable
  let some a := d.account? username | throw .invalidCredentials
  H.verifyPassword password a.passwordHash
  let id ← narrow "users.id" a.id.toInt
  return ⟨id, a.steamId, a.username, a.groups, a.muteEnd, a.country, a.avatarUrl⟩

/-! ## Achievements and ranks -/

def rowsOf (d : Database) (mode : GameMode) : List StatsRow :=
  d.rows.filter fun r => r.mode.toInt == mode.number

def row? (d : Database) (user : Int32) (mode : GameMode) : Option StatsRow :=
  (d.rowsOf mode).find? fun r => r.user.toInt == user.toInt

/-- the achievements of a user that has no row -/
def noRow (user : Int32) (mode : GameMode) : StatsRow where
  user := user.toInt64
  mode := Int64.ofNat mode.number
  totalScore := 0
  rankedScore := 0
  accuracy := .zero
  rating := .zero
  playCount := 0

/-- one more than the number of better rows -/
def globalRank (d : Database) (mode : GameMode) (rating : Binary64) : Nat :=
  (d.rowsOf mode).countP (fun r => rating.lt r.rating) + 1

def livesIn (d : Database) (country : String) (user : Int64) : Bool :=
  d.accounts.any fun a => a.id == user && a.country == country

/-- one more than the number of better rows of users from a country -/
def countryRank (d : Database) (country : String) (mode : GameMode) (rating : Binary64) : Nat :=
  (d.rowsOf mode).countP (fun r => d.livesIn country r.user && rating.lt r.rating) + 1

/-- the achievements of a user; one without a row has achieved nothing -/
def userStats (d : Database) (user : Int32) (country : String) (mode : GameMode) :
    Except DbError UserStats := do
  if !d.isOpen then throw .unavailable
  let r := (d.row? user mode).getD (noRow user mode)
  let playCount ← narrow "user_stats.play_count" r.playCount.toInt
  return {
    mode := mode
    totalScore := r.totalScore
    rankedScore := r.rankedScore
    accuracy := r.accuracy.dropZeroSign
    rating := r.rating.dropZeroSign
    playCount := playCount
    globalRank := Int64.ofNat (d.globalRank mode r.rating)
    countryRank := Int64.ofNat (d.countryRank country mode r.rating) }

end Database
end RhythmLobby
