import RhythmLobby.Session.State
import RhythmLobby.Table

/-!
# Who is online

A `Directory` finds sessions by token and by user.  For a moment a user may have two sessions with
different tokens; the user's entry is then the newer one.

* `Directory.add`      enters a session and gives the one it displaces;
* `Directory.remove`   takes out a session by its token.
-/

namespace RhythmLobby

structure Directory where
  byToken : Table String Session
  byUser : Table Int32 Session

inductive RegistryError where
  | duplicateToken
  deriving DecidableEq

def RegistryError.message : RegistryError → String
  | duplicateToken => "session token already registered"

namespace Directory

def empty : Directory := ⟨∅, ∅⟩

/-- enters a session, unless its token is taken, and gives the session of the user so far -/
def add (d : Directory) (s : Session) : Except RegistryError (Option Session × Directory) :=
  if d.byToken.contains s.token then .error .duplicateToken
  else .ok (d.byUser.get? s.id, ⟨d.byToken.insert s.token s, d.byUser.insert s.id s⟩)

/-- takes out the session with a token; a newer session of its user stays -/
def remove (d : Directory) (token : String) : Option (Session × Directory) :=
  match d.byToken.get? token with
  | none => none
  | some s =>
    let byUser := if d.byUser.get? s.id = some s then d.byUser.erase s.id else d.byUser
    some (s, ⟨d.byToken.erase token, byUser⟩)

def ofUser (d : Directory) (user : Int32) : Option Session := d.byUser.get? user

def ofToken (d : Directory) (token : String) : Option Session := d.byToken.get? token

def count (d : Directory) : Nat := d.byUser.size

/-- everybody who is online, in the order of the table -/
def all (d : Directory) : List Session := d.byUser.values

end Directory
end RhythmLobby
