import RhythmLobby.Profile
import RhythmLobby.Packet.User

/-!
# Sessions

* `Session`         what is fixed when a user logs in; sessions are told apart by their number;
* `SessionState`    what changes while the user is online.
-/

namespace RhythmLobby

/-- what is fixed at login; `key` is the number of the session and `line` that of its line -/
structure Session where
  key : Nat
  token : String
  profile : Profile
  line : Nat
  deriving DecidableEq

namespace Session

def id (s : Session) : Int32 := s.profile.id

def toPublic (s : Session) : PublicUser := s.profile.toPublic

end Session

/-- what changes while a user is online; times are in milliseconds -/
structure SessionState where
  lastPing : Int64
  lastPong : Int64
  /-- the suspicious processes last reported -/
  processes : List String
  status : ClientStatus
  /-- one entry per mode in the order of the modes, once loaded -/
  stats : List UserStats
  /-- the session has been torn down, and its records belong to others or to nobody -/
  retired : Bool
  deriving DecidableEq

namespace SessionState

def fresh (now : Int64) : SessionState := ⟨now, now, [], .initial, [], false⟩

end SessionState
end RhythmLobby
