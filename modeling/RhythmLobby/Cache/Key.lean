import RhythmLobby.Number.Numeral

/-!
# Keys of the cache

Every record of the server has a key that names its kind and its owner.

* `Cache.Key`        the kinds of records;
* `Cache.Key.text`   the key in the store;
* `Cache.Area`       the records that are cleared together.
-/

namespace RhythmLobby.Cache

inductive Key where
  /-- who a session belongs to -/
  | session (token : String)
  /-- what a user is doing -/
  | status (user : Int32)
  /-- how many users are online -/
  | online
  | room (id : Int32)
  /-- a member of a room -/
  | player (id user : Int32)
  deriving DecidableEq

def Key.text : Key → String
  | .session token => "server:session:" ++ token
  | .status user => "server:user_status:" ++ wholeText user.toInt
  | .online => "server:online_users"
  | .room id => "server:multiplayer:" ++ wholeText id.toInt
  | .player id user =>
    "server:multiplayer:" ++ wholeText id.toInt ++ ":player:" ++ wholeText user.toInt

/-- records that are cleared together -/
inductive Area where
  | sessions
  | statuses
  | rooms
  deriving DecidableEq

def Area.pattern : Area → String
  | .sessions => "server:session:*"
  | .statuses => "server:user_status:*"
  | .rooms => "server:multiplayer:*"

end RhythmLobby.Cache
