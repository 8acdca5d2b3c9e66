import RhythmLobby.Cache.Key
import RhythmLobby.Cache.Record
import RhythmLobby.Cache.Store

/-!
# Updates of the cache

An `Update` is one call on the store that keeps a record up to date, with a name under which its
failures are counted.  Nobody waits for the outcome of an update.
-/

namespace RhythmLobby.Cache

/-- a call, and the name under which its failures are counted -/
structure Update where
  name : String
  call : Call
  deriving DecidableEq

namespace Update

def session (token : String) (user : Int32) : Update :=
  ⟨"publish_session", .set (Key.session token).text (wholeText user.toInt)⟩

/-- a session and the status of its user are gone -/
def noSession (token : String) (user : Int32) : Update :=
  ⟨"remove_session", .delete [(Key.session token).text, (Key.status user).text]⟩

def status (user : Int32) (s : ClientStatus) : Update :=
  ⟨"publish_status", .hash (Key.status user).text (statusFields s)⟩

def noStatus (user : Int32) : Update :=
  ⟨"remove_status", .delete [(Key.status user).text]⟩

def onlineCount (count : Nat) : Update :=
  ⟨"publish_online_count", .set Key.online.text (wholeText count)⟩

def listing (room : Int32) (l : Listing) : Update :=
  ⟨"publish_room_settings", .hash (Key.room room).text (listingFields l)⟩

def player (room : Int32) (p : PlayerRecord) : Update :=
  ⟨"publish_player", .hash (Key.player room p.profile.userId).text (playerFields p)⟩

def noPlayer (room user : Int32) : Update :=
  ⟨"remove_player", .delete [(Key.player room user).text]⟩

/-- a room is gone with the records of these members -/
def noRoom (room : Int32) (members : List Int32) : Update :=
  ⟨"remove_room",
    .delete ((Key.room room).text :: members.map fun user => (Key.player room user).text)⟩

/-- clears what an earlier run has left of all sessions -/
def clearSessions : List Update :=
  [⟨"clear_sessions", .deleteMatching Area.sessions.pattern⟩,
   ⟨"clear_sessions", .deleteMatching Area.statuses.pattern⟩]

/-- clears what an earlier run has left of all rooms -/
def clearRooms : List Update := [⟨"clear_rooms", .deleteMatching Area.rooms.pattern⟩]

end Update
end RhythmLobby.Cache
