import RhythmLobby.Config.Limits
import RhythmLobby.Database
import RhythmLobby.Room.State
import RhythmLobby.Session.Directory

/-!
# What the server holds in memory

A `Hub` holds the sessions and rooms of the server.  Sessions and rooms that are no longer found in
the tables keep their state, since a task may still be at work on them.

* `RoomRef`                          a room, told apart from all others by its number;
* `Hub.stateOf`, `Hub.setState`      the state of a session;
* `Hub.room`, `Hub.setRoom`          the state of a room;
* `Hub.addSession`, `Hub.addRoom`    new sessions and rooms.
-/

namespace RhythmLobby

/-- a room: its number among all rooms ever made, and its id -/
structure RoomRef where
  key : Nat
  id : Int32
  deriving DecidableEq

structure Hub where
  directory : Directory
  /-- the states of all sessions ever made, by their numbers -/
  sessions : List SessionState
  /-- the open rooms by id -/
  openRooms : Table Int32 RoomRef
  /-- which room a user is in -/
  memberships : Table Int32 Int32
  nextRoom : Int32
  /-- all rooms ever made, by their numbers -/
  rooms : List Room
  /-- the time in milliseconds -/
  clock : Int64
  database : Database
  timeouts : Timeouts
  flood : FloodLimits

namespace Hub

def start (database : Database) (timeouts : Timeouts) (flood : FloodLimits) (clock : Int64) :
    Hub where
  directory := .empty
  sessions := []
  openRooms := ∅
  memberships := ∅
  nextRoom := 1
  rooms := []
  clock := clock
  database := database
  timeouts := timeouts
  flood := flood

/-! ## Sessions -/

def stateOf (h : Hub) (s : Session) : SessionState :=
  (h.sessions[s.key]?).getD { SessionState.fresh h.clock with retired := true }

def setState (h : Hub) (s : Session) (state : SessionState) : Hub :=
  { h with sessions := h.sessions.set s.key state }

def modifyState (h : Hub) (s : Session) (f : SessionState → SessionState) : Hub :=
  h.setState s (f (h.stateOf s))

/-- a new session, which nobody can find yet -/
def addSession (h : Hub) (profile : Profile) (token : String) (line : Nat) : Session × Hub :=
  (⟨h.sessions.length, token, profile, line⟩,
    { h with sessions := h.sessions ++ [SessionState.fresh h.clock] })

/-! ## Rooms -/

/-- a room that was never open -/
def noRoom (id : Int32) : Room where
  id := id
  settings := .fresh "" 0 ⟨-1, -1, "", "", .keys4, .zero⟩ 0
  password := none
  members := []
  closed := true

def room (h : Hub) (ref : RoomRef) : Room := (h.rooms[ref.key]?).getD (noRoom ref.id)

def setRoom (h : Hub) (ref : RoomRef) (r : Room) : Hub := { h with rooms := h.rooms.set ref.key r }

/-- a new room, which nobody can find yet -/
def addRoom (h : Hub) (r : Room) : RoomRef × Hub :=
  (⟨h.rooms.length, r.id⟩, { h with rooms := h.rooms ++ [r] })

def roomCount (h : Hub) : Nat := h.openRooms.size

def sessionsOf (h : Hub) (users : List Int32) : List Session := users.filterMap h.directory.ofUser

end Hub
end RhythmLobby
