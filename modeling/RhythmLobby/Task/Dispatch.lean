import RhythmLobby.Task.Presence
import RhythmLobby.Task.Refusal
import RhythmLobby.Task.Status

/-!
# What the server does with a packet

* `Session.handle`     carries a packet of a session out;
* `Session.dispatch`   the same, and counts it.
-/

namespace RhythmLobby

/-! ## Statistics -/

/-- the achievements in each of the modes, or the first error -/
def loadStats (ask : GameMode → Except DbError UserStats) :
    List GameMode → Except DbError (List UserStats)
  | [] => .ok []
  | m :: rest => do
    let stats ← ask m
    let more ← loadStats ask rest
    return stats :: more

/-- the modes that are asked for until the first error -/
def askedModes (ask : GameMode → Except DbError UserStats) : List GameMode → List GameMode
  | [] => []
  | m :: rest =>
    match ask m with
    | .ok _ => m :: askedModes ask rest
    | .error _ => [m]

namespace Session

/-- loads the achievements of all modes; an error leaves the old ones in place -/
def refreshStats (s : Session) (ask : Hub → GameMode → Except DbError UserStats) :
    Routine (Except DbError Unit) := do
  match ← Routine.read fun h => loadStats (ask h) GameMode.all with
  | .error e => return .error e
  | .ok stats =>
    Routine.change fun h => h.modifyState s fun state => { state with stats := stats }
    return .ok ()

/-- loads the achievements from the database and sends them -/
def sendStats (s : Session) : Routine (Except Refusal Unit) := do
  let loaded ← s.refreshStats fun h => h.database.userStats s.id s.profile.country
  match loaded with
  | .error e => return .error (.database e)
  | .ok () =>
    let stats ← Routine.read fun h => (h.stateOf s).stats
    let _ ← s.send (.stats stats)
    return .ok ()

/-! ## Status and processes -/

/-- a new status, which everybody is told unless the session has been torn down -/
def changeStatus (s : Session) (status : ClientStatus) : Routine (Except Refusal Unit) := do
  if ← s.setStatus status then
    let _ ← announce (.statusUpdate s.id status)
    return .ok ()
  else
    resyncStatus s.id
    return .ok ()

def setProcesses (s : Session) (list : List String) : Routine Unit :=
  Routine.change fun h => h.modifyState s fun state => { state with processes := list }

def touchPong (s : Session) : Routine Unit :=
  Routine.change fun h => h.modifyState s fun state => { state with lastPong := h.clock }

def touchPing (s : Session) : Routine Unit :=
  Routine.change fun h => h.modifyState s fun state => { state with lastPing := h.clock }

/-! ## Rooms -/

def createRoom (s : Session) (request : RoomRequest) : Routine (Except Refusal Unit) := do
  if ← Routine.read fun h => s.profile.isMutedAt h.clock then return .error .muted
  match ← Rooms.create request s.profile.toPlayer with
  | .error e => return .error (.room e)
  | .ok ref =>
    let snapshot ← Routine.read fun h => (h.room ref).snapshot
    let _ ← s.send (.roomInfo snapshot)
    return .ok ()

def joinRoom (s : Session) (room : Int32) (guess : Option String) :
    Routine (Except Refusal Unit) := do
  match ← Rooms.join room s.profile.toPlayer guess with
  | .error e => return .error (.room e)
  | .ok ref =>
    let snapshot ← Routine.read fun h => (h.room ref).snapshot
    let _ ← s.send (.roomInfo snapshot)
    let members ← Routine.read fun h => (h.room ref).ids
    let _ ← RoomNews.notify (members.filter (· ≠ s.id)) (.roomPlayerJoined room s.id)
    return .ok ()

def leaveRoom (s : Session) : Routine (Except Refusal Unit) := do
  if ← RoomNews.leaveCurrent s.id then return .ok () else return .error .notInRoom

/-- what is done with the room the user is in -/
def inRoom (s : Session) (task : RoomRef → Routine (Except Refusal Unit)) :
    Routine (Except Refusal Unit) := do
  match ← Rooms.roomOf s.id with
  | none => return .error .notInRoom
  | some ref => task ref

/-- a change of the room the user is in; all members are told of it -/
def changeRoom (s : Session) (op : RoomRef → Routine (Except RoomError Unit)) :
    Routine (Except Refusal Unit) :=
  s.inRoom fun ref => do
    match ← op ref with
    | .error e => return .error (.room e)
    | .ok () =>
      RoomNews.sendUpdate ref
      return .ok ()

/-- the winner of a match, if one is named, has to be a member -/
def finishMatch (s : Session) (winner : Option Int32) : Routine (Except Refusal Unit) :=
  s.inRoom fun ref => do
    match winner with
    | none => finishIn ref none
    | some user =>
      let members ← Routine.read fun h => (h.room ref).ids
      if user ∈ members then finishIn ref (some user)
      else return .error (.room (.notMember user))
where
  /-- ends the match and credits the winner -/
  finishIn (ref : RoomRef) (winner : Option Int32) : Routine (Except Refusal Unit) := do
    match ← ref.finish s.id with
    | .error e => return .error (.room e)
    | .ok () =>
      if let some user := winner then
        let _ ← ref.addWin user
      RoomNews.sendUpdate ref
      return .ok ()

def closeRoom (s : Session) : Routine (Except Refusal Unit) :=
  s.inRoom fun ref => do
    match ← Rooms.remove ref.id (some s.id) with
    | .error e => return .error (.room e)
    | .ok members =>
      let _ ← RoomNews.notify members (.roomClosed ref.id)
      return .ok ()

/-! ## Packets -/

def handle (s : Session) : ClientPacket → Routine (Except Refusal Unit)
  | .login _ _ => return .error .alreadyLoggedIn
  | .ping => do
    let _ ← s.send .pong
    return .ok ()
  | .pong => do
    s.touchPong
    return .ok ()
  | .status status => s.changeStatus status
  | .processes list => do
    s.setProcesses list
    return .ok ()
  | .statsRequest => s.sendStats
  | .roomCreate name password maxPlayers map =>
    s.createRoom ⟨name, Room.password? password, maxPlayers, map⟩
  | .roomJoin id password => s.joinRoom id password
  | .roomLeave => s.leaveRoom
  | .roomReady ready => s.changeRoom (·.setReady s.id ready)
  | .roomHasMap hasMap => s.changeRoom (·.setHasMap s.id hasMap)
  | .roomMods modifiers => s.changeRoom (·.setModifiers s.id modifiers)
  | .roomSettings patch => s.changeRoom (·.updateSettings s.id patch)
  | .roomMap map => s.changeRoom (·.changeMap s.id map)
  | .roomStart => s.changeRoom (·.start s.id)
  | .roomFinish winner => s.finishMatch winner
  | .roomHost user => s.changeRoom (·.transferHost s.id user)
  | .roomClose => s.closeRoom

/-- carries a packet out and counts it, and its refusal -/
def dispatch (s : Session) (p : ClientPacket) : Routine (Except Refusal Unit) := do
  let result ← s.handle p
  if let .error e := result then
    Routine.emit (.note (.packetRefused p.kind e.code))
  Routine.emit (.note (.packetHandled p.kind))
  return result

end Session
end RhythmLobby
