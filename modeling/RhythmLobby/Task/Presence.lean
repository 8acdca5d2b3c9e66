import RhythmLobby.Task.RoomNews

/-!
# Users come online and go offline

* `login`        a session for a user, and everybody is told;
* `disconnect`   a session is torn down, and everybody is told unless the user is still online;
* `shutdown`     all rooms are closed and all sessions torn down;
* `publishCounts`   the number of users, written whenever it differs from the one written last.
-/

namespace RhythmLobby
open Cache

/-- whether the line of the session took the packet -/
def Session.send (s : Session) (p : ServerPacket) : Routine Bool := Routine.emit (.deliver p s)

/-- a packet for all who are online; gives the number of lines that took it -/
def announce (p : ServerPacket) : Routine Nat := do
  let sessions ← Routine.read (·.directory.all)
  Routine.emit (.fanOut p sessions)

def gaugeUsers : Routine Unit := do
  let n ← Routine.read (·.directory.count)
  Routine.emit (.gaugeUsers n)

def deregister (token : String) (h : Hub) : Option Session × Hub :=
  match h.directory.remove token with
  | none => (none, h)
  | some (s, d) => (some s, { h with directory := d })

def register (s : Session) (h : Hub) : Except RegistryError (Option Session) × Hub :=
  match h.directory.add s with
  | .error e => (.error e, h)
  | .ok (previous, d) => (.ok previous, { h with directory := d })

/-- tears down the session with a token; nothing happens if there is none -/
def disconnect (token : String) : Routine Unit := do
  match ← Routine.transact (deregister token) with
  | none => return ()
  | some s =>
    Routine.change fun h => h.modifyState s fun state => { state with retired := true }
    let _ ← RoomNews.leaveCurrent s.id
    Routine.update (Update.noSession s.token s.id)
    gaugeUsers
    if (← Routine.read (·.directory.ofUser s.id)).isNone then
      let _ ← announce (.userDisconnected s.id)
    Routine.emit (.hangUp s.line)

/-- Brings a user online on a line.  An older session of the user is torn down first, so that its
teardown cannot delete what is written for the new one. -/
def login (profile : Profile) (token : String) (line : Nat) :
    Routine (Except RegistryError Session) := do
  let s ← Routine.transact fun h => h.addSession profile token line
  match ← Routine.transact (register s) with
  | .error e => return .error e
  | .ok previous =>
    if let some old := previous then
      let _ ← old.send (.error "logged in from another location")
      disconnect old.token
    Routine.update (Update.session s.token s.id)
    let status ← Routine.read fun h => (h.stateOf s).status
    Routine.update (Update.status s.id status)
    let _ ← s.send (.welcome s.toPublic s.token)
    let online ← Routine.read (·.directory.all)
    let _ ← s.send (.usersOnline (online.map Session.toPublic))
    let _ ← Routine.emit (.fanOut (.userConnected s.toPublic) (online.filter (· ≠ s)))
    Routine.emit (.note .sessionCreated)
    gaugeUsers
    return .ok s

/-- tells a session that the server stops, and tears it down -/
def dismiss (s : Session) : Routine Unit := do
  let _ ← s.send (.error "server is shutting down")
  disconnect s.token

def shutdown : Routine Unit := do
  RoomNews.closeAll
  let sessions ← Routine.read (·.directory.all)
  Routine.each dismiss sessions

/-! ## How many users are online -/

/-- writes a count unless it is the one written last, and tells whether it did -/
def publishIfChanged (last : Option Nat) (count : Nat) : Routine Bool :=
  if last = some count then return false
  else do
    Routine.update (Update.onlineCount count)
    return true

/-- a number of checks, one after another; `last` was written last -/
def publishCounts : Nat → Option Nat → Routine Unit
  | 0, _ => return ()
  | n + 1, last => do
    let count ← Routine.read (·.directory.count)
    let _ ← publishIfChanged last count
    publishCounts n (some count)

/-- how many checks fall into a time in milliseconds, the first of them at once -/
def checksWithin (t : Timeouts) (ms : Nat) : Nat := ms / (t.onlineCountInterval * 1000) + 1

end RhythmLobby
