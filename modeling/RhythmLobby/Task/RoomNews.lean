import RhythmLobby.Task.Rooms

/-!
# News of rooms

* `RoomNews.notify`         a packet for those of some users that are online;
* `RoomNews.sendUpdate`     the state of a room for its members;
* `RoomNews.leaveCurrent`   a user leaves its room, and the others are told;
* `RoomNews.closeAll`       all rooms are closed, and their members are told.
-/

namespace RhythmLobby.RoomNews

/-- gives the number of lines that took the packet -/
def notify (users : List Int32) (p : ServerPacket) : Routine Nat := do
  let sessions ← Routine.read (·.sessionsOf users)
  Routine.emit (.fanOut p sessions)

def sendUpdate (ref : RoomRef) : Routine Unit := do
  let snapshot ← Routine.read fun h => (h.room ref).snapshot
  let members ← Routine.read fun h => (h.room ref).ids
  let _ ← notify members (.roomUpdate snapshot)

/-- `false` if the user was in no room -/
def leaveCurrent (user : Int32) : Routine Bool := do
  match ← Rooms.leave user with
  | none => return false
  | some (_, .notMember) => return true
  | some (_, .emptied) => return true
  | some (ref, .left) =>
    let members ← Routine.read fun h => (h.room ref).ids
    let _ ← notify members (.roomPlayerLeft ref.id user)
    return true
  | some (ref, .hostPassed _) =>
    let members ← Routine.read fun h => (h.room ref).ids
    let _ ← notify members (.roomPlayerLeft ref.id user)
    sendUpdate ref
    return true

def closeRoom (ref : RoomRef) : Routine Unit := do
  match ← Rooms.remove ref.id none with
  | .error _ => return ()
  | .ok members =>
    let _ ← notify members (.roomClosed ref.id)

def closeAll : Routine Unit := do
  let refs ← Routine.read (·.openRooms.values)
  Routine.each closeRoom refs

end RhythmLobby.RoomNews
