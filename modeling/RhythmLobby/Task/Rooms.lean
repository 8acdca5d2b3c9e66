import RhythmLobby.Task.RoomMoves

/-!
# Rooms and who is in which

A user is in at most one room.  The place is reserved before the user joins and given back if the
room refuses.

* `Rooms.create`, `Rooms.join`, `Rooms.leave`, `Rooms.remove`   the ways to change who is where;
* `Rooms.find`, `Rooms.roomOf`                                  an open room, by id or by member.
-/

namespace RhythmLobby

/-- what a new room is to be -/
structure RoomRequest where
  name : String
  password : Option String
  maxPlayers : UInt8
  map : MapInfo
  deriving DecidableEq

namespace Rooms

/-! ## Single steps -/

/-- a new id; ids are never used again before all of them have been -/
def takeId (h : Hub) : Int32 × Hub := (h.nextRoom, { h with nextRoom := h.nextRoom + 1 })

/-- notes that a user is in a room, unless it is in one already -/
def reserve (user room : Int32) (h : Hub) : Bool × Hub :=
  if h.memberships.contains user then (false, h)
  else (true, { h with memberships := h.memberships.insert user room })

/-- gives a user's place back if it is in this room -/
def release (user room : Int32) (h : Hub) : Hub :=
  if h.memberships.get? user = some room then
    { h with memberships := h.memberships.erase user }
  else h

/-- takes out a user's place and gives the room it was in -/
def vacate (user : Int32) (h : Hub) : Option Int32 × Hub :=
  (h.memberships.get? user, { h with memberships := h.memberships.erase user })

/-- a room that is open from now on -/
def enter (r : Room) (h : Hub) : RoomRef × Hub :=
  let (ref, h) := h.addRoom r
  (ref, { h with openRooms := h.openRooms.insert r.id ref })

/-- a room that is open no more -/
def drop (room : Int32) (h : Hub) : Hub := { h with openRooms := h.openRooms.erase room }

/-! ## Looking up -/

def find (room : Int32) : Routine (Option RoomRef) := Routine.read (·.openRooms.get? room)

def roomOf (user : Int32) : Routine (Option RoomRef) := do
  match ← Routine.read (·.memberships.get? user) with
  | none => return none
  | some room => find room

def gauge : Routine Unit := do
  let n ← Routine.read Hub.roomCount
  Routine.emit (.gaugeRooms n)

/-! ## Tasks -/

/-- a new room with its host as the only member -/
def create (request : RoomRequest) (host : PlayerProfile) : Routine (Except RoomError RoomRef) := do
  match checkSettings request.name request.maxPlayers 1 with
  | .error e => return .error e
  | .ok () =>
    let id ← Routine.transact takeId
    if !(← Routine.transact (reserve host.userId id)) then return .error .alreadyMember
    let settings := RoomSettings.fresh request.name request.maxPlayers request.map host.userId
    let ref ← Routine.transact (enter (Room.create id settings request.password host))
    gauge
    ref.publish
    return .ok ref

def join (room : Int32) (profile : PlayerProfile) (guess : Option String) :
    Routine (Except RoomError RoomRef) := do
  match ← find room with
  | none => return .error .noSuchRoom
  | some ref =>
    if !(← Routine.transact (reserve profile.userId room)) then return .error .alreadyMember
    match ← ref.join profile guess with
    | .ok () => return .ok ref
    | .error e =>
      Routine.change (release profile.userId room)
      return .error e

/-- takes a user out of its room; gives the room and what became of it -/
def leave (user : Int32) : Routine (Option (RoomRef × LeaveOutcome)) := do
  match ← Routine.transact (vacate user) with
  | none => return none
  | some room =>
    match ← find room with
    | none => return none
    | some ref =>
      let outcome ← ref.leave user
      if outcome = .emptied then
        Routine.change (drop room)
        gauge
      return some (ref, outcome)

/-- closes a room; `caller` has to be the host, and nobody in particular may always close it -/
def remove (room : Int32) (caller : Option Int32) : Routine (Except RoomError (List Int32)) := do
  match ← find room with
  | none => return .error .noSuchRoom
  | some ref =>
    match ← ref.close caller with
    | .error e => return .error e
    | .ok members =>
      Routine.change (drop room)
      Routine.each (fun user => Routine.change (release user room)) members
      gauge
      return .ok members

end Rooms
end RhythmLobby
