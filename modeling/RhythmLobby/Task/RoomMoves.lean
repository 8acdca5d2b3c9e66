import RhythmLobby.Task.RoomRecords

/-!
# Changes of a room

Each task changes the room at one moment, or is refused, and then brings the records of the room
up to date.
-/

namespace RhythmLobby.RoomRef
open Cache

/-- changes the room at one moment, unless the room refuses -/
def change (ref : RoomRef) (op : Room → Except RoomError (β × Room)) :
    Routine (Except RoomError β) :=
  Routine.transact fun h =>
    match op (h.room ref) with
    | .ok (x, r) => (.ok x, h.setRoom ref r)
    | .error e => (.error e, h)

def changePlayer (ref : RoomRef) (op : Room → Except RoomError (PlayerRecord × Room)) :
    Routine (Except RoomError PlayerRecord) := do
  match ← ref.change op with
  | .error e => return .error e
  | .ok record =>
    ref.writePlayer record
    return .ok record

/-- a change that shows in the listing -/
def changeListing (ref : RoomRef) (op : Room → Except RoomError Room) :
    Routine (Except RoomError Unit) := do
  match ← ref.change fun r => (op r).map fun r => (r.listing, r) with
  | .error e => return .error e
  | .ok l =>
    ref.writeListing l
    return .ok ()

/-- a change that may show everywhere -/
def changeAll (ref : RoomRef) (op : Room → Except RoomError Room) :
    Routine (Except RoomError Unit) := do
  match ← ref.change fun r => (op r).map fun r => ((), r) with
  | .error e => return .error e
  | .ok () =>
    ref.publish
    return .ok ()

/-! ## Members come and go -/

def join (ref : RoomRef) (profile : PlayerProfile) (guess : Option String) :
    Routine (Except RoomError Unit) := do
  let joined ← ref.changePlayer (·.join profile guess)
  return joined.map fun _ => ()

/-- The records of a room that empties are deleted together, and settled no more. -/
def leave (ref : RoomRef) (user : Int32) : Routine LeaveOutcome := do
  let (outcome, l) ← Routine.transact fun h =>
    let (outcome, r) := (h.room ref).leave user
    ((outcome, r.listing), h.setRoom ref r)
  match outcome with
  | .notMember => return .notMember
  | .emptied =>
    Routine.update (Update.noRoom ref.id [user])
    return .emptied
  | .left =>
    Routine.update (Update.noPlayer ref.id user)
    ref.settlePlayer user none
    return .left
  | .hostPassed host =>
    Routine.update (Update.noPlayer ref.id user)
    ref.settlePlayer user none
    ref.writeListing l
    return .hostPassed host

/-- closes the room and deletes its records; gives the members it had -/
def close (ref : RoomRef) (caller : Option Int32) : Routine (Except RoomError (List Int32)) := do
  match ← ref.change (·.close caller) with
  | .error e => return .error e
  | .ok members =>
    Routine.update (Update.noRoom ref.id members)
    return .ok members

/-! ## Changes by members -/

def setReady (ref : RoomRef) (user : Int32) (ready : Bool) : Routine (Except RoomError Unit) := do
  let changed ← ref.changePlayer (·.setReady user ready)
  return changed.map fun _ => ()

def setHasMap (ref : RoomRef) (user : Int32) (hasMap : Bool) :
    Routine (Except RoomError Unit) := do
  let changed ← ref.changePlayer (·.setHasMap user hasMap)
  return changed.map fun _ => ()

def setModifiers (ref : RoomRef) (user : Int32) (modifiers : Int64) :
    Routine (Except RoomError Unit) := do
  let changed ← ref.changePlayer (·.setModifiers user modifiers)
  return changed.map fun _ => ()

/-- one more win; gives the number of wins -/
def addWin (ref : RoomRef) (user : Int32) : Routine (Except RoomError UInt32) := do
  let changed ← ref.changePlayer (·.addWin user)
  return changed.map PlayerRecord.wins

/-! ## Changes by the host -/

def updateSettings (ref : RoomRef) (caller : Int32) (p : SettingsPatch) :
    Routine (Except RoomError Unit) :=
  ref.changeListing (·.updateSettings caller p)

def changeMap (ref : RoomRef) (caller : Int32) (map : MapInfo) :
    Routine (Except RoomError Unit) :=
  ref.changeAll (·.changeMap caller map)

def start (ref : RoomRef) (caller : Int32) : Routine (Except RoomError Unit) :=
  ref.changeListing (·.start caller)

def finish (ref : RoomRef) (caller : Int32) : Routine (Except RoomError Unit) :=
  ref.changeAll (·.finish caller)

def transferHost (ref : RoomRef) (caller heir : Int32) : Routine (Except RoomError Unit) :=
  ref.changeListing (·.transferHost caller heir)

end RhythmLobby.RoomRef
