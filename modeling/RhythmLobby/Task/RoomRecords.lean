import RhythmLobby.Hub.Routine

/-!
# Records of rooms

A record is written after the room has been changed and let go, so that writes of several tasks
may reach the cache in any order.  Every write is therefore followed by a settling loop, which
looks at the room again and repeats the write, or deletes the record, until the room shows what
was written last.

* `RoomRef.settleListing`, `RoomRef.settlePlayer`   the two settling loops;
* `RoomRef.writeListing`, `RoomRef.writePlayer`     a write and its settling;
* `RoomRef.publish`                                 all records of a room.
-/

namespace RhythmLobby.RoomRef
open Cache

/-- whether the room still shows the listing written last -/
def sameListing : Option Listing → Option Listing → Bool
  | none, none => true
  | some a, some b => a.agrees b
  | _, _ => false

/-- one look at the listing, where `written` was written last -/
def listingTurn (ref : RoomRef) (written : Option Listing) (h : Hub) :
    Turn (Option Listing) Unit :=
  let current := (h.room ref).liveListing
  if sameListing current written then .stop ()
  else
    match current with
    | some l => .update (Update.listing ref.id l) current
    | none => .update (Update.noRoom ref.id []) current

def settleListing (ref : RoomRef) (written : Option Listing) : Routine Unit :=
  Routine.settling ref.listingTurn written

/-- one look at a member, where `written` was written last -/
def playerTurn (ref : RoomRef) (user : Int32) (written : Option PlayerRecord) (h : Hub) :
    Turn (Option PlayerRecord) Unit :=
  let current := (h.room ref).liveRecord user
  if current = written then .stop ()
  else
    match current with
    | some r => .update (Update.player ref.id r) current
    | none => .update (Update.noPlayer ref.id user) current

def settlePlayer (ref : RoomRef) (user : Int32) (written : Option PlayerRecord) : Routine Unit :=
  Routine.settling (ref.playerTurn user) written

def writeListing (ref : RoomRef) (l : Listing) : Routine Unit := do
  Routine.update (Update.listing ref.id l)
  ref.settleListing (some l)

def writePlayer (ref : RoomRef) (r : PlayerRecord) : Routine Unit := do
  Routine.update (Update.player ref.id r)
  ref.settlePlayer r.profile.userId (some r)

def publish (ref : RoomRef) : Routine Unit := do
  let (l, records) ← Routine.read fun h =>
    let r := h.room ref
    (r.listing, r.members.map Member.record)
  ref.writeListing l
  Routine.each ref.writePlayer records

end RhythmLobby.RoomRef
