import RhythmLobby.Room.Settings

/-!
# A room and what can be done in it

A `Room` lists its members in the order in which they joined.  Every operation either refuses with
a `RoomError` and changes nothing, or gives the room after it together with what the cache has to
be told.  A closed room refuses everything.

* `Room.listing`, `Room.record`           what the cache should show of an open room;
* `Room.snapshot`                         what members are shown;
* `Room.successor`                        who is host after a member;
* `Room.create`, `Room.join`, `Room.leave`, `Room.close`   members come and go;
* `Room.setReady` to `Room.transferHost`  changes by members and by the host.
-/

namespace RhythmLobby

structure Member where
  profile : PlayerProfile
  modifiers : Int64
  wins : UInt32
  ready : Bool
  hasMap : Bool
  deriving DecidableEq

namespace Member

def id (m : Member) : Int32 := m.profile.userId

/-- a member that has just joined: it has the map and is not ready -/
def newcomer (profile : PlayerProfile) : Member := ⟨profile, 0, 0, false, true⟩

def record (m : Member) : PlayerRecord := ⟨m.profile, m.wins, m.modifiers, m.ready, m.hasMap⟩

def toPlayer (m : Member) : RoomPlayer :=
  ⟨m.id, m.profile.username, m.ready, m.hasMap, m.modifiers, m.wins⟩

/-- one more win, up to the largest number there is -/
def win (m : Member) : Member :=
  { m with wins := UInt32.ofNat (min (m.wins.toNat + 1) (UInt32.size - 1)) }

end Member

structure Room where
  id : Int32
  settings : RoomSettings
  password : Option String
  /-- in the order in which they joined -/
  members : List Member
  closed : Bool
  deriving DecidableEq

inductive LeaveOutcome where
  | notMember
  | left
  | hostPassed (host : Int32)
  | emptied
  deriving DecidableEq

namespace Room

/-! ## Views -/

/-- the members' ids in the order in which they joined -/
def ids (r : Room) : List Int32 := r.members.map Member.id

def member? (r : Room) (user : Int32) : Option Member := r.members.find? (·.id = user)

def hasMember (r : Room) (user : Int32) : Bool := (r.member? user).isSome

def ready (r : Room) : List Int32 := (r.members.filter (·.ready)).map Member.id

def withoutMap (r : Room) : List Int32 := (r.members.filter (!·.hasMap)).map Member.id

def listing (r : Room) : Listing := ⟨r.settings, r.password.isSome⟩

def record (r : Room) (user : Int32) : Option PlayerRecord := (r.member? user).map Member.record

/-- the settings as the cache should show them now -/
def liveListing (r : Room) : Option Listing := if r.closed then none else some r.listing

/-- a member as the cache should show it now -/
def liveRecord (r : Room) (user : Int32) : Option PlayerRecord :=
  if r.closed then none else r.record user

def snapshot (r : Room) : RoomSnapshot where
  id := r.id
  name := r.settings.name
  hasPassword := r.password.isSome
  maxPlayers := r.settings.maxPlayers
  map := r.settings.map
  hostId := r.settings.hostId
  ruleset := r.settings.ruleset
  hostRotation := r.settings.hostRotation
  inProgress := r.settings.inProgress
  globalModifiers := r.settings.globalModifiers
  freeMod := r.settings.freeMod
  tournament := r.settings.tournament
  players := r.members.map Member.toPlayer

/-- the member that joined next after a member; the first one follows the last -/
def successor (r : Room) (user : Int32) : Option Int32 :=
  if r.hasMember user then
    let before := r.ids.takeWhile (· ≠ user)
    let after := (r.ids.dropWhile (· ≠ user)).drop 1
    (after ++ before).find? (· ≠ user)
  else none

/-! ## Permissions -/

def checkOpen (r : Room) : Except RoomError Unit :=
  if r.closed then .error .noSuchRoom else .ok ()

def checkMember (r : Room) (user : Int32) : Except RoomError Unit := do
  r.checkOpen
  if r.hasMember user then return () else throw (.notMember user)

def checkHost (r : Room) (user : Int32) : Except RoomError Unit := do
  r.checkOpen
  if r.settings.hostId = user then return () else throw .notHost

/-! ## Members come and go -/

/-- an empty password is none -/
def password? (p : Option String) : Option String := p.filter (· ≠ "")

/-- a room with its host as the only member -/
def create (id : Int32) (settings : RoomSettings) (password : Option String)
    (host : PlayerProfile) : Room where
  id := id
  settings := { settings with hostId := host.userId }
  password := password? password
  members := [Member.newcomer host]
  closed := false

/-- whether a guess opens the room; without a password every guess does -/
def admits (r : Room) (guess : Option String) : Bool := r.password.isNone || r.password == guess

def join (r : Room) (profile : PlayerProfile) (guess : Option String) :
    Except RoomError (PlayerRecord × Room) := do
  r.checkOpen
  if r.hasMember profile.userId then throw .alreadyMember
  if !r.admits guess then throw .wrongPassword
  if r.settings.maxPlayers.toNat ≤ r.members.length then throw .full
  let m := Member.newcomer profile
  return (m.record, { r with members := r.members ++ [m] })

def without (r : Room) (user : Int32) : Room :=
  { r with members := r.members.filter (·.id ≠ user) }

def hostedBy (r : Room) (user : Int32) : Room :=
  { r with settings := { r.settings with hostId := user } }

/-- The last member to leave closes the room.  A leaving host is followed by the next member. -/
def leave (r : Room) (user : Int32) : LeaveOutcome × Room :=
  if r.closed || !r.hasMember user then (.notMember, r)
  else
    let rest := r.without user
    match rest.ids with
    | [] => (.emptied, { rest with closed := true })
    | first :: _ =>
      if r.settings.hostId = user then
        let host := (r.successor user).getD first
        (.hostPassed host, rest.hostedBy host)
      else (.left, rest)

/-- closes the room; `caller` has to be the host, and nobody in particular may always close it -/
def close (r : Room) (caller : Option Int32) : Except RoomError (List Int32 × Room) := do
  match caller with
  | some user => r.checkHost user
  | none => r.checkOpen
  return (r.ids, { r with members := [], closed := true })

/-! ## Changes by members -/

def modify (r : Room) (user : Int32) (f : Member → Member) : Room :=
  { r with members := r.members.map fun m => if m.id = user then f m else m }

def modifyMember (r : Room) (user : Int32) (f : Member → Member) :
    Except RoomError (PlayerRecord × Room) := do
  r.checkMember user
  let changed := r.modify user f
  match changed.record user with
  | some record => return (record, changed)
  | none => throw (.notMember user)

def setReady (r : Room) (user : Int32) (ready : Bool) : Except RoomError (PlayerRecord × Room) :=
  r.modifyMember user fun m => { m with ready := ready }

def setHasMap (r : Room) (user : Int32) (hasMap : Bool) : Except RoomError (PlayerRecord × Room) :=
  r.modifyMember user fun m => { m with hasMap := hasMap }

def setModifiers (r : Room) (user : Int32) (modifiers : Int64) :
    Except RoomError (PlayerRecord × Room) :=
  r.modifyMember user fun m => { m with modifiers := modifiers }

def addWin (r : Room) (user : Int32) : Except RoomError (PlayerRecord × Room) :=
  r.modifyMember user Member.win

/-! ## Changes by the host -/

/-- the settings after a change; what the change does not name stays -/
def patched (s : RoomSettings) (p : SettingsPatch) : RoomSettings :=
  { s with
    name := p.name.getD s.name
    maxPlayers := p.maxPlayers.getD s.maxPlayers
    ruleset := p.ruleset.getD s.ruleset
    hostRotation := p.hostRotation.getD s.hostRotation
    globalModifiers := p.globalModifiers.getD s.globalModifiers
    freeMod := p.freeMod.getD s.freeMod
    tournament := p.tournament.getD s.tournament }

/-- the password after a change -/
def patchedPassword (old : Option String) (p : SettingsPatch) : Option String :=
  match p.password with
  | some new => password? (some new)
  | none => old

/-- no settings change while a match is running -/
def checkIdle (r : Room) : Except RoomError Unit :=
  if r.settings.inProgress then .error .inProgress else .ok ()

def updateSettings (r : Room) (caller : Int32) (p : SettingsPatch) : Except RoomError Room := do
  r.checkHost caller
  r.checkIdle
  let settings := patched r.settings p
  checkSettings settings.name settings.maxPlayers r.members.length
  return { r with settings := settings, password := patchedPassword r.password p }

/-- With a new map nobody is ready, and everybody is taken to have it. -/
def changeMap (r : Room) (caller : Int32) (map : MapInfo) : Except RoomError Room := do
  r.checkHost caller
  r.checkIdle
  return { r with
    settings := { r.settings with map := map }
    members := r.members.map fun m => { m with ready := false, hasMap := true } }

def start (r : Room) (caller : Int32) : Except RoomError Room := do
  r.checkHost caller
  r.checkIdle
  return { r with settings := { r.settings with inProgress := true } }

/-- After a match nobody is ready, and with host rotation the next member is host. -/
def finish (r : Room) (caller : Int32) : Except RoomError Room := do
  r.checkHost caller
  if !r.settings.inProgress then throw .notInProgress
  let host :=
    if r.settings.hostRotation then (r.successor caller).getD r.settings.hostId
    else r.settings.hostId
  return { r with
    settings := { r.settings with inProgress := false, hostId := host }
    members := r.members.map fun m => { m with ready := false } }

def transferHost (r : Room) (caller heir : Int32) : Except RoomError Room := do
  r.checkHost caller
  r.checkMember heir
  return r.hostedBy heir

end Room
end RhythmLobby
