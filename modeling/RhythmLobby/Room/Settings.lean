import RhythmLobby.Packet.Room
import RhythmLobby.Profile

/-!
# Settings of a room

* `RoomSettings`     what the host decides;
* `RoomError`        why a room refuses;
* `isBlankText`      texts that are nothing but white space;
* `checkSettings`    the rule for names and sizes;
* `Listing`          the settings as the cache shows them, compared by `Listing.agrees`;
* `PlayerRecord`     a member as the cache shows it.
-/

namespace RhythmLobby

structure RoomSettings where
  name : String
  maxPlayers : UInt8
  map : MapInfo
  hostId : Int32
  ruleset : Ruleset
  hostRotation : Bool
  inProgress : Bool
  globalModifiers : Int64
  freeMod : FreeMod
  tournament : Bool
  deriving DecidableEq

namespace RoomSettings

def fresh (name : String) (maxPlayers : UInt8) (map : MapInfo) (hostId : Int32) : RoomSettings where
  name := name
  maxPlayers := maxPlayers
  map := map
  hostId := hostId
  ruleset := .freeForAll
  hostRotation := false
  inProgress := false
  globalModifiers := 0
  freeMod := .none
  tournament := false

/-- the same settings, where difficulties are compared as numbers -/
def agrees (s t : RoomSettings) : Bool :=
  let difficulty := s.map.difficulty
  decide (s = { t with map := { t.map with difficulty := difficulty } }) &&
    difficulty.eqv t.map.difficulty

end RoomSettings

/-! ## Refusals -/

inductive RoomError where
  | noSuchRoom
  | full
  | wrongPassword
  | alreadyMember
  | notMember (user : Int32)
  | notHost
  | inProgress
  | notInProgress
  | invalidSettings (reason : String)
  deriving DecidableEq

namespace RoomError

def code : RoomError → String
  | noSuchRoom => "no_such_room"
  | full => "room_full"
  | wrongPassword => "wrong_password"
  | alreadyMember => "already_member"
  | notMember _ => "not_member"
  | notHost => "not_host"
  | inProgress => "in_progress"
  | notInProgress => "not_in_progress"
  | invalidSettings _ => "invalid_settings"

def message : RoomError → String
  | noSuchRoom => "no such room"
  | full => "room is full"
  | wrongPassword => "wrong room password"
  | alreadyMember => "already in a room"
  | notMember user => "user " ++ wholeText user.toInt ++ " is not in this room"
  | notHost => "only the host can do that"
  | inProgress => "a match is in progress"
  | notInProgress => "no match in progress"
  | invalidSettings reason => "invalid settings: " ++ reason

end RoomError

/-! ## Names and sizes -/

/-- the property White_Space -/
def isBlank (c : Char) : Bool :=
  let n := c.toNat
  (9 ≤ n && n ≤ 13) || n == 0x20 || n == 0x85 || n == 0xa0 || n == 0x1680 ||
    (0x2000 ≤ n && n ≤ 0x200a) || n == 0x2028 || n == 0x2029 || n == 0x202f || n == 0x205f ||
    n == 0x3000

/-- nothing remains once the white space is taken away -/
def isBlankText (s : String) : Bool := s.toList.all isBlank

def minPlayers : Nat := 2

def maxPlayers : Nat := 16

/-- a room needs a name, and a size within the limits that holds the members it has -/
def checkSettings (name : String) (size : UInt8) (members : Nat) : Except RoomError Unit :=
  if isBlankText name then .error (.invalidSettings "name must not be empty")
  else if size.toNat < minPlayers ∨ maxPlayers < size.toNat then
    .error (.invalidSettings
      ("max players must be between " ++ wholeText minPlayers ++ " and " ++ wholeText maxPlayers))
  else if size.toNat < members then
    .error (.invalidSettings "max players is below the current member count")
  else .ok ()

theorem checkSettings_eq_ok_iff {name : String} {size : UInt8} {members : Nat} :
    checkSettings name size members = .ok () ↔
      isBlankText name = false ∧ minPlayers ≤ size.toNat ∧ size.toNat ≤ maxPlayers ∧
        members ≤ size.toNat := by
  unfold checkSettings
  by_cases hn : isBlankText name = true
  · simp [hn]
  · by_cases hs : size.toNat < minPlayers ∨ maxPlayers < size.toNat
    · simp only [hn, hs]
      constructor
      · intro h; simp at h
      · rintro ⟨_, h1, h2, _⟩; omega
    · by_cases hm : size.toNat < members
      · simp [hn, hs, hm]
      · simp [hn, hs, hm]
        omega

/-! ## What the cache shows -/

/-- the settings of an open room, and whether a password is set -/
structure Listing where
  settings : RoomSettings
  hasPassword : Bool
  deriving DecidableEq

namespace Listing

/-- the same listing, where difficulties are compared as numbers -/
def agrees (a b : Listing) : Bool :=
  a.settings.agrees b.settings && a.hasPassword == b.hasPassword

end Listing

/-- a member of a room with its achievements there -/
structure PlayerRecord where
  profile : PlayerProfile
  wins : UInt32
  modifiers : Int64
  ready : Bool
  hasMap : Bool
  deriving DecidableEq

end RhythmLobby
