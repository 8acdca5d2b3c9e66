import RhythmLobby.Packet.User

/-!
# Rooms as their members see them

* `MapInfo`        the map that is played next;
* `RoomPlayer`     one member of a room;
* `RoomSnapshot`   a whole room;
* `SettingsPatch`  what a host wants to change.
-/

namespace RhythmLobby
open Json

def Json.ofOption (f : α → Value) : Option α → Value
  | none => .null
  | some x => f x

/-! ## Choices -/

inductive Ruleset where
  | freeForAll
  | team
  deriving DecidableEq

namespace Ruleset

def all : List Ruleset := [.freeForAll, .team]

def name : Ruleset → String
  | .freeForAll => "free_for_all"
  | .team => "team"

def number : Ruleset → Nat
  | .freeForAll => 0
  | .team => 1

def decoder : Decoder Ruleset := .named (all.map fun r => (r.name, r))

end Ruleset

inductive FreeMod where
  | none
  | regular
  | rate
  deriving DecidableEq

namespace FreeMod

def all : List FreeMod := [.none, .regular, .rate]

def name : FreeMod → String
  | .none => "none"
  | .regular => "regular"
  | .rate => "rate"

def number : FreeMod → Nat
  | .none => 0
  | .regular => 1
  | .rate => 2

def decoder : Decoder FreeMod := .named (all.map fun f => (f.name, f))

end FreeMod

/-! ## Maps -/

/-- a map with its difficulty; the ids are `-1` if it was never submitted -/
structure MapInfo where
  id : Int32
  mapsetId : Int32
  md5 : String
  name : String
  mode : GameMode
  difficulty : Binary64
  deriving DecidableEq

namespace MapInfo

def shape : Shape MapInfo :=
  Shape.pure MapInfo.mk
  |>.required "id" .int32
  |>.required "mapset_id" .int32
  |>.required "md5" .string
  |>.required "name" .string
  |>.required "game_mode" GameMode.decoder
  |>.required "difficulty_rating" .float

def decoder : Decoder MapInfo := shape.decoder "struct MapInfo"

def toJson (m : MapInfo) : Value :=
  .object [
    ("id", ofInt32 m.id),
    ("mapset_id", ofInt32 m.mapsetId),
    ("md5", .string m.md5),
    ("name", .string m.name),
    ("game_mode", .string m.mode.name),
    ("difficulty_rating", .float m.difficulty)]

end MapInfo

/-! ## Members and rooms -/

structure RoomPlayer where
  userId : Int32
  username : String
  ready : Bool
  hasMap : Bool
  modifiers : Int64
  wins : UInt32
  deriving DecidableEq

namespace RoomPlayer

def shape : Shape RoomPlayer :=
  Shape.pure RoomPlayer.mk
  |>.required "user_id" .int32
  |>.required "username" .string
  |>.required "ready" .bool
  |>.required "has_map" .bool
  |>.required "modifiers" .int64
  |>.required "wins" .uint32

def decoder : Decoder RoomPlayer := shape.decoder "struct RoomPlayer"

def toJson (p : RoomPlayer) : Value :=
  .object [
    ("user_id", ofInt32 p.userId),
    ("username", .string p.username),
    ("ready", .bool p.ready),
    ("has_map", .bool p.hasMap),
    ("modifiers", ofInt64 p.modifiers),
    ("wins", .integer p.wins.toNat)]

end RoomPlayer

/-- a room at one moment, with its members in the order in which they joined -/
structure RoomSnapshot where
  id : Int32
  name : String
  hasPassword : Bool
  maxPlayers : UInt8
  map : MapInfo
  hostId : Int32
  ruleset : Ruleset
  hostRotation : Bool
  inProgress : Bool
  globalModifiers : Int64
  freeMod : FreeMod
  tournament : Bool
  players : List RoomPlayer
  deriving DecidableEq

namespace RoomSnapshot

def shape : Shape RoomSnapshot :=
  Shape.pure RoomSnapshot.mk
  |>.required "id" .int32
  |>.required "name" .string
  |>.required "has_password" .bool
  |>.required "max_players" .uint8
  |>.required "map" MapInfo.decoder
  |>.required "host_id" .int32
  |>.required "ruleset" Ruleset.decoder
  |>.required "host_rotation" .bool
  |>.required "in_progress" .bool
  |>.required "global_modifiers" .int64
  |>.required "free_mod" FreeMod.decoder
  |>.required "tournament" .bool
  |>.required "players" (.list RoomPlayer.decoder)

def decoder : Decoder RoomSnapshot := shape.decoder "struct RoomSnapshot"

def toJson (r : RoomSnapshot) : Value :=
  .object [
    ("id", ofInt32 r.id),
    ("name", .string r.name),
    ("has_password", .bool r.hasPassword),
    ("max_players", .integer r.maxPlayers.toNat),
    ("map", r.map.toJson),
    ("host_id", ofInt32 r.hostId),
    ("ruleset", .string r.ruleset.name),
    ("host_rotation", .bool r.hostRotation),
    ("in_progress", .bool r.inProgress),
    ("global_modifiers", ofInt64 r.globalModifiers),
    ("free_mod", .string r.freeMod.name),
    ("tournament", .bool r.tournament),
    ("players", .array (r.players.map RoomPlayer.toJson))]

end RoomSnapshot

/-! ## Changes -/

/-- the settings a host wants to change; what is absent stays, and an empty password is none -/
structure SettingsPatch where
  name : Option String
  password : Option String
  maxPlayers : Option UInt8
  ruleset : Option Ruleset
  hostRotation : Option Bool
  globalModifiers : Option Int64
  freeMod : Option FreeMod
  tournament : Option Bool
  deriving DecidableEq

namespace SettingsPatch

def empty : SettingsPatch := ⟨none, none, none, none, none, none, none, none⟩

def shape : Shape SettingsPatch :=
  Shape.pure SettingsPatch.mk
  |>.optional "name" (.option .string) none
  |>.optional "password" (.option .string) none
  |>.optional "max_players" (.option .uint8) none
  |>.optional "ruleset" (.option Ruleset.decoder) none
  |>.optional "host_rotation" (.option .bool) none
  |>.optional "global_modifiers" (.option .int64) none
  |>.optional "free_mod" (.option FreeMod.decoder) none
  |>.optional "tournament" (.option .bool) none

def decoder : Decoder SettingsPatch := shape.decoder "struct SettingsPatch"

def members (p : SettingsPatch) : List (String × Value) :=
  [("name", ofOption .string p.name),
   ("password", ofOption .string p.password),
   ("max_players", ofOption (fun n => .integer n.toNat) p.maxPlayers),
   ("ruleset", ofOption (fun r => .string r.name) p.ruleset),
   ("host_rotation", ofOption .bool p.hostRotation),
   ("global_modifiers", ofOption ofInt64 p.globalModifiers),
   ("free_mod", ofOption (fun f => .string f.name) p.freeMod),
   ("tournament", ofOption .bool p.tournament)]

end SettingsPatch
end RhythmLobby
