import RhythmLobby.Packet.Room
import RhythmLobby.Json.Tagged

/-!
# Packets from a client

Every frame of a client holds one packet.

* `ClientPacket`           the packets;
* `ClientPacket.variants`  how each kind is read;
* `ClientPacket.decode`    a frame read as a packet;
* `ClientPacket.text`      the compact text of a packet.
-/

namespace RhythmLobby
open Json

inductive ClientPacket where
  | login (username password : String)
  | ping
  | pong
  | status (status : ClientStatus)
  | processes (list : List String)
  | statsRequest
  | roomCreate (name : String) (password : Option String) (maxPlayers : UInt8) (map : MapInfo)
  | roomJoin (id : Int32) (password : Option String)
  | roomLeave
  | roomReady (ready : Bool)
  | roomHasMap (hasMap : Bool)
  | roomMods (modifiers : Int64)
  | roomSettings (patch : SettingsPatch)
  | roomMap (map : MapInfo)
  | roomStart
  | roomFinish (winner : Option Int32)
  | roomHost (userId : Int32)
  | roomClose
  deriving DecidableEq

namespace ClientPacket

/-- the kind of a packet, as its tag names it -/
def kind : ClientPacket → String
  | login .. => "login"
  | ping => "ping"
  | pong => "pong"
  | status .. => "status"
  | processes .. => "processes"
  | statsRequest => "stats_request"
  | roomCreate .. => "room_create"
  | roomJoin .. => "room_join"
  | roomLeave => "room_leave"
  | roomReady .. => "room_ready"
  | roomHasMap .. => "room_has_map"
  | roomMods .. => "room_mods"
  | roomSettings .. => "room_settings"
  | roomMap .. => "room_map"
  | roomStart => "room_start"
  | roomFinish .. => "room_finish"
  | roomHost .. => "room_host"
  | roomClose => "room_close"

def members : ClientPacket → List (String × Value)
  | login username password => [("username", .string username), ("password", .string password)]
  | status s => [("status", s.toJson)]
  | processes list => [("list", .array (list.map .string))]
  | roomCreate name password maxPlayers map =>
    [("name", .string name), ("password", ofOption .string password),
     ("max_players", .integer maxPlayers.toNat), ("map", map.toJson)]
  | roomJoin id password => [("id", ofInt32 id), ("password", ofOption .string password)]
  | roomReady ready => [("ready", .bool ready)]
  | roomHasMap hasMap => [("has_map", .bool hasMap)]
  | roomMods modifiers => [("modifiers", ofInt64 modifiers)]
  | roomSettings patch => patch.members
  | roomMap map => [("map", map.toJson)]
  | roomFinish winner => [("winner", ofOption ofInt32 winner)]
  | roomHost userId => [("user_id", ofInt32 userId)]
  | ping | pong | statsRequest | roomLeave | roomStart | roomClose => []

def toJson (p : ClientPacket) : Value := .object ((Variants.tag, .string p.kind) :: p.members)

def text (p : ClientPacket) : String := p.toJson.text

def variants : Variants ClientPacket where
  title := "internally tagged enum ClientPacket"
  cases := [
    ("login", .record "struct variant ClientPacket::Login"
      ((Shape.pure login).required "username" .string |>.required "password" .string)),
    ("ping", .bare ping),
    ("pong", .bare pong),
    ("status", .record "struct variant ClientPacket::Status"
      ((Shape.pure status).required "status" ClientStatus.decoder)),
    ("processes", .record "struct variant ClientPacket::Processes"
      ((Shape.pure processes).required "list" (.list .string))),
    ("stats_request", .bare statsRequest),
    ("room_create", .record "struct variant ClientPacket::RoomCreate"
      ((Shape.pure roomCreate).required "name" .string
        |>.optional "password" (.option .string) none
        |>.required "max_players" .uint8
        |>.required "map" MapInfo.decoder)),
    ("room_join", .record "struct variant ClientPacket::RoomJoin"
      ((Shape.pure roomJoin).required "id" .int32
        |>.optional "password" (.option .string) none)),
    ("room_leave", .bare roomLeave),
    ("room_ready", .record "struct variant ClientPacket::RoomReady"
      ((Shape.pure roomReady).required "ready" .bool)),
    ("room_has_map", .record "struct variant ClientPacket::RoomHasMap"
      ((Shape.pure roomHasMap).required "has_map" .bool)),
    ("room_mods", .record "struct variant ClientPacket::RoomMods"
      ((Shape.pure roomMods).required "modifiers" .int64)),
    ("room_settings", .patch "struct variant ClientPacket::RoomSettings"
      (SettingsPatch.shape.map roomSettings)),
    ("room_map", .record "struct variant ClientPacket::RoomMap"
      ((Shape.pure roomMap).required "map" MapInfo.decoder)),
    ("room_start", .bare roomStart),
    ("room_finish", .record "struct variant ClientPacket::RoomFinish"
      ((Shape.pure roomFinish).optional "winner" (.option .int32) none)),
    ("room_host", .record "struct variant ClientPacket::RoomHost"
      ((Shape.pure roomHost).required "user_id" .int32)),
    ("room_close", .bare roomClose)]

/-! ## Frames -/

/-- the length in bytes of the longest frame that is read -/
def maxFrameBytes : Nat := 16 * 1024

inductive DecodeError where
  | malformed (e : Malformed)
  | tooLarge (bytes : Nat)

def DecodeError.message : DecodeError → String
  | .malformed e => "malformed packet: " ++ e.message
  | .tooLarge bytes => "packet too large: " ++ toString bytes ++ " bytes"

def decode (frame : String) : Except DecodeError ClientPacket :=
  if maxFrameBytes < frame.utf8ByteSize then .error (.tooLarge frame.utf8ByteSize)
  else (readTagged variants frame).mapError .malformed

end ClientPacket
end RhythmLobby
