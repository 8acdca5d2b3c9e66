import RhythmLobby.Packet.Room
import RhythmLobby.Json.Tagged

/-!
# Packets to a client

* `ServerPacket`           the packets;
* `ServerPacket.variants`  how each kind is read back;
* `ServerPacket.text`      the compact text of a packet.
-/

namespace RhythmLobby
open Json

inductive ServerPacket where
  | welcome (user : PublicUser) (token : String)
  | error (message : String)
  | ping (timestamp : Int64)
  | pong
  | userConnected (user : PublicUser)
  | userDisconnected (userId : Int32)
  | usersOnline (users : List PublicUser)
  | statusUpdate (userId : Int32) (status : ClientStatus)
  | stats (list : List UserStats)
  | roomInfo (room : RoomSnapshot)
  | roomPlayerJoined (roomId userId : Int32)
  | roomPlayerLeft (roomId userId : Int32)
  | roomUpdate (room : RoomSnapshot)
  | roomClosed (roomId : Int32)
  deriving DecidableEq

namespace ServerPacket

/-- the kind of a packet, as its tag names it -/
def kind : ServerPacket → String
  | welcome .. => "welcome"
  | error .. => "error"
  | ping .. => "ping"
  | pong => "pong"
  | userConnected .. => "user_connected"
  | userDisconnected .. => "user_disconnected"
  | usersOnline .. => "users_online"
  | statusUpdate .. => "status_update"
  | stats .. => "stats"
  | roomInfo .. => "room_info"
  | roomPlayerJoined .. => "room_player_joined"
  | roomPlayerLeft .. => "room_player_left"
  | roomUpdate .. => "room_update"
  | roomClosed .. => "room_closed"

def members : ServerPacket → List (String × Value)
  | welcome user token => [("user", user.toJson), ("token", .string token)]
  | error message => [("message", .string message)]
  | ping timestamp => [("timestamp", ofInt64 timestamp)]
  | pong => []
  | userConnected user => [("user", user.toJson)]
  | userDisconnected userId => [("user_id", ofInt32 userId)]
  | usersOnline users => [("users", .array (users.map PublicUser.toJson))]
  | statusUpdate userId status => [("user_id", ofInt32 userId), ("status", status.toJson)]
  | stats list => [("stats", .array (list.map UserStats.toJson))]
  | roomInfo room => [("room", room.toJson)]
  | roomPlayerJoined roomId userId => [("room_id", ofInt32 roomId), ("user_id", ofInt32 userId)]
  | roomPlayerLeft roomId userId => [("room_id", ofInt32 roomId), ("user_id", ofInt32 userId)]
  | roomUpdate room => [("room", room.toJson)]
  | roomClosed roomId => [("room_id", ofInt32 roomId)]

def toJson (p : ServerPacket) : Value := .object ((Variants.tag, .string p.kind) :: p.members)

def text (p : ServerPacket) : String := p.toJson.text

def variants : Variants ServerPacket where
  title := "internally tagged enum ServerPacket"
  cases := [
    ("welcome", .record "struct variant ServerPacket::Welcome"
      ((Shape.pure welcome).required "user" PublicUser.decoder |>.required "token" .string)),
    ("error", .record "struct variant ServerPacket::Error"
      ((Shape.pure error).required "message" .string)),
    ("ping", .record "struct variant ServerPacket::Ping"
      ((Shape.pure ping).required "timestamp" .int64)),
    ("pong", .bare pong),
    ("user_connected", .record "struct variant ServerPacket::UserConnected"
      ((Shape.pure userConnected).required "user" PublicUser.decoder)),
    ("user_disconnected", .record "struct variant ServerPacket::UserDisconnected"
      ((Shape.pure userDisconnected).required "user_id" .int32)),
    ("users_online", .record "struct variant ServerPacket::UsersOnline"
      ((Shape.pure usersOnline).required "users" (.list PublicUser.decoder))),
    ("status_update", .record "struct variant ServerPacket::StatusUpdate"
      ((Shape.pure statusUpdate).required "user_id" .int32
        |>.required "status" ClientStatus.decoder)),
    ("stats", .record "struct variant ServerPacket::Stats"
      ((Shape.pure stats).required "stats" (.list UserStats.decoder))),
    ("room_info", .record "struct variant ServerPacket::RoomInfo"
      ((Shape.pure roomInfo).required "room" RoomSnapshot.decoder)),
    ("room_player_joined", .record "struct variant ServerPacket::RoomPlayerJoined"
      ((Shape.pure roomPlayerJoined).required "room_id" .int32 |>.required "user_id" .int32)),
    ("room_player_left", .record "struct variant ServerPacket::RoomPlayerLeft"
      ((Shape.pure roomPlayerLeft).required "room_id" .int32 |>.required "user_id" .int32)),
    ("room_update", .record "struct variant ServerPacket::RoomUpdate"
      ((Shape.pure roomUpdate).required "room" RoomSnapshot.decoder)),
    ("room_closed", .record "struct variant ServerPacket::RoomClosed"
      ((Shape.pure roomClosed).required "room_id" .int32))]

def read (text : String) : Except Malformed ServerPacket := readTagged variants text

end ServerPacket
end RhythmLobby
