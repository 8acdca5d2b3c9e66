import RhythmLobby.Database
import RhythmLobby.Packet.Client
import RhythmLobby.Packet.Server
import RhythmLobby.Room.Settings
import RhythmLobby.Session.Directory

/-!
# Why a client is refused

* `Refusal`          why a packet of a client is not carried out;
* `LoginRefusal`     why a client gets no session;
* `TransportError`   why a frame does not reach a client.

What the client is told hides everything about the database but wrong credentials.
-/

namespace RhythmLobby
open ClientPacket (DecodeError)

/-- what a client is told instead of an error of the server's own -/
def unavailableText : String := "temporarily unavailable"

inductive Refusal where
  | alreadyLoggedIn
  | notInRoom
  | muted
  | flooding
  | room (e : RoomError)
  | database (e : DbError)
  | undecodable (e : DecodeError)

namespace Refusal

def code : Refusal → String
  | alreadyLoggedIn => "already_logged_in"
  | notInRoom => "not_in_room"
  | muted => "muted"
  | flooding => "flooding"
  | room e => e.code
  | database _ => "db_error"
  | undecodable _ => "protocol_error"

def message : Refusal → String
  | alreadyLoggedIn => "already logged in"
  | notInRoom => "not in a room"
  | muted => "you are muted"
  | flooding => "slow down"
  | room e => e.message
  | database e => "database error: " ++ e.message
  | undecodable e => "protocol error: " ++ e.message

def reply : Refusal → ServerPacket
  | database _ => .error unavailableText
  | r => .error r.message

end Refusal

inductive LoginRefusal where
  | timeout
  | closed
  | notLogin
  | undecodable (e : DecodeError)
  | database (e : DbError)
  | registry (e : RegistryError)

namespace LoginRefusal

def reason : LoginRefusal → String
  | timeout => "timeout"
  | closed => "closed"
  | notLogin => "not_login"
  | undecodable _ => "protocol_error"
  | database .invalidCredentials => "invalid_credentials"
  | database _ => "db_error"
  | registry _ => "duplicate_token"

def message : LoginRefusal → String
  | timeout => "login timed out"
  | closed => "connection closed before login"
  | notLogin => "expected a login packet"
  | undecodable e => "protocol error: " ++ e.message
  | database e => e.message
  | registry e => e.message

/-- what the client is told, if it is still there -/
def reply : LoginRefusal → Option ServerPacket
  | closed => none
  | database .invalidCredentials => some (.error DbError.invalidCredentials.message)
  | database _ => some (.error unavailableText)
  | registry _ => some (.error unavailableText)
  | r => some (.error r.message)

end LoginRefusal

inductive TransportError where
  | serialize (e : Json.Malformed)
  | write (text : String)
  | timeout
  | closed

namespace TransportError

def kind : TransportError → String
  | serialize _ => "serialize"
  | write _ => "write"
  | timeout => "timeout"
  | closed => "closed"

def message : TransportError → String
  | serialize e => "failed to serialize packet: " ++ e.message
  | write text => "write failed: " ++ text
  | timeout => "write timed out"
  | closed => "connection closed"

end TransportError
end RhythmLobby
