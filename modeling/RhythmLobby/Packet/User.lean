import RhythmLobby.Packet.Status

/-!
# Users as other users see them

* `PublicUser`   who a user is;
* `UserStats`    what a user has achieved in one game mode.
-/

namespace RhythmLobby
open Json

structure PublicUser where
  id : Int32
  steamId : String
  username : String
  groups : Int64
  muteEnd : Int64
  country : String
  deriving DecidableEq

namespace PublicUser

def shape : Shape PublicUser :=
  Shape.pure PublicUser.mk
  |>.required "id" .int32
  |>.required "sid" .string
  |>.required "u" .string
  |>.required "ug" .int64
  |>.required "m" .int64
  |>.required "c" .string

def decoder : Decoder PublicUser := shape.decoder "struct PacketUser"

def toJson (u : PublicUser) : Value :=
  .object [
    ("id", ofInt32 u.id),
    ("sid", .string u.steamId),
    ("u", .string u.username),
    ("ug", ofInt64 u.groups),
    ("m", ofInt64 u.muteEnd),
    ("c", .string u.country)]

end PublicUser

/-- the achievements of a user in one mode; the ranks count from one -/
structure UserStats where
  mode : GameMode
  totalScore : Int64
  rankedScore : Int64
  accuracy : Binary64
  rating : Binary64
  playCount : Int32
  globalRank : Int64
  countryRank : Int64
  deriving DecidableEq

namespace UserStats

def shape : Shape UserStats :=
  Shape.pure UserStats.mk
  |>.required "mode" GameMode.decoder
  |>.required "total_score" .int64
  |>.required "ranked_score" .int64
  |>.required "overall_accuracy" .float
  |>.required "overall_performance_rating" .float
  |>.required "play_count" .int32
  |>.required "global_rank" .int64
  |>.required "country_rank" .int64

def decoder : Decoder UserStats := shape.decoder "struct UserStats"

def toJson (s : UserStats) : Value :=
  .object [
    ("mode", .string s.mode.name),
    ("total_score", ofInt64 s.totalScore),
    ("ranked_score", ofInt64 s.rankedScore),
    ("overall_accuracy", .float s.accuracy),
    ("overall_performance_rating", .float s.rating),
    ("play_count", ofInt32 s.playCount),
    ("global_rank", ofInt64 s.globalRank),
    ("country_rank", ofInt64 s.countryRank)]

end UserStats
end RhythmLobby
