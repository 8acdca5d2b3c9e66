import RhythmLobby.Packet.User

/-!
# Profiles of users

A `Profile` is what the database knows of a user, and `PlayerProfile` the part of it that a room
keeps.
-/

namespace RhythmLobby

/-- a user as stored; a mute ends at a time in milliseconds -/
structure Profile where
  id : Int32
  steamId : String
  username : String
  groups : Int64
  muteEnd : Int64
  country : String
  avatarUrl : String
  deriving DecidableEq

structure PlayerProfile where
  userId : Int32
  username : String
  steamId : String
  avatarUrl : String
  country : String
  deriving DecidableEq

namespace Profile

def toPublic (p : Profile) : PublicUser :=
  ⟨p.id, p.steamId, p.username, p.groups, p.muteEnd, p.country⟩

def toPlayer (p : Profile) : PlayerProfile :=
  ⟨p.id, p.username, p.steamId, p.avatarUrl, p.country⟩

def isMutedAt (p : Profile) (now : Int64) : Bool := now < p.muteEnd

end Profile
end RhythmLobby
