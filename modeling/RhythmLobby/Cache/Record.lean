import RhythmLobby.Room.Settings
import RhythmLobby.Number.Layout

/-!
# Records of the cache

What the server knows is shown to others as named texts.  A flag is `1` or `0`, and a choice is
its number.

* `Cache.difficultyLayout`   how a difficulty is written;
* `Cache.statusFields`, `Cache.listingFields`, `Cache.playerFields`   the fields of each record.
-/

namespace RhythmLobby.Cache

abbrev Fields : Type := List (String × String)

/-- A difficulty has no exponent, however long that makes it, and no `.0`.  A half goes up.  This is
the text of finite difficulties only. -/
def difficultyLayout : Layout := ⟨.up, fun _ => true, false⟩

def flag (b : Bool) : String := if b then "1" else "0"

def statusFields (s : ClientStatus) : Fields :=
  [("s", wholeText s.activity.number),
   ("mid", wholeText s.mapId.toInt),
   ("md5", s.mapMd5),
   ("gm", wholeText s.mode.number),
   ("c", s.content),
   ("m", wholeText s.modifiers.toInt)]

def listingFields (l : Listing) : Fields :=
  let s := l.settings
  [("n", s.name),
   ("pw", flag l.hasPassword),
   ("mp", wholeText s.maxPlayers.toNat),
   ("md5", s.map.md5),
   ("mid", wholeText s.map.id.toInt),
   ("msid", wholeText s.map.mapsetId.toInt),
   ("map", s.map.name),
   ("host", wholeText s.hostId.toInt),
   ("r", wholeText s.ruleset.number),
   ("hr", flag s.hostRotation),
   ("gm", wholeText s.map.mode.number),
   ("d", difficultyLayout.text s.map.difficulty),
   ("inp", flag s.inProgress),
   ("m", wholeText s.globalModifiers.toInt),
   ("fm", wholeText s.freeMod.number),
   ("trn", flag s.tournament)]

def playerFields (p : PlayerRecord) : Fields :=
  [("id", wholeText p.profile.userId.toInt),
   ("u", p.profile.username),
   ("sid", p.profile.steamId),
   ("a", p.profile.avatarUrl),
   ("c", p.profile.country),
   ("w", wholeText p.wins.toNat),
   ("m", wholeText p.modifiers.toInt),
   ("r", flag p.ready),
   ("hm", flag p.hasMap)]

end RhythmLobby.Cache
