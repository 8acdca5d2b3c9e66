import RhythmLobby.Proofs.Json.Tagged
import RhythmLobby.Proofs.Json.Records
import RhythmLobby.Packet.Client
import RhythmLobby.Packet.Server

/-!
# Packets survive the wire

A packet written as text and read again is the same packet, whatever strings, numbers and choices
it carries, if its floating point numbers read back.

* `Json.Carries`           a value whose text reads back and that stands for a datum;
* `Json.Shape.Carries`     members that stand for a record;
* `Json.Variants.Carries`  members that stand for a tagged record;
* `packets_survive_wire`   packets in both directions.
-/

namespace RhythmLobby
namespace Json

variable {α β : Type} {depth : Nat}

/-! ## Values that carry a datum -/

/-- the value stands for the datum, and its text reads back inside `depth` brackets -/
structure Carries (depth : Nat) (d : Decoder α) (v : Value) (x : α) : Prop where
  legible : Legible depth v
  decoded : d v = .ok x

theorem carries_string (s : String) : Carries depth .string (.string s) s := ⟨.string s, rfl⟩

theorem carries_bool (b : Bool) : Carries depth .bool (.bool b) b := ⟨.bool b, rfl⟩

theorem carries_float {x : Binary64} (h : ReadsBack x) : Carries depth .float (.float x) x :=
  ⟨.float h, rfl⟩

theorem carries_int32 (n : Int32) : Carries depth .int32 (ofInt32 n) n := by
  have hlow := n.le_toInt
  have hhigh := n.toInt_lt
  refine ⟨.integer ⟨by omega, by omega⟩, ?_⟩
  simp [Decoder.int32, Decoder.integer, ofInt32, Int32.ofInt_toInt]

theorem carries_int64 (n : Int64) : Carries depth .int64 (ofInt64 n) n := by
  have hlow := n.le_toInt
  have hhigh := n.toInt_lt
  refine ⟨.integer ⟨by omega, by omega⟩, ?_⟩
  simp [Decoder.int64, Decoder.integer, ofInt64, Int64.ofInt_toInt]

theorem carries_uint8 (n : UInt8) : Carries depth .uint8 (.integer n.toNat) n := by
  have hlt := n.toNat_lt
  refine ⟨.integer ⟨by omega, by omega⟩, ?_⟩
  simp [Decoder.uint8, Decoder.integer]

theorem carries_uint32 (n : UInt32) : Carries depth .uint32 (.integer n.toNat) n := by
  have hlt := n.toNat_lt
  refine ⟨.integer ⟨by omega, by omega⟩, ?_⟩
  simp [Decoder.uint32, Decoder.integer]

theorem Decoder.option_some {d : Decoder α} {v : Value} (hv : v ≠ .null) {x : α}
    (h : d v = .ok x) : Decoder.option d v = .ok (some x) := by
  cases v with
  | null => exact absurd rfl hv
  | _ => simp [Decoder.option, h, Except.map]

theorem carries_option {d : Decoder α} {f : α → Value} (h : ∀ x, Carries depth d (f x) x)
    (hnull : ∀ x, f x ≠ .null) (o : Option α) : Carries depth (.option d) (ofOption f o) o := by
  cases o with
  | none => exact ⟨.null, rfl⟩
  | some x => exact ⟨(h x).legible, Decoder.option_some (hnull x) (h x).decoded⟩

theorem carries_list {d : Decoder α} {f : α → Value} {xs : List α}
    (h : ∀ x ∈ xs, Carries depth d (f x) x) :
    Carries (depth + 1) (.list d) (.array (xs.map f)) xs := by
  refine ⟨.array fun v hv => ?_, ?_⟩
  · obtain ⟨x, hx, rfl⟩ := List.mem_map.mp hv
    exact (h x hx).legible
  · show (xs.map f).mapM d = .ok xs
    induction xs with
    | nil => rfl
    | cons x xs ih =>
      obtain ⟨hx, hxs⟩ := List.forall_mem_cons.mp h
      rw [List.map_cons, List.mapM_cons]
      exact bind_eq_ok.mpr ⟨x, hx.decoded, bind_eq_ok.mpr ⟨xs, ih hxs, rfl⟩⟩

theorem carries_mode (m : GameMode) : Carries depth GameMode.decoder (.string m.name) m :=
  ⟨.string _, by cases m <;> rfl⟩

theorem carries_activity (a : Activity) : Carries depth Activity.decoder (.string a.name) a :=
  ⟨.string _, by cases a <;> rfl⟩

theorem carries_ruleset (r : Ruleset) : Carries depth Ruleset.decoder (.string r.name) r :=
  ⟨.string _, by cases r <;> rfl⟩

theorem carries_freeMod (f : FreeMod) : Carries depth FreeMod.decoder (.string f.name) f :=
  ⟨.string _, by cases f <;> rfl⟩

/-! ## Members that carry a record -/

/-- the members stand for the record, and their texts read back inside `depth` brackets -/
structure Shape.Carries (depth : Nat) (s : Shape α) (members : List (String × Value)) (x : α) :
    Prop where
  legible : ∀ m ∈ members, Legible depth m.2
  writes : s.Writes members x

theorem legible_append {members : List (String × Value)} (h : ∀ m ∈ members, Legible depth m.2)
    (name : String) {v : Value} (hv : Legible depth v) :
    ∀ m ∈ members ++ [(name, v)], Legible depth m.2 := by
  refine List.forall_mem_append.mpr ⟨h, fun m hm => ?_⟩
  cases List.mem_singleton.mp hm
  exact hv

namespace Shape.Carries

theorem pure (depth : Nat) (x : α) : Carries depth (.pure x) [] x := ⟨nofun, .pure x⟩

variable {s : Shape (β → α)} {members : List (String × Value)} {make : β → α}

theorem required (h : Carries depth s members make) (name : String) {d : Decoder β} {v : Value}
    {x : β} (hv : Json.Carries depth d v x) :
    Carries depth (s.required name d) (members ++ [(name, v)]) (make x) where
  legible := legible_append h.legible name hv.legible
  writes := h.writes.required name hv.decoded

theorem optional (h : Carries depth s members make) (name : String) {d : Decoder β} (fallback : β)
    {v : Value} {x : β} (hv : Json.Carries depth d v x) :
    Carries depth (s.optional name d fallback) (members ++ [(name, v)]) (make x) where
  legible := legible_append h.legible name hv.legible
  writes := h.writes.optional name fallback hv.decoded

theorem map {s : Shape α} {x : α} (h : Carries depth s members x) (f : α → β) :
    Carries depth (s.map f) members (f x) :=
  ⟨h.legible, h.writes.map f⟩

theorem object {s : Shape α} {x : α} (h : Carries depth s members x) (hnames : s.names.Nodup)
    (title : String) : Json.Carries (depth + 1) (s.decoder title) (.object members) x where
  legible := .object h.legible
  decoded := h.writes.ofObject hnames

end Shape.Carries

/-- the members stand for the record of a kind, and their texts read back -/
structure Variants.Carries (vs : Variants α) (kind : String) (members : List (String × Value))
    (x : α) : Prop where
  legible : ∀ m ∈ members, Legible memberNesting m.2
  untagged : ∀ m ∈ members, m.1 ≠ Variants.tag
  decoded : vs.decode kind (.object members) = .ok x

theorem Shape.Carries.variant {s : Shape α} {members : List (String × Value)} {x : α}
    (h : Shape.Carries memberNesting s members x) (hnames : s.names.Nodup)
    (htag : Variants.tag ∉ s.names) {vs : Variants α} {kind : String}
    (hdecode : vs.decode kind (.object members) = s.ofObject members) :
    vs.Carries kind members x where
  legible := h.legible
  untagged m hm heq := htag (h.writes.names_eq ▸ List.mem_map.mpr ⟨m, hm, heq⟩)
  decoded := hdecode.trans (h.writes.ofObject hnames)

theorem Variants.Carries.bare {vs : Variants α} {kind : String} {x : α}
    (h : vs.decode kind (.object []) = .ok x) : vs.Carries kind [] x := ⟨nofun, nofun, h⟩

namespace Variants

/-- a record with its kind as the first member -/
def record (kind : String) (members : List (String × Value)) : Value :=
  .object ((tag, .string kind) :: members)

theorem mem_of_decode {vs : Variants α} {kind : String} {body : Value} {x : α}
    (h : vs.decode kind body = .ok x) : kind ∈ vs.cases.map (·.1) := by
  unfold decode at h
  split at h
  · rename_i found v hfound
    have hname : found = kind := by simpa using List.find?_some hfound
    exact List.mem_map.mpr ⟨_, List.mem_of_find?_eq_some hfound, hname⟩
  · cases h

variable {vs : Variants α} {kind : String} {members : List (String × Value)} {x : α}

theorem Carries.parse (h : vs.Carries kind members x) :
    Json.parse (record kind members).text = .ok (record kind members) := by
  have hlegible : Legible (memberNesting + 1) (record kind members) :=
    .object (List.forall_mem_cons.mpr ⟨.string kind, h.legible⟩)
  exact hlegible.parse

theorem Carries.filter_tag (h : vs.Carries kind members x) :
    ((tag, .string kind) :: members).filter (·.1 == tag) = [(tag, .string kind)] :=
  @Json.filter_tag _ [] _ _ nofun h.untagged

/-- the text of the members with their kind is read as the record -/
theorem Carries.read (h : vs.Carries kind members x) :
    readTagged vs (record kind members).text = .ok x :=
  readTagged_eq_ok.mpr ⟨_, kind, .object members, h.parse,
    @Tagged.object _ [] _ kind nofun h.untagged, mem_of_decode h.decoded, h.decoded⟩

end Variants

end Json

open Json

/-! ## Records -/

section Records

variable {depth : Nat}

theorem ClientStatus.carries (s : ClientStatus) :
    Carries (depth + 1) ClientStatus.decoder s.toJson s := by
  have hmembers := (Shape.Carries.pure depth ClientStatus.mk)
    |>.required "s" (carries_activity s.activity)
    |>.required "id" (carries_int32 s.mapId)
    |>.optional "md5" "" (carries_string s.mapMd5)
    |>.optional "gm" .keys4 (carries_mode s.mode)
    |>.optional "c" "" (carries_string s.content)
    |>.optional "m" 0 (carries_int64 s.modifiers)
  exact hmembers.object (by decide) "struct ClientStatus"

theorem PublicUser.carries (u : PublicUser) :
    Carries (depth + 1) PublicUser.decoder u.toJson u := by
  have hmembers := (Shape.Carries.pure depth PublicUser.mk).required "id" (carries_int32 u.id)
    |>.required "sid" (carries_string u.steamId)
    |>.required "u" (carries_string u.username)
    |>.required "ug" (carries_int64 u.groups)
    |>.required "m" (carries_int64 u.muteEnd)
    |>.required "c" (carries_string u.country)
  exact hmembers.object (by decide) "struct PacketUser"

theorem UserStats.carries {s : UserStats} (haccuracy : ReadsBack s.accuracy)
    (hrating : ReadsBack s.rating) : Carries (depth + 1) UserStats.decoder s.toJson s := by
  have hmembers := (Shape.Carries.pure depth UserStats.mk).required "mode" (carries_mode s.mode)
    |>.required "total_score" (carries_int64 s.totalScore)
    |>.required "ranked_score" (carries_int64 s.rankedScore)
    |>.required "overall_accuracy" (carries_float haccuracy)
    |>.required "overall_performance_rating" (carries_float hrating)
    |>.required "play_count" (carries_int32 s.playCount)
    |>.required "global_rank" (carries_int64 s.globalRank)
    |>.required "country_rank" (carries_int64 s.countryRank)
  exact hmembers.object (by decide) "struct UserStats"

theorem MapInfo.carries {m : MapInfo} (h : ReadsBack m.difficulty) :
    Carries (depth + 1) MapInfo.decoder m.toJson m := by
  have hmembers := (Shape.Carries.pure depth MapInfo.mk).required "id" (carries_int32 m.id)
    |>.required "mapset_id" (carries_int32 m.mapsetId)
    |>.required "md5" (carries_string m.md5)
    |>.required "name" (carries_string m.name)
    |>.required "game_mode" (carries_mode m.mode)
    |>.required "difficulty_rating" (carries_float h)
  exact hmembers.object (by decide) "struct MapInfo"

theorem RoomPlayer.carries (p : RoomPlayer) :
    Carries (depth + 1) RoomPlayer.decoder p.toJson p := by
  have hmembers := (Shape.Carries.pure depth RoomPlayer.mk)
    |>.required "user_id" (carries_int32 p.userId)
    |>.required "username" (carries_string p.username)
    |>.required "ready" (carries_bool p.ready)
    |>.required "has_map" (carries_bool p.hasMap)
    |>.required "modifiers" (carries_int64 p.modifiers)
    |>.required "wins" (carries_uint32 p.wins)
  exact hmembers.object (by decide) "struct RoomPlayer"

theorem RoomSnapshot.carries {r : RoomSnapshot} (h : ReadsBack r.map.difficulty) :
    Carries (depth + 3) RoomSnapshot.decoder r.toJson r := by
  have hmembers := (Shape.Carries.pure (depth + 2) RoomSnapshot.mk)
    |>.required "id" (carries_int32 r.id)
    |>.required "name" (carries_string r.name)
    |>.required "has_password" (carries_bool r.hasPassword)
    |>.required "max_players" (carries_uint8 r.maxPlayers)
    |>.required "map" (MapInfo.carries h)
    |>.required "host_id" (carries_int32 r.hostId)
    |>.required "ruleset" (carries_ruleset r.ruleset)
    |>.required "host_rotation" (carries_bool r.hostRotation)
    |>.required "in_progress" (carries_bool r.inProgress)
    |>.required "global_modifiers" (carries_int64 r.globalModifiers)
    |>.required "free_mod" (carries_freeMod r.freeMod)
    |>.required "tournament" (carries_bool r.tournament)
    |>.required "players" (carries_list fun p (_ : p ∈ r.players) => p.carries)
  exact hmembers.object (by decide) "struct RoomSnapshot"

theorem SettingsPatch.carries (p : SettingsPatch) :
    Shape.Carries depth SettingsPatch.shape p.members p := by
  have hmembers := (Shape.Carries.pure depth SettingsPatch.mk)
    |>.optional "name" none (carries_option carries_string (by nofun) p.name)
    |>.optional "password" none (carries_option carries_string (by nofun) p.password)
    |>.optional "max_players" none (carries_option carries_uint8 (by nofun) p.maxPlayers)
    |>.optional "ruleset" none (carries_option carries_ruleset (by nofun) p.ruleset)
    |>.optional "host_rotation" none (carries_option carries_bool (by nofun) p.hostRotation)
    |>.optional "global_modifiers" none (carries_option carries_int64 (by nofun) p.globalModifiers)
    |>.optional "free_mod" none (carries_option carries_freeMod (by nofun) p.freeMod)
    |>.optional "tournament" none (carries_option carries_bool (by nofun) p.tournament)
  exact hmembers

end Records

/-! ## Packets -/

/-- the floating point numbers that a packet carries -/
def ClientPacket.floats : ClientPacket → List Binary64
  | roomCreate _ _ _ map | roomMap map => [map.difficulty]
  | _ => []

theorem ClientPacket.carries (p : ClientPacket) (h : ∀ x ∈ p.floats, ReadsBack x) :
    variants.Carries p.kind p.members p := by
  cases p with
  | login username password =>
    have hmembers := (Shape.Carries.pure memberNesting login)
      |>.required "username" (carries_string username)
      |>.required "password" (carries_string password)
    exact hmembers.variant (by decide) (by decide) rfl
  | ping => exact .bare rfl
  | pong => exact .bare rfl
  | status s =>
    have hmembers := (Shape.Carries.pure memberNesting status) |>.required "status" s.carries
    exact hmembers.variant (by decide) (by decide) rfl
  | processes list =>
    have hmembers := (Shape.Carries.pure memberNesting processes)
      |>.required "list" (carries_list fun s (_ : s ∈ list) => carries_string s)
    exact hmembers.variant (by decide) (by decide) rfl
  | statsRequest => exact .bare rfl
  | roomCreate name password maxPlayers map =>
    have hmap := h map.difficulty (List.mem_singleton_self _)
    have hmembers := (Shape.Carries.pure memberNesting roomCreate)
      |>.required "name" (carries_string name)
      |>.optional "password" none (carries_option carries_string (by nofun) password)
      |>.required "max_players" (carries_uint8 maxPlayers)
      |>.required "map" (MapInfo.carries hmap)
    exact hmembers.variant (by decide) (by decide) rfl
  | roomJoin id password =>
    have hmembers := (Shape.Carries.pure memberNesting roomJoin)
      |>.required "id" (carries_int32 id)
      |>.optional "password" none (carries_option carries_string (by nofun) password)
    exact hmembers.variant (by decide) (by decide) rfl
  | roomLeave => exact .bare rfl
  | roomReady ready =>
    have hmembers := (Shape.Carries.pure memberNesting roomReady)
      |>.required "ready" (carries_bool ready)
    exact hmembers.variant (by decide) (by decide) rfl
  | roomHasMap hasMap =>
    have hmembers := (Shape.Carries.pure memberNesting roomHasMap)
      |>.required "has_map" (carries_bool hasMap)
    exact hmembers.variant (by decide) (by decide) rfl
  | roomMods modifiers =>
    have hmembers := (Shape.Carries.pure memberNesting roomMods)
      |>.required "modifiers" (carries_int64 modifiers)
    exact hmembers.variant (by decide) (by decide) rfl
  | roomSettings patch =>
    exact (patch.carries.map roomSettings).variant (by decide) (by decide) rfl
  | roomMap map =>
    have hmap := h map.difficulty (List.mem_singleton_self _)
    have hmembers := (Shape.Carries.pure memberNesting roomMap)
      |>.required "map" (MapInfo.carries hmap)
    exact hmembers.variant (by decide) (by decide) rfl
  | roomStart => exact .bare rfl
  | roomFinish winner =>
    have hmembers := (Shape.Carries.pure memberNesting roomFinish)
      |>.optional "winner" none (carries_option carries_int32 (by nofun) winner)
    exact hmembers.variant (by decide) (by decide) rfl
  | roomHost userId =>
    have hmembers := (Shape.Carries.pure memberNesting roomHost)
      |>.required "user_id" (carries_int32 userId)
    exact hmembers.variant (by decide) (by decide) rfl
  | roomClose => exact .bare rfl

/-- the floating point numbers that a packet carries -/
def ServerPacket.floats : ServerPacket → List Binary64
  | stats list => list.flatMap fun s => [s.accuracy, s.rating]
  | roomInfo room | roomUpdate room => [room.map.difficulty]
  | _ => []

theorem ServerPacket.carries (p : ServerPacket) (h : ∀ x ∈ p.floats, ReadsBack x) :
    variants.Carries p.kind p.members p := by
  cases p with
  | welcome user token =>
    have hmembers := (Shape.Carries.pure memberNesting welcome)
      |>.required "user" user.carries
      |>.required "token" (carries_string token)
    exact hmembers.variant (by decide) (by decide) rfl
  | error message =>
    have hmembers := (Shape.Carries.pure memberNesting error)
      |>.required "message" (carries_string message)
    exact hmembers.variant (by decide) (by decide) rfl
  | ping timestamp =>
    have hmembers := (Shape.Carries.pure memberNesting ping)
      |>.required "timestamp" (carries_int64 timestamp)
    exact hmembers.variant (by decide) (by decide) rfl
  | pong => exact .bare rfl
  | userConnected user =>
    have hmembers := (Shape.Carries.pure memberNesting userConnected)
      |>.required "user" user.carries
    exact hmembers.variant (by decide) (by decide) rfl
  | userDisconnected userId =>
    have hmembers := (Shape.Carries.pure memberNesting userDisconnected)
      |>.required "user_id" (carries_int32 userId)
    exact hmembers.variant (by decide) (by decide) rfl
  | usersOnline users =>
    have hmembers := (Shape.Carries.pure memberNesting usersOnline)
      |>.required "users" (carries_list fun u (_ : u ∈ users) => u.carries)
    exact hmembers.variant (by decide) (by decide) rfl
  | statusUpdate userId s =>
    have hmembers := (Shape.Carries.pure memberNesting statusUpdate)
      |>.required "user_id" (carries_int32 userId)
      |>.required "status" s.carries
    exact hmembers.variant (by decide) (by decide) rfl
  | stats list =>
    have hlist (s : UserStats) (hs : s ∈ list) : Carries 125 UserStats.decoder s.toJson s :=
      UserStats.carries (h s.accuracy (List.mem_flatMap.mpr ⟨s, hs, by simp⟩))
        (h s.rating (List.mem_flatMap.mpr ⟨s, hs, by simp⟩))
    have hmembers := (Shape.Carries.pure memberNesting stats)
      |>.required "stats" (carries_list hlist)
    exact hmembers.variant (by decide) (by decide) rfl
  | roomInfo room =>
    have hroom := h room.map.difficulty (List.mem_singleton_self _)
    have hmembers := (Shape.Carries.pure memberNesting roomInfo)
      |>.required "room" (RoomSnapshot.carries hroom)
    exact hmembers.variant (by decide) (by decide) rfl
  | roomPlayerJoined roomId userId =>
    have hmembers := (Shape.Carries.pure memberNesting roomPlayerJoined)
      |>.required "room_id" (carries_int32 roomId)
      |>.required "user_id" (carries_int32 userId)
    exact hmembers.variant (by decide) (by decide) rfl
  | roomPlayerLeft roomId userId =>
    have hmembers := (Shape.Carries.pure memberNesting roomPlayerLeft)
      |>.required "room_id" (carries_int32 roomId)
      |>.required "user_id" (carries_int32 userId)
    exact hmembers.variant (by decide) (by decide) rfl
  | roomUpdate room =>
    have hroom := h room.map.difficulty (List.mem_singleton_self _)
    have hmembers := (Shape.Carries.pure memberNesting roomUpdate)
      |>.required "room" (RoomSnapshot.carries hroom)
    exact hmembers.variant (by decide) (by decide) rfl
  | roomClosed roomId =>
    have hmembers := (Shape.Carries.pure memberNesting roomClosed)
      |>.required "room_id" (carries_int32 roomId)
    exact hmembers.variant (by decide) (by decide) rfl

/-! ## The wire -/

/-- a packet read from its own text, if that is not too long for a frame -/
theorem ClientPacket.decode_text (p : ClientPacket) (h : ∀ x ∈ p.floats, ReadsBack x) :
    decode p.text = if p.text.utf8ByteSize ≤ maxFrameBytes then .ok p
      else .error (.tooLarge p.text.utf8ByteSize) := by
  have hread : readTagged variants p.text = .ok p := (p.carries h).read
  unfold decode
  split
  · rename_i hlong
    rw [if_neg (Nat.not_le_of_lt hlong)]
  · rename_i hshort
    rw [if_pos (Nat.le_of_not_lt hshort), hread]
    rfl

/-- A packet from a client is an object with one tag, the packet's kind, and is read as itself
from its own text, or refused for its length.  A packet to a client is read as itself. -/
theorem packets_survive_wire :
    (∀ p : ClientPacket, (∀ x ∈ p.floats, ReadsBack x) →
      (∃ members, Json.parse p.text = .ok (.object members) ∧
        members.filter (·.1 == Variants.tag) = [(Variants.tag, .string p.kind)]) ∧
      ClientPacket.decode p.text =
        if p.text.utf8ByteSize ≤ ClientPacket.maxFrameBytes then .ok p
        else .error (.tooLarge p.text.utf8ByteSize)) ∧
    ∀ q : ServerPacket, (∀ x ∈ q.floats, ReadsBack x) → ServerPacket.read q.text = .ok q := by
  refine ⟨fun p h => ⟨⟨_, (p.carries h).parse, (p.carries h).filter_tag⟩, p.decode_text h⟩, ?_⟩
  exact fun q h => (q.carries h).read

/-- a map of difficulty 5.25 whose name has to be escaped -/
def sampleMap : MapInfo := ⟨-1, 12, "d41d8cd9", "\"Café\"\n\x01", .keys7, ⟨0x4015000000000000⟩⟩

/-- what a player has achieved, with an accuracy of 98.5 and a rating of 5.25 -/
def sampleStats : UserStats :=
  ⟨.keys4, 9000000000, 100, ⟨0x4058a00000000000⟩, ⟨0x4015000000000000⟩, -3, 1, 2⟩

/-- a room without a password and the achievements of a player go over the wire -/
theorem packets_survive_wire_sample :
    ClientPacket.decode (ClientPacket.roomCreate "den\\" none 255 sampleMap).text =
        .ok (.roomCreate "den\\" none 255 sampleMap) ∧
      ServerPacket.read (ServerPacket.stats [sampleStats]).text = .ok (.stats [sampleStats]) := by
  have hdifficulty : ReadsBack ⟨0x4015000000000000⟩ := by decide +kernel
  have haccuracy : ReadsBack ⟨0x4058a00000000000⟩ := by decide +kernel
  constructor
  · have hpacket := packets_survive_wire.1 (.roomCreate "den\\" none 255 sampleMap)
      fun x hx => List.mem_singleton.mp hx ▸ hdifficulty
    exact hpacket.2.trans (if_pos (by decide +kernel))
  · apply packets_survive_wire.2 (.stats [sampleStats])
    exact List.forall_mem_cons.mpr ⟨haccuracy, List.forall_mem_cons.mpr ⟨hdifficulty, nofun⟩⟩

end RhythmLobby
