import RhythmLobby.Json.Shape

/-!
# What a client is doing

* `GameMode`       the key counts that are played, numbered from one;
* `Activity`       what the client is busy with;
* `ClientStatus`   the activity with the map it is about.
-/

namespace RhythmLobby
open Json

def Json.ofInt32 (n : Int32) : Value := .integer n.toInt

def Json.ofInt64 (n : Int64) : Value := .integer n.toInt

/-! ## Game modes -/

inductive GameMode where
  | keys4
  | keys5
  | keys6
  | keys7
  deriving DecidableEq

namespace GameMode

/-- all modes, in the order of their numbers -/
def all : List GameMode := [.keys4, .keys5, .keys6, .keys7]

def name : GameMode → String
  | .keys4 => "keys4"
  | .keys5 => "keys5"
  | .keys6 => "keys6"
  | .keys7 => "keys7"

def number : GameMode → Nat
  | .keys4 => 1
  | .keys5 => 2
  | .keys6 => 3
  | .keys7 => 4

def ofNumber? (n : Int) : Option GameMode := all.find? fun m => (m.number : Int) == n

def decoder : Decoder GameMode := .named (all.map fun m => (m.name, m))

theorem mem_all (m : GameMode) : m ∈ all := by cases m <;> decide

theorem ofNumber?_number (m : GameMode) : ofNumber? m.number = some m := by cases m <;> rfl

end GameMode

/-! ## Activities -/

inductive Activity where
  | selecting
  | playing
  | paused
  | watching
  | editing
  | inLobby
  | multiplayer
  | listening
  deriving DecidableEq

namespace Activity

def all : List Activity :=
  [.selecting, .playing, .paused, .watching, .editing, .inLobby, .multiplayer, .listening]

def name : Activity → String
  | .selecting => "selecting"
  | .playing => "playing"
  | .paused => "paused"
  | .watching => "watching"
  | .editing => "editing"
  | .inLobby => "in_lobby"
  | .multiplayer => "multiplayer"
  | .listening => "listening"

def number : Activity → Nat
  | .selecting => 0
  | .playing => 1
  | .paused => 2
  | .watching => 3
  | .editing => 4
  | .inLobby => 5
  | .multiplayer => 6
  | .listening => 7

def decoder : Decoder Activity := .named (all.map fun a => (a.name, a))

theorem number_inj {a b : Activity} (h : a.number = b.number) : a = b := by
  cases a <;> cases b <;> first | rfl | cases h

end Activity

/-! ## Status -/

/-- an activity and the map it is about; `mapId` is `-1` if there is none -/
structure ClientStatus where
  activity : Activity
  mapId : Int32
  mapMd5 : String
  mode : GameMode
  content : String
  modifiers : Int64
  deriving DecidableEq

namespace ClientStatus

/-- the status of a client that has not told one yet -/
def initial : ClientStatus := ⟨.selecting, -1, "", .keys4, "", 0⟩

def shape : Shape ClientStatus :=
  Shape.pure ClientStatus.mk
  |>.required "s" Activity.decoder
  |>.required "id" .int32
  |>.optional "md5" .string ""
  |>.optional "gm" GameMode.decoder .keys4
  |>.optional "c" .string ""
  |>.optional "m" .int64 0

def decoder : Decoder ClientStatus := shape.decoder "struct ClientStatus"

def toJson (s : ClientStatus) : Value :=
  .object [
    ("s", .string s.activity.name),
    ("id", ofInt32 s.mapId),
    ("md5", .string s.mapMd5),
    ("gm", .string s.mode.name),
    ("c", .string s.content),
    ("m", ofInt64 s.modifiers)]

end ClientStatus
end RhythmLobby
