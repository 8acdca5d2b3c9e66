import RhythmLobby.Json.Fault

/-!
# Values as numbers, texts, flags and lists

A `Decoder` reads one value as a member of a type or names the fault.  A whole number stands for
a floating point number, but not the other way round.
-/

namespace RhythmLobby.Json

/-- reads a value as a member of `α` -/
abbrev Decoder (α : Type) : Type := Value → Except Fault α

namespace Decoder

def string : Decoder String
  | .string s => .ok s
  | v => .error (.kind v "a string")

def bool : Decoder Bool
  | .bool b => .ok b
  | v => .error (.kind v "a boolean")

/-- a whole number that `ofInt?` accepts -/
def integer (expected : String) (ofInt? : Int → Option α) : Decoder α
  | .integer n =>
    match ofInt? n with
    | some x => .ok x
    | none => .error (.value (.integer n) expected)
  | v => .error (.kind v expected)

def int32 : Decoder Int32 :=
  integer "i32" fun n =>
    let x := Int32.ofInt n
    if x.toInt = n then some x else none

def int64 : Decoder Int64 :=
  integer "i64" fun n =>
    let x := Int64.ofInt n
    if x.toInt = n then some x else none

def uint8 : Decoder UInt8 :=
  integer "u8" fun n =>
    let x := UInt8.ofNat n.toNat
    if (x.toNat : Int) = n then some x else none

def uint32 : Decoder UInt32 :=
  integer "u32" fun n =>
    let x := UInt32.ofNat n.toNat
    if (x.toNat : Int) = n then some x else none

def float : Decoder Binary64
  | .float x => .ok x
  | .integer n => .ok (Binary64.ofInt n)
  | v => .error (.kind v "f64")

/-- `null` stands for nothing -/
def option (d : Decoder α) : Decoder (Option α)
  | .null => .ok none
  | v => (d v).map some

def list (d : Decoder α) : Decoder (List α)
  | .array vs => vs.mapM d
  | v => .error (.kind v "a sequence")

/-- nothing at all -/
def unit : Decoder Unit
  | .null => .ok ()
  | .object [] => .ok ()
  | v => .error (.kind v "unit")

/-- one of a list of named members: the name alone, or an object that gives the name nothing -/
def named (members : List (String × α)) : Decoder α :=
  let find (name : String) : Except Fault α :=
    match members.find? (·.1 == name) with
    | some (_, x) => .ok x
    | none => .error (.variant name (members.map (·.1)))
  fun
  | .string s => find s
  | .object [(name, v)] => do
    let x ← find name
    unit v
    return x
  | .object ms => .error (.value (.object ms) "map with a single key")
  | v => .error (.kind v "string or map")

end Decoder
end RhythmLobby.Json
