import RhythmLobby.Toml.Value

/-!
# TOML values as records, numbers and texts

A `Toml.Decoder` reads a value as a member of a type.  A record is written as a table or as an array
of its fields in their order; a moment counts as a record of which no field is given.

* `Toml.Decoder.string`, `.whole`, `.list`, `.named`   values;
* `Toml.fields?`, `Toml.field`, `Toml.fieldOr`         the fields of a record.
-/

namespace RhythmLobby.Toml

/-- reads a value as a member of `α` -/
abbrev Decoder (α : Type) : Type := Value → Option α

namespace Decoder

def string : Decoder String
  | .string s => some s
  | _ => none

/-- a whole number from zero to below a bound -/
def whole (bound : Nat) : Decoder Nat
  | .integer n => if 0 ≤ n ∧ n < bound then some n.toNat else none
  | _ => none

def list (d : Decoder α) : Decoder (List α)
  | .array items => items.mapM d
  | .tables items => items.mapM fun ms => d (.table .headed ms)
  | _ => none

/-- a table or an array without anything in it -/
def nothing : Decoder Unit
  | .array [] | .table _ [] | .tables [] => some ()
  | _ => none

/-- one of a list of named members: the name alone, or a table that gives the name nothing -/
def named (members : List (String × α)) : Decoder α :=
  let find (name : String) := (members.find? (·.1 == name)).map (·.2)
  fun
  | .string s => find s
  | .table _ [(name, v)] => do
    let x ← find name
    nothing v
    return x
  | _ => none

end Decoder

/-! ## Records -/

/-- the fields that a value gives to a record with these names -/
def fields? (names : List String) : Value → Option Members
  | .table _ ms => some ms
  | .array items => some (names.zip items)
  | .tables items => some (names.zip (items.map (.table .headed ·)))
  | .moment _ => some []
  | _ => none

def field (d : Decoder α) (ms : Members) (name : String) : Option α := (lookup ms name).bind d

def fieldOr (standard : α) (d : Decoder α) (ms : Members) (name : String) : Option α :=
  match lookup ms name with
  | none => some standard
  | some v => d v

end RhythmLobby.Toml
