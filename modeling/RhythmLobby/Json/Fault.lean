import RhythmLobby.Json.Printer
import RhythmLobby.Text.Quoted

/-!
# Values of the wrong shape

A `Fault` says why a value that is proper JSON is not what was asked for.

* `Json.Value.described`   a value as a message names it;
* `Json.Fault.message`     the message.
-/

namespace RhythmLobby.Json

/-- a value as a message names it -/
def Value.described : Value → String
  | .null => "null"
  | .bool true => "boolean `true`"
  | .bool false => "boolean `false`"
  | .integer n => "integer `" ++ wholeText n ++ "`"
  | .float x => "floating point `" ++ numberLayout.text x ++ "`"
  | .string s => "string " ++ quoted s
  | .array _ => "sequence"
  | .object _ => "map"

/-- why a value does not have the shape asked for -/
inductive Fault where
  /-- another kind of value was expected -/
  | kind (found : Value) (expected : String)
  /-- the kind is right and the value is not allowed -/
  | value (found : Value) (expected : String)
  /-- a list with a wrong number of elements -/
  | length (found : Nat) (expected : String)
  /-- a name that is none of the known ones -/
  | variant (found : String) (known : List String)
  | missing (name : String)
  | duplicate (name : String)

/-- a name between backquotes -/
def ticked (name : String) : String := "`" ++ name ++ "`"

/-- the names that would have been allowed -/
def alternatives : List String → String
  | [] => "there are no variants"
  | [a] => "expected " ++ ticked a
  | [a, b] => "expected " ++ ticked a ++ " or " ++ ticked b
  | names => "expected one of " ++ String.intercalate ", " (names.map ticked)

def Fault.message : Fault → String
  | .kind found expected => "invalid type: " ++ found.described ++ ", expected " ++ expected
  | .value found expected => "invalid value: " ++ found.described ++ ", expected " ++ expected
  | .length n expected => "invalid length " ++ toString n ++ ", expected " ++ expected
  | .variant found known => "unknown variant " ++ ticked found ++ ", " ++ alternatives known
  | .missing name => "missing field " ++ ticked name
  | .duplicate name => "duplicate field " ++ ticked name

end RhythmLobby.Json
