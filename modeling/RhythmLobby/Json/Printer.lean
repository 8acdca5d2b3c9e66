import RhythmLobby.Number.Layout
import RhythmLobby.Number.Numeral

/-!
# JSON values and their compact text

A `Json.Value` keeps what a JSON text says and nothing of how it was spelled: the members of an
object stay in their order, also when two have one name, and a number is a whole number or a
floating point number.  In its compact text no space stands between the tokens, and in a string only
the quote, the backslash and the characters below U+0020 are escaped.

* `Json.Value`          values;
* `Json.numberLayout`   how floating point numbers are written;
* `Json.escape`         a character inside a string;
* `Json.Value.text`     the text of a value.
-/

namespace RhythmLobby.Json

/-! ## Values -/

inductive Value where
  | null
  | bool (b : Bool)
  | integer (n : Int)
  | float (x : Binary64)
  | string (s : String)
  | array (items : List Value)
  | object (members : List (String × Value))

/-- the first of the members with a name -/
def lookup (members : List (String × Value)) (name : String) : Option Value :=
  (members.find? (·.1 == name)).map (·.2)

theorem lookup_nil (name : String) : lookup [] name = none := rfl

theorem lookup_cons (k : String) (v : Value) (members : List (String × Value)) (name : String) :
    lookup ((k, v) :: members) name = if k = name then some v else lookup members name := by
  by_cases h : k = name <;> simp [lookup, h]

/-! ## Text -/

/-- Five zeros may stand after the decimal point and sixteen digits before it; beyond that an
exponent is written.  A whole number keeps `.0`, and a half goes to the even digit. -/
def numberLayout : Layout := ⟨.even, fun e => -5 ≤ e && e < 16, true⟩

def hexDigit (n : Nat) : Char := Nat.digitChar n

def escape (c : Char) : List Char :=
  if c = '"' then ['\\', '"']
  else if c = '\\' then ['\\', '\\']
  else if c = '\x08' then ['\\', 'b']
  else if c = '\x0c' then ['\\', 'f']
  else if c = '\n' then ['\\', 'n']
  else if c = '\r' then ['\\', 'r']
  else if c = '\t' then ['\\', 't']
  else if c.toNat < 0x20 then
    ['\\', 'u', '0', '0', hexDigit (c.toNat / 16), hexDigit (c.toNat % 16)]
  else [c]

def stringChars (s : String) : List Char := '"' :: s.toList.flatMap escape ++ ['"']

/-- a number without a finite value has no JSON text and becomes `null` -/
def floatChars (x : Binary64) : List Char :=
  if x.isFinite then (numberLayout.text x).toList else ['n', 'u', 'l', 'l']

mutual

def Value.chars : Value → List Char
  | .null => ['n', 'u', 'l', 'l']
  | .bool true => ['t', 'r', 'u', 'e']
  | .bool false => ['f', 'a', 'l', 's', 'e']
  | .integer n => wholeChars n
  | .float x => floatChars x
  | .string s => stringChars s
  | .array [] => ['[', ']']
  | .array (v :: vs) => '[' :: v.chars ++ itemsChars vs
  | .object [] => ['{', '}']
  | .object ((k, v) :: ms) => '{' :: stringChars k ++ ':' :: v.chars ++ membersChars ms

/-- the elements that follow the first one, and the closing bracket -/
def itemsChars : List Value → List Char
  | [] => [']']
  | v :: vs => ',' :: v.chars ++ itemsChars vs

/-- the members that follow the first one, and the closing brace -/
def membersChars : List (String × Value) → List Char
  | [] => ['}']
  | (k, v) :: ms => ',' :: stringChars k ++ ':' :: v.chars ++ membersChars ms

end

def Value.text (v : Value) : String := String.ofList v.chars

end RhythmLobby.Json
