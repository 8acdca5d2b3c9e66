import RhythmLobby.Json.Fault
import RhythmLobby.Text.Position

/-!
# Reading from a place in a text

A `Cursor` is the unread rest of a text with the number of bytes already read.  A reader either
fails with a `Mishap` or gives a value and the cursor behind it.

* `Json.Flaw`     what can be wrong with a text as JSON;
* `Json.Cause`    a flaw of the text or a fault of its value;
* `Json.Mishap`   a cause and the number of bytes before the place it is reported at.
-/

namespace RhythmLobby.Json

inductive Flaw where
  | endInList
  | endInObject
  | endInString
  | endInValue
  | colonExpected
  | listEndExpected
  | objectEndExpected
  | wordExpected
  | valueExpected
  | keyExpected
  | invalidEscape
  | invalidNumber
  | numberOutOfRange
  | loneSurrogate
  | hexEscapeEnds
  | controlCharacter
  | trailingComma
  | trailingCharacters
  | nestingTooDeep
  deriving DecidableEq

def Flaw.message : Flaw → String
  | .endInList => "EOF while parsing a list"
  | .endInObject => "EOF while parsing an object"
  | .endInString => "EOF while parsing a string"
  | .endInValue => "EOF while parsing a value"
  | .colonExpected => "expected `:`"
  | .listEndExpected => "expected `,` or `]`"
  | .objectEndExpected => "expected `,` or `\x7d`"
  | .wordExpected => "expected ident"
  | .valueExpected => "expected value"
  | .keyExpected => "key must be a string"
  | .invalidEscape => "invalid escape"
  | .invalidNumber => "invalid number"
  | .numberOutOfRange => "number out of range"
  | .loneSurrogate => "lone leading surrogate in hex escape"
  | .hexEscapeEnds => "unexpected end of hex escape"
  | .controlCharacter => "control character (\\u0000-\\u001F) found while parsing a string"
  | .trailingComma => "trailing comma"
  | .trailingCharacters => "trailing characters"
  | .nestingTooDeep => "recursion limit exceeded"

inductive Cause where
  | flaw (f : Flaw)
  | fault (f : Fault)

def Cause.message : Cause → String
  | .flaw f => f.message
  | .fault f => f.message

/-- a cause, and the number of bytes before the place it is reported at -/
structure Mishap where
  cause : Cause
  offset : Nat

/-- the unread rest of a text, and the number of bytes before it -/
structure Cursor where
  rest : List Char
  offset : Nat
  deriving DecidableEq

/-- what a reader gives: a mishap, or a value and the cursor behind it -/
abbrev Outcome (α : Type) : Type := Except Mishap (α × Cursor)

namespace Outcome

/-- goes on reading behind the value -/
def andThen (r : Outcome α) (next : α → Cursor → Outcome β) : Outcome β :=
  match r with
  | .error m => .error m
  | .ok (x, c) => next x c

/-- the same reading with another value -/
def as (r : Outcome α) (f : α → β) : Outcome β := r.andThen fun x c => .ok (f x, c)

theorem andThen_ok (x : α) (c : Cursor) (next : α → Cursor → Outcome β) :
    andThen (.ok (x, c)) next = next x c := rfl

theorem andThen_error (m : Mishap) (next : α → Cursor → Outcome β) :
    andThen (.error m) next = .error m := rfl

end Outcome

namespace Cursor

def start (text : List Char) : Cursor := ⟨text, 0⟩

/-- the cursor after `n` more characters -/
def skip (c : Cursor) (n : Nat) : Cursor :=
  ⟨c.rest.drop n, c.offset + byteLength (c.rest.take n)⟩

/-- one byte further if anything is left: where the next byte is the offending one -/
def peekOffset (c : Cursor) : Nat := if c.rest.isEmpty then c.offset else c.offset + 1

/-- a flaw reported at the next byte -/
def failNext (c : Cursor) (f : Flaw) : Except Mishap α := .error ⟨.flaw f, c.peekOffset⟩

/-- a flaw reported behind what was read -/
def failHere (c : Cursor) (f : Flaw) : Except Mishap α := .error ⟨.flaw f, c.offset⟩

/-- the four characters that may stand between tokens -/
def isSpace (c : Char) : Bool := c == ' ' || c == '\n' || c == '\t' || c == '\r'

/-- the cursor behind the space that comes next; each of its characters is one byte -/
def skipSpace (c : Cursor) : Cursor :=
  ⟨c.rest.dropWhile isSpace, c.offset + (c.rest.takeWhile isSpace).length⟩

end Cursor
end RhythmLobby.Json
