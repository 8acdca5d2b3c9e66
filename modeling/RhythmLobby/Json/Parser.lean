import RhythmLobby.Json.Text
import RhythmLobby.Json.Number

/-!
# Reading JSON

A text is read from left to right, and the first flaw ends the reading.  Brackets and braces may
be nested `maxNesting` deep.

* `Json.itemsAt`, `Json.membersAt`   the inside of a list or an object, for any reader of values;
* `Json.valueAt`                     a value;
* `Json.parse`                       a whole text.
-/

namespace RhythmLobby.Json

/-- how many brackets and braces may be open at once -/
def maxNesting : Nat := 127

/-- the rest of a word whose first character has been read -/
def wordRest (v : Value) : List Char → Cursor → Outcome Value
  | [], c => .ok (v, c)
  | w :: ws, c =>
    match c.rest with
    | [] => c.failHere .endInValue
    | d :: _ => if d = w then wordRest v ws (c.skip 1) else c.failNext .wordExpected

/-! ## Lists -/

/-- the elements that follow the first one, up to the closing bracket; no more of them than the
first text has characters -/
def moreItems (item : Cursor → Outcome α) : List Char → Cursor → Outcome (List α)
  | [], c => c.failHere .endInList
  | _ :: bound, c =>
    let c := c.skipSpace
    match c.rest with
    | [] => c.failNext .endInList
    | ']' :: _ => .ok ([], c.skip 1)
    | ',' :: _ =>
      let c := (c.skip 1).skipSpace
      match c.rest with
      | [] => c.failNext .endInValue
      | ']' :: _ => c.failNext .trailingComma
      | _ => Outcome.andThen (item c) fun x c => Outcome.as (moreItems item bound c) (x :: ·)
    | _ => c.failNext .listEndExpected

/-- the elements of a list whose bracket has been read.  Each of them has a character, so that
the characters left bound their number. -/
def itemsAt (item : Cursor → Outcome α) (c : Cursor) : Outcome (List α) :=
  let c := c.skipSpace
  match c.rest with
  | [] => c.failNext .endInList
  | ']' :: _ => .ok ([], c.skip 1)
  | _ =>
    Outcome.andThen (item c) fun x c =>
      Outcome.as (moreItems item c.rest c) (x :: ·)

/-! ## Objects -/

/-- the colon between a name and its value, with the space around it -/
def colonAt (c : Cursor) : Except Mishap Cursor :=
  let c := c.skipSpace
  match c.rest with
  | [] => c.failNext .endInObject
  | ':' :: _ => .ok (c.skip 1).skipSpace
  | _ => c.failNext .colonExpected

def nameAt (c : Cursor) : Outcome String :=
  match c.rest with
  | '"' :: _ => stringBody (c.skip 1)
  | _ => c.failNext .keyExpected

/-- a name, a colon and a value -/
def memberAt (item : Cursor → Outcome α) (c : Cursor) : Outcome (String × α) :=
  Outcome.andThen (nameAt c) fun k c =>
    match colonAt c with
    | .error m => .error m
    | .ok c => Outcome.as (item c) (k, ·)

/-- the members that follow the first one, up to the closing brace; no more of them than the first
text has characters.  What a member's reader finds may change how the members behind it are read. -/
def moreMembers (member : σ → Cursor → Outcome (α × σ)) :
    List Char → σ → Cursor → Outcome (List α)
  | [], _, c => c.failHere .endInObject
  | _ :: bound, s, c =>
    let c := c.skipSpace
    match c.rest with
    | [] => c.failNext .endInObject
    | '}' :: _ => .ok ([], c.skip 1)
    | ',' :: _ =>
      let c := (c.skip 1).skipSpace
      match c.rest with
      | [] => c.failNext .endInValue
      | '}' :: _ => c.failNext .trailingComma
      | _ =>
        Outcome.andThen (member s c) fun (x, s) c =>
          Outcome.as (moreMembers member bound s c) (x :: ·)
    | _ => c.failNext .objectEndExpected

/-- the members of an object whose brace has been read -/
def membersAt (member : σ → Cursor → Outcome (α × σ)) (s : σ) (c : Cursor) : Outcome (List α) :=
  let c := c.skipSpace
  match c.rest with
  | [] => c.failNext .endInObject
  | '}' :: _ => .ok ([], c.skip 1)
  | _ =>
    Outcome.andThen (member s c) fun (x, s) c =>
      Outcome.as (moreMembers member c.rest s c) (x :: ·)

/-! ## Values -/

def scalarAt (c : Cursor) : Outcome Value :=
  match c.rest with
  | [] => c.failNext .endInValue
  | 'n' :: _ => wordRest .null ['u', 'l', 'l'] (c.skip 1)
  | 't' :: _ => wordRest (.bool true) ['r', 'u', 'e'] (c.skip 1)
  | 'f' :: _ => wordRest (.bool false) ['a', 'l', 's', 'e'] (c.skip 1)
  | '"' :: _ => (stringBody (c.skip 1)).as .string
  | d :: _ => if d = '-' || d.isDigit then numberAt c else c.failNext .valueExpected

/-- a value, after the space in front of it, with at most `depth` brackets open at once -/
def valueAt : Nat → Cursor → Outcome Value
  | 0, c =>
    let c := c.skipSpace
    match c.rest with
    | '[' :: _ | '{' :: _ => c.failNext .nestingTooDeep
    | _ => scalarAt c
  | depth + 1, c =>
    let c := c.skipSpace
    match c.rest with
    | '[' :: _ => (itemsAt (valueAt depth) (c.skip 1)).as .array
    | '{' :: _ =>
      (membersAt (fun _ c => (memberAt (valueAt depth) c).as (·, ())) () (c.skip 1)).as .object
    | _ => scalarAt c

/-- nothing but space may follow -/
def finish (c : Cursor) : Except Mishap Unit :=
  let c := c.skipSpace
  if c.rest.isEmpty then .ok () else c.failNext .trailingCharacters

/-! ## Whole texts -/

/-- why a text was refused, and where; a fault inside a value has no place -/
structure Malformed where
  cause : Cause
  place : Option Position

namespace Malformed

def message (e : Malformed) : String :=
  match e.place with
  | none => e.cause.message
  | some p => e.cause.message ++ " at " ++ p.text

/-- a mishap in a text -/
def located (text : List Char) (m : Mishap) : Malformed :=
  ⟨m.cause, some (Position.ofOffset text m.offset)⟩

end Malformed

/-- a whole text: `reader` reads it, `make` takes what was read, and nothing else may follow -/
def readText (reader : Cursor → Outcome α) (make : α → Except Fault β) (text : String) :
    Except Malformed β :=
  let chars := text.toList
  match reader (Cursor.start chars) with
  | .error m => .error (Malformed.located chars m)
  | .ok (x, c) =>
    match make x with
    | .error f => .error ⟨.fault f, none⟩
    | .ok y => ((finish c).map fun _ => y).mapError (Malformed.located chars)

def parse (text : String) : Except Malformed Value := readText (valueAt maxNesting) .ok text

end RhythmLobby.Json
