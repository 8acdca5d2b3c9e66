import RhythmLobby.Json.Cursor
import RhythmLobby.Number.Numeral

/-!
# Reading strings

The characters up to the closing quote, with escapes replaced by what they stand for.

* `Json.hexUnit`     four hexadecimal digits;
* `Json.escapeAt`    the character an escape stands for, and how long the escape is;
* `Json.stringBody`  a string whose opening quote has been read.
-/

namespace RhythmLobby.Json

/-- the number written by the next four characters; what is wrong is reported after four bytes, or
at the end of the text if there are fewer -/
def hexUnit (c : Cursor) : Except Mishap Nat :=
  match c.rest.take 4 |>.mapM digitValue? with
  | some [w, x, y, z] => .ok (((w * 16 + x) * 16 + y) * 16 + z)
  | _ =>
    let left := byteLength c.rest
    if left < 4 then .error ⟨.flaw .endInString, c.offset + left⟩
    else .error ⟨.flaw .invalidEscape, c.offset + 4⟩

/-- a unit that must be followed by another one -/
def isHighSurrogate (n : Nat) : Bool := 0xd800 ≤ n && n < 0xdc00

/-- a unit that must follow another one -/
def isLowSurrogate (n : Nat) : Bool := 0xdc00 ≤ n && n < 0xe000

/-- the character written after `\u`, and how many characters write it -/
def unicodeAt (c : Cursor) : Except Mishap (Char × Nat) := do
  let high ← hexUnit c
  if isLowSurrogate high then (c.skip 4).failHere .loneSurrogate
  else if isHighSurrogate high then
    match (c.skip 4).rest with
    | [] | ['\\'] => .error ⟨.flaw .endInString, c.offset + byteLength c.rest⟩
    | '\\' :: 'u' :: _ =>
      let low ← hexUnit (c.skip 6)
      if isLowSurrogate low then
        return (Char.ofNat (0x10000 + (high - 0xd800) * 0x400 + (low - 0xdc00)), 10)
      else (c.skip 10).failHere .loneSurrogate
    | '\\' :: _ => .error ⟨.flaw .hexEscapeEnds, (c.skip 5).offset + 1⟩
    | _ => .error ⟨.flaw .hexEscapeEnds, (c.skip 4).offset + 1⟩
  else return (Char.ofNat high, 4)

/-- the character that a one-letter escape stands for -/
def shortEscape? : Char → Option Char
  | '"' => some '"'
  | '\\' => some '\\'
  | '/' => some '/'
  | 'b' => some '\x08'
  | 'f' => some '\x0c'
  | 'n' => some '\n'
  | 'r' => some '\r'
  | 't' => some '\t'
  | _ => none

/-- the character written after a backslash, and how many characters write it -/
def escapeAt (c : Cursor) : Except Mishap (Char × Nat) :=
  match c.rest with
  | [] => c.failHere .endInString
  | 'u' :: _ => (unicodeAt (c.skip 1)).map fun (ch, n) => (ch, n + 1)
  | e :: _ =>
    match shortEscape? e with
    | some ch => .ok (ch, 1)
    | none => c.failNext .invalidEscape

/-- reads to the closing quote; the next `skipped` characters belong to an escape already read -/
def charsToQuote (skipped : Nat) (offset : Nat) : List Char → Outcome (List Char)
  | [] => .error ⟨.flaw .endInString, offset⟩
  | c :: cs =>
    match skipped with
    | n + 1 => charsToQuote n (offset + c.utf8Size) cs
    | 0 =>
      if c = '"' then .ok ([], ⟨cs, offset + 1⟩)
      else if c = '\\' then
        match escapeAt ⟨cs, offset + 1⟩ with
        | .error e => .error e
        | .ok (ch, n) =>
          (charsToQuote n (offset + 1) cs).as (ch :: ·)
      else if c.toNat < 0x20 then .error ⟨.flaw .controlCharacter, offset + 1⟩
      else (charsToQuote 0 (offset + c.utf8Size) cs).as (c :: ·)

def stringBody (c : Cursor) : Outcome String :=
  (charsToQuote 0 c.offset c.rest).as String.ofList

end RhythmLobby.Json
