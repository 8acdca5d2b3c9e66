import RhythmLobby.Json.Cursor

/-!
# Reading numbers

A number without point and exponent is a whole number if it fits into 64 bits, with or without
sign; every other number is a floating point number.  At most 64 bits of the digits are kept:
further digits before the point only raise the power of ten, and further digits behind it are
dropped.

* `Json.Tally`         digits gathered so far;
* `Json.exponentAt`    the digits of an exponent;
* `Json.numberAt`      a number.
-/

namespace RhythmLobby.Json

/-- the digits gathered so far as `digits * 10^power` -/
structure Tally where
  digits : Nat
  power : Int

namespace Tally

/-- whether one more digit still fits into 64 bits -/
def fits (digits d : Nat) : Bool := digits * 10 + d < UInt64.size

/-- one more digit before the point -/
def whole (t : Tally) (c : Char) : Tally :=
  let d := c.toNat - '0'.toNat
  if 0 < t.power || !fits t.digits d then ⟨t.digits, t.power + 1⟩ else ⟨t.digits * 10 + d, 0⟩

def fraction (t : Tally) : List Char → Tally
  | [] => t
  | c :: cs =>
    let d := c.toNat - '0'.toNat
    if fits t.digits d then fraction ⟨t.digits * 10 + d, t.power - 1⟩ cs else t

end Tally

/-- the floating point number of the digits; `after` is the cursor behind the number -/
def floatOf (negative : Bool) (t : Tally) (after : Cursor) : Outcome Value :=
  (Binary64.ofDecimal? negative t.digits t.power).elim (after.failHere .numberOutOfRange)
    fun x => .ok (.float x, after)

/-- the rest of an exponent's digits.  An exponent beyond 31 bits gives zero, unless the number
grows by it. -/
def exponentDigits (negative falling : Bool) (t : Tally) : Nat → Nat → List Char → Outcome Value
  | e, offset, c :: cs =>
    if c.isDigit then
      let e' := e * 10 + (c.toNat - '0'.toNat)
      if e' < 0x80000000 then exponentDigits negative falling t e' (offset + 1) cs
      else if t.digits ≠ 0 ∧ falling = false then .error ⟨.flaw .numberOutOfRange, offset + 1⟩
      else
        let more := (cs.takeWhile Char.isDigit).length
        .ok (.float (Binary64.ofMagnitude negative 0), ⟨cs.drop more, offset + 1 + more⟩)
    else floatOf negative ⟨t.digits, t.power + if falling then -(e : Int) else e⟩ ⟨c :: cs, offset⟩
  | e, offset, [] =>
    floatOf negative ⟨t.digits, t.power + if falling then -(e : Int) else e⟩ ⟨[], offset⟩

def exponentAt (negative : Bool) (t : Tally) (c : Cursor) : Outcome Value :=
  let (falling, c) := match c.rest with
    | '+' :: _ => (false, c.skip 1)
    | '-' :: _ => (true, c.skip 1)
    | _ => (false, c)
  match c.rest with
  | [] => c.failHere .endInValue
  | d :: _ =>
    if d.isDigit then exponentDigits negative falling t 0 c.offset c.rest
    else c.failNext .invalidNumber

/-- an exponent, if one comes next -/
def scaledBy (negative : Bool) (t : Tally) (c : Cursor) : Outcome Value :=
  match c.rest with
  | 'e' :: _ | 'E' :: _ => exponentAt negative t (c.skip 1)
  | _ => floatOf negative t c

/-- a whole number that fits, or else the floating point number next to it -/
def wholeValue (negative : Bool) (n : Nat) : Value :=
  if negative then
    if 0 < n ∧ n ≤ 0x8000000000000000 then .integer (-n) else .float (Binary64.ofNat n).neg
  else .integer n

def numberTail (negative : Bool) (t : Tally) (c : Cursor) : Outcome Value :=
  match c.rest with
  | '.' :: cs =>
    let digits := cs.takeWhile Char.isDigit
    let after := c.skip (digits.length + 1)
    if digits.isEmpty then
      after.failNext (if after.rest.isEmpty then .endInValue else .invalidNumber)
    else scaledBy negative (t.fraction digits) after
  | 'e' :: _ | 'E' :: _ => exponentAt negative t (c.skip 1)
  | _ => if t.power = 0 then .ok (wholeValue negative t.digits, c) else floatOf negative t c

def unsignedAt (negative : Bool) (c : Cursor) : Outcome Value :=
  match c.rest with
  | [] => c.failHere .endInValue
  | d :: cs =>
    if d = '0' then
      let c := c.skip 1
      if (cs.head?.any Char.isDigit) then c.failNext .invalidNumber
      else numberTail negative ⟨0, 0⟩ c
    else if d.isDigit then
      let digits := c.rest.takeWhile Char.isDigit
      numberTail negative (digits.foldl Tally.whole ⟨0, 0⟩) (c.skip digits.length)
    else c.failNext .invalidNumber

def numberAt (c : Cursor) : Outcome Value :=
  match c.rest with
  | '-' :: _ => unsignedAt true (c.skip 1)
  | _ => unsignedAt false c

end RhythmLobby.Json
