/-!
# Floating point numbers of 64 bits

A `Binary64` is a number of the IEEE 754 format binary64, held as its 64 bits, so that every
statement about it is a statement about natural numbers.  Every finite magnitude is a whole
multiple of the least positive one, `2^-1074`; `units` is that multiple.

* `Binary64.units`, `Binary64.order`   the magnitude and the signed value in steps of `2^-1074`;
* `Binary64.eqv`, `Binary64.lt`        comparison as numbers: the two zeros are equal, and a NaN
                                       is neither equal to nor below anything;
* `Binary64.nearest`                   a ratio rounded to the nearest number, a tie to even;
* `Binary64.nearestDecimal`            the number nearest to a decimal;
* `Binary64.ofDecimal?`                the number a decimal text denotes.
-/

namespace RhythmLobby

/-! ## Powers of two and ten -/

abbrev pow2 (k : Nat) : Nat := Nat.pow 2 k

abbrev pow10 (k : Nat) : Nat := Nat.pow 10 k

theorem pow2_pos (k : Nat) : 0 < pow2 k := Nat.pow_pos (by decide)

theorem pow10_pos (k : Nat) : 0 < pow10 k := Nat.pow_pos (by decide)

/-! ## The format -/

/-- a number of the format binary64, as its bits: sign, eleven bits of exponent, 52 of fraction -/
structure Binary64 where
  bits : UInt64
  deriving DecidableEq

namespace Binary64

/-! ## Fields and value -/

def isNegative (x : Binary64) : Bool := pow2 63 ≤ x.bits.toNat

/-- the bits below the sign -/
def magnitude (x : Binary64) : Nat := x.bits.toNat % pow2 63

def fraction (x : Binary64) : Nat := x.magnitude % pow2 52

def exponent (x : Binary64) : Nat := x.magnitude / pow2 52

/-- the exponent field is full and the fraction is not zero -/
def isNaN (x : Binary64) : Bool := x.exponent == 2047 && x.fraction != 0

def isFinite (x : Binary64) : Bool := x.exponent < 2047

/-- the whole number that the exponent scales -/
def significand (x : Binary64) : Nat :=
  if x.exponent = 0 then x.fraction else pow2 52 + x.fraction

/-- the power of two that scales the significand, counted from the least one -/
def scale (x : Binary64) : Nat := x.exponent - 1

/-- the magnitude in steps of `2^-1074`; an infinity is above every finite magnitude -/
def units (x : Binary64) : Nat := x.significand * pow2 x.scale

/-- the value in steps of `2^-1074` -/
def order (x : Binary64) : Int := if x.isNegative then -(x.units : Int) else x.units

def isZero (x : Binary64) : Bool := x.magnitude == 0

/-! ## Comparison as numbers -/

def eqv (x y : Binary64) : Bool := !x.isNaN && !y.isNaN && x.order == y.order

def lt (x y : Binary64) : Bool := !x.isNaN && !y.isNaN && decide (x.order < y.order)

theorem eqv_refl {x : Binary64} (h : x.isNaN = false) : x.eqv x = true := by
  simp [eqv, h]

/-! ## Rounding -/

def ofMagnitude (negative : Bool) (m : Nat) : Binary64 :=
  ⟨UInt64.ofNat (if negative then pow2 63 + m else m)⟩

/-- the quotient rounded to the nearest whole number, a tie to the even one -/
def roundQuotient (num den : Nat) : Nat :=
  let q := num / den
  let r := num % den
  if den < 2 * r ∨ (2 * r = den ∧ q % 2 = 1) then q + 1 else q

/-- the number nearest to `num / den`, a tie to the even significand; what is too large becomes
an infinity.  In steps of `2^-1074` the ratio is halved until it is below `2^53`; a significand
that rounds up to `2^53` carries into the exponent. -/
def nearest (negative : Bool) (num den : Nat) : Binary64 :=
  let s := (num * pow2 1074 / den).log2 - 52
  let m := s * pow2 52 + roundQuotient (num * pow2 1074) (den * pow2 s)
  ofMagnitude negative (min m (2047 * pow2 52))

def ofNat (n : Nat) : Binary64 := nearest false n 1

def ofInt (n : Int) : Binary64 := nearest (n < 0) n.natAbs 1

def zero : Binary64 := ⟨0⟩

def infinity (negative : Bool) : Binary64 := ofMagnitude negative (2047 * pow2 52)

/-- a NaN whose only set bit of fraction is the first -/
def nan (negative : Bool) : Binary64 := ofMagnitude negative (2047 * pow2 52 + pow2 51)

/-- the product of two finite numbers, rounded -/
def mul (x y : Binary64) : Binary64 :=
  nearest (x.isNegative != y.isNegative) (x.units * y.units) (pow2 2148)

/-- the quotient of two finite numbers, rounded; the divisor is not zero -/
def div (x y : Binary64) : Binary64 :=
  nearest (x.isNegative != y.isNegative) x.units y.units

def neg (x : Binary64) : Binary64 := ofMagnitude (!x.isNegative) x.magnitude

/-- the same number, where zero has no sign -/
def dropZeroSign (x : Binary64) : Binary64 := if x.isZero then zero else x

/-! ## Decimal text -/

/-- the number nearest to `digits * 10^exponent`; a decimal of 310 digits or more before the point
is above every finite number, and one with 330 zeros or more behind the point is next to zero -/
def nearestDecimal (negative : Bool) (digits : Nat) (exponent : Int) : Binary64 :=
  let size := (Nat.toDigits 10 digits).length + exponent
  if digits = 0 ∨ size < -330 then ofMagnitude negative 0
  else if 310 < size then infinity negative
  else
    match exponent with
    | .ofNat k => nearest negative (digits * pow10 k) 1
    | .negSucc k => nearest negative digits (pow10 (k + 1))

/-- the power of ten, itself rounded -/
def powerOfTen (k : Nat) : Binary64 := ofNat (pow10 k)

/-- divides by `10^308` at most `k` times, and stops early at zero -/
def shrink : Nat → Binary64 → Binary64
  | 0, x => x
  | k + 1, x => if x.isZero then x else shrink k (x.div (powerOfTen 308))

/-- the number written as `digits * 10^exponent`: the digits are rounded first, and then
multiplied or divided by a rounded power of ten, in steps of `10^308` while the exponent is below
`-308`.  `none` if the result is too large. -/
def ofDecimal? (negative : Bool) (digits : Nat) (exponent : Int) : Option Binary64 :=
  let x := ofNat digits
  if x.isZero then some (if negative then x.neg else x)
  else if 308 < exponent then none
  else
    let y := match exponent with
      | .ofNat k => x.mul (powerOfTen k)
      | .negSucc k => (shrink (k / 308) x).div (powerOfTen (k + 1 - k / 308 * 308))
    if y.isFinite then some (if negative then y.neg else y) else none

end Binary64
end RhythmLobby
