import RhythmLobby.Number.Binary64

/-!
# The shortest decimal that reads back

Of the decimals that round to a given finite number, the shortest is the one with the fewest
digits, and of those the nearest to the number.  On the grid of decimals with `n` digits only the
two neighbours of the number can be nearest, so each grid is tried in turn with exact whole number
arithmetic; seventeen digits always suffice.

* `Binary64.reach`      the interval of magnitudes that round to the number;
* `Binary64.onGrid`     the nearest hit on the grid of one power of ten;
* `Binary64.shortest`   digits and power of ten of the shortest decimal.
-/

namespace RhythmLobby

/-- which of two decimals equally near is taken -/
inductive Tie where
  | even
  | up
  deriving DecidableEq

/-- the number `digits * 10^power` -/
structure Decimal where
  digits : Nat
  power : Int
  deriving DecidableEq

namespace Binary64

/-- magnitudes between the two ends round to the number; the ends do if `closed`.  All three
numbers count steps of `2^-1076`. -/
structure Reach where
  low : Nat
  middle : Nat
  high : Nat
  closed : Bool

/-- half a step to each side; below a power of two the steps are half as wide -/
def reach (x : Binary64) : Reach where
  low := (4 * x.significand - if x.significand = pow2 52 ∧ 0 < x.scale then 1 else 2) * pow2 x.scale
  middle := 4 * x.significand * pow2 x.scale
  high := (4 * x.significand + 2) * pow2 x.scale
  closed := x.significand % 2 == 0

def digitCount (n : Nat) : Nat := (Nat.toDigits 10 n).length

/-- the decimal exponent of the first digit of a number that is not zero -/
def leadingExponent (x : Binary64) : Int :=
  (digitCount (x.reach.middle * pow10 400 / pow2 1076) : Int) - 401

/-- whether `a * 10^power` lies in the interval, with the power split into the factors
`up / down` -/
def Reach.covers (r : Reach) (up down a : Nat) : Bool :=
  let b := a * up * pow2 1076
  if r.closed then r.low * down ≤ b && b ≤ r.high * down
  else r.low * down < b && b < r.high * down

/-- the neighbours of the number on the grid of `10^power`, and of those that round to it the
nearer one -/
def onGrid (tie : Tie) (r : Reach) (power : Int) : Option Decimal :=
  let up := pow10 power.toNat
  let down := pow10 (-power).toNat
  let below := r.middle * down / (up * pow2 1076)
  let gap := r.middle * down % (up * pow2 1076)
  match r.covers up down below, r.covers up down (below + 1) with
  | false, false => none
  | true, false => some ⟨below, power⟩
  | false, true => some ⟨below + 1, power⟩
  | true, true =>
    let climbs :=
      if 2 * gap = up * pow2 1076 then
        match tie with
        | .even => below % 2 == 1
        | .up => true
      else decide (up * pow2 1076 < 2 * gap)
    some ⟨if climbs then below + 1 else below, power⟩

/-- the shortest decimal of the magnitude of a finite number; zero is `0 * 10^0` -/
def shortest (tie : Tie) (x : Binary64) : Decimal :=
  if x.isZero then ⟨0, 0⟩
  else
    let e := x.leadingExponent
    ((List.range 17).findSome? fun n : Nat => onGrid tie x.reach (e - n)).getD ⟨0, 0⟩

end Binary64
end RhythmLobby
