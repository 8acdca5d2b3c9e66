/-!
# Numerals

* `digitValue?`   the value of a digit of a base up to sixteen;
* `numeral`       the number that digits write, the most significant first;
* `wholeText`     a whole number in decimal digits without leading zeros, behind a hyphen if it is
                  negative.
-/

namespace RhythmLobby

/-! ## Reading -/

def digitValue? (c : Char) : Option Nat :=
  if '0' ≤ c ∧ c ≤ '9' then some (c.toNat - '0'.toNat)
  else if 'a' ≤ c ∧ c ≤ 'f' then some (c.toNat - 'a'.toNat + 10)
  else if 'A' ≤ c ∧ c ≤ 'F' then some (c.toNat - 'A'.toNat + 10)
  else none

def isDigitOf (base : Nat) (c : Char) : Bool := (digitValue? c).any (· < base)

def numeral (base : Nat) (digits : List Char) : Nat :=
  digits.foldl (fun n c => n * base + (digitValue? c).getD 0) 0

/-! ## Writing -/

def wholeChars : Int → List Char
  | .ofNat n => Nat.toDigits 10 n
  | .negSucc n => '-' :: Nat.toDigits 10 (n + 1)

def wholeText (n : Int) : String := String.ofList (wholeChars n)

end RhythmLobby
