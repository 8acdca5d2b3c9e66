import RhythmLobby.Toml.Value
import RhythmLobby.Toml.Text

/-!
# Numbers, dates and times of TOML

Digits may have single underscores between them.  A whole number has 64 bits; a floating point
number may not grow to the positive infinity, unless that is written.

* `Toml.integerReader`   a whole number, decimal with a sign or in base 16, 8 or 2;
* `Toml.floatReader`     a floating point number;
* `Toml.momentReader`    a date, a time, or both with an offset.
-/

namespace RhythmLobby.Toml

open Reader

/-! ## Numbers -/

/-- a plus or minus, if there is one; true for a minus -/
def sign : Reader Bool := (the '-' *> pure true) <|> (the '+' *> pure false) <|> pure false

/-- more digits, each after an underscore or not -/
def moreDigits (base : Nat) : Reader (List Char) :=
  many (char (isDigitOf base) <|> (the '_' *> char (isDigitOf base)))

/-- digits, of which the first may be a zero -/
def anyDigits (base : Nat) : Reader (List Char) := do
  let c ← char (isDigitOf base)
  let cs ← moreDigits base
  return c :: cs

def properDigits : Reader (List Char) := do
  let c ← char (isDigitOf 10)
  let cs ← if c = '0' then pure [] else moreDigits 10
  return c :: cs

/-- a number in another base than ten, behind a zero and a letter -/
def basedNumber : Reader Int := do
  the '0'
  let base ← (the 'x' *> pure 16) <|> (the 'o' *> pure 8) <|> (the 'b' *> pure 2)
  let digits ← anyDigits base
  return numeral base digits

def decimalNumber : Reader Int := do
  let negative ← sign
  let n := numeral 10 (← properDigits)
  return if negative then -n else n

def integerReader : Reader Int := do
  let n ← basedNumber <|> decimalNumber
  guard ((Int64.ofInt n).toInt = n)
  return n

/-- the power of ten behind a letter -/
def exponent : Reader Int := do
  discard (char fun c => c == 'e' || c == 'E')
  let negative ← sign
  let n := numeral 10 (← anyDigits 10)
  return if negative then -n else n

/-- a number with a point, an exponent, or both -/
def writtenFloat : Reader Binary64 := do
  let negative ← sign
  let before ← properDigits
  let behind ← maybe (the '.' *> anyDigits 10)
  let power ← maybe exponent
  guard (behind.isSome || power.isSome)
  let behind := behind.getD []
  let x := Binary64.nearestDecimal negative (numeral 10 (before ++ behind))
    (power.getD 0 - behind.length)
  guard (negative || x.isFinite)
  return x

def namedFloat : Reader Binary64 := do
  let negative ← sign
  (word ['i', 'n', 'f'] *> pure (Binary64.infinity negative)) <|>
    (word ['n', 'a', 'n'] *> pure (Binary64.nan negative))

def floatReader : Reader Binary64 := writtenFloat <|> namedFloat

/-! ## Dates and times -/

def daysIn (year month : Nat) : Nat :=
  if month = 2 then
    if year % 4 = 0 ∧ (year % 100 ≠ 0 ∨ year % 400 = 0) then 29 else 28
  else if month = 4 ∨ month = 6 ∨ month = 9 ∨ month = 11 then 30
  else 31

def date : Reader Unit := do
  let year ← decimal 4
  the '-'
  let month ← decimal 2
  the '-'
  let day ← decimal 2
  guard (1 ≤ month ∧ month ≤ 12 ∧ 1 ≤ day ∧ day ≤ daysIn year month)

def hourAndMinute : Reader Unit := do
  let hour ← decimal 2
  the ':'
  let minute ← decimal 2
  guard (hour ≤ 23 ∧ minute ≤ 59)

/-- a time of the day; a minute may have one more second -/
def time : Reader Unit := do
  hourAndMinute
  the ':'
  let second ← decimal 2
  guard (second ≤ 60)
  discard (maybe (the '.' *> span1 (isDigitOf 10)))

def offset : Reader Unit := do
  let c ← char fun c => c == 'Z' || c == 'z' || c == '+' || c == '-'
  if c = '+' ∨ c = '-' then hourAndMinute

def timeOfDate : Reader Unit := do
  discard (char fun c => c == 'T' || c == 't' || c == ' ')
  time
  discard (maybe offset)

/-- the characters that a reader takes -/
def taken (r : Reader Unit) : Reader String := fun cs =>
  (r cs).map fun (_, rest) => (String.ofList (cs.take (cs.length - rest.length)), rest)

def momentReader : Reader String :=
  taken ((do
    date
    discard (maybe timeOfDate)) <|> time)

end RhythmLobby.Toml
