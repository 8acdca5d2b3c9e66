import RhythmLobby.Number.Numeral

/-!
# Reading from the front of a text

A `Reader` takes characters from the front of a text and gives a value, or refuses the text.  When
one of two readers joined by `<|>` refuses, the other one starts at the same place.

* `Reader.char`, `Reader.word`, `Reader.span`   characters of a class, and given ones;
* `Reader.many`                                 a reader as often as it goes;
* `Reader.decimal`, `Reader.number`             numbers written with digits;
* `Reader.all?`                                 the value of a whole text.
-/

namespace RhythmLobby

/-- takes a value from the front of a text -/
abbrev Reader : Type → Type := StateT (List Char) Option

namespace Reader

def char (p : Char → Bool) : Reader Char
  | [] => none
  | c :: cs => if p c then some (c, cs) else none

/-- a given character -/
def the (c : Char) : Reader Unit := discard (char (· == c))

def word : List Char → Reader Unit
  | [] => pure ()
  | c :: cs => do
    the c
    word cs

def span (p : Char → Bool) : Reader (List Char) :=
  fun cs => some (cs.takeWhile p, cs.dropWhile p)

/-- at least one character of a class, and all of them that come next -/
def span1 (p : Char → Bool) : Reader (List Char) := do
  let c ← char p
  let cs ← span p
  return c :: cs

def done : Reader Unit
  | [] => some ((), [])
  | _ :: _ => none

/-- at least one more character, which is not taken -/
def unfinished : Reader Unit
  | [] => none
  | c :: cs => some ((), c :: cs)

/-- a value if one can be read here -/
def maybe (r : Reader α) : Reader (Option α) := (some <$> r) <|> pure none

/-- a reader until it refuses, but at most once for every element of a list -/
def forEach (r : Reader α) : List β → Reader (List α)
  | [], cs => some ([], cs)
  | _ :: bs, cs =>
    match r cs with
    | none => some ([], cs)
    | some (x, rest) => (forEach r bs rest).map fun (xs, last) => (x :: xs, last)

/-- a reader until it refuses.  It is one that always takes a character, so that the characters of
the text bound how often it goes. -/
def many (r : Reader α) : Reader (List α) := fun cs => forEach r cs cs

/-- values with a separator between them; there may be none -/
def separated (separator : Reader Unit) (r : Reader α) : Reader (List α) :=
  (do
    let x ← r
    let xs ← many (separator *> r)
    return x :: xs) <|> pure []

/-- exactly `n` digits of a base -/
def digitsOf (base : Nat) : Nat → Reader (List Char)
  | 0 => pure []
  | n + 1 => do
    let c ← char (isDigitOf base)
    let cs ← digitsOf base n
    return c :: cs

/-- the number that exactly `n` decimal digits write -/
def decimal (n : Nat) : Reader Nat := numeral 10 <$> digitsOf 10 n

/-- a number written by digits of a base, at most `longest` of them -/
def number (base : Nat) (longest : Option Nat) : Reader Nat := do
  let digits ← span1 (isDigitOf base)
  guard (longest.all (digits.length ≤ ·))
  return numeral base digits

def below (bound : Nat) (r : Reader Nat) : Reader Nat := do
  let n ← r
  guard (n < bound)
  return n

def all? (r : Reader α) (text : String) : Option α := (r text.toList).bind fun
  | (x, []) => some x
  | _ => none

end Reader
end RhythmLobby
