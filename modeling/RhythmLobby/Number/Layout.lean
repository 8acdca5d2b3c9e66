import RhythmLobby.Number.Shortest

/-!
# How a decimal is written

A `Layout` is one format's decisions about the text of a finite number: where positional writing
ends, whether a whole number keeps a fraction, and which of two equally near decimals is taken.
The digits themselves are those of `Binary64.shortest`.
-/

namespace RhythmLobby

/-- the decisions of one text format for numbers -/
structure Layout where
  tie : Tie
  /-- whether a number is written without an exponent, by the exponent of its first digit -/
  positional : Int → Bool
  /-- whether a whole number is written with `.0` -/
  pointZero : Bool

namespace Layout

/-- the digits without the zeros at the end, and how many zeros were dropped -/
def trimZeros (ds : List Char) : List Char × Nat :=
  let kept := (ds.reverse.dropWhile (· == '0')).reverse
  (kept, ds.length - kept.length)

/-- digits with the decimal point after the first `point` of them -/
def positionalText (pointZero : Bool) (ds : List Char) (point : Int) : List Char :=
  if point ≤ 0 then '0' :: '.' :: List.replicate (-point).toNat '0' ++ ds
  else
    let p := point.toNat
    if ds.length ≤ p then
      ds ++ List.replicate (p - ds.length) '0' ++ if pointZero then ['.', '0'] else []
    else ds.take p ++ '.' :: ds.drop p

/-- digits with the point after the first one, and the exponent with its sign -/
def exponentText (ds : List Char) (exponent : Int) : List Char :=
  let mantissa := match ds with
    | [d] => [d]
    | d :: rest => d :: '.' :: rest
    | [] => []
  mantissa ++ 'e' :: (if exponent < 0 then '-' else '+') :: Nat.toDigits 10 exponent.natAbs

/-- The text of a finite number.  An infinity or a NaN, which no packet can carry, is not written as
`inf` or `NaN` but as if its exponent were one of a number. -/
def text (l : Layout) (x : Binary64) : String :=
  let sign := if x.isNegative then ['-'] else []
  if x.isZero then String.ofList (sign ++ if l.pointZero then ['0', '.', '0'] else ['0'])
  else
    let d := x.shortest l.tie
    let (ds, dropped) := trimZeros (Nat.toDigits 10 d.digits)
    let point := ds.length + dropped + d.power
    String.ofList (sign ++
      if l.positional (point - 1) then positionalText l.pointZero ds point
      else exponentText ds (point - 1))

end Layout
end RhythmLobby
