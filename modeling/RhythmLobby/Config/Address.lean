import RhythmLobby.Number.Numeral
import RhythmLobby.Text.Reader

/-!
# Addresses to listen on

An address and the number of a service there, as text: `127.0.0.1:80` or `[::1]:80`.  In an address
of eight groups, one row of zero groups may be written `::`, and the last two groups may be written
as four octets.  Writing shortens the first of the longest rows of zeros, if it has more than one
group.

* `Ipv4`, `Ipv6`                  the two kinds of addresses;
* `SocketAddress.parse?`          an address from its text;
* `SocketAddress.text`            the one text that an address is shown as.
-/

namespace RhythmLobby

structure Ipv4 where
  a : UInt8
  b : UInt8
  c : UInt8
  d : UInt8
  deriving DecidableEq

structure Ipv6 where
  groups : List UInt16
  length_groups : groups.length = 8
  deriving DecidableEq

/-- an address and the number of a service there; a local address of eight groups may name a scope,
where zero is none -/
inductive SocketAddress where
  | v4 (ip : Ipv4) (service : UInt16)
  | v6 (ip : Ipv6) (scope : UInt32) (service : UInt16)
  deriving DecidableEq

/-! ## Reading -/

namespace Ipv4

/-- an octet of at most three digits, without leading zeros -/
def octet : Reader UInt8 := do
  let digits ← Reader.span1 (isDigitOf 10)
  guard (digits.length ≤ 3 ∧ (digits.length = 1 ∨ digits.head? ≠ some '0'))
  let n := numeral 10 digits
  guard (n < 256)
  return UInt8.ofNat n

def reader : Reader Ipv4 := do
  let a ← octet
  Reader.the '.'
  let b ← octet
  Reader.the '.'
  let c ← octet
  Reader.the '.'
  let d ← octet
  return ⟨a, b, c, d⟩

/-- the four octets as two groups -/
def groups (x : Ipv4) : List UInt16 :=
  [x.a.toUInt16 * 256 + x.b.toUInt16, x.c.toUInt16 * 256 + x.d.toUInt16]

end Ipv4

namespace Ipv6

def group : Reader UInt16 := UInt16.ofNat <$> Reader.number 16 (some 4)

/-- the colon in front of every group but the first one -/
def colonUnless (first : Bool) : Reader Unit := if first then pure () else Reader.the ':'

/-- as many groups as there are, at most `room`, and whether four octets are at their end -/
def groupsUpTo : (room : Nat) → (first : Bool) → Reader (List UInt16 × Bool)
  | 0, _ => pure ([], false)
  | room + 1, first =>
    (do
      guard (0 < room)
      colonUnless first
      let x ← Ipv4.reader
      return (x.groups, true)) <|>
    (do
      colonUnless first
      let g ← group
      let (gs, octets) ← groupsUpTo room false
      return (g :: gs, octets)) <|>
    pure ([], false)

/-- eight groups, or fewer with `::` for at least one zero group; octets only stand at the end -/
def reader : Reader Ipv6 := do
  let (head, octets) ← groupsUpTo 8 true
  if h : head.length = 8 then return ⟨head, h⟩
  else
    guard (octets = false)
    Reader.word [':', ':']
    let (tail, _) ← groupsUpTo (7 - head.length) true
    let groups := head ++ List.replicate (8 - head.length - tail.length) 0 ++ tail
    if h : groups.length = 8 then return ⟨groups, h⟩ else failure

end Ipv6

namespace SocketAddress

/-- the number behind an address; it may have leading zeros -/
def serviceReader : Reader UInt16 := do
  Reader.the ':'
  UInt16.ofNat <$> Reader.below UInt16.size (Reader.number 10 none)

def v4Reader : Reader SocketAddress := do
  let ip ← Ipv4.reader
  return .v4 ip (← serviceReader)

def scopeReader : Reader UInt32 := do
  Reader.the '%'
  UInt32.ofNat <$> Reader.below UInt32.size (Reader.number 10 none)

def v6Reader : Reader SocketAddress := do
  Reader.the '['
  let ip ← Ipv6.reader
  let scope ← Reader.maybe scopeReader
  Reader.the ']'
  return .v6 ip (scope.getD 0) (← serviceReader)

def parse? (text : String) : Option SocketAddress := Reader.all? (v4Reader <|> v6Reader) text

end SocketAddress

/-! ## Writing -/

namespace Ipv4

def text (x : Ipv4) : String :=
  ".".intercalate ([x.a, x.b, x.c, x.d].map fun o => wholeText o.toNat)

end Ipv4

def zerosAhead (gs : List UInt16) : Nat := (gs.takeWhile (· == 0)).length

namespace Ipv6

def longestZeros : List UInt16 → Nat
  | [] => 0
  | g :: gs => max (zerosAhead (g :: gs)) (longestZeros gs)

/-- the groups before and behind the first row of `n` zeros -/
def cutZeros (n : Nat) : List UInt16 → List UInt16 × List UInt16
  | [] => ([], [])
  | g :: gs =>
    if zerosAhead (g :: gs) = n then ([], (g :: gs).drop n)
    else
      let (before, behind) := cutZeros n gs
      (g :: before, behind)

/-- groups in lower case, with colons between them -/
def groupsText (gs : List UInt16) : String :=
  ":".intercalate (gs.map fun g => String.ofList (Nat.toDigits 16 g.toNat))

/-- a group as two octets -/
def octets (g : UInt16) : UInt8 × UInt8 := ((g / 256).toUInt8, (g % 256).toUInt8)

/-- an address that stands for one of four octets shows them -/
def text (x : Ipv6) : String :=
  match x.groups with
  | [0, 0, 0, 0, 0, 0xffff, g, h] =>
    let (a, b) := octets g
    let (c, d) := octets h
    "::ffff:" ++ Ipv4.text ⟨a, b, c, d⟩
  | groups =>
    let n := longestZeros groups
    if n ≤ 1 then groupsText groups
    else
      let (before, behind) := cutZeros n groups
      groupsText before ++ "::" ++ groupsText behind

end Ipv6

namespace SocketAddress

def text : SocketAddress → String
  | .v4 ip service => ip.text ++ ":" ++ wholeText service.toNat
  | .v6 ip scope service =>
    "[" ++ ip.text ++ (if scope = 0 then "" else "%" ++ wholeText scope.toNat) ++ "]:" ++
      wholeText service.toNat

end SocketAddress
end RhythmLobby
