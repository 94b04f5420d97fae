import OpenGuard.Lib.Text

/-!
# IP addresses and their text form

The address types of `std::net` and the parser behind `str::parse::<IpAddr>`, as the standard
library writes it: a parser takes the remaining characters and gives a value with the characters
after it, or fails and consumes nothing.

* IPv4: four decimal octets of one to three digits without a superfluous leading zero.
* IPv6: groups of one to four hexadecimal digits, at most one `::` standing for at least one
  zero group, and possibly an embedded IPv4 address in the last two groups. No scope suffix.
-/

namespace OpenGuard.Lib

/-- `Ipv4Addr`: four octets. -/
structure Ipv4Addr where
  a : UInt8
  b : UInt8
  c : UInt8
  d : UInt8
  deriving DecidableEq

/-- `Ipv6Addr`: eight 16-bit segments. -/
structure Ipv6Addr where
  segments : List UInt16
  length_eq : segments.length = 8
  deriving DecidableEq

/-- `IpAddr`. -/
inductive IpAddr where
  | v4 (address : Ipv4Addr)
  | v6 (address : Ipv6Addr)
  deriving DecidableEq

/-! ## The parser -/

/-- `Parser::read_given_char`. -/
def readGivenChar (c : Char) : List Char → Option (List Char)
  | [] => none
  | x :: rest => if x = c then some rest else none

/-- `Parser::read_number` with a bound on the number of digits: reads every digit there is and
fails when they are none or too many, or when there is a leading zero that is not allowed. -/
def readNumber (radix maxDigits : ℕ) (allowZeroPrefix : Bool) (s : List Char) :
    Option (ℕ × List Char) :=
  let digits := s.takeWhile fun c => (toDigit radix c).isSome
  if digits = [] ∨ maxDigits < digits.length then none
  else if !allowZeroPrefix && digits.head? == some '0' && 1 < digits.length then none
  else (digitsValue radix digits).map fun value => (value, s.drop digits.length)

/-- `Parser::read_separator`: the separator stands before every item but the first. -/
def readSeparator {α : Type} (separator : Char) (index : ℕ)
    (inner : List Char → Option (α × List Char)) (s : List Char) : Option (α × List Char) :=
  if 0 < index then (readGivenChar separator s).bind inner else inner s

/-- One octet of an IPv4 address. -/
def readOctet (s : List Char) : Option (UInt8 × List Char) :=
  (readNumber 10 3 false s).bind fun r =>
    if r.1 < 256 then some (UInt8.ofNat r.1, r.2) else none

/-- `Parser::read_ipv4_addr`. -/
def readIpv4Addr (s : List Char) : Option (Ipv4Addr × List Char) := do
  let (a, s) ← readSeparator '.' 0 readOctet s
  let (b, s) ← readSeparator '.' 1 readOctet s
  let (c, s) ← readSeparator '.' 2 readOctet s
  let (d, s) ← readSeparator '.' 3 readOctet s
  return (⟨a, b, c, d⟩, s)

/-- `read_groups` for the last `remaining` of `limit` groups: the groups read, whether they end
in an embedded IPv4 address, and the characters after them. -/
def readGroups (limit : ℕ) : ℕ → List Char → List UInt16 × Bool × List Char
  | 0, s => ([], false, s)
  | remaining + 1, s =>
      let i := limit - (remaining + 1)
      let embedded :=
        if i < limit - 1 then readSeparator ':' i readIpv4Addr s else none
      match embedded with
      | some (v4, rest) =>
          ([UInt16.ofNat (v4.a.toNat * 256 + v4.b.toNat),
            UInt16.ofNat (v4.c.toNat * 256 + v4.d.toNat)], true, rest)
      | none =>
          match readSeparator ':' i (readNumber 16 4 true) s with
          | some (group, rest) =>
              let (groups, isV4, rest) := readGroups limit remaining rest
              (UInt16.ofNat group :: groups, isV4, rest)
          | none => ([], false, s)

/-- An address from a list of segments, when they are eight. -/
def Ipv6Addr.ofList? (segments : List UInt16) : Option Ipv6Addr :=
  if h : segments.length = 8 then some ⟨segments, h⟩ else none

/-- `Parser::read_ipv6_addr`. -/
def readIpv6Addr (s : List Char) : Option (Ipv6Addr × List Char) := do
  let (head, headV4, s) := readGroups 8 8 s
  if head.length = 8 then
    return (← Ipv6Addr.ofList? head, s)
  else if headV4 then
    none
  else
    let s ← readGivenChar ':' s
    let s ← readGivenChar ':' s
    let limit := 8 - (head.length + 1)
    let (tail, _, s) := readGroups limit limit s
    let zeros := List.replicate (8 - head.length - tail.length) 0
    return (← Ipv6Addr.ofList? (head ++ zeros ++ tail), s)

/-- `str::parse::<IpAddr>`: an IPv4 or else an IPv6 address, and nothing after it. -/
def parseIpAddr (s : String) : Option IpAddr :=
  let parsed :=
    ((readIpv4Addr s.toList).map fun r => (IpAddr.v4 r.1, r.2)).or
      ((readIpv6Addr s.toList).map fun r => (IpAddr.v6 r.1, r.2))
  parsed.bind fun r => if r.2 = [] then some r.1 else none

/-! ## Classes of addresses -/

namespace Ipv4Addr

/-- `Ipv4Addr::is_private`. -/
def isPrivate (x : Ipv4Addr) : Bool :=
  x.a == 10 || (x.a == 172 && 16 ≤ x.b && x.b ≤ 31) || (x.a == 192 && x.b == 168)

/-- `Ipv4Addr::is_loopback`. -/
def isLoopback (x : Ipv4Addr) : Bool := x.a == 127

/-- `Ipv4Addr::is_link_local`. -/
def isLinkLocal (x : Ipv4Addr) : Bool := x.a == 169 && x.b == 254

/-- `Ipv4Addr::is_unspecified`. -/
def isUnspecified (x : Ipv4Addr) : Bool := x == ⟨0, 0, 0, 0⟩

/-- `Ipv4Addr::is_broadcast`. -/
def isBroadcast (x : Ipv4Addr) : Bool := x == ⟨255, 255, 255, 255⟩

end Ipv4Addr

namespace Ipv6Addr

/-- `Ipv6Addr::is_loopback`. -/
def isLoopback (x : Ipv6Addr) : Bool := x.segments == [0, 0, 0, 0, 0, 0, 0, 1]

/-- `Ipv6Addr::is_unspecified`. -/
def isUnspecified (x : Ipv6Addr) : Bool := x.segments == [0, 0, 0, 0, 0, 0, 0, 0]

/-- `Ipv6Addr::is_unique_local`. -/
def isUniqueLocal (x : Ipv6Addr) : Bool := (x.segments.headD 0) &&& 0xfe00 == 0xfc00

/-- `Ipv6Addr::is_unicast_link_local`. -/
def isUnicastLinkLocal (x : Ipv6Addr) : Bool := (x.segments.headD 0) &&& 0xffc0 == 0xfe80

end Ipv6Addr

example : parseIpAddr "203.0.113.8" = some (.v4 ⟨203, 0, 113, 8⟩) := by decide

end OpenGuard.Lib
