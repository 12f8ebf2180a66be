import Smpp.Octets
import Smpp.Text.Numeral

/-!
# Socket addresses as text

An address of four octets with a port is written `10.0.0.1:2775`, and one of eight 16-bit segments
`[fe80::1%3]:2775`. `SocketAddress.text` writes the preferred form: the longest run of two or more
zero segments, the first of several, is left out as `::`, an IPv4-mapped address ends in dotted
octets, a scope of zero is left out. `SocketAddress.read` takes every other spelling of the same
address as well: any zeros written or left out, upper-case digits, dotted octets in the last two
segments of any address.
-/

namespace Smpp

/-- An address of four octets. -/
structure Ipv4 where
  a : UInt8
  b : UInt8
  c : UInt8
  d : UInt8
  deriving DecidableEq, Repr

/-- An address of eight segments. -/
structure Ipv6 where
  segments : List UInt16
  length_eq : segments.length = 8
  deriving DecidableEq, Repr

/-- Where a host listens. -/
inductive SocketAddress where
  | v4 (ip : Ipv4) (port : UInt16)
  | v6 (ip : Ipv6) (scope : UInt32) (port : UInt16)
  deriving DecidableEq, Repr

namespace Ipv4

/-- Four decimal numbers with dots between them. -/
def chars (ip : Ipv4) : List Char :=
  Numeral.digits 10 ip.a.toNat ++ '.' :: Numeral.digits 10 ip.b.toNat ++
    '.' :: Numeral.digits 10 ip.c.toNat ++ '.' :: Numeral.digits 10 ip.d.toNat

/-- The two segments that the four octets fill. -/
def toSegments (ip : Ipv4) : List UInt16 := [Octets.word16 ip.a ip.b, Octets.word16 ip.c ip.d]

end Ipv4

namespace Ipv6

/-- Segments in hexadecimal with colons between them. -/
def joined : List UInt16 → List Char
  | [] => []
  | [s] => Numeral.digits 16 s.toNat
  | s :: ss => Numeral.digits 16 s.toNat ++ ':' :: joined ss

/-- Place and length of the longest run of zero segments, the first of several, where `place` is the
place of the first segment given. -/
def longestZeros (place : Nat) : List UInt16 → Nat × Nat
  | [] => (place, 0)
  | s :: ss =>
    let here := ((s :: ss).takeWhile (· == 0)).length
    let later := longestZeros (place + 1) ss
    if later.2 ≤ here then (place, here) else later

/-- The octets of an IPv4-mapped address. -/
def mapped? (ip : Ipv6) : Option Ipv4 :=
  match ip.segments with
  | [0, 0, 0, 0, 0, 0xFFFF, hi, lo] =>
    some ⟨Octets.low (hi.toNat / 256), Octets.low hi.toNat,
      Octets.low (lo.toNat / 256), Octets.low lo.toNat⟩
  | _ => none

/-- The preferred written form. -/
def chars (ip : Ipv6) : List Char :=
  match ip.mapped? with
  | some v4 => "::ffff:".toList ++ v4.chars
  | none =>
    let (place, length) := longestZeros 0 ip.segments
    if 1 < length then
      joined (ip.segments.take place) ++ ':' :: ':' :: joined (ip.segments.drop (place + length))
    else joined ip.segments

end Ipv6

namespace SocketAddress

/-- The written form of an address without its port and scope. -/
def hostChars : SocketAddress → List Char
  | .v4 ip _ => ip.chars
  | .v6 ip _ _ => ip.chars

/-- The written form of an address. -/
def chars : SocketAddress → List Char
  | .v4 ip port => ip.chars ++ ':' :: Numeral.digits 10 port.toNat
  | .v6 ip scope port =>
    let zone := if scope = 0 then [] else '%' :: Numeral.digits 10 scope.toNat
    '[' :: ip.chars ++ zone ++ ']' :: ':' :: Numeral.digits 10 port.toNat

/-- The written form of an address. -/
def text (a : SocketAddress) : String := String.ofList a.chars

/-- The host of an address as text. -/
def host (a : SocketAddress) : String := String.ofList a.hostChars

/-- The port of an address. -/
def port : SocketAddress → UInt16
  | .v4 _ p => p
  | .v6 _ _ p => p

/-- Whether the address has eight segments. -/
def isV6 : SocketAddress → Bool
  | .v4 .. => false
  | .v6 .. => true

/-! ### Reading -/

/-- Takes one given character off the front. -/
def expect (c : Char) : List Char → Option (List Char)
  | [] => none
  | d :: rest => if d = c then some rest else none

/-- Takes a numeral off the front, digits as long as there are any. Its number of digits may be
limited, and a zero in front of other digits may be refused. -/
def number (radix : Nat) (mostDigits : Option Nat) (zeroInFront : Bool) (largest : Nat)
    (cs : List Char) : Option (Nat × List Char) :=
  let ds := cs.takeWhile fun c => (Numeral.digit? radix c).isSome
  let value := ds.foldl (fun n c => n * radix + (Numeral.digit? radix c).getD 0) 0
  if ds.isEmpty then none
  else if mostDigits.any (· < ds.length) then none
  else if !zeroInFront && ds.head? == some '0' && 1 < ds.length then none
  else if largest < value then none
  else some (value, cs.drop ds.length)

/-- Takes an octet in decimal off the front. -/
def octet (cs : List Char) : Option (UInt8 × List Char) :=
  (number 10 (some 3) false 255 cs).map fun (n, rest) => (UInt8.ofNat n, rest)

/-- Takes four dotted octets off the front. -/
def ipv4 (cs : List Char) : Option (Ipv4 × List Char) := do
  let (a, cs) ← octet cs
  let (b, cs) ← octet (← expect '.' cs)
  let (c, cs) ← octet (← expect '.' cs)
  let (d, cs) ← octet (← expect '.' cs)
  return (⟨a, b, c, d⟩, cs)

/-- Segments taken off the front of a text. -/
structure Segments where
  /-- The segments in order. -/
  found : List UInt16
  /-- Whether they end in dotted octets. -/
  dotted : Bool
  /-- The text after them. -/
  rest : List Char

/-- Takes at most `limit` segments off the front, as many as there are. Each but the `first` stands
after a colon; dotted octets stand for two segments and are the last. -/
def segments : (limit : Nat) → (first : Bool) → List Char → Segments
  | 0, _, cs => ⟨[], false, cs⟩
  | limit + 1, first, cs =>
    let next := if first then some cs else expect ':' cs
    match (if 0 < limit then next.bind ipv4 else none) with
    | some (ip, rest) => ⟨ip.toSegments, true, rest⟩
    | none =>
      match next.bind (number 16 (some 4) true 65535) with
      | none => ⟨[], false, cs⟩
      | some (n, rest) =>
        let more := segments limit false rest
        ⟨UInt16.ofNat n :: more.found, more.dotted, more.rest⟩

/-- The address with the given segments, if there are eight. -/
def ofSegments? (ss : List UInt16) : Option Ipv6 :=
  if h : ss.length = 8 then some ⟨ss, h⟩ else none

/-- Takes an address of eight segments off the front; `::` stands for the segments that are
missing, of which there is at least one. -/
def ipv6 (cs : List Char) : Option (Ipv6 × List Char) :=
  let head := segments 8 true cs
  if head.found.length = 8 then (ofSegments? head.found).map (·, head.rest)
  else if head.dotted then none
  else do
    let cs ← expect ':' (← expect ':' head.rest)
    let tail := segments (7 - head.found.length) true cs
    let zeros := List.replicate (8 - head.found.length - tail.found.length) 0
    let ip ← ofSegments? (head.found ++ zeros ++ tail.found)
    return (ip, tail.rest)

/-- Takes a port off the front, after its colon. -/
def portNumber (cs : List Char) : Option (UInt16 × List Char) := do
  let (n, cs) ← number 10 none true 65535 (← expect ':' cs)
  return (UInt16.ofNat n, cs)

/-- Takes a scope off the front, if there is one. -/
def scope (cs : List Char) : UInt32 × List Char :=
  match (expect '%' cs).bind (number 10 none true 4294967295) with
  | some (n, rest) => (UInt32.ofNat n, rest)
  | none => (0, cs)

/-- Takes dotted octets and a port off the front. -/
def readV4 (cs : List Char) : Option (SocketAddress × List Char) := do
  let (ip, cs) ← ipv4 cs
  let (p, cs) ← portNumber cs
  return (.v4 ip p, cs)

/-- Takes segments in brackets and a port off the front. -/
def readV6 (cs : List Char) : Option (SocketAddress × List Char) := do
  let (ip, cs) ← ipv6 (← expect '[' cs)
  let (zone, cs) := scope cs
  let (p, cs) ← portNumber (← expect ']' cs)
  return (.v6 ip zone p, cs)

/-- The address that a whole text spells. -/
def read (s : String) : Option SocketAddress :=
  match (readV4 s.toList).orElse fun _ => readV6 s.toList with
  | some (a, []) => some a
  | _ => none

end SocketAddress

end Smpp
