import Smpp.Octets
import Smpp.Text.Numeral

/-!
# Octets as text

Octets written as pairs of hexadecimal digits, for people and for records. Reading takes digits of
either case and refuses anything else, half an octet included.
-/

namespace Smpp.Hex

/-- The two digits of each octet. -/
def encode (bs : Octets) : String :=
  bs.foldl
    (fun s b => (s.push (Numeral.digitChar (b.toNat / 16))).push (Numeral.digitChar (b.toNat % 16)))
    ""

/-- The octets of pairs of digits, read after some others that are kept last first. -/
def decodeAfter (before : Octets) : List Char → Option Octets
  | [] => some before.reverse
  | [_] => none
  | c :: d :: rest =>
    match Numeral.digit? 16 c, Numeral.digit? 16 d with
    | some high, some low => decodeAfter (Octets.low (high * 16 + low) :: before) rest
    | _, _ => none

/-- The octets of pairs of digits. -/
def decode (s : String) : Option Octets := decodeAfter [] s.toList

end Smpp.Hex
