import Smpp.Octets

/-!
# UTF-8

The octets of a text and the text of octets. `Utf8.encode` writes each character in one to four
octets; `Utf8.decode` reads them back and accepts the well-formed sequences only: no overlong form,
no surrogate, nothing past U+10FFFF. What it refuses it names exactly. A fault is either a sequence
that no continuation could mend, together with the number of octets that a reader has to skip to get
past it, or an input that ends inside a character that is well-formed so far.
-/

namespace Smpp.Utf8

/-- Why a sequence of octets is no text. -/
inductive Fault where
  /-- The octets from `offset` start no character: the first `size` of them have to be skipped. -/
  | invalid (offset size : Nat)
  /-- The input ends inside the character that starts at `offset`. -/
  | incomplete (offset : Nat)
  deriving DecidableEq, Repr

/-- The words for a fault. -/
def Fault.message : Fault → String
  | .invalid offset size =>
    "invalid utf-8 sequence of " ++ toString size ++ " bytes from index " ++ toString offset
  | .incomplete offset => "incomplete utf-8 byte sequence from index " ++ toString offset

/-- An octet that continues a character holds six bits of it. -/
def tail (n : Nat) : UInt8 := UInt8.ofNat (0x80 + n % 64)

/-- The octets of one character. -/
def encodeChar (c : Char) : Octets :=
  let n := c.toNat
  if n < 0x80 then [UInt8.ofNat n]
  else if n < 0x800 then [UInt8.ofNat (0xC0 + n / 64), tail n]
  else if n < 0x10000 then [UInt8.ofNat (0xE0 + n / 4096), tail (n / 64), tail n]
  else [UInt8.ofNat (0xF0 + n / 262144), tail (n / 4096), tail (n / 64), tail n]

/-- The octets of a text. -/
def encode (s : String) : Octets := s.toList.flatMap encodeChar

/-- What the start of a sequence of octets is. -/
inductive Start where
  /-- A character of `size` octets, together with the octets after it. -/
  | char (c : Char) (size : Nat) (rest : Octets)
  /-- No character: `size` octets have to be skipped. -/
  | invalid (size : Nat)
  /-- A character that the input leaves unfinished. -/
  | incomplete

/-- An octet that may continue a character. -/
def isTail (b : UInt8) : Bool := 0x80 ≤ b.toNat && b.toNat < 0xC0

/-- The bits that a continuation octet holds. -/
def tailBits (b : UInt8) : Nat := b.toNat - 0x80

/-- The second octet of a character of three octets is narrowed after two of its first octets:
`E0` would leave an overlong form and `ED` a surrogate. -/
def isSecondOfThree (lead second : UInt8) : Bool :=
  isTail second && (lead.toNat != 0xE0 || 0xA0 ≤ second.toNat) &&
    (lead.toNat != 0xED || second.toNat < 0xA0)

/-- The second octet of a character of four octets is narrowed after two of its first octets:
`F0` would leave an overlong form and `F4` a number past the last character. -/
def isSecondOfFour (lead second : UInt8) : Bool :=
  isTail second && (lead.toNat != 0xF0 || 0x90 ≤ second.toNat) &&
    (lead.toNat != 0xF4 || second.toNat < 0x90)

/-- Reads a character whose first octet is `lead`. -/
def start (lead : UInt8) (rest : Octets) : Start :=
  let n := lead.toNat
  if n < 0x80 then .char (Char.ofNat n) 1 rest
  else if n < 0xC2 then .invalid 1
  else if n < 0xE0 then
    match rest with
    | [] => .incomplete
    | b :: rest =>
      if isTail b then .char (Char.ofNat ((n - 0xC0) * 64 + tailBits b)) 2 rest else .invalid 1
  else if n < 0xF0 then
    match rest with
    | [] => .incomplete
    | b :: rest =>
      if !isSecondOfThree lead b then .invalid 1
      else
        match rest with
        | [] => .incomplete
        | c :: rest =>
          if isTail c then
            .char (Char.ofNat ((n - 0xE0) * 4096 + tailBits b * 64 + tailBits c)) 3 rest
          else .invalid 2
  else if n < 0xF5 then
    match rest with
    | [] => .incomplete
    | b :: rest =>
      if !isSecondOfFour lead b then .invalid 1
      else
        match rest with
        | [] => .incomplete
        | c :: rest =>
          if !isTail c then .invalid 2
          else
            match rest with
            | [] => .incomplete
            | d :: rest =>
              if isTail d then
                let bits := tailBits b * 4096 + tailBits c * 64 + tailBits d
                .char (Char.ofNat ((n - 0xF0) * 262144 + bits)) 4 rest
              else .invalid 3
  else .invalid 1

/-- What is left after a character is no longer than what followed its first octet. -/
theorem length_le_of_start {lead : UInt8} {rest left : Octets} {c : Char} {size : Nat}
    (h : start lead rest = .char c size left) : left.length ≤ rest.length := by
  simp only [start] at h
  repeat' split at h
  all_goals simp only [Start.char.injEq, reduceCtorEq] at h
  all_goals simp only [← h.2.2, List.length_cons, Nat.le_refl] <;> omega

/-- The characters of octets, the first of which is number `offset` of the whole input. -/
def decodeFrom (offset : Nat) : Octets → Except Fault (List Char)
  | [] => .ok []
  | lead :: rest =>
    match _h : start lead rest with
    | .char c size left =>
      match decodeFrom (offset + size) left with
      | .ok cs => .ok (c :: cs)
      | .error fault => .error fault
    | .invalid size => .error (.invalid offset size)
    | .incomplete => .error (.incomplete offset)
  termination_by bs => bs.length
  decreasing_by
    simp only [List.length_cons]
    exact Nat.lt_succ_of_le (length_le_of_start _h)

/-- The text that octets are the written form of. -/
def decode (bs : Octets) : Except Fault String := (decodeFrom 0 bs).map String.ofList

end Smpp.Utf8
