/-!
# Octets and words

Everything on the wire is a sequence of octets, and every number on it is written most significant
octet first. `Octets.ofWord16` and `Octets.ofWord32` write a word; `Octets.word16` and
`Octets.word32` read one. The facts below say that each undoes the other, so a word and its written
form carry the same information:

* `word16_octets`, `word32_octets`: a written word reads back as itself;
* `ofWord16_word16`, `ofWord32_word32`: the octets of a word that was read are the octets it was
  read from.

A `Cursor` is a place in some octets, from which they are read on.
-/

namespace Smpp

/-- A sequence of octets, in the order in which they are sent. -/
abbrev Octets := List UInt8

namespace Octets

/-- The octet that stands for the low eight bits of a number. -/
def low (n : Nat) : UInt8 := UInt8.ofNat n

/-- A 16-bit word as two octets, the high one first. -/
def ofWord16 (w : UInt16) : Octets := [low (w.toNat / 256), low w.toNat]

/-- A 32-bit word as four octets, the highest first. -/
def ofWord32 (w : UInt32) : Octets :=
  [low (w.toNat / 16777216), low (w.toNat / 65536), low (w.toNat / 256), low w.toNat]

/-- The 16-bit word that two octets spell. -/
def word16 (a b : UInt8) : UInt16 := UInt16.ofNat (a.toNat * 256 + b.toNat)

/-- The 32-bit word that four octets spell. -/
def word32 (a b c d : UInt8) : UInt32 :=
  UInt32.ofNat (a.toNat * 16777216 + b.toNat * 65536 + c.toNat * 256 + d.toNat)

@[simp] theorem length_ofWord16 (w : UInt16) : (ofWord16 w).length = 2 := rfl

@[simp] theorem length_ofWord32 (w : UInt32) : (ofWord32 w).length = 4 := rfl

theorem toNat_word16 (a b : UInt8) : (word16 a b).toNat = a.toNat * 256 + b.toNat := by
  have := a.toNat_lt
  have := b.toNat_lt
  simp only [word16, UInt16.toNat_ofNat']
  omega

theorem toNat_word32 (a b c d : UInt8) :
    (word32 a b c d).toNat =
      a.toNat * 16777216 + b.toNat * 65536 + c.toNat * 256 + d.toNat := by
  have := a.toNat_lt
  have := b.toNat_lt
  have := c.toNat_lt
  have := d.toNat_lt
  simp only [word32, UInt32.toNat_ofNat']
  omega

/-- A written 16-bit word reads back as itself. -/
@[simp] theorem word16_octets (w : UInt16) : word16 (low (w.toNat / 256)) (low w.toNat) = w := by
  have := w.toNat_lt
  apply UInt16.toNat_inj.1
  simp only [toNat_word16, low, UInt8.toNat_ofNat']
  omega

/-- A written 32-bit word reads back as itself. -/
@[simp] theorem word32_octets (w : UInt32) :
    word32 (low (w.toNat / 16777216)) (low (w.toNat / 65536)) (low (w.toNat / 256)) (low w.toNat)
      = w := by
  have := w.toNat_lt
  apply UInt32.toNat_inj.1
  simp only [toNat_word32, low, UInt8.toNat_ofNat']
  omega

/-- Two octets are the written form of the word they spell. -/
@[simp] theorem ofWord16_word16 (a b : UInt8) : ofWord16 (word16 a b) = [a, b] := by
  have := a.toNat_lt
  have := b.toNat_lt
  simp only [ofWord16, toNat_word16, low, List.cons.injEq, and_true]
  constructor <;> apply UInt8.toNat_inj.1 <;> simp only [UInt8.toNat_ofNat'] <;> omega

/-- Four octets are the written form of the word they spell. -/
@[simp] theorem ofWord32_word32 (a b c d : UInt8) :
    ofWord32 (word32 a b c d) = [a, b, c, d] := by
  have := a.toNat_lt
  have := b.toNat_lt
  have := c.toNat_lt
  have := d.toNat_lt
  simp only [ofWord32, toNat_word32, low, List.cons.injEq, and_true]
  refine ⟨?_, ?_, ?_, ?_⟩ <;> apply UInt8.toNat_inj.1 <;> simp only [UInt8.toNat_ofNat'] <;> omega

end Octets

/-- Octets, and the place from which they are read on. The place may lie behind their end. -/
structure Cursor where
  octets : Octets
  place : Nat
  deriving DecidableEq, Repr

namespace Cursor

/-- The octets that have not been read. -/
def rest (c : Cursor) : Octets := c.octets.drop c.place

/-- Reads a word, and moves behind it. -/
def word32? (c : Cursor) : Option (UInt32 × Cursor) :=
  match c.rest with
  | a :: b :: d :: e :: _ => some (Octets.word32 a b d e, { c with place := c.place + 4 })
  | _ => none

end Cursor

end Smpp
