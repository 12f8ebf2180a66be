import Smpp.Backend.Memory
import Smpp.Proofs.Control.Numerals
import Smpp.Proofs.Wire.Fields

/-!
# The identifiers that a backend gives

A backend that keeps messages in memory calls a message by its number, in hexadecimal and with zeros
in front up to eight digits. From the ninth digit on there are no zeros left to put in front, so
that identifiers of different lengths meet at this point. No two numbers have one identifier all the
same (`messageId_injective`): the zeros say nothing about the value of the digits behind them, and
the value is the number.

`messageId_eq` says what the digits are in the terms of the core library. A number of 64 bits has
sixteen of them at most (`length_encode_messageId_le`), so that its identifier has room in a receipt
(`fits_messageId`).
-/

namespace Smpp

namespace Numeral

/-- The character of a digit is that of the core library. -/
theorem digitChar_eq {d : Nat} (h : d < 16) : digitChar d = Nat.digitChar d := by
  have hall : ∀ d < 16, digitChar d = Nat.digitChar d := by decide
  exact hall d h

/-- **The digits of a number are those of the core library.** -/
theorem digits_eq_toDigits {radix : Nat} (hradix : 2 ≤ radix) (hradix' : radix ≤ 16) (n : Nat) :
    digits radix n = Nat.toDigits radix n := by
  refine digits_induction hradix (p := fun n cs => cs = Nat.toDigits radix n) ?_ ?_ n
  · intro n hn
    rw [Nat.toDigits_of_lt_base hn, digitChar_eq (Nat.lt_of_lt_of_le hn hradix')]
  · intro n hn ih
    have hlast : n % radix < 16 := Nat.lt_of_lt_of_le (Nat.mod_lt _ (by omega)) hradix'
    rw [Nat.toDigits_eq_if (Nat.lt_of_lt_of_le Nat.one_lt_two hradix), if_neg (Nat.not_lt.2 hn), ih,
      digitChar_eq hlast]

/-- Zeros in front do not change the value of digits. -/
theorem value_padded {radix : Nat} (hradix : 2 ≤ radix) (hradix' : radix ≤ 16) (width n : Nat) :
    (padded radix width n).foldl (fun n c => n * radix + (digit? radix c).getD 0) 0 = n := by
  have hzero : digit? radix '0' = some 0 :=
    digit?_digitChar (d := 0) hradix' (by omega)
  have hzeros (k : Nat) : (List.replicate k '0').foldl
      (fun n c => n * radix + (digit? radix c).getD 0) 0 = 0 := by
    induction k with
    | zero => rfl
    | succ k ih =>
      rw [List.replicate_succ, List.foldl_cons, hzero, Option.getD_some, Nat.zero_mul]
      exact ih
  rw [padded, List.foldl_append, hzeros, value_digits hradix hradix']

/-- The characters of a number with zeros in front are digits of its radix. -/
theorem mem_padded {radix width n : Nat} (hradix : 2 ≤ radix) {c : Char}
    (hc : c ∈ padded radix width n) : ∃ d < radix, c = digitChar d := by
  obtain hc | hc := List.mem_append.1 hc
  · exact ⟨0, by omega, List.eq_of_mem_replicate hc⟩
  · exact mem_digits hradix hc

/-- Digits with zeros in front fill the width, or there are more of them. -/
theorem length_padded (radix width n : Nat) :
    (padded radix width n).length = max width (digits radix n).length := by
  rw [padded, List.length_append, List.length_replicate]
  omega

end Numeral

/-! ### Octets of digits -/

/-- A digit is written in one octet, which is no terminator. -/
theorem Utf8.encodeChar_digitChar {d : Nat} (h : d < 16) :
    ∃ b, Utf8.encodeChar (Numeral.digitChar d) = [b] ∧ b ≠ 0 := by
  have hall : ∀ d < 16, Utf8.encodeChar (Numeral.digitChar d) =
      [UInt8.ofNat (Numeral.digitChar d).toNat] ∧
        UInt8.ofNat (Numeral.digitChar d).toNat ≠ 0 := by
    decide
  exact ⟨_, hall d h⟩

namespace MemoryBackend

open Numeral (digits padded)

/-- **An identifier** is the hexadecimal of a number, with zeros in front up to eight digits. -/
theorem messageId_eq (n : Nat) :
    messageId n = String.ofList ((Nat.toDigits 16 n).leftpad 8 '0') := by
  rw [← Numeral.digits_eq_toDigits (by decide) (by decide)]
  rfl

/-- **No two numbers have one identifier.** -/
theorem messageId_injective : Function.Injective messageId := by
  intro m n h
  have hdigits : padded 16 8 m = padded 16 8 n := String.ofList_injective h
  calc m = (padded 16 8 m).foldl (fun n c => n * 16 + (Numeral.digit? 16 c).getD 0) 0 :=
        (Numeral.value_padded (by decide) (by decide) 8 m).symm
    _ = (padded 16 8 n).foldl (fun n c => n * 16 + (Numeral.digit? 16 c).getD 0) 0 := by
        rw [hdigits]
    _ = n := Numeral.value_padded (by decide) (by decide) 8 n

/-- An identifier has an octet for each of its digits. -/
theorem length_encode_messageId (n : Nat) :
    (Utf8.encode (messageId n)).length = max 8 (digits 16 n).length := by
  have hone : ∀ c ∈ padded 16 8 n, (Utf8.encodeChar c).length = 1 := by
    intro c hc
    obtain ⟨d, hd, rfl⟩ := Numeral.mem_padded (by decide) hc
    obtain ⟨b, hb, -⟩ := Utf8.encodeChar_digitChar hd
    rw [hb, List.length_singleton]
  rw [Utf8.encode, messageId, String.toList_ofList, List.length_flatMap,
    List.map_congr_left hone, List.map_const', List.sum_replicate, smul_eq_mul, Nat.mul_one,
    Numeral.length_padded]

/-- The identifier of a number of 64 bits has sixteen octets at most. -/
theorem length_encode_messageId_le {n : Nat} (h : n < 2 ^ 64) :
    (Utf8.encode (messageId n)).length ≤ 16 := by
  have hdigits : (digits 16 n).length ≤ 16 :=
    Numeral.length_digits_le (by decide) (by decide) (Nat.lt_of_lt_of_le h (by decide))
  rw [length_encode_messageId]
  omega

/-- An identifier has no octet that would end it early. -/
theorem isText_messageId {n : Nat} : ∀ b ∈ Utf8.encode (messageId n), Field.isText b = true := by
  intro b hb
  rw [Utf8.encode, messageId, String.toList_ofList] at hb
  obtain ⟨c, hc, hb⟩ := List.mem_flatMap.1 hb
  obtain ⟨d, hd, rfl⟩ := Numeral.mem_padded (by decide) hc
  obtain ⟨b', hb', hne⟩ := Utf8.encodeChar_digitChar hd
  rw [hb', List.mem_singleton] at hb
  subst hb
  exact bne_iff_ne.2 hne

/-- **An identifier fits its field** in a receipt, if its number has 64 bits. -/
theorem fits_messageId {n : Nat} (h : n < 2 ^ 64) : Field.Fits messageIdLimit (messageId n) :=
  ⟨Nat.lt_of_le_of_lt (length_encode_messageId_le h) (by decide), isText_messageId⟩

end MemoryBackend

end Smpp
