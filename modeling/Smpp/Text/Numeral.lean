/-!
# Numerals

Natural numbers as text in a radix of at most sixteen, in lower-case digits. `Numeral.digits` writes
a number without leading zeros and `Numeral.padded` with as many as fill a width.

`Numeral.read` reads a decimal numeral of a bounded type the way every numeric field and option of
this library is read: an optional plus sign, then digits, leading zeros allowed, the first digit at
which the bound is passed decides. Its three faults are told apart, because the command line says
which of them it met.
-/

namespace Smpp.Numeral

/-- The character of a digit below sixteen. -/
def digitChar (n : Nat) : Char :=
  if n < 10 then Char.ofNat (48 + n) else Char.ofNat (87 + n)

/-- The digits of a number in a radix of two or more, the first one highest. -/
def digits (radix n : Nat) : List Char :=
  if _h : radix ≤ 1 ∨ n < radix then [digitChar n]
  else digits radix (n / radix) ++ [digitChar (n % radix)]
  termination_by n
  decreasing_by exact Nat.div_lt_self (by omega) (by omega)

/-- The digits of a number, with zeros in front up to a width. -/
def padded (radix width n : Nat) : List Char :=
  let ds := digits radix n
  List.replicate (width - ds.length) '0' ++ ds

/-- A number in decimal. -/
def decimal (n : Nat) : String := String.ofList (digits 10 n)

/-- A number in hexadecimal after `0x`, with zeros in front up to a number of digits. -/
def hex (width n : Nat) : String := String.ofList ('0' :: 'x' :: padded 16 width n)

/-- The value of a digit in a radix of at most sixteen; letters count in either case. -/
def digit? (radix : Nat) (c : Char) : Option Nat :=
  let value :=
    if '0' ≤ c ∧ c ≤ '9' then some (c.toNat - 48)
    else if 'a' ≤ c ∧ c ≤ 'f' then some (c.toNat - 87)
    else if 'A' ≤ c ∧ c ≤ 'F' then some (c.toNat - 55)
    else none
  value.filter (· < radix)

/-- Why a text is no numeral of a type. -/
inductive Fault where
  /-- There is nothing to read. -/
  | empty
  /-- A character is no digit, or the only character is a sign. -/
  | invalidDigit
  /-- The number exceeds the largest value. -/
  | tooLarge
  deriving DecidableEq, Repr

/-- The words for a fault. -/
def Fault.message : Fault → String
  | .empty => "cannot parse integer from empty string"
  | .invalidDigit => "invalid digit found in string"
  | .tooLarge => "number too large to fit in target type"

/-- Reads digits after a number `acc` that has been read so far. -/
def readDigits (largest : Nat) (acc : Nat) : List Char → Except Fault Nat
  | [] => .ok acc
  | c :: cs =>
    match digit? 10 c with
    | none => .error .invalidDigit
    | some d =>
      if acc * 10 + d ≤ largest then readDigits largest (acc * 10 + d) cs else .error .tooLarge

/-- Reads a decimal numeral that is at most `largest`. -/
def read (largest : Nat) (s : String) : Except Fault Nat :=
  match s.toList with
  | [] => .error .empty
  | ['+'] => .error .invalidDigit
  | '+' :: c :: cs => readDigits largest 0 (c :: cs)
  | cs => readDigits largest 0 cs

end Smpp.Numeral
