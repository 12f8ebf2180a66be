import Smpp.Text.Numeral

/-!
# Time

An instant is a natural number of nanoseconds since the clock began, and a span is a natural number
of nanoseconds. Neither has an upper end, so no sum of them is out of range; `Span.largest` and
`Instant.largest` say how far the clocks of a machine reach, for those who ask whether a sum would
have been.
-/

namespace Smpp

/-- A point of time, in nanoseconds since the clock began. -/
abbrev Instant := Nat

/-- A length of time in nanoseconds. -/
abbrev Span := Nat

namespace Span

/-- A span of whole seconds. -/
def ofSeconds (n : Nat) : Span := n * 1000000000

/-- A span of whole milliseconds. -/
def ofMillis (n : Nat) : Span := n * 1000000

/-- The whole milliseconds of a span. -/
def toMillis (s : Span) : Nat := s / 1000000

/-- The longest span that a machine holds: its seconds fill 64 bits. -/
def largest : Span := ofSeconds 18446744073709551616 - 1

/-- A fraction of `width` decimal digits, without the zeros at its end and nothing if it is zero. -/
def fraction (width n : Nat) : List Char :=
  if n = 0 then []
  else '.' :: ((Numeral.padded 10 width n).reverse.dropWhile (· == '0')).reverse

/-- A span in the largest unit of which it holds at least one, with as many decimal places as it
needs. -/
def text (s : Span) : String :=
  let inUnit (size width : Nat) (unit : String) : String :=
    String.ofList (Numeral.digits 10 (s / size) ++ fraction width (s % size)) ++ unit
  if 1000000000 ≤ s then inUnit 1000000000 9 "s"
  else if 1000000 ≤ s then inUnit 1000000 6 "ms"
  else if 1000 ≤ s then inUnit 1000 3 "µs"
  else inUnit 1 0 "ns"

end Span

/-- The last instant that the clock of a machine shows: its seconds fill 63 bits. -/
def Instant.largest : Instant := Span.ofSeconds 9223372036854775808 - 1

end Smpp
