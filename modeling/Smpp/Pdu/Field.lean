import Smpp.Pdu.Coded
import Smpp.Pdu.WireError

/-!
# Mandatory fields

The mandatory part of a body is a row of fields without tags: single octets, octets out of an
enumeration, and texts that end with a zero octet. Each kind of field has a reader and a written
form.

A reader takes a field off the front of what is left of a body, so its state is what is left. A
reader that fails leaves the state where it got to: a text or an absent octet moves nothing, an
octet that stands for no value has been passed.

A writer puts a field behind what is there already, so its state is everything that is there. A
writer that fails leaves what it had written by then.
-/

namespace Smpp

/-- Takes fields off the front of octets; the state is what is left of them, also after a fault. -/
abbrev Reader := EStateM WireError Octets

/-- Puts fields behind octets; the state is all that is there, also after a fault. -/
abbrev Writer := EStateM WireError Octets

namespace Writer

/-- Writes octets. -/
def put (bs : Octets) : Writer Unit := fun buffer => .ok () (buffer ++ bs)

/-- Writes nothing, and fails unless something holds. -/
def require (p : Prop) [Decidable p] (e : WireError) : Writer Unit := fun buffer =>
  if p then .ok () buffer else .error e buffer

/-- Writes a field that is judged before any octet of it is written. -/
def attempt (field : Except WireError Octets) : Writer Unit := fun buffer =>
  match field with
  | .ok bs => .ok () (buffer ++ bs)
  | .error e => .error e buffer

end Writer

namespace Field

/-- Whether an octet is no terminator. -/
def isText (b : UInt8) : Bool := b != 0

/-- Reads a text that ends with a zero octet, both within `limit` octets. The end is looked for
first; only a text that ends is judged as text. -/
def cstring (limit : Nat) (field : String) : Reader String := fun bs =>
  let window := bs.take limit
  let octets := window.takeWhile isText
  if octets.length < window.length then
    match Utf8.decode octets with
    | .ok text => .ok text (bs.drop (octets.length + 1))
    | .error fault => .error (.notText field fault) bs
  else if window.length < limit then .error (.missing field) bs
  else .error (.invalid field (.unterminated limit)) bs

/-- Reads one octet. -/
def octet (field : String) : Reader UInt8
  | [] => .error (.missing field) []
  | b :: bs => .ok b bs

/-- Reads one octet of an enumeration. -/
def coded (α : Type) [Coded α] (field : String) : Reader α := fun bs =>
  match octet field bs with
  | .error e left => .error e left
  | .ok b left =>
    match Coded.ofCode? b with
    | some a => .ok a left
    | none => .error (.invalid field (.unsupported b)) left

/-- The written form of a text that has to end within `limit` octets. -/
def ofText (limit : Nat) (field : String) (text : String) : Except WireError Octets :=
  let octets := Utf8.encode text
  if limit ≤ octets.length then .error (.invalid field (.tooLong octets.length (limit - 1)))
  else if octets.contains 0 then .error (.invalid field .embeddedNul)
  else .ok (octets ++ [0])

/-- Writes a text that has to end within `limit` octets. -/
def write (limit : Nat) (field text : String) : Writer Unit :=
  Writer.attempt (ofText limit field text)

end Field

end Smpp
