import Smpp.Pdu.Field

/-!
# Optional parameters

The optional part of a body is a row of parameters, each a tag, the length of its value and the
value. `Parameters` is a map from tags to values that keeps the order in which the tags came: a
replaced value keeps its place, a tag that is removed and comes back goes to the end.

A region of octets is read parameter by parameter until it is used up. Each round takes at least the
four octets of a tag and a length, so the reading ends; it fails where fewer than four octets are
left, or where a value is longer than what is left.
-/

namespace Smpp

/-- One optional parameter. -/
structure Parameter where
  tag : UInt16
  value : Octets
  deriving DecidableEq, Repr

namespace Parameter

/-- The most octets that the length of a value can state. -/
def longestValue : Nat := 65535

/-- The number of octets of the written form. -/
def size (p : Parameter) : Nat := 4 + p.value.length

/-- The written form: tag, length, value. -/
def encode (p : Parameter) : Except WireError Octets :=
  if p.value.length ≤ longestValue then
    .ok (Octets.ofWord16 p.tag ++ Octets.ofWord16 (UInt16.ofNat p.value.length) ++ p.value)
  else .error (.invalid "tlv" (.parameterTooLong p.tag p.value.length longestValue))

/-- Writes one parameter. -/
def write (p : Parameter) : Writer Unit := Writer.attempt p.encode

/-- Reads one parameter. After a value that is too long, its tag and length have been passed. -/
def read : Reader Parameter
  | t :: t' :: l :: l' :: rest =>
    let tag := Octets.word16 t t'
    let length := (Octets.word16 l l').toNat
    let value := rest.take length
    if value.length < length then .error (.parameterOverflow tag length rest.length) rest
    else .ok ⟨tag, value⟩ (rest.drop length)
  | short => .error (.truncatedParameter short.length) short

/-- A parameter that was read leaves less than there was. -/
theorem length_lt_of_read {bs left : Octets} {p : Parameter} (h : read bs = .ok p left) :
    left.length < bs.length := by
  unfold read at h
  split at h
  · dsimp only at h
    split at h
    · cases h
    · cases h
      simp only [List.length_drop, List.length_cons]
      omega
  · cases h

end Parameter

/-- A map from tags to values in the order in which the tags came. -/
structure Parameters where
  entries : List Parameter
  distinct : (entries.map Parameter.tag).Nodup
  deriving DecidableEq, Repr

namespace Parameters

/-- No parameters. -/
def empty : Parameters := ⟨[], List.nodup_nil⟩

/-- The tags in order. -/
def tags (m : Parameters) : List UInt16 := m.entries.map Parameter.tag

/-- The value of a tag. -/
def get? (m : Parameters) (tag : UInt16) : Option Octets :=
  (m.entries.find? (·.tag == tag)).map Parameter.value

/-- Whether a tag has a value. -/
def contains (m : Parameters) (tag : UInt16) : Bool := (m.get? tag).isSome

/-- The entries with the value of a tag replaced, or with the tag at the end if it is new. -/
def put (tag : UInt16) (value : Octets) : List Parameter → List Parameter
  | [] => [⟨tag, value⟩]
  | p :: ps => if p.tag = tag then ⟨tag, value⟩ :: ps else p :: put tag value ps

/-- The tags after a value was put: those before, with a new one at the end. -/
theorem map_tag_put (tag : UInt16) (value : Octets) (ps : List Parameter) :
    (put tag value ps).map Parameter.tag =
      if tag ∈ ps.map Parameter.tag then ps.map Parameter.tag
      else ps.map Parameter.tag ++ [tag] := by
  induction ps with
  | nil => rfl
  | cons p ps ih =>
    by_cases h : p.tag = tag
    · simp [put, h]
    · have h' : tag ≠ p.tag := fun e => h e.symm
      simp only [put, h, if_false, List.map_cons, ih, List.mem_cons, h', false_or]
      split <;> rfl

/-- Gives a tag a value. -/
def insert (m : Parameters) (tag : UInt16) (value : Octets) : Parameters where
  entries := put tag value m.entries
  distinct := by
    rw [map_tag_put]
    split
    · exact m.distinct
    · rename_i h
      refine List.nodup_append.2 ⟨m.distinct, by simp, ?_⟩
      intro a ha b hb
      rw [List.mem_singleton.1 hb]
      rintro rfl
      exact h ha

/-- Takes a tag out. -/
def erase (m : Parameters) (tag : UInt16) : Parameters where
  entries := m.entries.filter (·.tag != tag)
  distinct := m.distinct.sublist (List.filter_sublist.map _)

/-- Gives a tag a value of one octet. -/
def insertOctet (m : Parameters) (tag : UInt16) (value : UInt8) : Parameters :=
  m.insert tag [value]

/-- Gives a tag a value of two octets. -/
def insertWord (m : Parameters) (tag : UInt16) (value : UInt16) : Parameters :=
  m.insert tag (Octets.ofWord16 value)

/-- The map that inserting some parameters one after another gives. -/
def ofList (ps : List Parameter) : Parameters :=
  ps.foldl (fun m p => m.insert p.tag p.value) empty

/-- The number of parameters. -/
def size (m : Parameters) : Nat := m.entries.length

/-- The number of octets of the written form. -/
def encodedSize (m : Parameters) : Nat := m.entries.foldr (fun p n => p.size + n) 0

/-- The written form of the parameters up to the first that has none, and the fault of that one. -/
def written : List Parameter → Octets × Option WireError
  | [] => ([], none)
  | p :: ps =>
    match p.encode with
    | .error e => ([], some e)
    | .ok bs =>
      let (rest, fault) := written ps
      (bs ++ rest, fault)

/-- The written form: the parameters in order. -/
def encode (m : Parameters) : Except WireError Octets :=
  match written m.entries with
  | (bs, none) => .ok bs
  | (_, some e) => .error e

/-- Writes some parameters one after another. -/
def writeAll : List Parameter → Writer Unit
  | [] => pure ()
  | p :: ps => do
    p.write
    writeAll ps

/-- Writes the parameters in order. -/
def write (m : Parameters) : Writer Unit := writeAll m.entries

/-- Reads parameters until nothing is left, and inserts them in the order in which they come. -/
def readInto (m : Parameters) (bs : Octets) : EStateM.Result WireError Octets Parameters :=
  match bs with
  | [] => .ok m []
  | b :: bs =>
    match _h : Parameter.read (b :: bs) with
    | .error e left => .error e left
    | .ok p left => readInto (m.insert p.tag p.value) left
  termination_by bs.length
  decreasing_by exact Parameter.length_lt_of_read _h

/-- Reads parameters until nothing is left. -/
def read : Reader Parameters := readInto empty

/-! ### Parameters with a meaning -/

/-- The message identifier that a receipt is about. -/
def receiptedMessageIdTag : UInt16 := 0x001E
/-- A number that the client gave a message. -/
def userMessageReferenceTag : UInt16 := 0x0204
/-- The port that a message comes from. -/
def sourcePortTag : UInt16 := 0x020A
/-- The port that a message goes to. -/
def destinationPortTag : UInt16 := 0x020B
/-- The number that the parts of one message share. -/
def sarMsgRefNumTag : UInt16 := 0x020C
/-- How many parts a message has. -/
def sarTotalSegmentsTag : UInt16 := 0x020E
/-- Which part of a message this is. -/
def sarSegmentSeqnumTag : UInt16 := 0x020F
/-- The version of the protocol that the server speaks. -/
def scInterfaceVersionTag : UInt16 := 0x0210
/-- A message that is too long for its mandatory field. -/
def messagePayloadTag : UInt16 := 0x0424

/-- The value of a tag, if it is one octet. -/
def octet? (m : Parameters) (tag : UInt16) : Option UInt8 :=
  match m.get? tag with
  | some [b] => some b
  | _ => none

/-- The value of a tag, if it is two octets. -/
def word? (m : Parameters) (tag : UInt16) : Option UInt16 :=
  match m.get? tag with
  | some [a, b] => some (Octets.word16 a b)
  | _ => none

/-- The value of a tag up to its first zero octet, if that is text. -/
def text? (m : Parameters) (tag : UInt16) : Option String :=
  (m.get? tag).bind fun value => (Utf8.decode (value.takeWhile Field.isText)).toOption

/-- A message that is too long for its mandatory field. -/
def messagePayload? (m : Parameters) : Option Octets := m.get? messagePayloadTag

end Parameters

end Smpp
