import Smpp.Pdu.WireError

/-!
# Headers

Every frame starts with sixteen octets: its length, a command, a status and a sequence number, four
octets each. `HeaderWords.read` takes them as they are and `HeaderWords.judge` says what they mean;
the length is judged first, then the command, then the status.
-/

namespace Smpp

/-- The number of octets of a header. -/
def headerSize : Nat := 16

/-- The four words of a header. -/
structure HeaderWords where
  length : UInt32
  command : UInt32
  status : UInt32
  sequence : UInt32
  deriving DecidableEq, Repr

/-- A header whose words have a meaning. -/
structure Header where
  length : UInt32
  command : CommandId
  status : CommandStatus
  sequence : UInt32
  deriving DecidableEq, Repr

/-- The length of a frame covers at least its header and at most a given size. -/
def checkLength (largest length : Nat) : Except WireError Unit :=
  if headerSize ≤ length ∧ length ≤ largest then .ok ()
  else .error (.invalidLength length headerSize largest)

namespace HeaderWords

/-- The written form of four words. -/
def encode (w : HeaderWords) : Octets :=
  Octets.ofWord32 w.length ++ Octets.ofWord32 w.command ++ Octets.ofWord32 w.status ++
    Octets.ofWord32 w.sequence

/-- The four words at the front of octets, and the octets after them. -/
def read : Octets → Option (HeaderWords × Octets)
  | a :: b :: c :: d :: e :: f :: g :: h :: i :: j :: k :: l :: m :: n :: o :: p :: rest =>
    some (⟨Octets.word32 a b c d, Octets.word32 e f g h, Octets.word32 i j k l,
      Octets.word32 m n o p⟩, rest)
  | _ => none

/-- The header that four words stand for. -/
def judge (largest : Nat) (w : HeaderWords) : Except WireError Header := do
  checkLength largest w.length.toNat
  match CommandId.ofCode? w.command with
  | none => throw (.unknownCommand w.command)
  | some command =>
    match CommandStatus.ofCode? w.status with
    | none => throw (.invalidStatus w.status)
    | some status => return ⟨w.length, command, status, w.sequence⟩

@[simp] theorem length_encode (w : HeaderWords) : w.encode.length = headerSize := rfl

/-- Written words read back as themselves, whatever follows them. -/
@[simp] theorem read_encode_append (w : HeaderWords) (rest : Octets) :
    read (w.encode ++ rest) = some (w, rest) := by
  simp [encode, read, Octets.ofWord32]

end HeaderWords

namespace Header

/-- The words of a header. -/
def words (h : Header) : HeaderWords := ⟨h.length, h.command.code, h.status.code, h.sequence⟩

/-- The written form of a header. -/
def encode (h : Header) : Octets := h.words.encode

/-- Reads a header. Sixteen octets are passed even if they have no meaning, none if there are
fewer. -/
def read (largest : Nat) (bs : Octets) : EStateM.Result WireError Octets Header :=
  match HeaderWords.read bs with
  | none => .error .incomplete bs
  | some (w, rest) =>
    match w.judge largest with
    | .ok h => .ok h rest
    | .error e => .error e rest

end Header

/-- The sequence number in the header at the front of octets, if that much is there. -/
def peekSequence (bs : Octets) : Option UInt32 := (HeaderWords.read bs).map (·.1.sequence)

end Smpp
