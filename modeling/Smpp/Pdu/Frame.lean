import Smpp.Pdu.Header
import Smpp.Pdu.Message

/-!
# Frames

A frame is a header and a body. Its command is one that has a meaning, and then the frame holds a
message; or it is not, and the frame is kept as it came, so that it can be answered and counted.

`Frame.encode` gives the octets of a frame, and the length in its header is that of header and body.
`Frame.write` puts them behind other octets field by field, with the length last.
`Frame.check` says whether octets start with a whole frame: the length is judged as soon as its four
octets are there, so an impossible one is a fault even if the rest never comes. `Frame.checkAt` asks
the same of octets at a place within them. `Frame.decode` reads the first frame and looks at nothing
after it.
-/

namespace Smpp

/-- One frame of the protocol. -/
inductive Frame where
  /-- A message with the status and the sequence number of its header. -/
  | known (status : CommandStatus) (sequence : UInt32) (message : Message)
  /-- A frame of a command whose body is not read. -/
  | unknown (command status sequence : UInt32) (body : Octets)
  deriving DecidableEq, Repr

namespace Frame

/-! ### Frames that a server sends -/

/-- A probe. -/
def enquireLink (sequence : UInt32) : Frame := .known .ok sequence .enquireLink
/-- The answer to a probe. -/
def enquireLinkResp (sequence : UInt32) : Frame := .known .ok sequence .enquireLinkResp
/-- The request to end a session. -/
def unbind (sequence : UInt32) : Frame := .known .ok sequence .unbind
/-- The answer to the request to end a session. -/
def unbindResp (status : CommandStatus) (sequence : UInt32) : Frame :=
  .known status sequence .unbindResp
/-- The answer to a frame that cannot be acted upon. -/
def nack (status : CommandStatus) (sequence : UInt32) : Frame := .known status sequence .genericNack
/-- The answer to a bind that succeeded. -/
def bindAccepted (role : BindRole) (sequence : UInt32) (systemId : String) : Frame :=
  .known .ok sequence (.bindResp (.accepted role systemId))
/-- The answer to a bind that failed. -/
def bindRefused (role : BindRole) (sequence : UInt32) (status : CommandStatus) : Frame :=
  .known status sequence (.bindResp (.refused role))
/-- The answer to a submit that was accepted. -/
def submitAccepted (sequence : UInt32) (messageId : String) : Frame :=
  .known .ok sequence (.submitResp messageId)
/-- The answer to a submit that failed. -/
def submitRefused (sequence : UInt32) (status : CommandStatus) : Frame :=
  .known status sequence (.submitResp "")

/-! ### What a header says -/

/-- The command of a frame as a word. -/
def command : Frame → UInt32
  | known _ _ m => m.command.code
  | unknown c _ _ _ => c

/-- The status of a frame as a word. -/
def status : Frame → UInt32
  | known s _ _ => s.code
  | unknown _ s _ _ => s

/-- The sequence number of a frame. -/
def sequence : Frame → UInt32
  | known _ n _ => n
  | unknown _ _ n _ => n

/-- Whether a frame answers another. -/
def isResponse (f : Frame) : Bool := isResponseCode f.command

/-- The name of a frame. -/
def name : Frame → String
  | known _ _ m => m.name
  | unknown .. => "unknown"

/-! ### Writing -/

/-- The octets of a body. -/
def body : Frame → Except WireError Octets
  | known s _ m => m.encode s
  | unknown _ _ _ bs => .ok bs

/-- The octets of a frame. The length is that of header and body together. -/
def encode (f : Frame) : Except WireError Octets := do
  let body ← f.body
  let words : HeaderWords :=
    ⟨UInt32.ofNat (headerSize + body.length), f.command, f.status, f.sequence⟩
  return words.encode ++ body

/-- Puts the length of what was written from a place on into its first four octets. -/
def fillLength (place : Nat) (written : Octets) : Octets :=
  written.take place ++ Octets.ofWord32 (UInt32.ofNat (written.length - place)) ++
    written.drop (place + 4)

/-- Writes a frame behind what is there. A message gets a header without a length first, then its
body, and then the length that came out; if the body fails, what was written of it and the header
are taken back. A body that is kept as it came is written with its length at once. -/
def write : Frame → Writer Unit
  | known status sequence m => fun buffer =>
    let header : HeaderWords := ⟨0, m.command.code, status.code, sequence⟩
    match m.write status (buffer ++ header.encode) with
    | .ok () written => .ok () (fillLength buffer.length written)
    | .error e written => .error e (written.take buffer.length)
  | unknown command status sequence body => do
    let header : HeaderWords :=
      ⟨UInt32.ofNat (headerSize + body.length), command, status, sequence⟩
    Writer.put header.encode
    Writer.put body

/-- What octets become when a frame is written behind them, and whether it was. -/
def encodeAfter (buffer : Octets) (f : Frame) : Octets × Except WireError Unit :=
  match f.write buffer with
  | .ok () written => (written, .ok ())
  | .error e written => (written, .error e)

/-! ### Reading -/

/-- The length that the first four octets state. -/
def statedLength : Octets → Option Nat
  | a :: b :: c :: d :: _ => some (Octets.word32 a b c d).toNat
  | _ => none

/-- The length of the whole frame that octets start with. -/
def check (largest : Nat) (bs : Octets) : Except WireError Nat :=
  match statedLength bs with
  | none => .error .incomplete
  | some length => do
    checkLength largest length
    if (bs.take length).length < length then throw .incomplete
    return length

/-- Judges the octets from a place on. The length that stands there is looked at, and the cursor
goes back to where it was. -/
def checkAt (largest : Nat) (c : Cursor) : Cursor × Except WireError Nat :=
  match c.word32? with
  | none => (c, .error .incomplete)
  | some (length, behind) =>
    let back := { behind with place := c.place }
    (back, do
      checkLength largest length.toNat
      if back.rest.length < headerSize ∨ back.rest.length < length.toNat then throw .incomplete
      return length.toNat)

/-- **A whole frame is there exactly if its length is stated, covers a header, is not too large and
has as many octets.** -/
theorem check_eq_ok_iff {largest length : Nat} {bs : Octets} :
    check largest bs = .ok length ↔
      statedLength bs = some length ∧ headerSize ≤ length ∧ length ≤ largest ∧
        length ≤ bs.length := by
  unfold check
  cases hstated : statedLength bs with
  | none => simp
  | some stated =>
    unfold checkLength
    by_cases hbounds : headerSize ≤ stated ∧ stated ≤ largest
    -- Whether the octets are there is asked of as many as are taken, not of all that there are.
    · by_cases hshort : (bs.take stated).length < stated
      · simp only [hbounds, and_self, if_true, hshort, bind, Except.bind, throw, throwThe,
          MonadExceptOf.throw, Option.some.injEq]
        rw [List.length_take] at hshort
        refine ⟨fun h => (nomatch h), ?_⟩
        rintro ⟨rfl, -, -, hlength⟩
        omega
      · simp only [hbounds, and_self, if_true, hshort, if_false, bind, Except.bind, pure,
          Except.pure, Except.ok.injEq, Option.some.injEq]
        rw [List.length_take] at hshort
        refine ⟨?_, And.left⟩
        rintro rfl
        exact ⟨rfl, hbounds.1, hbounds.2, by omega⟩
    · simp only [hbounds, if_false, bind, Except.bind, Option.some.injEq]
      refine ⟨fun h => (nomatch h), ?_⟩
      rintro ⟨rfl, hmin, hmax, -⟩
      exact absurd ⟨hmin, hmax⟩ hbounds

/-- Reads the body that follows a header. A reserved command's body is kept as it is. -/
def readBody (h : Header) : Reader Frame := fun bs =>
  match Message.Kind.ofCommand? h.command with
  | none => .ok (.unknown h.command.code h.status.code h.sequence bs) []
  | some kind =>
    match kind.read h.command bs with
    | .ok m left => .ok (.known h.status h.sequence m) left
    | .error e left => .error e left

/-- Reads octets that are exactly one frame. A command that has no meaning is kept as it came, and
so is its status. -/
def ofOctets (largest : Nat) (frame : Octets) : Except WireError Frame :=
  match HeaderWords.read frame with
  | none => .error .incomplete
  | some (w, body) =>
    match w.judge largest with
    | .error (.unknownCommand _) => .ok (.unknown w.command w.status w.sequence body)
    | .error e => .error e
    | .ok h =>
      match readBody h body with
      | .ok f _ => .ok f
      | .error e _ => .error e

/-- Reads the first frame of some octets and says how many it takes up. -/
def decode (largest : Nat) (bs : Octets) : Except WireError (Frame × Nat) := do
  let length ← check largest bs
  let f ← ofOctets largest (bs.take length)
  return (f, length)

/-- Reads the first frame of some octets. -/
def parse (largest : Nat) (bs : Octets) : Except WireError Frame :=
  (decode largest bs).map Prod.fst

/-- Reads frames one after another until the octets are used up or one is refused: the place and
length of each frame, and the place and the fault where reading stopped. -/
def decodeAll (largest : Nat) (place : Nat) (bs : Octets) :
    List (Nat × Nat × Frame) × Option (Nat × WireError) :=
  match bs with
  | [] => ([], none)
  | b :: bs =>
    match decode largest (b :: bs) with
    | .error e => ([], some (place, e))
    | .ok (_, 0) => ([], none)
    | .ok (f, n + 1) =>
      let (frames, stop) := decodeAll largest (place + (n + 1)) (bs.drop n)
      ((place, n + 1, f) :: frames, stop)
  termination_by bs.length
  decreasing_by
    simp only [List.length_drop, List.length_cons]
    omega

end Frame

end Smpp
