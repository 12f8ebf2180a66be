import Smpp.Pdu.Frame

/-!
# The stream of a connection

A client's octets arrive in pieces that have nothing to do with frames. `Connection` keeps what has
arrived until a frame is whole; `Connection.read` takes the first frame off, or says why there is
none. A body that is malformed costs only its own frame, since its length is known. A length that
cannot be is the end: nothing tells where the next frame would start.
-/

namespace Smpp

/-- What goes wrong on a connection. -/
inductive ConnectionError where
  /-- A whole frame has been passed, and its octets are no frame. -/
  | malformed (command sequence : UInt32) (cause : WireError)
  /-- The stated length cannot be. The sequence number is known if the whole header is there. -/
  | framing (sequence : Option UInt32) (cause : WireError)
  /-- A frame to send has no octets. -/
  | encode (cause : WireError)
  /-- The client stopped in the middle of a frame. -/
  | reset
  /-- The transport failed, in its own words. -/
  | io (text : String)
  deriving DecidableEq, Repr

/-- The name of a kind of fault. -/
def ConnectionError.name : ConnectionError → String
  | malformed .. => "Malformed"
  | framing .. => "Framing"
  | encode _ => "Encode"
  | reset => "Reset"
  | io _ => "Io"

/-- The words for what went wrong. -/
def ConnectionError.message : ConnectionError → String
  | malformed command sequence cause =>
    "malformed PDU " ++ Numeral.hex 8 command.toNat ++ " (sequence " ++
      Numeral.decimal sequence.toNat ++ "): " ++ cause.message
  | framing _ cause => "framing error: " ++ cause.message
  | encode cause => "failed to encode outbound PDU: " ++ cause.message
  | reset => "connection reset by peer"
  | io text => text

/-- Whether a client still sends. -/
inductive Ending where
  /-- It does. -/
  | none
  /-- It said that nothing more comes. -/
  | eof
  /-- It is gone; what is written is lost. -/
  | reset
  deriving DecidableEq, Repr

/-- What is known of a client's stream. -/
structure Connection where
  /-- The length of the longest frame that is accepted. -/
  largest : Nat
  /-- The octets that have been read and not been used. -/
  buffer : Octets := []
  /-- The octets that have arrived and not been read. -/
  arrived : Octets := []
  ending : Ending := .none
  deriving DecidableEq, Repr

/-- The words of the transport for a client that is gone. -/
def resetText : String := "Connection reset by peer (os error 104)"

/-- What reading a frame comes to. -/
inductive ReadResult where
  | frame (f : Frame)
  /-- The stream ended between two frames. -/
  | closed
  /-- More octets are needed. -/
  | pending
  | error (e : ConnectionError)
  deriving DecidableEq, Repr

namespace Connection

/-- The number of octets that have not been used. -/
def size (c : Connection) : Nat := c.buffer.length + c.arrived.length

/-- Octets arrive, as many as one read of the socket delivers. -/
def receive (c : Connection) (bs : Octets) : Connection := { c with arrived := c.arrived ++ bs }

/-- Takes the first frame off the buffer, unless more octets are needed. -/
def take (c : Connection) : Option (Connection × ReadResult) :=
  match Frame.check c.largest c.buffer with
  | .error .incomplete => none
  | .error e => some (c, .error (.framing (peekSequence c.buffer) e))
  | .ok length =>
    let rest := { c with buffer := c.buffer.drop length }
    match Frame.ofOctets c.largest (c.buffer.take length) with
    | .ok f => some (rest, .frame f)
    | .error e =>
      match HeaderWords.read c.buffer with
      | some (w, _) => some (rest, .error (.malformed w.command w.sequence e))
      | none => some (rest, .error (.malformed 0 0 e))

/-- What there is to say when the buffer holds no whole frame. -/
def rest (c : Connection) : ReadResult :=
  match c.ending with
  | .none => .pending
  | .eof => if c.buffer.isEmpty then .closed else .error .reset
  | .reset => .error (.io resetText)

/-- Reads one frame. What has arrived is read only if the buffer holds no whole frame, and then all
of it: a read of the socket takes no more than the buffer has space for, and what it leaves is an
arrival of its own. -/
def read (c : Connection) : Connection × ReadResult :=
  match c.take with
  | some r => r
  | none =>
    let c := { c with buffer := c.buffer ++ c.arrived, arrived := [] }
    match c.take with
    | some r => r
    | none => (c, c.rest)

end Connection

end Smpp
