import Smpp.Text.SocketAddress
import Smpp.Text.Words

/-!
# Control lines

A coordinator and a worker process talk in lines of text, one message a line. The coordinator tells
a worker to drain, to shut down, or to answer a probe; the worker says that it is ready, answers
probes, and says at the end how many sessions the shutdown cut off.

A line is read by its words alone. The first word names the message and fixes how many words follow
it; the words that follow are then judged from left to right.
-/

namespace Smpp

/-- What a coordinator tells a worker. -/
inductive ControlMessage where
  /-- Accept no more, let the sessions end within the grace period. -/
  | drain
  /-- Close every session now. -/
  | shutdown
  /-- Answer with the same nonce. -/
  | ping (nonce : UInt64)
  deriving DecidableEq, Repr

/-- What a worker tells its coordinator. -/
inductive WorkerStatus where
  /-- The worker listens. -/
  | ready (pid : UInt32) (address : SocketAddress)
  /-- The answer to a probe, with the number of sessions. -/
  | pong (nonce activeSessions : UInt64)
  /-- The worker ends; the shutdown cut off this many sessions. -/
  | shutdownAck (closedSessions : UInt64)
  deriving DecidableEq, Repr

/-- Why a line is no message. -/
inductive ControlError where
  /-- The line has no word. -/
  | empty
  /-- The first word names no message. -/
  | unknownMessage (word : String)
  /-- The message takes another number of arguments. -/
  | arity (message : String) (expected : Nat)
  /-- The word is no value of its argument. -/
  | invalidArgument (word : String)
  /-- The other side is gone. -/
  | closed
  deriving DecidableEq, Repr

/-- The name of a kind of fault. -/
def ControlError.name : ControlError → String
  | empty => "Empty"
  | unknownMessage _ => "UnknownMessage"
  | arity .. => "Arity"
  | invalidArgument _ => "InvalidArgument"
  | closed => "Closed"

/-- The words for why a line is no message. -/
def ControlError.message : ControlError → String
  | empty => "empty control line"
  | unknownMessage word => "unknown control message '" ++ word ++ "'"
  | arity m expected => "'" ++ m ++ "' expects " ++ Numeral.decimal expected ++ " argument(s)"
  | invalidArgument word => "invalid argument '" ++ word ++ "'"
  | closed => "control channel closed"

namespace Control

/-- Reads an argument that is a number of at most 32 bits. -/
def word32 (s : String) : Except ControlError UInt32 :=
  match Numeral.read 4294967295 s with
  | .ok n => .ok (UInt32.ofNat n)
  | .error _ => .error (.invalidArgument s)

/-- Reads an argument that is a number of at most 64 bits. -/
def word64 (s : String) : Except ControlError UInt64 :=
  match Numeral.read 18446744073709551615 s with
  | .ok n => .ok (UInt64.ofNat n)
  | .error _ => .error (.invalidArgument s)

/-- Reads an argument that is an address. -/
def address (s : String) : Except ControlError SocketAddress :=
  match SocketAddress.read s with
  | some a => .ok a
  | none => .error (.invalidArgument s)

end Control

namespace ControlMessage

/-- The line of a message. -/
def line : ControlMessage → String
  | drain => "drain"
  | shutdown => "shutdown"
  | ping nonce => "ping " ++ Numeral.decimal nonce.toNat

/-- The message of some words. -/
def ofWords : List String → Except ControlError ControlMessage
  | [] => .error .empty
  | ["drain"] => .ok drain
  | "drain" :: _ => .error (.arity "drain" 0)
  | ["shutdown"] => .ok shutdown
  | "shutdown" :: _ => .error (.arity "shutdown" 0)
  | ["ping", nonce] => do return ping (← Control.word64 nonce)
  | "ping" :: _ => .error (.arity "ping" 1)
  | word :: _ => .error (.unknownMessage word)

/-- The message of a line. -/
def read (line : String) : Except ControlError ControlMessage := ofWords (Text.words line)

end ControlMessage

namespace WorkerStatus

/-- The line of a status. -/
def line : WorkerStatus → String
  | ready pid address => "ready " ++ Numeral.decimal pid.toNat ++ " " ++ address.text
  | pong nonce activeSessions =>
    "pong " ++ Numeral.decimal nonce.toNat ++ " " ++ Numeral.decimal activeSessions.toNat
  | shutdownAck closedSessions => "shutdown-ack " ++ Numeral.decimal closedSessions.toNat

/-- The status of some words. -/
def ofWords : List String → Except ControlError WorkerStatus
  | [] => .error .empty
  | ["ready", pid, address] => do return ready (← Control.word32 pid) (← Control.address address)
  | "ready" :: _ => .error (.arity "ready" 2)
  | ["pong", nonce, activeSessions] => do
    return pong (← Control.word64 nonce) (← Control.word64 activeSessions)
  | "pong" :: _ => .error (.arity "pong" 2)
  | ["shutdown-ack", closedSessions] => do return shutdownAck (← Control.word64 closedSessions)
  | "shutdown-ack" :: _ => .error (.arity "shutdown-ack" 1)
  | word :: _ => .error (.unknownMessage word)

/-- The status of a line. -/
def read (line : String) : Except ControlError WorkerStatus := ofWords (Text.words line)

end WorkerStatus

end Smpp
