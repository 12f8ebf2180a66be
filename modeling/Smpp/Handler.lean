import Smpp.Connection
import Smpp.Session.Engagement

/-!
# Serving a connection

A handler owns one connection and its session from the moment the connection is accepted until it is
closed. It is a machine that is told what happens: octets arrive, the client stops, a call is
answered, the clock shows an instant, the worker cancels it. What it does in return are effects:
octets to write, calls to make, the end of the connection.

A handler that has several things to do does them in a fixed order: it obeys a cancellation first,
then takes the results of its calls, then reads frames, and looks at its timers last. While it waits
for an authentication it does none of them.

How long an effect takes is not said here. A socket that has no room for what is written to it makes
the handler wait as well, and that too is left to those who carry out the effects: what a handler
does, and in which order, does not depend on it.
-/

namespace Smpp

/-- Why a connection was closed. -/
inductive CloseReason where
  /-- The client unbound. -/
  | unbound
  /-- The client closed the connection between two frames. -/
  | peerClosed
  /-- Too many binds failed. -/
  | bindAttemptsExceeded
  /-- The client was silent for too long. -/
  | idleTimeout
  /-- The client sent a length that cannot be. -/
  | protocolError
  /-- The client is gone. -/
  | transportError
  /-- The worker cancelled the connection. -/
  | shutdown
  deriving DecidableEq, Repr

/-- The name of a reason. -/
def CloseReason.name : CloseReason → String
  | unbound => "Unbound"
  | peerClosed => "PeerClosed"
  | bindAttemptsExceeded => "BindAttemptsExceeded"
  | idleTimeout => "IdleTimeout"
  | protocolError => "ProtocolError"
  | transportError => "TransportError"
  | shutdown => "Shutdown"

/-- What a handler is doing. -/
inductive Stage where
  /-- It serves its client. -/
  | serving
  /-- It waits for the authentication of a bind. -/
  | authenticating (sequence : UInt32) (bind : Bind)
  /-- It has closed the connection. -/
  | ended (reason : CloseReason)
  deriving DecidableEq, Repr

/-- What a handler does to the world. -/
inductive Effect where
  /-- Octets are sent to the client, however long that takes. -/
  | write (bs : Octets)
  /-- Octets are sent to a client that is about to be cut off, if it takes them in time. -/
  | farewell (bs : Octets)
  /-- A message is handed to the backend as the call with a number. -/
  | submit (call : Nat) (submission : Submission)
  /-- The backend is asked about a bind. -/
  | authenticate (credentials : Credentials)
  /-- The connection is closed. -/
  | close
  deriving DecidableEq, Repr

/-- One connection and its session. -/
structure Handler where
  connection : Connection
  engagement : Engagement
  cancelled : Bool := false
  stage : Stage := .serving

namespace Handler

/-- A handler for a connection that is accepted now. -/
def start (config : Config) (now : Instant) : Handler where
  connection := { largest := config.maxPduSize }
  engagement := .start config now

/-- Why the connection was closed, if it was. -/
def reason? (h : Handler) : Option CloseReason :=
  match h.stage with
  | .ended reason => some reason
  | .serving | .authenticating .. => none

/-- Whether the handler serves its client. -/
def isServing (h : Handler) : Bool := h.stage == .serving

/-- The octets that are sent for a frame. A frame that has none is replaced by a negative
acknowledgement, so that its number is answered all the same. -/
def octetsFor (f : Frame) : Octets :=
  match f.encode with
  | .ok bs => bs
  | .error _ =>
    match (Frame.nack .unknownError f.sequence).encode with
    | .ok bs => bs
    | .error _ => []

/-- Closes the connection. -/
def finish (h : Handler) (reason : CloseReason) : Handler × List Effect :=
  let session := h.engagement.session.close
  ({ h with engagement := { h.engagement with session }, stage := .ended reason }, [.close])

/-- Sends a frame; a client that is gone ends the handler. -/
def send (h : Handler) (f : Frame) : Handler × List Effect :=
  if h.connection.ending == .reset then h.finish .transportError
  else (h, [.write (octetsFor f)])

/-- Sends frames one after another, until one ends the handler. -/
def sendAll (h : Handler) : List Frame → Handler × List Effect
  | [] => (h, [])
  | f :: fs =>
    let (h, effects) := h.send f
    if h.isServing then
      let (h, more) := h.sendAll fs
      (h, effects ++ more)
    else (h, effects)

/-- Goes on with another step, unless the handler has ended. -/
def andThen (r : Handler × List Effect) (f : Handler → Handler × List Effect) :
    Handler × List Effect :=
  if r.1.isServing then
    let (h, more) := f r.1
    (h, r.2 ++ more)
  else r

/-- How long a client may take for the request to end. -/
def farewellPatience : Span := Span.ofSeconds 1

/-- Asks a bound client to end the session, and closes the connection. -/
def unbindAndFinish (h : Handler) (reason : CloseReason) : Handler × List Effect :=
  let (session, frame) := h.engagement.session.shutdownFrame
  let (ended, effects) := { h with engagement := { h.engagement with session } }.finish reason
  match frame with
  | none => (ended, effects)
  | some f =>
    if h.connection.ending == .reset then (ended, effects)
    else (ended, .farewell (octetsFor f) :: effects)

/-- Carries out what a frame calls for. -/
def carryOut (h : Handler) : Reaction → Handler × List Effect
  | .reply f => h.send f
  | .replyAndClose f =>
    andThen (h.send f) fun h =>
      h.finish (if h.engagement.session.systemId?.isSome then .unbound else .bindAttemptsExceeded)
  | .submit call submission => (h, [.submit call submission])
  | .authenticate n b => ({ h with stage := .authenticating n b }, [.authenticate b.credentials])
  | .ignore => (h, [])

/-- Deals with what reading a frame came to. -/
def onRead (h : Handler) (now : Instant) : ReadResult → Handler × List Effect
  | .frame f =>
    let (engagement, reaction) := h.engagement.receive now f
    { h with engagement }.carryOut reaction
  | .pending => (h, [])
  | .closed => h.finish .peerClosed
  | .error (.malformed _ n cause) => h.send (.nack cause.status n)
  | .error (.framing (some n) cause) =>
    andThen (h.send (.nack cause.status n)) fun h => h.finish .protocolError
  | .error (.framing none _) => h.finish .protocolError
  | .error (.encode _) | .error .reset | .error (.io _) => h.finish .transportError

/-- The first thing that there is to do without looking at the clock. -/
def turn (h : Handler) (now : Instant) : Option (Handler × List Effect) :=
  match h.stage with
  | .ended _ | .authenticating .. => none
  | .serving =>
    if h.cancelled then some (h.unbindAndFinish .shutdown)
    else
      match h.engagement.completeNext with
      | some (engagement, _, answer) =>
        let h := { h with engagement }
        some (match answer with
          | some f => h.send f
          | none => (h, []))
      | none =>
        match h.connection.read with
        | (_, .pending) => none
        | (connection, result) => some ({ h with connection }.onRead now result)

/-- Looks at the timers: overdue messages are given up, then a silent client is cut off, then a
quiet one is probed. -/
def tick (h : Handler) (now : Instant) : Handler × List Effect :=
  if !h.isServing || now < h.engagement.session.nextWakeup then (h, [])
  else
    let (session, overdue) := h.engagement.session.expire now
    andThen ({ h with engagement := { h.engagement with session } }.sendAll overdue) fun h =>
      if h.engagement.session.isIdle now then h.unbindAndFinish .idleTimeout
      else
        let (session, probe) := h.engagement.session.keepalive now
        let h := { h with engagement := { h.engagement with session } }
        match probe with
        | some f => h.send f
        | none => (h, [])

/-! ### What a handler is told -/

/-- Octets arrive. -/
def receive (h : Handler) (bs : Octets) : Handler :=
  { h with connection := h.connection.receive bs }

/-- The client stops sending, or is gone. -/
def endStream (h : Handler) (ending : Ending) : Handler :=
  { h with connection := { h.connection with ending } }

/-- The worker cancels the connection. -/
def cancel (h : Handler) : Handler := { h with cancelled := true }

/-- A call is answered. -/
def answer (h : Handler) (call : Nat) (result : SubmitResult) : Handler :=
  { h with engagement := { h.engagement with calls := h.engagement.calls.finish call result } }

/-- An authentication is answered. -/
def authenticated (h : Handler) (now : Instant) (result : AuthResult) : Handler × List Effect :=
  match h.stage with
  | .authenticating n b =>
    let (engagement, reaction) := h.engagement.conclude now n b result
    { h with engagement, stage := .serving }.carryOut reaction
  | .serving | .ended _ => (h, [])

end Handler

end Smpp
