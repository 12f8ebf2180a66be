import Smpp.Backend.Call
import Smpp.Config
import Smpp.Pdu.Frame
import Smpp.Tracker

/-!
# Sessions

A session is what a gateway knows of one client. It is open until a bind succeeds, then bound in one
role under one name, and at last closed; there is no way back. Its state, the name of its client and
its count of failed binds are kept apart, and what they have to do with each other is up to the
course that it takes. Only a session that is bound in a role that may transmit takes messages, and
hands them to a backend with a deadline.

Nothing here reads a clock or waits. `Session.receive` says what a frame calls for; a bind calls for
an authentication, and `Session.conclude` takes its result. `Session.complete` takes the result of a
submit and `Session.expire` gives up on those that are overdue. `Session.nextWakeup` is the first
instant at which `expire`, `isIdle` or `keepalive` has something to say.
-/

namespace Smpp

/-- The states of a session. -/
inductive SessionState where
  | opened
  | bound (role : BindRole)
  | closed
  deriving DecidableEq, Repr

namespace SessionState

/-- Whether a client is bound. -/
def isBound : SessionState → Bool
  | bound _ => true
  | opened | closed => false

/-- Whether a client may submit messages. -/
def canTransmit : SessionState → Bool
  | bound role => role.canTransmit
  | opened | closed => false

/-- The name of a state. -/
def name : SessionState → String
  | opened => "Open"
  | bound .transmitter => "BoundTx"
  | bound .receiver => "BoundRx"
  | bound .transceiver => "BoundTrx"
  | closed => "Closed"

end SessionState

/-- What a gateway knows of one client. -/
structure Session where
  config : Config
  /-- When the client was last heard of. -/
  lastActivity : Instant
  state : SessionState := .opened
  /-- The name that the client bound under. -/
  systemId? : Option String := none
  /-- How many binds have failed since the session began. The count stops at the limit, so it is in
  range if the limit is. -/
  failedBinds : Nat := 0
  /-- When the client was last probed. -/
  lastProbe : Option Instant := none
  /-- The sequence number of the next request to the client. -/
  nextSequence : UInt32 := 1
  /-- The messages that the backend has not answered for. -/
  tracker : Tracker
  deriving DecidableEq, Repr

/-- What a frame calls for. -/
inductive Action where
  /-- Write a frame. -/
  | reply (f : Frame)
  /-- Write a frame, then close the connection. -/
  | replyAndClose (f : Frame)
  /-- Hand a message to the backend; the answer to the frame comes later. -/
  | submit (sequence : UInt32) (submission : Submission)
  /-- Ask the backend about a bind and go on when it has answered. -/
  | authenticate (sequence : UInt32) (bind : Bind)
  /-- Nothing. -/
  | ignore
  deriving DecidableEq, Repr

/-- What became of a message that was handed to the backend. -/
structure Completion where
  sequence : UInt32
  result : SubmitResult

namespace Session

/-- The largest sequence number of a request to a client. -/
def largestSequence : UInt32 := 0x7FFFFFFF

/-- A session that begins now. -/
def start (config : Config) (now : Instant) : Session where
  config := config
  lastActivity := now
  tracker := { timeout := config.backendCallTimeout }

/-- Ends a session. What is with the backend is forgotten. -/
def close (s : Session) : Session := { s with state := .closed, tracker := s.tracker.clear }

/-- Takes the next sequence number of a request to the client; after the largest comes one. -/
def takeSequence (s : Session) : Session × UInt32 :=
  ({ s with nextSequence := if largestSequence ≤ s.nextSequence then 1 else s.nextSequence + 1 },
    s.nextSequence)

/-- What a submitted message calls for. That a number is still pending is reported even to a client
that has too many messages with the backend. -/
def submit (s : Session) (now : Instant) (inFlight : Nat) (n : UInt32) (b : Submit) :
    Session × Action :=
  if !s.state.canTransmit then (s, .reply (.submitRefused n .invalidBindStatus))
  else if s.config.maxPendingSubmits ≤ inFlight ∧ !s.tracker.isPending n then
    (s, .reply (.submitRefused n .throttled))
  else
    match s.tracker.track n .submitSm now with
    | none => (s, .reply (.nack .unknownError n))
    | some (tracker, _) =>
      -- A session that may transmit has a name; nothing but its course says so.
      ({ s with tracker }, .submit n (b.submission (s.systemId?.getD "")))

/-- What a frame calls for in a session that is not closed. -/
def act (s : Session) (now : Instant) (inFlight : Nat) : Frame → Session × Action
  | .unknown _ _ n _ => (s, .reply (.nack .invalidCommandId n))
  | .known _ n (.bind b) =>
    if s.state.isBound then (s, .reply (.bindRefused b.role n .alreadyBound))
    else (s, .authenticate n b)
  | .known _ n .unbind =>
    if s.state.isBound then (s.close, .replyAndClose (.unbindResp .ok n))
    else (s, .reply (.unbindResp .invalidBindStatus n))
  | .known _ n (.submit b) => s.submit now inFlight n b
  | .known _ n .enquireLink => (s, .reply (.enquireLinkResp n))
  | .known _ _ (.bindResp _) | .known _ _ .unbindResp | .known _ _ (.submitResp _)
  | .known _ _ .enquireLinkResp | .known _ _ .genericNack => (s, .ignore)

/-- What a frame calls for, while `inFlight` messages of the session are with the backend. -/
def receive (s : Session) (now : Instant) (inFlight : Nat) (f : Frame) : Session × Action :=
  if s.state = .closed then (s, .ignore)
  else { s with lastActivity := now }.act now inFlight f

/-- Ends the authentication of a bind. The last failure that is allowed ends the session. -/
def conclude (s : Session) (now : Instant) (n : UInt32) (b : Bind) (result : AuthResult) :
    Session × Action :=
  let s := { s with lastActivity := now }
  match result with
  | .ok () =>
    ({ s with state := .bound b.role, systemId? := some b.systemId, failedBinds := 0 },
      .reply (.bindAccepted b.role n s.config.systemId))
  | .error e =>
    let s := { s with failedBinds := s.failedBinds + 1 }
    let response := Frame.bindRefused b.role n e.status
    if s.config.maxBindAttempts ≤ s.failedBinds then (s.close, .replyAndClose response)
    else (s, .reply response)

/-- Turns a result of the backend into the answer to the client. A result for a number that is not
pending is dropped. -/
def complete (s : Session) (c : Completion) : Session × Option Frame :=
  if s.state = .closed then (s, none)
  else
    match s.tracker.complete c.sequence with
    | (_, none) => (s, none)
    | (tracker, some request) =>
      ({ s with tracker },
        some (match c.result with
          | .ok messageId => .submitAccepted request.sequence messageId
          | .error e => .submitRefused request.sequence e.status))

/-- Gives up on the messages whose deadline has come, and answers each with an error. -/
def expire (s : Session) (now : Instant) : Session × List Frame :=
  let (tracker, overdue) := s.tracker.expire now
  ({ s with tracker }, overdue.map fun request => .submitRefused request.sequence .systemError)

/-- Whether the client has been silent for too long. -/
def isIdle (s : Session) (now : Instant) : Bool := s.lastActivity + s.config.sessionTimeout ≤ now

/-- When the next probe of a bound client is due: an interval after it was last heard of or
probed. -/
def keepaliveDue (s : Session) : Option Instant :=
  if s.state.isBound then
    some (max (s.lastProbe.getD s.lastActivity) s.lastActivity + s.config.enquireLinkInterval)
  else none

/-- The probe of a client, if it is due. -/
def keepalive (s : Session) (now : Instant) : Session × Option Frame :=
  match s.keepaliveDue with
  | none => (s, none)
  | some due =>
    if now < due then (s, none)
    else
      let (s, n) := s.takeSequence
      ({ s with lastProbe := some now }, some (.enquireLink n))

/-- The first instant at which there is something to do without the client. -/
def nextWakeup (s : Session) : Instant :=
  let idle := s.lastActivity + s.config.sessionTimeout
  let first := min idle (s.keepaliveDue.getD idle)
  min first (s.tracker.nextDeadline.getD first)

/-- The request to end the session that a bound client gets before it is cut off. -/
def shutdownFrame (s : Session) : Session × Option Frame :=
  if s.state.isBound then
    let (s, n) := s.takeSequence
    (s, some (.unbind n))
  else (s, none)

end Session

end Smpp
