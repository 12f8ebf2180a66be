import Smpp.Pdu.Bind
import Smpp.Pdu.Submit
import Smpp.Time

/-!
# Calls to a backend

A gateway leaves two decisions to a backend: whether a client may bind, and what becomes of a
message. This module holds what a backend is asked and what it may answer. Every refusal has a
status, with which the client hears of it.
-/

namespace Smpp

/-- What a backend is asked to decide a bind by. -/
structure Credentials where
  systemId : String
  password : String
  systemType : String
  version : ProtocolVersion
  deriving DecidableEq, Repr

/-- The credentials in a bind. -/
def Bind.credentials (b : Bind) : Credentials := ⟨b.systemId, b.password, b.systemType, b.version⟩

/-- A message on its way to a backend. -/
structure Submission where
  /-- The client that the session is bound as. -/
  systemId : String
  source : Address
  destination : Address
  /-- The text to deliver. -/
  message : Octets
  serviceType : String
  esmClass : UInt8
  protocolId : UInt8
  priority : Priority
  scheduledTime : String
  validityPeriod : String
  registeredDelivery : UInt8
  dataCoding : UInt8
  parameters : Parameters
  deriving DecidableEq, Repr

/-- The message that a client submits. -/
def Submit.submission (s : Submit) (systemId : String) : Submission where
  systemId := systemId
  source := s.source
  destination := s.destination
  message := s.message
  serviceType := s.serviceType
  esmClass := s.esmClass
  protocolId := s.protocolId
  priority := s.priority
  scheduledTime := s.scheduledTime
  validityPeriod := s.validityPeriod
  registeredDelivery := s.registeredDelivery
  dataCoding := s.dataCoding
  parameters := s.parameters

/-- Why a client may not bind. -/
inductive AuthError where
  | invalidCredentials
  | invalidPassword
  | invalidSystemId
  | unavailable (detail : String)
  /-- There was no answer for so long. -/
  | timedOut (after : Span)
  deriving DecidableEq, Repr

namespace AuthError

/-- The words for why a client may not bind. -/
def message : AuthError → String
  | invalidCredentials => "invalid credentials"
  | invalidPassword => "invalid password"
  | invalidSystemId => "unknown system_id"
  | unavailable detail => "authentication unavailable: " ++ detail
  | timedOut after => "authentication timed out after " ++ Span.text after

/-- The status with which a client hears that it may not bind. -/
def status : AuthError → CommandStatus
  | invalidCredentials => .bindFailed
  | invalidPassword => .invalidPassword
  | invalidSystemId => .invalidSystemId
  | unavailable _ | timedOut _ => .systemError

end AuthError

/-- Why a message is not accepted. -/
inductive SubmitError where
  | invalidSourceAddress
  | invalidDestinationAddress
  | throttled
  | queueFull
  | rejected (detail : String)
  | unavailable (detail : String)
  deriving DecidableEq, Repr

namespace SubmitError

/-- The words for why a message is not accepted. -/
def message : SubmitError → String
  | invalidSourceAddress => "invalid source address"
  | invalidDestinationAddress => "invalid destination address"
  | throttled => "throttled"
  | queueFull => "message queue full"
  | rejected detail => "rejected: " ++ detail
  | unavailable detail => "submission unavailable: " ++ detail

/-- The status with which a client hears that its message is not accepted. -/
def status : SubmitError → CommandStatus
  | invalidSourceAddress => .invalidSourceAddress
  | invalidDestinationAddress => .invalidDestinationAddress
  | throttled => .throttled
  | queueFull => .messageQueueFull
  | rejected _ => .submitFailed
  | unavailable _ => .systemError

end SubmitError

/-- A decision about a bind. -/
abbrev AuthResult := Except AuthError Unit

/-- A decision about a message: its identifier, or why it is not accepted. -/
abbrev SubmitResult := Except SubmitError String

/-- When a backend answers a call. -/
inductive Delay where
  /-- As soon as it is asked. -/
  | atOnce
  /-- A span after it was asked. -/
  | after (span : Span)
  /-- Not at all. -/
  | never
  deriving DecidableEq, Repr

namespace Delay

/-- The instant of the answer to a call that is made now. -/
def instant? (now : Instant) : Delay → Option Instant
  | atOnce => some now
  | after span => some (now + span)
  | never => none

end Delay

/-- What a backend answers, and when. -/
structure Answer (α : Type) where
  delay : Delay
  result : α
  deriving DecidableEq, Repr

/-- When a call for an authentication is over, and with what result: it has failed if it is not
answered within the limit for a call, and an answer at the very end of the limit counts. -/
def Answer.await (a : Answer AuthResult) (now : Instant) (limit : Span) : Instant × AuthResult :=
  match a.delay.instant? now with
  | some t => if t ≤ now + limit then (t, a.result) else (now + limit, .error (.timedOut limit))
  | none => (now + limit, .error (.timedOut limit))

end Smpp
