import Smpp.Pdu.Bind
import Smpp.Pdu.Header
import Smpp.Text.SocketAddress
import Smpp.Time

/-!
# Settings

What a gateway is told before it starts. `Config.validate` refuses settings with which it could not
run and names the first that is wrong; it asks of every limit and period that it is not zero, and of
the gateway's own name that it fits the field that it is sent in.
-/

namespace Smpp

/-- The settings of a gateway. -/
structure Config where
  /-- Where every worker listens. -/
  listenAddress : SocketAddress := .v4 ⟨0, 0, 0, 0⟩ 2775
  /-- How many worker processes there are. -/
  workerCount : Nat := 2
  /-- The name under which the gateway answers a bind. -/
  systemId : String := "smpp-gateway"
  /-- How long a session may be silent before it is closed. -/
  sessionTimeout : Span := Span.ofSeconds 300
  /-- How long a bound client may be silent before it is probed. -/
  enquireLinkInterval : Span := Span.ofSeconds 30
  /-- How long a call to the backend may take. -/
  backendCallTimeout : Span := Span.ofSeconds 5
  /-- The length of the longest frame that is accepted. -/
  maxPduSize : Nat := 65536
  /-- How many binds in a row may fail before a session is closed. -/
  maxBindAttempts : Nat := 3
  /-- How many submits of a session may be with the backend before further ones are refused. -/
  maxPendingSubmits : Nat := 64
  /-- How long a worker that drains waits for its sessions to end by themselves. -/
  drainGracePeriod : Span := Span.ofSeconds 10
  /-- How long the coordinator waits between two probes of a worker. -/
  healthInterval : Span := Span.ofSeconds 5
  deriving DecidableEq, Repr

/-- Why settings are refused. -/
inductive ConfigError where
  | noWorkers
  | maxPduSizeTooSmall (size : Nat)
  | systemIdTooLong (systemId : String)
  | zeroValue (setting : String)
  deriving DecidableEq, Repr

/-- The name of a kind of refusal. -/
def ConfigError.name : ConfigError → String
  | noWorkers => "NoWorkers"
  | maxPduSizeTooSmall _ => "MaxPduSizeTooSmall"
  | systemIdTooLong _ => "SystemIdTooLong"
  | zeroValue _ => "ZeroValue"

/-- The words for why settings are refused. -/
def ConfigError.message : ConfigError → String
  | noWorkers => "worker_count must be at least 1"
  | maxPduSizeTooSmall size =>
    "max_pdu_size " ++ Numeral.decimal size ++ " is smaller than the 16 byte PDU header"
  | systemIdTooLong systemId => "system_id '" ++ systemId ++ "' does not fit the 15 character limit"
  | zeroValue setting => setting ++ " must be greater than zero"

namespace Config

/-- The settings that may not be zero, in the order in which they are looked at. -/
def positives (c : Config) : List (String × Nat) :=
  [("max_bind_attempts", c.maxBindAttempts), ("max_pending_submits", c.maxPendingSubmits),
    ("session_timeout", c.sessionTimeout), ("enquire_link_interval", c.enquireLinkInterval),
    ("backend_call_timeout", c.backendCallTimeout), ("health_interval", c.healthInterval)]

/-- Whether a gateway can run with the settings, and if not, what is wrong first. -/
def validate (c : Config) : Except ConfigError Unit :=
  if c.workerCount = 0 then .error .noWorkers
  else if c.maxPduSize < headerSize then .error (.maxPduSizeTooSmall c.maxPduSize)
  else if systemIdLimit ≤ (Utf8.encode c.systemId).length then .error (.systemIdTooLong c.systemId)
  else
    match c.positives.find? (·.2 == 0) with
    | some (setting, _) => .error (.zeroValue setting)
    | none => .ok ()

end Config

end Smpp
