import Smpp.Config
import Smpp.Control

/-!
# What stops a gateway

Faults of a session are answered on the wire and stop nothing. What stops a process is listed here.
-/

namespace Smpp

/-- What stops a process of the gateway. -/
inductive GatewayError where
  | config (cause : ConfigError)
  /-- The address cannot be listened on. -/
  | bind (address : SocketAddress) (cause : String)
  /-- There is no backend. -/
  | backend (cause : String)
  /-- Clients cannot be accepted. -/
  | accept (cause : String)
  /-- A worker did not come up. -/
  | workerStartup (index : Nat) (reason : String)
  | control (cause : ControlError)
  /-- The system refused something, in its own words. -/
  | io (text : String)
  deriving DecidableEq, Repr

/-- The name of a kind of stop. -/
def GatewayError.name : GatewayError → String
  | config _ => "Config"
  | bind .. => "Bind"
  | backend _ => "Backend"
  | accept _ => "Accept"
  | workerStartup .. => "WorkerStartup"
  | control _ => "Control"
  | io _ => "Io"

/-- The words for what stops a process. -/
def GatewayError.message : GatewayError → String
  | config cause => "invalid configuration: " ++ cause.message
  | bind address cause => "failed to listen on " ++ address.text ++ ": " ++ cause
  | backend cause => "backend construction failed: " ++ cause
  | accept cause => "accept loop failed: " ++ cause
  | workerStartup index reason =>
    "worker " ++ Numeral.decimal index ++ " failed to start: " ++ reason
  | control cause => "control channel: " ++ cause.message
  | io text => text

end Smpp
