import Smpp.Control
import Smpp.GatewayError

/-!
# Supervisors

A supervisor keeps one slot filled with a worker process until the gateway stops. It starts a
process and waits until the process says that it is ready; from then on it watches it: it probes it
at fixed intervals, takes in what it says, and passes on that the gateway drains or shuts down. A
process that exits without having been told to is counted and, after a pause, replaced. A process
that cannot be started is tried again after the same pause, except the first one: if that one fails,
so does the gateway.

The supervisor is a machine that is told what happens and gives orders. While it waits for a process
to become ready it takes no notice of a gateway that stops.
-/

namespace Smpp

/-- Which stages of stopping a gateway has asked for. -/
structure Lifecycle where
  drain : Bool := false
  shutdown : Bool := false
  kill : Bool := false
  deriving DecidableEq, Repr

/-- What is last known of the worker in a slot. -/
structure WorkerHealth where
  /-- The process, while one is ready. -/
  pid : Option UInt32 := none
  /-- Where the last process that was ready listens. -/
  address : Option SocketAddress := none
  /-- When a process last answered a probe or became ready. -/
  lastPong : Option Instant := none
  /-- How many sessions the last answer named. -/
  activeSessions : Nat := 0
  /-- How many probes in a row have not been answered in time. -/
  missedPongs : Nat := 0
  /-- How many processes have exited without having been told to. -/
  restarts : Nat := 0
  deriving DecidableEq, Repr

/-- Whether a worker is there and has answered. -/
def WorkerHealth.isHealthy (h : WorkerHealth) : Bool := h.pid.isSome && h.missedPongs == 0

/-- What a supervisor knows of the process that it watches. -/
structure Watch where
  /-- When the next probe is due. -/
  nextPing : Instant
  /-- The nonce of the last probe. -/
  nonce : UInt64 := 0
  /-- The probe that has not been answered. -/
  awaiting : Option UInt64 := none
  /-- Whether the process has been told to drain. -/
  drainSent : Bool := false
  /-- Whether the process has been told to shut down. -/
  shutdownSent : Bool := false
  deriving DecidableEq, Repr

/-- How far a supervisor has come with its slot. -/
inductive SupervisorStage where
  /-- A process has been started and has to be ready by an instant. -/
  | starting (deadline : Instant)
  /-- A process is ready. -/
  | watching (watch : Watch)
  /-- There is no process, and the next one is started at an instant. -/
  | pausing (resume : Instant)
  /-- The slot stays empty. -/
  | ended
  deriving DecidableEq, Repr

/-- The keeper of one slot. -/
structure Supervisor where
  index : Nat
  healthInterval : Span
  health : WorkerHealth := {}
  /-- What became of the first start, once that is known. -/
  startup : Option (Except GatewayError Unit) := none
  stage : SupervisorStage

namespace Supervisor

/-- How long a process may take to become ready. -/
def startupTimeout : Span := Span.ofSeconds 10

/-- How long the slot of a process that is gone stays empty. -/
def restartBackoff : Span := Span.ofSeconds 1

/-- What a supervisor orders. -/
inductive Order where
  /-- Start a process. -/
  | spawn
  /-- Tell the process something. -/
  | tell (message : ControlMessage)
  /-- End the process at once. -/
  | kill
  deriving DecidableEq, Repr

/-- What happens to a supervisor. -/
inductive Event where
  /-- The system starts no process, and says why. -/
  | spawnFailed (reason : String)
  /-- The process says a line. -/
  | line (text : String)
  /-- The process says nothing any more, or what it says cannot be read, and then why. -/
  | silence (failure : Option String)
  /-- The process has exited. -/
  | exited
  /-- The clock shows a new instant. -/
  | clock
  /-- The supervisor looks whether the gateway kills its workers. -/
  | seeKill
  /-- The supervisor looks whether the gateway shuts down. -/
  | seeShutdown
  /-- The supervisor looks whether the gateway drains. -/
  | seeDrain
  deriving DecidableEq, Repr

/-- A supervisor that begins, and its first order. -/
def start (config : Config) (index : Nat) (now : Instant) : Supervisor × List Order :=
  ({ index, healthInterval := config.healthInterval, stage := .starting (now + startupTimeout) },
    [.spawn])

/-- Whether the slot stays empty. -/
def hasEnded (s : Supervisor) : Bool := s.stage == .ended

/-- A process has not become ready. -/
def startFailed (s : Supervisor) (now : Instant) (reason : String) : Supervisor :=
  match s.startup with
  | none => { s with startup := some (.error (.workerStartup s.index reason)), stage := .ended }
  | some _ => { s with stage := .pausing (now + restartBackoff) }

/-- A process has become ready. -/
def becomeReady (s : Supervisor) (now : Instant) (pid : UInt32) (address : SocketAddress) :
    Supervisor :=
  { s with
    health := { s.health with
      pid := some pid, address := some address, lastPong := some now, missedPongs := 0 }
    startup := s.startup.or (some (.ok ()))
    stage := .watching { nextPing := now + s.healthInterval } }

/-- A process that was ready is gone. -/
def lose (s : Supervisor) (stage : SupervisorStage) : Supervisor :=
  { s with health := { s.health with pid := none }, stage }

/-- Sends a probe. The one before counts as missed if it has not been answered. -/
def ping (s : Supervisor) (now : Instant) (w : Watch) : Supervisor × List Order :=
  let missed := if w.awaiting.isSome then s.health.missedPongs + 1 else s.health.missedPongs
  let nonce := w.nonce + 1
  ({ s with
      health := { s.health with missedPongs := missed }
      stage := .watching
        { w with nextPing := now + s.healthInterval, nonce, awaiting := some nonce } },
    [.tell (.ping nonce)])

/-- Takes in the answer to a probe. Any answer shows that the process is alive; only the answer to
the last probe settles it. -/
def pong (s : Supervisor) (now : Instant) (w : Watch) (nonce active : UInt64) : Supervisor :=
  { s with
    health := { s.health with
      lastPong := some now, activeSessions := active.toNat, missedPongs := 0 }
    stage := .watching { w with awaiting := if w.awaiting = some nonce then none else w.awaiting } }

/-- What a supervisor does while it waits for a process to become ready. -/
def onStarting (s : Supervisor) (now deadline : Instant) : Event → Supervisor × List Order
  | .spawnFailed reason => (s.startFailed now reason, [])
  | .line text =>
    match WorkerStatus.read text with
    | .ok (.ready pid address) => (s.becomeReady now pid address, [])
    | .ok (.pong ..) | .ok (.shutdownAck _) | .error _ => (s, [])
  | .silence failure => (s.startFailed now (failure.getD "exited before becoming ready"), [.kill])
  | .clock =>
    if deadline ≤ now then
      (s.startFailed now ("not ready within " ++ Span.text startupTimeout), [.kill])
    else (s, [])
  | .exited | .seeKill | .seeShutdown | .seeDrain => (s, [])

/-- What a supervisor does while a process is ready. -/
def onWatching (s : Supervisor) (now : Instant) (l : Lifecycle) (w : Watch) :
    Event → Supervisor × List Order
  | .line text =>
    match WorkerStatus.read text with
    | .ok (.pong nonce active) => (s.pong now w nonce active, [])
    | .ok (.ready ..) | .ok (.shutdownAck _) | .error _ => (s, [])
  | .exited =>
    if w.drainSent || w.shutdownSent || l.drain then (s.lose .ended, [])
    else
      let s := s.lose (.pausing (now + restartBackoff))
      ({ s with health := { s.health with restarts := s.health.restarts + 1 } }, [])
  | .clock => if w.drainSent || now < w.nextPing then (s, []) else s.ping now w
  | .seeKill => if l.kill then (s.lose .ended, [.kill]) else (s, [])
  | .seeShutdown =>
    if l.shutdown && !w.shutdownSent then
      ({ s with stage := .watching { w with shutdownSent := true } }, [.tell .shutdown])
    else (s, [])
  | .seeDrain =>
    if l.drain && !w.drainSent then
      ({ s with stage := .watching { w with drainSent := true } }, [.tell .drain])
    else (s, [])
  | .spawnFailed _ | .silence _ => (s, [])

/-- What a supervisor does while its slot is empty. -/
def onPausing (s : Supervisor) (now : Instant) (l : Lifecycle) (resume : Instant) :
    Event → Supervisor × List Order
  | .clock =>
    if now < resume then (s, [])
    else ({ s with stage := .starting (now + startupTimeout) }, [.spawn])
  | .seeDrain => (if l.drain then { s with stage := .ended } else s, [])
  | .spawnFailed _ | .line _ | .silence _ | .exited | .seeKill | .seeShutdown => (s, [])

/-- What a supervisor does. -/
def step (s : Supervisor) (now : Instant) (l : Lifecycle) (e : Event) : Supervisor × List Order :=
  match s.stage with
  | .starting deadline => s.onStarting now deadline e
  | .watching w => s.onWatching now l w e
  | .pausing resume => s.onPausing now l resume e
  | .ended => (s, [])

/-- The next instant at which the clock matters. -/
def wakeup? (s : Supervisor) : Option Instant :=
  match s.stage with
  | .starting deadline => some deadline
  | .watching w => if w.drainSent then none else some w.nextPing
  | .pausing resume => some resume
  | .ended => none

end Supervisor

end Smpp
