import Smpp.Control
import Smpp.Timeline.Floor

/-!
# Worker processes

A worker process is a floor that is told what to do in lines, and answers in lines. It says first
that it is ready, answers every probe while it runs, and says at last how many sessions the shutdown
cut off. A line that is no message changes nothing. The end of its input and a signal mean the same
as the line that tells it to drain: a worker without a coordinator ends by itself.
-/

namespace Smpp

/-- What a worker process is told by those who started it. -/
inductive WorkerInput where
  | line (text : String)
  /-- No further line comes. -/
  | endOfInput
  /-- The system asks the process to end. -/
  | signal
  deriving DecidableEq, Repr

/-- What a worker does with what it is told, and what it answers. -/
def Worker.hear (w : Worker) (now : Instant) : WorkerInput → Worker × Option WorkerStatus
  | .line text =>
    match ControlMessage.read text with
    | .ok .drain => (w.drain now, none)
    | .ok .shutdown => (w.shutdown, none)
    | .ok (.ping nonce) => (w, some (.pong nonce (UInt64.ofNat w.active)))
    | .error _ => (w, none)
  | .endOfInput | .signal => (w.drain now, none)

/-- What happens to a worker process. -/
inductive WorkerProcess.Event where
  /-- It is told something. -/
  | input (input : WorkerInput)
  /-- Something happens to its worker. -/
  | happening (event : Floor.Event)

/-- A worker that answers in lines. -/
structure WorkerProcess where
  floor : Floor
  /-- What it has said. -/
  said : List WorkerStatus
  /-- Whether it has ended. -/
  isOver : Bool := false

namespace WorkerProcess

/-- A process that has begun to listen. -/
def start (pid : UInt32) (address : SocketAddress) (floor : Floor) : WorkerProcess :=
  { floor, said := [.ready pid address] }

/-- Says the last word once the worker has stopped. -/
def conclude (p : WorkerProcess) : WorkerProcess :=
  match p.floor.worker.report? with
  | some report =>
    { p with
      said := p.said ++ [.shutdownAck (UInt64.ofNat report.closedOnShutdown)]
      isOver := true }
  | none => p

/-- What becomes of a process by an event; nothing happens to one that has ended. -/
def step (p : WorkerProcess) (e : Event) : WorkerProcess :=
  if p.isOver then p
  else
    match e with
    | .input input =>
      let (worker, answer) := p.floor.worker.hear p.floor.now input
      { p with
        floor := { p.floor with worker }.settle
        said := p.said ++ answer.toList }.conclude
    | .happening event => { p with floor := p.floor.step event }.conclude

/-- What becomes of a process by one event after another. -/
def run (p : WorkerProcess) (events : List Event) : WorkerProcess := events.foldl step p

end WorkerProcess

end Smpp
