import Smpp.Timeline.Station
import Smpp.Worker

/-!
# A worker in time

A floor is a worker with the stations of all the sessions that it has accepted, with their backend,
and with a clock. What happens from outside is an event; the clock moves only when an event says so,
and on its way it stops at every instant at which something happens by itself. At each of them every
station comes to rest before the worker looks at its grace period. The clients of a floor take what
they are sent at once, so nothing that is written keeps a station waiting.

`Floor.advanceTo` ends because the clock only moves forward: an instant that is not later than the
present one is not waited for.
-/

namespace Smpp

/-- A worker with the sessions that it has accepted. -/
structure Floor where
  config : Config
  now : Instant := 0
  worker : Worker
  backend : Backend
  /-- The sessions in the order in which they were accepted. -/
  stations : List Station := []

namespace Floor

/-- A floor whose clock begins with its worker. -/
def start (config : Config) (backend : Backend) : Floor :=
  { config, worker := .start config, backend }

/-- Lets stations play one after another, and enters those that end in the account. -/
def playStations (now : Instant) : Worker → Backend → List Station → Worker × Backend × List Station
  | w, b, [] => (w, b, [])
  | w, b, s :: rest =>
    let (s', b) := s.play now b
    let w :=
      match s.reason?, s'.reason? with
      | none, some reason => w.sessionEnded reason
      | _, _ => w
    let (w, b, rest) := playStations now w b rest
    (w, b, s' :: rest)

/-- Lets every station play; those of a worker that is closing are cancelled first. -/
def play (f : Floor) : Floor :=
  let stations :=
    if f.worker.isClosing then f.stations.map fun s => { s with handler := s.handler.cancel }
    else f.stations
  let (worker, backend, stations) := playStations f.now f.worker f.backend stations
  { f with worker, backend, stations }

/-- Does all that there is to do at the present instant. -/
def settle (f : Floor) : Floor :=
  let f := f.play
  let f := { f with worker := f.worker.tick f.now }
  if f.worker.isClosing then f.play else f

@[simp] theorem now_play (f : Floor) : f.play.now = f.now := rfl

/-- What is done at an instant takes no time. -/
@[simp] theorem now_settle (f : Floor) : f.settle.now = f.now := by
  unfold settle
  dsimp only
  split <;> rfl

/-- The next instant at which something happens by itself. -/
def wakeup? (f : Floor) : Option Instant :=
  Instant.earliest
    ((f.worker.deadline?.toList ++ f.stations.flatMap Station.wakeups).filter (f.now < ·))

/-- Moves the clock forward to an instant, and plays what happens until then. -/
def advanceTo (f : Floor) (target : Instant) : Floor :=
  match _h : f.wakeup? with
  | some t =>
    if _ht : t ≤ target then ({ f with now := t }.settle).advanceTo target
    else { f with now := target }
  | none => { f with now := target }
  termination_by target - f.now
  decreasing_by
    have : f.now < t := Instant.lt_of_earliest_filter _h
    rw [now_settle]
    exact Nat.sub_lt_sub_left (Nat.lt_of_lt_of_le this _ht) this

/-! ### What happens from outside -/

/-- What happens to a worker. -/
inductive Event where
  /-- A client connects. -/
  | connect
  /-- Octets arrive from a client. -/
  | send (client : Nat) (bs : Octets)
  /-- A client stops sending, or is gone. -/
  | endStream (client : Nat) (ending : Ending)
  /-- Time passes. -/
  | advance (span : Span)
  /-- The worker is told to drain. -/
  | drain
  /-- The worker is told to shut down. -/
  | shutdown

/-- Changes the handler of a client. -/
def tell (f : Floor) (client : Nat) (g : Handler → Handler) : Floor :=
  { f with stations := f.stations.modify client fun s => { s with handler := g s.handler } }

/-- What becomes of a floor by an event. A client that is not accepted leaves no trace. -/
def step (f : Floor) : Event → Floor
  | .connect =>
    match f.worker.connect with
    | some (worker, _) =>
      { f with worker, stations := f.stations ++ [Station.start f.config f.now] }.settle
    | none => f
  | .send client bs => (f.tell client (·.receive bs)).settle
  | .endStream client ending => (f.tell client (·.endStream ending)).settle
  | .advance span => f.advanceTo (f.now + span)
  | .drain => { f with worker := f.worker.drain f.now }.settle
  | .shutdown => { f with worker := f.worker.shutdown }.settle

/-- What becomes of a floor by one event after another. -/
def run (f : Floor) (events : List Event) : Floor := events.foldl step f

end Floor

end Smpp
