import Smpp.Config
import Smpp.Handler

/-!
# Workers

A worker accepts clients and keeps account of their sessions. It is told to drain or to shut down:
either way it accepts no more. While it drains, its sessions have the grace period to end by
themselves; after that, or when it is told to shut down, it closes: every session is cancelled. It
has stopped when it accepts no more and no session is left, and then there is a report of what it
did.

A worker here is only the account, and does not hold the sessions; `Floor` runs both together.
-/

namespace Smpp

/-- How far a worker has come. -/
inductive WorkerPhase where
  | accepting
  /-- It accepts no more, and its sessions may go on until an instant. -/
  | draining (deadline : Instant)
  /-- It accepts no more, and its sessions are cancelled. -/
  | closing
  deriving DecidableEq, Repr

/-- What a worker did before it stopped. -/
structure WorkerReport where
  sessionsServed : Nat
  /-- How many sessions the shutdown cut off. -/
  closedOnShutdown : Nat
  deriving DecidableEq, Repr

/-- The account that a worker keeps. -/
structure Worker where
  /-- How long its sessions may go on while it drains. -/
  grace : Span
  phase : WorkerPhase := .accepting
  /-- How many sessions there have been. -/
  accepted : Nat := 0
  /-- How many sessions there are. -/
  active : Nat := 0
  /-- How many sessions have ended because they were cancelled. -/
  forced : Nat := 0
  deriving DecidableEq, Repr

namespace Worker

/-- A worker that begins. -/
def start (config : Config) : Worker := { grace := config.drainGracePeriod }

/-- Accepts a client, and says the number of its session; the first is one. A worker that drains
accepts no more. -/
def connect (w : Worker) : Option (Worker × Nat) :=
  match w.phase with
  | .accepting =>
    some ({ w with accepted := w.accepted + 1, active := w.active + 1 }, w.accepted + 1)
  | .draining _ | .closing => none

/-- A session ends. -/
def sessionEnded (w : Worker) (reason : CloseReason) : Worker :=
  { w with
    active := w.active - 1
    forced := if reason = .shutdown then w.forced + 1 else w.forced }

/-- Accepts no more from now on. Only the first request counts: it begins the grace period. -/
def drain (w : Worker) (now : Instant) : Worker :=
  match w.phase with
  | .accepting => { w with phase := .draining (now + w.grace) }
  | .draining _ | .closing => w

/-- Accepts no more, and cancels every session. -/
def shutdown (w : Worker) : Worker := { w with phase := .closing }

/-- Looks at the clock: when the grace period is over, every session is cancelled. -/
def tick (w : Worker) (now : Instant) : Worker :=
  match w.phase with
  | .draining deadline => if deadline ≤ now then w.shutdown else w
  | .accepting | .closing => w

/-- Whether the sessions are cancelled. -/
def isClosing (w : Worker) : Bool := w.phase == .closing

/-- When the grace period is over, while there is someone to wait for. -/
def deadline? (w : Worker) : Option Instant :=
  match w.phase with
  | .draining deadline => if w.active = 0 then none else some deadline
  | .accepting | .closing => none

/-- What the worker did, once it has stopped. -/
def report? (w : Worker) : Option WorkerReport :=
  match w.phase with
  | .accepting => none
  | .draining _ | .closing =>
    if w.active = 0 then some { sessionsServed := w.accepted, closedOnShutdown := w.forced }
    else none

end Worker

end Smpp
