import Smpp.Supervisor

/-!
# The coordinator

The coordinator runs one supervisor for every worker. If a worker cannot be started at first, the
gateway stops at once, with the fault of the first such worker in the order of their numbers.
Otherwise the gateway runs until it is asked to stop, and then stops in stages: the workers are told
to drain; a while after the grace period is over, those that are left are told to shut down; a while
after that, they are killed. In either case the gateway has stopped when every supervisor has ended.
-/

namespace Smpp

/-- How far a gateway has come. -/
inductive CoordinatorStage where
  /-- Not every worker has become ready or failed. -/
  | starting
  | running
  /-- The workers are draining, and are told to shut down at an instant. -/
  | draining (deadline : Instant)
  /-- The workers are shutting down, and are killed at an instant. -/
  | forcing (deadline : Instant)
  /-- The workers are being killed. -/
  | killing
  /-- A worker could not be started, and the others are being killed. -/
  | aborting (cause : GatewayError)
  | stopped (result : Except GatewayError Unit)

/-- The part of a gateway that starts and stops its workers. -/
structure Coordinator where
  /-- How long it waits for workers that drain: a while longer than they wait for their sessions. -/
  patience : Span
  lifecycle : Lifecycle := {}
  /-- Whether the gateway has been asked to stop. -/
  stopRequested : Bool := false
  stage : CoordinatorStage := .starting

namespace Coordinator

/-- How much longer than the grace period the workers may take, and how long a shutdown may. -/
def margin : Span := Span.ofSeconds 2

/-- A coordinator that begins; none does with settings that are refused. -/
def start (config : Config) : Except GatewayError Coordinator :=
  match config.validate with
  | .ok () => .ok { patience := config.drainGracePeriod + margin }
  | .error e => .error (.config e)

/-- Whether it is known of every worker what became of its first start. -/
def allStarted (supervisors : List Supervisor) : Bool := supervisors.all (·.startup.isSome)

/-- Whether no worker is left. -/
def allEnded (supervisors : List Supervisor) : Bool := supervisors.all (·.hasEnded)

/-- Why the first worker that could not be started could not. -/
def startupError? (supervisors : List Supervisor) : Option GatewayError :=
  supervisors.findSome? fun s =>
    match s.startup with
    | some (.error e) => some e
    | some (.ok ()) | none => none

/-- The next thing that the coordinator does, given what it sees of its supervisors. -/
def next (c : Coordinator) (now : Instant) (supervisors : List Supervisor) : Option Coordinator :=
  match c.stage with
  | .starting =>
    if allStarted supervisors then
      match startupError? supervisors with
      | some e =>
        some { c with
          lifecycle := { drain := true, shutdown := true, kill := true }, stage := .aborting e }
      | none => some { c with stage := .running }
    else none
  | .running =>
    if c.stopRequested then
      some { c with
        lifecycle := { c.lifecycle with drain := true }
        stage := .draining (now + c.patience) }
    else none
  | .draining deadline =>
    if allEnded supervisors then some { c with stage := .stopped (.ok ()) }
    else if deadline ≤ now then
      some { c with
        lifecycle := { c.lifecycle with shutdown := true }, stage := .forcing (now + margin) }
    else none
  | .forcing deadline =>
    if allEnded supervisors then some { c with stage := .stopped (.ok ()) }
    else if deadline ≤ now then
      some { c with lifecycle := { c.lifecycle with kill := true }, stage := .killing }
    else none
  | .killing => if allEnded supervisors then some { c with stage := .stopped (.ok ()) } else none
  | .aborting e =>
    if allEnded supervisors then some { c with stage := .stopped (.error e) } else none
  | .stopped _ => none

/-- How many stages are left. -/
def stagesLeft (c : Coordinator) : Nat :=
  match c.stage with
  | .starting => 6
  | .running => 5
  | .draining _ => 4
  | .forcing _ => 3
  | .killing | .aborting _ => 1
  | .stopped _ => 0

/-- **A coordinator never goes back.** -/
theorem stagesLeft_lt_of_next {c d : Coordinator} {now : Instant} {supervisors : List Supervisor}
    (h : c.next now supervisors = some d) : d.stagesLeft < c.stagesLeft := by
  unfold next at h
  split at h <;> rename_i hstage <;> (repeat' split at h) <;> cases h <;>
    simp only [stagesLeft, hstage] <;> decide

/-- The next instant at which the clock matters. -/
def wakeup? (c : Coordinator) : Option Instant :=
  match c.stage with
  | .draining deadline | .forcing deadline => some deadline
  | .starting | .running | .killing | .aborting _ | .stopped _ => none

/-- How the gateway has ended, once it has. -/
def result? (c : Coordinator) : Option (Except GatewayError Unit) :=
  match c.stage with
  | .stopped result => some result
  | .starting | .running | .draining _ | .forcing _ | .killing | .aborting _ => none

end Coordinator

/-- What is known of all workers. -/
structure HealthSnapshot where
  workers : List WorkerHealth
  deriving DecidableEq, Repr

namespace HealthSnapshot

/-- The most workers that a gateway can keep account of: it holds 72 octets for each, and the
addresses of a machine have 63 bits. -/
def mostWorkers : Nat := 9223372036854775807 / 72

/-- How many sessions the workers have named. Each names 64 bits at most, and a machine that adds
them up in 64 bits gets the same number as long as the sum is below `2 ^ 64`, as it is of sessions
that there are. -/
def totalSessions (h : HealthSnapshot) : Nat :=
  h.workers.foldr (fun w n => w.activeSessions + n) 0

/-- Whether every worker is there and has answered. -/
def isHealthy (h : HealthSnapshot) : Bool := h.workers.all WorkerHealth.isHealthy

end HealthSnapshot

end Smpp
