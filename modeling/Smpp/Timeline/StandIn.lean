import Smpp.Supervisor

/-!
# Processes that follow a script

A stand-in takes the place of a worker process: it says lines when it starts and when it is told
something, and exits where its script says so. A slot has a list of scripts, one for each process
that is started in it; the last one is used again and again. What a stand-in does comes back to its
supervisor as events.
-/

namespace Smpp

/-- What a stand-in does when it is told something. -/
structure Behaviour where
  lines : List String := []
  /-- Whether it exits when it has said the lines. -/
  exits : Bool := true
  deriving DecidableEq, Repr

/-- What a process does from its start to its exit. -/
structure ProcessScript where
  /-- What it does when it starts. -/
  begin : Behaviour
  /-- What it says to one probe after another. -/
  pings : List (List String) := []
  drain : Behaviour := {}
  shutdown : Behaviour := {}
  deriving DecidableEq, Repr

/-- What the start of a process comes to. -/
inductive Launch where
  /-- There is no process, for a reason of the system. -/
  | fails (reason : String)
  | runs (script : ProcessScript)
  deriving DecidableEq, Repr

/-- A slot for a process. -/
structure StandIn where
  /-- The scripts of the processes that are still to be started. -/
  launches : List Launch
  /-- The process that is there, with the answers to probes that it has not given. -/
  running : Option ProcessScript := none
  /-- What the processes have been told, the oldest line first. -/
  heard : List String := []
  deriving DecidableEq, Repr

namespace StandIn

/-- Puts the nonce of a probe into the line of an answer, wherever the line says `$N`. -/
def fill (nonce : List Char) : List Char → List Char
  | [] => []
  | '$' :: 'N' :: rest => nonce ++ fill nonce rest
  | c :: rest => c :: fill nonce rest

/-- The process exits. -/
def exit (s : StandIn) : StandIn × List Supervisor.Event :=
  match s.running with
  | some _ => ({ s with running := none }, [.silence none, .exited])
  | none => (s, [])

/-- The process says lines. -/
def say (s : StandIn) (lines : List String) : List Supervisor.Event :=
  match s.running with
  | some _ => lines.map .line
  | none => []

/-- The process behaves as its script says. -/
def behave (s : StandIn) (b : Behaviour) : StandIn × List Supervisor.Event :=
  if b.exits then
    let (s', events) := s.exit
    (s', s.say b.lines ++ events)
  else (s, s.say b.lines)

/-- Carries out an order, and says what the supervisor hears in return. -/
def obey (s : StandIn) : Supervisor.Order → StandIn × List Supervisor.Event
  | .spawn =>
    let launches := if s.launches.length ≤ 1 then s.launches else s.launches.tail
    match s.launches with
    | [] => (s, [])
    | .fails reason :: _ => ({ s with launches }, [.spawnFailed reason])
    | .runs script :: _ => { s with launches, running := some script }.behave script.begin
  | .kill => ({ s with running := none }, [])
  | .tell message =>
    match s.running with
    | none => (s, [])
    | some script =>
      let s := { s with heard := s.heard ++ [message.line] }
      match message with
      | .drain => s.behave script.drain
      | .shutdown => s.behave script.shutdown
      | .ping nonce =>
        let lines := script.pings.headD ["pong $N 0"]
        let digits := Numeral.digits 10 nonce.toNat
        ({ s with running := some { script with pings := script.pings.tail } },
          s.say (lines.map fun line => String.ofList (fill digits line.toList)))

end StandIn

end Smpp
