import Smpp.CommandLine.Help
import Smpp.Timeline.Fleet
import Smpp.Worker.Process

/-!
# The program

One program is both the gateway and each of its workers. Without an index it is the gateway: it
starts its workers and runs until it is asked to stop. With one it is the worker of that index. A
gateway starts a worker as the same program, with an index after its own arguments; so a worker
reads what its gateway has read, and it may refuse what its gateway took.

Arguments that cannot be read, settings that are refused and credentials that are none end the
program before it has done anything, in this order. `CommandLine.task` says what the arguments come
to. `Task.outcome` says what the program prints and with which code it exits when no client connects
to it.
-/

namespace Smpp

/-- What there is to see of a run of the program. -/
structure Outcome where
  /-- The exit code; there is none while the program runs. -/
  exitCode : Option UInt32 := some 0
  out : List String := []
  err : List String := []
  deriving DecidableEq, Repr

/-- What the program does when its arguments are in order. -/
inductive Task where
  | worker (config : Config) (backend : MemoryBackend)
  /-- Run workers, which get the gateway's own arguments. -/
  | gateway (config : Config) (arguments : List String)

/-- The words for why arguments are refused. -/
def ArgumentError.lines : ArgumentError → List String
  | unrecognized argument => ["Unrecognized argument: " ++ argument, ""]
  | noValue option => ["No value provided for option '" ++ option ++ "'.", ""]
  | invalidValue option value reason =>
    ["Error parsing option '" ++ option ++ "' with value '" ++ value ++ "': " ++ reason, ""]
  | afterHelp => ["Trailing arguments are not allowed after `help`."]

namespace Arguments

/-- The name and password in a credential: what stands before the first colon, and what follows. -/
def credential (entry : String) : Except String (String × String) :=
  match entry.toList.span (· != ':') with
  | (systemId, _ :: password) => .ok (String.ofList systemId, String.ofList password)
  | (_, []) => .error ("credential '" ++ entry ++ "' is not system_id:password")

/-- The backend that accepts the credentials, or everyone if there are none. -/
def backend (a : Arguments) : Except String MemoryBackend := do
  let table ← a.credentials.mapM credential
  return { credentials := if table.isEmpty then none else some table }

/-- What the arguments come to; `given` is how they were written. -/
def task (a : Arguments) (given : List String) : Except GatewayError Task := do
  a.config.validate.mapError .config
  let backend ← a.backend.mapError (.workerStartup (a.workerIndex.getD 0))
  return if a.workerIndex.isSome then .worker a.config backend else .gateway a.config given

end Arguments

namespace CommandLine

/-- The outcome of a program that is stopped by a fault. -/
def failure (e : GatewayError) : Outcome :=
  { exitCode := some 1, err := [Help.program ++ ": " ++ e.message] }

/-- The outcome of a program that is cut off because a quantity is out of range. -/
def cutOff (cause : String) : Outcome := { exitCode := some 101, err := [cause] }

/-- What the program does, or the outcome if it does nothing. -/
def task (arguments : List String) : Except Outcome Task :=
  match Request.read arguments with
  | .ok .help => .error { out := Help.lines }
  | .ok (.run a) => (a.task arguments).mapError failure
  | .error e =>
    .error
      { exitCode := some 1
        err := e.lines ++ ["Run " ++ Help.program ++ " --help for more information."] }

/-- The arguments of the worker with an index. -/
def forWorker (arguments : List String) (index : Nat) : List String :=
  arguments ++ [Flag.workerIndex.long, Numeral.decimal index]

end CommandLine

/-- A worker process to which no client connects. -/
def ProcessScript.unvisited (index : Nat) (address : SocketAddress) : ProcessScript where
  begin := { lines := [(WorkerStatus.ready (.ofNat index) address).line], exits := false }
  drain := { lines := [(WorkerStatus.shutdownAck 0).line] }
  shutdown := { lines := [(WorkerStatus.shutdownAck 0).line] }

/-- The process that the program is for a gateway that has started it with an index. One that does
nothing prints its outcome and exits; another gateway would say nothing. -/
def ProcessScript.ofTask (index : Nat) : Except Outcome Task → ProcessScript
  | .ok (.worker config _) => .unvisited index config.listenAddress
  | .ok (.gateway ..) => { begin := { exits := false } }
  | .error o => { begin := { lines := o.out } }

namespace Task

/-- What a process that has been started with a task prints where its gateway prints its faults. -/
def faults : Except Outcome Task → List String
  | .ok _ => []
  | .error o => o.err

/-- What comes of a gateway that was started with some arguments, if no client connects. It runs
until the system asks it to stop, and pays no attention to its input. If it would then have to wait
for its workers longer than any span, it is cut off; one that cannot keep account of so many workers
is cut off at once. -/
def gatewayOutcome (config : Config) (arguments : List String) (isAsked : Bool) : Outcome :=
  let worker (index : Nat) := CommandLine.task (CommandLine.forWorker arguments index)
  if HealthSnapshot.mostWorkers < config.workerCount then CommandLine.cutOff "capacity overflow"
  else
    match Fleet.start config fun index => [.runs (.ofTask index (worker index))] with
    | .error e => CommandLine.failure e
    | .ok fleet =>
      let outcome : Outcome :=
        match (if isAsked then fleet.step .stop else fleet).coordinator.result? with
        | some (.error e) => CommandLine.failure e
        | some (.ok ()) =>
          if fleet.coordinator.patience ≤ Span.largest then {}
          else CommandLine.cutOff "overflow when adding durations"
        | none => { exitCode := none }
      let printed := (List.range config.workerCount).flatMap fun index => faults (worker index)
      { outcome with err := printed ++ outcome.err }

/-- What comes of a task if no client connects and the program is told things one after another. -/
def outcome (pid : UInt32) (inputs : List WorkerInput) : Task → Outcome
  | worker config backend =>
    let process := WorkerProcess.start pid config.listenAddress (.start config (.memory backend))
    let process := process.run (inputs.map .input)
    { exitCode := if process.isOver then some 0 else none
      out := process.said.map WorkerStatus.line }
  | gateway config arguments => gatewayOutcome config arguments (inputs.contains .signal)

end Task

end Smpp
