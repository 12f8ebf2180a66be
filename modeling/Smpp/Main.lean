import Smpp.CommandLine

/-!
# Running the program

The outer layer: it reads the arguments and the lines of standard input, lets the library decide,
and prints. A worker answers every line when it comes. A gateway runs until the system ends it. No
socket is opened and no process is started here: a worker that is run this way has no clients, and
the processes of a gateway are stand-ins.
-/

namespace Smpp

/-- Lets time pass until the system ends the program. -/
partial def idle : IO UInt32 := do
  IO.sleep 1000
  idle

/-- Prints an outcome and gives its exit code, if there is one. -/
def Outcome.print (o : Outcome) : IO UInt32 := do
  for line in o.out do
    IO.println line
  for line in o.err do
    IO.eprintln line
  match o.exitCode with
  | some code => return code
  | none => idle

/-- The identifier of this process, as the system tells it; zero if it does not. -/
def processId : IO UInt32 := do
  try
    let status ← IO.FS.readFile "/proc/self/stat"
    return UInt32.ofNat (((status.splitOn " ").head?.bind String.toNat?).getD 0)
  catch _ => return 0

/-- Prints what a worker has said since an earlier moment. -/
def WorkerProcess.print (earlier later : WorkerProcess) : IO Unit := do
  let stdout ← IO.getStdout
  for status in later.said.drop earlier.said.length do
    stdout.putStrLn status.line
  stdout.flush

/-- Lets a worker hear one line after another until it has ended. -/
partial def WorkerProcess.serve (p : WorkerProcess) : IO Unit := do
  unless p.isOver do
    let line ← (← IO.getStdin).getLine
    let heard := p.step (.input (if line.isEmpty then .endOfInput else .line line))
    p.print heard
    heard.serve

/-- Does what the arguments ask for, and gives the exit code. -/
def CommandLine.run (arguments : List String) : IO UInt32 := do
  match CommandLine.task arguments with
  | .error outcome => outcome.print
  | .ok (.gateway config given) => ((Task.gateway config given).outcome 0 []).print
  | .ok (.worker config backend) =>
    let p := WorkerProcess.start (← processId) config.listenAddress
      (.start config (.memory backend))
    WorkerProcess.print { p with said := [] } p
    p.serve
    return 0

end Smpp

/-- Runs the gateway, or one of its workers. -/
def main (arguments : List String) : IO UInt32 := Smpp.CommandLine.run arguments
