import Smpp.Config

/-!
# The arguments of the program

Every option takes a value, in the argument after its name, and may be given once; only credentials
may be given again and again. `help` and `--help` ask for the help text, and no option may follow
them. After `--` nothing is an option, and since the program takes nothing else, nothing may follow.
The first argument that breaks a rule is reported, and those behind it are not looked at.
-/

namespace Smpp

/-- The options of the program. -/
inductive Flag where
  | listen
  | workers
  | systemId
  | sessionTimeout
  | enquireLinkInterval
  | backendTimeout
  | maxPduSize
  | maxBindAttempts
  | maxPendingSubmits
  | drainGrace
  | credential
  | workerIndex
  deriving DecidableEq, Repr

namespace Flag

/-- The options in the order of the help text. -/
def all : List Flag :=
  [listen, workers, systemId, sessionTimeout, enquireLinkInterval, backendTimeout, maxPduSize,
    maxBindAttempts, maxPendingSubmits, drainGrace, credential, workerIndex]

/-- The name of an option. -/
def name : Flag → String
  | listen => "listen"
  | workers => "workers"
  | systemId => "system-id"
  | sessionTimeout => "session-timeout"
  | enquireLinkInterval => "enquire-link-interval"
  | backendTimeout => "backend-timeout"
  | maxPduSize => "max-pdu-size"
  | maxBindAttempts => "max-bind-attempts"
  | maxPendingSubmits => "max-pending-submits"
  | drainGrace => "drain-grace"
  | credential => "credential"
  | workerIndex => "worker-index"

/-- How an option is written. -/
def long (f : Flag) : String := "--" ++ f.name

/-- How an option is written in short, if it can be. -/
def short? : Flag → Option String
  | listen => some "-l"
  | workers => some "-w"
  | credential => some "-c"
  | systemId | sessionTimeout | enquireLinkInterval | backendTimeout | maxPduSize
  | maxBindAttempts | maxPendingSubmits | drainGrace | workerIndex => none

/-- The option that an argument names. -/
def ofArgument? (argument : String) : Option Flag :=
  all.find? fun f => argument == f.long || f.short? == some argument

/-- Whether an option may be given more than once. -/
def isRepeatable (f : Flag) : Bool := f == credential

/-- What an option is for; the one that the coordinator gives its workers is not explained. -/
def description? : Flag → Option String
  | listen => some "address to listen on (default: 0.0.0.0:2775)"
  | workers => some "number of worker processes (default: 2)"
  | systemId => some "system_id reported in bind responses (default: smpp-gateway)"
  | sessionTimeout => some "idle seconds before a session is closed (default: 300)"
  | enquireLinkInterval =>
    some "idle seconds before a bound client is probed with enquire_link (default: 30)"
  | backendTimeout => some "seconds a backend call may take (default: 5)"
  | maxPduSize => some "largest accepted PDU in bytes (default: 65536)"
  | maxBindAttempts => some "failed binds before a session is closed (default: 3)"
  | maxPendingSubmits => some "backend submit calls a session may have running (default: 64)"
  | drainGrace => some "seconds draining workers wait for sessions to finish (default: 10)"
  | credential => some "accepted credential as system_id:password, repeatable (default: accept all)"
  | workerIndex => none

end Flag

/-- What the arguments say. What they do not say is left to the standard settings. -/
structure Arguments where
  listen : Option SocketAddress := none
  workers : Option Nat := none
  systemId : Option String := none
  sessionTimeout : Option Nat := none
  enquireLinkInterval : Option Nat := none
  backendTimeout : Option Nat := none
  maxPduSize : Option Nat := none
  maxBindAttempts : Option Nat := none
  maxPendingSubmits : Option Nat := none
  drainGrace : Option Nat := none
  credentials : List String := []
  workerIndex : Option Nat := none
  deriving DecidableEq, Repr

namespace Arguments

/-- The value of an option that may be given once. -/
def once {α : Type} (given : Option α) (value : Except String α) : Except String (Option α) :=
  match given with
  | some _ => .error "duplicate values provided"
  | none => some <$> value

/-- Reads a number that fits in 32 bits. -/
def word32 (s : String) : Except String Nat :=
  (Numeral.read 4294967295 s).mapError Numeral.Fault.message

/-- Reads a number that fits in 64 bits. -/
def word64 (s : String) : Except String Nat :=
  (Numeral.read 18446744073709551615 s).mapError Numeral.Fault.message

/-- Reads an address. -/
def address (s : String) : Except String SocketAddress :=
  match SocketAddress.read s with
  | some a => .ok a
  | none => .error "invalid socket address syntax"

/-- Takes in an option with its value, or says what is wrong with it. -/
def set (a : Arguments) (value : String) : Flag → Except String Arguments
  | .listen => do return { a with listen := ← once a.listen (address value) }
  | .workers => do return { a with workers := ← once a.workers (word64 value) }
  | .systemId => do return { a with systemId := ← once a.systemId (.ok value) }
  | .sessionTimeout => do return { a with sessionTimeout := ← once a.sessionTimeout (word64 value) }
  | .enquireLinkInterval => do
    return { a with enquireLinkInterval := ← once a.enquireLinkInterval (word64 value) }
  | .backendTimeout => do return { a with backendTimeout := ← once a.backendTimeout (word64 value) }
  | .maxPduSize => do return { a with maxPduSize := ← once a.maxPduSize (word32 value) }
  | .maxBindAttempts => do
    return { a with maxBindAttempts := ← once a.maxBindAttempts (word32 value) }
  | .maxPendingSubmits => do
    return { a with maxPendingSubmits := ← once a.maxPendingSubmits (word64 value) }
  | .drainGrace => do return { a with drainGrace := ← once a.drainGrace (word64 value) }
  | .credential => .ok { a with credentials := a.credentials ++ [value] }
  | .workerIndex => do return { a with workerIndex := ← once a.workerIndex (word64 value) }

/-- The settings that the arguments come to. -/
def config (a : Arguments) (standard : Config := {}) : Config :=
  let seconds (given : Option Nat) (usual : Span) : Span := (given.map Span.ofSeconds).getD usual
  { standard with
    listenAddress := a.listen.getD standard.listenAddress
    workerCount := a.workers.getD standard.workerCount
    systemId := a.systemId.getD standard.systemId
    sessionTimeout := seconds a.sessionTimeout standard.sessionTimeout
    enquireLinkInterval := seconds a.enquireLinkInterval standard.enquireLinkInterval
    backendCallTimeout := seconds a.backendTimeout standard.backendCallTimeout
    maxPduSize := a.maxPduSize.getD standard.maxPduSize
    maxBindAttempts := a.maxBindAttempts.getD standard.maxBindAttempts
    maxPendingSubmits := a.maxPendingSubmits.getD standard.maxPendingSubmits
    drainGracePeriod := seconds a.drainGrace standard.drainGracePeriod }

end Arguments

/-- Why arguments are refused. -/
inductive ArgumentError where
  /-- The argument is no option, or stands where no option may stand. -/
  | unrecognized (argument : String)
  /-- The option is the last argument. -/
  | noValue (option : String)
  | invalidValue (option value reason : String)
  /-- An option follows the wish for help. -/
  | afterHelp
  deriving DecidableEq, Repr

/-- What the arguments ask for. -/
inductive Request where
  | help
  | run (arguments : Arguments)
  deriving DecidableEq, Repr

namespace Request

/-- Reads the arguments that are left. `help` says whether help has been asked for, and `ended`
whether options may still come. -/
def readFrom (a : Arguments) (help ended : Bool) : List String → Except ArgumentError Request
  | [] => .ok (if help then .help else .run a)
  | argument :: rest =>
    if ended then .error (.unrecognized argument)
    else if argument = "--help" ∨ argument = "help" then readFrom a true false rest
    else if argument = "--" then readFrom a help true rest
    else if !argument.toList.head?.any (· == '-') then .error (.unrecognized argument)
    else if help then .error .afterHelp
    else
      match Flag.ofArgument? argument, rest with
      | none, _ => .error (.unrecognized argument)
      | some _, [] => .error (.noValue argument)
      | some f, value :: rest =>
        match a.set value f with
        | .ok a => readFrom a false false rest
        | .error reason => .error (.invalidValue argument value reason)

/-- Reads the arguments of the program. -/
def read (arguments : List String) : Except ArgumentError Request :=
  readFrom {} false false arguments

end Request

end Smpp
