import Smpp.Session

/-!
# A session and its calls to the backend

Messages that a session has handed over are with the backend until it answers, whether or not the
session still waits for them. `Calls` keeps account of them: every call has a number of its own, it
runs until its answer comes, and its result then waits in line until the session takes it. An
engagement is a session together with its calls.
-/

namespace Smpp

/-- A message that is with the backend. -/
structure Call where
  number : Nat
  sequence : UInt32
  deriving DecidableEq, Repr

/-- The calls of one session. -/
structure Calls where
  /-- How many calls there have been. -/
  made : Nat := 0
  /-- The calls that have no answer, the oldest first. -/
  running : List Call := []
  /-- The results that the session has not taken, in the order in which they came. -/
  finished : List Completion := []

namespace Calls

/-- How many messages are with the backend. -/
def inFlight (c : Calls) : Nat := c.running.length

/-- Begins a call for the message with a sequence number. -/
def begin (c : Calls) (n : UInt32) : Calls × Nat :=
  ({ c with made := c.made + 1, running := c.running ++ [⟨c.made, n⟩] }, c.made)

/-- Ends a call with a result. -/
def finish (c : Calls) (number : Nat) (result : SubmitResult) : Calls :=
  match c.running.find? (·.number == number) with
  | none => c
  | some call =>
    { c with
      running := c.running.filter (·.number != number)
      finished := c.finished ++ [⟨call.sequence, result⟩] }

/-- Takes the first result in line. -/
def take? (c : Calls) : Option (Completion × Calls) :=
  match c.finished with
  | [] => none
  | first :: rest => some (first, { c with finished := rest })

end Calls

/-- A session together with its calls to the backend. -/
structure Engagement where
  session : Session
  calls : Calls := {}

/-- What a frame calls for, with a call that it begins. -/
inductive Reaction where
  | reply (f : Frame)
  | replyAndClose (f : Frame)
  /-- Hand a message to the backend as the call with a number. -/
  | submit (call : Nat) (submission : Submission)
  | authenticate (sequence : UInt32) (bind : Bind)
  | ignore
  deriving DecidableEq, Repr

namespace Engagement

/-- An engagement that begins now. -/
def start (config : Config) (now : Instant) : Engagement := { session := .start config now }

/-- Carries out what a frame calls for, as far as the session can. -/
def react (e : Engagement) : Session × Action → Engagement × Reaction
  | (session, .reply f) => ({ e with session }, .reply f)
  | (session, .replyAndClose f) => ({ e with session }, .replyAndClose f)
  | (session, .submit n submission) =>
    let (calls, number) := e.calls.begin n
    ({ session, calls }, .submit number submission)
  | (session, .authenticate n b) => ({ e with session }, .authenticate n b)
  | (session, .ignore) => ({ e with session }, .ignore)

/-- What a frame calls for. -/
def receive (e : Engagement) (now : Instant) (f : Frame) : Engagement × Reaction :=
  e.react (e.session.receive now e.calls.inFlight f)

/-- Ends the authentication of a bind. -/
def conclude (e : Engagement) (now : Instant) (n : UInt32) (b : Bind) (result : AuthResult) :
    Engagement × Reaction :=
  e.react (e.session.conclude now n b result)

/-- Lets the session take the first result in line. -/
def completeNext (e : Engagement) : Option (Engagement × Completion × Option Frame) :=
  match e.calls.take? with
  | none => none
  | some (completion, calls) =>
    let (session, answer) := e.session.complete completion
    some ({ session, calls }, completion, answer)

/-- A frame begins calls and takes no result. -/
theorem finished_react (e : Engagement) (a : Session × Action) :
    (e.react a).1.calls.finished = e.calls.finished := by
  obtain ⟨session, action⟩ := a
  cases action <;> rfl

/-- A frame begins calls and takes no result. -/
theorem finished_receive (e : Engagement) (now : Instant) (f : Frame) :
    (e.receive now f).1.calls.finished = e.calls.finished :=
  finished_react e _

/-- The end of an authentication is answered at once. -/
theorem conclude_answers (e : Engagement) (now : Instant) (n : UInt32) (b : Bind)
    (result : AuthResult) :
    ∃ f, (e.conclude now n b result).2 = .reply f ∨
      (e.conclude now n b result).2 = .replyAndClose f := by
  unfold conclude Session.conclude
  cases result with
  | ok _ => exact ⟨_, .inl rfl⟩
  | error cause =>
    dsimp only
    split
    · exact ⟨_, .inr rfl⟩
    · exact ⟨_, .inl rfl⟩

/-- A result that is taken leaves one less in line. -/
theorem finished_of_completeNext {e e' : Engagement} {c : Completion} {answer : Option Frame}
    (h : e.completeNext = some (e', c, answer)) :
    e.calls.finished.length = e'.calls.finished.length + 1 := by
  unfold completeNext Calls.take? at h
  split at h
  · cases h
  · rename_i htake
    split at htake
    · cases htake
    · rename_i hfinished
      cases htake
      cases h
      rw [hfinished, List.length_cons]

end Engagement

end Smpp
