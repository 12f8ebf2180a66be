import Smpp.Backend.Call

/-!
# A backend that follows a script

It has a list of answers for each of its two calls and gives them in order, each after its own delay
or not at all; a call after the last answer of its list succeeds at once. It keeps a record of every
call that it got.
-/

namespace Smpp

/-- A call that a scripted backend got, and when. -/
inductive CallRecord where
  | authenticate (time : Instant) (credentials : Credentials)
  | submit (time : Instant) (submission : Submission)
  deriving DecidableEq, Repr

/-- A backend that follows a script. -/
structure ScriptedBackend where
  /-- The answers to binds that are left. -/
  binds : List (Answer AuthResult) := []
  /-- The answers to messages that are left. -/
  submits : List (Answer SubmitResult) := []
  /-- The calls so far, the oldest first. -/
  calls : List CallRecord := []

namespace ScriptedBackend

/-- The identifier of a message for which the script names none. -/
def defaultMessageId : String := "abc123"

/-- Answers a bind. -/
def authenticate (b : ScriptedBackend) (now : Instant) (c : Credentials) :
    ScriptedBackend × Answer AuthResult :=
  ({ b with binds := b.binds.tail, calls := b.calls ++ [.authenticate now c] },
    b.binds.headD ⟨.atOnce, .ok ()⟩)

/-- Answers a message. -/
def submit (b : ScriptedBackend) (now : Instant) (s : Submission) :
    ScriptedBackend × Answer SubmitResult :=
  ({ b with submits := b.submits.tail, calls := b.calls ++ [.submit now s] },
    b.submits.headD ⟨.atOnce, .ok defaultMessageId⟩)

end ScriptedBackend

end Smpp
