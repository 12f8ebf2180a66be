import Smpp.Backend.Memory
import Smpp.Backend.Script

/-!
# Backends

A backend is one of two kinds, and answers the same two calls whichever it is: it takes the instant
and the question, and gives back itself after the call with its answer.
-/

namespace Smpp

/-- What decides binds and takes messages. -/
inductive Backend where
  | memory (backend : MemoryBackend)
  | script (backend : ScriptedBackend)

namespace Backend

/-- Asks whether a client may bind. -/
def authenticate (now : Instant) (c : Credentials) : Backend → Backend × Answer AuthResult
  | memory b => (memory b, ⟨.atOnce, b.authenticate c⟩)
  | script b =>
    let (b, answer) := b.authenticate now c
    (script b, answer)

/-- Hands over a message. -/
def submit (now : Instant) (s : Submission) : Backend → Backend × Answer SubmitResult
  | memory b =>
    let (b, result) := b.submit s
    (memory b, ⟨.atOnce, result⟩)
  | script b =>
    let (b, answer) := b.submit now s
    (script b, answer)

end Backend

end Smpp
