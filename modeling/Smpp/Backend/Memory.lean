import Smpp.Backend.Call

/-!
# A backend that keeps messages in memory

It accepts every message that has a destination and numbers the accepted ones from one. Without a
table of credentials every client may bind; with one, a client may if its password is the last one
that the table gives for it. Whether the client or its password is unknown makes no difference to
the answer.
-/

namespace Smpp

/-- An accepted message. -/
structure StoredMessage where
  messageId : String
  systemId : String
  source : Address
  destination : Address
  message : Octets
  deriving DecidableEq, Repr

/-- A backend that answers at once and keeps what it accepts. -/
structure MemoryBackend where
  /-- The names and passwords of the clients that may bind; all may if there is no table. -/
  credentials : Option (List (String × String)) := none
  /-- The accepted messages, the oldest first. -/
  messages : List StoredMessage := []
  /-- How many messages have been accepted. -/
  accepted : Nat := 0
  deriving DecidableEq, Repr

namespace MemoryBackend

/-- The password that a table gives for a client: the last one counts. -/
def password? (table : List (String × String)) (systemId : String) : Option String :=
  (table.reverse.find? (·.1 == systemId)).map Prod.snd

/-- Decides a bind. -/
def authenticate (b : MemoryBackend) (c : Credentials) : AuthResult :=
  match b.credentials with
  | none => .ok ()
  | some table =>
    if password? table c.systemId = some c.password then .ok () else .error .invalidCredentials

/-- The identifier of the message with a number: eight hexadecimal digits or more. -/
def messageId (n : Nat) : String := String.ofList (Numeral.padded 16 8 n)

/-- Decides about a message. One without a destination leaves no trace. -/
def submit (b : MemoryBackend) (s : Submission) : MemoryBackend × SubmitResult :=
  if s.destination.text.isEmpty then (b, .error .invalidDestinationAddress)
  else
    let id := messageId (b.accepted + 1)
    ({ b with
        accepted := b.accepted + 1
        messages := b.messages ++ [⟨id, s.systemId, s.source, s.destination, s.message⟩] },
      .ok id)

end MemoryBackend

end Smpp
