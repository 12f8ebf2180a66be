import Smpp.Pdu.Command
import Smpp.Time

/-!
# Pending requests

A request that waits for its answer is pending under its sequence number until it is answered, its
deadline passes, or everything is forgotten. A number is pending at most once: a second request
under it is refused and leaves the first one, its deadline included, as it was.

`Tracker.expire` takes out the requests whose deadline has come, the oldest first, and of equally
old ones the one with the smallest number first.
-/

namespace Smpp

/-- A request that waits for its answer. -/
structure PendingRequest where
  sequence : UInt32
  command : CommandId
  issuedAt : Instant
  deadline : Instant
  deriving DecidableEq, Repr

/-- The requests of one session that wait for their answers. -/
structure Tracker where
  /-- How long a request may wait. -/
  timeout : Span
  pending : List PendingRequest := []
  deriving DecidableEq, Repr

namespace Tracker

/-- The request that is pending under a number. -/
def get? (t : Tracker) (n : UInt32) : Option PendingRequest :=
  t.pending.find? (·.sequence == n)

/-- Whether a number is pending. -/
def isPending (t : Tracker) (n : UInt32) : Bool := t.pending.any (·.sequence == n)

/-- The number of pending requests. -/
def size (t : Tracker) : Nat := t.pending.length

/-- Makes a request pending; `none` if its number is pending already. -/
def track (t : Tracker) (n : UInt32) (command : CommandId) (now : Instant) :
    Option (Tracker × PendingRequest) :=
  if t.isPending n then none
  else
    let request : PendingRequest := ⟨n, command, now, now + t.timeout⟩
    some ({ t with pending := t.pending ++ [request] }, request)

/-- The words for a request whose number is pending already. -/
def duplicateMessage (n : UInt32) : String :=
  "sequence_number " ++ Numeral.decimal n.toNat ++ " is already pending"

/-- Takes out the request that is pending under a number. -/
def complete (t : Tracker) (n : UInt32) : Tracker × Option PendingRequest :=
  ({ t with pending := t.pending.filter (·.sequence != n) }, t.get? n)

/-- Whether one request expires before another that expires with it. -/
def expiresBefore (a b : PendingRequest) : Bool :=
  a.issuedAt < b.issuedAt || (a.issuedAt == b.issuedAt && a.sequence ≤ b.sequence)

/-- Takes out the requests whose deadline has come. -/
def expire (t : Tracker) (now : Instant) : Tracker × List PendingRequest :=
  ({ t with pending := t.pending.filter (now < ·.deadline) },
    (t.pending.filter (·.deadline ≤ now)).mergeSort expiresBefore)

/-- The first deadline to come. -/
def nextDeadline (t : Tracker) : Option Instant := (t.pending.map PendingRequest.deadline).min?

/-- Forgets every request. -/
def clear (t : Tracker) : Tracker := { t with pending := [] }

end Tracker

end Smpp
