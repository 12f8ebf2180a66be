import Smpp.Backend
import Smpp.Session.Engagement
import Smpp.Timeline.Agenda

/-!
# A session in time

A desk is an engagement with a backend and a clock. The clock moves only when it is told to, and
while a bind waits for its authentication; on its way it plays every answer of the backend at its
own instant. An authentication that is not answered within the limit for a call has failed; one that
is answered at the very end of it counts.
-/

namespace Smpp

/-- An engagement with its backend and its clock. -/
structure Desk where
  now : Instant := 0
  backend : Backend
  engagement : Engagement
  /-- The answers that are going to come: the number of a call and its result. -/
  answers : Agenda (Nat × SubmitResult) := {}

namespace Desk

/-- A desk whose clock begins with its session. -/
def start (config : Config) (backend : Backend) : Desk where
  backend := backend
  engagement := .start config 0

/-- Moves the clock forward to an instant. -/
def advanceTo (d : Desk) (t : Instant) : Desk :=
  let (due, answers) := d.answers.takeDue t
  { d with
    now := t
    answers
    engagement := { d.engagement with
      calls := due.foldl (fun calls (number, result) => calls.finish number result)
        d.engagement.calls } }

/-- Hands a frame to the session, and goes on until it has been dealt with. -/
def dispatch (d : Desk) (f : Frame) : Desk × Reaction :=
  match d.engagement.receive d.now f with
  | (engagement, .submit call submission) =>
    let (backend, answer) := d.backend.submit d.now submission
    let answers := d.answers.insert? (answer.delay.instant? d.now) (call, answer.result)
    ({ d with backend, engagement, answers }.advanceTo d.now, .submit call submission)
  | (engagement, .authenticate n b) =>
    let (backend, answer) := d.backend.authenticate d.now b.credentials
    let (t, result) := answer.await d.now engagement.session.config.backendCallTimeout
    let d := { d with backend, engagement }.advanceTo t
    let (engagement, reaction) := d.engagement.conclude t n b result
    ({ d with engagement }, reaction)
  | (engagement, reaction) => ({ d with engagement }, reaction)

/-- Passes every result in line to the session, and says for each what the client is answered. -/
def completeReady (d : Desk) : List (UInt32 × Option Frame) × Desk :=
  let step : List (UInt32 × Option Frame) × Desk → Nat → List (UInt32 × Option Frame) × Desk
    | (out, d), _ =>
      match d.engagement.completeNext with
      | none => (out, d)
      | some (engagement, completion, frame) =>
        (out ++ [(completion.sequence, frame)], { d with engagement })
  (List.range d.engagement.calls.finished.length).foldl step ([], d)

/-- Applies a step of the session. -/
def withSession {α : Type} (d : Desk) (f : Session → Session × α) : Desk × α :=
  let (session, a) := f d.engagement.session
  ({ d with engagement := { d.engagement with session } }, a)

end Desk

end Smpp
