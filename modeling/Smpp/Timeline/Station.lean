import Smpp.Backend
import Smpp.Handler.Progress
import Smpp.Timeline.Agenda

/-!
# A handler in time

A station is a handler with the answers that are going to come to its calls, each at its instant,
and with what its client has been sent. Its client takes whatever it is sent at once, so that no
write ever waits. Several stations share one backend, and share nothing else: what becomes of a
station depends on the others only through the answers that its own calls get.

At an instant a station does all that there is to do before any time passes (`Station.settle`). It
comes to rest because it gets lighter with everything that it does (`load_lt_of_step`). Then it
looks at its timers. `Station.wakeup?` is the next instant at which something happens by itself.
-/

namespace Smpp

/-- What the backend says to a station. -/
inductive Reply where
  /-- What became of the message of a call. -/
  | submitted (call : Nat) (result : SubmitResult)
  /-- What became of a bind. -/
  | authenticated (result : AuthResult)

/-- A handler with the answers that it waits for, with what it has sent, and with a record of what
its calls were answered. -/
structure Station where
  handler : Handler
  replies : Agenda Reply := {}
  /-- What the client has been sent. -/
  sent : Octets := []
  /-- What the backend has answered to binds, the oldest first. -/
  binds : List (Answer AuthResult) := []
  /-- What the backend has answered to messages, the oldest first. -/
  submits : List (Answer SubmitResult) := []

namespace Station

/-- A station for a connection that is accepted now. -/
def start (config : Config) (now : Instant) : Station := { handler := .start config now }

/-- Why the connection was closed, if it was. -/
def reason? (s : Station) : Option CloseReason := s.handler.reason?

/-- Whether the client sees the end of the connection. -/
def isOver (s : Station) : Bool :=
  s.reason?.isSome || s.handler.connection.ending == .reset

/-- Carries out an effect. -/
def perform (now : Instant) : Station × Backend → Effect → Station × Backend
  | (s, b), .write bs | (s, b), .farewell bs => ({ s with sent := s.sent ++ bs }, b)
  | (s, b), .submit call submission =>
    let (b, answer) := b.submit now submission
    ({ s with
        replies := s.replies.insert? (answer.delay.instant? now) (.submitted call answer.result)
        submits := s.submits ++ [answer] },
      b)
  | (s, b), .authenticate c =>
    let (b, answer) := b.authenticate now c
    let (t, result) := answer.await now s.handler.engagement.session.config.backendCallTimeout
    ({ s with
        replies := s.replies.insert t (.authenticated result)
        binds := s.binds ++ [answer] },
      b)
  | (s, b), .close => (s, b)

/-- Goes on with a handler and the effects of what it did. -/
def performAll (now : Instant) (b : Backend) (s : Station) (r : Handler × List Effect) :
    Station × Backend :=
  r.2.foldl (perform now) ({ s with handler := r.1 }, b)

/-- Hears an answer. -/
def hear (now : Instant) (b : Backend) (s : Station) : Reply → Station × Backend
  | .submitted call result => ({ s with handler := s.handler.answer call result }, b)
  | .authenticated result => s.performAll now b (s.handler.authenticated now result)

/-- The first thing that there is to do at an instant: a turn of the handler if there is one, or
else the answer that is due first. -/
def step (now : Instant) (b : Backend) (s : Station) : Option (Station × Backend) :=
  match s.handler.turn now with
  | some r => some (s.performAll now b r)
  | none =>
    match s.replies.entries with
    | [] => none
    | (t, reply) :: rest =>
      if t ≤ now then some ({ s with replies := ⟨rest⟩ }.hear now b reply) else none

/-! ### Coming to rest -/

/-- What a station has left to use up. -/
def load (s : Station) : Nat := s.handler.load + 3 * s.replies.entries.length

/-- A thing that is entered is one thing more. -/
theorem length_insert (a : Agenda Reply) (t : Instant) (r : Reply) :
    (a.insert t r).entries.length = a.entries.length + 1 := by
  have := congrArg List.length
    (List.takeWhile_append_dropWhile (p := fun e : Instant × Reply => e.1 ≤ t) (l := a.entries))
  rw [List.length_append] at this
  show (_ ++ _ :: _).length = _
  rw [List.length_append, List.length_cons]
  omega

/-- An effect adds no more than its weight. -/
theorem load_perform_le (now : Instant) (p : Station × Backend) (e : Effect) :
    (perform now p e).1.load ≤ p.1.load + e.weight := by
  obtain ⟨s, b⟩ := p
  cases e with
  | write bs => exact Nat.le_refl _
  | farewell bs => exact Nat.le_refl _
  | close => exact Nat.le_refl _
  | submit call submission =>
    simp only [perform, load, Effect.weight]
    generalize (b.submit now submission).2.delay.instant? now = t
    cases t with
    | none => exact Nat.le_add_right _ _
    | some t =>
      rw [Agenda.insert?, length_insert]
      omega
  | authenticate c =>
    simp only [perform, load, Effect.weight]
    rw [length_insert]
    omega

/-- What a handler did adds no more than the weight of its effects. -/
theorem load_performAll_le (now : Instant) (b : Backend) (s : Station) (r : Handler × List Effect) :
    (s.performAll now b r).1.load ≤ Handler.charge r + 3 * s.replies.entries.length := by
  have key : ∀ (effects : List Effect) (p : Station × Backend),
      (effects.foldl (perform now) p).1.load ≤ p.1.load + Effect.weights effects := by
    intro effects
    induction effects with
    | nil => exact fun p => Nat.le_refl _
    | cons e es ih =>
      intro p
      have h₁ := ih (perform now p e)
      have h₂ := load_perform_le now p e
      rw [List.foldl_cons, Effect.weights]
      omega
  have := key r.2 ({ s with handler := r.1 }, b)
  simp only [performAll, Handler.charge, load] at this ⊢
  omega

/-- **A station gets lighter with everything that it does.** -/
theorem load_lt_of_step {now : Instant} {b : Backend} {s : Station} {p : Station × Backend}
    (h : s.step now b = some p) : p.1.load < s.load := by
  -- The handler goes first, and pays for the answers it asks for; an answer weighs three while it
  -- is awaited, and brings the handler less.
  unfold step at h
  split at h
  · rename_i r hr
    cases h
    have h₁ := load_performAll_le now b s r
    have h₂ := Handler.charge_lt_of_turn hr
    calc (s.performAll now b r).1.load
        ≤ Handler.charge r + 3 * s.replies.entries.length := h₁
      _ < s.handler.load + 3 * s.replies.entries.length := Nat.add_lt_add_right h₂ _
  · split at h
    · cases h
    · rename_i t reply rest hentries
      split at h
      · cases h
        have hlength : s.load = s.handler.load + 3 * (rest.length + 1) := by
          rw [load, hentries, List.length_cons]
        cases reply with
        | submitted call result =>
          have := Handler.charge_answer_le s.handler call result
          simp only [hear, load] at hlength ⊢
          omega
        | authenticated result =>
          have h₁ := load_performAll_le now b { s with replies := ⟨rest⟩ }
            (s.handler.authenticated now result)
          have h₂ := Handler.charge_authenticated_le s.handler now result
          simp only [hear] at h₁ ⊢
          omega
      · cases h

/-- Does all that there is to do at an instant. -/
def settle (now : Instant) (b : Backend) (s : Station) : Station × Backend :=
  match _h : s.step now b with
  | none => (s, b)
  | some (s', b') => s'.settle now b'
  termination_by s.load
  decreasing_by exact load_lt_of_step _h

/-- Does all that there is to do at an instant, and looks at the timers. -/
def play (now : Instant) (b : Backend) (s : Station) : Station × Backend :=
  let (s, b) := s.settle now b
  s.performAll now b (s.handler.tick now)

/-- The instants at which something happens by itself. -/
def wakeups (s : Station) : List Instant :=
  (if s.handler.isServing then [s.handler.engagement.session.nextWakeup] else []) ++
    s.replies.next?.toList

end Station

end Smpp
