import Mathlib
import Smpp.Proofs.Supervisor.Supervision

/-!
# The vital signs of a slot

Of all that happens to a slot four things show in what is known of its worker (`Sign`): a process
becomes ready, a probe is sent to it, it answers one, it is gone. What is known are the `Vitals`:
the process, the sessions that it has named, the probes that it has missed, and the probe that it
has still to answer. A sign changes them in one way (`Vitals.after`), and nothing else changes them
at all (`vitals_step`).

So the vitals of a slot are what its signs make of them, one after the other (`vitals_follow`), and
whatever is to be said of them is said of rows of signs.
-/

namespace Smpp

/-- What shows in what is known of the worker in a slot. -/
inductive Sign where
  /-- A process has become ready. -/
  | ready (pid : UInt32)
  /-- A probe is sent. -/
  | ping
  /-- The process answers a probe and names the number of its sessions. -/
  | pong (nonce activeSessions : UInt64)
  /-- The process is gone. -/
  | gone
  deriving DecidableEq, Repr

namespace Sign

/-- Whether a probe is sent. -/
def isPing : Sign → Bool
  | .ping => true
  | .ready _ | .pong .. | .gone => false

/-- Whether a probe is answered. -/
def isPong : Sign → Bool
  | .pong .. => true
  | .ready _ | .ping | .gone => false

/-- Whether the process stays the same. -/
def isProbing (x : Sign) : Bool := x.isPing || x.isPong

end Sign

/-- What is known of the probes of a process. -/
structure Probes where
  /-- The nonce of the last one. -/
  last : UInt64 := 0
  /-- The one that has not been answered. -/
  awaiting : Option UInt64 := none
  deriving DecidableEq, Repr

/-- What is known of the worker in a slot. -/
structure Vitals where
  /-- The process, while one is ready. -/
  pid : Option UInt32 := none
  /-- How many sessions the last answer named. -/
  activeSessions : Nat := 0
  /-- How many probes in a row have not been answered in time. -/
  missedPongs : Nat := 0
  /-- The probes of the process that is watched. -/
  probes : Option Probes := none
  deriving DecidableEq, Repr

namespace Vitals

/-- The probe that has not been answered. -/
def awaiting (v : Vitals) : Option UInt64 := v.probes.bind Probes.awaiting

/-- **What a sign makes of the vitals.** -/
def after (v : Vitals) : Sign → Vitals
  | .ready pid => { v with pid := some pid, missedPongs := 0, probes := some {} }
  | .ping =>
    { v with
      missedPongs := if v.awaiting.isSome then v.missedPongs + 1 else v.missedPongs
      probes := v.probes.map fun p => { last := p.last + 1, awaiting := some (p.last + 1) } }
  | .pong nonce activeSessions =>
    { v with
      activeSessions := activeSessions.toNat
      missedPongs := 0
      probes := v.probes.map fun p =>
        { p with awaiting := if p.awaiting = some nonce then none else p.awaiting } }
  | .gone => { v with pid := none, probes := none }

/-- What a row of signs makes of the vitals. -/
def afterAll (v : Vitals) (signs : List Sign) : Vitals := signs.foldl after v

@[simp] theorem afterAll_nil (v : Vitals) : v.afterAll [] = v := rfl

@[simp] theorem afterAll_cons (v : Vitals) (x : Sign) (signs : List Sign) :
    v.afterAll (x :: signs) = (v.after x).afterAll signs := rfl

@[simp] theorem afterAll_append (v : Vitals) (signs signs' : List Sign) :
    v.afterAll (signs ++ signs') = (v.afterAll signs).afterAll signs' := List.foldl_append

end Vitals

namespace Supervisor

/-- What is known of the probes of the process that is watched. -/
def probes? (s : Supervisor) : Option Probes :=
  match s.stage with
  | .watching w => some { last := w.nonce, awaiting := w.awaiting }
  | .starting _ | .pausing _ | .ended => none

/-- What a supervisor knows of the worker in its slot. -/
def vitals (s : Supervisor) : Vitals :=
  { pid := s.health.pid
    activeSessions := s.health.activeSessions
    missedPongs := s.health.missedPongs
    probes := s.probes? }

/-- What shows while a process is to become ready. -/
def signOnStarting : Event → Option Sign
  | .line text =>
    match WorkerStatus.read text with
    | .ok (.ready pid _) => some (.ready pid)
    | .ok (.pong ..) | .ok (.shutdownAck _) | .error _ => none
  | .spawnFailed _ | .silence _ | .exited | .clock | .seeKill | .seeShutdown | .seeDrain => none

/-- What shows while a process is watched. -/
def signOnWatching (now : Instant) (l : Lifecycle) (w : Watch) : Event → Option Sign
  | .line text =>
    match WorkerStatus.read text with
    | .ok (.pong nonce activeSessions) => some (.pong nonce activeSessions)
    | .ok (.ready ..) | .ok (.shutdownAck _) | .error _ => none
  | .clock => if w.drainSent || now < w.nextPing then none else some .ping
  | .exited => some .gone
  | .seeKill => if l.kill then some .gone else none
  | .spawnFailed _ | .silence _ | .seeShutdown | .seeDrain => none

/-- What shows when a supervisor hears of something. -/
def sign? (s : Supervisor) (now : Instant) (l : Lifecycle) (e : Event) : Option Sign :=
  match s.stage with
  | .starting _ => signOnStarting e
  | .watching w => signOnWatching now l w e
  | .pausing _ | .ended => none

variable {s : Supervisor}

/-- The vitals without a process to watch. -/
theorem vitals_of_not_watching {s' : Supervisor} (hpid : s'.health.pid = s.health.pid)
    (hactive : s'.health.activeSessions = s.health.activeSessions)
    (hmissed : s'.health.missedPongs = s.health.missedPongs) (h : s.probes? = none)
    (h' : s'.probes? = none) : s'.vitals = s.vitals := by
  rw [vitals, vitals, hpid, hactive, hmissed, h, h']

theorem vitals_startFailed {deadline : Instant} (h : s.stage = .starting deadline) (now : Instant)
    (reason : String) : (s.startFailed now reason).vitals = s.vitals := by
  have hnone : s.probes? = none := by rw [probes?, h]
  unfold startFailed
  split <;> exact vitals_of_not_watching rfl rfl rfl hnone rfl

theorem vitals_onStarting {deadline : Instant} (h : s.stage = .starting deadline) (now : Instant)
    (e : Event) :
    (s.onStarting now deadline e).1.vitals = s.vitals.afterAll (signOnStarting e).toList := by
  cases e with
  | spawnFailed reason => exact vitals_startFailed h now reason
  | line text =>
    rw [onStarting, signOnStarting]
    cases WorkerStatus.read text with
    | error e => rfl
    | ok status => cases status <;> rfl
  | silence => exact vitals_startFailed h now _
  | clock =>
    rw [onStarting]
    split
    · exact vitals_startFailed h now _
    · rfl
  | exited | seeKill | seeShutdown | seeDrain => rfl

theorem vitals_onWatching {w : Watch} (h : s.stage = .watching w) (now : Instant) (l : Lifecycle)
    (e : Event) :
    (s.onWatching now l w e).1.vitals = s.vitals.afterAll (signOnWatching now l w e).toList := by
  have hvitals : s.vitals = { s.vitals with probes := some ⟨w.nonce, w.awaiting⟩ } := by
    rw [vitals, probes?, h]
  -- With the probes in sight both sides compute.
  rw [hvitals]
  cases e with
  | line text =>
    rw [onWatching, signOnWatching]
    cases WorkerStatus.read text with
    | error e => exact hvitals
    | ok status =>
      cases status with
      | pong nonce activeSessions => rfl
      | ready | shutdownAck => exact hvitals
  | exited =>
    rw [onWatching]
    split <;> rfl
  | clock =>
    rw [onWatching, signOnWatching]
    split
    · exact hvitals
    · rfl
  | seeKill =>
    rw [onWatching, signOnWatching]
    split
    · rfl
    · exact hvitals
  | seeShutdown =>
    rw [onWatching]
    split
    · rfl
    · exact hvitals
  | seeDrain =>
    rw [onWatching]
    split
    · rfl
    · exact hvitals
  | spawnFailed | silence => exact hvitals

/-- **Only signs change the vitals**, each in its own way. -/
theorem vitals_step (s : Supervisor) (now : Instant) (l : Lifecycle) (e : Event) :
    (s.step now l e).1.vitals = s.vitals.afterAll (s.sign? now l e).toList := by
  -- By the stage, as a step goes: without a process to watch there are no probes to keep.
  unfold step sign?
  cases hstage : s.stage with
  | starting deadline => exact vitals_onStarting hstage now e
  | watching w => exact vitals_onWatching hstage now l e
  | pausing resume =>
    have hnone : s.probes? = none := by rw [probes?, hstage]
    cases e with
    | clock =>
      dsimp only [onPausing]
      split
      · rfl
      · exact vitals_of_not_watching rfl rfl rfl hnone rfl
    | seeDrain =>
      dsimp only [onPausing]
      split
      · exact vitals_of_not_watching rfl rfl rfl hnone rfl
      · rfl
    | spawnFailed | line | silence | exited | seeKill | seeShutdown => rfl
  | ended => rfl

end Supervisor

namespace Supervision

/-- What is known of the worker in a slot. -/
def vitals (s : Supervision) : Vitals := s.supervisor.vitals

/-- What shows when something happens to a slot. -/
def sign? (s : Supervision) : Label → Option Sign
  | .hear e => s.supervisor.sign? s.now s.lifecycle e
  | .pass _ | .ask _ | .exit => none

/-- What shows when one thing after another happens to a slot. -/
def signs (s : Supervision) : List Label → List Sign
  | [] => []
  | l :: ls => (s.sign? l).toList ++ (s.after l).signs ls

/-- What happens to a slot changes its vitals by what shows of it. -/
theorem vitals_after (s : Supervision) (l : Label) :
    (s.after l).vitals = s.vitals.afterAll (s.sign? l).toList := by
  cases l with
  | hear e =>
    change (s.hear e).supervisor.vitals = _
    rw [supervisor_hear, Supervisor.vitals_step]
    rfl
  | pass | ask | exit => rfl

/-- **The vitals of a slot are what its signs have made of them.** -/
theorem vitals_follow {s s' : Supervision} {ls : List Label} (h : s.follow ls = some s') :
    s'.vitals = s.vitals.afterAll (s.signs ls) := by
  induction ls generalizing s with
  | nil =>
    cases h
    rfl
  | cons l ls ih =>
    rw [follow] at h
    split at h
    · rw [ih h, vitals_after, signs, Vitals.afterAll_append]
    · cases h

/-- Nothing is known of a slot at first. -/
theorem vitals_start (config : Config) (index : Nat) (now : Instant) :
    (Supervision.start config index now).vitals = {} := rfl

end Supervision

end Smpp
