import Mathlib
import Smpp.Supervisor

/-!
# The history of a slot

A supervisor keeps no account of the processes that it has started. A `Supervision` does: it watches
a supervisor and writes down of every attempt to start a process when it was made, what the process
was told, whether it became ready, and how and when it ended. Nothing of it is ever looked at by the
supervisor.

What happens to a slot comes in any order (`Label`): the process exits, lines come, the gateway goes
on with stopping, the supervisor hears of one thing or another, time passes. Only what cannot be is
left out (`isPossible`): nothing is heard of a process that is gone, and time does not pass while
there is something that the supervisor has not seen, nor beyond the instant for which it waits.

`Turn` says once what a supervisor does when it hears of something, and `turn_of_hear` that it does
nothing else.
-/

namespace Smpp

/-- Whether a message is a probe. -/
def ControlMessage.isPing : ControlMessage → Bool
  | .ping _ => true
  | .drain | .shutdown => false

/-- How an attempt to start a process ended. -/
inductive Fate where
  /-- There was no process. -/
  | unstarted
  /-- The process was killed. -/
  | killed
  /-- The process had exited when its supervisor looked, be the gateway draining then or not. -/
  | exited (draining : Bool)
  deriving DecidableEq, Repr

/-- An attempt to start a process, and what became of it. -/
structure Attempt where
  /-- When it was made. -/
  begun : Instant
  /-- What the process was told, the oldest message first. -/
  told : List ControlMessage := []
  /-- Whether the process has said that it is ready. -/
  isReady : Bool := false
  /-- Whether the process has exited by itself. -/
  isDead : Bool := false
  /-- When and how it ended for the supervisor. -/
  ending : Option (Instant × Fate) := none
  deriving DecidableEq, Repr

namespace Attempt

/-- Whether there may be a process. -/
def isAlive (p : Attempt) : Bool := p.ending.isNone && !p.isDead

/-- Whether the supervisor has an exit to look at. -/
def hasExit (p : Attempt) : Bool := p.ending.isNone && p.isReady && p.isDead

/-- Whether a process that was ready exited without having been told to, before the gateway
drained. -/
def isUnbidden (p : Attempt) : Bool :=
  match p.ending with
  | some (_, .exited false) =>
    p.isReady && !p.told.contains .drain && !p.told.contains .shutdown
  | some (_, .exited true) | some (_, .unstarted) | some (_, .killed) | none => false

/-- The attempt ended at an instant in such a way that another one has to be made: the exit was
unbidden, or the attempt was to replace a process, which `older` has, and failed. -/
def CallsForMore (p : Attempt) (older : List Attempt) (t : Instant) : Prop :=
  (∃ e, p.ending = some (t, e)) ∧ (p.isUnbidden = true ∨ p.isReady = false ∧ older ≠ [])

/-- The attempt ends. -/
def finish (p : Attempt) (t : Instant) (e : Fate) : Attempt := { p with ending := some (t, e) }

/-- The process is told something. -/
def tell (p : Attempt) (m : ControlMessage) : Attempt := { p with told := p.told ++ [m] }

end Attempt

/-- A supervisor with the history of its slot. -/
structure Supervision where
  supervisor : Supervisor
  now : Instant
  /-- What the gateway has asked for. -/
  lifecycle : Lifecycle := {}
  /-- The last attempt. -/
  current : Attempt
  /-- The attempts before it, the latest one first. -/
  older : List Attempt := []

namespace Supervision

/-- What happens to a slot. -/
inductive Label where
  /-- Time passes until an instant. -/
  | pass (t : Instant)
  /-- The gateway goes on with stopping. -/
  | ask (l : Lifecycle)
  /-- The process exits by itself. -/
  | exit
  /-- The supervisor hears of something. -/
  | hear (e : Supervisor.Event)
  deriving DecidableEq, Repr

/-- All attempts, the latest one first. -/
def attempts (s : Supervision) : List Attempt := s.current :: s.older

/-- The slot is filled for the first time. -/
def start (config : Config) (index : Nat) (now : Instant) : Supervision :=
  { supervisor := (Supervisor.start config index now).1, now, current := { begun := now } }

/-- Writes down an order that the supervisor gives. -/
def obey (s : Supervision) : Supervisor.Order → Supervision
  | .spawn => { s with current := { begun := s.now }, older := s.current :: s.older }
  | .tell m => { s with current := s.current.tell m }
  | .kill => { s with current := s.current.finish s.now .killed }

/-- Writes down what an event says of the last attempt. -/
def notice (s : Supervision) : Supervisor.Event → Attempt
  | .spawnFailed _ => s.current.finish s.now .unstarted
  | .line text =>
    match WorkerStatus.read text with
    | .ok (.ready ..) => { s.current with isReady := true }
    | .ok (.pong ..) | .ok (.shutdownAck _) | .error _ => s.current
  | .exited => s.current.finish s.now (.exited s.lifecycle.drain)
  | .silence _ | .clock | .seeKill | .seeShutdown | .seeDrain => s.current

/-- The supervisor hears of something, and gives its orders. -/
def hear (s : Supervision) (e : Supervisor.Event) : Supervision :=
  let (supervisor, orders) := s.supervisor.step s.now s.lifecycle e
  orders.foldl obey { s with supervisor, current := s.notice e }

/-- Whether there is nothing that the supervisor would see if it looked: no exit, and nothing that
the gateway asks for and the supervisor has not passed on. -/
def isAtRest (s : Supervision) : Bool :=
  !s.current.hasExit &&
    [Supervisor.Event.seeKill, .seeShutdown, .seeDrain].all fun e =>
      (s.supervisor.step s.now s.lifecycle e).1.stage == s.supervisor.stage

/-- Whether something can happen. -/
def isPossible (s : Supervision) : Label → Bool
  | .pass t => decide (s.now ≤ t) && s.isAtRest && s.supervisor.wakeup?.all (t ≤ ·)
  -- The gateway takes nothing back.
  | .ask l =>
    (!s.lifecycle.drain || l.drain) && (!s.lifecycle.shutdown || l.shutdown) &&
      (!s.lifecycle.kill || l.kill)
  | .exit => s.current.isAlive
  | .hear (.spawnFailed _) => s.current.ending.isNone && !s.current.isReady
  | .hear (.line _) | .hear (.silence _) => s.current.ending.isNone
  | .hear .exited => s.current.hasExit
  | .hear .clock | .hear .seeKill | .hear .seeShutdown | .hear .seeDrain => true

/-- What becomes of a slot by what happens to it. -/
def after (s : Supervision) : Label → Supervision
  | .pass t => { s with now := t }
  | .ask l => { s with lifecycle := l }
  | .exit => { s with current := { s.current with isDead := true } }
  | .hear e => s.hear e

/-- What becomes of a slot by one thing after another, if each of them can happen. -/
def follow (s : Supervision) : List Label → Option Supervision
  | [] => some s
  | l :: ls => if s.isPossible l then (s.after l).follow ls else none

theorem follow_append (s : Supervision) (ls ls' : List Label) :
    s.follow (ls ++ ls') = (s.follow ls).bind fun s => s.follow ls' := by
  induction ls generalizing s with
  | nil => rfl
  | cons l ls ih =>
    rw [List.cons_append, follow, follow]
    split
    · exact ih _
    · rfl

/-! ### What a supervisor does -/

/-- What the stage of a supervisor says of the last attempt: as long as there is a process, the
attempt has not ended, and the process is ready when it is watched. -/
def Holds (s : Supervision) : Prop :=
  match s.supervisor.stage with
  | .starting _ => s.current.ending = none ∧ s.current.isReady = false
  | .watching _ => s.current.ending = none ∧ s.current.isReady = true
  | .pausing _ | .ended => s.current.ending.isSome = true

/-- It is the same supervisor, and once it is known what became of the first start, that does not
change. -/
structure SameSlot (s s' : Supervision) : Prop where
  index : s'.supervisor.index = s.supervisor.index
  startup : s.supervisor.startup.isSome = true → s'.supervisor.startup = s.supervisor.startup

theorem SameSlot.known {s s' : Supervision} (h : SameSlot s s')
    (hs : s.supervisor.startup.isSome = true) : s'.supervisor.startup.isSome = true := by
  rw [h.startup hs]
  exact hs

/-- The attempts before the last one and the count of restarts are the same as well. -/
structure SamePast (s s' : Supervision) : Prop extends SameSlot s s' where
  older : s'.older = s.older
  restarts : s'.supervisor.health.restarts = s.supervisor.health.restarts

/-- **What a supervisor does** when it hears of something. -/
inductive Turn (s s' : Supervision) : Prop where
  /-- Nothing that matters to its slot. -/
  | idle (past : SamePast s s') (startup : s'.supervisor.startup = s.supervisor.startup)
      (stage : s'.supervisor.stage = s.supervisor.stage) (current : s'.current = s.current)
  /-- It takes in the answer to a probe. -/
  | hearPong (w : Watch) (awaiting : Option UInt64) (past : SamePast s s')
      (before : s.supervisor.stage = .watching w)
      (stage : s'.supervisor.stage = .watching { w with awaiting })
      (current : s'.current = s.current)
  /-- The process has become ready. -/
  | becomeReady (deadline nextPing : Instant) (past : SamePast s s')
      (before : s.supervisor.stage = .starting deadline)
      (stage : s'.supervisor.stage = .watching { nextPing })
      (current : s'.current = { s.current with isReady := true })
      (known : s'.supervisor.startup = s.supervisor.startup.or (some (.ok ())))
  /-- The first start has failed. -/
  | failFirst (deadline : Instant) (e : Fate) (reason : String) (past : SamePast s s')
      (before : s.supervisor.stage = .starting deadline)
      (first : s.supervisor.startup = none) (stage : s'.supervisor.stage = .ended)
      (current : s'.current = s.current.finish s.now e)
      (known : s'.supervisor.startup =
        some (.error (.workerStartup s.supervisor.index reason)))
  /-- A later start has failed. -/
  | failAgain (deadline : Instant) (e : Fate) (past : SamePast s s')
      (before : s.supervisor.stage = .starting deadline)
      (later : s.supervisor.startup.isSome = true)
      (stage : s'.supervisor.stage = .pausing (s.now + Supervisor.restartBackoff))
      (current : s'.current = s.current.finish s.now e)
  /-- It sends a probe. -/
  | ping (w : Watch) (nextPing : Instant) (past : SamePast s s')
      (before : s.supervisor.stage = .watching w) (quiet : w.drainSent = false)
      (stage : s'.supervisor.stage =
        .watching { w with nextPing, nonce := w.nonce + 1, awaiting := some (w.nonce + 1) })
      (current : s'.current = s.current.tell (.ping (w.nonce + 1)))
  /-- It passes on that the gateway drains. -/
  | drain (w : Watch) (past : SamePast s s') (before : s.supervisor.stage = .watching w)
      (quiet : w.drainSent = false)
      (stage : s'.supervisor.stage = .watching { w with drainSent := true })
      (current : s'.current = s.current.tell .drain)
  /-- It passes on that the gateway shuts down. -/
  | shutdown (w : Watch) (past : SamePast s s') (before : s.supervisor.stage = .watching w)
      (quiet : w.shutdownSent = false)
      (stage : s'.supervisor.stage = .watching { w with shutdownSent := true })
      (current : s'.current = s.current.tell .shutdown)
  /-- It kills the process. -/
  | kill (w : Watch) (past : SamePast s s') (before : s.supervisor.stage = .watching w)
      (stage : s'.supervisor.stage = .ended)
      (current : s'.current = s.current.finish s.now .killed)
  /-- It sees an exit for which the gateway has asked. -/
  | bidden (w : Watch) (past : SamePast s s') (before : s.supervisor.stage = .watching w)
      (asked : w.drainSent = true ∨ w.shutdownSent = true ∨ s.lifecycle.drain = true)
      (stage : s'.supervisor.stage = .ended)
      (current : s'.current = s.current.finish s.now (.exited s.lifecycle.drain))
  /-- It sees an exit for which nobody has asked. -/
  | unbidden (w : Watch) (slot : SameSlot s s') (before : s.supervisor.stage = .watching w)
      (undrained : w.drainSent = false) (running : w.shutdownSent = false)
      (unasked : s.lifecycle.drain = false)
      (stage : s'.supervisor.stage = .pausing (s.now + Supervisor.restartBackoff))
      (current : s'.current = s.current.finish s.now (.exited false))
      (older : s'.older = s.older)
      (restarts : s'.supervisor.health.restarts = s.supervisor.health.restarts + 1)
  /-- It starts a process again. -/
  | resume (t : Instant) (slot : SameSlot s s') (before : s.supervisor.stage = .pausing t)
      (due : t ≤ s.now)
      (stage : s'.supervisor.stage = .starting (s.now + Supervisor.startupTimeout))
      (current : s'.current = { begun := s.now }) (older : s'.older = s.current :: s.older)
      (restarts : s'.supervisor.health.restarts = s.supervisor.health.restarts)
  /-- It leaves its slot empty, since the gateway drains. -/
  | giveUp (t : Instant) (past : SamePast s s') (before : s.supervisor.stage = .pausing t)
      (asked : s.lifecycle.drain = true) (stage : s'.supervisor.stage = .ended)
      (current : s'.current = s.current)

variable {s : Supervision} {e : Supervisor.Event}

@[simp] theorem now_obey (s : Supervision) (o : Supervisor.Order) : (s.obey o).now = s.now := by
  cases o <;> rfl

@[simp] theorem lifecycle_obey (s : Supervision) (o : Supervisor.Order) :
    (s.obey o).lifecycle = s.lifecycle := by
  cases o <;> rfl

@[simp] theorem supervisor_obey (s : Supervision) (o : Supervisor.Order) :
    (s.obey o).supervisor = s.supervisor := by
  cases o <;> rfl

/-- Orders change nothing but the attempts. -/
theorem foldl_obey (s : Supervision) (orders : List Supervisor.Order) :
    (orders.foldl obey s).now = s.now ∧ (orders.foldl obey s).lifecycle = s.lifecycle ∧
      (orders.foldl obey s).supervisor = s.supervisor := by
  induction orders generalizing s with
  | nil => exact ⟨rfl, rfl, rfl⟩
  | cons o orders ih =>
    obtain ⟨hnow, hlifecycle, hsupervisor⟩ := ih (s.obey o)
    exact ⟨hnow.trans (now_obey s o), hlifecycle.trans (lifecycle_obey s o),
      hsupervisor.trans (supervisor_obey s o)⟩

@[simp] theorem now_hear (s : Supervision) (e : Supervisor.Event) : (s.hear e).now = s.now :=
  (foldl_obey _ _).1

@[simp] theorem lifecycle_hear (s : Supervision) (e : Supervisor.Event) :
    (s.hear e).lifecycle = s.lifecycle :=
  (foldl_obey _ _).2.1

theorem supervisor_hear (s : Supervision) (e : Supervisor.Event) :
    (s.hear e).supervisor = (s.supervisor.step s.now s.lifecycle e).1 :=
  (foldl_obey _ _).2.2

/-- What is heard of, in terms of what the supervisor answers. -/
theorem hear_of_step {supervisor : Supervisor} {orders : List Supervisor.Order}
    (h : s.supervisor.step s.now s.lifecycle e = (supervisor, orders)) :
    s.hear e = orders.foldl obey { s with supervisor, current := s.notice e } := by
  rw [hear, h]

/-- Nothing happens if the supervisor does nothing and no attempt is concerned. -/
theorem turn_of_idle (h : s.supervisor.step s.now s.lifecycle e = (s.supervisor, []))
    (hnotice : s.notice e = s.current) : Turn s (s.hear e) := by
  rw [hear_of_step h]
  exact .idle ⟨⟨rfl, fun _ => rfl⟩, rfl, rfl⟩ rfl rfl hnotice

/-- A start that has failed. -/
theorem turn_of_startFailed {deadline : Instant} {reason : String} {orders : List Supervisor.Order}
    (ending : Fate) (hstage : s.supervisor.stage = .starting deadline)
    (h : s.supervisor.step s.now s.lifecycle e = (s.supervisor.startFailed s.now reason, orders))
    (hcurrent : (s.hear e).current = s.current.finish s.now ending)
    (holder : (s.hear e).older = s.older) : Turn s (s.hear e) := by
  have hsupervisor : (s.hear e).supervisor = s.supervisor.startFailed s.now reason := by
    rw [hear_of_step h]
    exact (foldl_obey _ _).2.2
  unfold Supervisor.startFailed at hsupervisor
  split at hsupervisor
  · next hfirst =>
    refine .failFirst deadline ending reason ⟨⟨?_, fun hknown => ?_⟩, holder, ?_⟩ hstage hfirst ?_
      hcurrent ?_
    · rw [hsupervisor]
    · rw [hfirst] at hknown
      cases hknown
    all_goals rw [hsupervisor]
  · next hlater =>
    refine .failAgain deadline ending ⟨⟨?_, fun _ => ?_⟩, holder, ?_⟩ hstage ?_ ?_ hcurrent
    case refine_4 =>
      rw [hlater]
      rfl
    all_goals rw [hsupervisor]

/-- What a supervisor does while it waits for a process to become ready. -/
theorem turn_of_starting {deadline : Instant} (hstage : s.supervisor.stage = .starting deadline)
    (hready : s.current.isReady = false) (h : s.isPossible (.hear e) = true) :
    Turn s (s.hear e) := by
  have hstep : s.supervisor.step s.now s.lifecycle e =
      s.supervisor.onStarting s.now deadline e := by
    rw [Supervisor.step, hstage]
  cases e with
  | spawnFailed reason =>
    refine turn_of_startFailed .unstarted hstage hstep ?_ ?_ <;> rw [hear_of_step hstep] <;> rfl
  | line text =>
    cases hread : WorkerStatus.read text with
    | error err =>
      exact turn_of_idle (by rw [hstep, Supervisor.onStarting, hread]) (by rw [notice, hread])
    | ok status =>
      cases status with
      | ready pid address =>
        rw [Supervisor.onStarting, hread] at hstep
        rw [hear_of_step hstep]
        refine .becomeReady deadline (s.now + s.supervisor.healthInterval)
          ⟨⟨rfl, fun hknown => ?_⟩, rfl, rfl⟩ hstage rfl ?_ rfl
        · exact Option.or_of_isSome hknown
        change s.notice (.line text) = _
        rw [notice, hread]
      | pong nonce active =>
        exact turn_of_idle (by rw [hstep, Supervisor.onStarting, hread]) (by rw [notice, hread])
      | shutdownAck closed =>
        exact turn_of_idle (by rw [hstep, Supervisor.onStarting, hread]) (by rw [notice, hread])
  | silence =>
    refine turn_of_startFailed .killed hstage hstep ?_ ?_ <;> rw [hear_of_step hstep] <;> rfl
  | clock =>
    by_cases hdue : deadline ≤ s.now
    · rw [Supervisor.onStarting, if_pos hdue] at hstep
      refine turn_of_startFailed .killed hstage hstep ?_ ?_ <;> rw [hear_of_step hstep] <;> rfl
    · exact turn_of_idle (by rw [hstep, Supervisor.onStarting, if_neg hdue]) rfl
  | exited =>
    -- Nobody looks for the exit of a process that is not ready.
    rw [isPossible, Attempt.hasExit, hready, Bool.and_false, Bool.false_and] at h
    cases h
  | seeKill => exact turn_of_idle hstep rfl
  | seeShutdown => exact turn_of_idle hstep rfl
  | seeDrain => exact turn_of_idle hstep rfl

/-- What a supervisor does while a process is ready. -/
theorem turn_of_watching {w : Watch} (hstage : s.supervisor.stage = .watching w)
    (hready : s.current.isReady = true) (h : s.isPossible (.hear e) = true) :
    Turn s (s.hear e) := by
  have hstep : s.supervisor.step s.now s.lifecycle e =
      s.supervisor.onWatching s.now s.lifecycle w e := by
    rw [Supervisor.step, hstage]
  cases e with
  | spawnFailed reason =>
    -- The start of the process has not failed.
    rw [isPossible, hready, Bool.not_true, Bool.and_false] at h
    cases h
  | line text =>
    cases hread : WorkerStatus.read text with
    | error err =>
      exact turn_of_idle (by rw [hstep, Supervisor.onWatching, hread]) (by rw [notice, hread])
    | ok status =>
      cases status with
      | ready pid address =>
        -- The process had said so before.
        refine turn_of_idle (by rw [hstep, Supervisor.onWatching, hread]) ?_
        rw [notice, hread]
        exact congrArg (fun b => { s.current with isReady := b }) hready.symm
      | pong nonce active =>
        rw [Supervisor.onWatching, hread] at hstep
        rw [hear_of_step hstep]
        refine .hearPong w (if w.awaiting = some nonce then none else w.awaiting)
          ⟨⟨rfl, fun _ => rfl⟩, rfl, rfl⟩ hstage rfl ?_
        change s.notice (.line text) = _
        rw [notice, hread]
      | shutdownAck closed =>
        exact turn_of_idle (by rw [hstep, Supervisor.onWatching, hread]) (by rw [notice, hread])
  | silence => exact turn_of_idle hstep rfl
  -- An exit that was asked for, of the process or of the gateway, is the last; any other is
  -- replaced.
  | exited =>
    by_cases hasked : (w.drainSent || w.shutdownSent || s.lifecycle.drain) = true
    · rw [Supervisor.onWatching, if_pos hasked] at hstep
      rw [hear_of_step hstep]
      rw [Bool.or_eq_true, Bool.or_eq_true, or_assoc] at hasked
      exact .bidden w ⟨⟨rfl, fun _ => rfl⟩, rfl, rfl⟩ hstage hasked rfl rfl
    · rw [Supervisor.onWatching, if_neg hasked] at hstep
      rw [hear_of_step hstep]
      rw [Bool.not_eq_true, Bool.or_eq_false_iff, Bool.or_eq_false_iff] at hasked
      obtain ⟨⟨hdrain, hshutdown⟩, hlifecycle⟩ := hasked
      refine .unbidden w ⟨rfl, fun _ => rfl⟩ hstage hdrain hshutdown hlifecycle rfl ?_ rfl rfl
      change s.notice .exited = _
      rw [notice, hlifecycle]
  | clock =>
    by_cases hquiet : (w.drainSent || decide (s.now < w.nextPing)) = true
    · refine turn_of_idle ?_ rfl
      rw [hstep, Supervisor.onWatching, if_pos hquiet]
    · rw [Supervisor.onWatching, if_neg hquiet, Supervisor.ping] at hstep
      rw [hear_of_step hstep]
      rw [Bool.not_eq_true, Bool.or_eq_false_iff] at hquiet
      exact .ping w (s.now + s.supervisor.healthInterval) ⟨⟨rfl, fun _ => rfl⟩, rfl, rfl⟩ hstage
        hquiet.1 rfl rfl
  -- What the gateway has asked for is passed on once, and after that there is nothing to it.
  | seeKill =>
    by_cases hkill : s.lifecycle.kill = true
    · rw [Supervisor.onWatching, if_pos hkill] at hstep
      rw [hear_of_step hstep]
      exact .kill w ⟨⟨rfl, fun _ => rfl⟩, rfl, rfl⟩ hstage rfl rfl
    · exact turn_of_idle (by rw [hstep, Supervisor.onWatching, if_neg hkill]) rfl
  | seeShutdown =>
    by_cases hshutdown : (s.lifecycle.shutdown && !w.shutdownSent) = true
    · rw [Supervisor.onWatching, if_pos hshutdown] at hstep
      rw [hear_of_step hstep]
      rw [Bool.and_eq_true, Bool.not_eq_true'] at hshutdown
      exact .shutdown w ⟨⟨rfl, fun _ => rfl⟩, rfl, rfl⟩ hstage hshutdown.2 rfl rfl
    · exact turn_of_idle (by rw [hstep, Supervisor.onWatching, if_neg hshutdown]) rfl
  | seeDrain =>
    by_cases hdrain : (s.lifecycle.drain && !w.drainSent) = true
    · rw [Supervisor.onWatching, if_pos hdrain] at hstep
      rw [hear_of_step hstep]
      rw [Bool.and_eq_true, Bool.not_eq_true'] at hdrain
      exact .drain w ⟨⟨rfl, fun _ => rfl⟩, rfl, rfl⟩ hstage hdrain.2 rfl rfl
    · exact turn_of_idle (by rw [hstep, Supervisor.onWatching, if_neg hdrain]) rfl

/-- Nothing is heard of a process that is gone. -/
theorem notice_of_ending (hending : s.current.ending.isSome = true)
    (h : s.isPossible (.hear e) = true) : s.notice e = s.current := by
  have hnone : s.current.ending.isNone = false := by
    rw [← Option.not_isSome, hending]
    rfl
  cases e with
  | spawnFailed reason =>
    rw [isPossible, hnone] at h
    cases h
  | line text =>
    rw [isPossible, hnone] at h
    cases h
  | exited =>
    rw [isPossible, Attempt.hasExit, hnone] at h
    cases h
  | silence => rfl
  | clock => rfl
  | seeKill => rfl
  | seeShutdown => rfl
  | seeDrain => rfl

/-- What a supervisor does while its slot is empty. -/
theorem turn_of_pausing {t : Instant} (hstage : s.supervisor.stage = .pausing t)
    (hending : s.current.ending.isSome = true) (h : s.isPossible (.hear e) = true) :
    Turn s (s.hear e) := by
  have hstep : s.supervisor.step s.now s.lifecycle e =
      s.supervisor.onPausing s.now s.lifecycle t e := by
    rw [Supervisor.step, hstage]
  have hnotice : s.notice e = s.current := notice_of_ending hending h
  cases e with
  -- An empty slot hears of nothing but the clock and the drain.
  | spawnFailed reason => exact turn_of_idle hstep hnotice
  | line text => exact turn_of_idle hstep hnotice
  | silence => exact turn_of_idle hstep hnotice
  | exited => exact turn_of_idle hstep hnotice
  | clock =>
    by_cases hdue : s.now < t
    · exact turn_of_idle (by rw [hstep, Supervisor.onPausing, if_pos hdue]) hnotice
    · rw [Supervisor.onPausing, if_neg hdue] at hstep
      rw [hear_of_step hstep]
      exact .resume t ⟨rfl, fun _ => rfl⟩ hstage (Nat.le_of_not_lt hdue) rfl rfl rfl rfl
  | seeKill => exact turn_of_idle hstep hnotice
  | seeShutdown => exact turn_of_idle hstep hnotice
  | seeDrain =>
    by_cases hdrain : s.lifecycle.drain = true
    · rw [Supervisor.onPausing, if_pos hdrain] at hstep
      rw [hear_of_step hstep]
      exact .giveUp t ⟨⟨rfl, fun _ => rfl⟩, rfl, rfl⟩ hstage hdrain rfl rfl
    · exact turn_of_idle (by rw [hstep, Supervisor.onPausing, if_neg hdrain]) hnotice

/-- **A supervisor that hears of something takes one of its turns.** -/
theorem turn_of_hear (hholds : s.Holds) (h : s.isPossible (.hear e) = true) :
    Turn s (s.hear e) := by
  unfold Holds at hholds
  split at hholds
  · next hstage => exact turn_of_starting hstage hholds.2 h
  · next hstage => exact turn_of_watching hstage hholds.2 h
  · next hstage => exact turn_of_pausing hstage hholds h
  · next hstage =>
    exact turn_of_idle (by rw [Supervisor.step, hstage]) (notice_of_ending hholds h)

end Supervision

end Smpp
