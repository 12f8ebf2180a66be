import Mathlib
import Smpp.Proofs.Supervisor.StandIn

/-!
# Supervisors at rest

Between two instants that matter a supervisor has nothing to do: what it waits for is still to come
(`Supervisor.Waits`), which it sees to whatever it hears of (`Supervisor.Waits.step`), and it has
seen how far the gateway has come with stopping (`SupervisorStage.HasSeen`). It sees that when it
looks; what its process does because of what it is told then does not undo it
(`Slot.hasSeen_look`).
-/

namespace Smpp

namespace SupervisorStage

/-- What is waited for is still to come. -/
def IsAhead (now : Instant) : SupervisorStage → Prop
  | starting deadline => now < deadline
  | watching w => w.drainSent = false → now < w.nextPing
  | pausing resume => now < resume
  | ended => True

/-- There is nothing to be seen of how far the gateway has come: it does not kill its workers, and
the process has been told what it asks of it. The flags say which of it has been looked at. -/
def HasSeen (l : Lifecycle) (kill shutdown drain : Bool) : SupervisorStage → Prop
  | starting _ => False
  | watching w => (kill = true → l.kill = false) ∧
      (shutdown = true → l.shutdown = true → w.shutdownSent = true) ∧
      (drain = true → l.drain = true → w.drainSent = true)
  | pausing _ => drain = true → l.drain = false
  | ended => True

/-- To look how far the gateway has come changes nothing. While a process is to become ready, it
never does. -/
def IsStill (l : Lifecycle) (stage : SupervisorStage) : Prop :=
  (∃ deadline, stage = .starting deadline) ∨ stage.HasSeen l true true true

end SupervisorStage

namespace Supervisor

variable {p : Supervisor} {now : Instant} {l : Lifecycle}

/-! ### Waiting -/

/-- What a supervisor waits for is still to come, and it probes at intervals. -/
structure Waits (now : Instant) (p : Supervisor) : Prop where
  interval : 0 < p.healthInterval
  ahead : p.stage.IsAhead now

theorem Waits.lt_wakeup (h : p.Waits now) {u : Instant} (hu : u ∈ p.wakeup?) : now < u := by
  have hahead := h.ahead
  unfold wakeup? at hu
  split at hu
  · next deadline hstage =>
    rw [hstage] at hahead
    cases hu
    exact hahead
  · next w hstage =>
    rw [hstage] at hahead
    split at hu
    · cases hu
    · next hdrain =>
      cases hu
      exact hahead (Bool.eq_false_iff.2 hdrain)
  · next resume hstage =>
    rw [hstage] at hahead
    cases hu
    exact hahead
  · cases hu

/-- A supervisor still waits when the clock has moved and not come to that. -/
theorem Waits.later (h : p.Waits now) {t : Instant} (hlate : ∀ u ∈ p.wakeup?, t < u) :
    p.Waits t := by
  refine ⟨h.interval, ?_⟩
  unfold wakeup? at hlate
  cases hstage : p.stage with
  | starting deadline | pausing deadline =>
    rw [hstage] at hlate
    exact hlate deadline rfl
  | watching w =>
    rw [hstage] at hlate
    intro hdrain
    dsimp only at hlate
    rw [hdrain] at hlate
    exact hlate w.nextPing rfl
  | ended => trivial

theorem waits_startFailed (hinterval : 0 < p.healthInterval) (reason : String) :
    (p.startFailed now reason).Waits now := by
  unfold startFailed
  split
  · exact ⟨hinterval, trivial⟩
  · exact ⟨hinterval, Nat.lt_add_of_pos_right (by decide)⟩

theorem waits_ping (hinterval : 0 < p.healthInterval) (w : Watch) : (p.ping now w).1.Waits now :=
  ⟨hinterval, fun _ => Nat.lt_add_of_pos_right hinterval⟩

/-- **A supervisor waits for nothing that is over**, whatever it hears of. -/
theorem Waits.step (h : p.Waits now) (e : Event) : (p.step now l e).1.Waits now := by
  -- By the stage, and in each by the events that it listens to. What is waited for changes in two
  -- ways only: it is set anew, by a span that is not empty, or the attempt is over.
  have hahead := h.ahead
  unfold Supervisor.step
  cases hstage : p.stage with
  | starting deadline =>
    cases e with
    | spawnFailed reason => exact waits_startFailed h.interval reason
    | silence => exact waits_startFailed h.interval _
    | line text =>
      dsimp only [onStarting]
      -- The worker is ready, and its first ping is an interval away.
      split
      · exact ⟨h.interval, fun _ => Nat.lt_add_of_pos_right h.interval⟩
      all_goals exact h
    | clock =>
      dsimp only [onStarting]
      split
      · exact waits_startFailed h.interval _
      · exact h
    | exited | seeKill | seeShutdown | seeDrain => exact h
  | watching w =>
    rw [hstage] at hahead
    cases e with
    | line text =>
      dsimp only [onWatching]
      split
      · exact ⟨h.interval, hahead⟩
      all_goals exact h
    | exited =>
      dsimp only [onWatching]
      -- Nothing follows once the gateway drains; a pause of a second does otherwise.
      split
      · exact ⟨h.interval, trivial⟩
      · exact ⟨h.interval, Nat.lt_add_of_pos_right (by decide)⟩
    | clock =>
      dsimp only [onWatching]
      split
      · exact h
      · exact waits_ping h.interval w
    | seeKill =>
      dsimp only [onWatching]
      split
      · exact ⟨h.interval, trivial⟩
      · exact h
    | seeShutdown =>
      dsimp only [onWatching]
      split
      · exact ⟨h.interval, hahead⟩
      · exact h
    | seeDrain =>
      dsimp only [onWatching]
      -- A worker that is told to drain is not probed any more.
      split
      · exact ⟨h.interval, fun hsent => nomatch hsent⟩
      · exact h
    | spawnFailed | silence => exact h
  | pausing resume =>
    cases e with
    | clock =>
      dsimp only [onPausing]
      split
      · exact h
      · exact ⟨h.interval, Nat.lt_add_of_pos_right (by decide)⟩
    | seeDrain =>
      dsimp only [onPausing]
      split
      · exact ⟨h.interval, trivial⟩
      · exact h
    | spawnFailed | line | silence | exited | seeKill | seeShutdown => exact h
  | ended => exact h

/-- A supervisor that has looked at the clock waits for what is still to come. -/
theorem waits_clock (hinterval : 0 < p.healthInterval) : (p.step now l .clock).1.Waits now := by
  unfold Supervisor.step
  cases hstage : p.stage with
  | starting deadline =>
    dsimp only [onStarting]
    split
    · exact waits_startFailed hinterval _
    · next hearly => exact ⟨hinterval, by rw [hstage]; exact Nat.lt_of_not_le hearly⟩
  | watching w =>
    dsimp only [onWatching]
    split
    -- Nothing is done of a process that drains, and of another if its ping is still to come.
    · next hquiet =>
      refine ⟨hinterval, ?_⟩
      rw [hstage]
      intro hdrain
      rw [hdrain, Bool.false_or] at hquiet
      exact of_decide_eq_true hquiet
    · exact waits_ping hinterval w
  | pausing resume =>
    dsimp only [onPausing]
    split
    · next hearly => exact ⟨hinterval, by rw [hstage]; exact hearly⟩
    · exact ⟨hinterval, Nat.lt_add_of_pos_right (by decide)⟩
  | ended =>
    refine ⟨hinterval, ?_⟩
    rw [hstage]
    trivial

/-! ### Having seen -/

/-- A supervisor that waits for a process to become ready sees nothing. -/
theorem step_of_starting {deadline : Instant} (hstage : p.stage = .starting deadline) {e : Event}
    (he : e ∈ [.seeKill, .seeShutdown, .seeDrain]) : p.step now l e = (p, []) := by
  simp only [List.mem_cons, List.not_mem_nil, or_false] at he
  unfold step
  rw [hstage]
  obtain rfl | rfl | rfl := he <;> rfl

/-- Once everything has been looked at, to look again changes nothing. -/
theorem stage_step_of_hasSeen (h : p.stage.HasSeen l true true true) {e : Event}
    (he : e ∈ [.seeKill, .seeShutdown, .seeDrain]) : (p.step now l e).1.stage = p.stage := by
  simp only [List.mem_cons, List.not_mem_nil, or_false] at he
  unfold step
  cases hstage : p.stage with
  | starting deadline => rw [hstage] at h; exact h.elim
  | watching w =>
    rw [hstage] at h
    obtain ⟨hkill, hshutdown, hdrain⟩ := h
    -- What has been asked for has been passed on already, or has not been asked for.
    obtain rfl | rfl | rfl := he
    · dsimp only [onWatching]
      rw [hkill rfl]
      exact hstage
    · dsimp only [onWatching]
      rw [if_neg]
      · exact hstage
      · simpa using hshutdown rfl
    · dsimp only [onWatching]
      rw [if_neg]
      · exact hstage
      · simpa using hdrain rfl
  | pausing resume =>
    rw [hstage] at h
    obtain rfl | rfl | rfl := he
    · exact hstage
    · exact hstage
    · dsimp only [onPausing]
      rw [h rfl]
      exact hstage
  | ended => exact hstage

/-- A supervisor that has nothing to see stays as it is. -/
theorem stage_step_of_isStill (h : p.stage.IsStill l) {e : Event}
    (he : e ∈ [.seeKill, .seeShutdown, .seeDrain]) : (p.step now l e).1.stage = p.stage := by
  obtain ⟨deadline, hstage⟩ | hseen := h
  · rw [step_of_starting hstage he]
  · exact stage_step_of_hasSeen hseen he

variable {kill shutdown drain : Bool}

/-- **What a process does leaves what has been seen.** -/
theorem hasSeen_step_of_process (h : p.stage.HasSeen l kill shutdown drain) {e : Event}
    (he : (∃ text, e = .line text) ∨ e = .silence none ∨ e = .exited) :
    (p.step now l e).1.stage.HasSeen l kill shutdown drain := by
  unfold step
  cases hstage : p.stage with
  | starting deadline => rw [hstage] at h; exact h.elim
  | watching w =>
    have hkept := h
    rw [hstage] at hkept
    obtain ⟨text, rfl⟩ | rfl | rfl := he
    · dsimp only [onWatching]
      split
      · exact hkept
      all_goals exact h
    · exact h
    · dsimp only [onWatching]
      split
      · trivial
      · next hasked =>
        -- The process is replaced only if the gateway does not drain.
        rw [Bool.not_eq_true, Bool.or_eq_false_iff] at hasked
        exact fun _ => hasked.2
  | pausing resume => obtain ⟨text, rfl⟩ | rfl | rfl := he <;> exact h
  | ended => obtain ⟨text, rfl⟩ | rfl | rfl := he <;> exact h

theorem hasSeen_seeKill (h : p.stage.HasSeen l kill shutdown drain) :
    (p.step now l .seeKill).1.stage.HasSeen l true shutdown drain := by
  unfold step
  cases hstage : p.stage with
  | starting deadline => rw [hstage] at h; exact h.elim
  | watching w =>
    rw [hstage] at h
    dsimp only [onWatching]
    -- A process that is killed is the last of its slot, and there is nothing more to see.
    split
    · trivial
    · next hkill =>
      rw [hstage]
      exact ⟨fun _ => Bool.eq_false_iff.2 hkill, h.2⟩
  | pausing resume =>
    rw [hstage] at h
    dsimp only [onPausing]
    rw [hstage]
    exact h
  | ended =>
    dsimp only
    rw [hstage]
    trivial

theorem hasSeen_seeShutdown (h : p.stage.HasSeen l kill shutdown drain) :
    (p.step now l .seeShutdown).1.stage.HasSeen l kill true drain := by
  unfold step
  cases hstage : p.stage with
  | starting deadline => rw [hstage] at h; exact h.elim
  | watching w =>
    rw [hstage] at h
    obtain ⟨hkill, -, hdrain⟩ := h
    dsimp only [onWatching]
    -- It is told now, or it has been told, or there is no shutdown; the same with the drain below.
    split
    · exact ⟨hkill, fun _ _ => rfl, hdrain⟩
    · next htold =>
      rw [hstage]
      refine ⟨hkill, fun _ hasked => ?_, hdrain⟩
      rw [hasked, Bool.true_and, Bool.not_eq_true', Bool.not_eq_false] at htold
      exact htold
  | pausing resume =>
    rw [hstage] at h
    dsimp only [onPausing]
    rw [hstage]
    exact h
  | ended =>
    dsimp only
    rw [hstage]
    trivial

theorem hasSeen_seeDrain (h : p.stage.HasSeen l kill shutdown drain) :
    (p.step now l .seeDrain).1.stage.HasSeen l kill shutdown true := by
  unfold step
  cases hstage : p.stage with
  | starting deadline => rw [hstage] at h; exact h.elim
  | watching w =>
    rw [hstage] at h
    obtain ⟨hkill, hshutdown, -⟩ := h
    dsimp only [onWatching]
    split
    · exact ⟨hkill, hshutdown, fun _ _ => rfl⟩
    · next htold =>
      rw [hstage]
      refine ⟨hkill, hshutdown, fun _ hasked => ?_⟩
      rw [hasked, Bool.true_and, Bool.not_eq_true', Bool.not_eq_false] at htold
      exact htold
  | pausing resume =>
    dsimp only [onPausing]
    -- A pause is given up when the gateway drains.
    split
    · trivial
    · next hasked =>
      rw [hstage]
      exact fun _ => Bool.eq_false_iff.2 hasked
  | ended =>
    dsimp only
    rw [hstage]
    trivial

end Supervisor

namespace Slot

variable {slot : Slot} {now : Instant} {l : Lifecycle} {s : Supervision}

/-! ### With a process -/

/-- What is so when a supervisor has heard of something, and remains so by what the process does
because of it, is so when the slot has dealt with it. -/
theorem handle_induction {P : Supervisor → Prop} {e : Supervisor.Event}
    (h : P (slot.supervisor.step now l e).1)
    (hstep : ∀ p, P p →
      ∀ e' ∈ (obeyAll slot.standIn (slot.supervisor.step now l e).2).2, P (p.step now l e').1) :
    P (slot.handle now l e).supervisor :=
  List.foldlRecOn (motive := fun slot : Slot => P slot.supervisor) _ _ h
    fun slot => hstep slot.supervisor

theorem waits_foldl (h : slot.supervisor.Waits now) (events : List Supervisor.Event) :
    (events.foldl (hear now l) slot).supervisor.Waits now :=
  List.foldlRecOn (motive := fun slot : Slot => slot.supervisor.Waits now) events _ h
    fun _ h e _ => h.step e

theorem waits_handle (h : slot.supervisor.Waits now) (e : Supervisor.Event) :
    (slot.handle now l e).supervisor.Waits now :=
  handle_induction (h.step e) fun _ h e _ => h.step e

theorem waits_handle_clock (hinterval : 0 < slot.supervisor.healthInterval) :
    (slot.handle now l .clock).supervisor.Waits now :=
  handle_induction (Supervisor.waits_clock hinterval) fun _ h e _ => h.step e

theorem waits_look (h : slot.supervisor.Waits now) : (slot.look now l).supervisor.Waits now :=
  waits_handle (waits_handle (waits_handle h _) _) _

theorem waits_start {config : Config} (hinterval : 0 < config.healthInterval) (now : Instant)
    (index : Nat) (launches : List Launch) :
    (start config now index launches).supervisor.Waits now :=
  waits_foldl ⟨hinterval, Nat.lt_add_of_pos_right (by decide)⟩ _

/-- What a process does. -/
theorem mem_behave {standIn : StandIn} {b : Behaviour} {e : Supervisor.Event}
    (he : e ∈ (standIn.behave b).2) :
    (∃ text, e = .line text) ∨ e = .silence none ∨ e = .exited := by
  have hlines : e ∈ standIn.say b.lines → ∃ text, e = .line text := by
    unfold StandIn.say
    intro he
    split at he
    · obtain ⟨text, -, rfl⟩ := List.mem_map.1 he
      exact ⟨text, rfl⟩
    · cases he
  have hexits : e ∈ standIn.exit.2 → e = .silence none ∨ e = .exited := by
    unfold StandIn.exit
    intro he
    split at he
    · simpa using he
    · cases he
  unfold StandIn.behave at he
  split at he
  · exact (List.mem_append.1 he).imp hlines hexits
  · exact .inl (hlines he)

theorem mem_obey_tell {standIn : StandIn} {m : ControlMessage} {e : Supervisor.Event}
    (he : e ∈ (standIn.obey (.tell m)).2) :
    (∃ text, e = .line text) ∨ e = .silence none ∨ e = .exited := by
  unfold StandIn.obey at he
  dsimp only at he
  split at he
  · cases he
  · next script hscript =>
    cases m with
    | drain => exact mem_behave he
    | shutdown => exact mem_behave he
    | ping nonce =>
      dsimp only [StandIn.say] at he
      rw [hscript] at he
      obtain ⟨text, -, rfl⟩ := List.mem_map.1 he
      exact .inl ⟨text, rfl⟩

variable {kill shutdown drain : Bool}

/-- What the process does while its supervisor looks leaves what has been seen. -/
theorem hasSeen_handle {e : Supervisor.Event} (he : e ∈ [.seeKill, .seeShutdown, .seeDrain])
    (h : (slot.supervisor.step now l e).1.stage.HasSeen l kill shutdown drain) :
    (slot.handle now l e).supervisor.stage.HasSeen l kill shutdown drain := by
  refine handle_induction (P := fun p => p.stage.HasSeen l kill shutdown drain) h
    fun p hp e' he' => Supervisor.hasSeen_step_of_process hp ?_
  -- Only what the process is told makes it do something, and to look starts none.
  obtain hnone | ⟨-, rfl, -⟩ | ⟨m, htell⟩ | hkill :=
    slot.supervisor.orders_cases now l (List.mem_cons_of_mem .clock he)
  · rw [hnone] at he'
    cases he'
  · simp at he
  · rw [htell] at he'
    exact mem_obey_tell ((List.mem_append.1 he').resolve_right List.not_mem_nil)
  · rw [hkill] at he'
    cases he'

/-- To look leaves a slot as it is whose process is to become ready. -/
theorem look_of_starting {deadline : Instant}
    (hstage : slot.supervisor.stage = .starting deadline) : slot.look now l = slot := by
  have hhandle {e : Supervisor.Event} (he : e ∈ [.seeKill, .seeShutdown, .seeDrain]) :
      slot.handle now l e = slot := by
    have hstep : slot.supervisor.step now l e = (slot.supervisor, []) :=
      Supervisor.step_of_starting hstage he
    rw [handle_of_nil (congrArg Prod.snd hstep), hstep]
  unfold look
  rw [List.foldl_cons, hhandle (by simp), List.foldl_cons, hhandle (by simp), List.foldl_cons,
    hhandle (by simp)]
  rfl

/-- **A supervisor that has looked has nothing to see.** -/
theorem isStill_look : (slot.look now l).supervisor.stage.IsStill l := by
  -- One look after the other, and none undoes what has been seen before.
  have hlook (h : slot.supervisor.stage.HasSeen l false false false) :
      (slot.look now l).supervisor.stage.IsStill l := by
    have hkill : (slot.handle now l .seeKill).supervisor.stage.HasSeen l true false false :=
      hasSeen_handle (by simp) (Supervisor.hasSeen_seeKill h)
    have hshutdown : ((slot.handle now l .seeKill).handle now l
        .seeShutdown).supervisor.stage.HasSeen l true true false :=
      hasSeen_handle (by simp) (Supervisor.hasSeen_seeShutdown hkill)
    exact .inr (hasSeen_handle (by simp) (Supervisor.hasSeen_seeDrain hshutdown))
  cases hstage : slot.supervisor.stage with
  | starting deadline =>
    rw [look_of_starting hstage]
    exact .inl ⟨deadline, hstage⟩
  | watching w => exact hlook (hstage ▸ ⟨nofun, nofun, nofun⟩)
  | pausing resume => exact hlook (hstage ▸ nofun)
  | ended => exact hlook (hstage ▸ trivial)

/-- **A slot is at rest** when its supervisor has nothing to see. -/
theorem Under.isAtRest (h : slot.Under now l s) (hstill : slot.supervisor.stage.IsStill l) :
    s.isAtRest = true := by
  -- Every exit has been seen by now.
  have hexit : s.current.hasExit = false := by
    rw [Attempt.hasExit, Bool.and_eq_false_iff, or_iff_not_imp_right, Bool.not_eq_false]
    intro hdead
    rw [← Option.not_isSome, h.seen hdead]
    rfl
  rw [Supervision.isAtRest, hexit, h.tracks.supervisor, h.tracks.now, h.tracks.lifecycle,
    Bool.not_false, Bool.true_and, List.all_eq_true]
  exact fun e he => beq_iff_eq.2 (Supervisor.stage_step_of_isStill hstill he)

/-- **Time passes** until an instant that is not beyond what the supervisor waits for. -/
theorem Under.pass (h : slot.Under now l s) (hstill : slot.supervisor.stage.IsStill l) {t : Instant}
    (hle : now ≤ t) (hwakeup : ∀ u ∈ slot.supervisor.wakeup?, t ≤ u) :
    s.isPossible (.pass t) = true ∧ slot.Under t l (s.after (.pass t)) := by
  have hpossible : s.isPossible (.pass t) = true := by
    rw [Supervision.isPossible, h.isAtRest hstill, h.tracks.supervisor, h.tracks.now,
      Bool.and_true, Bool.and_eq_true, Option.all_eq_true]
    exact ⟨decide_eq_true hle, fun u hu => decide_eq_true (hwakeup u hu)⟩
  refine ⟨hpossible, ⟨?_, h.seen⟩⟩
  exact ⟨h.tracks.kept.after hpossible, rfl, h.tracks.lifecycle, h.tracks.supervisor,
    h.tracks.alive⟩

/-- The gateway goes on with stopping. -/
theorem Under.ask (h : slot.Under now l s) {l' : Lifecycle}
    (hpossible : s.isPossible (.ask l') = true) : slot.Under now l' (s.after (.ask l')) :=
  ⟨⟨h.tracks.kept.after hpossible, h.tracks.now, rfl, h.tracks.supervisor, h.tracks.alive⟩, h.seen⟩

end Slot

end Smpp
