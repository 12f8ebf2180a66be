import Mathlib
import Smpp.Coordinator
import Smpp.Proofs.Supervisor.Slot

/-!
# What a coordinator can rely on

A coordinator sees two things of a supervisor: what became of its first start, and whether it has
ended. Neither is ever taken back (`startup_after`, `hasEnded_after`). The first start is over in
time, and if it failed the supervisor has ended (`Reports`). A supervisor that is told to kill has
ended as soon as its process is ready or its start is over, which takes one start at most
(`Winding`).
-/

namespace Smpp.Supervision

variable {s s' : Supervision}

/-! ### Turns -/

/-- Whatever a supervisor does, it stays the same supervisor. -/
theorem sameSlot_of_turn (hturn : Turn s s') : SameSlot s s' := by
  cases hturn with
  | unbidden _ hslot => exact hslot
  | resume _ hslot => exact hslot
  | idle hpast => exact hpast.toSameSlot
  | hearPong _ _ hpast => exact hpast.toSameSlot
  | becomeReady _ _ hpast => exact hpast.toSameSlot
  | failFirst _ _ _ hpast => exact hpast.toSameSlot
  | failAgain _ _ hpast => exact hpast.toSameSlot
  | ping _ _ hpast => exact hpast.toSameSlot
  | drain _ hpast => exact hpast.toSameSlot
  | shutdown _ hpast => exact hpast.toSameSlot
  | kill _ hpast => exact hpast.toSameSlot
  | bidden _ hpast => exact hpast.toSameSlot
  | giveUp _ hpast => exact hpast.toSameSlot

/-- A start has begun before, or it begins now, at the end of a pause. -/
theorem starting_of_turn (hturn : Turn s s') {d : Instant}
    (h : s'.supervisor.stage = .starting d) :
    s.supervisor.stage = .starting d ∨
      d = s.now + Supervisor.startupTimeout ∧
        ∃ t, s.supervisor.stage = .pausing t ∧ t ≤ s.now := by
  cases hturn with
  | idle _ _ hstage => exact .inl (hstage.symm.trans h)
  | resume t _ hbefore hdue hstage =>
    exact .inr ⟨SupervisorStage.starting.inj (h.symm.trans hstage), t, hbefore, hdue⟩
  | failAgain _ _ _ _ _ hstage => cases h.symm.trans hstage
  | unbidden _ _ _ _ _ _ hstage => cases h.symm.trans hstage
  | hearPong _ _ _ _ hstage => cases h.symm.trans hstage
  | becomeReady _ _ _ _ hstage => cases h.symm.trans hstage
  | failFirst _ _ _ _ _ _ hstage => cases h.symm.trans hstage
  | ping _ _ _ _ _ hstage => cases h.symm.trans hstage
  | drain _ _ _ _ hstage => cases h.symm.trans hstage
  | shutdown _ _ _ _ hstage => cases h.symm.trans hstage
  | kill _ _ _ hstage => cases h.symm.trans hstage
  | bidden _ _ _ _ hstage => cases h.symm.trans hstage
  | giveUp _ _ _ _ hstage => cases h.symm.trans hstage

/-- What becomes known of the first start, if it becomes known: the process is ready, or the
supervisor has ended with the fault of its slot. -/
theorem startup_of_turn (hturn : Turn s s') (hunknown : s.supervisor.startup = none)
    {deadline : Instant} (hstage : s.supervisor.stage = .starting deadline) :
    s'.supervisor.startup = none ∧ s'.supervisor.stage = .starting deadline ∨
      s'.supervisor.startup = some (.ok ()) ∨
      s'.supervisor.stage = .ended ∧
        ∃ reason, s'.supervisor.startup =
          some (.error (.workerStartup s.supervisor.index reason)) := by
  cases hturn with
  | idle _ hstartup hsame => exact .inl ⟨hstartup.trans hunknown, hsame.trans hstage⟩
  | becomeReady _ _ _ _ _ _ hknown =>
    rw [hunknown] at hknown
    exact .inr (.inl hknown)
  | failFirst _ _ reason _ _ _ hended _ hknown => exact .inr (.inr ⟨hended, reason, hknown⟩)
  | failAgain _ _ _ _ hlater =>
    rw [hunknown] at hlater
    cases hlater
  | hearPong _ _ _ hbefore => cases hstage.symm.trans hbefore
  | ping _ _ _ hbefore => cases hstage.symm.trans hbefore
  | drain _ _ hbefore => cases hstage.symm.trans hbefore
  | shutdown _ _ hbefore => cases hstage.symm.trans hbefore
  | kill _ _ hbefore => cases hstage.symm.trans hbefore
  | bidden _ _ hbefore => cases hstage.symm.trans hbefore
  | unbidden _ _ hbefore => cases hstage.symm.trans hbefore
  | resume _ _ hbefore => cases hstage.symm.trans hbefore
  | giveUp _ _ hbefore => cases hstage.symm.trans hbefore

/-! ### What is never taken back -/

/-- Where a supervisor has ended, nothing changes it any more. -/
theorem supervisor_hear_of_ended (h : s.supervisor.stage = .ended) (e : Supervisor.Event) :
    (s.hear e).supervisor = s.supervisor := by
  have hstep : s.supervisor.step s.now s.lifecycle e = (s.supervisor, []) := by
    rw [Supervisor.step, h]
  rw [hear_of_step hstep]
  rfl

theorem stage_after_of_ended (h : s.supervisor.stage = .ended) (l : Label) :
    (s.after l).supervisor.stage = .ended := by
  cases l with
  | hear e => exact (congrArg Supervisor.stage (supervisor_hear_of_ended h e)).trans h
  | pass t => exact h
  | ask l => exact h
  | exit => exact h

/-- **A supervisor that has ended stays so.** -/
theorem hasEnded_after (h : s.supervisor.hasEnded = true) (l : Label) :
    (s.after l).supervisor.hasEnded = true :=
  beq_iff_eq.2 (stage_after_of_ended (beq_iff_eq.1 h) l)

/-- **What became of the first start does not change.** -/
theorem startup_after (hkept : Kept s) {l : Label} (hl : s.isPossible l = true)
    (h : s.supervisor.startup.isSome = true) :
    (s.after l).supervisor.startup = s.supervisor.startup := by
  cases l with
  | hear e => exact (sameSlot_of_turn (turn_of_hear hkept.fits.holds hl)).startup h
  | pass t => rfl
  | ask l => rfl
  | exit => rfl

/-! ### What a supervisor reports -/

/-- What a coordinator can rely on of the supervisor with an index that began with the clock. -/
structure Reports (index : Nat) (s : Supervision) : Prop where
  kept : Kept s
  index_eq : s.supervisor.index = index
  /-- A first start that has failed is that of this slot, and there will be no other. -/
  failed : ∀ e, s.supervisor.startup = some (.error e) →
    s.supervisor.stage = .ended ∧ ∃ reason, e = .workerStartup index reason
  /-- As long as it is not known what became of the first start, that is still being made. -/
  unknown : s.supervisor.startup = none →
    s.supervisor.stage = .starting Supervisor.startupTimeout
  /-- A start takes no longer than it may. -/
  punctual : ∀ d, s.supervisor.stage = .starting d →
    s.now ≤ d ∧ d ≤ s.now + Supervisor.startupTimeout

theorem Reports.start (config : Config) (index : Nat) :
    Reports index (Supervision.start config index 0) where
  kept := .start config index 0
  index_eq := rfl
  failed := by
    intro e h
    cases h
  unknown := fun _ => congrArg SupervisorStage.starting (Nat.zero_add _)
  punctual := by
    intro d h
    cases h
    exact ⟨Nat.zero_le _, Nat.le_refl _⟩

variable {index : Nat}

theorem Reports.turn (h : Reports index s) (hkept : Kept s') (hnow : s'.now = s.now)
    (hturn : Turn s s') (hended : s.supervisor.stage = .ended → s'.supervisor.stage = .ended) :
    Reports index s' where
  kept := hkept
  index_eq := (sameSlot_of_turn hturn).index.trans h.index_eq
  failed := by
    intro e he
    -- What was known before has not changed, and what was not became known by the turn.
    cases hstartup : s.supervisor.startup with
    | some result =>
      have hsame := (sameSlot_of_turn hturn).startup (by rw [hstartup]; rfl)
      obtain ⟨hstage, hreason⟩ := h.failed e (hsame.symm.trans he)
      exact ⟨hended hstage, hreason⟩
    | none =>
      obtain ⟨hnone, -⟩ | hok | ⟨hstage, reason, herror⟩ :=
        startup_of_turn hturn hstartup (h.unknown hstartup)
      · cases hnone.symm.trans he
      · cases hok.symm.trans he
      · cases herror.symm.trans he
        exact ⟨hstage, reason, congrArg (GatewayError.workerStartup · reason) h.index_eq⟩
  unknown := by
    intro hnone
    cases hstartup : s.supervisor.startup with
    | some result =>
      have hsame := (sameSlot_of_turn hturn).startup (by rw [hstartup]; rfl)
      cases hnone.symm.trans (hsame.trans hstartup)
    | none =>
      obtain ⟨-, hstage⟩ | hok | ⟨-, reason, herror⟩ :=
        startup_of_turn hturn hstartup (h.unknown hstartup)
      · exact hstage
      · cases hnone.symm.trans hok
      · cases hnone.symm.trans herror
  punctual := by
    intro d hstage
    rw [hnow]
    obtain hbefore | ⟨rfl, -⟩ := starting_of_turn hturn hstage
    · exact h.punctual d hbefore
    · exact ⟨Nat.le_add_right _ _, Nat.le_refl _⟩

/-- The clock does not pass the end of a start. -/
theorem le_of_isPossible_pass {t d : Instant} (h : s.isPossible (.pass t) = true)
    (hstage : s.supervisor.stage = .starting d) : s.now ≤ t ∧ t ≤ d := by
  rw [isPossible, Bool.and_eq_true, Bool.and_eq_true, Supervisor.wakeup?, hstage] at h
  exact ⟨of_decide_eq_true h.1.1, of_decide_eq_true h.2⟩

theorem Reports.after (h : Reports index s) {l : Label} (hl : s.isPossible l = true) :
    Reports index (s.after l) := by
  have hkept := h.kept.after hl
  cases l with
  | pass t =>
    refine ⟨hkept, h.index_eq, h.failed, h.unknown, fun d hstage => ?_⟩
    obtain ⟨hpast, hfuture⟩ := le_of_isPossible_pass hl hstage
    exact ⟨hfuture, Nat.le_trans (h.punctual d hstage).2 (Nat.add_le_add_right hpast _)⟩
  | ask l' => exact ⟨hkept, h.index_eq, h.failed, h.unknown, h.punctual⟩
  | exit => exact ⟨hkept, h.index_eq, h.failed, h.unknown, h.punctual⟩
  | hear e =>
    exact h.turn hkept (now_hear s e) (turn_of_hear h.kept.fits.holds hl)
      fun hended => stage_after_of_ended hended (.hear e)

/-! ### Winding up -/

/-- The gateway has been killing its workers since an instant: what has been started will be over in
one start, and no pause goes on. -/
structure Winding (since : Instant) (s : Supervision) : Prop where
  drain : s.lifecycle.drain = true
  kill : s.lifecycle.kill = true
  starting : ∀ d, s.supervisor.stage = .starting d → d ≤ since + Supervisor.startupTimeout
  pausing : ∀ t, s.supervisor.stage = .pausing t → s.now = since ∨ s.now < t

theorem Reports.winding (h : Reports index s) {l : Lifecycle} (hdrain : l.drain = true)
    (hkill : l.kill = true) : Winding s.now (s.after (.ask l)) where
  drain := hdrain
  kill := hkill
  starting := fun d hstage => (h.punctual d hstage).2
  pausing := fun _ _ => .inl rfl

/-- A supervisor that has nothing to see while the gateway kills its workers has ended, or waits for
a process to become ready. -/
theorem stage_of_isAtRest (hdrain : s.lifecycle.drain = true) (hkill : s.lifecycle.kill = true)
    (hrest : s.isAtRest = true) :
    s.supervisor.stage = .ended ∨ ∃ d, s.supervisor.stage = .starting d := by
  cases hstage : s.supervisor.stage with
  | ended => exact .inl rfl
  | starting d => exact .inr ⟨d, rfl⟩
  | pausing t =>
    rw [not_isAtRest_of_pausing hstage hdrain] at hrest
    cases hrest
  | watching w =>
    -- The supervisor would see that its process is to be killed.
    have hsees : ((s.supervisor.step s.now s.lifecycle .seeKill).1.stage == s.supervisor.stage) =
        false := by
      rw [Supervisor.step, hstage]
      dsimp only [Supervisor.onWatching]
      rw [if_pos hkill]
      rfl
    rw [isAtRest, List.all_cons, hsees, Bool.false_and, Bool.and_false] at hrest
    cases hrest

theorem isAtRest_of_isPossible_pass {t : Instant} (h : s.isPossible (.pass t) = true) :
    s.isAtRest = true := by
  rw [isPossible, Bool.and_eq_true, Bool.and_eq_true] at h
  exact h.1.2

theorem Winding.after {since : Instant} (h : Winding since s) (hreports : Reports index s)
    {l : Label} (hl : s.isPossible l = true) : Winding since (s.after l) := by
  cases l with
  | pass t =>
    refine ⟨h.drain, h.kill, h.starting, fun u hstage => ?_⟩
    -- Time does not pass during a pause, since the supervisor would see that the gateway drains.
    have hrest : s.isAtRest = false := not_isAtRest_of_pausing hstage h.drain
    rw [isAtRest_of_isPossible_pass hl] at hrest
    cases hrest
  | ask l' =>
    have hdrain := drain_of_isPossible_ask hl h.drain
    rw [isPossible, Bool.and_eq_true, h.kill] at hl
    exact ⟨hdrain, hl.2, h.starting, h.pausing⟩
  | exit => exact ⟨h.drain, h.kill, h.starting, h.pausing⟩
  | hear e =>
    have hturn := turn_of_hear hreports.kept.fits.holds hl
    refine ⟨?_, ?_, fun d hstage => ?_, fun t hstage => ?_⟩
    · exact (lifecycle_hear s e).symm ▸ h.drain
    · exact (lifecycle_hear s e).symm ▸ h.kill
    · obtain hbefore | ⟨rfl, t, hpausing, hdue⟩ := starting_of_turn hturn hstage
      · exact h.starting d hbefore
      · -- A start that begins at the end of a pause begins when the killing does, or not at all.
        obtain hnow | hlt := h.pausing t hpausing
        · exact Nat.le_of_eq (congrArg (· + Supervisor.startupTimeout) hnow)
        · exact absurd hdue (Nat.not_le.2 hlt)
    · change (s.hear e).now = since ∨ (s.hear e).now < t
      rw [now_hear]
      obtain hpausing | rfl := pausing_of_turn hturn hstage
      · exact h.pausing t hpausing
      · exact .inr (Nat.lt_add_of_pos_right (by decide))

end Smpp.Supervision
