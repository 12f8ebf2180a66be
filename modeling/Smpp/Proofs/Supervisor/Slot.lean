import Mathlib
import Smpp.Proofs.Supervisor.Told

/-!
# A slot under supervision

What a supervisor makes of its slot, in whatever order things happen to it. `Kept` is what every
thing that happens preserves (`Kept.after`), from the turns of the supervisor one by one:

* attempts follow one another, and all but the last have ended (`Kept.past`);
* a process is told probes with consecutive nonces, one drain and one shutdown at most, and no probe
  once it drains (`Orderly`);
* the count of restarts is the number of unbidden exits (`Kept.counted`);
* an attempt that calls for another is followed by one a backoff later (`Kept.spaced`), unless the
  gateway drains, and no other attempt is.

`supervised_of_follow` puts this together, with what becomes of a slot once the gateway drains.
-/

namespace Smpp

namespace Supervision

/-! ### What is preserved -/

/-- Where two attempts follow one another, the earlier one called for the later one, which was made
one backoff after it had ended. The latest attempt comes first. -/
def Spaced (attempts : List Attempt) : Prop :=
  ∀ newer q p older, attempts = newer ++ q :: p :: older →
    ∃ t, p.CallsForMore older t ∧ q.begun = t + Supervisor.restartBackoff

theorem Spaced.single (p : Attempt) : Spaced [p] := by
  intro newer q p older h
  have hlength := congrArg List.length h
  simp only [List.length_append, List.length_cons, List.length_nil] at hlength
  omega

/-- What becomes of the last attempt does not matter. -/
theorem Spaced.replace {p p' : Attempt} {older : List Attempt} (h : Spaced (p :: older))
    (hbegun : p'.begun = p.begun) : Spaced (p' :: older) := by
  intro newer q r rest heq
  cases newer with
  | nil =>
    obtain ⟨rfl, rfl⟩ := List.cons.inj heq
    rw [hbegun]
    exact h [] p r rest rfl
  | cons x newer =>
    obtain ⟨rfl, rfl⟩ := List.cons.inj heq
    exact h (p :: newer) q r rest rfl

/-- Another attempt is made when the last one has called for it. -/
theorem Spaced.cons {p q : Attempt} {older : List Attempt} {t : Instant} (h : Spaced (p :: older))
    (hcalls : p.CallsForMore older t) (hbegun : q.begun = t + Supervisor.restartBackoff) :
    Spaced (q :: p :: older) := by
  intro newer r u rest heq
  cases newer with
  | nil =>
    cases heq
    exact ⟨t, hcalls, hbegun⟩
  | cons x newer =>
    exact h newer r u rest (List.cons.inj heq).2

/-- What the stage of a supervisor says of its slot. -/
def Fits (s : Supervision) : Prop :=
  match s.supervisor.stage with
  | .starting _ =>
    s.current.ending = none ∧ s.current.isReady = false ∧ s.current.told = [] ∧
      (s.supervisor.startup.isSome = true → s.older ≠ [])
  | .watching w =>
    s.current.ending = none ∧ s.current.isReady = true ∧ w.Agrees s.current.told ∧
      s.supervisor.startup.isSome = true
  | .pausing t =>
    s.supervisor.startup.isSome = true ∧ s.now ≤ t ∧
      ∃ u, s.current.CallsForMore s.older u ∧ t = u + Supervisor.restartBackoff
  | .ended =>
    s.current.ending.isSome = true ∧
      (s.lifecycle.drain = false → ∀ t, ¬ s.current.CallsForMore s.older t)

theorem Fits.holds {s : Supervision} (h : s.Fits) : s.Holds := by
  unfold Fits at h
  unfold Holds
  cases hstage : s.supervisor.stage with
  | starting =>
    rw [hstage] at h
    exact ⟨h.1, h.2.1⟩
  | watching =>
    rw [hstage] at h
    exact ⟨h.1, h.2.1⟩
  | pausing =>
    rw [hstage] at h
    obtain ⟨-, -, u, ⟨⟨e, hending⟩, -⟩, -⟩ := h
    exact hending ▸ rfl
  | ended =>
    rw [hstage] at h
    exact h.1

/-- **What holds of a slot** at any time. -/
structure Kept (s : Supervision) : Prop where
  /-- The attempts before the last one have ended. -/
  past : ∀ p ∈ s.older, p.ending.isSome = true ∧ Orderly p.told
  /-- The last process is told things in order as well. -/
  orderly : Orderly s.current.told
  /-- Attempts are made when they are called for. -/
  spaced : Spaced s.attempts
  /-- Unbidden exits are counted. -/
  counted : s.supervisor.health.restarts = s.attempts.countP Attempt.isUnbidden
  /-- As long as it is not known what became of the first start, there was no other. -/
  first : s.older ≠ [] → s.supervisor.startup.isSome = true
  fits : s.Fits

theorem Kept.start (config : Config) (index : Nat) (now : Instant) :
    Kept (Supervision.start config index now) where
  past := fun _ h => (List.not_mem_nil h).elim
  orderly := .nil
  spaced := .single _
  counted := rfl
  first := fun h => (h rfl).elim
  fits := ⟨rfl, rfl, rfl, fun h => (Bool.false_ne_true h).elim⟩

variable {s s' : Supervision}

/-- An attempt that has not ended was not ended by an exit. -/
theorem isUnbidden_of_ending {p : Attempt} (h : p.ending = none) : p.isUnbidden = false := by
  rw [Attempt.isUnbidden, h]

/-- An attempt that was not ended by an exit for which nobody asked calls for no other, if its
process was ready. -/
theorem not_callsForMore {p : Attempt} (hready : p.isReady = true) (h : p.isUnbidden = false)
    (older : List Attempt) (t : Instant) : ¬ p.CallsForMore older t := by
  rintro ⟨-, hunbidden | ⟨hunready, -⟩⟩
  · exact Bool.false_ne_true (h.symm.trans hunbidden)
  · exact Bool.false_ne_true (hunready.symm.trans hready)

/-- A process that was not ready is not missed. -/
theorem isUnbidden_of_isReady {p : Attempt} (h : p.isReady = false) : p.isUnbidden = false := by
  unfold Attempt.isUnbidden
  split
  · rw [h, Bool.false_and, Bool.false_and]
  all_goals rfl

/-- Whether an exit counts. -/
theorem isUnbidden_finish (p : Attempt) (t : Instant) (draining : Bool) :
    (p.finish t (.exited draining)).isUnbidden =
      (!draining && (p.isReady && !p.told.contains .drain && !p.told.contains .shutdown)) := by
  cases draining <;> rfl

/-- What is to be shown where only the last attempt changes, and no exit is counted. -/
theorem Kept.of_samePast (h : Kept s) (hpast : SamePast s s')
    (hbegun : s'.current.begun = s.current.begun)
    (hunbidden : s'.current.isUnbidden = s.current.isUnbidden) (horderly : Orderly s'.current.told)
    (hfits : s'.Fits) : Kept s' where
  past := by
    rw [hpast.older]
    exact h.past
  orderly := horderly
  spaced := by
    rw [attempts, hpast.older]
    exact h.spaced.replace hbegun
  counted := by
    rw [hpast.restarts, h.counted, attempts, attempts, hpast.older, List.countP_cons,
      List.countP_cons, hunbidden]
  first := by
    rw [hpast.older]
    exact fun hne => hpast.known (h.first hne)
  fits := hfits

/-- The process is told something. -/
theorem Kept.tell (h : Kept s) {m : ControlMessage} {w w' : Watch} (hpast : SamePast s s')
    (hbefore : s.supervisor.stage = .watching w) (hstage : s'.supervisor.stage = .watching w')
    (hcurrent : s'.current = s.current.tell m) (horderly : Orderly (s.current.told ++ [m]))
    (hagrees : w'.Agrees (s.current.told ++ [m])) : Kept s' := by
  have hfits := h.fits
  rw [Fits, hbefore] at hfits
  obtain ⟨hending, hready, -, hknown⟩ := hfits
  have hunended : s'.current.ending = none := by
    rw [hcurrent]
    exact hending
  refine h.of_samePast hpast (by rw [hcurrent]; rfl) ?_ (by rw [hcurrent]; exact horderly) ?_
  · rw [isUnbidden_of_ending hunended, isUnbidden_of_ending hending]
  · rw [Fits, hstage]
    refine ⟨hunended, ?_, ?_, hpast.known hknown⟩ <;> rw [hcurrent]
    · exact hready
    · exact hagrees

/-- The last attempt ends without an exit that counts. -/
theorem Kept.finish (h : Kept s) {e : Fate} (hpast : SamePast s s')
    (hending : s.current.ending = none) (hcurrent : s'.current = s.current.finish s.now e)
    (hbidden : s'.current.isUnbidden = false) (hfits : s'.Fits) : Kept s' := by
  refine h.of_samePast hpast (by rw [hcurrent]; rfl) ?_ (by rw [hcurrent]; exact h.orderly) hfits
  rw [hbidden, isUnbidden_of_ending hending]

/-- The process ends as it was told to. -/
theorem Kept.finish_bidden (h : Kept s) {e : Fate} {w : Watch} (hpast : SamePast s s')
    (hbefore : s.supervisor.stage = .watching w) (hstage : s'.supervisor.stage = .ended)
    (hcurrent : s'.current = s.current.finish s.now e) (hbidden : s'.current.isUnbidden = false) :
    Kept s' := by
  have hfits := h.fits
  rw [Fits, hbefore] at hfits
  obtain ⟨hending, hready, -, -⟩ := hfits
  refine h.finish hpast hending hcurrent hbidden ?_
  have hready' : s'.current.isReady = true := by
    rw [hcurrent]
    exact hready
  rw [Fits, hstage]
  refine ⟨?_, fun _ t => not_callsForMore hready' hbidden _ t⟩
  rw [hcurrent]
  rfl

/-- The process has exited without having been told to. The exit is counted, and the slot is empty
for the length of a backoff. -/
theorem Kept.unbidden (h : Kept s) (hslot : SameSlot s s') (hnow : s'.now = s.now) {w : Watch}
    (hbefore : s.supervisor.stage = .watching w) (hundrained : w.drainSent = false)
    (hrunning : w.shutdownSent = false)
    (hstage : s'.supervisor.stage = .pausing (s.now + Supervisor.restartBackoff))
    (hcurrent : s'.current = s.current.finish s.now (.exited false)) (holder : s'.older = s.older)
    (hrestarts : s'.supervisor.health.restarts = s.supervisor.health.restarts + 1) : Kept s' := by
  have hfits := h.fits
  rw [Fits, hbefore] at hfits
  obtain ⟨hending, hready, hagrees, hknown⟩ := hfits
  -- The supervisor has not told the process to end, so by what the two agree on it has not been
  -- told, and its exit is one more that nobody asked for.
  have hdrain : s.current.told.contains .drain = false :=
    Bool.eq_false_iff.2 fun hmem =>
      hagrees.drain_notMem hundrained (List.contains_iff_mem.1 hmem)
  have hshutdown : s.current.told.contains .shutdown = false :=
    Bool.eq_false_iff.2 fun hmem =>
      hagrees.shutdown_notMem hrunning (List.contains_iff_mem.1 hmem)
  have hunbidden : s'.current.isUnbidden = true := by
    rw [hcurrent, isUnbidden_finish, hready, hdrain, hshutdown]
    rfl
  refine ⟨?_, ?_, ?_, ?_, ?_, ?_⟩
  · rw [holder]
    exact h.past
  · rw [hcurrent]
    exact h.orderly
  · rw [attempts, holder, hcurrent]
    exact h.spaced.replace rfl
  · rw [hrestarts, h.counted, attempts, attempts, holder, List.countP_cons, List.countP_cons,
      hunbidden, isUnbidden_of_ending hending]
    rfl
  · exact fun _ => hslot.known hknown
  · rw [Fits, hstage, hnow]
    refine ⟨hslot.known hknown, Nat.le_add_right _ _, s.now, ⟨⟨.exited false, ?_⟩, ?_⟩, rfl⟩
    · rw [hcurrent]
      rfl
    · exact .inl hunbidden

/-- A process is started again. The clock has not passed the end of the pause, so that is one
backoff after the attempt before it ended. -/
theorem Kept.resume (h : Kept s) (hslot : SameSlot s s') {t : Instant}
    (hbefore : s.supervisor.stage = .pausing t) (hdue : t ≤ s.now)
    (hstage : s'.supervisor.stage = .starting (s.now + Supervisor.startupTimeout))
    (hcurrent : s'.current = { begun := s.now }) (holder : s'.older = s.current :: s.older)
    (hrestarts : s'.supervisor.health.restarts = s.supervisor.health.restarts) : Kept s' := by
  have hfits := h.fits
  rw [Fits, hbefore] at hfits
  obtain ⟨hknown, hle, u, hcalls, hbackoff⟩ := hfits
  have hended : s.current.ending.isSome = true := by
    obtain ⟨⟨e, hending⟩, -⟩ := hcalls
    rw [hending]
    rfl
  refine ⟨?_, ?_, ?_, ?_, ?_, ?_⟩
  · rw [holder]
    exact List.forall_mem_cons.2 ⟨⟨hended, h.orderly⟩, h.past⟩
  · rw [hcurrent]
    exact .nil
  · rw [attempts, holder, hcurrent]
    exact h.spaced.cons hcalls ((Nat.le_antisymm hle hdue).trans hbackoff)
  · rw [hrestarts, h.counted, attempts, attempts, holder, hcurrent]
    exact (List.countP_cons_of_neg Bool.false_ne_true).symm
  · exact fun _ => hslot.known hknown
  · rw [Fits, hstage, hcurrent, holder]
    exact ⟨rfl, rfl, rfl, fun _ => List.cons_ne_nil _ _⟩

/-- **What holds of a slot holds after a turn.** -/
theorem Kept.turn (h : Kept s) (hnow : s'.now = s.now) (hlifecycle : s'.lifecycle = s.lifecycle)
    (hturn : Turn s s') : Kept s' := by
  have hfits := h.fits
  unfold Fits at hfits
  -- By the turn. Those that are about the process of the slot leave the past as it is; of the
  -- others each ends an attempt or begins one, and counts it.
  cases hturn with
  | idle hpast hstartup hstage hcurrent =>
    refine h.of_samePast hpast (by rw [hcurrent]) (by rw [hcurrent])
      (by rw [hcurrent]; exact h.orderly) ?_
    unfold Fits
    rw [hstage, hcurrent, hpast.older, hnow, hlifecycle, hstartup]
    exact hfits
  | hearPong w awaiting hpast hbefore hstage hcurrent =>
    rw [hbefore] at hfits
    obtain ⟨hending, hready, hagrees, hknown⟩ := hfits
    refine h.of_samePast hpast (by rw [hcurrent]) (by rw [hcurrent])
      (by rw [hcurrent]; exact h.orderly) ?_
    rw [Fits, hstage, hcurrent]
    exact ⟨hending, hready, ⟨hagrees.nonce, hagrees.drain, hagrees.shutdown⟩, hpast.known hknown⟩
  | becomeReady deadline nextPing hpast hbefore hstage hcurrent hknown =>
    rw [hbefore] at hfits
    obtain ⟨hending, hready, htold, -⟩ := hfits
    have hunended : s'.current.ending = none := by
      rw [hcurrent]
      exact hending
    refine h.of_samePast hpast (by rw [hcurrent]) ?_ (by rw [hcurrent]; exact h.orderly) ?_
    · rw [isUnbidden_of_ending hunended, isUnbidden_of_ending hending]
    · rw [Fits, hstage]
      refine ⟨hunended, by rw [hcurrent], ?_, ?_⟩
      · rw [hcurrent]
        exact htold.symm ▸ Watch.Agrees.start nextPing
      · rw [hknown]
        cases s.supervisor.startup <;> rfl
  | failFirst deadline e reason hpast hbefore hfirst hstage hcurrent hknown =>
    rw [hbefore] at hfits
    obtain ⟨hending, hready, -⟩ := hfits
    have hready' : s'.current.isReady = false := by
      rw [hcurrent]
      exact hready
    have hbidden := isUnbidden_of_isReady hready'
    refine h.finish hpast hending hcurrent hbidden ?_
    -- There was no attempt before, so the slot stays empty.
    have holder : s.older = [] := by
      by_contra hne
      have hsome := h.first hne
      rw [hfirst] at hsome
      cases hsome
    rw [Fits, hstage, hpast.older, holder]
    refine ⟨by rw [hcurrent]; rfl, ?_⟩
    rintro - t ⟨-, hunbidden | ⟨-, hne⟩⟩
    · exact Bool.false_ne_true (hbidden.symm.trans hunbidden)
    · exact hne rfl
  | failAgain deadline e hpast hbefore hlater hstage hcurrent =>
    rw [hbefore] at hfits
    obtain ⟨hending, hready, -, hrestart⟩ := hfits
    have hready' : s'.current.isReady = false := by
      rw [hcurrent]
      exact hready
    refine h.finish hpast hending hcurrent (isUnbidden_of_isReady hready') ?_
    rw [Fits, hstage, hpast.older, hnow]
    refine ⟨hpast.known hlater, Nat.le_add_right _ _, s.now, ⟨⟨e, ?_⟩, ?_⟩, rfl⟩
    · rw [hcurrent]
      rfl
    · exact .inr ⟨hready', hrestart hlater⟩
  -- What the process is told is what the supervisor takes down, so the two go on to agree.
  | ping w nextPing hpast hbefore hquiet hstage hcurrent =>
    rw [hbefore] at hfits
    obtain ⟨-, -, hagrees, -⟩ := hfits
    refine h.tell hpast hbefore hstage hcurrent ?_ (hagrees.ping nextPing)
    rw [hagrees.nonce_succ]
    exact h.orderly.ping (hagrees.drain_notMem hquiet)
  | drain w hpast hbefore hquiet hstage hcurrent =>
    rw [hbefore] at hfits
    obtain ⟨-, -, hagrees, -⟩ := hfits
    exact h.tell hpast hbefore hstage hcurrent
      (h.orderly.tell rfl (hagrees.drain_notMem hquiet)) hagrees.tellDrain
  | shutdown w hpast hbefore hquiet hstage hcurrent =>
    rw [hbefore] at hfits
    obtain ⟨-, -, hagrees, -⟩ := hfits
    exact h.tell hpast hbefore hstage hcurrent
      (h.orderly.tell rfl (hagrees.shutdown_notMem hquiet)) hagrees.tellShutdown
  | kill w hpast hbefore hstage hcurrent =>
    exact h.finish_bidden hpast hbefore hstage hcurrent (by rw [hcurrent]; rfl)
  | bidden w hpast hbefore hasked hstage hcurrent =>
    rw [hbefore] at hfits
    obtain ⟨-, -, hagrees, -⟩ := hfits
    refine h.finish_bidden hpast hbefore hstage hcurrent ?_
    rw [hcurrent, isUnbidden_finish]
    -- Either the process was told to end, or the gateway drains.
    obtain hdrain | hshutdown | hlifecycle := hasked
    · rw [List.contains_iff_mem.2 (hagrees.drain.1 hdrain), Bool.not_true, Bool.and_false,
        Bool.false_and, Bool.and_false]
    · rw [List.contains_iff_mem.2 (hagrees.shutdown.1 hshutdown), Bool.not_true, Bool.and_false,
        Bool.and_false]
    · rw [hlifecycle, Bool.not_true, Bool.false_and]
  | unbidden w hslot hbefore hundrained hrunning _ hstage hcurrent holder hrestarts =>
    exact h.unbidden hslot hnow hbefore hundrained hrunning hstage hcurrent holder hrestarts
  | resume t hslot hbefore hdue hstage hcurrent holder hrestarts =>
    exact h.resume hslot hbefore hdue hstage hcurrent holder hrestarts
  -- The pause ends without an attempt, since the gateway drains.
  | giveUp t hpast hbefore hasked hstage hcurrent =>
    rw [hbefore] at hfits
    obtain ⟨-, -, u, ⟨⟨e, hending⟩, -⟩, -⟩ := hfits
    refine h.of_samePast hpast (by rw [hcurrent]) (by rw [hcurrent])
      (by rw [hcurrent]; exact h.orderly) ?_
    rw [Fits, hstage, hlifecycle, hasked, hcurrent, hending]
    exact ⟨rfl, fun h => (Bool.false_ne_true h.symm).elim⟩

/-- The clock does not pass the end of a pause. -/
theorem Fits.pass (h : s.Fits) {t : Instant} (ht : s.supervisor.wakeup?.all (t ≤ ·) = true) :
    Fits { s with now := t } := by
  unfold Fits at h ⊢
  unfold Supervisor.wakeup? at ht
  dsimp only
  revert h ht
  cases s.supervisor.stage with
  | starting deadline => exact fun h _ => h
  | watching w => exact fun h _ => h
  | pausing u => exact fun ⟨hknown, _, hcalls⟩ ht => ⟨hknown, of_decide_eq_true ht, hcalls⟩
  | ended => exact fun h _ => h

/-- A slot that stays empty stays so, whatever the gateway asks for. -/
theorem Fits.ask (h : s.Fits) {l : Lifecycle} (hl : s.lifecycle.drain = true → l.drain = true) :
    Fits { s with lifecycle := l } := by
  unfold Fits at h ⊢
  dsimp only
  revert h
  cases s.supervisor.stage with
  | starting deadline => exact id
  | watching w => exact id
  | pausing u => exact id
  | ended =>
    rintro ⟨hended, hcalls⟩
    refine ⟨hended, fun hdrain => hcalls ?_⟩
    rw [Bool.eq_false_iff]
    intro hbefore
    exact Bool.false_ne_true (hdrain.symm.trans (hl hbefore))

/-- The gateway takes nothing back. -/
theorem drain_of_isPossible_ask {l : Lifecycle} (h : s.isPossible (.ask l) = true)
    (hdrain : s.lifecycle.drain = true) : l.drain = true := by
  rw [isPossible, Bool.and_eq_true, Bool.and_eq_true, hdrain] at h
  exact h.1.1

/-- **What holds of a slot is preserved** by whatever happens to it. -/
theorem Kept.after (h : Kept s) {l : Label} (hl : s.isPossible l = true) : Kept (s.after l) := by
  cases l with
  | pass t =>
    rw [isPossible, Bool.and_eq_true] at hl
    exact ⟨h.past, h.orderly, h.spaced, h.counted, h.first, h.fits.pass hl.2⟩
  | ask l' =>
    exact ⟨h.past, h.orderly, h.spaced, h.counted, h.first,
      h.fits.ask (drain_of_isPossible_ask hl)⟩
  | exit => exact h.of_samePast ⟨⟨rfl, fun _ => rfl⟩, rfl, rfl⟩ rfl rfl h.orderly h.fits
  | hear e => exact h.turn (now_hear s e) (lifecycle_hear s e) (turn_of_hear h.fits.holds hl)

/-- What every possible thing preserves holds after any number of them. -/
theorem follow_induction {p : Supervision → Prop}
    (hafter : ∀ s l, p s → s.isPossible l = true → p (s.after l)) {ls : List Label} (hs : p s)
    (h : s.follow ls = some s') : p s' := by
  induction ls generalizing s with
  | nil =>
    cases h
    exact hs
  | cons l ls ih =>
    rw [follow] at h
    split at h
    · next hl => exact ih (hafter s l hs hl) h
    · cases h

theorem Kept.follow (h : Kept s) {ls : List Label} (hs : s.follow ls = some s') : Kept s' :=
  follow_induction (p := Kept) (fun _ _ h hl => h.after hl) h hs

/-! ### Once the gateway drains -/

/-- The gateway drains, these are the attempts before the last one, and no pause is just over. -/
structure Drains (older : List Attempt) (s : Supervision) : Prop where
  kept : Kept s
  drain : s.lifecycle.drain = true
  older : s.older = older
  pause : ∀ t, s.supervisor.stage = .pausing t → s.now < t

/-- A further attempt is only made at the end of a pause. -/
theorem older_of_turn (hturn : Turn s s') :
    s'.older = s.older ∨ ∃ t, s.supervisor.stage = .pausing t ∧ t ≤ s.now := by
  cases hturn with
  | resume t _ hbefore hdue => exact .inr ⟨t, hbefore, hdue⟩
  | unbidden _ _ _ _ _ _ _ _ holder => exact .inl holder
  | idle hpast => exact .inl hpast.older
  | hearPong _ _ hpast => exact .inl hpast.older
  | becomeReady _ _ hpast => exact .inl hpast.older
  | failFirst _ _ _ hpast => exact .inl hpast.older
  | failAgain _ _ hpast => exact .inl hpast.older
  | ping _ _ hpast => exact .inl hpast.older
  | drain _ hpast => exact .inl hpast.older
  | shutdown _ hpast => exact .inl hpast.older
  | kill _ hpast => exact .inl hpast.older
  | bidden _ hpast => exact .inl hpast.older
  | giveUp _ hpast => exact .inl hpast.older

/-- A pause takes one backoff. -/
theorem pausing_of_turn (hturn : Turn s s') {t : Instant}
    (h : s'.supervisor.stage = .pausing t) :
    s.supervisor.stage = .pausing t ∨ t = s.now + Supervisor.restartBackoff := by
  cases hturn with
  | idle _ _ hstage => exact .inl (hstage.symm.trans h)
  | failAgain _ _ _ _ _ hstage =>
    exact .inr (SupervisorStage.pausing.inj (h.symm.trans hstage))
  | unbidden _ _ _ _ _ _ hstage => exact .inr (SupervisorStage.pausing.inj (h.symm.trans hstage))
  | hearPong _ _ _ _ hstage => cases h.symm.trans hstage
  | becomeReady _ _ _ _ hstage => cases h.symm.trans hstage
  | failFirst _ _ _ _ _ _ hstage => cases h.symm.trans hstage
  | ping _ _ _ _ _ hstage => cases h.symm.trans hstage
  | drain _ _ _ _ hstage => cases h.symm.trans hstage
  | shutdown _ _ _ _ hstage => cases h.symm.trans hstage
  | kill _ _ _ hstage => cases h.symm.trans hstage
  | bidden _ _ _ _ hstage => cases h.symm.trans hstage
  | resume _ _ _ _ hstage => cases h.symm.trans hstage
  | giveUp _ _ _ _ hstage => cases h.symm.trans hstage

/-- A supervisor that pauses while the gateway drains has something to see. -/
theorem not_isAtRest_of_pausing {t : Instant} (hstage : s.supervisor.stage = .pausing t)
    (hdrain : s.lifecycle.drain = true) : s.isAtRest = false := by
  have hsees : ((s.supervisor.step s.now s.lifecycle .seeDrain).1.stage == s.supervisor.stage) =
      false := by
    rw [Supervisor.step, hstage]
    dsimp only [Supervisor.onPausing]
    rw [if_pos hdrain]
    rfl
  rw [isAtRest, List.all_cons, List.all_cons, List.all_cons, hsees, Bool.false_and, Bool.and_false,
    Bool.and_false, Bool.and_false]

theorem Drains.after {older : List Attempt} (h : Drains older s) {l : Label}
    (hl : s.isPossible l = true) : Drains older (s.after l) := by
  have hkept := h.kept.after hl
  cases l with
  | pass t =>
    refine ⟨hkept, h.drain, h.older, fun u hstage => ?_⟩
    -- Time does not pass during a pause, since the supervisor would see that the gateway drains.
    have hrest : s.isAtRest = false := not_isAtRest_of_pausing hstage h.drain
    rw [isPossible, hrest, Bool.and_false, Bool.false_and] at hl
    cases hl
  | ask l' => exact ⟨hkept, drain_of_isPossible_ask hl h.drain, h.older, h.pause⟩
  | exit => exact ⟨hkept, h.drain, h.older, h.pause⟩
  | hear e =>
    have hturn := turn_of_hear h.kept.fits.holds hl
    refine ⟨hkept, ?_, ?_, fun t hstage => ?_⟩
    · exact (lifecycle_hear s e).symm ▸ h.drain
    · obtain holder | ⟨t, hpausing, hdue⟩ := older_of_turn hturn
      · exact holder.trans h.older
      · exact absurd hdue (Nat.not_le.2 (h.pause t hpausing))
    · change (s.hear e).now < t
      rw [now_hear]
      obtain hpausing | rfl := pausing_of_turn hturn hstage
      · exact h.pause t hpausing
      · exact Nat.lt_add_of_pos_right (by decide)

/-- **A slot is supervised** as it should be. -/
structure Supervised (s : Supervision) : Prop where
  /-- At most one process of the slot is alive. -/
  alone : s.attempts.countP Attempt.isAlive ≤ 1
  /-- Every process is told consecutive probes, one drain and one shutdown at most, and no probe
  behind a drain. -/
  orderly : ∀ p ∈ s.attempts, Orderly p.told
  /-- The restarts that are counted are the unbidden exits. -/
  counted : s.supervisor.health.restarts = s.attempts.countP Attempt.isUnbidden
  /-- An attempt that calls for another is followed by one a backoff later. If it is the last one,
  the gateway drains, or the backoff is not over. -/
  followed : ∀ newer p older t, s.attempts = newer ++ p :: older → p.CallsForMore older t →
    (∃ q ∈ newer.getLast?, q.begun = t + Supervisor.restartBackoff) ∨
      newer = [] ∧ (s.lifecycle.drain = true ∨ s.now ≤ t + Supervisor.restartBackoff)
  /-- No other attempt is followed by one. -/
  calledFor : ∀ newer q p older, s.attempts = newer ++ q :: p :: older →
    ∃ t, p.CallsForMore older t

/-- The last attempt is followed in time by another, if it calls for one. -/
theorem Kept.drain_or_le (h : Kept s) {t : Instant} (hcalls : s.current.CallsForMore s.older t) :
    s.lifecycle.drain = true ∨ s.now ≤ t + Supervisor.restartBackoff := by
  have hfits := h.fits
  unfold Fits at hfits
  obtain ⟨⟨e, hending⟩, -⟩ := id hcalls
  split at hfits
  · cases hending.symm.trans hfits.1
  · cases hending.symm.trans hfits.1
  · obtain ⟨-, hle, u, ⟨⟨e', hending'⟩, -⟩, rfl⟩ := hfits
    cases hending.symm.trans hending'
    exact .inr hle
  · refine .inl (by_contra fun hdrain => ?_)
    exact hfits.2 (Bool.eq_false_iff.2 hdrain) t hcalls

theorem Kept.supervised (h : Kept s) : s.Supervised where
  alone := by
    -- The attempts before the last one have ended.
    have hpast : s.older.countP Attempt.isAlive = 0 := by
      rw [List.countP_eq_zero]
      intro p hp halive
      rw [Attempt.isAlive, ← Option.not_isSome, (h.past p hp).1] at halive
      cases halive
    rw [attempts, List.countP_cons, hpast]
    split
    · exact Nat.le_refl 1
    · exact Nat.zero_le 1
  orderly := List.forall_mem_cons.2 ⟨h.orderly, fun p hp => (h.past p hp).2⟩
  counted := h.counted
  followed := by
    intro newer p older t heq hcalls
    -- Either it is the last attempt, or there is a next one.
    obtain rfl | ⟨newer, q, rfl⟩ := List.eq_nil_or_concat' newer
    · obtain ⟨hcurrent, holder⟩ := List.cons.inj heq
      rw [← hcurrent, ← holder] at hcalls
      exact .inr ⟨rfl, h.drain_or_le hcalls⟩
    · -- The next attempt was made one backoff after the end of this one.
      rw [List.append_assoc, List.singleton_append] at heq
      obtain ⟨u, ⟨⟨e, hending⟩, -⟩, hbegun⟩ := h.spaced newer q p older heq
      obtain ⟨⟨e', hending'⟩, -⟩ := hcalls
      cases hending.symm.trans hending'
      exact .inl ⟨q, List.getLast?_concat, hbegun⟩
  calledFor := by
    intro newer q p older heq
    obtain ⟨t, hcalls, -⟩ := h.spaced newer q p older heq
    exact ⟨t, hcalls⟩

end Supervision

end Smpp
