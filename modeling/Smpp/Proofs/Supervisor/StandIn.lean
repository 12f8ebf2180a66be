import Mathlib
import Smpp.Proofs.Supervisor.Slot
import Smpp.Timeline.Fleet

/-!
# A stand-in under supervision

A slot with a stand-in does what a slot may do: whatever passes between the supervisor and the
process is one possible thing after another for the history of the slot (`Slot.Under.handle`,
`Slot.Under.start`). The relation is that the supervisor is the same and that a process that runs is
the process of an attempt that goes on (`Slot.Under`); a batch of what a process says, and of its
exit, is followed one event at a time (`Supervision.Tracks`).
-/

namespace Smpp

namespace Supervision

variable {now : Instant} {l : Lifecycle} {s s' s'' : Supervision}

/-! ### What happens in a slot while no time passes -/

/-- Whether something happens between the supervisor and the process. -/
def Label.isLocal : Label → Bool
  | .exit | .hear _ => true
  | .pass _ | .ask _ => false

/-- A slot can come from one state to another by what happens between the supervisor and the
process. -/
def Leads (s s' : Supervision) : Prop :=
  ∃ ls, (∀ l ∈ ls, Label.isLocal l = true) ∧ s.follow ls = some s'

theorem Leads.refl (s : Supervision) : Leads s s := ⟨[], fun _ h => absurd h List.not_mem_nil, rfl⟩

theorem Leads.trans (h : Leads s s') (h' : Leads s' s'') : Leads s s'' := by
  obtain ⟨ls, hls, hfollow⟩ := h
  obtain ⟨ls', hls', hfollow'⟩ := h'
  refine ⟨ls ++ ls', fun l hl => ?_, ?_⟩
  · exact (List.mem_append.1 hl).elim (hls l) (hls' l)
  · rw [follow_append, hfollow]
    exact hfollow'

theorem Leads.single {l : Label} (hlocal : l.isLocal = true) (hl : s.isPossible l = true) :
    Leads s (s.after l) := by
  refine ⟨[l], List.forall_mem_singleton.2 hlocal, ?_⟩
  rw [follow, if_pos hl]
  rfl

/-- A slot at an instant and a stage of stopping whose supervisor is `p`, and whose process still
does something if `alive` says so. -/
structure Tracks (now : Instant) (l : Lifecycle) (p : Supervisor) (alive : Bool)
    (s : Supervision) : Prop where
  kept : s.Kept
  now : s.now = now
  lifecycle : s.lifecycle = l
  supervisor : s.supervisor = p
  alive : alive = true → s.current.isAlive = true

variable {p : Supervisor} {alive alive' : Bool} {e : Supervisor.Event}

/-- The supervisor hears of something that can have happened. -/
theorem Tracks.hear (h : Tracks now l p alive s) (he : s.isPossible (.hear e) = true)
    (halive : alive' = true → (s.hear e).current.isAlive = true) :
    Leads s (s.hear e) ∧ Tracks now l (p.step now l e).1 alive' (s.hear e) := by
  refine ⟨.single rfl he, h.kept.after he, (now_hear s e).trans h.now,
    (lifecycle_hear s e).trans h.lifecycle, ?_, halive⟩
  rw [supervisor_hear, h.supervisor, h.now, h.lifecycle]

/-- What is written down of the last attempt when the supervisor orders nothing. -/
theorem current_hear_of_nil (h : Tracks now l p alive s) (horders : (p.step now l e).2 = []) :
    (s.hear e).current = s.notice e := by
  unfold hear
  dsimp only
  rw [h.supervisor, h.now, h.lifecycle, horders]
  rfl

/-- What is written down when it gives one order. -/
theorem current_hear_of_order (h : Tracks now l p alive s) {o : Supervisor.Order}
    (horders : (p.step now l e).2 = [o]) :
    (s.hear e).current =
      (obey { s with supervisor := (p.step now l e).1, current := s.notice e } o).current := by
  unfold hear
  dsimp only
  rw [h.supervisor, h.now, h.lifecycle, horders]
  rfl

end Supervision

namespace Supervisor

variable (p : Supervisor) (now : Instant) (l : Lifecycle)

/-! ### What a supervisor orders -/

theorem orders_line (text : String) : (p.step now l (.line text)).2 = [] := by
  unfold step
  cases p.stage with
  | starting deadline =>
    dsimp only [onStarting]
    split <;> rfl
  | watching w =>
    dsimp only [onWatching]
    split <;> rfl
  | pausing | ended => rfl

theorem orders_exited : (p.step now l .exited).2 = [] := by
  unfold step
  cases p.stage with
  | watching w =>
    dsimp only [onWatching]
    split <;> rfl
  | starting | pausing | ended => rfl

theorem orders_spawnFailed (reason : String) : (p.step now l (.spawnFailed reason)).2 = [] := by
  unfold step
  cases p.stage <;> rfl

/-- A look at the clock, or at how far the gateway has come, calls for one order at most. -/
theorem orders_cases {e : Event} (he : e ∈ [.clock, .seeKill, .seeShutdown, .seeDrain]) :
    (p.step now l e).2 = [] ∨
      ((p.step now l e).2 = [.spawn] ∧ e = .clock ∧ ∃ t, p.stage = .pausing t) ∨
      (∃ m, (p.step now l e).2 = [.tell m]) ∨ (p.step now l e).2 = [.kill] := by
  simp only [List.mem_cons, List.not_mem_nil, or_false] at he
  unfold step
  -- The clock means something else at each stage; of the other three only the one who watches a
  -- process hears, and the order is always to that process.
  obtain rfl | rfl | rfl | rfl := he
  · cases p.stage with
    | starting deadline =>
      dsimp only [onStarting]
      split
      · exact .inr (.inr (.inr rfl))
      · exact .inl rfl
    | watching w =>
      dsimp only [onWatching]
      split
      · exact .inl rfl
      · exact .inr (.inr (.inl ⟨_, rfl⟩))
    | pausing t =>
      dsimp only [onPausing]
      split
      · exact .inl rfl
      · exact .inr (.inl ⟨rfl, rfl, t, rfl⟩)
    | ended => exact .inl rfl
  · cases p.stage with
    | watching w =>
      dsimp only [onWatching]
      split
      · exact .inr (.inr (.inr rfl))
      · exact .inl rfl
    | starting | pausing | ended => exact .inl rfl
  · cases p.stage with
    | watching w =>
      dsimp only [onWatching]
      split
      · exact .inr (.inr (.inl ⟨_, rfl⟩))
      · exact .inl rfl
    | starting | pausing | ended => exact .inl rfl
  · cases p.stage with
    | watching w =>
      dsimp only [onWatching]
      split
      · exact .inr (.inr (.inl ⟨_, rfl⟩))
      · exact .inl rfl
    | starting | pausing | ended => exact .inl rfl

end Supervisor

namespace Supervision

variable {now : Instant} {l : Lifecycle} {s : Supervision}

/-! ### What a process says -/

/-- A line says nothing of the end of an attempt. -/
theorem ending_notice_line (s : Supervision) (text : String) :
    (s.notice (.line text)).ending = s.current.ending ∧
      (s.notice (.line text)).isDead = s.current.isDead := by
  unfold notice
  dsimp only
  split <;> exact ⟨rfl, rfl⟩

theorem ending_of_isAlive {a : Attempt} (h : a.isAlive = true) :
    a.ending = none ∧ a.isDead = false := by
  unfold Attempt.isAlive at h
  rw [Bool.and_eq_true, Option.isNone_iff_eq_none, Bool.not_eq_true'] at h
  exact h

theorem isAlive_of_ending {a : Attempt} (hending : a.ending = none) (hdead : a.isDead = false) :
    a.isAlive = true := by
  rw [Attempt.isAlive, hending, hdead]
  rfl

/-- **Lines are heard** one after another. -/
theorem Tracks.lines (slot : Slot) (h : Tracks now l slot.supervisor true s)
    (lines : List String) :
    ∃ s', Leads s s' ∧
      Tracks now l ((lines.map .line).foldl (Slot.hear now l) slot).supervisor true s' ∧
      ((lines.map .line).foldl (Slot.hear now l) slot).standIn = slot.standIn := by
  -- On the lines; none of them makes the supervisor order anything, or ends the attempt.
  induction lines generalizing s slot with
  | nil => exact ⟨s, .refl s, h, rfl⟩
  | cons text lines ih =>
    obtain ⟨hending, hdead⟩ := ending_of_isAlive (h.alive rfl)
    have horders := slot.supervisor.orders_line now l text
    obtain ⟨hending', hdead'⟩ := ending_notice_line s text
    rw [← current_hear_of_nil h horders] at hending' hdead'
    have hpossible : s.isPossible (.hear (.line text)) = true :=
      Option.isNone_iff_eq_none.2 hending
    obtain ⟨hleads, htracks⟩ := h.hear hpossible
      fun _ => isAlive_of_ending (hending'.trans hending) (hdead'.trans hdead)
    have hstandIn : (slot.hear now l (.line text)).standIn = slot.standIn := by
      unfold Slot.hear
      dsimp only
      rw [horders]
      rfl
    obtain ⟨s', hleads', htracks', hstandIn'⟩ := ih (slot.hear now l (.line text)) htracks
    exact ⟨s', hleads.trans hleads', htracks', hstandIn'.trans hstandIn⟩

theorem running_hear {slot : Slot} {e : Supervisor.Event} (hgone : slot.standIn.running = none)
    (horders : (slot.supervisor.step now l e).2 = [] ∨
      (slot.supervisor.step now l e).2 = [.kill]) :
    (slot.hear now l e).standIn.running = none := by
  unfold Slot.hear
  dsimp only
  obtain horders | horders := horders
  · rw [horders]
    exact hgone
  · rw [horders]
    rfl

/-- **An exit is heard of**, by the silence that comes with it while the process is not ready, and
else when it is seen. -/
theorem Tracks.gone (slot : Slot) (h : Tracks now l slot.supervisor true s)
    (hgone : slot.standIn.running = none) :
    ∃ s', Leads s s' ∧
      Tracks now l ([.silence none, .exited].foldl (Slot.hear now l) slot).supervisor false s' ∧
      s'.current.ending.isSome = true ∧
      ([.silence none, .exited].foldl (Slot.hear now l) slot).standIn.running = none := by
  have halive := h.alive rfl
  obtain ⟨hending, -⟩ := ending_of_isAlive halive
  have hexits : s.isPossible .exit = true := halive
  have hleads : Leads s (s.after .exit) := .single rfl hexits
  have htracks : Tracks now l slot.supervisor false (s.after .exit) :=
    ⟨h.kept.after hexits, h.now, h.lifecycle, h.supervisor, fun h => (nomatch h)⟩
  have hholds := h.kept.fits.holds
  unfold Holds at hholds
  rw [h.supervisor] at hholds
  cases hstage : slot.supervisor.stage with
  | starting deadline =>
    -- The silence is the end of the attempt.
    have hsilence : slot.supervisor.step now l (.silence none) =
        (slot.supervisor.startFailed now "exited before becoming ready", [.kill]) := by
      unfold Supervisor.step
      rw [hstage]
      rfl
    have hpossible : (s.after .exit).isPossible (.hear (.silence none)) = true :=
      Option.isNone_iff_eq_none.2 hending
    obtain ⟨hleads', htracks'⟩ : _ ∧ Tracks now l _ false _ :=
      htracks.hear hpossible fun h => nomatch h
    have hcurrent := current_hear_of_order htracks (congrArg Prod.snd hsilence)
    -- The supervisor has no use for the exit any more.
    have hignores : ((slot.supervisor.step now l (.silence none)).1.step now l .exited) =
        ((slot.supervisor.step now l (.silence none)).1, []) := by
      rw [hsilence]
      unfold Supervisor.startFailed
      dsimp only
      split <;> rfl
    have hrunning := running_hear (l := l) hgone (.inr (congrArg Prod.snd hsilence))
    refine ⟨_, hleads.trans hleads', ?_, ?_, running_hear hrunning (.inl ?_)⟩
    · change Tracks now l
        ((slot.supervisor.step now l (.silence none)).1.step now l .exited).1 false _
      rw [hignores]
      exact htracks'
    · rw [hcurrent]
      rfl
    · exact congrArg Prod.snd hignores
  | watching w =>
    -- The silence says nothing, and the exit is the end of the attempt.
    rw [hstage] at hholds
    have hsilence : slot.supervisor.step now l (.silence none) = (slot.supervisor, []) := by
      unfold Supervisor.step
      rw [hstage]
      rfl
    have hpossible : (s.after .exit).isPossible (.hear .exited) = true := by
      change (s.current.ending.isNone && s.current.isReady && true) = true
      rw [hending, hholds.2]
      rfl
    obtain ⟨hleads', htracks'⟩ : _ ∧ Tracks now l _ false _ :=
      htracks.hear hpossible fun h => nomatch h
    have hcurrent := current_hear_of_nil htracks (slot.supervisor.orders_exited now l)
    have hrunning := running_hear (l := l) hgone (.inl (congrArg Prod.snd hsilence))
    refine ⟨_, hleads.trans hleads', ?_, ?_, running_hear hrunning (.inl ?_)⟩
    · change Tracks now l
        ((slot.supervisor.step now l (.silence none)).1.step now l .exited).1 false _
      rw [hsilence]
      exact htracks'
    · rw [hcurrent]
      rfl
    · exact Supervisor.orders_exited _ now l
  | pausing t =>
    -- There is no process in an empty slot.
    rw [hstage, hending] at hholds
    cases hholds
  | ended =>
    rw [hstage, hending] at hholds
    cases hholds

end Supervision

namespace Slot

variable {now : Instant} {l : Lifecycle} {s : Supervision}

/-- A slot with a stand-in, and its history: a process that runs is that of an attempt that goes on,
and every exit has been seen. -/
structure Under (now : Instant) (l : Lifecycle) (slot : Slot) (s : Supervision) : Prop where
  tracks : Supervision.Tracks now l slot.supervisor slot.standIn.running.isSome s
  seen : s.current.isDead = true → s.current.ending.isSome = true

open Supervision (Leads Tracks)

/-- A process that goes on has not been seen to exit. -/
theorem under_of_alive {slot : Slot} (h : Tracks now l slot.supervisor true s) :
    slot.Under now l s := by
  obtain ⟨-, hdead⟩ := Supervision.ending_of_isAlive (h.alive rfl)
  exact ⟨⟨h.kept, h.now, h.lifecycle, h.supervisor, fun _ => h.alive rfl⟩,
    fun hgone => absurd (hgone.symm.trans hdead) Bool.true_eq_false.mp⟩

/-- **What a process does is followed**, be it that it goes on or that it exits. -/
theorem under_behave {p : Supervisor} {standIn : StandIn} (h : Tracks now l p true s)
    (hrunning : standIn.running.isSome = true) (b : Behaviour) :
    ∃ s', Leads s s' ∧ ((standIn.behave b).2.foldl (hear now l)
      ⟨p, (standIn.behave b).1⟩).Under now l s' := by
  obtain ⟨script, hscript⟩ := Option.isSome_iff_exists.1 hrunning
  have hsay : standIn.say b.lines = b.lines.map .line := by
    unfold StandIn.say
    rw [hscript]
  unfold StandIn.behave
  split
  · -- The lines are still heard when the process is gone.
    have hexit : standIn.exit = ({ standIn with running := none }, [.silence none, .exited]) := by
      unfold StandIn.exit
      rw [hscript]
    rw [hexit, hsay]
    dsimp only
    obtain ⟨s₁, hleads₁, htracks₁, hstandIn₁⟩ :=
      Tracks.lines ⟨p, { standIn with running := none }⟩ h b.lines
    obtain ⟨s₂, hleads₂, htracks₂, hended, hgone⟩ := htracks₁.gone _ (by rw [hstandIn₁])
    rw [← List.foldl_append] at htracks₂ hgone
    refine ⟨s₂, hleads₁.trans hleads₂, ⟨?_, fun _ => hended⟩⟩
    rw [hgone]
    exact htracks₂
  · rw [hsay]
    dsimp only
    obtain ⟨s₁, hleads₁, htracks₁, -⟩ := Tracks.lines ⟨p, standIn⟩ h b.lines
    exact ⟨s₁, hleads₁, under_of_alive htracks₁⟩

/-- **A process is started**, or there is none, or nothing is heard of it. -/
theorem under_spawn {p : Supervisor} (standIn : StandIn) (h : Tracks now l p true s)
    (hunready : s.current.isReady = false) (hempty : standIn.running = none) :
    ∃ s', Leads s s' ∧ ((standIn.obey .spawn).2.foldl (hear now l)
      ⟨p, (standIn.obey .spawn).1⟩).Under now l s' := by
  obtain ⟨hending, hdead⟩ := Supervision.ending_of_isAlive (h.alive rfl)
  unfold StandIn.obey
  dsimp only
  split
  · -- Nothing is heard of the start, and the supervisor waits until it takes too long.
    refine ⟨s, .refl s, ⟨?_, ?_⟩⟩
    · exact ⟨h.kept, h.now, h.lifecycle, h.supervisor, fun _ => h.alive rfl⟩
    · exact fun hgone => absurd (hgone.symm.trans hdead) Bool.true_eq_false.mp
  · next reason _ _ =>
    have hpossible : s.isPossible (.hear (.spawnFailed reason)) = true := by
      change (s.current.ending.isNone && !s.current.isReady) = true
      rw [hending, hunready]
      rfl
    obtain ⟨hleads, htracks⟩ : _ ∧ Tracks now l _ false _ :=
      h.hear hpossible fun h => nomatch h
    have horders := p.orders_spawnFailed now l reason
    have hcurrent := Supervision.current_hear_of_nil h horders
    refine ⟨_, hleads, ⟨?_, fun _ => ?_⟩⟩
    · dsimp only [List.foldl, hear]
      rw [horders]
      change Tracks now l (p.step now l (.spawnFailed reason)).1 standIn.running.isSome _
      rw [hempty]
      exact htracks
    · rw [hcurrent]
      rfl
  · exact under_behave h rfl _

/-- **A process is told something**, if there is one. -/
theorem under_tell {p : Supervisor} (standIn : StandIn) (m : ControlMessage)
    (h : Tracks now l p standIn.running.isSome s)
    (hseen : s.current.isDead = true → s.current.ending.isSome = true) :
    ∃ s', Leads s s' ∧ ((standIn.obey (.tell m)).2.foldl (hear now l)
      ⟨p, (standIn.obey (.tell m)).1⟩).Under now l s' := by
  unfold StandIn.obey
  dsimp only
  split
  · exact ⟨s, .refl s, ⟨h, hseen⟩⟩
  · next script hscript =>
    rw [hscript] at h
    have hrunning : ({ standIn with heard := standIn.heard ++ [m.line] } : StandIn).running =
        some script := hscript
    cases m with
    | drain => exact under_behave h (by rw [hrunning]; rfl) _
    | shutdown => exact under_behave h (by rw [hrunning]; rfl) _
    -- A ping is answered by the lines of the script, and the process goes on.
    | ping nonce =>
      dsimp only [StandIn.say]
      rw [hscript]
      dsimp only
      obtain ⟨s₁, hleads₁, htracks₁, -⟩ := Tracks.lines ⟨p, { standIn with
        heard := standIn.heard ++ [ControlMessage.line (.ping nonce)]
        running := some { script with pings := script.pings.tail } }⟩ h
        ((script.pings.headD ["pong $N 0"]).map fun line =>
          String.ofList (StandIn.fill (Numeral.digits 10 nonce.toNat) line.toList))
      exact ⟨s₁, hleads₁, under_of_alive htracks₁⟩

theorem handle_of_nil {slot : Slot} {e : Supervisor.Event}
    (horders : (slot.supervisor.step now l e).2 = []) :
    slot.handle now l e = ⟨(slot.supervisor.step now l e).1, slot.standIn⟩ := by
  unfold handle
  dsimp only
  rw [horders]
  rfl

theorem handle_of_order {slot : Slot} {e : Supervisor.Event} {o : Supervisor.Order}
    (horders : (slot.supervisor.step now l e).2 = [o]) :
    slot.handle now l e = (slot.standIn.obey o).2.foldl (hear now l)
      ⟨(slot.supervisor.step now l e).1, (slot.standIn.obey o).1⟩ := by
  unfold handle
  dsimp only
  rw [horders]
  dsimp only [obeyAll]
  rw [List.append_nil]

/-- **A slot does what it may do** when its supervisor looks at the clock, or at how far the gateway
has come. -/
theorem Under.handle {slot : Slot} (h : slot.Under now l s) {e : Supervisor.Event}
    (he : e ∈ [.clock, .seeKill, .seeShutdown, .seeDrain]) :
    ∃ s', Leads s s' ∧ (slot.handle now l e).Under now l s' := by
  have hlooks : s.isPossible (.hear e) = true ∧ s.notice e = s.current := by
    simp only [List.mem_cons, List.not_mem_nil, or_false] at he
    obtain rfl | rfl | rfl | rfl := he <;> exact ⟨rfl, rfl⟩
  obtain ⟨hpossible, hnotice⟩ := hlooks
  -- By the order that is given, and what the process makes of it follows at once.
  obtain hnone | ⟨hspawn, -, t, hstage⟩ | ⟨m, htell⟩ | hkill :=
    slot.supervisor.orders_cases now l he
  · have hcurrent := Supervision.current_hear_of_nil h.tracks hnone
    rw [hnotice] at hcurrent
    obtain ⟨hleads, htracks⟩ := h.tracks.hear hpossible fun hrunning => by
      rw [hcurrent]
      exact h.tracks.alive hrunning
    refine ⟨_, hleads, ?_⟩
    rw [handle_of_nil hnone]
    exact ⟨htracks, by rw [hcurrent]; exact h.seen⟩
  · -- The slot is empty, and a process is started in it.
    have hcurrent := Supervision.current_hear_of_order h.tracks hspawn
    have hended : s.current.ending.isSome = true := by
      have hholds := h.tracks.kept.fits.holds
      unfold Supervision.Holds at hholds
      rw [h.tracks.supervisor, hstage] at hholds
      exact hholds
    have hempty : slot.standIn.running = none := by
      cases hrunning : slot.standIn.running with
      | none => rfl
      | some script =>
        have halive := h.tracks.alive (by rw [hrunning]; rfl)
        rw [(Supervision.ending_of_isAlive halive).1] at hended
        cases hended
    obtain ⟨hleads, htracks⟩ : _ ∧ Tracks now l _ true _ := h.tracks.hear hpossible fun _ => by
      rw [hcurrent]
      rfl
    obtain ⟨s', hleads', hunder⟩ :=
      under_spawn slot.standIn htracks (by rw [hcurrent]; rfl) hempty
    rw [handle_of_order hspawn]
    exact ⟨s', hleads.trans hleads', hunder⟩
  · have hcurrent := Supervision.current_hear_of_order h.tracks htell
    have htold : (s.hear e).current = s.current.tell m := by
      rw [hcurrent, ← hnotice]
      rfl
    obtain ⟨hleads, htracks⟩ := h.tracks.hear hpossible fun hrunning => by
      rw [htold]
      exact h.tracks.alive hrunning
    obtain ⟨s', hleads', hunder⟩ := under_tell slot.standIn m htracks (by
      rw [htold]
      exact h.seen)
    rw [handle_of_order htell]
    exact ⟨s', hleads.trans hleads', hunder⟩
  · -- A process that is killed is gone, and is seen to be.
    have hcurrent := Supervision.current_hear_of_order h.tracks hkill
    obtain ⟨hleads, htracks⟩ : _ ∧ Tracks now l _ false _ :=
      h.tracks.hear hpossible fun h => nomatch h
    rw [handle_of_order hkill]
    refine ⟨_, hleads, ⟨htracks, fun _ => ?_⟩⟩
    rw [hcurrent]
    rfl

/-- **A slot that is filled for the first time** does what it may do. -/
theorem under_start (config : Config) (now : Instant) (index : Nat) (launches : List Launch) :
    ∃ s', Leads (Supervision.start config index now) s' ∧
      (start config now index launches).Under now {} s' := by
  have htracks : Tracks now {} (Supervisor.start config index now).1 true
      (Supervision.start config index now) :=
    ⟨.start config index now, rfl, rfl, rfl, fun _ => rfl⟩
  obtain ⟨s', hleads, hunder⟩ := under_spawn { launches } htracks rfl rfl
  refine ⟨s', hleads, ?_⟩
  unfold start Supervisor.start
  dsimp only [obeyAll]
  rw [List.append_nil]
  exact hunder

section Under

variable {slot : Slot} (h : slot.Under now l s)

include h

/-- The supervisor looks how far the gateway has come. -/
theorem Under.look : ∃ s', Leads s s' ∧ (slot.look now l).Under now l s' := by
  obtain ⟨s₁, hleads₁, hunder₁⟩ :=
    h.handle (e := .seeKill) (List.mem_cons_of_mem _ List.mem_cons_self)
  obtain ⟨s₂, hleads₂, hunder₂⟩ :=
    hunder₁.handle (e := .seeShutdown) (List.mem_cons_of_mem _ (List.mem_cons_of_mem _
      List.mem_cons_self))
  obtain ⟨s₃, hleads₃, hunder₃⟩ :=
    hunder₂.handle (e := .seeDrain) (List.mem_cons_of_mem _ (List.mem_cons_of_mem _
      (List.mem_cons_of_mem _ List.mem_cons_self)))
  exact ⟨s₃, (hleads₁.trans hleads₂).trans hleads₃, hunder₃⟩

/-- The process says lines, if there is one. -/
theorem Under.say (lines : List String) :
    ∃ s', Leads s s' ∧ ((slot.standIn.say lines).foldl (hear now l) slot).Under now l s' := by
  have htracks := h.tracks
  unfold StandIn.say
  split
  · next script hscript =>
    rw [hscript] at htracks
    obtain ⟨s₁, hleads₁, htracks₁, -⟩ := htracks.lines slot lines
    exact ⟨s₁, hleads₁, under_of_alive htracks₁⟩
  · exact ⟨s, .refl s, h⟩

/-- The process exits, if there is one. -/
theorem Under.exit :
    ∃ s', Leads s s' ∧ (slot.standIn.exit.2.foldl (hear now l)
      { slot with standIn := slot.standIn.exit.1 }).Under now l s' := by
  have htracks := h.tracks
  unfold StandIn.exit
  split
  · next script hscript =>
    rw [hscript] at htracks
    obtain ⟨s₁, hleads₁, htracks₁, hended, hgone⟩ :=
      htracks.gone { slot with standIn := { slot.standIn with running := none } } rfl
    refine ⟨s₁, hleads₁, ⟨?_, fun _ => hended⟩⟩
    rw [hgone]
    exact htracks₁
  · exact ⟨s, .refl s, h⟩

end Under

end Slot

end Smpp
