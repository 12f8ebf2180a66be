import Smpp.Proofs.Floor.Stopping
import Smpp.Proofs.Worker.Interleaving

/-!
# The statuses of a worker process

What a worker process says from its first word to its last is a matter of what it hears, of how many
sessions there are when it is probed, and of when its worker has stopped. In whatever order the
process goes on, it says that it is ready, answers the probes that it hears before it is over, and
ends with the number of the sessions that were cut off (`WorkerProcess.status_trace`).

That it ends is a matter of time. Between two events a process has done all that there is to do
(`WorkerProcess.Resting`), so its floor is one of those that `Floor.StopsBy` is about, and it is
over when they have stopped (`WorkerProcess.Resting.over_or_early`).
-/

namespace Smpp

namespace WorkerProcess

/-! ### Between two events -/

/-- What a worker is told by what happens to its process. -/
def Event.event? : Event → Option Floor.Event
  | .input i => i.event?
  | .happening e => some e

/-- Whether a worker that is told so accepts no more. -/
def Event.Stops (e : Event) : Prop := ∃ e' ∈ e.event?, e'.stops = true

variable {p : WorkerProcess}

/-- To say the last word is nothing to the worker. -/
theorem floor_conclude (p : WorkerProcess) : p.conclude.floor = p.floor := by
  unfold conclude
  split <;> rfl

/-- Who has looked whether the worker has stopped, and goes on, has found that it has not. -/
theorem report?_conclude (hgoes : p.conclude.isOver = false) :
    p.conclude.floor.worker.report? = none := by
  cases hreport : p.floor.worker.report? with
  | none =>
    rw [floor_conclude]
    exact hreport
  | some r =>
    unfold conclude at hgoes
    rw [hreport] at hgoes
    cases hgoes

/-- **What happens to a process happens to its worker**, which then does all that there is to do. -/
theorem floor_step (hgoes : p.isOver = false) (e : Event) :
    (∃ e', e.event? = some e' ∧ (p.step e).floor = p.floor.step e') ∨
      e.event? = none ∧ (p.step e).floor = p.floor.settle := by
  unfold step
  rw [if_neg (Bool.eq_false_iff.1 hgoes)]
  cases e with
  | happening e => exact .inl ⟨e, rfl, floor_conclude _⟩
  | input i =>
    dsimp only [Event.event?]
    rw [floor_conclude]
    obtain ⟨e, he, hstops, -, hfloor, -⟩ | ⟨he, hheard⟩ := p.floor.hear_cases i
    · refine .inl ⟨e, he, ?_⟩
      rw [Floor.step_of_stops hstops, ← hfloor]
    · exact .inr ⟨he, by rw [hheard]⟩

/-- What a process keeps between two events. -/
structure Resting (p : WorkerProcess) : Prop where
  rested : p.floor.Rested
  patient : p.floor.Patient
  /-- A worker that has stopped has a process that is over. -/
  concluded : p.isOver = false → p.floor.worker.report? = none

theorem Resting.start (pid : UInt32) (address : SocketAddress) (config : Config)
    (backend : Backend) : (start pid address (.start config backend)).Resting :=
  ⟨.start config backend, fun _ h => absurd h List.not_mem_nil, fun _ => rfl⟩

theorem Resting.step (h : p.Resting) (e : Event) : (p.step e).Resting := by
  cases hover : p.isOver with
  | true =>
    have hsame : p.step e = p := if_pos hover
    rw [hsame]
    exact h
  | false =>
    have hconcludes : ∃ q : WorkerProcess, p.step e = q.conclude := by
      unfold WorkerProcess.step
      rw [if_neg (Bool.eq_false_iff.1 hover)]
      cases e <;> exact ⟨_, rfl⟩
    have hconcluded : (p.step e).isOver = false → (p.step e).floor.worker.report? = none := by
      obtain ⟨q, hq⟩ := hconcludes
      rw [hq]
      exact report?_conclude
    suffices hfloor : (p.step e).floor.Rested ∧ (p.step e).floor.Patient from
      ⟨hfloor.1, hfloor.2, hconcluded⟩
    obtain ⟨e', -, hfloor⟩ | ⟨-, hfloor⟩ := floor_step hover e <;> rw [hfloor]
    · exact ⟨h.rested.step e', h.patient.step h.rested.toKept e'⟩
    · exact ⟨h.rested.toKept.settle, h.patient.settle h.rested.toKept⟩

theorem Resting.run (h : p.Resting) (events : List Event) : (p.run events).Resting := by
  induction events generalizing p with
  | nil => exact h
  | cons e es ih => exact ih (h.step e)

/-! ### The end of a process -/

section Ending

variable {limit : Instant}

theorem run_append (p : WorkerProcess) (es es' : List Event) :
    p.run (es ++ es') = (p.run es).run es' :=
  List.foldl_append

theorem stopsBy_run (h : p.Resting) (hstops : p.floor.StopsBy limit) (events : List Event) :
    (p.run events).floor.StopsBy limit := by
  induction events generalizing p with
  | nil => exact hstops
  | cons e es ih =>
    cases hover : p.isOver with
    | true =>
      rw [run_of_over hover]
      exact hstops
    | false =>
      refine ih (h.step e) ?_
      obtain ⟨e', -, hfloor⟩ | ⟨-, hfloor⟩ := floor_step hover e <;> rw [hfloor]
      · exact hstops.step h.rested e'
      · exact hstops.settle h.rested

/-- **A process whose worker stops by an instant** is over when the instant has come. -/
theorem Resting.over_or_early (h : p.Resting) (hstops : p.floor.StopsBy limit) :
    p.isOver = true ∨ p.floor.now < limit := by
  by_cases hearly : p.floor.now < limit
  · exact .inr hearly
  obtain ⟨r, hover⟩ := hstops.over h.rested (Nat.le_of_not_lt hearly)
  left
  by_contra hgoes
  have hnone := h.concluded (Bool.eq_false_iff.2 hgoes)
  cases hnone.symm.trans hover.reported

/-- What stops the worker of a process by an instant ends the process by then. -/
theorem Resting.over_or_early_of_step (h : p.Resting) {e : Event} {e' : Floor.Event}
    (he : e.event? = some e') (hstops : p.isOver = false → (p.floor.step e').StopsBy limit)
    (later : List Event) :
    (p.run (e :: later)).isOver = true ∨ (p.run (e :: later)).floor.now < limit := by
  cases hover : p.isOver with
  | true =>
    rw [run_of_over hover]
    exact .inl hover
  | false =>
    refine ((h.step e).run later).over_or_early (stopsBy_run (h.step e) ?_ later)
    obtain ⟨e'', he'', hfloor⟩ | ⟨hnone, -⟩ := floor_step hover e
    · cases he.symm.trans he''
      rw [hfloor]
      exact hstops hover
    · cases he.symm.trans hnone

/-- What stops an event among those that it is taken apart into stops the event. -/
theorem Event.stops_of_mem_labels {e : Event} {l : Label} (hl : l ∈ e.labels) (hstops : l.Stops) :
    e.Stops := by
  obtain ⟨e', he', hstop⟩ := hstops
  cases e with
  | input i =>
    obtain rfl | rfl | rfl : l = .hears i ∨ l = .settles ∨ l = .concludes := by
      simpa [Event.labels] using hl
    · exact ⟨e', he', hstop⟩
    · cases he'
    · cases he'
  | happening e =>
    obtain rfl | rfl : l = .happens e ∨ l = .concludes := by
      simpa [Event.labels] using hl
    · exact ⟨e', he', hstop⟩
    · cases he'

end Ending

/-! ### The whole way of a process -/

/-- **The statuses of a worker process.** In whatever order a process hears lines, the end of its
input and signals, while things happen to its worker:

* it says first that it is ready, then answers every probe that it hears before it is over, in their
  order, each with its own nonce and with the number of the sessions that have not ended by then,
  and says at last how many sessions were cut off, once, when it is over and not before;
* when it is over it was told to stop, every session has ended, its last word is that of its
  worker's report, and nothing happens any more;
* a line that is no message changes nothing;
* its worker accepts until the process is told to drain or to shut down, or its input ends, or it is
  signalled, and not after that, whatever it is told later;
* unless it is told to shut down, the grace period runs from the first time that it is told to
  drain: nobody is cancelled before its end, and who is left then is cancelled;
* if it is told to shut down before it is over, everybody is cancelled at once.

The runs of a process are some of these orders, in which the worker does at once what there is to
do. There the process ends: it is over when the grace period is and a call to the backend can take
no longer, counted from when it is first told to stop, and sooner if it is told to shut down. That
is so because the clients of a floor take what they are sent at once; one that does not read keeps a
process for as long as it likes (`Link.held_of_unread`). -/
theorem status_trace (pid : UInt32) (address : SocketAddress) (config : Config)
    (backend : Backend) :
    let begun := start pid address (.start config backend)
    (∀ labels : List Label,
      let p := begun.after labels
      p.said = .ready pid address :: (begun.history labels).filterMap Move.pong? ++
        (if p.isOver then
          [.shutdownAck (UInt64.ofNat (p.floor.reasons.count (some .shutdown)))] else []) ∧
      (p.isOver = true →
        p.floor.worker.report? =
          some ⟨p.floor.stations.length, p.floor.reasons.count (some .shutdown)⟩ ∧
        none ∉ p.floor.reasons ∧ (∃ l ∈ labels, l.Stops) ∧
        ∀ later : List Label, begun.after (labels ++ later) = p) ∧
      (∀ (text : String) (error : ControlError), ControlMessage.read text = .error error →
        p.act (.hears (.line text)) = p) ∧
      (p.floor.worker.phase = .accepting ↔ ∀ l ∈ labels, ¬ l.Stops) ∧
      (∀ (earlier : List Label) (l : Label) (later : List Label),
        labels = earlier ++ l :: later → l.event? = some .drain →
        (∀ l ∈ earlier, ¬ l.Stops) → (∀ l ∈ later, l.event? ≠ some .shutdown) →
        let limit := (begun.after earlier).floor.now + config.drainGracePeriod
        (p.floor.now < limit → ∀ s ∈ p.floor.stations, s.handler.cancelled = false) ∧
        (limit ≤ p.floor.now → ∀ s ∈ p.floor.settle.stations, s.reason? = none →
          s.handler.cancelled = true ∧ s.handler.isServing = false)) ∧
      (∀ (earlier : List Label) (l : Label) (later : List Label),
        labels = earlier ++ l :: later → l.event? = some .shutdown →
        (begun.after earlier).isOver = false →
        ∀ s ∈ p.floor.settle.stations, s.handler.cancelled = true ∧ s.handler.isServing = false)) ∧
    (∀ events : List Event, begun.run events = begun.after (events.flatMap Event.labels)) ∧
    (∀ (earlier : List Event) (e : Event) (later : List Event),
      let p := begun.run (earlier ++ e :: later)
      (e.Stops → (∀ e ∈ earlier, ¬ e.Stops) → p.isOver = true ∨
        p.floor.now < (begun.run earlier).floor.now + config.drainGracePeriod +
          config.backendCallTimeout) ∧
      (e.event? = some .shutdown → p.isOver = true ∨
        p.floor.now < (begun.run earlier).floor.now + config.backendCallTimeout)) := by
  intro begun
  have hbegun : begun.Kept := Kept.start pid address config backend
  have hopen : begun.floor.worker.phase = .accepting := rfl
  -- First in any order of what there is to do, by the invariants of such a run, and then as the
  -- clock has it, where there is an instant by which it is over.
  refine ⟨fun labels => ?_, run_eq_after begun, fun earlier e later => ?_⟩
  · have hkept := hbegun.after labels
    have hphase := phase_after_iff hbegun hopen labels
    refine ⟨said_after hbegun rfl labels, fun hover => ?_, fun text error => act_of_error _, hphase,
      ?_, ?_⟩
    · -- What a worker reports when it has stopped is its account, and that is right.
      obtain ⟨r, hr⟩ := hkept.reported hover
      obtain ⟨hstopped, hempty, rfl⟩ := Floor.report?_eq_some_iff.1 hr
      refine ⟨?_, hkept.floor.active_eq_zero_iff.1 hempty, ?_, fun later => ?_⟩
      · rw [hr, hkept.floor.account.accepted, hkept.floor.account.forced]
        exact congrArg (fun n => some (WorkerReport.mk n _)) (List.length_map _)
      · by_contra hnone
        exact hstopped (hphase.2 fun l hl hstops => hnone ⟨l, hl, hstops⟩)
      · rw [after_append, after_of_over hover]
    · -- The first drain sets the limit; what comes later but a shutdown leaves it to the clock.
      rintro earlier l later rfl hl hearlier hlater limit
      have hages := ages_after_drain (hbegun.after earlier)
        ((phase_after_iff hbegun hopen earlier).2 hearlier) hl hlater
      rw [(settings_after begun earlier).2, ← after_cons, ← after_append] at hages
      refine ⟨fun hearly => (hkept.floor.free_of_ages hages hearly).1, fun hlate => ?_⟩
      -- To settle leaves it to the clock whether the grace period is over.
      have hsettled := hages.trans (Floor.worker_settle _).1
      rw [← Floor.now_settle] at hsettled hlate
      exact hkept.floor.settle.cut_of_ages hsettled hlate
    · rintro earlier l later rfl hl hgoes
      have hclosing := closing_after_shutdown hgoes hl later
      rw [← after_cons, ← after_append] at hclosing
      exact hkept.floor.settle.closed (Floor.isClosing_settle (Worker.isClosing_iff.2 hclosing))
  · -- What the worker still waits for when it is told to stop is over by an instant.
    have hrest : (begun.run earlier).Resting :=
      (Resting.start pid address config backend).run earlier
    obtain ⟨hconfig, hgrace⟩ := settings_after begun (earlier.flatMap Event.labels)
    rw [← run_eq_after] at hconfig hgrace
    dsimp only
    rw [run_append]
    refine ⟨fun ⟨e', he', hstops⟩ hearlier => ?_, fun he => ?_⟩
    · refine hrest.over_or_early_of_step he' (fun _ => .inr ?_) later
      have hopen : (begun.run earlier).floor.worker.phase = .accepting := by
        rw [run_eq_after]
        refine (phase_after_iff hbegun hopen _).2 fun l hl hstops => ?_
        obtain ⟨e, he, hl⟩ := List.mem_flatMap.1 hl
        exact hearlier e he (Event.stops_of_mem_labels hl hstops)
      have hending := Floor.Ending.of_stops hstops hopen hrest.rested.toKept hrest.patient
      rw [hconfig, hgrace] at hending
      exact hending
    · refine hrest.over_or_early_of_step he (fun _ => .inr ?_) later
      have hending := Floor.Ending.of_shutdown hrest.rested.toKept hrest.patient
      rw [hconfig] at hending
      exact hending

/-- A process that is probed before it drains, while it does, and after that. -/
example :
    let config : Config := { drainGracePeriod := 5 }
    let p := (start 7 (.v4 ⟨127, 0, 0, 1⟩ 2775) (.start config (.memory {}))).run
      [.happening .connect, .input (.line "ping 1"), .input (.line "ping one"),
        .input (.line "drain"), .happening (.advance 2), .input .endOfInput,
        .input (.line "ping 2"), .happening (.advance 3), .input (.line "ping 3")]
    p.said = [.ready 7 (.v4 ⟨127, 0, 0, 1⟩ 2775), .pong 1 1, .pong 2 1, .shutdownAck 1] := by
  decide +kernel

end WorkerProcess

end Smpp
