import Smpp.Proofs.Floor.CutOff
import Smpp.Proofs.Worker.Interleaving

/-!
# What a worker reports of a shutdown

A worker reports how many sessions the shutdown cut off, and its process says the same with its last
word. The number is that of the sessions that there were when they were cancelled, less those that
waited for the answer to a bind then and were ended by it: the doomed ones, which hear their last
refusal, and those whose client is gone by the time they hear (`Floor.Reports`).

This holds in whatever order a worker does what there is to do, and so it does of a process
(`WorkerProcess.floor_after` says what a process has its floor do, until it is over).
-/

namespace Smpp

namespace Floor

/-- A floor was told that a client is gone. -/
def Leaves (acts : List Act) (client : Nat) : Prop :=
  ∃ a ∈ acts, a.event? = some (.endStream client .reset)

/-- **What has become of the sessions of a worker**, and what it reports of that. -/
structure Reports (gone : Nat → Prop) (g f : Floor) : Prop where
  /-- The sessions at the moment at which they were cancelled are counted, -/
  active : g.worker.active = g.reasons.count none
  /-- and none had been cut off before. -/
  uncut : some .shutdown ∉ g.reasons
  /-- Nobody was accepted since, and each session has gone its way. -/
  length : f.stations.length = g.stations.length
  fares : ∀ (i : Nat) (s s' : Station), g.stations[i]? = some s → f.stations[i]? = some s' →
    s.Fares (gone i) s'
  /-- A report leaves out those that were doomed, at least, -/
  atMost : ∀ r, f.worker.report? = some r →
    r.closedOnShutdown + g.stations.countP Station.isDoomed ≤ g.worker.active
  /-- and no others if the clients of those that waited are still there. -/
  exactly : ∀ r, f.worker.report? = some r →
    (∀ (i : Nat) (s : Station), g.stations[i]? = some s → s.isWaiting = true → ¬ gone i) →
      r.closedOnShutdown + g.stations.countP Station.isDoomed = g.worker.active
  /-- So it counts all of them if no session that waited was ended by its answer. -/
  all : ∀ r, f.worker.report? = some r →
    (∀ (i : Nat) (s : Station), g.stations[i]? = some s → s.isWaiting = true →
      s.isDoomed = false ∧ ¬ gone i) →
      r.closedOnShutdown = g.worker.active

/-- What a worker that keeps its account has counted once it reports. -/
theorem Kept.closedOnShutdown_eq {f : Floor} (h : f.Kept) {r : WorkerReport}
    (hr : f.worker.report? = some r) :
    none ∉ f.reasons ∧ r.closedOnShutdown = f.reasons.count (some .shutdown) := by
  obtain ⟨-, hempty, rfl⟩ := report?_eq_some_iff.1 hr
  exact ⟨h.active_eq_zero_iff.1 hempty, h.account.forced⟩

/-- **A worker reports** what has become of its sessions since they were cancelled. -/
theorem CutOff.reports {gone : Nat → Prop} {f g : Floor} (h : g.CutOff gone f) (hkept : f.Kept) :
    g.Reports gone f := by
  have huncut := h.kept.uncut h.free
  have htally {r : WorkerReport} (hr : f.worker.report? = some r) :
      r.closedOnShutdown + g.stations.countP Station.isDoomed ≤ g.worker.active ∧
        ((∀ (i : Nat) (s : Station), g.stations[i]? = some s → s.isWaiting = true → ¬ gone i) →
          r.closedOnShutdown + g.stations.countP Station.isDoomed = g.worker.active) := by
    -- It reports when all sessions have ended, and the sessions are then counted by how they did.
    obtain ⟨hended, hcount⟩ := hkept.closedOnShutdown_eq hr
    rw [hcount, h.kept.account.active]
    exact tally_of_fares h.length h.fares hended huncut
  refine ⟨h.kept.account.active, huncut, h.length, h.fares, fun r hr => (htally hr).1,
    fun r hr => (htally hr).2, fun r hr hspared => ?_⟩
  have hnobody : g.stations.countP Station.isDoomed = 0 := by
    refine List.countP_eq_zero.2 fun s hs hdoomed => ?_
    obtain ⟨i, hi⟩ := List.getElem?_of_mem hs
    rw [(hspared i s hi (Station.isWaiting_of_isDoomed hdoomed)).1] at hdoomed
    cases hdoomed
  rw [← (htally hr).2 fun i s hi hwaits => (hspared i s hi hwaits).2, hnobody]
  rfl

end Floor

namespace WorkerProcess

/-- What a process has its floor do. -/
def Label.acts : Label → List Floor.Act
  | .hears input => input.event?.toList.map .hears
  | .happens event => [.steps event]
  | .settles => [.settles]
  | .concludes => []

/-- What a process has its floor do by one thing after another, until it is over. -/
def acts (p : WorkerProcess) : List Label → List Floor.Act
  | [] => []
  | l :: ls => (if p.isOver then [] else l.acts) ++ (p.act l).acts ls

theorem floor_act_eq {p : WorkerProcess} (hgoes : p.isOver = false) (l : Label) :
    (p.act l).floor = p.floor.after l.acts := by
  unfold act
  rw [if_neg (Bool.eq_false_iff.1 hgoes)]
  cases l with
  | happens | settles => rfl
  | concludes =>
    dsimp only [conclude]
    split <;> rfl
  | hears input =>
    obtain ⟨e, he, -, -, hfloor, -⟩ | ⟨he, hheard⟩ := p.floor.hear_cases input
    · dsimp only [Label.acts]
      rw [he, hfloor]
      rfl
    · dsimp only [Label.acts]
      rw [he, hheard]
      rfl

/-- **What a process does its floor does**, until it is over. -/
theorem floor_after (p : WorkerProcess) (ls : List Label) :
    (p.after ls).floor = p.floor.after (p.acts ls) := by
  induction ls generalizing p with
  | nil => rfl
  | cons l ls ih =>
    rw [after_cons, ih, acts, Floor.after_append]
    cases hover : p.isOver with
    | true =>
      rw [act_of_over hover]
      rfl
    | false =>
      rw [floor_act_eq hover]
      rfl

/-- **What a shutdown is reported to have cut off.** In whatever order a worker does what there is
to do:

* as long as nobody is cancelled it does not close, and a report says that nobody was cut off;
* once everybody has been cancelled, nobody is accepted any more, and a session that served its
  client is cut off, and so is one that waited for the answer to a bind, after the answer, unless
  this was its last refusal or the client was gone;
* a report counts no more sessions than there were when they were cancelled, less those that were
  doomed, and exactly so many if no client of a session that waited is gone; so it counts all of
  them if no session that waited was ended by its answer;
* a process has its floor do such things, one after the other, and when it is over its last word is
  what its worker reports.

The clients of a floor take what they are sent at once. A session whose last answer, to an unbind
or to a bind, waits for room while it is cancelled ends for the reason of that answer too, and would
not be counted either. -/
theorem shutdown_report (config : Config) (backend : Backend) :
    let begun := Floor.start config backend
    (∀ acts : List Floor.Act,
      let f := begun.after acts
      (begun.cutOff? acts = none →
        f.worker.isClosing = false ∧ ∀ r, f.worker.report? = some r → r.closedOnShutdown = 0) ∧
      ∀ g, begun.cutOff? acts = some g → g.Reports (Floor.Leaves acts) f) ∧
    (∀ events : List Floor.Event, begun.run events = begun.after (events.map .steps)) ∧
    ∀ (pid : UInt32) (address : SocketAddress) (labels : List Label),
      let p := (start pid address begun).after labels
      p.floor = begun.after ((start pid address begun).acts labels) ∧
      (p.isOver = true → ∃ r, p.floor.worker.report? = some r ∧
        p.said.getLast? = some (.shutdownAck (UInt64.ofNat r.closedOnShutdown))) := by
  intro begun
  refine ⟨fun acts => ?_, fun events => begun.run_eq_after events, fun pid address labels => ?_⟩
  · -- The clients that are gone are those of which it was told, at any time.
    have hmarked : Floor.Marked (Floor.Leaves acts) (begun.passed acts) (begun.after acts) :=
      (Floor.Marked.start config backend _).after fun _ a ha hgone => ⟨a, ha, hgone⟩
    refine ⟨fun hnone => ⟨?_, fun r hr => ?_⟩, fun g hg => (hmarked.cut g hg).reports hmarked.kept⟩
    · obtain hstart | hpassed := List.mem_cons.1 (begun.after_mem_passed acts)
      · exact congrArg (fun f : Floor => f.worker.isClosing) hstart
      · exact Floor.open_of_mem hnone hpassed
    · rw [(hmarked.kept.closedOnShutdown_eq hr).2]
      exact List.count_eq_zero.2 (hmarked.kept.uncut (hmarked.free hnone))
  · -- A process is over only with a report, and says nothing behind its last word.
    have hbegun : (start pid address begun).Kept := Kept.start pid address config backend
    refine ⟨floor_after _ labels, fun hover => ?_⟩
    have hkept := hbegun.after labels
    obtain ⟨r, hr⟩ := hkept.reported hover
    refine ⟨r, hr, ?_⟩
    rw [said_after hbegun rfl labels, lastWords, if_pos hover,
      (hkept.floor.closedOnShutdown_eq hr).2, List.getLast?_append]
    rfl

/-- A client binds as a transceiver. -/
def binds (client : Nat) : Floor.Event :=
  .send client [0, 0, 0, 26, 0, 0, 0, 9, 0, 0, 0, 0, 0, 0, 0, 1, 99, 0, 112, 0, 116, 0, 52, 0, 0, 0]

/-- A worker whose clients may bind once: the first is told after two seconds that it may not, and
the second after one that it may. -/
def slowStart : Floor :=
  .start { maxBindAttempts := 1 } (.script
    { binds := [⟨.after 2000000000, .error .invalidCredentials⟩, ⟨.after 1000000000, .ok ()⟩] })

/-- Three clients are there when the worker is told to shut down. The first waits for its refusal,
the second is going to be let in, and the third has not asked: two of them are cut off. -/
theorem shutdown_report_three :
    let acts : List Floor.Act := [.steps .connect, .steps .connect, .steps .connect,
      .steps (binds 0), .steps (binds 1), .hears .shutdown, .steps (.advance 5000000000)]
    ∃ g r, slowStart.cutOff? acts = some g ∧
      (slowStart.after acts).worker.report? = some r ∧ g.worker.active = 3 ∧
      g.stations.countP Station.isDoomed = 1 ∧ r.closedOnShutdown = 2 := by
  intro acts
  have hmoment : (slowStart.cutOff? acts).isSome = true := by decide +kernel
  have hreported : (slowStart.after acts).worker.report?.isSome = true := by decide +kernel
  have hthree : ∀ g ∈ slowStart.cutOff? acts,
      g.worker.active = 3 ∧ g.stations.countP Station.isDoomed = 1 := by
    decide +kernel
  obtain ⟨g, hg⟩ := Option.isSome_iff_exists.1 hmoment
  obtain ⟨r, hr⟩ := Option.isSome_iff_exists.1 hreported
  obtain ⟨hactive, hdoomed⟩ := hthree g hg
  refine ⟨g, r, hg, hr, hactive, hdoomed, ?_⟩
  have hexactly := (((shutdown_report _ _).1 acts).2 g hg).exactly r hr fun i _ _ _ hgone => by
    simp [Floor.Leaves, acts, binds, Floor.Act.event?] at hgone
  omega

/-- **A session that waits for its last refusal when the worker shuts down is not counted**: it is
the only one that there is, and the report and the last word say that none was cut off. -/
theorem doomed_session_not_counted :
    let events : List Floor.Event := [.connect, binds 0, .shutdown, .advance 5000000000]
    ∃ g, slowStart.cutOff? (events.map .steps) = some g ∧ g.worker.active = 1 ∧
      g.stations.map Station.isWaiting = [true] ∧
      (slowStart.run events).worker.report? = some ⟨1, 0⟩ ∧
      ((start 7 (.v4 ⟨127, 0, 0, 1⟩ 2775) slowStart).run (events.map .happening)).said =
        [.ready 7 (.v4 ⟨127, 0, 0, 1⟩ 2775), .shutdownAck 0] := by
  intro events
  have hmoment : (slowStart.cutOff? (events.map .steps)).isSome = true := by decide +kernel
  have hone : ∀ g ∈ slowStart.cutOff? (events.map .steps),
      g.worker.active = 1 ∧ g.stations.map Station.isWaiting = [true] := by
    decide +kernel
  obtain ⟨g, hg⟩ := Option.isSome_iff_exists.1 hmoment
  obtain ⟨hactive, hwaits⟩ := hone g hg
  exact ⟨g, hg, hactive, hwaits, by decide +kernel, by decide +kernel⟩

end WorkerProcess

end Smpp
