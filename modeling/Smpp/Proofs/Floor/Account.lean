import Smpp.Proofs.Floor.Invariant

/-!
# The account of a worker

How far a worker has come is a matter of what it was told and of the clock. `WorkerPhase.Ages` is
what the clock alone may do, which is to end a grace period; so a worker that was told once to drain
is within the grace period that began then, or closes because that period is over
(`Floor.phase_after_drain`).

A worker accepts every client that connects until it is told to stop, and numbers the sessions
without gaps (`Floor.accepted_run`, `Floor.length_numbers`). Once it has been told and every session
has ended, nothing changes its account any more (`Floor.Over.step`). The capstone is
`Floor.account_of_run`, which puts this together with what a floor keeps.
-/

namespace Smpp

namespace Floor

variable {f : Floor}

/-! ### How far a worker has come -/

/-- Whether a worker that is told so accepts no more. -/
def Event.stops : Event → Bool
  | .drain | .shutdown => true
  | .connect | .send .. | .endStream .. | .advance _ => false

/-- Whether a client connects. -/
def Event.isConnect : Event → Bool
  | .connect => true
  | .send .. | .endStream .. | .advance _ | .drain | .shutdown => false

/-- What is done at an instant leaves a phase to the clock, and the rest of the account to the
sessions. -/
theorem worker_settle (f : Floor) :
    f.worker.phase.Ages f.now f.settle.worker.phase ∧ f.settle.worker.grace = f.worker.grace ∧
      f.settle.worker.accepted = f.worker.accepted := by
  obtain ⟨p, htick, hages, -⟩ := f.play.worker.exists_tick_eq f.now
  have hticked : f.worker.phase.Ages f.now f.ticked.worker.phase ∧
      f.ticked.worker.grace = f.worker.grace ∧ f.ticked.worker.accepted = f.worker.accepted := by
    rw [phase_play] at hages
    unfold ticked
    rw [htick]
    exact ⟨hages, grace_play f, accepted_play f⟩
  -- A second round of the sessions leaves all three as they are.
  obtain ⟨-, hsettle⟩ | ⟨-, hsettle⟩ := settle_cases f
  · rw [hsettle, phase_play, grace_play, accepted_play]
    exact hticked
  · rw [hsettle]
    exact hticked

theorem worker_advanceTo {target : Instant} (hnow : f.now ≤ target) :
    f.worker.phase.Ages target (f.advanceTo target).worker.phase ∧
      (f.advanceTo target).worker.grace = f.worker.grace ∧
        (f.advanceTo target).worker.accepted = f.worker.accepted := by
  let kept (g : Floor) : Prop := f.worker.phase.Ages target g.worker.phase ∧
    g.worker.grace = f.worker.grace ∧ g.worker.accepted = f.worker.accepted
  refine advanceTo_induction (p := kept) (q := kept) ⟨.refl _ _, rfl, rfl⟩ hnow ?_
    fun _ hkept _ _ => hkept
  intro g t ⟨hages, hgrace, haccepted⟩ _ ht
  obtain ⟨hages', hgrace', haccepted'⟩ := worker_settle { g with now := t }
  exact ⟨hages.trans (hages'.mono ht), hgrace'.trans hgrace, haccepted'.trans haccepted⟩

theorem now_told (f : Floor) (e : Event) : (f.told e).now = f.now := by
  cases e with
  | connect =>
    dsimp only [told]
    split <;> rfl
  | send | endStream | advance | drain | shutdown => rfl

theorem config_told (f : Floor) (e : Event) : (f.told e).config = f.config := by
  cases e with
  | connect =>
    dsimp only [told]
    split <;> rfl
  | send | endStream | advance | drain | shutdown => rfl

theorem grace_told (f : Floor) (e : Event) : (f.told e).worker.grace = f.worker.grace := by
  cases e with
  | connect =>
    dsimp only [told, Worker.connect]
    cases f.worker.phase <;> rfl
  | drain =>
    dsimp only [told, Worker.drain]
    split <;> rfl
  | send | endStream | advance | shutdown => rfl

theorem now_le_step (f : Floor) (e : Event) : f.now ≤ (f.step e).now := by
  obtain ⟨span, -, hstep⟩ | hstep | hstep := step_cases f e <;> rw [hstep]
  · have hnow : f.now ≤ f.now + span := Nat.le_add_right _ _
    rw [now_advanceTo hnow]
    exact hnow
  · rw [now_settle, now_told]

theorem grace_step (f : Floor) (e : Event) : (f.step e).worker.grace = f.worker.grace := by
  obtain ⟨span, -, hstep⟩ | hstep | hstep := step_cases f e <;> rw [hstep]
  · exact (worker_advanceTo (Nat.le_add_right _ _)).2.1
  · exact (worker_settle (f.told e)).2.1.trans (grace_told f e)

theorem grace_run (config : Config) (backend : Backend) (events : List Event) :
    ((start config backend).run events).worker.grace = config.drainGracePeriod :=
  run_of_step (p := fun f => f.worker.grace = config.drainGracePeriod) (q := fun _ => True) rfl
    (fun f e hgrace _ => (grace_step f e).trans hgrace) fun _ _ => trivial

/-- What a worker is told changes how far it has come only if it is told to shut down, or to drain
while it accepts. -/
theorem phase_told {e : Event} (hshutdown : e ≠ .shutdown)
    (hdrain : e = .drain → f.worker.phase ≠ .accepting) :
    (f.told e).worker.phase = f.worker.phase := by
  cases e with
  | connect =>
    dsimp only [told, Worker.connect]
    cases hphase : f.worker.phase with
    | accepting => rfl
    | draining | closing => exact hphase
  | send | endStream | advance => rfl
  | drain =>
    dsimp only [told, Worker.drain]
    split
    · next hphase => exact absurd hphase (hdrain rfl)
    · rfl
    · rfl
  | shutdown => exact absurd rfl hshutdown

/-- **The clock alone** decides how far a worker comes, as long as it is not told to stop, or only
to drain when it has stopped accepting. -/
theorem ages_step {e : Event} (hshutdown : e ≠ .shutdown)
    (hdrain : e = .drain → f.worker.phase ≠ .accepting) :
    f.worker.phase.Ages (f.step e).now (f.step e).worker.phase := by
  obtain ⟨span, -, hstep⟩ | hstep | hstep := step_cases f e <;> rw [hstep]
  · have hnow : f.now ≤ f.now + span := Nat.le_add_right _ _
    rw [now_advanceTo hnow]
    exact (worker_advanceTo hnow).1
  · exact .refl _ _
  · rw [← phase_told hshutdown hdrain, now_settle]
    exact (worker_settle (f.told e)).1

theorem isClosing_settle (h : f.worker.isClosing = true) : f.settle.worker.isClosing = true := by
  rw [Worker.isClosing_iff] at h ⊢
  have hages := (worker_settle f).1
  rw [h] at hages
  exact hages.eq_closing

/-- A worker that closes does so for good. -/
theorem isClosing_run (h : f.worker.isClosing = true) (events : List Event) :
    (f.run events).worker.isClosing = true := by
  refine run_of_step (p := fun f => f.worker.isClosing = true) (q := fun _ => True) h
    (fun f e h _ => ?_) fun _ _ => trivial
  by_cases hshutdown : e = .shutdown
  · subst hshutdown
    exact isClosing_settle rfl
  have hphase := Worker.isClosing_iff.1 h
  have hages : f.worker.phase.Ages (f.step e).now (f.step e).worker.phase := by
    refine ages_step hshutdown fun _ hopen => ?_
    rw [hphase] at hopen
    cases hopen
  rw [hphase] at hages
  exact Worker.isClosing_iff.2 hages.eq_closing

/-- A worker that has accepted its last client accepts no more. -/
theorem stopped_step (hstopped : f.worker.phase ≠ .accepting) (e : Event) :
    (f.step e).worker.phase ≠ .accepting := by
  by_cases hshutdown : e = .shutdown
  · subst hshutdown
    exact (worker_settle { f with worker := f.worker.shutdown }).1.ne_accepting fun h => nomatch h
  · exact (ages_step hshutdown fun _ => hstopped).ne_accepting hstopped

/-- Everything is done at once for a worker that is told to stop. -/
theorem step_of_stops {e : Event} (he : e.stops = true) : f.step e = (f.told e).settle := by
  cases e with
  | drain | shutdown => rfl
  | connect | send | endStream | advance => cases he

/-- A worker that is told to stop has accepted its last client. -/
theorem stopped_told {e : Event} (he : e.stops = true) : (f.told e).worker.phase ≠ .accepting := by
  cases e with
  | drain =>
    dsimp only [told, Worker.drain]
    split
    · exact fun h => nomatch h
    · next hphase => rw [hphase]; exact fun h => nomatch h
    · next hphase => rw [hphase]; exact fun h => nomatch h
  | shutdown => exact fun h => nomatch h
  | connect | send | endStream | advance => cases he

theorem stopped_of_stops {e : Event} (he : e.stops = true) :
    (f.step e).worker.phase ≠ .accepting := by
  rw [step_of_stops he]
  exact (worker_settle (f.told e)).1.ne_accepting (stopped_told he)

theorem open_step (hopen : f.worker.phase = .accepting) {e : Event} (he : e.stops = false) :
    (f.step e).worker.phase = .accepting := by
  have hages : f.worker.phase.Ages (f.step e).now (f.step e).worker.phase :=
    ages_step (by rintro rfl; cases he) (by rintro rfl; cases he)
  rw [hopen] at hages
  exact hages.eq_accepting

/-- **A worker accepts until it is told to stop.** -/
theorem phase_run_iff (hopen : f.worker.phase = .accepting) (events : List Event) :
    (f.run events).worker.phase = .accepting ↔ ∀ e ∈ events, e.stops = false := by
  refine ⟨fun hphase e he => ?_, fun hevents => ?_⟩
  · -- From the event that stops it on, the worker would not accept.
    by_contra hstops
    obtain ⟨earlier, later, rfl⟩ := List.append_of_mem he
    rw [run_append, run_cons] at hphase
    exact run_of_step (p := fun f => f.worker.phase ≠ .accepting) (q := fun _ => True)
      (stopped_of_stops (Bool.not_eq_false _ ▸ hstops)) (fun _ e h _ => stopped_step h e)
      (fun _ _ => trivial) hphase
  · exact run_of_step (p := fun f => f.worker.phase = .accepting) hopen
      (fun _ _ h he => open_step h he) hevents

/-- The grace period begins when a worker that accepts is told to drain. -/
theorem phase_told_drain (hopen : f.worker.phase = .accepting) :
    (f.told .drain).worker.phase = .draining (f.now + f.worker.grace) := by
  dsimp only [told, Worker.drain]
  rw [hopen]

/-- **The grace period.** A worker that was told to drain, and not to shut down since, is within the
grace period that began then, or closes because that period is over. -/
theorem phase_after_drain (hopen : f.worker.phase = .accepting) {later : List Event}
    (hlater : ∀ e ∈ later, e ≠ .shutdown) :
    (WorkerPhase.draining (f.now + f.worker.grace)).Ages ((f.step .drain).run later).now
      ((f.step .drain).run later).worker.phase := by
  refine run_of_step
    (p := fun g => (WorkerPhase.draining (f.now + f.worker.grace)).Ages g.now g.worker.phase)
    ?_ (fun g e hages he => ?_) hlater
  · have hnow : (f.step .drain).now = f.now := now_settle _
    rw [hnow, ← phase_told_drain hopen]
    exact (worker_settle (f.told .drain)).1
  · have hstopped : g.worker.phase ≠ .accepting := hages.ne_accepting fun h => nomatch h
    exact (hages.mono (now_le_step g e)).trans (ages_step he fun _ => hstopped)

/-! ### The sessions that a worker accepts -/

/-- The number of the session that an event begins, if it begins one. -/
def number? (f : Floor) : Event → Option Nat
  | .connect => f.worker.connect.map Prod.snd
  | .send .. | .endStream .. | .advance _ | .drain | .shutdown => none

/-- The numbers of the sessions that begin in a run, in the order in which they do. -/
def numbers (f : Floor) : List Event → List Nat
  | [] => []
  | e :: es => (f.number? e).toList ++ (f.step e).numbers es

/-- A session that begins is counted under its own number. -/
theorem accepted_step (f : Floor) (e : Event) :
    (f.step e).worker.accepted = f.worker.accepted + (f.number? e).toList.length ∧
      (f.number? e).toList = List.range' (f.worker.accepted + 1) (f.number? e).toList.length := by
  have hsettled (g : Floor) : g.settle.worker.accepted = g.worker.accepted :=
    (worker_settle g).2.2
  cases e with
  | connect =>
    dsimp only [Floor.step, number?, Worker.connect]
    cases f.worker.phase with
    | accepting => exact ⟨hsettled _, rfl⟩
    | draining | closing => exact ⟨rfl, rfl⟩
  | send client bs => exact ⟨hsettled (f.tell client _), rfl⟩
  | endStream client ending => exact ⟨hsettled (f.tell client _), rfl⟩
  | advance span => exact ⟨(worker_advanceTo (Nat.le_add_right _ _)).2.2, rfl⟩
  | drain =>
    refine ⟨(hsettled _).trans ?_, rfl⟩
    dsimp only [Worker.drain]
    split <;> rfl
  | shutdown => exact ⟨hsettled { f with worker := f.worker.shutdown }, rfl⟩

/-- **The numbers of sessions have no gaps.** -/
theorem accepted_run (f : Floor) (events : List Event) :
    (f.run events).worker.accepted = f.worker.accepted + (f.numbers events).length ∧
      f.numbers events = List.range' (f.worker.accepted + 1) (f.numbers events).length := by
  induction events generalizing f with
  | nil => exact ⟨rfl, rfl⟩
  | cons e es ih =>
    obtain ⟨hstep, hnumber⟩ := accepted_step f e
    obtain ⟨hrun, hnumbers⟩ := ih (f.step e)
    unfold numbers
    rw [List.length_append, run_cons, hrun, hstep, Nat.add_assoc]
    refine ⟨rfl, ?_⟩
    calc (f.number? e).toList ++ (f.step e).numbers es
        = List.range' (f.worker.accepted + 1) (f.number? e).toList.length ++
            List.range' (f.worker.accepted + 1 + (f.number? e).toList.length)
              ((f.step e).numbers es).length := by
          rw [← hnumber, Nat.add_right_comm, ← hstep, ← hnumbers]
      _ = _ := List.range'_append_1

/-- A worker that accepts gives every client that connects a session. -/
theorem length_number? (hopen : f.worker.phase = .accepting) (e : Event) :
    (f.number? e).toList.length = if e.isConnect then 1 else 0 := by
  cases e with
  | connect =>
    dsimp only [number?, Worker.connect]
    rw [hopen]
    rfl
  | send | endStream | advance | drain | shutdown => rfl

theorem number?_of_stopped (hstopped : f.worker.phase ≠ .accepting) (e : Event) :
    f.number? e = none := by
  cases e with
  | connect =>
    dsimp only [number?, Worker.connect]
    split
    · next hopen => exact absurd hopen hstopped
    · rfl
    · rfl
  | send | endStream | advance | drain | shutdown => rfl

/-- **The door.** A worker accepts every client that connects until it is told to stop, and none
after that. -/
theorem length_numbers (hopen : f.worker.phase = .accepting) (events : List Event) :
    (f.numbers events).length =
      (events.takeWhile fun e => !e.stops).countP Event.isConnect := by
  have hstopped {g : Floor} (hg : g.worker.phase ≠ .accepting) (es : List Event) :
      g.numbers es = [] := by
    induction es generalizing g with
    | nil => rfl
    | cons e es ih =>
      unfold numbers
      rw [number?_of_stopped hg e, ih (stopped_step hg e)]
      rfl
  -- On the events, up to the first that stops the worker.
  induction events generalizing f with
  | nil => rfl
  | cons e es ih =>
    unfold numbers
    rw [List.length_append, length_number? hopen]
    cases he : e.stops with
    | true =>
      have hconnect : e.isConnect = false := by
        cases e with
        | drain | shutdown => rfl
        | connect | send | endStream | advance => cases he
      rw [List.takeWhile_cons_of_neg (by rw [he]; exact Bool.false_ne_true),
        hstopped (stopped_of_stops he), hconnect]
      rfl
    | false =>
      rw [List.takeWhile_cons_of_pos (by rw [he]; rfl), List.countP_cons, ih (open_step hopen he),
        Nat.add_comm]

/-! ### The report -/

/-- What a worker that has stopped reports. -/
theorem report?_eq_some_iff {w : Worker} {r : WorkerReport} :
    w.report? = some r ↔ w.phase ≠ .accepting ∧ w.active = 0 ∧ r = ⟨w.accepted, w.forced⟩ := by
  unfold Worker.report?
  cases w.phase with
  | accepting => exact ⟨fun h => (nomatch h), fun h => absurd rfl h.1⟩
  | draining | closing =>
    dsimp only
    split
    · next hempty =>
      refine ⟨fun h => ⟨fun h => (nomatch h), hempty, (Option.some.inj h).symm⟩, fun h => ?_⟩
      rw [h.2.2]
    · next hleft => exact ⟨fun h => (nomatch h), fun h => absurd h.2.1 hleft⟩

/-- Sessions that have ended leave the account as it is. -/
theorem playStations_of_ended (now : Instant) (w : Worker) (b : Backend) {ss : List Station}
    (hended : none ∉ ss.map Station.reason?) :
    (playStations now w b ss).1 = w ∧
      (playStations now w b ss).2.2.map Station.reason? = ss.map Station.reason? := by
  induction ss generalizing b with
  | nil => exact ⟨rfl, rfl⟩
  | cons s ss ih =>
    rw [List.map_cons, List.mem_cons, not_or] at hended
    obtain ⟨reason, hreason⟩ := Option.ne_none_iff_exists'.1 (Ne.symm hended.1)
    obtain ⟨hworker, hreasons⟩ := ih (s.play now b).2 hended.2
    have hafter := (Station.runs_play now b s).reason? hreason
    unfold playStations
    dsimp only
    rw [hreason]
    exact ⟨hworker, by rw [List.map_cons, hafter, hreasons, List.map_cons, hreason]⟩

/-- Once every session has ended, the account and the sessions stand as they are. -/
structure Over (f : Floor) (r : WorkerReport) : Prop where
  reported : f.worker.report? = some r
  ended : none ∉ f.reasons

theorem Over.play {r : WorkerReport} (h : f.Over r) : f.play.Over r := by
  have hended := h.ended
  rw [← reasons_players] at hended
  obtain ⟨hworker, hreasons⟩ := playStations_of_ended f.now f.worker f.backend hended
  refine ⟨?_, ?_⟩
  · change (playStations _ _ _ _).1.report? = some r
    rw [← h.reported]
    exact congrArg Worker.report? hworker
  · change none ∉ (playStations _ _ _ _).2.2.map Station.reason?
    rw [← hreasons] at hended
    exact hended

theorem Over.settle {r : WorkerReport} (h : f.Over r) : f.settle.Over r := by
  have hticked : f.ticked.Over r := by
    obtain ⟨p, htick, hages, -⟩ := f.play.worker.exists_tick_eq f.now
    obtain ⟨hstopped, hempty, hr⟩ := report?_eq_some_iff.1 h.play.reported
    unfold Floor.ticked
    rw [htick]
    exact ⟨report?_eq_some_iff.2 ⟨hages.ne_accepting hstopped, hempty, hr⟩, h.play.ended⟩
  obtain ⟨-, hsettle⟩ | ⟨-, hsettle⟩ := settle_cases f
  · rw [hsettle]
    exact hticked.play
  · rw [hsettle]
    exact hticked

theorem Over.told {r : WorkerReport} (h : f.Over r) (e : Event) : (f.told e).Over r := by
  obtain ⟨hstopped, hempty, hr⟩ := report?_eq_some_iff.1 h.reported
  -- No session can be added to a worker that has stopped accepting, and none of those that there
  -- are comes back.
  cases e with
  | connect =>
    dsimp only [Floor.told, Worker.connect]
    cases hphase : f.worker.phase with
    | accepting => exact absurd hphase hstopped
    | draining | closing => exact h
  | send client bs =>
    refine ⟨h.reported, ?_⟩
    change none ∉ (f.tell client _).reasons
    rw [reasons_tell (g := (·.receive bs)) fun _ => rfl]
    exact h.ended
  | endStream client ending =>
    refine ⟨h.reported, ?_⟩
    change none ∉ (f.tell client _).reasons
    rw [reasons_tell (g := (·.endStream ending)) fun _ => rfl]
    exact h.ended
  | advance span => exact h
  | drain =>
    refine ⟨?_, h.ended⟩
    dsimp only [Floor.told, Worker.drain]
    split
    · next hphase => exact absurd hphase hstopped
    · exact h.reported
    · exact h.reported
  | shutdown => exact ⟨report?_eq_some_iff.2 ⟨fun h => (nomatch h), hempty, hr⟩, h.ended⟩

theorem Over.later {r : WorkerReport} (h : f.Over r) (t : Instant) :
    ({ f with now := t } : Floor).Over r :=
  ⟨h.reported, h.ended⟩

/-- **The report is final.** -/
theorem Over.step {r : WorkerReport} (h : f.Over r) (e : Event) : (f.step e).Over r := by
  obtain ⟨span, -, hstep⟩ | hstep | hstep := step_cases f e <;> rw [hstep]
  · exact advanceTo_induction (p := fun f => f.Over r) (q := fun f => f.Over r) h
      (Nat.le_add_right _ _) (fun _ t h _ _ => (h.later t).settle) fun _ h _ _ => h.later _
  · exact h
  · exact (h.told e).settle

theorem Over.run {r : WorkerReport} (h : f.Over r) (events : List Event) :
    (f.run events).Over r :=
  run_of_step (p := fun f => f.Over r) (q := fun _ => True) h (fun _ e h _ => h.step e)
    fun _ _ => trivial

/-! ### The life of a worker -/

/-- A session that was cut off belongs to a worker that closes. -/
theorem Kept.closing_of_cut (h : f.Kept) (hcut : some .shutdown ∈ f.reasons) :
    f.worker.phase = .closing := by
  obtain ⟨s, hs, hreason⟩ := List.mem_map.1 hcut
  have hcancelled := (h.ran s hs).sound.obedient hreason
  by_contra hphase
  have hopen : f.worker.isClosing = false :=
    Bool.eq_false_iff.2 fun hclosing => hphase (Worker.isClosing_iff.1 hclosing)
  rw [h.free hopen s hs] at hcancelled
  cases hcancelled

/-- No session is left exactly when every one has ended. -/
theorem Kept.active_eq_zero_iff (h : f.Kept) : f.worker.active = 0 ↔ none ∉ f.reasons := by
  rw [h.account.active, List.count_eq_zero]

/-- Before the end of a grace period nobody is cancelled. -/
theorem Kept.free_of_ages (h : f.Kept) {limit : Instant}
    (hages : (WorkerPhase.draining limit).Ages f.now f.worker.phase) (hearly : f.now < limit) :
    (∀ s ∈ f.stations, s.handler.cancelled = false) ∧ some .shutdown ∉ f.reasons := by
  have hopen : f.worker.phase ≠ .closing := by
    obtain hdraining | ⟨deadline, hdeadline, hover, -⟩ := hages
    · rw [hdraining]
      exact fun h => nomatch h
    · cases hdeadline
      exact absurd hover (Nat.not_le.2 hearly)
  refine ⟨h.free ?_, fun hcut => hopen (h.closing_of_cut hcut)⟩
  exact Bool.eq_false_iff.2 fun hclosing => hopen (Worker.isClosing_iff.1 hclosing)

/-- At the end of a grace period every session that is left is cancelled. -/
theorem Rested.cut_of_ages (h : f.Rested) {limit : Instant}
    (hages : (WorkerPhase.draining limit).Ages f.now f.worker.phase) (hover : limit ≤ f.now) :
    ∀ s ∈ f.stations, s.reason? = none →
      s.handler.cancelled = true ∧ s.handler.isServing = false := by
  intro s hs hactive
  obtain hdraining | ⟨_, -, -, hclosing⟩ := hages
  · -- A worker that still drains has nobody left.
    obtain hearly | hempty := h.graced limit hdraining
    · exact absurd hover (Nat.not_le.2 hearly)
    · exact absurd (hactive ▸ List.mem_map_of_mem hs) (h.active_eq_zero_iff.1 hempty)
  · exact h.closed (Worker.isClosing_iff.2 hclosing) s hs

/-- A worker that closes was told to shut down, or its grace period is over. -/
theorem exists_of_closing {config : Config} {backend : Backend} {events : List Event}
    (hclosing : ((start config backend).run events).worker.phase = .closing) :
    .shutdown ∈ events ∨ ∃ earlier later, events = earlier ++ .drain :: later ∧
      (∀ e ∈ earlier, e.stops = false) ∧
      ((start config backend).run earlier).now + config.drainGracePeriod ≤
        ((start config backend).run events).now := by
  by_cases hshutdown : .shutdown ∈ events
  · exact .inl hshutdown
  right
  -- The first thing that stopped the worker can only have been a request to drain.
  cases hfirst : events.find? Event.stops with
  | none =>
    have hopen := (phase_run_iff (f := start config backend) rfl events).2 fun e he =>
      Bool.eq_false_iff.2 (List.find?_eq_none.1 hfirst e he)
    rw [hclosing] at hopen
    cases hopen
  | some e =>
    obtain ⟨hstops, earlier, later, rfl, hearlier⟩ := List.find?_eq_some_iff_append.1 hfirst
    have hearlier : ∀ e ∈ earlier, e.stops = false :=
      fun e he => Bool.not_eq_true' _ ▸ hearlier e he
    cases e with
    | drain =>
      have hlater : ∀ e ∈ later, e ≠ .shutdown := by
        rintro e he rfl
        exact hshutdown (List.mem_append_right _ (List.mem_cons_of_mem _ he))
      have hopen := (phase_run_iff (f := start config backend) rfl earlier).2 hearlier
      have hages := phase_after_drain hopen hlater
      rw [run_append, run_cons] at hclosing ⊢
      rw [hclosing] at hages
      obtain hsame | ⟨_, hdraining, hover, -⟩ := hages
      · cases hsame
      · cases hdraining
        refine ⟨earlier, later, rfl, hearlier, ?_⟩
        rw [← grace_run config backend earlier]
        exact hover
    | shutdown => exact absurd (List.mem_append_right _ List.mem_cons_self) hshutdown
    | connect | send | endStream | advance => cases hstops

/-- **The life of a worker.** In every run of a floor, at every moment:

* the worker has counted its sessions, those that have not ended, and those that were cut off, and
  it has numbered its sessions from one without gaps;
* it has accepted every client that connected before it was told to drain or to shut down, and none
  after that;
* it has stopped exactly when it was told to and every session has ended, and what it reports then
  is final;
* no session was cut off unless the worker was told to shut down, or its grace period is over, which
  begins when it is first told to drain;
* if it was told to drain and not to shut down, no session is cancelled before the grace period is
  over, and every session that is left when it is over is cancelled then. -/
theorem account_of_run (config : Config) (backend : Backend) (events : List Event) :
    let f := (start config backend).run events
    f.worker.accepted = f.stations.length ∧
    f.worker.active + f.reasons.countP Option.isSome = f.worker.accepted ∧
    f.worker.forced = f.reasons.count (some .shutdown) ∧
    (start config backend).numbers events = List.range' 1 f.worker.accepted ∧
    f.worker.accepted = (events.takeWhile fun e => !e.stops).countP Event.isConnect ∧
    (∀ r, f.worker.report? = some r ↔
      (∃ e ∈ events, e.stops = true) ∧ none ∉ f.reasons ∧
        r = ⟨f.stations.length, f.reasons.count (some .shutdown)⟩) ∧
    (∀ r, f.worker.report? = some r →
      f.worker.active = 0 ∧ ∀ later, (f.run later).worker.report? = some r) ∧
    (some .shutdown ∈ f.reasons →
      .shutdown ∈ events ∨ ∃ earlier later, events = earlier ++ .drain :: later ∧
        (∀ e ∈ earlier, e.stops = false) ∧
        ((start config backend).run earlier).now + config.drainGracePeriod ≤ f.now) ∧
    ∀ earlier later, events = earlier ++ .drain :: later → (∀ e ∈ earlier, e.stops = false) →
      (∀ e ∈ later, e ≠ .shutdown) →
      let limit := ((start config backend).run earlier).now + config.drainGracePeriod
      (f.now < limit → (∀ s ∈ f.stations, s.handler.cancelled = false) ∧
        ∀ r, f.worker.report? = some r → r.closedOnShutdown = 0) ∧
      (limit ≤ f.now → ∀ s ∈ f.stations, s.reason? = none →
        s.handler.cancelled = true ∧ s.handler.isServing = false) := by
  intro f
  have hrest : f.Rested := (Rested.start config backend).run events
  have hlength : f.worker.accepted = f.stations.length :=
    hrest.account.accepted.trans (List.length_map _)
  obtain ⟨haccepted, hnumbers⟩ := accepted_run (start config backend) events
  have haccepted : f.worker.accepted = ((start config backend).numbers events).length :=
    haccepted.trans (Nat.zero_add _)
  have hstopped : f.worker.phase ≠ .accepting ↔ ∃ e ∈ events, e.stops = true := by
    rw [Ne, phase_run_iff (f := start config backend) rfl events]
    simp
  refine ⟨hlength, ?_, hrest.account.forced, ?_, ?_, fun r => ?_, fun r hr => ?_, ?_, ?_⟩
  · -- A session has ended or it has not.
    calc f.worker.active + f.reasons.countP Option.isSome
        = f.reasons.countP (· == none) + f.reasons.countP Option.isSome := by
          rw [hrest.account.active]
          rfl
      _ = f.reasons.length := by
          rw [List.length_eq_countP_add_countP (· == none)]
          refine congrArg (_ + ·) (List.countP_congr fun reason _ => ?_)
          cases reason <;> simp
      _ = f.worker.accepted := hrest.account.accepted.symm
  -- Each connection that is accepted takes the next number, so the numbers are the account.
  · rw [haccepted]
    exact hnumbers
  · rw [haccepted]
    exact length_numbers rfl events
  -- A worker reports when it has been told to stop and all have ended, and then it is over for
  -- good.
  · rw [report?_eq_some_iff, hrest.active_eq_zero_iff, hlength, hrest.account.forced, hstopped]
  · have hempty := (report?_eq_some_iff.1 hr).2.1
    have hover : f.Over r := ⟨hr, hrest.active_eq_zero_iff.1 hempty⟩
    exact ⟨hempty, fun later => (hover.run later).reported⟩
  · exact fun hcut => exists_of_closing (hrest.closing_of_cut hcut)
  · -- The first drain sets the limit, and without a shutdown the clock alone takes it from there.
    rintro earlier later rfl hearlier hlater limit
    have hopen := (phase_run_iff (f := start config backend) rfl earlier).2 hearlier
    have hages := phase_after_drain hopen hlater
    rw [grace_run config backend earlier, ← run_cons, ← run_append] at hages
    refine ⟨fun hearly => ?_, hrest.cut_of_ages hages⟩
    obtain ⟨hfree, hnone⟩ := hrest.free_of_ages hages hearly
    refine ⟨hfree, fun r hr => ?_⟩
    rw [(report?_eq_some_iff.1 hr).2.2, hrest.account.forced]
    exact List.count_eq_zero.2 hnone

end Floor

end Smpp
