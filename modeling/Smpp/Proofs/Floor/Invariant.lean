import Smpp.Proofs.Floor.Rest

/-!
# What a floor keeps

However a run of a floor goes, it keeps three things. The numbers in the worker's account are right
for the sessions as they stand (`Worker.Accounts`), which is shown one session at a time
(`Floor.account_playStations`). Every session is a run of its handler (`Station.Ran`) that keeps to
the clock. And before the worker closes nobody is cancelled.

A floor at rest has done all that there is to do (`Floor.Rested`):

* once the worker closes, every session is cancelled and serves its client no more;
* a worker that drains is within its grace period, or has no session left to wait for;
* the timers of every session that serves its client are still to come, and so is whatever the
  backend has still to say.

An event lets time pass, or makes something of the floor (`Floor.told`) and has everything done
about it (`Floor.step_cases`). So every event leaves a floor at rest (`Floor.Rested.step`), and a
floor is at rest at every moment of a run (`Floor.Rested.run`).
-/

namespace Smpp

namespace WorkerPhase

/-- What the clock alone makes of a phase until an instant: nothing, or the end of a grace
period. -/
def Ages (t : Instant) (p p' : WorkerPhase) : Prop :=
  p' = p ∨ ∃ deadline, p = .draining deadline ∧ deadline ≤ t ∧ p' = .closing

theorem Ages.refl (t : Instant) (p : WorkerPhase) : p.Ages t p := .inl rfl

theorem Ages.mono {t t' : Instant} {p p' : WorkerPhase} (h : p.Ages t p') (ht : t ≤ t') :
    p.Ages t' p' :=
  h.imp id fun ⟨deadline, hp, hdeadline, hp'⟩ => ⟨deadline, hp, Nat.le_trans hdeadline ht, hp'⟩

theorem Ages.trans {t : Instant} {p p' p'' : WorkerPhase} (h : p.Ages t p') (h' : p'.Ages t p'') :
    p.Ages t p'' := by
  obtain rfl | ⟨deadline, rfl, hdeadline, rfl⟩ := h
  · exact h'
  · obtain rfl | ⟨_, hclosing, -⟩ := h'
    · exact .inr ⟨deadline, rfl, hdeadline, rfl⟩
    · cases hclosing

/-- The clock does not stop a worker that accepts. -/
theorem Ages.eq_accepting {t : Instant} {p : WorkerPhase} (h : Ages t .accepting p) :
    p = .accepting := by
  obtain hsame | ⟨_, hdraining, -⟩ := h
  · exact hsame
  · cases hdraining

theorem Ages.eq_closing {t : Instant} {p : WorkerPhase} (h : Ages t .closing p) : p = .closing := by
  obtain hsame | ⟨_, hdraining, -⟩ := h
  · exact hsame
  · cases hdraining

/-- The clock does not open a worker that has stopped. -/
theorem Ages.ne_accepting {t : Instant} {p p' : WorkerPhase} (h : p.Ages t p')
    (hstopped : p ≠ .accepting) : p' ≠ .accepting := by
  obtain rfl | ⟨_, -, -, rfl⟩ := h
  · exact hstopped
  · exact fun h => nomatch h

end WorkerPhase

namespace Worker

/-- The numbers of a worker are right for sessions that stand so. -/
structure Accounts (w : Worker) (reasons : List (Option CloseReason)) : Prop where
  accepted : w.accepted = reasons.length
  active : w.active = reasons.count none
  forced : w.forced = reasons.count (some .shutdown)

/-- The clock changes nothing but the phase, and leaves no grace period that is over. -/
theorem exists_tick_eq (w : Worker) (now : Instant) :
    ∃ p, w.tick now = { w with phase := p } ∧ w.phase.Ages now p ∧
      ∀ deadline, p = .draining deadline → now < deadline := by
  obtain ⟨grace, phase, accepted, active, forced⟩ := w
  cases phase with
  | accepting => exact ⟨.accepting, rfl, .refl _ _, fun _ h => nomatch h⟩
  | closing => exact ⟨.closing, rfl, .refl _ _, fun _ h => nomatch h⟩
  | draining deadline =>
    unfold tick
    dsimp only
    split
    · next hover => exact ⟨.closing, rfl, .inr ⟨deadline, rfl, hover, rfl⟩, fun _ h => nomatch h⟩
    · next hearly =>
      refine ⟨.draining deadline, rfl, .refl _ _, fun d hd => ?_⟩
      cases hd
      exact Nat.lt_of_not_le hearly

theorem isClosing_iff {w : Worker} : w.isClosing = true ↔ w.phase = .closing := beq_iff_eq

end Worker

namespace Floor

variable {f : Floor}

/-- How the sessions stand: for each, why it has ended, if it has. -/
def reasons (f : Floor) : List (Option CloseReason) := f.stations.map Station.reason?

/-! ### The account at one instant -/

section Play

variable (now : Instant)

/-- **The account of sessions that play.** Besides those that are still to play, `k` sessions go on
and `j` were cut off. -/
theorem account_playStations (w : Worker) (b : Backend) (ss : List Station) {k j : Nat}
    (hactive : w.active = k + (ss.map Station.reason?).count none)
    (hforced : w.forced = j + (ss.map Station.reason?).count (some .shutdown)) :
    (playStations now w b ss).1.active =
        k + ((playStations now w b ss).2.2.map Station.reason?).count none ∧
      (playStations now w b ss).1.forced =
        j + ((playStations now w b ss).2.2.map Station.reason?).count (some .shutdown) := by
  induction ss generalizing w b k j with
  | nil => exact ⟨hactive, hforced⟩
  | cons s ss ih =>
    have hruns := Station.runs_play now b s
    unfold playStations
    dsimp only
    generalize s.play now b = p at hruns ⊢
    obtain ⟨s', b'⟩ := p
    dsimp only at hruns ⊢
    rw [List.map_cons, List.count_cons] at hactive hforced
    rw [List.map_cons, List.count_cons, List.count_cons]
    -- The session itself is one of the `k`, or of the `j`, while the others play.
    have hothers (w' : Worker)
        (hw' : w'.active = k + (if s'.reason? == none then 1 else 0) +
          (ss.map Station.reason?).count none)
        (hw'' : w'.forced = j + (if s'.reason? == some .shutdown then 1 else 0) +
          (ss.map Station.reason?).count (some .shutdown)) :
        (playStations now w' b' ss).1.active =
            k + (((playStations now w' b' ss).2.2.map Station.reason?).count none +
              (if s'.reason? == none then 1 else 0)) ∧
          (playStations now w' b' ss).1.forced =
            j + (((playStations now w' b' ss).2.2.map Station.reason?).count (some .shutdown) +
              (if s'.reason? == some .shutdown then 1 else 0)) := by
      obtain ⟨hactive', hforced'⟩ := ih w' b' hw' hw''
      exact ⟨by omega, by omega⟩
    cases hbefore : s.reason? with
    | some reason =>
      -- A session that had ended stays as it was.
      rw [hbefore] at hactive hforced
      rw [hruns.reason? hbefore] at hothers ⊢
      exact hothers w (by omega) (by omega)
    | none =>
      rw [hbefore] at hactive hforced
      cases hafter : s'.reason? with
      | none =>
        rw [hafter] at hothers
        exact hothers w (by omega) (by omega)
      | some reason =>
        rw [hafter] at hothers
        refine hothers (w.sessionEnded reason) ?_ ?_
        · change w.active - 1 = k + 0 + _
          change w.active = k + (_ + 1) at hactive
          omega
        · change w.forced = j + (_ + 0) at hforced
          change (if reason = .shutdown then w.forced + 1 else w.forced) = _
          by_cases hreason : reason = .shutdown
          · subst hreason
            rw [if_pos rfl, if_pos (by rfl)]
            omega
          · rw [if_neg hreason, if_neg fun h => hreason (Option.some.inj (beq_iff_eq.1 h))]
            omega

end Play

/-! ### The invariant -/

/-- What a floor keeps whatever it does. -/
structure Kept (f : Floor) : Prop where
  /-- The numbers are right. -/
  account : f.worker.Accounts f.reasons
  /-- Every session is a run of its handler. -/
  ran : ∀ s ∈ f.stations, s.Ran f.config
  timely : ∀ s ∈ f.stations, s.handler.engagement.session.Timely f.config f.now
  /-- A worker that does not close cancels nobody. -/
  free : f.worker.isClosing = false → ∀ s ∈ f.stations, s.handler.cancelled = false

/-- What a floor keeps, and has done when it is at rest. -/
structure Rested (f : Floor) : Prop extends Kept f where
  /-- A worker that closes has cancelled everybody, and what has not ended waits. -/
  closed : f.worker.isClosing = true →
    ∀ s ∈ f.stations, s.handler.cancelled = true ∧ s.handler.isServing = false
  /-- A grace period that is over has been ended, if there was someone to wait for. -/
  graced : ∀ deadline, f.worker.phase = .draining deadline →
    f.now < deadline ∨ f.worker.active = 0
  /-- A session that serves its client waits for its timers. -/
  punctual : 0 < f.config.enquireLinkInterval → ∀ s ∈ f.stations, s.handler.isServing = true →
    f.now < s.handler.engagement.session.nextWakeup
  /-- What the backend has still to say is not due. -/
  quiet : ∀ s ∈ f.stations, ∀ t ∈ s.replies.next?, f.now < t

theorem Rested.start (config : Config) (backend : Backend) : (start config backend).Rested where
  account := ⟨rfl, rfl, rfl⟩
  ran := fun _ h => absurd h List.not_mem_nil
  timely := fun _ h => absurd h List.not_mem_nil
  free := fun _ _ h => absurd h List.not_mem_nil
  closed := fun h => nomatch h
  graced := fun _ h => nomatch h
  punctual := fun _ _ h => absurd h List.not_mem_nil
  quiet := fun _ h => absurd h List.not_mem_nil

theorem reasons_players (f : Floor) : f.players.map Station.reason? = f.reasons := by
  unfold players reasons
  split
  · rw [List.map_map]
    rfl
  · rfl

theorem Kept.player (h : f.Kept) {s : Station} (hs : s ∈ f.players) :
    s.Ran f.config ∧ s.handler.engagement.session.Timely f.config f.now ∧
      s.handler.cancelled = f.worker.isClosing := by
  unfold players at hs
  split at hs
  · next hclosing =>
    obtain ⟨s₀, hs₀, rfl⟩ := List.mem_map.1 hs
    have htells : Station.Tells .cancel s₀ { s₀ with handler := s₀.handler.cancel } :=
      ⟨rfl, (List.append_nil _).symm⟩
    exact ⟨(h.ran s₀ hs₀).tells htells, h.timely s₀ hs₀, hclosing.symm⟩
  · next hopen =>
    rw [Bool.not_eq_true] at hopen
    exact ⟨h.ran s hs, h.timely s hs, (h.free hopen s hs).trans hopen.symm⟩

theorem isClosing_play (f : Floor) : f.play.worker.isClosing = f.worker.isClosing := by
  unfold Worker.isClosing
  rw [phase_play]

theorem Kept.play (h : f.Kept) : f.play.Kept where
  -- The account is of all stations together, so it goes along the list with what the stations in
  -- front have added to it; the other clauses are of each station by itself.
  account := by
    have haccount := h.account
    rw [← reasons_players] at haccount
    obtain ⟨hactive, hforced⟩ := account_playStations f.now f.worker f.backend f.players
      (haccount.active.trans (Nat.zero_add _).symm) (haccount.forced.trans (Nat.zero_add _).symm)
    refine ⟨?_, hactive.trans (Nat.zero_add _), hforced.trans (Nat.zero_add _)⟩
    have hlength : f.play.reasons.length = f.players.length :=
      (List.length_map _).trans (length_playStations _ _ _ _)
    rw [accepted_play, hlength, haccount.accepted, List.length_map]
  ran := by
    intro s' hs'
    obtain ⟨s, hs, b, rfl⟩ := exists_of_mem_play hs'
    exact (h.player hs).1.runs (Station.runs_play f.now b s)
  timely := by
    intro s' hs'
    obtain ⟨s, hs, b, rfl⟩ := exists_of_mem_play hs'
    exact (Station.runs_play f.now b s).timely (h.player hs).2.1
  free := by
    intro hopen s' hs'
    obtain ⟨s, hs, b, rfl⟩ := exists_of_mem_play hs'
    rw [isClosing_play] at hopen
    rw [(Station.runs_play f.now b s).cancelled, (h.player hs).2.2]
    exact hopen

theorem Kept.punctual_play (h : f.Kept) (hinterval : 0 < f.config.enquireLinkInterval) :
    ∀ s ∈ f.play.stations, s.handler.isServing = true →
      f.now < s.handler.engagement.session.nextWakeup := by
  intro s' hs' hserving
  obtain ⟨s, hs, b, rfl⟩ := exists_of_mem_play hs'
  exact Station.lt_nextWakeup_play (h.player hs).2.1 hinterval hserving

theorem quiet_play (f : Floor) : ∀ s ∈ f.play.stations, ∀ t ∈ s.replies.next?, f.now < t := by
  intro s' hs'
  obtain ⟨s, -, b, rfl⟩ := exists_of_mem_play hs'
  exact Station.lt_next_play f.now b s

/-- The end of a round at which the worker has looked at the clock. -/
theorem Kept.ticked (h : f.Kept) : f.ticked.Kept := by
  obtain ⟨p, htick, hages, -⟩ := f.play.worker.exists_tick_eq f.now
  unfold Floor.ticked
  rw [htick]
  refine ⟨⟨h.play.account.accepted, h.play.account.active, h.play.account.forced⟩,
    h.play.ran, h.play.timely, fun hopen => h.play.free ?_⟩
  -- The clock does not open a worker that closes.
  rw [Bool.eq_false_iff, Ne, Worker.isClosing_iff] at hopen ⊢
  intro hclosing
  rw [hclosing] at hages
  exact hopen hages.eq_closing

/-- **A floor that has done what there was to do is at rest.** -/
theorem Kept.settle (h : f.Kept) : f.settle.Rested := by
  obtain ⟨hclosing, hsettle⟩ | ⟨hopen, hsettle⟩ := settle_cases f
  · -- The worker closes, and in the second round everybody obeys.
    rw [hsettle]
    have hcancelled := (isClosing_play f.ticked).trans hclosing
    refine ⟨h.ticked.play, fun _ s' hs' => ?_, fun deadline hdraining => ?_,
      h.ticked.punctual_play, quiet_play f.ticked⟩
    · obtain ⟨s, hs, b, rfl⟩ := exists_of_mem_play hs'
      have hplayer := (h.ticked.player hs).2.2.trans hclosing
      exact ⟨(Station.runs_play _ b s).cancelled.trans hplayer,
        Station.not_serving_of_cancelled hplayer⟩
    · rw [Worker.isClosing_iff.1 hcancelled] at hdraining
      cases hdraining
  · rw [hsettle]
    refine ⟨h.ticked, fun hclosing => absurd (hclosing.symm.trans hopen) Bool.true_eq_false.mp, ?_,
      h.punctual_play, quiet_play f⟩
    obtain ⟨p, htick, -, hgraced⟩ := f.play.worker.exists_tick_eq f.now
    intro deadline hdraining
    unfold Floor.ticked at hdraining
    rw [htick] at hdraining
    exact .inl (hgraced deadline hdraining)

/-- The timers of a session that serves its client matter. -/
theorem mem_wakeups {s : Station} (hs : s ∈ f.stations) (hserving : s.handler.isServing = true) :
    s.handler.engagement.session.nextWakeup ∈
      f.worker.deadline?.toList ++ f.stations.flatMap Station.wakeups :=
  List.mem_append_right _
    (List.mem_flatMap.2 ⟨s, hs, Station.nextWakeup_mem_wakeups hserving⟩)

/-- What the backend has still to say matters. -/
theorem reply_mem_wakeups {s : Station} (hs : s ∈ f.stations) {t : Instant}
    (ht : t ∈ s.replies.next?) :
    t ∈ f.worker.deadline?.toList ++ f.stations.flatMap Station.wakeups :=
  List.mem_append_right _ (List.mem_flatMap.2 ⟨s, hs, Station.next_mem_wakeups ht⟩)

/-- The end of a grace period matters as long as there is someone to wait for. -/
theorem deadline_mem_wakeups {deadline : Instant} (hdraining : f.worker.phase = .draining deadline)
    (hleft : f.worker.active ≠ 0) :
    deadline ∈ f.worker.deadline?.toList ++ f.stations.flatMap Station.wakeups := by
  have hdeadline : f.worker.deadline? = some deadline := by
    unfold Worker.deadline?
    rw [hdraining]
    exact if_neg hleft
  rw [hdeadline]
  exact List.mem_append_left _ List.mem_cons_self

/-- Nothing happens while the clock moves to an instant before all that matter. -/
theorem Rested.wait {target : Instant} (h : f.Rested) (hnow : f.now ≤ target)
    (hlate : ∀ t, f.wakeup? = some t → target < t) :
    ({ f with now := target } : Floor).Rested where
  account := h.account
  ran := h.ran
  timely := fun s hs => (h.timely s hs).mono hnow
  free := h.free
  closed := h.closed
  graced := by
    intro deadline hdraining
    change f.worker.phase = _ at hdraining
    obtain hearly | hempty := h.graced deadline hdraining
    · by_cases hleft : f.worker.active = 0
      · exact .inr hleft
      · exact .inl (lt_of_late (deadline_mem_wakeups hdraining hleft) hearly hlate)
    · exact .inr hempty
  punctual := by
    intro hinterval s hs hserving
    have hearly : f.now < _ := h.punctual hinterval s hs hserving
    exact lt_of_late (f := f) (mem_wakeups hs hserving) hearly hlate
  quiet := by
    intro s hs t ht
    exact lt_of_late (f := f) (reply_mem_wakeups hs ht) (h.quiet s hs t ht) hlate

/-- What a floor keeps it keeps while its clock moves on. -/
theorem Kept.later (h : f.Kept) {t : Instant} (ht : f.now ≤ t) :
    ({ f with now := t } : Floor).Kept :=
  ⟨h.account, h.ran, fun s hs => (h.timely s hs).mono ht, h.free⟩

theorem Rested.advanceTo {target : Instant} (h : f.Rested) (hnow : f.now ≤ target) :
    (f.advanceTo target).Rested :=
  advanceTo_induction (p := Rested) (q := Rested) h hnow
    (fun _ _ hf hwakeup _ =>
      Kept.settle (hf.toKept.later (Nat.le_of_lt (now_lt_of_wakeup hwakeup))))
    (fun _ hf hnow hlate => hf.wait hnow hlate)

section Tell

variable {client : Nat} {g : Handler → Handler}

theorem exists_of_mem_tell {s' : Station} (hs' : s' ∈ (f.tell client g).stations) :
    ∃ s ∈ f.stations, s' = s ∨ s' = { s with handler := g s.handler } := by
  obtain ⟨i, hi⟩ := List.mem_iff_getElem?.1 hs'
  unfold tell at hi
  rw [List.getElem?_modify] at hi
  obtain ⟨s, hs, rfl⟩ := Option.map_eq_some_iff.1 hi
  refine ⟨s, List.mem_of_getElem? hs, ?_⟩
  split
  · exact .inr rfl
  · exact .inl rfl

/-- What a client does ends no session by itself. -/
theorem reasons_tell (hg : ∀ h, (g h).stage = h.stage) : (f.tell client g).reasons = f.reasons := by
  unfold reasons tell
  refine List.ext_getElem? fun i => ?_
  rw [List.getElem?_map, List.getElem?_map, List.getElem?_modify]
  cases f.stations[i]? with
  | none => rfl
  | some s =>
    change some (Station.reason? (if client = i then _ else s)) = some s.reason?
    split
    · exact congrArg some (Handler.reason?_eq (hg s.handler))
    · rfl

/-- What a client does is something that its handler is told, and does nothing in return. -/
theorem Kept.tell {e : Handler.Event} (h : f.Kept) (hg : ∀ h, h.step e = (g h, []))
    (hstage : ∀ h, (g h).stage = h.stage)
    (hsession : ∀ h, (g h).engagement.session = h.engagement.session)
    (hcancels : e.cancels = false) : (f.tell client g).Kept where
  account := by
    rw [reasons_tell hstage]
    exact h.account
  ran := by
    intro s' hs'
    obtain ⟨s, hs, rfl | rfl⟩ := exists_of_mem_tell hs'
    · exact h.ran _ hs
    · refine (h.ran s hs).tells (e := e) ⟨?_, ?_⟩
      · rw [hg]
      · rw [hg]
        exact (List.append_nil _).symm
  timely := by
    intro s' hs'
    obtain ⟨s, hs, rfl | rfl⟩ := exists_of_mem_tell hs'
    · exact h.timely _ hs
    · exact hsession s.handler ▸ h.timely s hs
  free := by
    intro hopen s' hs'
    obtain ⟨s, hs, rfl | rfl⟩ := exists_of_mem_tell hs'
    · exact h.free hopen _ hs
    · have hcancelled := Handler.cancelled_step s.handler e
      rw [hg, hcancels, Bool.or_false] at hcancelled
      exact hcancelled.trans (h.free hopen s hs)

end Tell

/-- What an event makes of a floor before anything is done about it. -/
def told (f : Floor) : Event → Floor
  | .connect =>
    match f.worker.connect with
    | some (worker, _) =>
      { f with worker, stations := f.stations ++ [.start f.config f.now] }
    | none => f
  | .send client bs => f.tell client (·.receive bs)
  | .endStream client ending => f.tell client (·.endStream ending)
  | .advance _ => f
  | .drain => { f with worker := f.worker.drain f.now }
  | .shutdown => { f with worker := f.worker.shutdown }

/-- **What an event comes to**: time passes, or a client is not accepted, or everything is done that
there is to do at the instant of the event. -/
theorem step_cases (f : Floor) (e : Event) :
    (∃ span, e = .advance span ∧ f.step e = f.advanceTo (f.now + span)) ∨
      f.step e = f ∨ f.step e = (f.told e).settle := by
  cases e with
  | connect =>
    dsimp only [Floor.step, told]
    cases f.worker.connect with
    | some => exact .inr (.inr rfl)
    | none => exact .inr (.inl rfl)
  | advance span => exact .inl ⟨span, rfl, rfl⟩
  | send | endStream | drain | shutdown => exact .inr (.inr rfl)

/-- What a floor keeps it keeps when it is told something. -/
theorem Kept.told (h : f.Kept) (e : Event) : (f.told e).Kept := by
  cases e with
  -- A session more, if the worker accepts it; all others stay as they are.
  | connect =>
    dsimp only [Floor.told, Worker.connect]
    cases hphase : f.worker.phase with
    | draining deadline => exact h
    | closing => exact h
    | accepting =>
      have hopen : f.worker.isClosing = false := by
        unfold Worker.isClosing
        rw [hphase]
        rfl
      refine ⟨?_, ?_, ?_, ?_⟩
      · -- The new session has not ended, and is counted so.
        unfold reasons
        rw [List.map_append]
        refine ⟨?_, ?_, ?_⟩
        · rw [List.length_append]
          exact congrArg (· + 1) h.account.accepted
        · rw [List.count_append]
          exact congrArg (· + 1) h.account.active
        · rw [List.count_append]
          exact h.account.forced
      · intro s hs
        obtain hs | hs := List.mem_append.1 hs
        · exact h.ran s hs
        · rw [List.mem_singleton.1 hs]
          exact Station.Ran.start f.config f.now
      · intro s hs
        obtain hs | hs := List.mem_append.1 hs
        · exact h.timely s hs
        · rw [List.mem_singleton.1 hs]
          exact Session.Timely.start f.config f.now
      · intro _ s hs
        obtain hs | hs := List.mem_append.1 hs
        · exact h.free hopen s hs
        · rw [List.mem_singleton.1 hs]
          rfl
  -- What a client does is told to its session, and ends none yet.
  | send client bs =>
    exact h.tell (e := .arrive bs) (fun _ => rfl) (fun _ => rfl) (fun _ => rfl) rfl
  | endStream client ending =>
    exact h.tell (e := .endStream ending) (fun _ => rfl) (fun _ => rfl) (fun _ => rfl) rfl
  | advance span => exact h
  | drain =>
    refine ⟨?_, h.ran, h.timely, ?_⟩
    · dsimp only [Floor.told, Worker.drain]
      split
      · exact ⟨h.account.accepted, h.account.active, h.account.forced⟩
      · exact h.account
      · exact h.account
    · -- To drain cancels nobody, and opens no worker that closes.
      intro hopen
      refine h.free ?_
      change (f.worker.drain f.now).isClosing = false at hopen
      unfold Worker.drain at hopen
      split at hopen
      · next hphase =>
        unfold Worker.isClosing
        rw [hphase]
        rfl
      · exact hopen
      · exact hopen
  | shutdown =>
    exact ⟨⟨h.account.accepted, h.account.active, h.account.forced⟩, h.ran, h.timely,
      fun hopen => nomatch hopen⟩

/-- What a floor keeps it keeps on the way of its clock. -/
theorem Kept.advanceTo {target : Instant} (h : f.Kept) (hnow : f.now ≤ target) :
    (f.advanceTo target).Kept :=
  advanceTo_induction (p := Kept) (q := Kept) h hnow
    (fun _ _ hf hwakeup _ => (hf.later (Nat.le_of_lt (now_lt_of_wakeup hwakeup))).settle.toKept)
    (fun _ hf hnow _ => hf.later hnow)

/-- **Every event keeps what a floor keeps**, be the floor at rest or not. -/
theorem Kept.step (h : f.Kept) (e : Event) : (f.step e).Kept := by
  obtain ⟨span, -, hstep⟩ | hstep | hstep := step_cases f e <;> rw [hstep]
  · exact h.advanceTo (Nat.le_add_right _ _)
  · exact h
  · exact (h.told e).settle.toKept

/-- **Every event leaves a floor at rest.** -/
theorem Rested.step (h : f.Rested) (e : Event) : (f.step e).Rested := by
  obtain ⟨span, -, hstep⟩ | hstep | hstep := step_cases f e <;> rw [hstep]
  · exact h.advanceTo (Nat.le_add_right _ _)
  · exact h
  · exact (h.told e).settle

/-- **Every run leaves a floor at rest.** -/
theorem Rested.run (h : f.Rested) (events : List Event) : (f.run events).Rested :=
  run_of_step (q := fun _ => True) h (fun _ e h _ => h.step e) fun _ _ => trivial

end Floor

end Smpp
