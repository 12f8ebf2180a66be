import Smpp.Proofs.Handler.Clock
import Smpp.Proofs.Handler.Output
import Smpp.Timeline.Floor

/-!
# What becomes of stations as time passes

Everything that a station does is done by its handler, told one thing after another: `Station.Runs`
says that a station has come from another by a run of its handler, and that its client was sent what
the run has written. To settle and to play are such runs (`Station.runs_play`), so what holds of all
runs of a handler holds of every session of a worker.

A station that has settled has nothing to do (`Station.turn_settle`). A floor moves its clock from
one instant that matters to the next, and `Floor.advanceTo_induction` is the induction that goes
with it. It does not matter where the way of the clock is cut (`Floor.advanceTo_advanceTo`): what
holds after every row of events so holds at every instant.
-/

namespace Smpp

/-- A look at the timers calls nobody. -/
theorem Handler.weight_of_mem_tick {h : Handler} {now : Instant} {e : Effect}
    (he : e ∈ (h.tick now).2) : e.weight = 0 := by
  have hspoken {es : List Effect} (hes : Spoken es) (he : e ∈ es) : e.weight = 0 := by
    obtain ⟨bs, rfl | rfl⟩ := hes e he <;> rfl
  have hclosed {es : List Effect} (hes : Spoken es) (he : e ∈ es ++ [.close]) : e.weight = 0 := by
    obtain he | he := List.mem_append.1 he
    · exact hspoken hes he
    · rw [List.mem_singleton.1 he]
      rfl
  have hlooked := looked h now
  generalize h.tick now = r at hlooked he
  cases hlooked with
  | early => exact absurd he List.not_mem_nil
  | gone _ _ hes => exact hclosed hes he
  | silent _ _ hes => exact hclosed hes he
  | awake => exact hspoken (spoken_writes _) he

namespace Station

/-! ### Effects -/

theorem foldl_perform (now : Instant) (es : List Effect) (p : Station × Backend) :
    (es.foldl (perform now) p).1.handler = p.1.handler ∧
      (es.foldl (perform now) p).1.sent = p.1.sent ++ Effect.written es := by
  -- On the effects: what is not written concerns the backend.
  induction es generalizing p with
  | nil => exact ⟨rfl, (List.append_nil _).symm⟩
  | cons e es ih =>
    obtain ⟨hhandler, hsent⟩ := ih (perform now p e)
    have hfirst : (perform now p e).1.handler = p.1.handler ∧
        (perform now p e).1.sent = p.1.sent ++ e.octets := by
      obtain ⟨s, b⟩ := p
      cases e with
      | write bs => exact ⟨rfl, rfl⟩
      | farewell bs => exact ⟨rfl, rfl⟩
      | submit call submission => exact ⟨rfl, (List.append_nil _).symm⟩
      | authenticate c => exact ⟨rfl, (List.append_nil _).symm⟩
      | close => exact ⟨rfl, (List.append_nil _).symm⟩
    rw [List.foldl_cons]
    refine ⟨hhandler.trans hfirst.1, ?_⟩
    rw [hsent, hfirst.2, List.append_assoc]
    rfl

@[simp] theorem handler_performAll (now : Instant) (b : Backend) (s : Station)
    (r : Handler × List Effect) : (s.performAll now b r).1.handler = r.1 :=
  (foldl_perform now r.2 _).1

@[simp] theorem sent_performAll (now : Instant) (b : Backend) (s : Station)
    (r : Handler × List Effect) :
    (s.performAll now b r).1.sent = s.sent ++ Effect.written r.2 :=
  (foldl_perform now r.2 _).2

/-- Effects that call nobody leave what is to come as it is. -/
theorem replies_foldl_perform {now : Instant} {es : List Effect} (hcalls : ∀ e ∈ es, e.weight = 0)
    (p : Station × Backend) : (es.foldl (perform now) p).1.replies = p.1.replies := by
  induction es generalizing p with
  | nil => rfl
  | cons e es ih =>
    rw [List.forall_mem_cons] at hcalls
    rw [List.foldl_cons, ih hcalls.2]
    cases e with
    | write | farewell | close => rfl
    | submit | authenticate => exact absurd hcalls.1 (Nat.succ_ne_zero 2)

/-! ### Steps of a station -/

/-- A station has told its handler something, and has carried out what the handler did. -/
structure Tells (e : Handler.Event) (s s' : Station) : Prop where
  handler : s'.handler = (s.handler.step e).1
  sent : s'.sent = s.sent ++ Effect.written (s.handler.step e).2

theorem tells_performAll {now : Instant} {b : Backend} {s s' : Station} {e : Handler.Event}
    (hsent : s'.sent = s.sent) :
    Tells e s (s'.performAll now b (s.handler.step e)).1 := by
  refine ⟨handler_performAll now b s' _, ?_⟩
  rw [sent_performAll, hsent]

/-- The first thing that there is to do is a turn of the handler, or else to hear the answer that is
due first. -/
theorem step_cases {now : Instant} {b : Backend} {s : Station} {p : Station × Backend}
    (h : s.step now b = some p) :
    (∃ r, s.handler.turn now = some r ∧ p = s.performAll now b r) ∨
      ∃ t reply rest, s.replies.entries = (t, reply) :: rest ∧
        p = ({ s with replies := ⟨rest⟩ } : Station).hear now b reply := by
  unfold step at h
  split at h
  · next r hturn =>
    cases h
    exact .inl ⟨r, hturn, rfl⟩
  split at h
  · cases h
  next t reply rest hentries =>
  split at h
  · cases h
    exact .inr ⟨t, reply, rest, hentries, rfl⟩
  · cases h

/-- **What a station does at an instant** before it looks at its timers is to tell its handler
something: that it is its turn, or what the backend has answered. -/
theorem tells_of_step {now : Instant} {b : Backend} {s : Station} {p : Station × Backend}
    (h : s.step now b = some p) :
    ∃ e : Handler.Event, e.At now ∧ (∀ t, e ≠ .tick t) ∧ Tells e s p.1 := by
  obtain ⟨r, hturn, rfl⟩ | ⟨t, reply, rest, -, rfl⟩ := step_cases h
  · have hstep : s.handler.step (.turn now) = r := congrArg (Option.getD · (s.handler, [])) hturn
    refine ⟨.turn now, rfl, fun _ h => (nomatch h), ?_⟩
    rw [← hstep]
    exact tells_performAll rfl
  · cases reply with
    | submitted call result =>
      refine ⟨.answer call result, trivial, fun _ h => (nomatch h), rfl, ?_⟩
      exact (List.append_nil _).symm
    | authenticated result =>
      refine ⟨.authenticated now result, rfl, fun _ h => (nomatch h), ?_⟩
      have hsent : ({ s with replies := ⟨rest⟩ } : Station).sent = s.sent := rfl
      exact tells_performAll hsent

theorem step_eq_none_iff {now : Instant} {b : Backend} {s : Station} : s.step now b = none ↔
    s.handler.turn now = none ∧ ∀ t ∈ s.replies.next?, now < t := by
  unfold step Agenda.next?
  split
  · next hturn => simp [hturn]
  next hrests =>
  split
  · next hentries => simp [hrests, hentries]
  · next t reply rest hentries =>
    rw [hentries]
    split
    · next hdue => simpa [hrests] using hdue
    · next hearly => simpa [hrests] using hearly

theorem settle_of_none {now : Instant} {b : Backend} {s : Station} (h : s.step now b = none) :
    s.settle now b = (s, b) := by
  rw [settle]
  split
  · rfl
  · next hsome => rw [h] at hsome; cases hsome

theorem settle_of_some {now : Instant} {b b' : Backend} {s s' : Station}
    (h : s.step now b = some (s', b')) : s.settle now b = s'.settle now b' := by
  rw [settle]
  split
  · next hnone => rw [h] at hnone; cases hnone
  · next hsome =>
    rw [h] at hsome
    cases hsome
    rfl

/-- What every step at an instant preserves settling preserves. -/
theorem settle_of_step {p : Station → Prop} {now : Instant} (b : Backend) {s : Station} (hp : p s)
    (hstep : ∀ s s' e, e.At now → (∀ t, e ≠ .tick t) → Tells e s s' → p s → p s') :
    p (s.settle now b).1 := by
  -- On what the station has left to use up, as the settling itself.
  induction b, s using settle.induct now with
  | case1 b s hnone =>
    rw [settle_of_none hnone]
    exact hp
  | case2 b s s' b' hsome ih =>
    rw [settle_of_some hsome]
    obtain ⟨e, he, htick, htells⟩ := tells_of_step hsome
    exact ih (hstep _ _ e he htick htells hp)

/-- A station that has settled has nothing to do. -/
theorem step_settle (now : Instant) (b : Backend) (s : Station) :
    (s.settle now b).1.step now (s.settle now b).2 = none := by
  induction b, s using settle.induct now with
  | case1 b s hnone =>
    rw [settle_of_none hnone]
    exact hnone
  | case2 b s s' b' hsome ih =>
    rw [settle_of_some hsome]
    exact ih

theorem turn_settle (now : Instant) (b : Backend) (s : Station) :
    (s.settle now b).1.handler.turn now = none :=
  (step_eq_none_iff.1 (step_settle now b s)).1

/-! ### Runs of a station -/

/-- A station has come from another at an instant by a run of its handler, and its client was sent
what the run wrote. -/
def Runs (now : Instant) (s s' : Station) : Prop :=
  ∃ events : List Handler.Event, (∀ e ∈ events, e.At now) ∧
    s'.handler = s.handler.after events ∧
    s'.sent = s.sent ++ Effect.written (Handler.effects (s.handler.history events))

section Runs

variable {now : Instant} {s s' : Station}

theorem Runs.refl (now : Instant) (s : Station) : Runs now s s :=
  ⟨[], fun _ h => absurd h List.not_mem_nil, rfl, (List.append_nil _).symm⟩

theorem Runs.trans {s'' : Station} (h : Runs now s s') (h' : Runs now s' s'') :
    Runs now s s'' := by
  obtain ⟨es, hes, hhandler, hsent⟩ := h
  obtain ⟨es', hes', hhandler', hsent'⟩ := h'
  refine ⟨es ++ es', ?_, ?_, ?_⟩
  · exact fun e he => (List.mem_append.1 he).elim (hes e) (hes' e)
  · rw [hhandler', hhandler, Handler.after_append]
  · rw [hsent', hsent, hhandler, Handler.history_append, List.append_assoc]
    unfold Handler.effects
    rw [List.flatMap_append, Handler.written_append]

/-- What a station does when it tells its handler one thing is a run. -/
theorem Tells.runs {e : Handler.Event} (h : Tells e s s') (he : e.At now) : Runs now s s' := by
  refine ⟨[e], List.forall_mem_singleton.2 he, h.handler, ?_⟩
  rw [h.sent, Handler.history_cons, Handler.history_nil]
  exact congrArg (s.sent ++ Effect.written ·) (List.append_nil _).symm

variable (now)

theorem runs_settle (b : Backend) (s : Station) : Runs now s (s.settle now b).1 :=
  settle_of_step b (Runs.refl now s) fun _ _ _ he _ htells hruns => hruns.trans (htells.runs he)

/-- Playing ends with a look at the timers. -/
theorem tells_play (b : Backend) (s : Station) :
    Tells (.tick now) (s.settle now b).1 (s.play now b).1 :=
  tells_performAll (e := .tick now) rfl

theorem runs_play (b : Backend) (s : Station) : Runs now s (s.play now b).1 :=
  (runs_settle now b s).trans ((tells_play now b s).runs rfl)

variable {now}

/-- What a handler keeps whatever it is told at an instant a station keeps. -/
theorem Runs.handler {p : Handler → Prop} (h : Runs now s s') (hp : p s.handler)
    (hstep : ∀ h e, p h → e.At now → p (h.step e).1) : p s'.handler := by
  obtain ⟨es, hes, hhandler, -⟩ := h
  rw [hhandler]
  exact Handler.after_of_step hp hstep hes

/-- The end of a session is for good. -/
theorem Runs.reason? {reason : CloseReason} (h : Runs now s s')
    (hended : s.reason? = some reason) : s'.reason? = some reason :=
  h.handler (p := fun h => h.reason? = some reason) hended
    fun _ e hended _ => (Handler.step_of_ended hended e).1

/-- What has ended says no more. -/
theorem Runs.sent_of_ended {reason : CloseReason} (h : Runs now s s')
    (hended : s.reason? = some reason) : s'.sent = s.sent := by
  obtain ⟨es, -, -, hsent⟩ := h
  rw [hsent, Handler.effects_of_ended hended]
  exact List.append_nil _

/-- A station is not cancelled by what it does. -/
theorem Runs.cancelled (h : Runs now s s') : s'.handler.cancelled = s.handler.cancelled := by
  refine h.handler (p := fun h => h.cancelled = s.handler.cancelled) rfl fun h e hsame he => ?_
  have hcancels : e.cancels = false := by
    cases e with
    | cancel => exact absurd he id
    | arrive | endStream | answer | authenticated | turn | tick => rfl
  rw [Handler.cancelled_step, hcancels, Bool.or_false]
  exact hsame

theorem Runs.timely {config : Config} (h : Runs now s s')
    (hs : s.handler.engagement.session.Timely config now) :
    s'.handler.engagement.session.Timely config now :=
  h.handler (p := fun h => h.engagement.session.Timely config now) hs
    fun _ _ hs he => Handler.timely_step he hs

end Runs

/-! ### The past of a station -/

/-- A station has come about by a run of its handler from a connection that was accepted at some
instant, and its client was sent what the run wrote. -/
def Ran (config : Config) (s : Station) : Prop :=
  ∃ (begun : Instant) (events : List Handler.Event),
    s.handler = (Handler.start config begun).after events ∧
    s.sent = Effect.written (Handler.effects ((Handler.start config begun).history events))

section Ran

variable {config : Config} {s s' : Station}

theorem Ran.start (config : Config) (now : Instant) : (start config now).Ran config :=
  ⟨now, [], rfl, rfl⟩

/-- What a station tells its handler goes on with the run. -/
theorem Ran.tells {e : Handler.Event} (h : s.Ran config) (htells : Tells e s s') :
    s'.Ran config := by
  obtain ⟨begun, events, hhandler, hsent⟩ := h
  refine ⟨begun, events ++ [e], ?_, ?_⟩
  · rw [htells.handler, hhandler, Handler.after_append]
    rfl
  · rw [htells.sent, hsent, hhandler, Handler.history_append, Handler.history_cons]
    unfold Handler.effects
    rw [List.flatMap_append, Handler.written_append, List.flatMap_cons, Handler.history_nil,
      List.flatMap_nil, List.append_nil]
    rfl

theorem Ran.runs {now : Instant} (h : s.Ran config) (hruns : Runs now s s') : s'.Ran config := by
  obtain ⟨begun, events, hhandler, hsent⟩ := h
  obtain ⟨events', -, hhandler', hsent'⟩ := hruns
  refine ⟨begun, events ++ events', ?_, ?_⟩
  · rw [hhandler', hhandler, Handler.after_append]
  · rw [hsent', hsent, hhandler, Handler.history_append]
    unfold Handler.effects
    rw [List.flatMap_append, Handler.written_append]

theorem Ran.sound (h : s.Ran config) : s.handler.Sound := by
  obtain ⟨begun, events, hhandler, -⟩ := h
  rw [hhandler]
  exact (Handler.Sound.start config begun).after events

end Ran

/-- A session that is cancelled has ended once its station has played, unless it waits for an
authentication. -/
theorem not_serving_of_cancelled {now : Instant} {b : Backend} {s : Station}
    (hcancelled : s.handler.cancelled = true) :
    (s.play now b).1.handler.isServing = false := by
  have hsettled := (runs_settle now b s).cancelled.trans hcancelled
  have hrests := turn_settle now b s
  -- If it still served its client there would be something to do: to obey.
  have hturned := Handler.turned (s.settle now b).1.handler now
  rw [hrests] at hturned
  have hserving : (s.settle now b).1.handler.isServing = false := by
    generalize hnone : (none : Option (Handler × List Effect)) = r at hturned
    cases hturned with
    | idle hserving => exact hserving
    | waits _ hfree => rw [hsettled] at hfree; cases hfree
    | obeys | completes | reads => cases hnone
  have htick : ((s.settle now b).1.handler.tick now) = ((s.settle now b).1.handler, []) :=
    Handler.tick_of_early (.inl hserving)
  rw [(tells_play now b s).handler]
  dsimp only [Handler.step]
  rw [htick]
  exact hserving

/-- A look at the timers enters nothing in what is to come. -/
theorem replies_play (now : Instant) (b : Backend) (s : Station) :
    (s.play now b).1.replies = (s.settle now b).1.replies :=
  replies_foldl_perform (fun _ => Handler.weight_of_mem_tick) _

/-- What is to come for a station that has played is not due. -/
theorem lt_next_play (now : Instant) (b : Backend) (s : Station) :
    ∀ t ∈ (s.play now b).1.replies.next?, now < t := by
  rw [replies_play]
  exact (step_eq_none_iff.1 (step_settle now b s)).2

/-- A session whose station has played waits for its timers. -/
theorem lt_nextWakeup_play {config : Config} {now : Instant} {b : Backend} {s : Station}
    (hs : s.handler.engagement.session.Timely config now)
    (hinterval : 0 < config.enquireLinkInterval)
    (hserving : (s.play now b).1.handler.isServing = true) :
    now < (s.play now b).1.handler.engagement.session.nextWakeup := by
  have hsettled := (runs_settle now b s).timely hs
  rw [(tells_play now b s).handler] at hserving ⊢
  refine Handler.lt_nextWakeup_tick ?_ hserving
  rw [hsettled.settings]
  exact hinterval

theorem nextWakeup_mem_wakeups {s : Station} (hserving : s.handler.isServing = true) :
    s.handler.engagement.session.nextWakeup ∈ s.wakeups := by
  unfold wakeups
  rw [if_pos hserving]
  exact List.mem_append_left _ List.mem_cons_self

theorem next_mem_wakeups {s : Station} {t : Instant} (ht : t ∈ s.replies.next?) : t ∈ s.wakeups :=
  List.mem_append_right _ (Option.mem_toList.2 ht)

end Station

/-! ### What several stations do at an instant -/

namespace Floor

section Play

variable (now : Instant)

/-- Every station has played by itself, with a backend that the others have used before. -/
theorem exists_of_mem_playStations (w : Worker) (b : Backend) (ss : List Station) :
    ∀ s' ∈ (playStations now w b ss).2.2, ∃ s ∈ ss, ∃ b, s' = (s.play now b).1 := by
  induction ss generalizing w b with
  | nil => exact fun _ h => absurd h List.not_mem_nil
  | cons s ss ih =>
    intro s' hs'
    obtain rfl | hs' := List.mem_cons.1 hs'
    · exact ⟨s, List.mem_cons_self, b, rfl⟩
    · obtain ⟨s, hs, b, rfl⟩ := ih _ _ s' hs'
      exact ⟨s, List.mem_cons_of_mem _ hs, b, rfl⟩

/-- A station keeps its place. -/
theorem getElem?_playStations (w : Worker) (b : Backend) {ss : List Station} {i : Nat} {s : Station}
    (hs : ss[i]? = some s) :
    ∃ b', (playStations now w b ss).2.2[i]? = some (s.play now b').1 := by
  induction ss generalizing w b i with
  | nil => cases hs
  | cons s₁ ss ih =>
    cases i with
    | zero =>
      cases hs
      exact ⟨b, rfl⟩
    | succ i => exact ih _ _ hs

theorem length_playStations (w : Worker) (b : Backend) (ss : List Station) :
    (playStations now w b ss).2.2.length = ss.length := by
  induction ss generalizing w b with
  | nil => rfl
  | cons s ss ih => exact congrArg (· + 1) (ih _ _)

/-- That sessions end does not change how far a worker has come. -/
theorem worker_playStations (w : Worker) (b : Backend) (ss : List Station) :
    (playStations now w b ss).1.phase = w.phase ∧ (playStations now w b ss).1.grace = w.grace ∧
      (playStations now w b ss).1.accepted = w.accepted := by
  induction ss generalizing w b with
  | nil => exact ⟨rfl, rfl, rfl⟩
  | cons s ss ih =>
    have hended (w' : Worker) (h : w'.phase = w.phase ∧ w'.grace = w.grace ∧
        w'.accepted = w.accepted) (b' : Backend) :
        (playStations now w' b' ss).1.phase = w.phase ∧
          (playStations now w' b' ss).1.grace = w.grace ∧
            (playStations now w' b' ss).1.accepted = w.accepted := by
      obtain ⟨hphase, hgrace, haccepted⟩ := ih w' b'
      exact ⟨hphase.trans h.1, hgrace.trans h.2.1, haccepted.trans h.2.2⟩
    unfold playStations
    dsimp only
    split
    · exact hended (w.sessionEnded _) ⟨rfl, rfl, rfl⟩ _
    · exact hended w ⟨rfl, rfl, rfl⟩ _

end Play

/-- The stations that play: those of a worker that is closing have been cancelled. -/
def players (f : Floor) : List Station :=
  if f.worker.isClosing then f.stations.map fun s => { s with handler := s.handler.cancel }
  else f.stations

variable {f : Floor}

theorem exists_of_mem_play {s' : Station} (hs' : s' ∈ f.play.stations) :
    ∃ s ∈ f.players, ∃ b, s' = (s.play f.now b).1 :=
  exists_of_mem_playStations _ _ _ _ s' hs'

theorem phase_play (f : Floor) : f.play.worker.phase = f.worker.phase :=
  (worker_playStations _ _ _ _).1

theorem grace_play (f : Floor) : f.play.worker.grace = f.worker.grace :=
  (worker_playStations _ _ _ _).2.1

theorem accepted_play (f : Floor) : f.play.worker.accepted = f.worker.accepted :=
  (worker_playStations _ _ _ _).2.2

/-- A floor whose stations have played, and whose worker has looked at the clock. -/
def ticked (f : Floor) : Floor := { f.play with worker := f.play.worker.tick f.now }

/-- What is done at an instant is a round, and a second one if the worker is closing by then. -/
theorem settle_cases (f : Floor) :
    f.ticked.worker.isClosing = true ∧ f.settle = f.ticked.play ∨
      f.ticked.worker.isClosing = false ∧ f.settle = f.ticked := by
  unfold settle ticked
  dsimp only
  split
  · next hclosing => exact .inl ⟨hclosing, rfl⟩
  · next hopen => exact .inr ⟨Bool.eq_false_iff.2 hopen, rfl⟩

/-- What is done at an instant changes no settings. -/
theorem config_settle (f : Floor) : f.settle.config = f.config := by
  obtain ⟨-, hsettle⟩ | ⟨-, hsettle⟩ := settle_cases f <;> rw [hsettle] <;> rfl

/-! ### The way of the clock -/

section Advance

variable {t target : Instant}

theorem advanceTo_of_wakeup (hwakeup : f.wakeup? = some t) (ht : t ≤ target) :
    f.advanceTo target = ({ f with now := t }.settle).advanceTo target := by
  rw [advanceTo]
  split
  · next hsome =>
    rw [hwakeup] at hsome
    cases hsome
    rw [dif_pos ht]
  · next hnone => rw [hwakeup] at hnone; cases hnone

theorem advanceTo_of_late (hlate : ∀ t, f.wakeup? = some t → target < t) :
    f.advanceTo target = { f with now := target } := by
  rw [advanceTo]
  split
  · next t hsome => rw [dif_neg (Nat.not_le.2 (hlate t hsome))]
  · rfl

theorem now_lt_of_wakeup (hwakeup : f.wakeup? = some t) : f.now < t :=
  Instant.lt_of_earliest_filter hwakeup

/-- **The way of the clock**: what holds of a floor and is kept at every instant at which something
happens gives what holds at the end, where nothing happens until then. -/
theorem advanceTo_induction {p q : Floor → Prop} (hp : p f) (hnow : f.now ≤ target)
    (hgo : ∀ f t, p f → f.wakeup? = some t → t ≤ target → p ({ f with now := t }.settle))
    (hstop : ∀ f : Floor, p f → f.now ≤ target → (∀ t, f.wakeup? = some t → target < t) →
      q { f with now := target }) : q (f.advanceTo target) := by
  -- On the time that is left until the target, as the clock moves.
  induction f using advanceTo.induct target with
  | case1 f t hwakeup ht ih =>
    rw [advanceTo_of_wakeup hwakeup ht]
    refine ih (hgo f t hp hwakeup ht) ?_
    rw [now_settle]
    exact ht
  | case2 f t hwakeup ht =>
    have hlate : ∀ t, f.wakeup? = some t → target < t := by
      intro t' ht'
      rw [hwakeup] at ht'
      cases ht'
      exact Nat.lt_of_not_le ht
    rw [advanceTo_of_late hlate]
    exact hstop f hp hnow hlate
  | case3 f hnone =>
    have hlate : ∀ t, f.wakeup? = some t → target < t := by
      intro t' ht'
      rw [hnone] at ht'
      cases ht'
    rw [advanceTo_of_late hlate]
    exact hstop f hp hnow hlate

@[simp] theorem now_advanceTo (h : f.now ≤ target) : (f.advanceTo target).now = target :=
  advanceTo_induction (p := fun _ => True) (q := fun f => f.now = target) trivial h
    (fun _ _ _ _ _ => trivial) (fun _ _ _ _ => rfl)

theorem config_advanceTo (h : f.now ≤ target) : (f.advanceTo target).config = f.config :=
  advanceTo_induction (p := fun g => g.config = f.config) (q := fun g => g.config = f.config) rfl h
    (fun _ _ hconfig _ _ => (config_settle _).trans hconfig) (fun _ hconfig _ _ => hconfig)

/-- An instant that matters and is still to come is waited for. -/
theorem exists_wakeup {u : Instant}
    (hu : u ∈ f.worker.deadline?.toList ++ f.stations.flatMap Station.wakeups) (hnow : f.now < u) :
    ∃ t, f.wakeup? = some t ∧ t ≤ u :=
  Instant.earliest_le (List.mem_filter.2 ⟨hu, decide_eq_true hnow⟩)

/-- Nothing that matters is passed over while nothing is waited for. -/
theorem lt_of_late {u : Instant}
    (hu : u ∈ f.worker.deadline?.toList ++ f.stations.flatMap Station.wakeups) (hnow : f.now < u)
    (hlate : ∀ t, f.wakeup? = some t → target < t) : target < u := by
  obtain ⟨t, ht, htu⟩ := exists_wakeup hu hnow
  exact Nat.lt_of_lt_of_le (hlate t ht) htu

/-- A floor whose clock has moved without anything happening waits for the same instant. -/
theorem wakeup?_of_late (hnow : f.now ≤ target) (hlate : ∀ t, f.wakeup? = some t → target < t) :
    ({ f with now := target } : Floor).wakeup? = f.wakeup? := by
  unfold wakeup?
  refine congrArg Instant.earliest (List.filter_congr fun u hu => ?_)
  exact decide_eq_decide.2 ⟨Nat.lt_of_le_of_lt hnow, fun h => lt_of_late (f := f) hu h hlate⟩

/-- **It does not matter where the way of the clock is cut.** -/
theorem advanceTo_advanceTo {t₁ t₂ : Instant} (h₁ : f.now ≤ t₁) (h₂ : t₁ ≤ t₂) :
    (f.advanceTo t₁).advanceTo t₂ = f.advanceTo t₂ := by
  refine advanceTo_induction (p := fun g => g.advanceTo t₂ = f.advanceTo t₂)
    (q := fun g => g.advanceTo t₂ = f.advanceTo t₂) rfl h₁ ?_ ?_
  · intro g t hg hwakeup ht
    rw [← hg, advanceTo_of_wakeup hwakeup (Nat.le_trans ht h₂)]
  · -- Nothing happens between the last instant that mattered and the cut, so both ways wait for
    -- the same.
    intro g hg hnow hlate
    rw [← hg]
    have hsame := wakeup?_of_late hnow hlate
    cases hwakeup : g.wakeup? with
    | none =>
      have hnever (g' : Floor) (hg' : g'.wakeup? = none) : ∀ t, g'.wakeup? = some t → t₂ < t := by
        intro t ht
        rw [hg'] at ht
        cases ht
      rw [advanceTo_of_late (hnever _ (hsame.trans hwakeup)),
        advanceTo_of_late (hnever g hwakeup)]
    | some t =>
      by_cases ht : t ≤ t₂
      · rw [advanceTo_of_wakeup (hsame.trans hwakeup) ht, advanceTo_of_wakeup hwakeup ht]
      · have hlater (g' : Floor) (hg' : g'.wakeup? = some t) :
            ∀ t', g'.wakeup? = some t' → t₂ < t' := by
          intro t' ht'
          rw [hg'] at ht'
          cases ht'
          exact Nat.lt_of_not_le ht
        rw [advanceTo_of_late (hlater _ (hsame.trans hwakeup)),
          advanceTo_of_late (hlater g hwakeup)]

end Advance

/-- **Time passes all at once as it does in parts.** -/
theorem run_advance_add (f : Floor) (a b : Span) :
    f.run [.advance (a + b)] = f.run [.advance a, .advance b] := by
  have hnow : (f.advanceTo (f.now + a)).now = f.now + a := now_advanceTo (Nat.le_add_right _ _)
  change f.advanceTo (f.now + (a + b)) =
    (f.advanceTo (f.now + a)).advanceTo ((f.advanceTo (f.now + a)).now + b)
  rw [hnow, advanceTo_advanceTo (Nat.le_add_right _ _) (Nat.le_add_right _ _), Nat.add_assoc]

theorem config_step (f : Floor) (e : Event) : (f.step e).config = f.config := by
  cases e with
  | connect =>
    dsimp only [Floor.step]
    split
    · exact config_settle _
    · rfl
  | send client bs => exact config_settle (f.tell client _)
  | endStream client ending => exact config_settle (f.tell client _)
  | advance span => exact config_advanceTo (Nat.le_add_right _ _)
  | drain => exact config_settle { f with worker := f.worker.drain f.now }
  | shutdown => exact config_settle { f with worker := f.worker.shutdown }

theorem run_append (f : Floor) (es es' : List Event) :
    f.run (es ++ es') = (f.run es).run es' :=
  List.foldl_append

@[simp] theorem run_cons (f : Floor) (e : Event) (es : List Event) :
    f.run (e :: es) = (f.step e).run es := rfl

/-- What every step preserves a run preserves. -/
theorem run_of_step {p : Floor → Prop} {q : Event → Prop} {f : Floor} (hp : p f)
    (hstep : ∀ f e, p f → q e → p (f.step e)) {events : List Event} (hq : ∀ e ∈ events, q e) :
    p (f.run events) := by
  induction events generalizing f with
  | nil => exact hp
  | cons e es ih =>
    rw [List.forall_mem_cons] at hq
    exact ih (hstep f e hp hq.1) hq.2

theorem config_run (config : Config) (backend : Backend) (events : List Event) :
    ((start config backend).run events).config = config :=
  run_of_step (p := fun f => f.config = config) (q := fun _ => True) rfl
    (fun f e hf _ => (config_step f e).trans hf) fun _ _ => trivial

end Floor

end Smpp
