import Smpp.Proofs.Handler.Steps

/-!
# A handler keeps time

A session keeps the settings that it was begun with, and no probe of it is of an instant to come
(`Session.Timely`); whatever a handler is told at an instant leaves that as it is
(`Handler.timely_step`). A handler that has looked at its timers has nothing more to do at them:
what is overdue is given up, a probe starts its interval anew, and a client that has been silent for
too long is there no more (`Handler.lt_nextWakeup_tick`).
-/

namespace Smpp

namespace Session

/-! ### Settings and probes

Only the clock probes a client, and nothing changes the settings. -/

section Keeps

variable (s : Session)

theorem receive_keeps (now : Instant) (inFlight : Nat) (f : Frame) :
    (s.receive now inFlight f).1.config = s.config ∧
      (s.receive now inFlight f).1.lastProbe = s.lastProbe := by
  have hreceived := received s now inFlight f
  generalize s.receive now inFlight f = r at hreceived
  cases hreceived with
  | submit hactive hsubmit => cases hsubmit <;> exact ⟨rfl, rfl⟩
  | late | unknown | rebind | bind | unbind | unbound | probe | response => exact ⟨rfl, rfl⟩

theorem conclude_keeps (now : Instant) (n : UInt32) (b : Bind) (result : AuthResult) :
    (s.conclude now n b result).1.config = s.config ∧
      (s.conclude now n b result).1.lastProbe = s.lastProbe := by
  unfold conclude
  cases result with
  | ok _ => exact ⟨rfl, rfl⟩
  | error e =>
    dsimp only
    split <;> exact ⟨rfl, rfl⟩

theorem complete_keeps (c : Completion) :
    (s.complete c).1.config = s.config ∧ (s.complete c).1.lastProbe = s.lastProbe := by
  by_cases hactive : s.state = .closed
  · rw [complete_of_closed hactive]
    exact ⟨rfl, rfl⟩
  · rw [complete_of_active hactive]
    split <;> exact ⟨rfl, rfl⟩

end Keeps

/-- The session has the settings that it was begun with, and no probe is of an instant to come. -/
structure Timely (config : Config) (now : Instant) (s : Session) : Prop where
  settings : s.config = config
  probed : ∀ t, s.lastProbe = some t → t ≤ now

section Timely

variable {config : Config} {now : Instant} {s : Session}

theorem Timely.start (config : Config) (now : Instant) : (start config now).Timely config now :=
  ⟨rfl, fun _ h => nomatch h⟩

/-- What has become of a session that was neither set up anew nor probed. -/
theorem Timely.of_eq (h : s.Timely config now) {s' : Session} (hconfig : s'.config = s.config)
    (hprobe : s'.lastProbe = s.lastProbe) : s'.Timely config now :=
  ⟨hconfig.trans h.settings, fun t ht => h.probed t (hprobe.symm.trans ht)⟩

theorem Timely.mono (h : s.Timely config now) {now' : Instant} (hnow : now ≤ now') :
    s.Timely config now' :=
  ⟨h.settings, fun t ht => Nat.le_trans (h.probed t ht) hnow⟩

theorem Timely.receive (h : s.Timely config now) (t : Instant) (inFlight : Nat) (f : Frame) :
    (s.receive t inFlight f).1.Timely config now :=
  h.of_eq (receive_keeps s t inFlight f).1 (receive_keeps s t inFlight f).2

theorem Timely.conclude (h : s.Timely config now) (t : Instant) (n : UInt32) (b : Bind)
    (result : AuthResult) : (s.conclude t n b result).1.Timely config now :=
  h.of_eq (conclude_keeps s t n b result).1 (conclude_keeps s t n b result).2

theorem Timely.complete (h : s.Timely config now) (c : Completion) :
    (s.complete c).1.Timely config now :=
  h.of_eq (complete_keeps s c).1 (complete_keeps s c).2

theorem Timely.shutdownFrame (h : s.Timely config now) : s.shutdownFrame.1.Timely config now := by
  obtain ⟨next, hframe⟩ := shutdownFrame_frame (s := s)
  rw [hframe]
  exact h.of_eq rfl rfl

theorem Timely.keepalive (h : s.Timely config now) : (s.keepalive now).1.Timely config now := by
  unfold Session.keepalive
  split
  · exact h
  split
  · exact h
  · -- The last probe is the one that is sent now.
    refine ⟨h.settings, fun t ht => ?_⟩
    cases ht
    exact Nat.le_refl now

end Timely

section Wakeup

variable {s : Session} {now : Instant}

/-- The timers are looked at only when there is something to do. -/
theorem lt_nextWakeup (hidle : s.isIdle now = false)
    (hprobe : ∀ t, s.keepaliveDue = some t → now < t)
    (hdeadline : ∀ t, s.tracker.nextDeadline = some t → now < t) : now < s.nextWakeup := by
  -- It is the first of three instants: the end of a silence, the next probe, the next deadline.
  have hidle : now < s.lastActivity + s.config.sessionTimeout :=
    Nat.lt_of_not_le (of_decide_eq_false hidle)
  have hfirst : now < min (s.lastActivity + s.config.sessionTimeout)
      (s.keepaliveDue.getD (s.lastActivity + s.config.sessionTimeout)) := by
    refine Nat.lt_min.2 ⟨hidle, ?_⟩
    cases hdue : s.keepaliveDue with
    | none => exact hidle
    | some t => exact hprobe t hdue
  refine Nat.lt_min.2 ⟨hfirst, ?_⟩
  cases hnext : s.tracker.nextDeadline with
  | none => exact hfirst
  | some t => exact hdeadline t hnext

/-- A client that was probed, or did not have to be, is probed later. -/
theorem lt_keepaliveDue (hinterval : 0 < s.config.enquireLinkInterval) {t : Instant}
    (ht : (s.keepalive now).1.keepaliveDue = some t) : now < t := by
  unfold keepalive at ht
  split at ht
  · next hnever =>
    rw [hnever] at ht
    cases ht
  · next due hdue =>
    split at ht
    · next hearly =>
      rw [hdue] at ht
      cases ht
      exact hearly
    · -- The interval runs from this probe on.
      change (if s.state.isBound = true then
        some (max now s.lastActivity + s.config.enquireLinkInterval) else none) = some t at ht
      split at ht
      · cases ht
        exact Nat.lt_of_le_of_lt (Nat.le_max_left now _) (Nat.lt_add_of_pos_right hinterval)
      · cases ht

/-- **A session that was looked at is woken later.** What is left is not overdue, and whether a
probe was due or not, the next one is to come. -/
theorem lt_nextWakeup_looked (hinterval : 0 < s.config.enquireLinkInterval)
    (hidle : s.isIdle now = false) : now < ((s.expire now).1.keepalive now).1.nextWakeup := by
  have hinterval' : 0 < (s.expire now).1.config.enquireLinkInterval := hinterval
  obtain ⟨probe, next, hframe⟩ := keepalive_frame (s := (s.expire now).1) now
  refine lt_nextWakeup ?_ (fun t => lt_keepaliveDue hinterval') fun d => ?_
  · rw [hframe]
    exact hidle
  · rw [hframe]
    exact Tracker.lt_nextDeadline_expire

end Wakeup

end Session

namespace Handler

section Timely

variable {config : Config} {now : Instant} {h : Handler}

theorem session_react (e : Engagement) (a : Session × Action) : (e.react a).1.session = a.1 := by
  obtain ⟨session, action⟩ := a
  cases action <;> rfl

/-- The settings of a session stay as they are. -/
theorem stable_settings (config : Config) :
    Stable (fun e => e.session.config = config) fun _ => True where
  receive e t f hs :=
    (congrArg Session.config (session_react e _)).trans
      ((e.session.receive_keeps t e.calls.inFlight f).1.trans hs)
  conclude e t n b result hs :=
    (congrArg Session.config (session_react e _)).trans
      ((e.session.conclude_keeps t n b result).1.trans hs)
  completes e e' c answer hnext hs := by
    unfold Engagement.completeNext at hnext
    split at hnext
    · cases hnext
    · cases hnext
      exact (e.session.complete_keeps c).1.trans hs
  answers _ _ _ _ hs := hs
  expires _ _ hs := hs
  probes e t _ hs := by
    obtain ⟨probe, next, hframe⟩ := Session.keepalive_frame (s := e.session) t
    rw [hframe]
    exact hs
  unbinds e hs := by
    obtain ⟨next, hframe⟩ := Session.shutdownFrame_frame (s := e.session)
    rw [hframe]
    exact hs
  closes _ hs := hs

theorem stable_timely (config : Config) (now : Instant) :
    Stable (fun e => e.session.Timely config now) (Event.At now) where
  receive e t f hs := session_react e _ ▸ hs.receive t e.calls.inFlight f
  conclude e t n b result hs := session_react e _ ▸ hs.conclude t n b result
  completes e e' c answer hnext hs := by
    unfold Engagement.completeNext at hnext
    split at hnext
    · cases hnext
    · cases hnext
      exact hs.complete c
  answers _ _ _ _ hs := hs
  expires _ _ hs := hs.of_eq rfl rfl
  -- The clock shows the instant of which the session is timely.
  probes _ t ht hs := by
    cases ht
    exact hs.keepalive
  unbinds _ hs := hs.shutdownFrame
  closes _ hs := hs.of_eq rfl rfl

/-- **A handler keeps time.** -/
theorem timely_step {e : Event} (he : e.At now) (hs : h.engagement.session.Timely config now) :
    (h.step e).1.engagement.session.Timely config now :=
  (stable_timely config now).step he hs

/-- **What has looked at its timers has nothing to do at them.** -/
theorem lt_nextWakeup_tick (hinterval : 0 < h.engagement.session.config.enquireLinkInterval)
    (hserving : (h.tick now).1.isServing = true) :
    now < (h.tick now).1.engagement.session.nextWakeup := by
  have hlooked := looked h now
  generalize h.tick now = r at hlooked hserving ⊢
  cases hlooked with
  | early hearly =>
    obtain hidle | hearly := hearly
    · rw [hidle] at hserving
      cases hserving
    · exact hearly
  | gone => cases hserving
  | silent => cases hserving
  | awake hserving hidle =>
    exact Session.lt_nextWakeup_looked hinterval hidle

end Timely

end Handler

end Smpp
