import Smpp.Proofs.Handler.Clock

/-!
# How far ahead a session looks

A session computes three instants ahead of the one at which it is told something: when a silent
client is given up, when a client is probed next, and when a message at the backend is overdue. Each
is the sum of an instant that the session has heard of and a span of its settings, and neither
`Config.validate` nor the session asks whether there is such an instant on the clock of a machine.

`Session.ReachedBy` says of a session that it may be so at an instant `t`: it began by then, and has
heard of nothing later. `Session.Recalls` is what every step preserves as long as the session hears
of nothing later (`Recalls.step`): all that the session remembers is by then, and no message is
overdue later than a call may take from then on. So by `t` no session looks beyond an instant `last`
exactly if the sum of `t` and the span of the settings is not beyond it (`forall_silence_le_iff`,
`forall_keepaliveDue_le_iff`, `forall_deadline_le_iff`): the sums are attained, by a client that
comes at `t`, binds at once and submits at once.
-/

namespace Smpp.Session

variable {config : Config} {s : Session} {t now : Instant}

/-- Nothing that a session is told is of an instant after `t`. -/
def Input.IsBy (t : Instant) : Input → Prop
  | .frame _ now _ _ decided => now ≤ t ∧ decided ≤ t
  | .expire now | .keepalive now => now ≤ t
  | .complete _ | .shutdown | .close => True

/-- A session may be so at an instant: it began by then, and was told nothing of a later one. -/
def ReachedBy (config : Config) (t : Instant) (s : Session) : Prop :=
  ∃ begun ≤ t, ∃ inputs : List Input, (∀ i ∈ inputs, i.IsBy t) ∧
    s = (start config begun).after inputs

/-- All that a session remembers is of instants up to `t`, and no message that it waits for is
overdue later than a call that begins then. -/
structure Recalls (config : Config) (t : Instant) (s : Session) : Prop
    extends Timely config t s where
  heard : s.lastActivity ≤ t
  timeout_eq : s.tracker.timeout = config.backendCallTimeout
  deadline_le : ∀ r ∈ s.tracker.pending, r.deadline ≤ t + config.backendCallTimeout

/-! ### What a session recalls -/

theorem Recalls.start {begun : Instant} (h : begun ≤ t) :
    (start config begun).Recalls config t where
  settings := rfl
  probed := fun _ h => nomatch h
  heard := h
  timeout_eq := rfl
  deadline_le := fun _ h => absurd h List.not_mem_nil

section Parts

/-- What is pending no more changes nothing. -/
theorem Recalls.of_subset (h : s.Recalls config t) {tracker : Tracker}
    (htimeout : tracker.timeout = s.tracker.timeout)
    (hfewer : tracker.pending ⊆ s.tracker.pending) : { s with tracker }.Recalls config t :=
  { h with
    timeout_eq := htimeout.trans h.timeout_eq
    deadline_le := fun r hr => h.deadline_le r (hfewer hr) }

theorem Recalls.touched (h : s.Recalls config t) (hnow : now ≤ t) :
    (s.touched now).Recalls config t :=
  { h with heard := hnow }

theorem Recalls.close (h : s.Recalls config t) : s.close.Recalls config t :=
  { h with deadline_le := fun _ hr => absurd hr List.not_mem_nil }

/-- A message that goes to the backend is overdue a call from now. -/
theorem Recalls.track (h : s.Recalls config t) (hnow : now ≤ t) {n : UInt32} {command : CommandId}
    {tracker : Tracker} {request : PendingRequest}
    (htrack : s.tracker.track n command now = some (tracker, request)) :
    { s with tracker }.Recalls config t := by
  obtain ⟨-, rfl, rfl⟩ := Tracker.track_eq_some_iff.1 htrack
  refine { h with timeout_eq := h.timeout_eq, deadline_le := fun r hr => ?_ }
  obtain hold | hnew := List.mem_append.1 hr
  · exact h.deadline_le r hold
  · rw [List.mem_singleton.1 hnew]
    calc now + s.tracker.timeout
        = now + config.backendCallTimeout := by rw [h.timeout_eq]
      _ ≤ t + config.backendCallTimeout := Nat.add_le_add_right hnow _

end Parts

/-! ### Steps -/

theorem Recalls.receive (h : s.Recalls config t) (hnow : now ≤ t) (inFlight : Nat) (f : Frame) :
    (s.receive now inFlight f).1.Recalls config t := by
  have hreceived := received s now inFlight f
  generalize s.receive now inFlight f = r at hreceived
  cases hreceived with
  | late hover => exact h
  | unbind hbound => exact (h.touched hnow).close
  | submit hactive hsubmit =>
    cases hsubmit with
    | taken htransmit hroom htrack => exact (h.touched hnow).track hnow htrack
    | barred | duplicate | throttled => exact h.touched hnow
  | unknown | rebind | bind | unbound | probe | response => exact h.touched hnow

theorem Recalls.conclude (h : s.Recalls config t) (hnow : now ≤ t) (n : UInt32) (b : Bind)
    (verdict : AuthResult) : (s.conclude now n b verdict).1.Recalls config t := by
  have htouched := h.touched hnow
  unfold Session.conclude
  cases verdict with
  | ok _ => exact { htouched with }
  | error e =>
    dsimp only
    split
    · exact Recalls.close { htouched with }
    · exact { htouched with }

theorem Recalls.dispatch (h : s.Recalls config t) (hnow : now ≤ t) {decided : Instant}
    (hdecided : decided ≤ t) (inFlight : Nat) (f : Frame) (verdict : AuthResult) :
    (s.dispatch now inFlight f verdict decided).1.Recalls config t := by
  have hreceive := h.receive hnow inFlight f
  unfold Session.dispatch
  split
  · next n b hasks =>
    rw [hasks] at hreceive
    exact hreceive.conclude hdecided n b verdict
  · next s' a _ hother =>
    rw [hother] at hreceive
    exact hreceive

theorem Recalls.complete (h : s.Recalls config t) (c : Completion) :
    (s.complete c).1.Recalls config t := by
  by_cases hactive : s.state = .closed
  · rw [complete_of_closed hactive]
    exact h
  · rw [complete_of_active hactive]
    split
    · exact h.of_subset rfl List.filter_sublist.subset
    · exact h

theorem Recalls.keepalive (h : s.Recalls config t) (hnow : now ≤ t) :
    (s.keepalive now).1.Recalls config t := by
  unfold Session.keepalive
  split
  · exact h
  split
  · exact h
  · -- Of a probe the session remembers when it was sent, and that is now.
    exact { h with probed := fun u hu => Option.some.inj hu ▸ hnow }

/-- **A session that hears of nothing later recalls nothing later.** -/
theorem Recalls.step (h : s.Recalls config t) {i : Input} (hi : i.IsBy t) :
    (s.step i).1.Recalls config t := by
  cases i with
  | frame f now inFlight verdict decided => exact h.dispatch hi.1 hi.2 inFlight f verdict
  | complete c => exact h.complete c
  | expire now => exact h.of_subset rfl List.filter_sublist.subset
  | keepalive now => exact h.keepalive hi
  | shutdown =>
    obtain ⟨next, hframe⟩ := shutdownFrame_frame (s := s)
    rw [step_shutdown, hframe]
    exact { h with }
  | close => exact h.close

/-- What holds of one step holds of a run of them. -/
theorem Recalls.after (h : s.Recalls config t) {inputs : List Input}
    (hinputs : ∀ i ∈ inputs, i.IsBy t) : (s.after inputs).Recalls config t := by
  induction inputs generalizing s with
  | nil => exact h
  | cons i is ih =>
    rw [List.forall_mem_cons] at hinputs
    exact ih (h.step hinputs.1) hinputs.2

theorem ReachedBy.recalls (h : s.ReachedBy config t) : s.Recalls config t := by
  obtain ⟨begun, hbegun, inputs, hinputs, rfl⟩ := h
  exact (Recalls.start hbegun).after hinputs

/-! ### The last instants that a session looks ahead to

Every bound is attained, by a client for which all that happens happens at `t`. -/

theorem ReachedBy.start (config : Config) (t : Instant) : (start config t).ReachedBy config t :=
  ⟨t, Nat.le_refl t, [], fun _ h => absurd h List.not_mem_nil, rfl⟩

theorem ReachedBy.step (h : s.ReachedBy config t) {i : Input} (hi : i.IsBy t) :
    (s.step i).1.ReachedBy config t := by
  obtain ⟨begun, hbegun, inputs, hinputs, rfl⟩ := h
  refine ⟨begun, hbegun, inputs ++ [i], ?_, ?_⟩
  · exact List.forall_mem_append.2 ⟨hinputs, List.forall_mem_singleton.2 hi⟩
  · unfold after
    rw [List.foldl_append]
    rfl

/-- A client binds as a transceiver and is let in, all at one instant. -/
def bindAt (t : Instant) : Input :=
  .frame (.known .ok 1 (.bind ⟨.transceiver, "c", "p", "", .v34, .unknown, .unknown, ""⟩)) t 0
    (.ok ()) t

/-- A client submits a message while no other is with the backend. -/
def submitAt (t : Instant) : Input :=
  .frame (.known .ok 2 (.submit {
    serviceType := "", source := ⟨.unknown, .unknown, "1000"⟩
    destination := ⟨.unknown, .unknown, "2000"⟩, esmClass := 0, protocolId := 0
    priority := .level0, scheduledTime := "", validityPeriod := "", registeredDelivery := 0
    replaceIfPresent := 0, dataCoding := 0, defaultMessageId := 0, shortMessage := [104, 105]
    parameters := .empty })) t 0 (.ok ()) t

theorem isBy_bindAt (t : Instant) : (bindAt t).IsBy t := ⟨Nat.le_refl t, Nat.le_refl t⟩

theorem isBy_submitAt (t : Instant) : (submitAt t).IsBy t := ⟨Nat.le_refl t, Nat.le_refl t⟩

theorem step_bindAt (config : Config) (t : Instant) :
    ((start config t).step (bindAt t)).1 =
      { start config t with state := .bound .transceiver, systemId? := some "c" } := rfl

/-- What is with the backend after such a submit is overdue a call from then. -/
theorem pending_submitAt (hroom : 0 < config.maxPendingSubmits) (t : Instant) :
    (((start config t).step (bindAt t)).1.step (submitAt t)).1.tracker.pending =
      [⟨2, .submitSm, t, t + config.backendCallTimeout⟩] := by
  rw [step_bindAt]
  have hfree : ¬ (config.maxPendingSubmits ≤ 0 ∧
      !({ timeout := config.backendCallTimeout } : Tracker).isPending 2) :=
    fun h => Nat.not_le_of_lt hroom h.1
  unfold submitAt
  rw [step_frame]
  simp only [dispatch, receive, act, submit, start, hfree]
  rfl

/-- When a silent client is given up. -/
theorem forall_silence_le_iff (config : Config) (t last : Instant) :
    (∀ s, ReachedBy config t s → s.lastActivity + s.config.sessionTimeout ≤ last) ↔
      t + config.sessionTimeout ≤ last := by
  constructor
  · intro h
    exact h _ (.start config t)
  · intro hlast s hs
    have hrecalls := hs.recalls
    calc s.lastActivity + s.config.sessionTimeout
        = s.lastActivity + config.sessionTimeout := by rw [hrecalls.settings]
      _ ≤ t + config.sessionTimeout := Nat.add_le_add_right hrecalls.heard _
      _ ≤ last := hlast

/-- When a client is probed next. -/
theorem forall_keepaliveDue_le_iff (config : Config) (t last : Instant) :
    (∀ s, ReachedBy config t s → ∀ due ∈ s.keepaliveDue, due ≤ last) ↔
      t + config.enquireLinkInterval ≤ last := by
  constructor
  · intro h
    have hdue : (((start config t).step (bindAt t)).1).keepaliveDue =
        some (t + config.enquireLinkInterval) := by
      rw [step_bindAt]
      exact congrArg (fun base => some (base + config.enquireLinkInterval)) (Nat.max_self t)
    exact h _ ((ReachedBy.start config t).step (isBy_bindAt t)) _ hdue
  · intro hlast s hs due hdue
    have hrecalls := hs.recalls
    -- The interval begins when the client was last probed or last heard of.
    have hprobe : s.lastProbe.getD s.lastActivity ≤ t := by
      cases hprobed : s.lastProbe with
      | none => exact hrecalls.heard
      | some u => exact hrecalls.probed u hprobed
    unfold keepaliveDue at hdue
    split at hdue
    · cases hdue
      calc max (s.lastProbe.getD s.lastActivity) s.lastActivity + s.config.enquireLinkInterval
          = max (s.lastProbe.getD s.lastActivity) s.lastActivity + config.enquireLinkInterval := by
            rw [hrecalls.settings]
        _ ≤ t + config.enquireLinkInterval :=
            Nat.add_le_add_right (Nat.max_le.2 ⟨hprobe, hrecalls.heard⟩) _
        _ ≤ last := hlast
    · cases hdue

/-- When a message at the backend is overdue. -/
theorem forall_deadline_le_iff (hroom : 0 < config.maxPendingSubmits) (t last : Instant) :
    (∀ s, ReachedBy config t s → ∀ r ∈ s.tracker.pending, r.deadline ≤ last) ↔
      t + config.backendCallTimeout ≤ last := by
  constructor
  · intro h
    have hreached := ((ReachedBy.start config t).step (isBy_bindAt t)).step (isBy_submitAt t)
    refine h _ hreached ⟨2, .submitSm, t, t + config.backendCallTimeout⟩ ?_
    rw [pending_submitAt hroom]
    exact List.mem_singleton_self _
  · intro hlast s hs r hr
    exact Nat.le_trans (hs.recalls.deadline_le r hr) hlast

end Smpp.Session
