import Smpp.Proofs.Session.Reception

/-!
# Runs of a session

A session is told one thing after another: that a frame has come, what became of a message, that
time has passed, that it is over. `Session.step` is its answer to one of them, `Session.after` the
session that a row of them leaves behind, and `Session.history` what happened on the way.

The order is arbitrary, and so is everything that a session is told: instants need not grow, results
may come for numbers that were never handed over, and how many messages are with the backend is
whatever the caller says. What holds of every run so holds of every use of a session.

`Session.Sound` is what every step preserves (`Sound.step`): no number is pending twice, and nothing
is pending once the session is over.
-/

namespace Smpp

/-- Whether a frame is a submit with a sequence number. -/
def Frame.isSubmit (n : UInt32) : Frame → Bool
  | .known _ k (.submit _) => k == n
  | _ => false

/-- Whether a frame is the response to a submit with a sequence number. -/
def Frame.isSubmitResp (n : UInt32) : Frame → Bool
  | .known _ k (.submitResp _) => k == n
  | _ => false

/-- Whether a frame says that another with a sequence number cannot be acted upon. -/
def Frame.isNack (n : UInt32) : Frame → Bool
  | .known _ k .genericNack => k == n
  | _ => false

theorem Frame.sequence_of_isSubmit {n : UInt32} {f : Frame} (h : f.isSubmit n = true) :
    f.sequence = n := by
  unfold isSubmit at h
  split at h
  · exact beq_iff_eq.1 h
  · cases h

theorem Frame.isSubmit_of_isResponse (n : UInt32) {f : Frame} (h : f.isResponse = true) :
    f.isSubmit n = false := by
  unfold isSubmit
  split
  · cases h
  · rfl

/-- The response to a submit for which there is a result. -/
def Completion.answer (c : Completion) : Frame :=
  match c.result with
  | .ok messageId => .submitAccepted c.sequence messageId
  | .error e => .submitRefused c.sequence e.status

theorem Completion.answer_sequence (c : Completion) : c.answer.sequence = c.sequence := by
  unfold answer
  cases c.result <;> rfl

namespace Session

/-- One thing that a session is told. -/
inductive Input where
  /-- A frame has come while so many messages are with the backend. Where it calls for an
  authentication, `verdict` is the result and comes at the instant `decided`. -/
  | frame (f : Frame) (now : Instant) (inFlight : Nat) (verdict : AuthResult) (decided : Instant)
  /-- The backend is done with a message. -/
  | complete (c : Completion)
  /-- It is time to give up on what is overdue. -/
  | expire (now : Instant)
  /-- It is time to probe the client, if that is due. -/
  | keepalive (now : Instant)
  /-- The client is about to be cut off. -/
  | shutdown
  /-- The session is over. -/
  | close

/-- What a session answers. -/
inductive Output where
  /-- What a frame called for. -/
  | action (a : Action)
  /-- The frames to write. -/
  | frames (fs : List Frame)

/-- The frames that are written at once. -/
def Output.written : Output → List Frame
  | action (.reply f) | action (.replyAndClose f) => [f]
  | action (.submit ..) | action (.authenticate ..) | action .ignore => []
  | frames fs => fs

/-- What a frame calls for in the end: of an authentication, what its result calls for. -/
def dispatch (s : Session) (now : Instant) (inFlight : Nat) (f : Frame) (verdict : AuthResult)
    (decided : Instant) : Session × Action :=
  match s.receive now inFlight f with
  | (s, .authenticate n b) => s.conclude decided n b verdict
  | (s, a) => (s, a)

/-- The answer of a session to one thing that it is told. -/
def step (s : Session) : Input → Session × Output
  | .frame f now inFlight verdict decided =>
    let (s, a) := s.dispatch now inFlight f verdict decided
    (s, .action a)
  | .complete c =>
    let (s, answer) := s.complete c
    (s, .frames answer.toList)
  | .expire now =>
    let (s, fs) := s.expire now
    (s, .frames fs)
  | .keepalive now =>
    let (s, probe) := s.keepalive now
    (s, .frames probe.toList)
  | .shutdown =>
    let (s, request) := s.shutdownFrame
    (s, .frames request.toList)
  | .close => (s.close, .frames [])

section Step

variable (s : Session)

@[simp] theorem step_frame (f : Frame) (now : Instant) (inFlight : Nat) (verdict : AuthResult)
    (decided : Instant) :
    s.step (.frame f now inFlight verdict decided) =
      ((s.dispatch now inFlight f verdict decided).1,
        .action (s.dispatch now inFlight f verdict decided).2) := rfl

@[simp] theorem step_complete (c : Completion) :
    s.step (.complete c) = ((s.complete c).1, .frames (s.complete c).2.toList) := rfl

@[simp] theorem step_expire (now : Instant) :
    s.step (.expire now) = ((s.expire now).1, .frames (s.expire now).2) := rfl

@[simp] theorem step_keepalive (now : Instant) :
    s.step (.keepalive now) = ((s.keepalive now).1, .frames (s.keepalive now).2.toList) := rfl

@[simp] theorem step_shutdown :
    s.step .shutdown = (s.shutdownFrame.1, .frames s.shutdownFrame.2.toList) := rfl

@[simp] theorem step_close : s.step .close = (s.close, .frames []) := rfl

end Step

/-- The session after a row of inputs. -/
def after (s : Session) (inputs : List Input) : Session :=
  inputs.foldl (fun s i => (s.step i).1) s

/-- One step of a run. -/
structure Move where
  before : Session
  input : Input
  after : Session
  output : Output

/-- The steps of a run. -/
def history (s : Session) : List Input → List Move
  | [] => []
  | i :: is => ⟨s, i, (s.step i).1, (s.step i).2⟩ :: (s.step i).1.history is

@[simp] theorem after_nil (s : Session) : s.after [] = s := rfl

@[simp] theorem after_cons (s : Session) (i : Input) (is : List Input) :
    s.after (i :: is) = (s.step i).1.after is := rfl

@[simp] theorem history_nil (s : Session) : s.history [] = [] := rfl

@[simp] theorem history_cons (s : Session) (i : Input) (is : List Input) :
    s.history (i :: is) =
      ⟨s, i, (s.step i).1, (s.step i).2⟩ :: (s.step i).1.history is := rfl

/-- Every step of a run is from a session in an invariant, if all that it is told preserves it. -/
theorem exists_of_mem_history {p : Session → Prop} {q : Input → Prop} {s : Session} (hs : p s)
    (hstep : ∀ s i, p s → q i → p (s.step i).1) {inputs : List Input} (hq : ∀ i ∈ inputs, q i) :
    ∀ m ∈ s.history inputs,
      ∃ s i, p s ∧ q i ∧ m = ⟨s, i, (s.step i).1, (s.step i).2⟩ := by
  induction inputs generalizing s with
  | nil => exact fun _ hm => absurd hm List.not_mem_nil
  | cons i is ih =>
    rw [List.forall_mem_cons] at hq
    rw [history_cons, List.forall_mem_cons]
    exact ⟨⟨s, i, hs, hq.1, rfl⟩, ih (hstep s i hs hq.1) hq.2⟩

/-- What every step from a session in an invariant does holds of every step of a run. -/
theorem forall_mem_history {p : Session → Prop} {q : Move → Prop} {s : Session}
    (hs : p s) (hstep : ∀ s i, p s → p (s.step i).1 ∧ q ⟨s, i, (s.step i).1, (s.step i).2⟩)
    (inputs : List Input) : ∀ m ∈ s.history inputs, q m := by
  intro m hm
  obtain ⟨s', i, hs', -, rfl⟩ := exists_of_mem_history (q := fun _ => True) hs
    (fun s i hs _ => (hstep s i hs).1) (fun _ _ => trivial) m hm
  exact (hstep s' i hs').2

/-- What every step preserves a run preserves. -/
theorem after_of_step {p : Session → Prop} {s : Session} (hs : p s)
    (hstep : ∀ s i, p s → p (s.step i).1) (inputs : List Input) : p (s.after inputs) := by
  induction inputs generalizing s with
  | nil => exact hs
  | cons i is ih => exact ih (hstep s i hs)

/-! ### What becomes of a frame -/

/-- What a frame does to a session and its pending messages, by what it calls for. -/
inductive Dispatched (s : Session) (f : Frame) : Session → Action → Prop where
  /-- Nothing comes of a frame after the end. -/
  | afterEnd (hover : s.state = .closed) : Dispatched s f s .ignore
  /-- The frame is passed over. -/
  | ignored {s' : Session} (hactive : s.state ≠ .closed) (hstate : s'.state = s.state)
    (htracker : s'.tracker = s.tracker) (hsubmit : ∀ n, f.isSubmit n = false) :
    Dispatched s f s' .ignore
  /-- The frame is answered under its number, and what is pending stays so. -/
  | answered {s' : Session} {r : Frame} (hactive : s.state ≠ .closed) (hstate : s'.state ≠ .closed)
    (htracker : s'.tracker = s.tracker) (hsequence : r.sequence = f.sequence)
    (hsubmit : ∀ n, f.isSubmit n = true → r.isSubmitResp n = true ∨ r.isNack n = true) :
    Dispatched s f s' (.reply r)
  /-- The frame is a submit that becomes pending. -/
  | taken {s' : Session} {n : UInt32} {submission : Submission} {now : Instant} {t : Tracker}
    {request : PendingRequest} (htransmit : s.state.canTransmit = true)
    (hsubmit : f.isSubmit n = true) (htrack : s.tracker.track n .submitSm now = some (t, request))
    (hstate : s'.state = s.state) (htracker : s'.tracker = t) :
    Dispatched s f s' (.submit n submission)
  /-- The frame is answered under its number and ends the session. -/
  | ended {s' : Session} {r : Frame} (hactive : s.state ≠ .closed) (hstate : s'.state = .closed)
    (htracker : s'.tracker = s.tracker.clear) (hsequence : r.sequence = f.sequence)
    (hsubmit : ∀ n, f.isSubmit n = false) : Dispatched s f s' (.replyAndClose r)

section Dispatch

variable {s : Session} (now : Instant) (inFlight : Nat)

/-- A submit is refused under its number, or it becomes pending. -/
theorem dispatched_submit (hactive : s.state ≠ .closed) (status : CommandStatus) (n : UInt32)
    (b : Submit) {s' : Session} {a : Action}
    (h : Submitted (s.touched now) now inFlight n b (s', a)) :
    Dispatched s (.known status n (.submit b)) s' a := by
  cases h with
  | barred htransmit => exact .answered hactive hactive rfl rfl (fun k hk => .inl hk)
  | duplicate htransmit hpending =>
    exact .answered hactive hactive rfl rfl (fun k hk => .inr hk)
  | throttled htransmit hpending hfull =>
    exact .answered hactive hactive rfl rfl (fun k hk => .inl hk)
  | taken htransmit hroom htrack =>
    exact .taken htransmit (beq_self_eq_true n) htrack rfl rfl

/-- The end of an authentication is answered under the number of the bind; the last failure that is
allowed ends the session. -/
theorem dispatched_conclude (hactive : s.state ≠ .closed) (status : CommandStatus) (n : UInt32)
    (b : Bind) (verdict : AuthResult) :
    Dispatched s (.known status n (.bind b)) (s.conclude now n b verdict).1
      (s.conclude now n b verdict).2 := by
  unfold conclude
  cases verdict with
  | ok _ => exact .answered hactive (fun h => nomatch h) rfl rfl (fun k hk => nomatch hk)
  | error e =>
    dsimp only
    split
    · exact .ended hactive rfl rfl rfl (fun k => rfl)
    · exact .answered hactive hactive rfl rfl (fun k hk => nomatch hk)

end Dispatch

/-- **What becomes of a frame.** -/
theorem dispatched (s : Session) (now : Instant) (inFlight : Nat) (f : Frame)
    (verdict : AuthResult) (decided : Instant) :
    Dispatched s f (s.dispatch now inFlight f verdict decided).1
      (s.dispatch now inFlight f verdict decided).2 := by
  have hreceived := received s now inFlight f
  unfold dispatch
  generalize s.receive now inFlight f = r at hreceived
  cases hreceived with
  | late hover => exact .afterEnd hover
  | unknown hactive => exact .answered hactive hactive rfl rfl (fun k hk => nomatch hk)
  | rebind hbound =>
    have hactive := active_of_isBound hbound
    exact .answered hactive hactive rfl rfl (fun k hk => nomatch hk)
  | @bind status n b hopen =>
    dsimp only
    rw [conclude_touched]
    exact dispatched_conclude decided (active_of_opened hopen) status n b verdict
  | unbind hbound => exact .ended (active_of_isBound hbound) rfl rfl rfl (fun k => rfl)
  | unbound hopen =>
    have hactive := active_of_opened hopen
    exact .answered hactive hactive rfl rfl (fun k hk => nomatch hk)
  | @submit status n b _ hactive hsubmit =>
    obtain ⟨s', a⟩ := r
    have hdispatched := dispatched_submit now inFlight hactive status n b hsubmit
    -- A submit never calls for an authentication, so its action is what is dispatched.
    cases a <;> first | exact hdispatched | cases hdispatched
  | probe hactive => exact .answered hactive hactive rfl rfl (fun k hk => nomatch hk)
  | response hactive hresponse =>
    exact .ignored hactive rfl rfl (fun n => Frame.isSubmit_of_isResponse n hresponse)

/-! ### What becomes of everything else -/

section Others

variable {s : Session}

theorem complete_of_closed (h : s.state = .closed) (c : Completion) : s.complete c = (s, none) :=
  if_pos h

/-- A result is handed on to the client if its number is pending, whatever it is a result of. -/
theorem complete_of_active (h : s.state ≠ .closed) (c : Completion) :
    s.complete c =
      if s.tracker.isPending c.sequence then
        ({ s with tracker := (s.tracker.complete c.sequence).1 }, some c.answer)
      else (s, none) := by
  unfold complete Tracker.complete
  rw [if_neg h]
  cases hget : s.tracker.get? c.sequence with
  | none =>
    rw [Tracker.get?_eq_none_iff.1 hget]
    rfl
  | some request =>
    -- The answer goes out under the number of the request, which is that of the result.
    have hsequence : request.sequence = c.sequence := (Tracker.of_get?_eq_some hget).2
    rw [if_pos (Tracker.isPending_of_get? hget)]
    dsimp only
    rw [hsequence]
    rfl

/-- A result makes no number pending. -/
theorem isPending_of_complete {c : Completion} {n : UInt32}
    (h : (s.complete c).1.tracker.isPending n = true) : s.tracker.isPending n = true := by
  by_cases hactive : s.state = .closed
  · rw [complete_of_closed hactive] at h
    exact h
  rw [complete_of_active hactive] at h
  split at h
  · exact Tracker.isPending_of_subset List.filter_sublist.subset h
  · exact h

/-- A probe uses up a number and is remembered; nothing else changes. -/
theorem keepalive_frame (now : Instant) :
    ∃ probe next, (s.keepalive now).1 = { s with lastProbe := probe, nextSequence := next } := by
  unfold keepalive
  split
  · exact ⟨_, _, rfl⟩
  split
  · exact ⟨_, _, rfl⟩
  · exact ⟨_, _, rfl⟩

/-- A client that is not bound is not probed. -/
theorem keepalive_of_not_bound (h : s.state.isBound = false) (now : Instant) :
    s.keepalive now = (s, none) := by
  unfold keepalive keepaliveDue
  rw [h]
  rfl

theorem shutdownFrame_frame :
    ∃ next, s.shutdownFrame.1 = { s with nextSequence := next } := by
  unfold shutdownFrame
  split
  · exact ⟨_, rfl⟩
  · exact ⟨_, rfl⟩

theorem shutdownFrame_of_not_bound (h : s.state.isBound = false) :
    s.shutdownFrame = (s, none) := by
  unfold shutdownFrame
  rw [h]
  rfl

end Others

/-! ### The invariant -/

/-- No number is pending twice, and nothing is pending after the end. -/
structure Sound (s : Session) : Prop where
  distinct : s.tracker.Distinct
  nothing_pending : s.state = .closed → s.tracker.pending = []

theorem Sound.start (config : Config) (now : Instant) : Sound (start config now) where
  distinct := List.nodup_nil
  nothing_pending := fun _ => rfl

theorem Sound.dispatched {s s' : Session} {f : Frame} {a : Action} (hs : s.Sound)
    (h : Dispatched s f s' a) : s'.Sound := by
  cases h with
  | afterEnd hover => exact hs
  | ignored hactive hstate htracker =>
    exact ⟨htracker ▸ hs.distinct, fun h => absurd (hstate ▸ h) hactive⟩
  | answered hactive hstate htracker =>
    exact ⟨htracker ▸ hs.distinct, fun h => absurd h hstate⟩
  | taken htransmit hsubmit htrack hstate htracker =>
    -- A session that takes a submit may transmit, so it is not over.
    refine ⟨htracker ▸ hs.distinct.track htrack, fun h => ?_⟩
    rw [← hstate, h] at htransmit
    cases htransmit
  | ended hactive hstate htracker =>
    rw [Tracker.clear] at htracker
    exact ⟨htracker ▸ Tracker.Distinct.clear, fun _ => by rw [htracker]⟩

/-- **Every step preserves the invariant.** -/
theorem Sound.step {s : Session} (hs : s.Sound) (i : Input) : (s.step i).1.Sound := by
  -- Requests are only taken off the tracker here, which keeps their numbers distinct; the frame
  -- that adds one has been looked at before.
  cases i with
  | frame f now inFlight verdict decided =>
    exact hs.dispatched (Session.dispatched s now inFlight f verdict decided)
  | complete c =>
    rw [step_complete]
    by_cases hactive : s.state = .closed
    · rw [complete_of_closed hactive]
      exact hs
    · rw [complete_of_active hactive]
      split
      · exact ⟨hs.distinct.complete, fun h => absurd h hactive⟩
      · exact hs
  | expire now =>
    refine ⟨hs.distinct.expire, fun h => ?_⟩
    change s.tracker.pending.filter _ = []
    rw [hs.nothing_pending h]
    rfl
  | keepalive now =>
    obtain ⟨probe, next, hframe⟩ := keepalive_frame (s := s) now
    rw [step_keepalive, hframe]
    exact ⟨hs.distinct, hs.nothing_pending⟩
  | shutdown =>
    obtain ⟨next, hframe⟩ := shutdownFrame_frame (s := s)
    rw [step_shutdown, hframe]
    exact ⟨hs.distinct, hs.nothing_pending⟩
  | close => exact ⟨Tracker.Distinct.clear, fun _ => rfl⟩

/-- The number of a result is pending no more once the session has taken the result. -/
theorem Sound.isPending_complete {s : Session} (hs : s.Sound) (c : Completion) :
    (s.complete c).1.tracker.isPending c.sequence = false := by
  by_cases hactive : s.state = .closed
  · rw [complete_of_closed hactive, Tracker.isPending, hs.nothing_pending hactive]
    rfl
  rw [complete_of_active hactive]
  split
  · exact Tracker.isPending_complete
  · next hfree => exact Bool.eq_false_iff.2 hfree

/-- What a session answers once it is over. -/
def Input.silence : Input → Output
  | .frame .. => .action .ignore
  | .complete _ | .expire _ | .keepalive _ | .shutdown | .close => .frames []

theorem Input.written_silence (i : Input) : i.silence.written = [] := by
  cases i <;> rfl

/-- **The end is for good**: nothing that a session is told after it changes anything, and nothing
is answered. -/
theorem Sound.step_eq_of_closed {s : Session} (hs : s.Sound) (hover : s.state = .closed)
    (i : Input) : s.step i = (s, i.silence) := by
  -- Nobody is bound, so there is nobody to probe or to cut off.
  have hunbound : s.state.isBound = false := by
    rw [hover]
    rfl
  have hnothing := hs.nothing_pending hover
  cases i with
  | frame f now inFlight verdict decided =>
    have hdispatch : s.dispatch now inFlight f verdict decided = (s, .ignore) := by
      unfold dispatch
      rw [receive_of_closed now inFlight hover]
    rw [step_frame, hdispatch]
    rfl
  | complete c =>
    rw [step_complete, complete_of_closed hover]
    rfl
  | expire now =>
    -- Deadlines are not asked about the end: it is the invariant that leaves nothing to expire.
    have hexpire : s.tracker.expire now = (s.tracker, []) := by
      unfold Tracker.expire
      rw [hnothing, List.filter_nil, List.filter_nil, List.mergeSort_nil, ← hnothing]
    rw [step_expire]
    unfold Session.expire
    rw [hexpire]
    rfl
  | keepalive now =>
    rw [step_keepalive, keepalive_of_not_bound hunbound]
    rfl
  | shutdown =>
    rw [step_shutdown, shutdownFrame_of_not_bound hunbound]
    rfl
  | close =>
    have htracker : s.tracker.clear = s.tracker := by
      unfold Tracker.clear
      rw [← hnothing]
    rw [step_close]
    unfold Session.close
    rw [htracker, ← hover]
    rfl

/-- **Nothing is written after the end**, and the end is for good. -/
theorem Sound.step_of_closed {s : Session} (hs : s.Sound) (hover : s.state = .closed) (i : Input) :
    (s.step i).1.state = .closed ∧ (s.step i).2.written = [] := by
  rw [hs.step_eq_of_closed hover]
  exact ⟨hover, i.written_silence⟩

/-- **No number is ever pending twice, and nothing is pending after the end.** -/
theorem Sound.after (config : Config) (now : Instant) (inputs : List Input) :
    ((Session.start config now).after inputs).Sound :=
  after_of_step (Sound.start config now) (fun _ i hs => hs.step i) inputs

end Session

end Smpp
