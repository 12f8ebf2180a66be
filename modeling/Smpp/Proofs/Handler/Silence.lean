import Smpp.Proofs.Handler.Output
import Smpp.Proofs.Handler.Wakeup

/-!
# A client that is silent

A session hears of its client when a frame is read and when an authentication ends, and what it
keeps is the last of these instants (`Handler.lastActivity_after`). A client is silent as long as
nothing comes from it that a session hears of. What it sends may be octets that are no frames, and
part of a frame; `Connection.Noisy` says that a connection holds nothing else and that nothing else
is to come.

`Session.Quiet` is what time makes of a session in silence: nothing but its probes. It counts them,
and that is all there is to know, since the first instant at which there is anything to do for the
client follows from it (`Session.alarm`): the next probe is due an interval after the last one, and
the session is over when the silence has lasted as long as it may.

`Handler.Silent` puts the two together. What the handler does before it looks at its timers leaves
it as it is and asks nothing of the client (`Silent.step`). At the timers the silence goes on, with
one more probe or none, or it is the end (`Silent.tick`).
-/

namespace Smpp

namespace Frame

theorem asks_carried (f : Frame) : f.carried.asks = f.asks := by
  cases f with
  | unknown command status n body => rfl
  | known status n m =>
    cases m with
    | bindResp r =>
      dsimp only [carried, Message.carried]
      split <;> rfl
    | submitResp messageId =>
      dsimp only [carried, Message.carried]
      split <;> rfl
    | bind | unbind | unbindResp | submit | enquireLink | enquireLinkResp | genericNack => rfl

/-- What a server asks of a client gets to it as it is. -/
theorem FromServer.onWire_of_asks {f : Frame} (hf : f.FromServer) (hasks : f.asks = true) :
    f.onWire = f := by
  -- Neither a probe nor the request to end has a body, so nothing in it can fail to be written.
  have hplain (hbody : f.body = .ok []) : f.onWire = f.carried := by
    have hencode : f.encode = .ok ((f.words 0).encode ++ []) := encode_eq_ok_iff.2 ⟨[], hbody, rfl⟩
    unfold onWire
    rw [hencode]
  cases hf with
  | enquireLink n => exact hplain rfl
  | unbind n => exact hplain rfl
  | enquireLinkResp | unbindResp | nack | bindAccepted | bindRefused | submitAccepted
  | submitRefused => cases hasks

/-- **What a client is asked is what it was to be asked.** -/
theorem filter_asks_onWire {fs : List Frame} (hfs : ∀ f ∈ fs, f.FromServer) :
    (fs.map onWire).filter asks = fs.filter asks := by
  induction fs with
  | nil => rfl
  | cons f fs ih =>
    rw [List.forall_mem_cons] at hfs
    rw [List.map_cons]
    cases hasks : f.asks with
    | true =>
      rw [hfs.1.onWire_of_asks hasks, List.filter_cons_of_pos hasks, List.filter_cons_of_pos hasks,
        ih hfs.2]
    | false =>
      -- What goes out in place of a frame is a negative acknowledgement, which asks for nothing.
      have hquiet : f.onWire.asks = false := by
        unfold onWire
        split
        · rw [asks_carried, hasks]
        · rfl
      rw [List.filter_cons_of_neg (by rw [hquiet]; exact Bool.false_ne_true),
        List.filter_cons_of_neg (by rw [hasks]; exact Bool.false_ne_true), ih hfs.2]

end Frame

namespace Connection

/-- Whether an entry is nothing that a session hears of: octets that are no frame, or the end of
what has come. -/
def Entry.isNoise : Entry → Bool
  | .malformed .. | .closed | .reset => true
  | .frame _ | .framing .. => false

/-- What a connection holds, and what is still to come, is the rest of a stream that is noise from
there on. -/
def Noisy (c : Connection) (future : Octets) : Prop :=
  ∃ stream place, place ≤ stream.length ∧
    stream.drop place = c.buffer ++ c.arrived ++ future ∧
    ∀ entry ∈ pass c.largest stream place, entry.isNoise = true

section Noisy

variable {c : Connection} {future : Octets}

theorem noisy_of_pass
    (hnoise : ∀ entry ∈ pass c.largest (c.buffer ++ c.arrived ++ future) 0, entry.isNoise = true) :
    c.Noisy future :=
  ⟨_, 0, Nat.zero_le _, rfl, hnoise⟩

theorem Noisy.receive {bs : Octets} (h : c.Noisy (bs ++ future)) : (c.receive bs).Noisy future := by
  obtain ⟨stream, place, hplace, hstream, hnoise⟩ := h
  refine ⟨stream, place, hplace, ?_, hnoise⟩
  rw [hstream]
  unfold Connection.receive
  simp only [List.append_assoc]

theorem take_ne_end {r : Connection × ReadResult} (h : c.take = some r) :
    r.2 ≠ .closed ∧ r.2 ≠ .error .reset := by
  unfold take at h
  split at h
  · cases h
  · cases h
    exact ⟨fun h => (nomatch h), fun h => nomatch h⟩
  · dsimp only at h
    split at h
    · cases h
      exact ⟨fun h => (nomatch h), fun h => nomatch h⟩
    · split at h <;> cases h <;> exact ⟨fun h => (nomatch h), fun h => nomatch h⟩

/-- Nothing is the end while the client may send. -/
theorem read_ne_end (hopen : c.ending = .none) :
    c.read.2 ≠ .closed ∧ c.read.2 ≠ .error .reset := by
  cases htake : c.take with
  | some r =>
    rw [read_of_take htake]
    exact take_ne_end htake
  | none =>
    cases hfetched : c.fetched.take with
    | some r =>
      rw [read_of_fetched htake hfetched]
      exact take_ne_end hfetched
    | none =>
      rw [read_of_rest htake hfetched]
      have hrest : c.fetched.rest = .pending := by
        unfold rest
        rw [show c.fetched.ending = .none from hopen]
      rw [hrest]
      exact ⟨fun h => (nomatch h), fun h => nomatch h⟩

/-- **Noise is read as noise**: there is nothing to read, or octets that are no frame. -/
theorem Noisy.read (h : c.Noisy future) (hopen : c.ending = .none) :
    c.read.1.Noisy future ∧
      (c.read.2 = .pending ∨
        ∃ command n cause, c.read.2 = .error (.malformed command n cause)) := by
  obtain ⟨stream, place, hplace, hstream, hnoise⟩ := h
  -- What is read is the next entry of the stream, and the end of the stream is not read yet.
  have hstep := readStep hplace hstream (.inl hopen)
  have hend := read_ne_end hopen
  generalize c.read = r at hstep hend
  cases hstep with
  | waits hlargest hending hopen hheld =>
    refine ⟨⟨stream, place, hplace, ?_, ?_⟩, .inl rfl⟩
    · rw [hstream, hheld]
    · rw [hlargest]
      exact hnoise
  | @passes d r n entry hpass hresult hgoes hlargest hending hn hheld =>
    rw [hpass, List.forall_mem_cons] at hnoise
    refine ⟨⟨stream, place + n, place_of_passed hplace hstream hn,
      stream_of_passed hstream hn hheld, ?_⟩, ?_⟩
    · rw [hlargest]
      exact hnoise.2
    · have hresult := hresult 0
      cases entry with
      | malformed command n cause => exact .inr ⟨command, n, cause, hresult.symm⟩
      | closed => exact absurd hresult.symm hend.1
      | reset => exact absurd hresult.symm hend.2
      | frame f => cases hnoise.1
      | framing place cause => cases hnoise.1
  | @ends d r entry hpass hresult hstops hpending hheld =>
    rw [hpass, List.forall_mem_singleton] at hnoise
    cases entry with
    | malformed command n cause => rw [← hresult] at hstops; cases hstops
    | closed => exact absurd hresult.symm hend.1
    | reset => exact absurd hresult.symm hend.2
    | frame f => cases hnoise
    | framing place cause => cases hnoise

end Noisy

end Connection

namespace Session

/-- The number of the request to a client that comes after the one with a number. -/
def nextNumber (n : UInt32) : UInt32 := if largestSequence ≤ n then 1 else n + 1

/-- The number of the request that comes so many requests after the one with a number. -/
def numberAfter (n : UInt32) : Nat → UInt32
  | 0 => n
  | k + 1 => nextNumber (numberAfter n k)

/-- A session that has heard nothing since it was as `s₀`, and has sent so many probes, each an
interval after the one before. -/
structure Quiet (s₀ : Session) (k : Nat) (s : Session) : Prop where
  settings : s.config = s₀.config
  activity : s.lastActivity = s₀.lastActivity
  standing : s.standing = s₀.standing
  number : s.nextSequence = numberAfter s₀.nextSequence k
  probed : max (s.lastProbe.getD s.lastActivity) s.lastActivity =
    s₀.lastActivity + k * s₀.config.enquireLinkInterval

/-- When a session that has heard nothing since it was as `s₀`, and has sent so many probes, has to
do something for its client. -/
def alarm (s₀ : Session) (k : Nat) : Instant :=
  if s₀.state.isBound then
    min (s₀.lastActivity + s₀.config.sessionTimeout)
      (s₀.lastActivity + (k + 1) * s₀.config.enquireLinkInterval)
  else s₀.lastActivity + s₀.config.sessionTimeout

/-- The first instant at which there is something to do for the client, if it stays silent: to probe
it, or to end the session. -/
def nextRequest (s : Session) : Instant :=
  let idle := s.lastActivity + s.config.sessionTimeout
  min idle (s.keepaliveDue.getD idle)

section Quiet

variable {s₀ s : Session} {k : Nat} {now : Instant}

theorem nextWakeup_le_nextRequest : s.nextWakeup ≤ s.nextRequest := Nat.min_le_left _ _

theorem lt_of_lt_alarm (h : now < s₀.alarm k) :
    now < s₀.lastActivity + s₀.config.sessionTimeout ∧
      (s₀.state.isBound = true →
        now < s₀.lastActivity + (k + 1) * s₀.config.enquireLinkInterval) := by
  unfold alarm at h
  split at h
  · exact ⟨(Nat.lt_min.1 h).1, fun _ => (Nat.lt_min.1 h).2⟩
  · next hbound => exact ⟨h, fun h => absurd h hbound⟩

theorem lastActivity_le_alarm : s₀.lastActivity ≤ s₀.alarm k := by
  unfold alarm
  split
  · exact Nat.le_min.2 ⟨Nat.le_add_right _ _, Nat.le_add_right _ _⟩
  · exact Nat.le_add_right _ _

theorem Quiet.start {config : Config} (h : s₀.Timely config s₀.lastActivity) : s₀.Quiet 0 s₀ := by
  refine ⟨rfl, rfl, rfl, rfl, ?_⟩
  have hprobe : s₀.lastProbe.getD s₀.lastActivity ≤ s₀.lastActivity := by
    cases hlast : s₀.lastProbe with
    | none => exact Nat.le_refl _
    | some t => exact h.probed t hlast
  rw [Nat.max_eq_right hprobe, Nat.zero_mul]
  rfl

theorem Quiet.withTracker (h : s₀.Quiet k s) (tracker : Tracker) : s₀.Quiet k { s with tracker } :=
  ⟨h.settings, h.activity, h.standing, h.number, h.probed⟩

/-- What becomes of a message is not heard from the client. -/
theorem Quiet.complete (h : s₀.Quiet k s) (c : Completion) : s₀.Quiet k (s.complete c).1 := by
  by_cases hactive : s.state = .closed
  · rw [complete_of_closed hactive]
    exact h
  rw [complete_of_active hactive]
  split
  · exact h.withTracker _
  · exact h

theorem Quiet.isBound (h : s₀.Quiet k s) : s.state.isBound = s₀.state.isBound :=
  congrArg (fun x => x.1.isBound) h.standing

theorem Quiet.isIdle_iff (h : s₀.Quiet k s) :
    s.isIdle now = true ↔ s₀.lastActivity + s₀.config.sessionTimeout ≤ now := by
  unfold isIdle
  rw [decide_eq_true_iff, h.activity, h.settings]

/-- The next probe of a bound client is due an interval after the last one. -/
theorem Quiet.keepaliveDue (h : s₀.Quiet k s) :
    s.keepaliveDue =
      if s₀.state.isBound then some (s₀.lastActivity + (k + 1) * s₀.config.enquireLinkInterval)
      else none := by
  unfold Session.keepaliveDue
  rw [h.isBound, h.probed, h.settings, Nat.add_mul, Nat.one_mul, Nat.add_assoc]

theorem Quiet.nextRequest (h : s₀.Quiet k s) : s.nextRequest = s₀.alarm k := by
  unfold Session.nextRequest alarm
  rw [h.keepaliveDue, h.activity, h.settings]
  dsimp only
  split
  · rfl
  · exact Nat.min_self _

/-- The timers are looked at no later than there is something to do for the client. -/
theorem Quiet.nextWakeup_le (h : s₀.Quiet k s) : s.nextWakeup ≤ s₀.alarm k :=
  Nat.le_trans nextWakeup_le_nextRequest (Nat.le_of_eq h.nextRequest)

/-- A probe that is due at an instant is the next one. -/
theorem Quiet.keepalive_of_due (h : s₀.Quiet k s) (hbound : s₀.state.isBound = true)
    (hdue : now = s₀.lastActivity + (k + 1) * s₀.config.enquireLinkInterval) :
    ∃ s', s.keepalive now = (s', some (.enquireLink (numberAfter s₀.nextSequence k))) ∧
      s₀.Quiet (k + 1) s' := by
  unfold keepalive
  rw [h.keepaliveDue, if_pos hbound, ← hdue]
  dsimp only
  rw [if_neg (Nat.lt_irrefl now), takeSequence, h.number]
  refine ⟨_, rfl, h.settings, h.activity, h.standing, rfl, ?_⟩
  -- The probe goes out when it is due, so the intervals add up.
  change max now s.lastActivity = _
  rw [← hdue, h.activity, Nat.max_eq_left]
  rw [hdue]
  exact Nat.le_add_right _ _

theorem Quiet.keepalive_of_early (h : s₀.Quiet k s) (halarm : now < s₀.alarm k) :
    s.keepalive now = (s, none) := by
  unfold keepalive
  rw [h.keepaliveDue]
  by_cases hbound : s₀.state.isBound = true
  · rw [if_pos hbound]
    exact if_pos ((lt_of_lt_alarm halarm).2 hbound)
  · rw [if_neg hbound]

/-- The request to end has the number after those of the probes. -/
theorem Quiet.shutdownFrame (h : s₀.Quiet k s) :
    s.shutdownFrame.2 =
      if s₀.state.isBound then some (.unbind (numberAfter s₀.nextSequence k)) else none := by
  unfold Session.shutdownFrame
  rw [h.isBound, ← h.number]
  split
  · rfl
  · rfl

end Quiet

end Session

namespace Handler

/-! ### When a client was last heard of -/

/-- When a handler hears of its client: as it reads a frame, and as an authentication ends. -/
def hears? (h : Handler) : Event → Option Instant
  | .turn now =>
    match h.reading? with
    | some (.frame _) => some now
    | some _ | none => none
  | .authenticated now _ =>
    match h.stage with
    | .authenticating .. => some now
    | .serving | .ended _ => none
  | .arrive _ | .endStream _ | .cancel | .answer .. | .tick _ => none

/-- When a step hears of the client, if it does. -/
def Move.heard? (m : Move) : Option Instant := m.before.hears? m.event

section Heard

variable {h : Handler} {t : Instant}

theorem lastActivity_sendAll (ht : h.engagement.session.lastActivity = t) (fs : List Frame) :
    (h.sendAll fs).1.engagement.session.lastActivity = t :=
  keeps_sendAll (p := fun h => h.engagement.session.lastActivity = t) (fun _ _ ht => ht) ht fs

theorem lastActivity_carryOut (ht : h.engagement.session.lastActivity = t) (r : Reaction) :
    (h.carryOut r).1.engagement.session.lastActivity = t :=
  keeps_carryOut (p := fun h => h.engagement.session.lastActivity = t) (fun _ _ ht => ht)
    (fun _ _ _ ht => ht) ht r

theorem lastActivity_unbindAndFinish (ht : h.engagement.session.lastActivity = t)
    (reason : CloseReason) :
    (h.unbindAndFinish reason).1.engagement.session.lastActivity = t := by
  obtain ⟨fs, hfinish, -⟩ := unbindAndFinish_eq h reason
  obtain ⟨next, hframe⟩ := Session.shutdownFrame_frame (s := h.engagement.session)
  rw [hfinish, hframe]
  exact ht

/-- Every frame is heard by a session that goes on. -/
theorem lastActivity_receive {s : Session} (hactive : s.state ≠ .closed) (now : Instant)
    (inFlight : Nat) (f : Frame) : (s.receive now inFlight f).1.lastActivity = now := by
  have hreceived := Session.received s now inFlight f
  generalize s.receive now inFlight f = r at hreceived
  cases hreceived with
  | late hover => exact absurd hover hactive
  | submit _ hsubmit => cases hsubmit <;> rfl
  | unknown | rebind | bind | unbind | unbound | probe | response => rfl

theorem lastActivity_conclude (s : Session) (now : Instant) (n : UInt32) (b : Bind)
    (result : AuthResult) : (s.conclude now n b result).1.lastActivity = now := by
  unfold Session.conclude
  cases result with
  | ok _ => rfl
  | error cause =>
    dsimp only
    split <;> rfl

theorem lastActivity_complete (s : Session) (c : Completion) :
    (s.complete c).1.lastActivity = s.lastActivity := by
  by_cases hactive : s.state = .closed
  · rw [Session.complete_of_closed hactive]
  rw [Session.complete_of_active hactive]
  split <;> rfl

theorem lastActivity_turn (hs : h.Sound) (now : Instant) :
    (h.step (.turn now)).1.engagement.session.lastActivity =
      (h.hears? (.turn now)).getD h.engagement.session.lastActivity := by
  -- A turn hears of the client exactly if it reads a frame, so what it reads comes first.
  cases hreading : h.reading? with
  | some r =>
    obtain ⟨hserving, -, -, -, -, hturn⟩ := turn_of_reading now hreading
    have hstep : h.step (.turn now) = _ := congrArg (Option.getD · (h, [])) hturn
    have hactive := hs.active (reason?_of_serving hserving)
    dsimp only [hears?]
    rw [hreading, hstep]
    by_cases hframe : ∃ f, r = .frame f
    · obtain ⟨f, rfl⟩ := hframe
      refine lastActivity_carryOut ?_ _
      exact (congrArg Session.lastActivity (session_react _ _)).trans
        (lastActivity_receive hactive now _ f)
    -- The end of the stream and what is malformed are read as well, but nothing is heard by them.
    · have hnone : (match (some r : Option ReadResult) with
          | some (.frame _) => some now
          | some _ | none => none) = none := by
        cases r with
        | frame f => exact absurd ⟨f, rfl⟩ hframe
        | closed | pending | error => rfl
      rw [hnone]
      exact keeps_onRead
        (p := fun h' => h'.engagement.session.lastActivity = h.engagement.session.lastActivity)
        (fun _ _ ht => ht) (h := { h with connection := h.connection.read.1 }) rfl now
        fun f hr => hframe ⟨f, hr⟩
  | none =>
    dsimp only [hears?]
    rw [hreading]
    -- The turn reads nothing, so it waits, obeys, or hands on a result.
    change ((h.turn now).getD (h, [])).1.engagement.session.lastActivity = _
    have hturned := turned h now
    generalize h.turn now = r at hturned
    cases hturned with
    | idle => rfl
    | waits => rfl
    | obeys => exact lastActivity_unbindAndFinish rfl _
    | @completes engagement completion answer hserving hcancelled hnext =>
      refine lastActivity_sendAll (h := { h with engagement }) ?_ _
      exact (congrArg Session.lastActivity (completeNext_answer hnext).1).trans
        (lastActivity_complete _ _)
    | reads hserving hcancelled hnext hread hresult =>
      rw [reading?_of_reads hserving hcancelled hnext hread hresult] at hreading
      cases hreading

/-- **What a session knows of its client's activity** is when its handler last heard of it. -/
theorem lastActivity_step (hs : h.Sound) (e : Event) :
    (h.step e).1.engagement.session.lastActivity =
      (h.hears? e).getD h.engagement.session.lastActivity := by
  cases e with
  | arrive bs => rfl
  | endStream ending => rfl
  | cancel => rfl
  | answer call result => rfl
  | authenticated now result =>
    dsimp only [step, authenticated, hears?]
    cases h.stage with
    | serving => rfl
    | ended reason => rfl
    | authenticating n b =>
      refine lastActivity_carryOut ?_ _
      exact (congrArg Session.lastActivity (session_react _ _)).trans
        (lastActivity_conclude _ now n b result)
  | turn now => exact lastActivity_turn hs now
  | tick now =>
    change (h.tick now).1.engagement.session.lastActivity = h.engagement.session.lastActivity
    -- To expire what is overdue, to probe and to close are no activity of the client.
    have hprobed : ((h.engagement.session.expire now).1.keepalive now).1.lastActivity =
        h.engagement.session.lastActivity := by
      obtain ⟨probe, next, hframe⟩ :=
        Session.keepalive_frame (s := (h.engagement.session.expire now).1) now
      rw [hframe]
      rfl
    have hlooked := looked h now
    generalize h.tick now = r at hlooked
    cases hlooked with
    | early => rfl
    | gone hserving hs' =>
      obtain rfl | rfl := hs'
      · rfl
      · exact hprobed
    | silent =>
      obtain ⟨next, hframe⟩ :=
        Session.shutdownFrame_frame (s := (h.engagement.session.expire now).1)
      rw [hframe]
      rfl
    | awake => exact hprobed

/-- **The last activity of a client** in a run is the last instant at which the handler heard of it,
or that at which the connection was accepted. -/
theorem lastActivity_after (hs : h.Sound) (events : List Event) :
    (h.after events).engagement.session.lastActivity =
      ((h.history events).filterMap Move.heard?).getLastD h.engagement.session.lastActivity := by
  induction events generalizing h with
  | nil => rfl
  | cons e es ih =>
    have hheard : (h.move e).heard? = h.hears? e := rfl
    rw [after_cons, ih (hs.step e), lastActivity_step hs e, history_cons, List.filterMap_cons,
      hheard]
    cases h.hears? e with
    | none => rfl
    | some t => exact List.getLastD_cons.symm

end Heard

/-! ### What a client is asked

An answer asks for nothing. What does is the request to end, after which the handler does not serve
its client, and the probe, which is not due as long as the client has just been heard of. -/

section Asked

variable {h : Handler} {f : Frame} {now : Instant}

theorem asks_answer (c : Completion) : c.answer.asks = false := by
  unfold Completion.answer
  split
  · rfl
  · rfl

theorem asks_of_receive {s : Session} {inFlight : Nat} {g : Frame}
    (hf : f ∈ (Session.Output.action (s.receive now inFlight g).2).written) : f.asks = false := by
  have hreceived := Session.received s now inFlight g
  generalize s.receive now inFlight g = r at hreceived hf
  cases hreceived with
  | late | bind | response => cases hf
  | unknown | rebind | unbind | unbound | probe =>
    cases List.mem_singleton.1 hf
    rfl
  | submit hactive hsubmit =>
    cases hsubmit with
    | barred | duplicate | throttled =>
      cases List.mem_singleton.1 hf
      rfl
    | taken => cases hf

theorem asks_of_conclude {s : Session} {n : UInt32} {b : Bind} {result : AuthResult}
    (hf : f ∈ (Session.Output.action (s.conclude now n b result).2).written) : f.asks = false := by
  unfold Session.conclude at hf
  cases result with
  | ok _ =>
    cases List.mem_singleton.1 hf
    rfl
  | error cause =>
    dsimp only at hf
    split at hf
    all_goals
      cases List.mem_singleton.1 hf
      rfl

theorem asks_of_dueToReading {r : ReadResult} (hf : f ∈ h.dueToReading now r) : f.asks = false := by
  unfold dueToReading at hf
  split at hf
  · exact asks_of_receive (frames_react h.engagement _ ▸ hf)
  · cases List.mem_singleton.1 hf
    rfl
  · cases List.mem_singleton.1 hf
    rfl
  all_goals cases hf

/-- In a turn a client is asked nothing but to end. -/
theorem asks_due_turn (hf : f ∈ h.due (.turn now)) (hasks : f.asks = true) :
    (h.step (.turn now)).1.isServing = false := by
  -- What a turn writes answers the client, but for the unbind of a handler that obeys.
  have hturned := turned h now
  change ((h.turn now).getD (h, [])).1.isServing = false
  generalize h.turn now = r at hturned
  cases hturned with
  | idle hidle => exact hidle
  | obeys =>
    obtain ⟨fs, hfinish, -⟩ := unbindAndFinish_eq h .shutdown
    rw [Option.getD_some, hfinish]
    rfl
  | completes hserving hcancelled hnext =>
    rw [due_turn_of_completes hserving hcancelled hnext, Option.mem_toList,
      (completeNext_answer hnext).2] at hf
    rw [complete_answer hf, asks_answer] at hasks
    cases hasks
  | reads hserving hcancelled hnext =>
    rw [due_turn_of_reads hserving hcancelled hnext] at hf
    rw [asks_of_dueToReading hf] at hasks
    cases hasks
  | waits hserving hcancelled hnext hread =>
    rw [due_turn_of_reads hserving hcancelled hnext, hread] at hf
    cases hf

theorem asks_due_authenticated {result : AuthResult} (hf : f ∈ h.due (.authenticated now result)) :
    f.asks = false := by
  dsimp only [due] at hf
  split at hf
  · exact asks_of_conclude (frames_react h.engagement _ ▸ hf)
  · cases hf
  · cases hf

/-- What the timers ask of a client besides answering it. -/
theorem filter_dueAt (s : Session) (now : Instant) :
    (dueAt s now).filter Frame.asks =
      ((if (s.expire now).1.isIdle now then (s.expire now).1.shutdownFrame.2
        else ((s.expire now).1.keepalive now).2).toList).filter Frame.asks := by
  unfold dueAt
  dsimp only
  rw [List.filter_append]
  have hoverdue : (s.expire now).2.filter Frame.asks = [] := by
    rw [List.filter_eq_nil_iff]
    intro f hf
    obtain ⟨request, -, rfl⟩ := List.mem_map.1 hf
    exact Bool.false_ne_true
  rw [hoverdue, List.nil_append]

/-- At the timers a client is asked to end, or probed after an interval of silence. -/
theorem asks_due_tick (hf : f ∈ h.due (.tick now)) (hasks : f.asks = true) :
    (h.step (.tick now)).1.isServing = false ∨
      h.engagement.session.lastActivity + h.engagement.session.config.enquireLinkInterval ≤
        now := by
  by_cases hdue : h.isServing = false ∨ now < h.engagement.session.nextWakeup
  · rw [due_tick_of_early hdue] at hf
    cases hf
  push Not at hdue
  by_cases hidle : h.engagement.session.isIdle now = true
  · exact .inl (not_serving_tick_of_idle hidle)
  -- The client stays, so what asks for an answer is the probe, and it is due.
  right
  rw [due_tick_of_due (Bool.ne_false_iff.1 hdue.1) hdue.2] at hf
  have hasked : f ∈ (dueAt h.engagement.session now).filter Frame.asks :=
    List.mem_filter.2 ⟨hf, hasks⟩
  have hawake : ¬ (h.engagement.session.expire now).1.isIdle now = true := hidle
  rw [filter_dueAt, if_neg hawake] at hasked
  have hprobe := Option.mem_toList.1 (List.mem_filter.1 hasked).1
  unfold Session.keepalive at hprobe
  split at hprobe
  · cases hprobe
  next due hdueAt =>
  split at hprobe
  · cases hprobe
  next hnow =>
  unfold Session.keepaliveDue at hdueAt
  split at hdueAt
  · cases hdueAt
    exact Nat.le_trans (Nat.add_le_add_right (Nat.le_max_right _ _) _) (Nat.le_of_not_lt hnow)
  · cases hdueAt

end Asked

/-! ### Silence -/

/-- A handler whose client has been silent since the session was as `s₀`, with so many probes sent,
and will be as far as it is known what is still to come from it. -/
structure Silent (s₀ : Session) (future : Octets) (k : Nat) (h : Handler) : Prop where
  serving : h.isServing = true
  free : h.cancelled = false
  sends : h.connection.ending = .none
  noisy : h.connection.Noisy future
  session : s₀.Quiet k h.engagement.session

section Silent

variable {s₀ : Session} {future : Octets} {k : Nat} {h : Handler} {now : Instant}

theorem Silent.there (hs : h.Silent s₀ future k) : h.connection.ending ≠ .reset := by
  rw [hs.sends]
  exact fun h => nomatch h

/-- **Silence at work.** What a handler does before it looks at its timers asks nothing of a silent
client, and leaves the silence as it is. -/
theorem Silent.step (hs : h.Silent s₀ future k) {e : Event} (he : e.At now)
    (htick : ∀ t, e ≠ .tick t) :
    (h.step e).1.Silent s₀ future k ∧ (h.due e).filter Frame.asks = [] := by
  cases e with
  | arrive | endStream | cancel => exact absurd he id
  | tick t => exact absurd rfl (htick t)
  | answer call result => exact ⟨⟨hs.serving, hs.free, hs.sends, hs.noisy, hs.session⟩, rfl⟩
  | authenticated t result =>
    have hstage := isServing_iff.1 hs.serving
    dsimp only [Handler.step, authenticated, due]
    rw [hstage]
    exact ⟨hs, rfl⟩
  | turn t =>
    obtain ⟨hnoisy, hread⟩ := hs.noisy.read hs.sends
    have hturned := turned h t
    change ((h.turn t).getD (h, [])).1.Silent s₀ future k ∧ _
    generalize h.turn t = r at hturned
    cases hturned with
    | idle hidle => rw [hs.serving] at hidle; cases hidle
    | obeys _ hobeys => rw [hs.free] at hobeys; cases hobeys
    | waits hserving hcancelled hnext hpending =>
      refine ⟨hs, ?_⟩
      rw [due_turn_of_reads hserving hcancelled hnext, hpending]
      rfl
    | @completes engagement completion answer hserving hcancelled hnext =>
      obtain ⟨hsession, hanswer⟩ := completeNext_answer hnext
      have hquiet : s₀.Quiet k engagement.session := hsession ▸ hs.session.complete completion
      rw [due_turn_of_completes hserving hcancelled hnext, Option.getD_some,
        sendAll_of_there (h := { h with engagement }) hs.there hserving]
      refine ⟨⟨hserving, hcancelled, hs.sends, hs.noisy, hquiet⟩, ?_⟩
      -- What is sent for a result, if anything, is an answer.
      rw [List.filter_eq_nil_iff]
      intro f hf
      rw [Option.mem_toList, hanswer] at hf
      rw [complete_answer hf, asks_answer]
      exact Bool.false_ne_true
    | @reads connection result hserving hcancelled hnext hreads hresult =>
      rw [due_turn_of_reads hserving hcancelled hnext]
      have hending := ending_read h.connection
      rw [hreads] at hnoisy hread hending ⊢
      obtain rfl | ⟨command, n, cause, rfl⟩ := hread
      · exact absurd rfl hresult
      · -- What is no frame is reported, and the session does not hear of it.
        have hopen : connection.ending = .none := hending.trans hs.sends
        have hthere : connection.ending ≠ .reset := by
          rw [hopen]
          exact fun h => nomatch h
        change (({ h with connection } : Handler).send (.nack cause.status n)).1.Silent _ _ _ ∧ _
        rw [send_of_there (h := { h with connection }) hthere]
        exact ⟨⟨hserving, hcancelled, hopen, hnoisy, hs.session⟩, rfl⟩

/-- What comes of a look at the timers while a client is silent: what is asked of the client, and
the handler that is left. -/
inductive Ticked (s₀ : Session) (future : Octets) (k : Nat) (now : Instant) :
    List Frame → Handler → Prop where
  /-- The silence goes on. -/
  | stays {h' : Handler} (hsilent : h'.Silent s₀ future k) : Ticked s₀ future k now [] h'
  /-- The silence goes on, and the client is probed. -/
  | probes {h' : Handler} (hbound : s₀.state.isBound = true)
    (hdue : now = s₀.lastActivity + (k + 1) * s₀.config.enquireLinkInterval)
    (hearly : now < s₀.lastActivity + s₀.config.sessionTimeout)
    (hsilent : h'.Silent s₀ future (k + 1)) :
    Ticked s₀ future k now [.enquireLink (Session.numberAfter s₀.nextSequence k)] h'
  /-- The client has been silent for too long. -/
  | ends {h' : Handler} (hover : s₀.lastActivity + s₀.config.sessionTimeout ≤ now)
    (hreason : h'.reason? = some .idleTimeout) :
    Ticked s₀ future k now
      (if s₀.state.isBound then [.unbind (Session.numberAfter s₀.nextSequence k)] else []) h'

/-- **Silence at the timers.** The timers are looked at no later than there is something to do for
the client. -/
theorem Silent.tick (hs : h.Silent s₀ future k) (hnow : now ≤ s₀.alarm k) :
    Ticked s₀ future k now ((h.due (.tick now)).filter Frame.asks) (h.step (.tick now)).1 := by
  by_cases hdue : h.engagement.session.nextWakeup ≤ now
  case neg =>
    have hearly : now < h.engagement.session.nextWakeup := Nat.lt_of_not_le hdue
    have hstep : h.step (.tick now) = (h, []) := tick_of_early (.inr hearly)
    rw [hstep, due_tick_of_early (.inr hearly)]
    exact .stays hs
  have hstep := tick_of_there hs.there hs.serving hdue
  have hquiet : s₀.Quiet k (h.engagement.session.expire now).1 := hs.session.withTracker _
  rw [due_tick_of_due hs.serving hdue, filter_dueAt]
  change Ticked s₀ future k now _ (h.tick now).1
  rw [hstep]
  generalize (h.engagement.session.expire now).1 = s at hquiet ⊢
  have hsilent {j : Nat} {s' : Session} (hs' : s₀.Quiet j s') :
      (h.withSession s').Silent s₀ future j :=
    ⟨hs.serving, hs.free, hs.sends, hs.noisy, hs'⟩
  by_cases hidle : s.isIdle now = true
  case pos =>
    rw [if_pos hidle, if_pos hidle, hquiet.shutdownFrame]
    have hover := hquiet.isIdle_iff.1 hidle
    have hends : Ticked s₀ future k now _
        ((h.withSession s.shutdownFrame.1).finish .idleTimeout).1 := .ends hover rfl
    revert hends
    cases s₀.state.isBound with
    | false => exact id
    | true => exact id
  have hearly : now < s₀.lastActivity + s₀.config.sessionTimeout :=
    Nat.lt_of_not_le fun hover => hidle (hquiet.isIdle_iff.2 hover)
  rw [if_neg hidle, if_neg hidle]
  by_cases halarm : now < s₀.alarm k
  · rw [hquiet.keepalive_of_early halarm]
    exact .stays (hsilent hquiet)
  -- What there is to do cannot be to end, so it is to probe.
  have hnow : now = s₀.alarm k := Nat.le_antisymm hnow (Nat.le_of_not_lt halarm)
  unfold Session.alarm at hnow
  split at hnow
  case isFalse => exact absurd hnow (Nat.ne_of_lt hearly)
  next hbound =>
  have hprobe : now = s₀.lastActivity + (k + 1) * s₀.config.enquireLinkInterval := by
    obtain hidle | hprobe := min_choice (s₀.lastActivity + s₀.config.sessionTimeout)
      (s₀.lastActivity + (k + 1) * s₀.config.enquireLinkInterval)
    · exact absurd (hnow.trans hidle) (Nat.ne_of_lt hearly)
    · exact hnow.trans hprobe
  obtain ⟨s', hkeepalive, hquiet'⟩ := hquiet.keepalive_of_due hbound hprobe
  rw [hkeepalive]
  exact .probes hbound hprobe hearly (hsilent hquiet')

end Silent

end Handler

end Smpp
