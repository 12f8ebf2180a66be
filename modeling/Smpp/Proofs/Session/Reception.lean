import Smpp.Proofs.Session.Pending
import Smpp.Session

/-!
# What a frame calls for, case by case

`Session.receive` looks at how far the session has come and at the kind of the frame. `received`
lists the cases in which the two come together, each with what is asked of the session in it, and
`submitted` the cases of a submit, in the order in which they are looked for. What is said of frames
elsewhere goes by these cases and never into the definitions again.
-/

namespace Smpp

theorem Frame.isResponse_bindResp (status : CommandStatus) (n : UInt32) (r : BindResponse) :
    (Frame.known status n (.bindResp r)).isResponse = true := by
  obtain ⟨role, _⟩ := r
  cases role <;> rfl

theorem Frame.isResponse_bind (status : CommandStatus) (n : UInt32) (b : Bind) :
    (Frame.known status n (.bind b)).isResponse = false := by
  obtain ⟨role, _⟩ := b
  cases role <;> rfl

namespace Session

variable {s : Session}

/-- A session that a frame has come to. -/
def touched (s : Session) (now : Instant) : Session := { s with lastActivity := now }

/-- An authentication that ends touches the session once more. -/
theorem conclude_touched (now decided : Instant) (n : UInt32) (b : Bind) (verdict : AuthResult) :
    (s.touched now).conclude decided n b verdict = s.conclude decided n b verdict := rfl

/-! ### Submits -/

/-- The cases of a submit with a number, in the order in which they are looked for. -/
inductive Submitted (s : Session) (now : Instant) (inFlight : Nat) (n : UInt32) (b : Submit) :
    Session × Action → Prop where
  /-- The client may not submit. -/
  | barred (htransmit : s.state.canTransmit = false) :
    Submitted s now inFlight n b (s, .reply (.submitRefused n .invalidBindStatus))
  /-- The number is pending, whether or not there is room for another message. -/
  | duplicate (htransmit : s.state.canTransmit = true) (hpending : s.tracker.isPending n = true) :
    Submitted s now inFlight n b (s, .reply (.nack .unknownError n))
  /-- Too many messages are with the backend. -/
  | throttled (htransmit : s.state.canTransmit = true) (hpending : s.tracker.isPending n = false)
    (hfull : s.config.maxPendingSubmits ≤ inFlight) :
    Submitted s now inFlight n b (s, .reply (.submitRefused n .throttled))
  /-- The message goes to the backend, in the name of the client. -/
  | taken {tracker : Tracker} {request : PendingRequest}
    (htransmit : s.state.canTransmit = true) (hroom : inFlight < s.config.maxPendingSubmits)
    (htrack : s.tracker.track n .submitSm now = some (tracker, request)) :
    Submitted s now inFlight n b
      ({ s with tracker }, .submit n (b.submission (s.systemId?.getD "")))

/-- **What a submit calls for.** -/
theorem submitted (s : Session) (now : Instant) (inFlight : Nat) (n : UInt32) (b : Submit) :
    Submitted s now inFlight n b (s.submit now inFlight n b) := by
  unfold submit
  split
  · next hbarred =>
    rw [Bool.not_eq_true'] at hbarred
    exact .barred hbarred
  next hallowed =>
  have htransmit : s.state.canTransmit = true := by simpa using hallowed
  split
  · next hfull =>
    obtain ⟨hfull, hfree⟩ := hfull
    rw [Bool.not_eq_true'] at hfree
    exact .throttled htransmit hfree hfull
  next hroom =>
  -- Past the limit only a number that is pending gets here, and that number is not tracked again.
  split
  · next htrack =>
    refine .duplicate htransmit ?_
    by_contra hfree
    unfold Tracker.track at htrack
    rw [if_neg hfree] at htrack
    cases htrack
  · next tracker request htrack =>
    refine .taken htransmit ?_ htrack
    have hfree := (Tracker.track_eq_some_iff.1 htrack).1
    by_contra hfull
    exact hroom ⟨Nat.le_of_not_lt hfull, by rw [hfree]; rfl⟩

/-! ### Frames -/

/-- The cases of a frame, by its kind and by how far the session has come. -/
inductive Received (s : Session) (now : Instant) (inFlight : Nat) :
    Frame → Session × Action → Prop where
  /-- The session is over. -/
  | late {f : Frame} (hover : s.state = .closed) : Received s now inFlight f (s, .ignore)
  /-- The command has no meaning. -/
  | unknown {command status n : UInt32} {body : Octets} (hactive : s.state ≠ .closed) :
    Received s now inFlight (.unknown command status n body)
      (s.touched now, .reply (.nack .invalidCommandId n))
  /-- A client that is bound binds. -/
  | rebind {status : CommandStatus} {n : UInt32} {b : Bind} (hbound : s.state.isBound = true) :
    Received s now inFlight (.known status n (.bind b))
      (s.touched now, .reply (.bindRefused b.role n .alreadyBound))
  /-- A client binds. -/
  | bind {status : CommandStatus} {n : UInt32} {b : Bind} (hopen : s.state = .opened) :
    Received s now inFlight (.known status n (.bind b)) (s.touched now, .authenticate n b)
  /-- A client that is bound unbinds. -/
  | unbind {status : CommandStatus} {n : UInt32} (hbound : s.state.isBound = true) :
    Received s now inFlight (.known status n .unbind)
      ((s.touched now).close, .replyAndClose (.unbindResp .ok n))
  /-- A client that is not bound unbinds. -/
  | unbound {status : CommandStatus} {n : UInt32} (hopen : s.state = .opened) :
    Received s now inFlight (.known status n .unbind)
      (s.touched now, .reply (.unbindResp .invalidBindStatus n))
  /-- A client submits a message. -/
  | submit {status : CommandStatus} {n : UInt32} {b : Submit} {r : Session × Action}
    (hactive : s.state ≠ .closed) (hsubmit : Submitted (s.touched now) now inFlight n b r) :
    Received s now inFlight (.known status n (.submit b)) r
  /-- A client probes. -/
  | probe {status : CommandStatus} {n : UInt32} (hactive : s.state ≠ .closed) :
    Received s now inFlight (.known status n .enquireLink)
      (s.touched now, .reply (.enquireLinkResp n))
  /-- A client answers. -/
  | response {f : Frame} (hactive : s.state ≠ .closed) (hresponse : f.isResponse = true) :
    Received s now inFlight f (s.touched now, .ignore)

theorem receive_of_closed (now : Instant) (inFlight : Nat) (h : s.state = .closed) (f : Frame) :
    s.receive now inFlight f = (s, .ignore) :=
  if_pos h

theorem receive_of_active (now : Instant) (inFlight : Nat) (h : s.state ≠ .closed) (f : Frame) :
    s.receive now inFlight f = (s.touched now).act now inFlight f :=
  if_neg h

theorem active_of_opened (h : s.state = .opened) : s.state ≠ .closed := by
  rw [h]
  exact fun h => nomatch h

theorem active_of_isBound (h : s.state.isBound = true) : s.state ≠ .closed := by
  intro hover
  rw [hover] at h
  cases h

theorem state_eq_opened_of_active (hactive : s.state ≠ .closed)
    (hbound : ¬ s.state.isBound = true) : s.state = .opened := by
  cases hstate : s.state with
  | opened => rfl
  | bound role => rw [hstate] at hbound; exact absurd rfl hbound
  | closed => exact absurd hstate hactive

/-- **What a frame calls for.** -/
theorem received (s : Session) (now : Instant) (inFlight : Nat) (f : Frame) :
    Received s now inFlight f (s.receive now inFlight f) := by
  by_cases hactive : s.state = .closed
  · rw [receive_of_closed now inFlight hactive]
    exact .late hactive
  rw [receive_of_active now inFlight hactive]
  cases f with
  | unknown command status n body => exact .unknown hactive
  | known status n m =>
    cases m with
    | bind b =>
      -- Only a bind and an unbind ask how far the session has come before they are told apart.
      by_cases hbound : s.state.isBound = true
      · have hact : (s.touched now).act now inFlight (.known status n (.bind b)) =
            (s.touched now, .reply (.bindRefused b.role n .alreadyBound)) := if_pos hbound
        rw [hact]
        exact .rebind hbound
      · have hact : (s.touched now).act now inFlight (.known status n (.bind b)) =
            (s.touched now, .authenticate n b) := if_neg hbound
        rw [hact]
        exact .bind (state_eq_opened_of_active hactive hbound)
    | unbind =>
      by_cases hbound : s.state.isBound = true
      · have hact : (s.touched now).act now inFlight (.known status n .unbind) =
            ((s.touched now).close, .replyAndClose (.unbindResp .ok n)) := if_pos hbound
        rw [hact]
        exact .unbind hbound
      · have hact : (s.touched now).act now inFlight (.known status n .unbind) =
            (s.touched now, .reply (.unbindResp .invalidBindStatus n)) := if_neg hbound
        rw [hact]
        exact .unbound (state_eq_opened_of_active hactive hbound)
    | submit b => exact .submit hactive (submitted (s.touched now) now inFlight n b)
    | enquireLink => exact .probe hactive
    | bindResp r => exact .response hactive (Frame.isResponse_bindResp status n r)
    | unbindResp => exact .response hactive rfl
    | submitResp messageId => exact .response hactive rfl
    | enquireLinkResp => exact .response hactive rfl
    | genericNack => exact .response hactive rfl

end Session

end Smpp
