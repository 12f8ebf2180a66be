import Smpp.Proofs.Session.Admission
import Smpp.Proofs.Wire.Headers

/-!
# Responses come to nothing

A server asks its clients for little, and what they answer only shows that they are there. A session
that gets a response notes the time and goes on as before: no state changes, no message is given up
or answered for, and the backend hears nothing (`responses_change_nothing`).

What it returns depends on whether the body has been read. A response that has been read is passed
over. A command without a meaning is told so under its number, whether or not it has the bit that
marks a response, since all that is known of it is that it is not served
(`unknown_response_answered`).
-/

namespace Smpp

namespace Session

/-- A session that has noted that its client is there, unless it is over. -/
def heard (s : Session) (now : Instant) : Session :=
  if s.state = .closed then s else s.touched now

/-- What a session returns for a response. -/
def toResponse (s : Session) : Frame → Action
  | .known .. => .ignore
  | .unknown _ _ n _ =>
    if s.state = .closed then .ignore else .reply (.nack .invalidCommandId n)

variable {s : Session} {now : Instant}

@[simp] theorem heard_of_closed (h : s.state = .closed) : s.heard now = s := if_pos h

@[simp] theorem heard_of_active (h : s.state ≠ .closed) : s.heard now = s.touched now := if_neg h

/-- **What a response calls for**, whatever it says and however far the session has come. -/
theorem receive_of_response {f : Frame} (h : f.isResponse = true) (s : Session) (now : Instant)
    (inFlight : Nat) : s.receive now inFlight f = (s.heard now, s.toResponse f) := by
  cases f with
  | unknown command status n body =>
    -- A frame that has not been read is not asked whether it is a response.
    by_cases hover : s.state = .closed
    · rw [receive_of_closed now inFlight hover, heard_of_closed hover, toResponse, if_pos hover]
    · rw [receive_of_active now inFlight hover, heard_of_active hover, toResponse, if_neg hover]
      rfl
  | known status n m =>
    have hreceived := received s now inFlight (.known status n m)
    generalize s.receive now inFlight (.known status n m) = r at hreceived
    cases hreceived with
    | late hover => rw [heard_of_closed hover, toResponse]
    | response hactive hresponse => rw [heard_of_active hactive, toResponse]
    -- All others are requests, and their commands do not have the bit.
    | rebind hbound =>
      rw [Frame.isResponse_bind] at h
      cases h
    | bind hopen =>
      rw [Frame.isResponse_bind] at h
      cases h
    | unbind hbound => cases h
    | unbound hopen => cases h
    | submit hactive hsubmit => cases h
    | probe hactive => cases h

/-- A response that has been read is passed over. -/
theorem toResponse_of_read {f : Frame}
    (h : ¬ ∃ command status n body, f = .unknown command status n body) :
    s.toResponse f = .ignore := by
  cases f with
  | known status n m => rfl
  | unknown command status n body => exact absurd ⟨_, _, _, _, rfl⟩ h

/-- Nothing that is returned for a response leads to the backend. -/
theorem toResponse_plain (s : Session) (f : Frame) :
    (∀ n m, s.toResponse f ≠ .submit n m) ∧ ∀ n b, s.toResponse f ≠ .authenticate n b := by
  unfold toResponse
  split
  · exact ⟨fun _ _ => nofun, fun _ _ => nofun⟩
  · split
    · exact ⟨fun _ _ => nofun, fun _ _ => nofun⟩
    · exact ⟨fun _ _ => nofun, fun _ _ => nofun⟩

theorem toResponse_of_closed (h : s.state = .closed) (f : Frame) : s.toResponse f = .ignore := by
  cases f with
  | known status n m => rfl
  | unknown command status n body => exact if_pos h

end Session

/-- What hands no message over changes the session and not the calls. -/
theorem Engagement.react_fst {e : Engagement} {r : Session × Action}
    (h : ∀ n m, r.2 ≠ .submit n m) : (e.react r).1 = { e with session := r.1 } := by
  obtain ⟨s, a⟩ := r
  cases a with
  | submit n m => exact absurd rfl (h n m)
  | reply f => rfl
  | replyAndClose f => rfl
  | authenticate n b => rfl
  | ignore => rfl

namespace Desk

/-- What becomes of a response that is handed to a session: the backend, its answers and the clock
are as they were. -/
theorem dispatch_of_response {f : Frame} (h : f.isResponse = true) (d : Desk) :
    let r := (d.engagement.session.heard d.now, d.engagement.session.toResponse f)
    d.dispatch f =
      ({ d with engagement := { d.engagement with session := r.1 } }, (d.engagement.react r).2) := by
  intro r
  have hreceive : d.engagement.session.receive d.now d.engagement.calls.inFlight f = r :=
    Session.receive_of_response h d.engagement.session d.now d.engagement.calls.inFlight
  obtain ⟨hsubmit, hbind⟩ := d.engagement.session.toResponse_plain f
  rw [(dispatch_of_plain hreceive hsubmit hbind).1, Engagement.react_fst hsubmit]

end Desk

/-- **Responses change nothing.** Let a response be decoded from any octets, and be dispatched to a
session in any state. The backend is not asked, what is pending and what is with the backend stay as
they are, and all that is new of the session is when its client was last heard of; if the session is
over, not even that. A response whose command is registered is passed over, and after the end every
response is. Before the end a response whose command has no meaning is refused for that under its
own number. -/
theorem responses_change_nothing (d : Desk) {largest n : Nat} {bs : Octets} {f : Frame}
    (hdecode : Frame.decode largest bs = .ok (f, n)) (hresponse : f.isResponse = true) :
    let s := d.engagement.session
    let r := d.dispatch f
    r.1 = { d with engagement := { d.engagement with
      session := if s.state = .closed then s else { s with lastActivity := d.now } } } ∧
    (s.state = .closed ∨ f.command ∈ Frame.registered → r.2 = .ignore) ∧
    (s.state ≠ .closed → CommandId.ofCode? f.command = none →
      r.2 = .reply (.nack .invalidCommandId f.sequence)) := by
  intro s r
  have hr : r = _ := d.dispatch_of_response hresponse
  have hshows := Frame.shows_of_decode hdecode
  refine ⟨?_, ?_, ?_⟩
  · rw [hr]
    rfl
  · intro h
    have hignore : s.toResponse f = .ignore := by
      obtain hover | hregistered := h
      · exact Session.toResponse_of_closed hover f
      · refine Session.toResponse_of_read fun hunread => ?_
        rw [hshows.command] at hregistered
        exact hshows.unread.1 hunread hregistered
    rw [hr, hignore]
    rfl
  · intro hactive hmeaningless
    have hunregistered : bs.wordAt 4 ∉ Frame.registered := by
      rw [← hshows.command, Frame.mem_registered_iff]
      rintro ⟨c, k, hc, -⟩
      rw [hmeaningless] at hc
      cases hc
    -- So the frame has been left unread, and the session knows no more of it than its number.
    obtain ⟨command, status, k, body, rfl⟩ := hshows.unread.2 hunregistered
    have hanswer : s.toResponse (.unknown command status k body) =
        .reply (.nack .invalidCommandId k) := if_neg hactive
    rw [hr, hanswer]
    rfl

/-- The answer to an unbind that was never sent. -/
theorem responses_change_nothing_unbindResp :
    let d : Desk := Desk.start {} (.memory {})
    let bs : Octets := [0, 0, 0, 16, 0x80, 0, 0, 6, 0, 0, 0, 0, 0, 0, 0, 7]
    let f : Frame := .known .ok 7 .unbindResp
    Frame.decode 64 bs = .ok (f, 16) ∧ f.isResponse = true ∧ d.dispatch f = (d, .ignore) := by
  intro d bs f
  have hdecode : Frame.decode 64 bs = .ok (f, 16) := by cbv
  obtain ⟨hdesk, hignored, -⟩ := responses_change_nothing d hdecode rfl
  exact ⟨hdecode, rfl, Prod.ext hdesk (hignored (.inr (by decide)))⟩

/-- A response without a meaning is answered: the number of this one is 7, and its command is that
of a request which is not served, with the bit of a response. -/
theorem unknown_response_answered :
    let d : Desk := Desk.start {} (.memory {})
    let bs : Octets := [0, 0, 0, 16, 0x80, 0, 1, 3, 0, 0, 0, 0, 0, 0, 0, 7]
    let f : Frame := .unknown 0x80000103 0 7 []
    Frame.decode 64 bs = .ok (f, 16) ∧ f.isResponse = true ∧
      (d.dispatch f).2 = .reply (.nack .invalidCommandId 7) ∧ (d.dispatch f).2 ≠ .ignore := by
  intro d bs f
  have hdecode : Frame.decode 64 bs = .ok (f, 16) := by cbv
  refine ⟨hdecode, rfl, rfl, ?_⟩
  intro hignored
  cases hignored

end Smpp
