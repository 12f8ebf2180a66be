import Smpp.Proofs.Handler.Output
import Smpp.Proofs.Wire.Headers

/-!
# Every answer names its request

A frame is answered from two sides. If it can be read, the session answers it under the sequence
number that the frame has, at once or when the backend has; if it cannot, the handler answers under
the number that the connection has found in its octets. `header_views_agree` says that both are the
number in the header, because all who look at a header see the same (`Frame.Shows`).

`Action.numbers` are the numbers that a session goes on with: those of the frames that it writes,
and those that it keeps for the answer of the backend.
-/

namespace Smpp

/-- The numbers under which a frame is answered, or is kept until its answer comes. -/
def Action.numbers : Action → List UInt32
  | reply f | replyAndClose f => [f.sequence]
  | submit n _ | authenticate n _ => [n]
  | ignore => []

namespace Session

/-- **A session goes on with the number of the frame and with no other.** -/
theorem numbers_receive (s : Session) (now : Instant) (inFlight : Nat) (f : Frame) :
    ∀ k ∈ (s.receive now inFlight f).2.numbers, k = f.sequence := by
  have hreceived := received s now inFlight f
  generalize s.receive now inFlight f = r at hreceived
  intro k hk
  cases hreceived with
  | late hover => cases hk
  | unknown hactive => exact List.mem_singleton.1 hk
  | rebind hbound => exact List.mem_singleton.1 hk
  | bind hopen => exact List.mem_singleton.1 hk
  | unbind hbound => exact List.mem_singleton.1 hk
  | unbound hopen => exact List.mem_singleton.1 hk
  | submit hactive hsubmit =>
    -- Refused or handed over, a submit keeps its number.
    cases hsubmit with
    | barred htransmit => exact List.mem_singleton.1 hk
    | duplicate htransmit hpending => exact List.mem_singleton.1 hk
    | throttled htransmit hpending hfull => exact List.mem_singleton.1 hk
    | taken htransmit hroom htrack => exact List.mem_singleton.1 hk
  | probe hactive => exact List.mem_singleton.1 hk
  | response hactive hresponse => cases hk

theorem numbers_conclude (s : Session) (now : Instant) (n : UInt32) (b : Bind)
    (verdict : AuthResult) : ∀ k ∈ (s.conclude now n b verdict).2.numbers, k = n := by
  unfold conclude
  intro k hk
  cases verdict with
  | ok _ => exact List.mem_singleton.1 hk
  | error e =>
    dsimp only at hk
    split at hk
    · exact List.mem_singleton.1 hk
    · exact List.mem_singleton.1 hk

/-- A bind that is decided upon keeps its number too. -/
theorem numbers_dispatch (s : Session) (now : Instant) (inFlight : Nat) (f : Frame)
    (verdict : AuthResult) (decided : Instant) :
    ∀ k ∈ (s.dispatch now inFlight f verdict decided).2.numbers, k = f.sequence := by
  have hnumbers := s.numbers_receive now inFlight f
  unfold dispatch
  generalize s.receive now inFlight f = r at hnumbers
  obtain ⟨s', a⟩ := r
  cases a with
  | authenticate n b =>
    have hn : n = f.sequence := hnumbers n (List.mem_singleton.2 rfl)
    rw [← hn]
    exact s'.numbers_conclude decided n b verdict
  | reply g => exact hnumbers
  | replyAndClose g => exact hnumbers
  | submit n m => exact hnumbers
  | ignore => exact hnumbers

end Session

namespace Handler

/-- The frames that are written for a frame are those of what the session does. -/
theorem sequence_of_receive {e : Engagement} {now : Instant} {f g : Frame}
    (h : g ∈ (e.receive now f).2.frames) : g.sequence = f.sequence := by
  have hnumbers := e.session.numbers_receive now e.calls.inFlight f
  rw [Engagement.receive, frames_react] at h
  generalize e.session.receive now e.calls.inFlight f = r at hnumbers h
  obtain ⟨s, a⟩ := r
  cases a with
  | reply r => exact hnumbers _ (by rw [List.mem_singleton.1 h]; exact List.mem_singleton.2 rfl)
  | replyAndClose r =>
    exact hnumbers _ (by rw [List.mem_singleton.1 h]; exact List.mem_singleton.2 rfl)
  | submit n m => cases h
  | authenticate n b => cases h
  | ignore => cases h

/-- **What goes out for a whole frame has the number in its header**, whether or not the frame can
be read. -/
theorem sequence_of_dueToReading {largest : Nat} {bs : Octets} (h : Handler) (now : Instant)
    {g : Frame} (hg : g ∈ h.dueToReading now (Connection.resultOf largest bs)) :
    g.sequence = bs.wordAt 12 := by
  unfold Connection.resultOf at hg
  cases hread : Frame.decode largest bs with
  | ok r =>
    -- The session answers under the number that the frame shows.
    rw [hread] at hg
    calc
      g.sequence = r.1.sequence := sequence_of_receive hg
      _ = bs.wordAt 12 := (Frame.shows_of_decode hread).sequence
  | error e =>
    -- The handler answers itself, under the number that the connection has found.
    rw [hread] at hg
    rw [List.mem_singleton.1 hg]
    rfl

end Handler

/-- **All views of a header agree.** Let octets start with a whole frame. If it can be read, the
frame shows the words of its header, its status and its sequence number among them, to whoever asks
it, and is left unread exactly if its command is not registered; and a connection that holds the
octets reads it. If it cannot be read, the connection says so under the command and the sequence
number of the header. So whatever a handler writes for the frame has the sequence number in its
header, and so has all that a session goes on with, be it a message that is handed over or a bind
that is decided upon later. -/
theorem header_views_agree {largest n : Nat} {bs : Octets}
    (hcheck : Frame.check largest bs = .ok n) :
    (∀ (f : Frame) (m : Nat), Frame.decode largest bs = .ok (f, m) → m = n ∧ f.Shows bs n) ∧
    (∀ c : Connection, c.largest = largest → c.buffer ++ c.arrived = bs →
      (∀ (f : Frame) (m : Nat), Frame.decode largest bs = .ok (f, m) → c.read.2 = .frame f) ∧
      (∀ e : WireError, Frame.decode largest bs = .error e →
        c.read.2 = .error (.malformed (bs.wordAt 4) (bs.wordAt 12) e)) ∧
      c.read.1.buffer ++ c.read.1.arrived = bs.drop n) ∧
    (∀ (h : Handler) (now : Instant), h.connection.largest = largest →
      h.connection.buffer ++ h.connection.arrived = bs →
      ∀ r ∈ (h.dueToReading now h.connection.read.2).map Frame.onWire,
        r.sequence = bs.wordAt 12) ∧
    ∀ (f : Frame) (m : Nat), Frame.decode largest bs = .ok (f, m) →
      ∀ (s : Session) (now : Instant) (inFlight : Nat),
        (∀ k ∈ (s.receive now inFlight f).2.numbers, k = bs.wordAt 12) ∧
        ∀ (verdict : AuthResult) (decided : Instant),
          ∀ k ∈ (s.dispatch now inFlight f verdict decided).2.numbers, k = bs.wordAt 12 := by
  have hshows : ∀ (f : Frame) (m : Nat), Frame.decode largest bs = .ok (f, m) →
      m = n ∧ f.Shows bs n := by
    intro f m hdecode
    -- What is decoded is what was found to be a frame, so it has the length that was found.
    have hm : m = n := by
      rw [Frame.decode_of_ok hcheck] at hdecode
      cases hparse : Frame.parse largest (bs.take n) with
      | ok g => rw [hparse] at hdecode; cases hdecode; rfl
      | error e => rw [hparse] at hdecode; cases hdecode
    subst hm
    exact ⟨rfl, Frame.shows_of_decode hdecode⟩
  refine ⟨hshows, ?_, ?_, ?_⟩
  · rintro c rfl hheld
    obtain ⟨hread, hrest⟩ := Connection.read_of_check hheld hcheck
    refine ⟨fun f m hdecode => ?_, fun e hdecode => ?_, hrest⟩
    · rw [hread, Connection.resultOf, hdecode]
    · rw [hread, Connection.resultOf, hdecode]
  · -- What goes out for a frame that cannot be written has its number all the same.
    rintro h now rfl hheld r hr
    rw [(Connection.read_of_check hheld hcheck).1, List.mem_map] at hr
    obtain ⟨g, hg, rfl⟩ := hr
    rw [Frame.sequence_onWire]
    exact h.sequence_of_dueToReading now hg
  · intro f m hdecode s now inFlight
    rw [← (hshows f m hdecode).2.sequence]
    exact ⟨s.numbers_receive now inFlight f, s.numbers_dispatch now inFlight f⟩

/-- A probe with a body it may not have, the sequence number 77 in the middle of what had been read
when the rest arrived. -/
theorem header_views_agree_malformed :
    let bs : Octets := [0, 0, 0, 17, 0, 0, 0, 21, 0, 0, 0, 0, 0, 0, 0, 77, 1, 0, 0]
    let c : Connection := ⟨64, bs.take 14, bs.drop 14, .none⟩
    Frame.check 64 bs = .ok 17 ∧
      c.read.2 = .error (.malformed 21 77 (.invalid "body" (.unexpectedBody "EnquireLink" 1))) ∧
        c.read.1.buffer ++ c.read.1.arrived = [0, 0] := by
  intro bs c
  have hcheck : Frame.check 64 bs = .ok 17 := by cbv
  have hdecode : Frame.decode 64 bs =
      .error (.invalid "body" (.unexpectedBody "EnquireLink" 1)) := by cbv
  obtain ⟨-, hreads, -⟩ := header_views_agree hcheck
  obtain ⟨-, hmalformed, hrest⟩ := hreads c rfl (List.take_append_drop 14 bs)
  have hcommand : bs.wordAt 4 = 21 := by cbv
  have hsequence : bs.wordAt 12 = 77 := by cbv
  rw [hcommand, hsequence] at hmalformed
  exact ⟨hcheck, hmalformed _ hdecode, hrest⟩

end Smpp
