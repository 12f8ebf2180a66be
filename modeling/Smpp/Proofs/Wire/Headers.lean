import Smpp.Proofs.Connection.Reassembly
import Smpp.Proofs.Wire.Canonical
import Smpp.Proofs.Wire.Confinement

/-!
# What a header says, wherever it is looked at

A header is looked at in several places: by the frame that is decoded, by whoever peeks at the
sequence number, and by a connection that has to say whose body could not be read. `Octets.wordAt`
is what they have to agree with, since it reads nothing and judges nothing.

* A frame that is decoded shows the words of its header (`Frame.shows_of_decode`). What is rebuilt
  from a message, the command of a bind from its role or a status from its name, is the word that it
  was read from; and a frame is left unread exactly if its command is not in `Frame.registered`.
* A connection that holds a whole frame reads that frame, or says what its header says, however the
  octets are spread over what has been read and what has arrived (`Connection.read_of_check`).
-/

namespace Smpp

namespace Octets

/-- The highest bit of a word is that of its first octet. -/
theorem isResponseCode_word32 (a b c d : UInt8) :
    isResponseCode (word32 a b c d) = a.toNat.testBit 7 := by
  have ha := a.toNat_lt
  have hb := b.toNat_lt
  have hc := c.toNat_lt
  have hd := d.toNat_lt
  have hhigh : a.toNat.testBit 7 = decide (a.toNat / 128 % 2 = 1) :=
    Nat.testBit_eq_decide_div_mod_eq
  unfold isResponseCode
  rw [toNat_word32, hhigh, decide_eq_decide]
  omega

end Octets

/-! ### Frames -/

namespace Frame

/-- The commands whose bodies are read: those of the thirteen messages, requests and responses. -/
def registered : List UInt32 :=
  [0x00000001, 0x00000002, 0x00000009, 0x80000001, 0x80000002, 0x80000009,
    0x00000004, 0x80000004, 0x00000006, 0x80000006, 0x00000015, 0x80000015, 0x80000000]

/-- A command is registered exactly if there is a kind of message for it. -/
theorem mem_registered_iff {w : UInt32} :
    w ∈ registered ↔
      ∃ c k, CommandId.ofCode? w = some c ∧ Message.Kind.ofCommand? c = some k := by
  refine ⟨fun h => ?_, ?_⟩
  · simp only [registered, List.mem_cons, List.not_mem_nil, or_false] at h
    obtain rfl | rfl | rfl | rfl | rfl | rfl | rfl | rfl | rfl | rfl | rfl | rfl | rfl := h <;>
      exact ⟨_, _, rfl, rfl⟩
  · rintro ⟨c, k, hc, hkind⟩
    rw [← CommandId.ofCode?_eq_some_iff.1 hc]
    cases c <;> first | decide | cases hkind

/-- What a frame says of its header is what stands in the octets that it was decoded from, and a
body is left unread only where the command is not registered. -/
structure Shows (bs : Octets) (n : Nat) (f : Frame) : Prop where
  command : f.command = bs.wordAt 4
  status : f.status = bs.wordAt 8
  sequence : f.sequence = bs.wordAt 12
  /-- The bit that marks a response is the highest of the fifth octet. -/
  response : f.isResponse = (bs.getD 4 0).toNat.testBit 7
  /-- Whoever only peeks sees the same number. -/
  peeked : peekSequence bs = some f.sequence
  /-- The frame has been left as it came exactly if its command is not registered, -/
  unread : (∃ command status sequence body, f = .unknown command status sequence body) ↔
    bs.wordAt 4 ∉ registered
  /-- and then it has all that follows the header, and nothing that follows the frame. -/
  kept : ∀ command status sequence body, f = .unknown command status sequence body →
    body = (bs.take n).drop headerSize

/-- Words and a body show in the frames that they stand for. -/
theorem ReadFrom.words {w : HeaderWords} {body : Octets} {f : Frame} (h : ReadFrom w body f) :
    f.command = w.command ∧ f.status = w.status ∧ f.sequence = w.sequence := by
  cases h with
  | meaningless hcommand => exact ⟨rfl, rfl, rfl⟩
  | reserved hcommand hstatus hkind => exact ⟨rfl, rfl, rfl⟩
  | message hcommand hstatus hkind hbody =>
    -- The command of a message is not kept with it; it is that of the kind that was read.
    rw [Frame.command, Message.command_of_readBody hkind hbody]
    exact ⟨hcommand, hstatus, rfl⟩

/-- The frames that are left unread are those of no registered command, with the whole body. -/
theorem ReadFrom.unread {w : HeaderWords} {body : Octets} {f : Frame} (h : ReadFrom w body f) :
    (f = .unknown w.command w.status w.sequence body ∧ w.command ∉ registered) ∨
      ((∃ s m, f = .known s w.sequence m) ∧ w.command ∈ registered) := by
  rw [mem_registered_iff]
  cases h with
  | meaningless hcommand =>
    refine .inl ⟨rfl, ?_⟩
    rintro ⟨c, k, hc, -⟩
    rw [hcommand] at hc
    cases hc
  | reserved hcommand hstatus hkind =>
    refine .inl ⟨rfl, ?_⟩
    rintro ⟨c, k, hc, hkind'⟩
    rw [← hcommand, CommandId.ofCode?_code] at hc
    cases hc
    rw [hkind] at hkind'
    cases hkind'
  | message hcommand hstatus hkind hbody =>
    exact .inr ⟨⟨_, _, rfl⟩, _, _, CommandId.ofCode?_eq_some_iff.2 hcommand, hkind⟩

/-- A frame that is decoded is one that the words and the body stand for which are there. -/
theorem readFrom_of_decode {largest n : Nat} {bs : Octets} {f : Frame}
    (h : decode largest bs = .ok (f, n)) :
    headerSize ≤ bs.length ∧
      ReadFrom ⟨bs.wordAt 0, bs.wordAt 4, bs.wordAt 8, bs.wordAt 12⟩
        ((bs.take n).drop headerSize) f := by
  obtain ⟨w, body, rest, hbs, -, hn, -, hfrom⟩ := decode_eq_ok_iff.1 h
  have hlength : (w.encode ++ body).length = n := by
    rw [List.length_append, HeaderWords.length_encode, hn]
  have hbody : (bs.take n).drop headerSize = body := by
    rw [hbs, List.take_left' hlength, List.drop_left' (HeaderWords.length_encode w)]
  have hread : HeaderWords.read bs = some (w, body ++ rest) := by
    rw [hbs, List.append_assoc, HeaderWords.read_encode_append]
  refine ⟨?_, ?_⟩
  · rw [hbs, List.length_append, hlength]
    omega
  · rw [hbody, ← HeaderWords.words_of_read hread]
    exact hfrom

/-- **A frame that is decoded shows its header.** -/
theorem shows_of_decode {largest n : Nat} {bs : Octets} {f : Frame}
    (h : decode largest bs = .ok (f, n)) : Shows bs n f := by
  obtain ⟨hlong, hfrom⟩ := readFrom_of_decode h
  obtain ⟨hcommand, hstatus, hsequence⟩ := hfrom.words
  refine ⟨hcommand, hstatus, hsequence, ?_, ?_, ?_, ?_⟩
  · rw [isResponse, hcommand]
    exact Octets.isResponseCode_word32 _ _ _ _
  · rw [peekSequence_eq, if_pos hlong, hsequence]
  · obtain ⟨rfl, hunregistered⟩ | ⟨⟨s, m, rfl⟩, hregistered⟩ := hfrom.unread
    · exact iff_of_true ⟨_, _, _, _, rfl⟩ hunregistered
    · refine iff_of_false ?_ (fun h => h hregistered)
      rintro ⟨_, _, _, _, h⟩
      cases h
  · rintro command status sequence body rfl
    obtain ⟨hf, -⟩ | ⟨⟨s, m, hf⟩, -⟩ := hfrom.unread
    · exact (Frame.unknown.inj hf).2.2.2
    · cases hf

end Frame

/-! ### Connections -/

namespace Connection

/-- What octets that start with a whole frame are read as. The command and the sequence number of a
frame whose octets are none are those of its header. -/
def resultOf (largest : Nat) (bs : Octets) : ReadResult :=
  match Frame.decode largest bs with
  | .ok (f, _) => .frame f
  | .error e => .error (.malformed (bs.wordAt 4) (bs.wordAt 12) e)

theorem resultOf_append {largest n : Nat} {bs : Octets} (h : Frame.check largest bs = .ok n)
    (more : Octets) : resultOf largest (bs ++ more) = resultOf largest bs := by
  have hdecode : Frame.decode largest (bs ++ more) = Frame.decode largest bs := by
    rw [Frame.decode_append_of_ok h more, ← Frame.decode_append_of_ok h [], List.append_nil]
  have hlong : 16 ≤ bs.length :=
    Nat.le_trans (Frame.headerSize_le_of_check h) (Frame.length_le_of_check h)
  unfold resultOf
  rw [hdecode, Octets.wordAt_append (by omega), Octets.wordAt_append (by omega)]

/-- A whole frame at the front of the buffer is taken off it. -/
theorem take_of_check {c : Connection} {n : Nat} (h : Frame.check c.largest c.buffer = .ok n) :
    c.take = some ({ c with buffer := c.buffer.drop n }, resultOf c.largest c.buffer) := by
  have hlong : headerSize ≤ c.buffer.length :=
    Nat.le_trans (Frame.headerSize_le_of_check h) (Frame.length_le_of_check h)
  unfold take resultOf Frame.decode
  rw [h]
  dsimp only [bind, Except.bind]
  cases Frame.ofOctets c.largest (c.buffer.take n) with
  | ok f => rfl
  | error e =>
    dsimp only
    cases hread : HeaderWords.read c.buffer with
    | none =>
      have hshort := HeaderWords.read_eq_none_iff.1 hread
      omega
    | some read =>
      have hwords : read.1 = _ := HeaderWords.words_of_read hread
      dsimp only
      rw [hwords]

/-- **A connection that holds a whole frame reads it**, or says what the header of the frame says;
what follows the frame it still holds. How much of it has been read before does not matter. -/
theorem read_of_check {c : Connection} {bs : Octets} {n : Nat} (hheld : c.buffer ++ c.arrived = bs)
    (h : Frame.check c.largest bs = .ok n) :
    c.read.2 = resultOf c.largest bs ∧ c.read.1.buffer ++ c.read.1.arrived = bs.drop n := by
  subst hheld
  cases hbuffer : Frame.check c.largest c.buffer with
  | ok m =>
    -- The frame is in the buffer already, and what has arrived behind it is of no account.
    have hlength : m = n := by
      rw [Frame.check_append_of_ok hbuffer c.arrived] at h
      exact Except.ok.inj h
    subst hlength
    rw [read_of_take (take_of_check hbuffer), resultOf_append hbuffer,
      List.drop_append_of_le_length (Frame.length_le_of_check hbuffer)]
    exact ⟨rfl, rfl⟩
  | error e =>
    have hchecked := Frame.checked c.largest c.buffer
    rw [hbuffer] at hchecked
    have hincomplete : e = .incomplete := by
      cases hchecked with
      | unstated => rfl
      | short => rfl
      | impossible =>
        rw [Frame.check_append_of_impossible hbuffer c.arrived] at h
        cases h
    subst hincomplete
    have htake : c.take = none := by
      unfold take
      rw [hbuffer]
    rw [read_of_fetched htake (take_of_check (c := c.fetched) h)]
    exact ⟨rfl, List.append_nil _⟩

end Connection

end Smpp
