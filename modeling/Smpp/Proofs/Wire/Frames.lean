import Smpp.Proofs.Wire.Bodies
import Smpp.Pdu.Frame

/-!
# Which octets are a frame

`Frame.decode_eq_ok_iff` takes decoding apart: octets decode to a frame exactly if they start with
the words of a header and a body, the length in the header is that of the two together and within
the bounds, and the frame is one that the words and the body stand for. `Frame.ReadFrom` lists the
three ways in which words and a body stand for a frame.

What follows the body occurs on neither side, so nothing after a frame can matter to it.
-/

namespace Smpp

namespace HeaderWords

/-- **The words of a header are read off the front of octets exactly if these start with their
written form.** -/
theorem read_eq_some_iff {w : HeaderWords} {bs rest : Octets} :
    read bs = some (w, rest) ↔ bs = w.encode ++ rest := by
  refine ⟨?_, ?_⟩
  · intro h
    unfold read at h
    split at h
    · cases h
      simp only [encode, Octets.ofWord32_word32, List.cons_append, List.nil_append]
    · cases h
  · rintro rfl
    exact read_encode_append w rest

/-- The first word of a header is the stated length. -/
@[simp] theorem statedLength_encode_append (w : HeaderWords) (rest : Octets) :
    Frame.statedLength (w.encode ++ rest) = some w.length.toNat := by
  simp only [encode, Octets.ofWord32, List.cons_append, List.nil_append, Frame.statedLength,
    Octets.word32_octets]

theorem exists_eq_encode_append {bs : Octets} (h : headerSize ≤ bs.length) :
    ∃ (w : HeaderWords) (body : Octets), bs = w.encode ++ body := by
  match bs, h with
  | a :: b :: c :: d :: e :: f :: g :: i :: j :: k :: l :: m :: n :: o :: p :: q :: body, _ =>
    exact ⟨_, body, read_eq_some_iff.1 rfl⟩

section Judge

variable {w : HeaderWords} {largest : Nat} (hmin : headerSize ≤ w.length.toNat)
  (hmax : w.length.toNat ≤ largest)

include hmin hmax

theorem judge_of_meaningless (hcommand : CommandId.ofCode? w.command = none) :
    w.judge largest = .error (.unknownCommand w.command) := by
  have hbounds : checkLength largest w.length.toNat = .ok () := if_pos ⟨hmin, hmax⟩
  unfold judge
  rw [hbounds, hcommand]
  rfl

theorem judge_of_status {c : CommandId} (hcommand : CommandId.ofCode? w.command = some c)
    (hstatus : CommandStatus.ofCode? w.status = none) :
    w.judge largest = .error (.invalidStatus w.status) := by
  have hbounds : checkLength largest w.length.toNat = .ok () := if_pos ⟨hmin, hmax⟩
  unfold judge
  rw [hbounds, hcommand, hstatus]
  rfl

theorem judge_of_meaning {c : CommandId} {s : CommandStatus}
    (hcommand : CommandId.ofCode? w.command = some c)
    (hstatus : CommandStatus.ofCode? w.status = some s) :
    w.judge largest = .ok ⟨w.length, c, s, w.sequence⟩ := by
  have hbounds : checkLength largest w.length.toNat = .ok () := if_pos ⟨hmin, hmax⟩
  unfold judge
  rw [hbounds, hcommand, hstatus]
  rfl

end Judge

end HeaderWords

namespace Frame

/-- The frames that the words of a header and a body stand for. -/
inductive ReadFrom (w : HeaderWords) (body : Octets) : Frame → Prop where
  /-- The command has no meaning. -/
  | meaningless (hcommand : CommandId.ofCode? w.command = none) :
    ReadFrom w body (.unknown w.command w.status w.sequence body)
  /-- The command has a meaning and no kind, and the status has a meaning. -/
  | reserved {c : CommandId} {s : CommandStatus} (hcommand : c.code = w.command)
    (hstatus : s.code = w.status) (hkind : Message.Kind.ofCommand? c = none) :
    ReadFrom w body (.unknown w.command w.status w.sequence body)
  /-- The command is of a kind, and the body is one of that kind. -/
  | message {c : CommandId} {s : CommandStatus} {k : Message.Kind} {m : Message} {left : Octets}
    (hcommand : c.code = w.command) (hstatus : s.code = w.status)
    (hkind : Message.Kind.ofCommand? c = some k) (hbody : k.readBody c body = .ok m left) :
    ReadFrom w body (.known s w.sequence m)

section Judged

variable {largest : Nat} {w : HeaderWords} {bs body : Octets}
  (hread : HeaderWords.read bs = some (w, body))

include hread

theorem ofOctets_of_meaningless (h : w.judge largest = .error (.unknownCommand w.command)) :
    ofOctets largest bs = .ok (.unknown w.command w.status w.sequence body) := by
  unfold ofOctets
  rw [hread]
  dsimp only
  rw [h]

theorem ofOctets_of_status (h : w.judge largest = .error (.invalidStatus w.status)) :
    ofOctets largest bs = .error (.invalidStatus w.status) := by
  unfold ofOctets
  rw [hread]
  dsimp only
  rw [h]

theorem ofOctets_of_meaning {header : Header} (h : w.judge largest = .ok header) {f : Frame} :
    ofOctets largest bs = .ok f ↔ ∃ left, readBody header body = .ok f left := by
  unfold ofOctets
  rw [hread]
  dsimp only
  rw [h]
  dsimp only
  cases readBody header body with
  | ok g left => simp
  | error e left => simp

end Judged

/-- The body of a header is kept as it is if the command is reserved, and otherwise read as one of
the command's kind. -/
theorem readBody_eq_ok_iff {c : CommandId} {s : CommandStatus} {length sequence : UInt32}
    {body : Octets} {f : Frame} :
    (∃ left, readBody ⟨length, c, s, sequence⟩ body = .ok f left) ↔
      (Message.Kind.ofCommand? c = none ∧ f = .unknown c.code s.code sequence body) ∨
        ∃ k m left, Message.Kind.ofCommand? c = some k ∧ k.readBody c body = .ok m left ∧
          f = .known s sequence m := by
  unfold readBody
  dsimp only
  cases hkind : Message.Kind.ofCommand? c with
  | none => simp [eq_comm]
  | some k =>
    simp only [Message.Kind.read, hkind, if_true]
    cases hbody : k.readBody c body with
    | ok m left => simp [hbody, eq_comm]
    | error e left => simp [hbody]

/-- **The octets of one frame are read as what their words and their body stand for.** -/
theorem ofOctets_eq_ok_iff {largest : Nat} {w : HeaderWords} {bs body : Octets} {f : Frame}
    (hread : HeaderWords.read bs = some (w, body)) (hmin : headerSize ≤ w.length.toNat)
    (hmax : w.length.toNat ≤ largest) : ofOctets largest bs = .ok f ↔ ReadFrom w body f := by
  -- The command is judged before the status, so a status without a meaning only matters where the
  -- command has one.
  cases hcommand : CommandId.ofCode? w.command with
  | none =>
    rw [ofOctets_of_meaningless hread (HeaderWords.judge_of_meaningless hmin hmax hcommand)]
    refine ⟨?_, ?_⟩
    · intro h
      cases h
      exact .meaningless hcommand
    · rintro (_ | _ | ⟨hc, -, -, -⟩)
      · rfl
      · rfl
      · rw [CommandId.ofCode?_eq_some_iff.2 hc] at hcommand
        cases hcommand
  | some c =>
    have hc := CommandId.ofCode?_eq_some_iff.1 hcommand
    cases hstatus : CommandStatus.ofCode? w.status with
    | none =>
      rw [ofOctets_of_status hread (HeaderWords.judge_of_status hmin hmax hcommand hstatus)]
      refine ⟨fun h => (nomatch h), ?_⟩
      rintro (h | ⟨-, hs, -⟩ | ⟨-, hs, -, -⟩)
      · rw [hcommand] at h
        cases h
      · rw [CommandStatus.ofCode?_eq_some_iff.2 hs] at hstatus
        cases hstatus
      · rw [CommandStatus.ofCode?_eq_some_iff.2 hs] at hstatus
        cases hstatus
    | some s =>
      have hs := CommandStatus.ofCode?_eq_some_iff.1 hstatus
      rw [ofOctets_of_meaning hread (HeaderWords.judge_of_meaning hmin hmax hcommand hstatus),
        readBody_eq_ok_iff, hc, hs]
      refine ⟨?_, ?_⟩
      · rintro (⟨hkind, rfl⟩ | ⟨k, m, left, hkind, hbody, rfl⟩)
        · exact .reserved hc hs hkind
        · exact .message hc hs hkind hbody
      · rintro (h | ⟨hc', hs', hkind⟩ | ⟨hc', hs', hkind, hbody⟩)
        · rw [hcommand] at h
          cases h
        · rw [← hc', CommandId.ofCode?_code] at hcommand
          cases hcommand
          exact .inl ⟨hkind, rfl⟩
        · rw [← hc', CommandId.ofCode?_code] at hcommand
          rw [← hs', CommandStatus.ofCode?_code] at hstatus
          cases hcommand
          cases hstatus
          exact .inr ⟨_, _, _, hkind, hbody, rfl⟩

/-- **Decoding.** Octets start with a frame exactly if they start with a header and a body that
stand for it, and the header states the length of the two. -/
theorem decode_eq_ok_iff {largest n : Nat} {bs : Octets} {f : Frame} :
    decode largest bs = .ok (f, n) ↔
      ∃ (w : HeaderWords) (body rest : Octets), bs = w.encode ++ body ++ rest ∧
        w.length.toNat = n ∧ n = headerSize + body.length ∧ n ≤ largest ∧ ReadFrom w body f := by
  unfold decode
  simp only [Except.bind_eq_ok, Except.pure_eq_ok, Prod.mk.injEq]
  refine ⟨?_, ?_⟩
  · rintro ⟨n, hcheck, f, hread, rfl, rfl⟩
    obtain ⟨hstated, hmin, hmax, hlength⟩ := check_eq_ok_iff.1 hcheck
    -- The length that was checked is that of the frame that is cut off.
    have htake : (bs.take n).length = n := List.length_take_of_le hlength
    have hfits : headerSize ≤ (bs.take n).length := by rw [htake]; exact hmin
    obtain ⟨w, body, hbody⟩ := HeaderWords.exists_eq_encode_append hfits
    have hbs : bs = w.encode ++ body ++ bs.drop n := by
      rw [← hbody, List.take_append_drop]
    have hw : w.length.toNat = n := by
      rw [hbs, List.append_assoc, HeaderWords.statedLength_encode_append] at hstated
      exact Option.some.inj hstated
    rw [hbody, ofOctets_eq_ok_iff (HeaderWords.read_encode_append w body) (by omega) (by omega)]
      at hread
    refine ⟨w, body, bs.drop n, hbs, hw, ?_, hmax, hread⟩
    rw [← htake, hbody, List.length_append, HeaderWords.length_encode]
  · rintro ⟨w, body, rest, rfl, hw, hn, hmax, hread⟩
    have hlength : (w.encode ++ body).length = n := by
      rw [List.length_append, HeaderWords.length_encode, hn]
    have hcheck : check largest (w.encode ++ body ++ rest) = .ok n := by
      rw [check_eq_ok_iff, List.append_assoc, HeaderWords.statedLength_encode_append, hw,
        ← List.append_assoc, List.length_append, hlength]
      exact ⟨rfl, by omega, hmax, by omega⟩
    refine ⟨n, hcheck, f, ?_, rfl, rfl⟩
    rw [List.take_left' hlength,
      ofOctets_eq_ok_iff (HeaderWords.read_encode_append w body) (by omega) (by omega)]
    exact hread

end Frame

end Smpp
