import Smpp.Proofs.Wire.Frames

/-!
# Decoding undoes encoding

A frame that can be written is read back from what was written, whatever follows it on the stream
(`decode_encode_append`). What comes back is what the frame carries: a negative response to a bind
or a submit is sent without its body, so nothing of the body comes back; everything else does.

A frame whose body is kept as it came is not written as such a frame unless its command is one that
is read so: `Genuine` asks that the command has no kind and that, where it is reserved, the status
has a meaning.
-/

namespace Smpp

namespace Message

/-- The kind of a message. -/
def kind : Message → Kind
  | bind _ => .bind
  | bindResp _ => .bindResp
  | unbind => .unbind
  | unbindResp => .unbindResp
  | submit _ => .submit
  | submitResp _ => .submitResp
  | enquireLink => .enquireLink
  | enquireLinkResp => .enquireLinkResp
  | genericNack => .genericNack

/-- What of a message goes out with a status: of a negative response to a bind or a submit, nothing
but which response it is. -/
def carried (status : CommandStatus) : Message → Message
  | bindResp r => if status.isOk then bindResp r else bindResp (.refused r.role)
  | submitResp messageId => if status.isOk then submitResp messageId else submitResp ""
  | m => m

/-- The command of a message is of the message's kind. -/
@[simp] theorem ofCommand?_command (m : Message) : Kind.ofCommand? m.command = some m.kind := by
  cases m with
  | bind b => cases h : b.role <;> simp only [command, h] <;> rfl
  | bindResp r => cases h : r.role <;> simp only [command, h] <;> rfl
  | _ => rfl

/-- **A written body is read back as what it carries.** -/
theorem readBody_of_encode {status : CommandStatus} {m : Message} {body : Octets}
    (h : m.encode status = .ok body) :
    ∃ left, m.kind.readBody m.command body = .ok (m.carried status) left := by
  -- By the kind: what the writer has checked of the fields is what the reader asks of the octets,
  -- and the role of a bind is in its command.
  cases m with
  | bind b =>
    obtain ⟨hfits, rfl⟩ := Bind.encode_eq_ok_iff.1 h
    have hrole : BindRole.ofRequest? b.role.request = some b.role :=
      BindRole.ofRequest?_eq_some_iff.2 rfl
    have hread : Bind.read b.role (b.octets b.version.octet) = .ok b [] :=
      Bind.read_eq_ok_iff.2
        ⟨rfl, rfl, hfits, b.version.octet, (ProtocolVersion.ofOctet_octet _).symm, rfl⟩
    refine ⟨[], ?_⟩
    simp only [kind, command, Kind.readBody, hrole, Option.getD_some, carried]
    exact Reader.bind_eq_ok.2 ⟨b, [], hread, rfl⟩
  | bindResp r =>
    have hrole : BindRole.ofResponse? r.role.response = some r.role :=
      BindRole.ofResponse?_eq_some_iff.2 rfl
    simp only [kind, command, Kind.readBody, hrole, Option.getD_some, carried]
    simp only [encode] at h
    split at h
    · next hok =>
      obtain ⟨hfits, region, hregion, rfl⟩ := BindResponse.encode_eq_ok_iff.1 h
      have hread : BindResponse.read r.role (BindResponse.octets r.systemId region) = .ok r [] :=
        BindResponse.read_eq_ok_iff.2
          (.inr ⟨rfl, hfits, region, Parameters.read_of_encode hregion, rfl⟩)
      rw [if_pos hok]
      exact ⟨[], Reader.bind_eq_ok.2 ⟨r, [], hread, rfl⟩⟩
    · -- The body is empty whatever the response holds, and the empty body is a refusal.
      next hnegative =>
      cases h
      rw [if_neg hnegative]
      exact ⟨[], Reader.bind_eq_ok.2 ⟨.refused r.role, [], rfl, rfl⟩⟩
  | submit s =>
    obtain ⟨hfits, region, hregion, rfl⟩ := Submit.encode_eq_ok_iff.1 h
    have hread : Submit.read (s.octets region) = .ok s [] :=
      Submit.read_eq_ok_iff.2 ⟨hfits, region, Parameters.read_of_encode hregion, rfl⟩
    exact ⟨[], Reader.bind_eq_ok.2 ⟨s, [], hread, rfl⟩⟩
  | submitResp messageId =>
    simp only [kind, Kind.readBody, carried]
    simp only [encode] at h
    split at h
    · next hok =>
      obtain ⟨hfits, rfl⟩ := SubmitResponse.encode_eq_ok_iff.1 h
      have hread : SubmitResponse.read (Field.terminated messageId) = .ok messageId [] :=
        SubmitResponse.read_eq_ok_iff.2 (.inr ⟨hfits, (List.append_nil _).symm⟩)
      rw [if_pos hok]
      exact ⟨[], Reader.bind_eq_ok.2 ⟨messageId, [], hread, rfl⟩⟩
    · next hnegative =>
      cases h
      rw [if_neg hnegative]
      exact ⟨[], Reader.bind_eq_ok.2 ⟨"", [], rfl, rfl⟩⟩
  | _ =>
    cases h
    exact ⟨[], rfl⟩

end Message

namespace Frame

/-- What of a frame goes out on the wire. -/
def carried : Frame → Frame
  | known status sequence m => known status sequence (m.carried status)
  | unknown command status sequence body => unknown command status sequence body

/-- A frame that is kept as it came is of a command that is read so: one without a meaning, or a
reserved one together with a status that has a meaning. -/
def Genuine : Frame → Prop
  | known .. => True
  | unknown command status _ _ =>
    ∀ c, CommandId.ofCode? command = some c →
      Message.Kind.ofCommand? c = none ∧ ∃ s : CommandStatus, s.code = status

/-- The words of a frame's header for a body of some length. -/
def words (f : Frame) (bodyLength : Nat) : HeaderWords :=
  ⟨UInt32.ofNat (headerSize + bodyLength), f.command, f.status, f.sequence⟩

/-- **A frame is written as its words and its body.** -/
theorem encode_eq_ok_iff {f : Frame} {bs : Octets} :
    f.encode = .ok bs ↔ ∃ body, f.body = .ok body ∧ bs = (f.words body.length).encode ++ body := by
  unfold encode
  simp only [Except.bind_eq_ok, Except.pure_eq_ok]
  refine ⟨?_, ?_⟩
  · rintro ⟨body, hbody, rfl⟩
    exact ⟨body, hbody, rfl⟩
  · rintro ⟨body, hbody, rfl⟩
    exact ⟨body, hbody, rfl⟩

/-- A frame is one that its words and its body stand for, as far as it goes out. -/
theorem readFrom_of_body {f : Frame} {body : Octets} (hf : f.Genuine) (h : f.body = .ok body)
    (bodyLength : Nat) : ReadFrom (f.words bodyLength) body f.carried := by
  cases f with
  | known status sequence m =>
    obtain ⟨left, hread⟩ := Message.readBody_of_encode h
    exact .message (w := words (.known status sequence m) bodyLength) rfl rfl
      m.ofCommand?_command hread
  | unknown command status sequence bs =>
    cases h
    -- What is kept as it came is read as such under the same two conditions.
    cases hcommand : CommandId.ofCode? command with
    | none =>
      exact .meaningless (w := words (.unknown command status sequence body) bodyLength) hcommand
    | some c =>
      obtain ⟨hkind, s, hs⟩ := hf c hcommand
      exact .reserved (w := words (.unknown command status sequence body) bodyLength)
        (CommandId.ofCode?_eq_some_iff.1 hcommand) hs hkind

/-- **Decoding undoes encoding.** What was written of a frame decodes to what the frame carries and
takes up exactly the octets that were written, whatever follows them and however much more than
their length would be accepted. -/
theorem decode_encode_append {f : Frame} (hf : f.Genuine) {bs : Octets} (h : f.encode = .ok bs)
    {largest : UInt32} (hmax : bs.length ≤ largest.toNat) (rest : Octets) :
    decode largest.toNat (bs ++ rest) = .ok (f.carried, bs.length) := by
  obtain ⟨body, hbody, rfl⟩ := encode_eq_ok_iff.1 h
  have hlength : ((f.words body.length).encode ++ body).length = headerSize + body.length := by
    rw [List.length_append, HeaderWords.length_encode]
  rw [hlength] at hmax ⊢
  -- What is accepted bounds the length by what its word can state.
  have hword : (f.words body.length).length.toNat = headerSize + body.length := by
    have := largest.toNat_lt
    rw [words, UInt32.toNat_ofNat']
    omega
  exact decode_eq_ok_iff.2
    ⟨f.words body.length, body, rest, rfl, hword, rfl, hmax, readFrom_of_body hf hbody _⟩

/-- A bind response with two parameters, one of them empty, and two octets after it. -/
theorem decode_encode_append_bindResp :
    let f : Frame :=
      .known .ok 5 (.bindResp ⟨.transceiver, "Zoë", .ofList [⟨0x0204, [0, 7]⟩, ⟨0x0424, []⟩]⟩)
    f.encode = .ok [0, 0, 0, 31, 128, 0, 0, 9, 0, 0, 0, 0, 0, 0, 0, 5, 90, 111, 195, 171, 0,
      2, 4, 0, 2, 0, 7, 4, 36, 0, 0] ∧
    decode (64 : UInt32).toNat [0, 0, 0, 31, 128, 0, 0, 9, 0, 0, 0, 0, 0, 0, 0, 5, 90, 111, 195,
      171, 0, 2, 4, 0, 2, 0, 7, 4, 36, 0, 0, 0, 0] = .ok (f, 31) := by
  intro f
  have hf : f.Genuine := trivial
  have h : f.encode = .ok [0, 0, 0, 31, 128, 0, 0, 9, 0, 0, 0, 0, 0, 0, 0, 5, 90, 111, 195, 171, 0,
      2, 4, 0, 2, 0, 7, 4, 36, 0, 0] := by
    cbv
  exact ⟨h, decode_encode_append hf h (by decide) [0, 0]⟩

end Frame

end Smpp
