import Smpp.Proofs.Wire.RoundTrip

/-!
# Encoding undoes decoding on canonical octets

Whatever decodes can be written again, under the same command, status and sequence number, and it is
written as it came exactly if it came in canonical form (`encode_eq_take_iff`).

Reading forgets four things, and the canonical form excludes each where it can occur: which octet
stood for the version of a bind, earlier values of a tag that is repeated, whether a response
without fields had a body, and what follows the identifier in a submit response. `CanonicalBody`
says so of the octets themselves: fields are found by their terminators and lengths, not by reading
them.
-/

namespace Smpp

/-! ### Finding fields -/

/-- What follows the first terminator. -/
def afterText (bs : Octets) : Octets := (bs.dropWhile Field.isText).drop 1

/-- The octet of the version in the body of a bind: it follows three texts. -/
def Bind.versionOctet? (body : Octets) : Option UInt8 :=
  (afterText (afterText (afterText body))).head?

/-- What follows a length and as many octets. -/
def afterCounted : Octets → Octets
  | [] => []
  | length :: rest => rest.drop length.toNat

/-- The region of parameters in the body of a submit: it follows the name of the service, the two
addresses after two octets each, three octets, two texts, four octets and the message. -/
def Submit.parameterRegion (body : Octets) : Octets :=
  let addresses := afterText body
  let destination := afterText (addresses.drop 2)
  let flags := afterText (destination.drop 2)
  let delivery := afterText (afterText (flags.drop 3))
  afterCounted (delivery.drop 4)

/-- The region of parameters in the body of a bind response: it follows the name of the server. -/
def BindResponse.parameterRegion (body : Octets) : Octets := afterText body

/-- The tags in a region, in the order in which they come. -/
def Parameters.tagsOf : Octets → List UInt16
  | t :: t' :: l :: l' :: rest =>
    Octets.word16 t t' :: tagsOf (rest.drop (Octets.word16 l l').toNat)
  | _ => []
  termination_by bs => bs.length
  decreasing_by
    simp only [List.length_drop, List.length_cons]
    omega

/-- The canonical form of a body with a status, by command. -/
def CanonicalBody (status : CommandStatus) (body : Octets) : CommandId → Prop
  | .bindTransmitter | .bindReceiver | .bindTransceiver =>
    ∃ version ∈ [0x33, 0x34, 0x50], Bind.versionOctet? body = some version
  | .bindTransmitterResp | .bindReceiverResp | .bindTransceiverResp =>
    (body ≠ [] ↔ status = .ok) ∧
      (Parameters.tagsOf (BindResponse.parameterRegion body)).Nodup
  | .submitSm => (Parameters.tagsOf (Submit.parameterRegion body)).Nodup
  | .submitSmResp => (body ≠ [] ↔ status = .ok) ∧ afterText body = []
  | .unbind | .unbindResp | .enquireLink | .enquireLinkResp | .genericNack | .deliverSm
  | .deliverSmResp => True

/-- The canonical form of the octets of a frame. Where the command or the status has no meaning,
nothing is asked for. -/
def Frame.Canonical (frame : Octets) : Prop :=
  ∀ w body c s, HeaderWords.read frame = some (w, body) → CommandId.ofCode? w.command = some c →
    CommandStatus.ofCode? w.status = some s → CanonicalBody s body c

/-! ### The fields that are found -/

theorem afterText_terminated_append {text : String} {limit : Nat} (h : Field.Fits limit text)
    (rest : Octets) : afterText (Field.terminated text ++ rest) = rest := by
  unfold afterText Field.terminated
  rw [List.append_assoc, List.dropWhile_append_of_pos h.isText]
  rfl

theorem Bind.versionOctet?_octets {b : Bind} (h : b.Fits) (version : UInt8) :
    versionOctet? (b.octets version) = some version := by
  unfold versionOctet? octets
  rw [afterText_terminated_append h.systemId, afterText_terminated_append h.password,
    afterText_terminated_append h.systemType]
  rfl

theorem Submit.parameterRegion_octets {s : Submit} (h : s.Fits) (region : Octets) :
    parameterRegion (s.octets region) = region := by
  unfold parameterRegion octets
  dsimp only
  rw [afterText_terminated_append h.serviceType, List.drop_succ_cons, List.drop_succ_cons,
    List.drop_zero, afterText_terminated_append h.source, List.drop_succ_cons, List.drop_succ_cons,
    List.drop_zero, afterText_terminated_append h.destination, List.drop_succ_cons,
    List.drop_succ_cons, List.drop_succ_cons, List.drop_zero,
    afterText_terminated_append h.scheduledTime, afterText_terminated_append h.validityPeriod,
    List.drop_succ_cons, List.drop_succ_cons, List.drop_succ_cons, List.drop_succ_cons,
    List.drop_zero, afterCounted, toNat_low_length h.shortMessage, List.drop_left]

/-- The tags of a region are those of its row. -/
theorem Parameters.tagsOf_region {ps : List Parameter} (h : RowFits ps) :
    tagsOf (region ps) = ps.map Parameter.tag := by
  -- On the row: the length of a parameter leads from its tag to the next one's.
  induction ps with
  | nil => simp [tagsOf]
  | cons p ps ih =>
    obtain ⟨hp, hps⟩ := rowFits_cons.1 h
    rw [region_cons, Parameter.octets_append, tagsOf, Octets.word16_octets, Octets.word16_octets,
      hp.toNat_length, List.drop_left, ih hps, List.map_cons]

theorem BindResponse.tagsOf_parameterRegion_nil : Parameters.tagsOf (parameterRegion []) = [] :=
  Parameters.tagsOf_region  (fun _ hp => absurd hp List.not_mem_nil)

/-! ### Bodies that are read are written -/

/-- **A version is written with the octet that stood for it exactly if that was one of three.** -/
theorem ProtocolVersion.octet_ofOctet_iff {b : UInt8} :
    (ofOctet b).octet = b ↔ b ∈ [0x33, 0x34, 0x50] := by
  simp only [List.mem_cons, List.not_mem_nil, or_false]
  refine ⟨?_, ?_⟩
  · intro h
    rw [← h]
    cases ofOctet b
    · exact .inl rfl
    · exact .inr (.inl rfl)
    · exact .inr (.inr rfl)
  · rintro (rfl | rfl | rfl)
    · rfl
    · rfl
    · rfl

/-- A bind that was read is written again, and differs from what was read in no octet but that of
its version. -/
theorem Bind.encode_of_read {role : BindRole} {b : Bind} {body left : Octets}
    (h : read role body = .ok b left) :
    ∃ bs, b.encode = .ok bs ∧
      (bs = body ↔ ∃ version ∈ [0x33, 0x34, 0x50], versionOctet? body = some version) := by
  obtain ⟨-, -, hfits, version, hversion, rfl⟩ := read_eq_ok_iff.1 h
  refine ⟨_, encode_eq_ok_iff.2 ⟨hfits, rfl⟩, ?_⟩
  refine ⟨?_, ?_⟩
  · intro heq
    -- The octet of the version is found at one place in both.
    have hsame : some b.version.octet = some version := by
      rw [← versionOctet?_octets hfits, heq, versionOctet?_octets hfits]
    rw [hversion] at hsame
    exact ⟨version, ProtocolVersion.octet_ofOctet_iff.1 (Option.some.inj hsame),
      versionOctet?_octets hfits version⟩
  · rintro ⟨v, hv, hfound⟩
    rw [versionOctet?_octets hfits] at hfound
    cases hfound
    rw [hversion, ProtocolVersion.octet_ofOctet_iff.2 hv]

/-- The parameters that a region is read as are written as the region exactly if no tag comes twice
in it. -/
theorem Parameters.encode_of_read {m : Parameters} {region left : Octets}
    (h : read region = .ok m left) :
    ∃ bs, m.encode = .ok bs ∧ (bs = region ↔ (tagsOf region).Nodup) := by
  obtain ⟨-, ps, hps, rfl, rfl⟩ := read_eq_ok_iff.1 h
  refine ⟨_, encode_eq_ok_iff.2 ⟨rowFits_ofList hps, rfl⟩, ?_⟩
  rw [tagsOf_region hps]
  exact region_entries_ofList_iff hps

/-- A bind response that was read is written again, and as it came exactly if there was a body and
no tag came twice in it. -/
theorem BindResponse.encode_of_read {role : BindRole} {r : BindResponse} {body left : Octets}
    (h : read role body = .ok r left) :
    ∃ bs, r.encode = .ok bs ∧
      (bs = body ↔ body ≠ [] ∧ (Parameters.tagsOf (parameterRegion body)).Nodup) := by
  obtain ⟨rfl, rfl, -⟩ | ⟨-, hfits, region, hregion, rfl⟩ := read_eq_ok_iff.1 h
  · -- An empty body is read as an empty name, and that is written with its terminator.
    exact ⟨[0], rfl, fun h => (nomatch h), fun h => absurd rfl h.1⟩
  obtain ⟨bs, hbs, hcanonical⟩ := Parameters.encode_of_read hregion
  refine ⟨_, encode_eq_ok_iff.2 ⟨hfits, bs, hbs, rfl⟩, ?_⟩
  have hfound : parameterRegion (octets r.systemId region) = region :=
    afterText_terminated_append hfits region
  rw [hfound, ← hcanonical, octets, octets, List.append_cancel_left_eq]
  exact (and_iff_right (Field.terminated_append_ne_nil r.systemId region)).symm

/-- A submit that was read is written again, and as it came exactly if no tag came twice in it. -/
theorem Submit.encode_of_read {s : Submit} {body left : Octets} (h : read body = .ok s left) :
    ∃ bs, s.encode = .ok bs ∧
      (bs = body ↔ (Parameters.tagsOf (parameterRegion body)).Nodup) := by
  obtain ⟨hfits, region, hregion, rfl⟩ := read_eq_ok_iff.1 h
  obtain ⟨bs, hbs, hcanonical⟩ := Parameters.encode_of_read hregion
  refine ⟨_, encode_eq_ok_iff.2 ⟨hfits, bs, hbs, rfl⟩, ?_⟩
  rw [parameterRegion_octets hfits, ← hcanonical]
  refine ⟨?_, ?_⟩
  · intro heq
    rw [← parameterRegion_octets hfits bs, heq, parameterRegion_octets hfits]
  · rintro rfl
    rfl

/-- The identifier of a submit response that was read is written again, and as it came exactly if
there was a body that ends with it. -/
theorem SubmitResponse.encode_of_read {messageId : String} {body left : Octets}
    (h : read body = .ok messageId left) :
    ∃ bs, encode messageId = .ok bs ∧ (bs = body ↔ body ≠ [] ∧ afterText body = []) := by
  obtain ⟨rfl, rfl, -⟩ | ⟨hfits, rfl⟩ := read_eq_ok_iff.1 h
  · exact ⟨[0], rfl, fun h => (nomatch h), fun h => absurd rfl h.1⟩
  refine ⟨_, encode_eq_ok_iff.2 ⟨hfits, rfl⟩, ?_⟩
  rw [afterText_terminated_append hfits,
    and_iff_right (Field.terminated_append_ne_nil messageId left)]
  refine ⟨?_, ?_⟩
  · exact fun heq => List.append_right_eq_self.1 heq.symm
  · rintro rfl
    rw [List.append_nil]

/-- The commands of a kind are those of the messages that are read as that kind. -/
theorem Message.command_of_readBody {c : CommandId} {k : Kind} {m : Message} {body left : Octets}
    (hkind : Kind.ofCommand? c = some k) (h : k.readBody c body = .ok m left) : m.command = c := by
  -- The kind leaves the command open where it comes in three roles, and there the message that is
  -- read has the role in it.
  cases k with
  | bind =>
    obtain ⟨b, _, hread, hm⟩ := Reader.bind_eq_ok.1 h
    cases hm
    obtain ⟨-, hrole, -⟩ := Bind.read_eq_ok_iff.1 hread
    rw [command, hrole]
    cases c <;> first | rfl | cases hkind
  | bindResp =>
    obtain ⟨r, _, hread, hm⟩ := Reader.bind_eq_ok.1 h
    cases hm
    have hrole : r.role = (BindRole.ofResponse? c).getD .transmitter := by
      obtain ⟨-, rfl, -⟩ | ⟨hrole, -⟩ := BindResponse.read_eq_ok_iff.1 hread
      · rfl
      · exact hrole
    rw [command, hrole]
    cases c <;> first | rfl | cases hkind
  | submit =>
    obtain ⟨s, _, -, hm⟩ := Reader.bind_eq_ok.1 h
    cases hm
    cases c <;> first | rfl | cases hkind
  | submitResp =>
    obtain ⟨messageId, _, -, hm⟩ := Reader.bind_eq_ok.1 h
    cases hm
    cases c <;> first | rfl | cases hkind
  -- The kinds that have no body are read of no octets, and each is the kind of one command.
  | _ =>
    cases body with
    | nil =>
      cases h
      cases c <;> first | rfl | cases hkind
    | cons b bs => cases h

/-- A negative response is canonical exactly if it has no body. -/
theorem nil_eq_iff_of_negative {s : CommandStatus} {body : Octets} {p : Prop} (hs : s ≠ .ok)
    (hp : body = [] → p) : [] = body ↔ (body ≠ [] ↔ s = .ok) ∧ p := by
  rw [iff_false_right hs, ne_eq, Classical.not_not]
  refine ⟨?_, ?_⟩
  · intro h
    exact ⟨h.symm, hp h.symm⟩
  · rintro ⟨h, -⟩
    exact h.symm

/-- **A body that was read is written again**, and as it came exactly if it is canonical for the
command and the status. -/
theorem Message.encode_of_readBody {c : CommandId} {k : Kind} {m : Message} {body left : Octets}
    (hkind : Kind.ofCommand? c = some k) (h : k.readBody c body = .ok m left)
    (s : CommandStatus) :
    ∃ bs, m.encode s = .ok bs ∧ (bs = body ↔ CanonicalBody s body c) := by
  cases k with
  | bind =>
    obtain ⟨b, _, hread, hm⟩ := Reader.bind_eq_ok.1 h
    cases hm
    obtain ⟨bs, hbs, hcanonical⟩ := Bind.encode_of_read hread
    refine ⟨bs, hbs, hcanonical.trans ?_⟩
    cases c <;> first | exact Iff.rfl | cases hkind
  | bindResp =>
    obtain ⟨r, _, hread, hm⟩ := Reader.bind_eq_ok.1 h
    cases hm
    have hform : CanonicalBody s body c ↔
        (body ≠ [] ↔ s = .ok) ∧ (Parameters.tagsOf (BindResponse.parameterRegion body)).Nodup := by
      cases c <;> first | exact Iff.rfl | cases hkind
    rw [hform, encode]
    -- With a negative status nothing is written, whatever was read.
    by_cases hok : s = .ok
    · obtain ⟨bs, hbs, hcanonical⟩ := BindResponse.encode_of_read hread
      rw [hok]
      exact ⟨bs, hbs, by simpa using hcanonical⟩
    · rw [if_neg (mt CommandStatus.isOk_iff.1 hok)]
      refine ⟨[], rfl, nil_eq_iff_of_negative hok ?_⟩
      rintro rfl
      rw [BindResponse.tagsOf_parameterRegion_nil]
      exact List.nodup_nil
  | submit =>
    obtain ⟨b, _, hread, hm⟩ := Reader.bind_eq_ok.1 h
    cases hm
    obtain ⟨bs, hbs, hcanonical⟩ := Submit.encode_of_read hread
    refine ⟨bs, hbs, hcanonical.trans ?_⟩
    cases c <;> first | exact Iff.rfl | cases hkind
  | submitResp =>
    obtain ⟨messageId, _, hread, hm⟩ := Reader.bind_eq_ok.1 h
    cases hm
    have hform : CanonicalBody s body c ↔ (body ≠ [] ↔ s = .ok) ∧ afterText body = [] := by
      cases c <;> first | exact Iff.rfl | cases hkind
    rw [hform, encode]
    by_cases hok : s = .ok
    · obtain ⟨bs, hbs, hcanonical⟩ := SubmitResponse.encode_of_read hread
      rw [hok]
      exact ⟨bs, hbs, by simpa using hcanonical⟩
    · rw [if_neg (mt CommandStatus.isOk_iff.1 hok)]
      exact ⟨[], rfl, nil_eq_iff_of_negative hok (by rintro rfl; rfl)⟩
  | _ =>
    -- A kind without a body is read from the empty body only.
    cases body with
    | nil =>
      cases h
      refine ⟨[], rfl, ?_⟩
      cases c <;> first | exact iff_of_true rfl trivial | cases hkind
    | cons b bs => cases h

namespace Frame

/-- A frame is canonical as its body is, if its words have a meaning. -/
theorem canonical_encode_append_iff {w : HeaderWords} {body : Octets} {c : CommandId}
    {s : CommandStatus} (hcommand : c.code = w.command) (hstatus : s.code = w.status) :
    Canonical (w.encode ++ body) ↔ CanonicalBody s body c := by
  have hc : CommandId.ofCode? w.command = some c := CommandId.ofCode?_eq_some_iff.2 hcommand
  have hs : CommandStatus.ofCode? w.status = some s := CommandStatus.ofCode?_eq_some_iff.2 hstatus
  refine ⟨?_, ?_⟩
  · exact fun h => h w body c s (HeaderWords.read_encode_append w body) hc hs
  · intro h w' body' c' s' hread hc' hs'
    rw [HeaderWords.read_encode_append] at hread
    cases hread
    rw [hc] at hc'
    rw [hs] at hs'
    cases hc'
    cases hs'
    exact h

/-- A frame of a reserved command, or of none, is canonical. -/
theorem canonical_of_noKind {w : HeaderWords} {body : Octets}
    (h : ∀ c, CommandId.ofCode? w.command = some c → Message.Kind.ofCommand? c = none) :
    Canonical (w.encode ++ body) := by
  intro w' body' c s hread hc hs
  rw [HeaderWords.read_encode_append] at hread
  cases hread
  have hkind := h c hc
  cases c <;> trivial

/-- **A frame that words and a body stand for is written again** under the same words, but for the
length; its body is the same exactly if the frame is canonical. -/
theorem body_of_readFrom {w : HeaderWords} {body : Octets} {f : Frame} (h : ReadFrom w body f) :
    (∀ n, f.words n = { w with length := UInt32.ofNat (headerSize + n) }) ∧
      ∃ bs, f.body = .ok bs ∧ (bs = body ↔ Canonical (w.encode ++ body)) := by
  cases h with
  | meaningless hcommand =>
    refine ⟨fun n => rfl, body, rfl, iff_of_true rfl (canonical_of_noKind ?_)⟩
    intro c hc
    rw [hcommand] at hc
    cases hc
  | reserved hcommand hstatus hkind =>
    refine ⟨fun n => rfl, body, rfl, iff_of_true rfl (canonical_of_noKind ?_)⟩
    intro c' hc
    rw [← hcommand, CommandId.ofCode?_code] at hc
    cases hc
    exact hkind
  | message hcommand hstatus hkind hbody =>
    refine ⟨fun n => ?_, ?_⟩
    · rw [words, command, status, sequence, Message.command_of_readBody hkind hbody, hcommand,
        hstatus]
    · rw [canonical_encode_append_iff hcommand hstatus]
      exact Message.encode_of_readBody hkind hbody _

/-- **Encoding undoes decoding on canonical octets, and only there.** A frame that octets start with
can be written; the command, the status and the sequence number are written as they came, and the
frame is written as it came exactly if it came in canonical form. -/
theorem encode_eq_take_iff {largest n : Nat} {bs : Octets} {f : Frame}
    (h : decode largest bs = .ok (f, n)) :
    ∃ r, f.encode = .ok r ∧ (r.take headerSize).drop 4 = (bs.take headerSize).drop 4 ∧
      (r = bs.take n ↔ Canonical (bs.take n)) := by
  obtain ⟨w, body, rest, rfl, hw, hn, -, hfrom⟩ := decode_eq_ok_iff.1 h
  -- Only the length in the header depends on the body that is written.
  obtain ⟨hwords, written, hwritten, hcanonical⟩ := body_of_readFrom hfrom
  have hframe : (w.encode ++ body ++ rest).take n = w.encode ++ body := by
    refine List.take_left' ?_
    rw [List.length_append, HeaderWords.length_encode, hn]
  refine ⟨_, encode_eq_ok_iff.2 ⟨written, hwritten, rfl⟩, ?_, ?_⟩
  · rw [List.append_assoc, List.take_left' (HeaderWords.length_encode _),
      List.take_left' (HeaderWords.length_encode _), hwords]
    rfl
  · rw [hframe, ← hcanonical, hwords]
    refine ⟨?_, ?_⟩
    · intro heq
      exact List.append_inj_right heq (by rw [HeaderWords.length_encode, HeaderWords.length_encode])
    · rintro rfl
      -- The body is as long as it was, so the length is written as it came.
      rw [← hn, ← hw, UInt32.ofNat_toNat]

/-- The version of this bind came as `0x40` and goes out as `0x34`; the octet after the bind is not
looked at. -/
theorem encode_eq_take_iff_bind :
    let f : Frame :=
      .known .ok 1 (.bind ⟨.transceiver, "m", "", "", .v34, .international, .isdn, "7"⟩)
    let bs : Octets :=
      [0, 0, 0, 25, 0, 0, 0, 9, 0, 0, 0, 0, 0, 0, 0, 1, 109, 0, 0, 0, 0x40, 1, 1, 55, 0, 99]
    decode 64 bs = .ok (f, 25) ∧
      ∃ r, f.encode = .ok r ∧ (r.take headerSize).drop 4 = (bs.take headerSize).drop 4 ∧
        (r = bs.take 25 ↔ Canonical (bs.take 25)) := by
  intro f bs
  have h : decode 64 bs = .ok (f, 25) := by cbv
  exact ⟨h, encode_eq_take_iff h⟩

end Frame

end Smpp
