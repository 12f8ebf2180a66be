import Smpp.Proofs.Handler.Clock
import Smpp.Proofs.Handler.Due
import Smpp.Proofs.Session.Lifecycle

/-!
# What a gateway can write

A frame that has no octets goes out as a negative acknowledgement, and then the client is told that
nothing came of what it asked, whatever did. Of the frames that a gateway sends only two kinds have
a text in them that could keep them from being written: the receipt for a message, with the
identifier that the backend gave it, and the welcome to a client, with the name of the gateway
(`Frame.Uttered`). A receipt is written if the backend keeps to the field for the identifier.

The welcome is another matter. Settings are looked at before a gateway begins, and a name that is
too long for its field is refused there; a name with a zero in it is not, and no welcome with it can
be written. `Handler.writable_iff_of_validate` says that this is all: with settings that were not
refused, every frame can be written but the welcome under a name with a zero.
-/

namespace Smpp

/-- An identifier that a backend may give a message. -/
def Sendable (messageId : String) : Prop :=
  (Utf8.encode messageId).length ≤ 64 ∧ '\x00' ∉ messageId.toList

/-- A name that is not refused is not too long for its field. -/
theorem Config.length_systemId_lt {config : Config} (h : config.validate = .ok ()) :
    (Utf8.encode config.systemId).length < systemIdLimit := by
  unfold validate at h
  split at h
  · cases h
  split at h
  · cases h
  split at h
  · cases h
  · next hshort => exact Nat.lt_of_not_le hshort

namespace Frame

/-- A frame that has octets. -/
def Writable (f : Frame) : Prop := ∃ bs, f.encode = .ok bs

/-- The welcome of a gateway with some settings to a client. -/
def IsWelcome (config : Config) (f : Frame) : Prop :=
  ∃ role n, f = .bindAccepted role n config.systemId

/-- What a gateway with some settings says: it names nobody, welcomes a client, or hands on an
identifier that a backend may give. -/
def Uttered (config : Config) (f : Frame) : Prop :=
  f.Plain ∨ f.IsWelcome config ∨ ∃ n messageId, Sendable messageId ∧ f = .submitAccepted n messageId

section Writable

variable {f : Frame}

/-- A frame is written exactly if its body is. -/
theorem writable_iff_body : f.Writable ↔ ∃ body, f.body = .ok body := by
  constructor
  · rintro ⟨bs, hbs⟩
    obtain ⟨body, hbody, -⟩ := encode_eq_ok_iff.1 hbs
    exact ⟨body, hbody⟩
  · rintro ⟨body, hbody⟩
    exact ⟨_, encode_eq_ok_iff.2 ⟨body, hbody, rfl⟩⟩

/-- A frame that names nobody can always be written: it has no text, or an empty one. -/
theorem Plain.writable (hf : f.Plain) : f.Writable := by
  have hempty (limit : Nat) (hlimit : 0 < limit) : Field.Fits limit "" :=
    Field.fits_iff.2 ⟨hlimit, List.not_mem_nil⟩
  refine writable_iff_body.2 ?_
  cases hf with
  | enquireLink | enquireLinkResp | unbind | unbindResp | nack => exact ⟨[], rfl⟩
  | bindRefused role n status =>
    by_cases hok : status.isOk = true
    · have hbody : (Frame.bindRefused role n status).body = (BindResponse.refused role).encode :=
        if_pos hok
      exact ⟨_, hbody.trans (BindResponse.encode_eq_ok_iff.2 ⟨hempty _ (by decide), [], rfl, rfl⟩)⟩
    · exact ⟨[], if_neg hok⟩
  | submitRefused n status =>
    by_cases hok : status.isOk = true
    · have hbody : (Frame.submitRefused n status).body = SubmitResponse.encode "" := if_pos hok
      exact ⟨_, hbody.trans (SubmitResponse.encode_eq_ok_iff.2 ⟨hempty _ (by decide), rfl⟩)⟩
    · exact ⟨[], if_neg hok⟩

/-- A welcome can be written exactly if the name fits its field. -/
theorem writable_bindAccepted_iff {role : BindRole} {n : UInt32} {systemId : String} :
    (bindAccepted role n systemId).Writable ↔ Field.Fits systemIdLimit systemId := by
  have hregion : (BindResponse.accepted role systemId).parameters.encode =
      .ok [0x02, 0x10, 0x00, 0x01, 0x34] := rfl
  have hbody : (bindAccepted role n systemId).body = (BindResponse.accepted role systemId).encode :=
    rfl
  rw [writable_iff_body, hbody]
  constructor
  · rintro ⟨body, h⟩
    exact (BindResponse.encode_eq_ok_iff.1 h).1
  · exact fun hfits => ⟨_, BindResponse.encode_eq_ok_iff.2 ⟨hfits, _, hregion, rfl⟩⟩

/-- A receipt can be written exactly if the identifier fits its field. -/
theorem writable_submitAccepted_iff {n : UInt32} {messageId : String} :
    (submitAccepted n messageId).Writable ↔ Field.Fits messageIdLimit messageId := by
  have hbody : (submitAccepted n messageId).body = SubmitResponse.encode messageId := rfl
  rw [writable_iff_body, hbody]
  constructor
  · rintro ⟨body, h⟩
    exact (SubmitResponse.encode_eq_ok_iff.1 h).1
  · exact fun hfits => ⟨_, SubmitResponse.encode_eq_ok_iff.2 ⟨hfits, rfl⟩⟩

/-- **Of what a gateway says, only a welcome under a name with a zero cannot be written.** -/
theorem Uttered.writable_iff {config : Config} (hf : f.Uttered config)
    (hlength : (Utf8.encode config.systemId).length < systemIdLimit) :
    f.Writable ↔ ¬ (f.IsWelcome config ∧ '\x00' ∈ config.systemId.toList) := by
  constructor
  · rintro hwritable ⟨⟨role, n, rfl⟩, hzero⟩
    exact (Field.fits_iff.1 (writable_bindAccepted_iff.1 hwritable)).2 hzero
  · intro hnot
    obtain hplain | hwelcome | ⟨n, messageId, ⟨hshort, hnozero⟩, rfl⟩ := hf
    · exact hplain.writable
    · have hnozero : '\x00' ∉ config.systemId.toList := fun hzero => hnot ⟨hwelcome, hzero⟩
      obtain ⟨role, n, rfl⟩ := hwelcome
      exact writable_bindAccepted_iff.2 (Field.fits_iff.2 ⟨hlength, hnozero⟩)
    · exact writable_submitAccepted_iff.2 (Field.fits_iff.2 ⟨Nat.lt_succ_of_le hshort, hnozero⟩)

/-- A frame that names nobody gets to the client as it is. -/
theorem Plain.onWire (hf : f.Plain) : f.onWire = f := by
  obtain ⟨bs, hencode⟩ := hf.writable
  unfold Frame.onWire
  rw [hencode]
  cases hf with
  | enquireLink | enquireLinkResp | unbind | unbindResp | nack => rfl
  | bindRefused => exact congrArg (Frame.known _ _) (ite_self _)
  | submitRefused => exact congrArg (Frame.known _ _) (ite_self _)

/-- What a client gets for a welcome. -/
theorem onWire_bindAccepted (role : BindRole) (n : UInt32) {systemId : String}
    (hlength : (Utf8.encode systemId).length < systemIdLimit) :
    (bindAccepted role n systemId).onWire =
      if '\x00' ∈ systemId.toList then nack .unknownError n else bindAccepted role n systemId := by
  unfold onWire
  split
  · next bs hencode =>
    have hfits := writable_bindAccepted_iff.1 ⟨bs, hencode⟩
    rw [if_neg (Field.fits_iff.1 hfits).2]
    rfl
  · next e hencode =>
    rw [if_pos]
    · rfl
    · by_contra hnozero
      obtain ⟨bs, hbs⟩ := writable_bindAccepted_iff.2 (Field.fits_iff.2 ⟨hlength, hnozero⟩)
      rw [hencode] at hbs
      cases hbs

end Writable

end Frame

/-! ### What a session says -/

namespace Session

/-- A backend that is done with a message gave it an identifier that it may give. -/
def Input.Sendable (i : Input) : Prop :=
  ∀ c messageId, i = .complete c → c.result = .ok messageId → Smpp.Sendable messageId

variable {s : Session} {f : Frame}

theorem uttered_of_conclude {now : Instant} {n : UInt32} {b : Bind} {result : AuthResult}
    (hf : f ∈ (Output.action (s.conclude now n b result).2).written) : f.Uttered s.config := by
  obtain ⟨r, hr, -, hkind⟩ := Handler.exists_written_conclude s now n b result
  rw [hr, List.mem_singleton] at hf
  subst hf
  obtain ⟨-, rfl⟩ | hplain := hkind
  · exact .inr (.inl ⟨_, _, rfl⟩)
  · exact .inl hplain

/-- **What a session says.** -/
theorem uttered_of_step {i : Input} (hi : i.Sendable) (hf : f ∈ (s.step i).2.written) :
    f.Uttered s.config := by
  cases i with
  | frame g now inFlight verdict decided =>
    rw [step_frame] at hf
    unfold dispatch at hf
    cases hreceive : s.receive now inFlight g with
    | mk s' action =>
    rw [hreceive] at hf
    -- A bind is followed to its verdict in the same step, and all else is said in taking the frame.
    have hplain (hf : f ∈ (Output.action action).written) : f.Uttered s.config := by
      have hreceived : f ∈ (Output.action (s.receive now inFlight g).2).written := by
        rw [hreceive]
        exact hf
      exact .inl (Handler.plain_of_receive hreceived)
    cases action with
    | authenticate n b =>
      obtain ⟨-, rfl, -⟩ := Handler.of_receive_authenticate hreceive
      exact uttered_of_conclude (s := s.touched now) hf
    | reply | replyAndClose | submit | ignore => exact hplain hf
  | complete c =>
    rw [Handler.complete_answer (Option.mem_toList.1 hf)]
    obtain ⟨messageId, hresult, hanswer⟩ | hplain := Handler.answer_cases c
    · exact .inr (.inr ⟨c.sequence, messageId, hi c messageId rfl hresult, hanswer⟩)
    · exact .inl hplain
  | expire now => exact .inl (Handler.plain_of_expire hf)
  | keepalive now => exact .inl (Handler.plain_of_keepalive (Option.mem_toList.1 hf))
  | shutdown => exact .inl (Handler.plain_of_shutdownFrame (Option.mem_toList.1 hf))
  | close => cases hf

end Session

/-! ### What a handler says -/

namespace Handler

/-- A backend that answers for a message gives it an identifier that it may give. -/
def Event.Sendable (e : Event) : Prop :=
  ∀ call messageId, e = .answer call (.ok messageId) → Smpp.Sendable messageId

/-- The session has its settings, and the results in line have identifiers that a backend may
give. -/
structure Equipped (config : Config) (e : Engagement) : Prop where
  settings : e.session.config = config
  line : ∀ c ∈ e.calls.finished, ∀ messageId, c.result = .ok messageId → Sendable messageId

theorem Equipped.start (config : Config) (begun : Instant) :
    Equipped config (Engagement.start config begun) :=
  ⟨rfl, fun _ hc => absurd hc List.not_mem_nil⟩

/-- A result comes to the end of the line. -/
theorem finished_finish {calls : Calls} {call : Nat} {result : SubmitResult} {c : Completion}
    (hc : c ∈ (calls.finish call result).finished) : c ∈ calls.finished ∨ c.result = result := by
  unfold Calls.finish at hc
  split at hc
  · exact .inl hc
  · obtain hc | hc := List.mem_append.1 hc
    · exact .inl hc
    · cases List.mem_singleton.1 hc
      exact .inr rfl

/-- Whatever a handler does with its session, the settings and the line stay in order. -/
theorem stable_equipped (config : Config) : Stable (Equipped config) Event.Sendable where
  receive e now f he :=
    ⟨(stable_settings config).receive e now f he.settings, e.finished_receive now f ▸ he.line⟩
  conclude e now n b result he :=
    ⟨(stable_settings config).conclude e now n b result he.settings,
      Engagement.finished_react e _ ▸ he.line⟩
  completes e e' c answer hnext he := by
    refine ⟨(stable_settings config).completes e e' c answer hnext he.settings,
      fun c' hc' => he.line c' ?_⟩
    rw [line_of_completeNext hnext]
    exact List.mem_cons_of_mem c hc'
  answers e call result hmay he := by
    refine ⟨he.settings, fun c hc messageId hresult => ?_⟩
    obtain hc | rfl := finished_finish hc
    · exact he.line c hc messageId hresult
    · exact hmay call messageId (congrArg (Event.answer call) hresult)
  expires _ _ he := ⟨he.settings, he.line⟩
  probes e now _ he := ⟨(stable_settings config).probes e now trivial he.settings, he.line⟩
  unbinds e he := ⟨(stable_settings config).unbinds e he.settings, he.line⟩
  closes _ he := ⟨he.settings, he.line⟩

/-- **What a handler says.** -/
theorem uttered_of_due {config : Config} {h : Handler} (hs : Equipped config h.engagement)
    {e : Event} {f : Frame} (hf : f ∈ h.due e) : f.Uttered config := by
  cases utters_of_due hf with
  | plain hplain => exact .inl hplain
  | welcome => exact .inr (.inl ⟨_, _, by rw [hs.settings]⟩)
  | receipt hline hresult => exact .inr (.inr ⟨_, _, hs.line _ hline _ hresult, rfl⟩)

/-- A client whose bind is let in is bound, and is sent the welcome as far as that can be
written. -/
theorem said_of_accepted {config : Config} {h : Handler} (hs : Equipped config h.engagement)
    (hlength : (Utf8.encode config.systemId).length < systemIdLimit)
    (hthere : h.connection.ending ≠ .reset) {n : UInt32} {b : Bind}
    (hstage : h.stage = .authenticating n b) (now : Instant) :
    (h.step (.authenticated now (.ok ()))).1.engagement.session.standing =
        (.bound b.role, some b.systemId, 0) ∧
      (h.move (.authenticated now (.ok ()))).said =
        [if '\x00' ∈ config.systemId.toList then .nack .unknownError n
          else .bindAccepted b.role n config.systemId] := by
  constructor
  · have hsend := send_of_there (h := { h with
        engagement := (h.engagement.conclude now n b (.ok ())).1, stage := .serving }) hthere
      (.bindAccepted b.role n h.engagement.session.config.systemId)
    dsimp only [step, authenticated]
    rw [hstage]
    exact congrArg (fun r => r.1.engagement.session.standing) hsend
  · have hdue : h.due (.authenticated now (.ok ())) =
        [.bindAccepted b.role n h.engagement.session.config.systemId] := by
      dsimp only [due]
      rw [hstage]
      rfl
    rw [said_move hthere, hdue, hs.settings, List.map_singleton,
      Frame.onWire_bindAccepted b.role n hlength]

/-- **What a gateway can write.** With settings that were not refused, and a backend that gives
messages identifiers of at most 64 octets without a zero:

* in every run of a session, a frame that it has to say can be written, unless it is the welcome to
  a client under a name with a zero;
* so can a frame that a handler has to say in any run, and these are the frames that go out while
  the client is there;
* a client whose bind is let in is bound, and is welcomed if the name of the gateway has no zero;
  if it has one, a negative acknowledgement goes out in place of the welcome. -/
theorem writable_iff_of_validate (config : Config) (hvalid : config.validate = .ok ())
    (begun : Instant) :
    (∀ inputs : List Session.Input, (∀ i ∈ inputs, i.Sendable) →
      ∀ m ∈ (Session.start config begun).history inputs, ∀ f ∈ m.output.written,
        (f.Writable ↔ ¬ (f.IsWelcome config ∧ '\x00' ∈ config.systemId.toList))) ∧
    (∀ events : List Event, (∀ e ∈ events, e.Sendable) →
      ∀ m ∈ (start config begun).history events,
        (∀ f ∈ m.before.due m.event,
          (f.Writable ↔ ¬ (f.IsWelcome config ∧ '\x00' ∈ config.systemId.toList))) ∧
        (m.before.connection.ending ≠ .reset →
          m.written = (m.before.due m.event).flatMap octetsFor ∧
          ∀ n b now, m.before.stage = .authenticating n b →
            m.event = .authenticated now (.ok ()) →
              m.after.engagement.session.standing = (.bound b.role, some b.systemId, 0) ∧
                m.said = [if '\x00' ∈ config.systemId.toList then .nack .unknownError n
                  else .bindAccepted b.role n config.systemId])) := by
  have hlength := Config.length_systemId_lt hvalid
  refine ⟨fun inputs hinputs m hm f hf => ?_, fun events hevents m hm => ?_⟩
  · obtain ⟨s, i, rfl, hi, rfl⟩ := Session.exists_of_mem_history
      (p := fun s => s.config = config) rfl
      (fun s i hs _ => (s.course i).1.trans hs) hinputs m hm
    exact (Session.uttered_of_step hi hf).writable_iff hlength
  · obtain ⟨h, e, hs, -, rfl⟩ := forall_mem_history
      (p := fun h => Equipped config h.engagement) (Equipped.start config begun)
      (fun _ _ hs he => (stable_equipped config).step he hs) hevents m hm
    refine ⟨fun f hf => (uttered_of_due hs hf).writable_iff hlength, fun hthere => ?_⟩
    refine ⟨written_step hthere e, ?_⟩
    rintro n b now hstage rfl
    exact said_of_accepted hs hlength hthere hstage now

/-- The gateway has a name with a zero, and its settings are not refused. A client binds and is let
in, and the welcome cannot be written. -/
theorem not_writable_of_zero_in_name :
    let config : Config := { systemId := "smpp\x00gate" }
    let bind : Bind := ⟨.transceiver, "c", "p", "t", .v34, .unknown, .unknown, ""⟩
    let inputs : List Session.Input := [.frame (.known .ok 1 (.bind bind)) 0 0 (.ok ()) 0]
    config.validate = .ok () ∧
      ∃ m ∈ (Session.start config 0).history inputs, ∃ f ∈ m.output.written, ¬ f.Writable := by
  intro config bind inputs
  refine ⟨by decide, _, List.mem_singleton_self _, .bindAccepted .transceiver 1 config.systemId,
    List.mem_singleton_self _, fun hwritable => ?_⟩
  exact (Field.fits_iff.1 (Frame.writable_bindAccepted_iff.1 hwritable)).2 (by decide)

/-- The client of such a gateway gets a negative acknowledgement, and is bound. -/
theorem writable_iff_of_validate_zero :
    let config : Config := { systemId := "smpp\x00gate" }
    let events : List Event :=
      [.arrive [0, 0, 0, 26, 0, 0, 0, 9, 0, 0, 0, 0, 0, 0, 0, 1, 99, 0, 112, 0, 116, 0, 52, 0, 0, 0],
        .turn 1, .authenticated 2 (.ok ())]
    config.validate = .ok () ∧ (∀ e ∈ events, e.Sendable) ∧
      ∃ m ∈ (start config 0).history events,
        m.after.engagement.session.standing = (.bound .transceiver, some "c", 0) ∧
          m.said = [.nack .unknownError 1] := by
  intro config events
  have hvalid : config.validate = .ok () := by decide
  have hzero : '\x00' ∈ config.systemId.toList := by decide
  have hsendable : ∀ e ∈ events, e.Sendable := by
    simp [events, Event.Sendable]
  let asked : Handler := (start config 0).after (events.take 2)
  have hlast : asked.move (.authenticated 2 (.ok ())) ∈ (start config 0).history events :=
    List.mem_cons_of_mem _ (List.mem_cons_of_mem _ List.mem_cons_self)
  have hwaits : asked.stage =
      .authenticating 1 ⟨.transceiver, "c", "p", "t", .v34, .unknown, .unknown, ""⟩ := by
    decide +kernel
  have hthere : asked.connection.ending ≠ .reset := by
    decide +kernel
  obtain ⟨-, hmoves⟩ := writable_iff_of_validate config hvalid 0
  obtain ⟨hbound, hsaid⟩ := ((hmoves events hsendable _ hlast).2 hthere).2 _ _ 2 hwaits rfl
  exact ⟨hvalid, hsendable, _, hlast, hbound, hsaid.trans (congrArg (fun f => [f]) (if_pos hzero))⟩

end Handler

end Smpp
