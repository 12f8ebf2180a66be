import Smpp.Proofs.Session.Lifecycle
import Smpp.Timeline.Desk

/-!
# What reaches the backend

The backend is asked about a bind that comes to an open session, and gets a message that is
submitted while the client may transmit, nothing is pending under the number of the submit and there
is room for another message with the backend. `Session.asked` is this rule: the calls that a frame
leads to. `backend_hears_what_is_asked` says that a desk follows it, for every session that there
can be and every frame: these calls are made and no others, each once, and a submit that is not
admitted is refused for the first of the three reasons that there is.

A session that is over is the exception: it passes over a submit as it does over every frame
(`submit_after_end_unanswered`).
-/

namespace Smpp

/-! ### The rule -/

/-- What a backend is after a call. -/
def Backend.after (b : Backend) : CallRecord → Backend
  | .authenticate now c => (b.authenticate now c).1
  | .submit now m => (b.submit now m).1

/-- A backend that keeps a record has every call in it, in order. -/
theorem Backend.foldl_after_script (calls : List CallRecord) (b : ScriptedBackend) :
    ∃ b', calls.foldl Backend.after (.script b) = .script b' ∧ b'.calls = b.calls ++ calls := by
  induction calls generalizing b with
  | nil => exact ⟨b, rfl, (List.append_nil _).symm⟩
  | cons c cs ih =>
    have hcall : ∃ b', Backend.after (.script b) c = .script b' ∧ b'.calls = b.calls ++ [c] := by
      cases c with
      | authenticate now c => exact ⟨_, rfl, rfl⟩
      | submit now m => exact ⟨_, rfl, rfl⟩
    obtain ⟨b', hafter, hrecord⟩ := hcall
    obtain ⟨b'', hrest, hrecord'⟩ := ih b'
    refine ⟨b'', ?_, ?_⟩
    · rw [List.foldl_cons, hafter, hrest]
    · rw [hrecord', hrecord, List.append_assoc]
      rfl

/-- What a backend gets is what was submitted: in the name of the client, from and to the addresses
of the submit, with its text, or with the text of its parameter if the field for it is empty. -/
structure Submission.IsOf (m : Submission) (b : Submit) (systemId : String) : Prop where
  client : m.systemId = systemId
  source : m.source = b.source
  destination : m.destination = b.destination
  text : b.shortMessage ≠ [] ∨ b.parameters.messagePayload? = none → m.message = b.shortMessage
  payload : ∀ text, b.shortMessage = [] → b.parameters.messagePayload? = some text →
    m.message = text
  service : m.serviceType = b.serviceType
  handling : m.esmClass = b.esmClass ∧ m.protocolId = b.protocolId ∧ m.priority = b.priority
  times : m.scheduledTime = b.scheduledTime ∧ m.validityPeriod = b.validityPeriod
  delivery : m.registeredDelivery = b.registeredDelivery ∧ m.dataCoding = b.dataCoding
  parameters : m.parameters = b.parameters

theorem Submit.submission_isOf (b : Submit) (systemId : String) :
    (b.submission systemId).IsOf b systemId where
  client := rfl
  source := rfl
  destination := rfl
  text := by
    intro htext
    change b.message = b.shortMessage
    unfold Submit.message
    split
    · next hempty =>
      rw [List.isEmpty_iff] at hempty
      rw [htext.resolve_left (fun h => h hempty), hempty]
      rfl
    · rfl
  payload := by
    intro text hempty hpayload
    change b.message = text
    unfold Submit.message
    rw [hempty, hpayload]
    rfl
  service := rfl
  handling := ⟨rfl, rfl, rfl⟩
  times := ⟨rfl, rfl⟩
  delivery := ⟨rfl, rfl⟩
  parameters := rfl

namespace Session

/-- Whether a submit is admitted: the client may transmit, its number is not pending, and there is
room for another message with the backend. -/
def Admits (s : Session) (inFlight : Nat) (n : UInt32) : Prop :=
  s.state.canTransmit = true ∧ s.tracker.isPending n = false ∧
    inFlight < s.config.maxPendingSubmits

instance (s : Session) (inFlight : Nat) (n : UInt32) : Decidable (s.Admits inFlight n) :=
  inferInstanceAs (Decidable (_ ∧ _ ∧ _))

/-- The answer to a submit that is not admitted. -/
def refusal (s : Session) (n : UInt32) : Frame :=
  if s.state.canTransmit = false then .submitRefused n .invalidBindStatus
  else if s.tracker.isPending n = true then .nack .unknownError n
  else .submitRefused n .throttled

/-- The calls to the backend that a frame leads to. -/
def asked (s : Session) (now : Instant) (inFlight : Nat) : Frame → List CallRecord
  | .known _ _ (.bind b) => if s.state = .opened then [.authenticate now b.credentials] else []
  | .known _ n (.submit b) =>
    if s.Admits inFlight n then [.submit now (b.submission (s.systemId?.getD ""))] else []
  | _ => []

section Asked

variable (s : Session) (now : Instant) (inFlight : Nat) (status : CommandStatus) (n : UInt32)

theorem asked_bind (b : Bind) :
    s.asked now inFlight (.known status n (.bind b)) =
      if s.state = .opened then [.authenticate now b.credentials] else [] := rfl

theorem asked_submit (b : Submit) :
    s.asked now inFlight (.known status n (.submit b)) =
      if s.Admits inFlight n then [.submit now (b.submission (s.systemId?.getD ""))] else [] := rfl

end Asked

variable {s : Session}

/-- **A submit is admitted or refused.** -/
theorem submit_of_admits {now : Instant} {inFlight : Nat} {n : UInt32} {b : Submit}
    {r : Session × Action} (h : Submitted s now inFlight n b r) :
    (s.Admits inFlight n ∧ r.2 = .submit n (b.submission (s.systemId?.getD ""))) ∨
      (¬ s.Admits inFlight n ∧ r = (s, .reply (s.refusal n))) := by
  unfold refusal Admits
  cases h with
  | barred htransmit =>
    refine .inr ⟨fun h => ?_, ?_⟩
    · rw [htransmit] at h
      cases h.1
    · rw [if_pos htransmit]
  | duplicate htransmit hpending =>
    refine .inr ⟨fun h => ?_, ?_⟩
    · rw [hpending] at h
      cases h.2.1
    · rw [if_neg (by rw [htransmit]; exact Bool.noConfusion), if_pos hpending]
  | throttled htransmit hpending hfull =>
    refine .inr ⟨fun h => ?_, ?_⟩
    · exact Nat.not_lt_of_le hfull h.2.2
    · rw [if_neg (by rw [htransmit]; exact Bool.noConfusion),
        if_neg (by rw [hpending]; exact Bool.noConfusion)]
  | taken htransmit hroom htrack =>
    exact .inl ⟨⟨htransmit, (Tracker.track_eq_some_iff.1 htrack).1, hroom⟩, rfl⟩

/-- What a frame calls for, by what the backend is asked. -/
inductive Asks (s : Session) (now : Instant) (inFlight : Nat) (f : Frame) :
    Session × Action → Prop where
  /-- It is asked about a bind. -/
  | bind {status : CommandStatus} {n : UInt32} {b : Bind} {s' : Session}
    (hf : f = .known status n (.bind b)) (hopen : s.state = .opened) :
    Asks s now inFlight f (s', .authenticate n b)
  /-- It gets a message. -/
  | submit {status : CommandStatus} {n : UInt32} {b : Submit} {s' : Session}
    (hf : f = .known status n (.submit b)) (hadmits : s.Admits inFlight n) :
    Asks s now inFlight f (s', .submit n (b.submission (s.systemId?.getD "")))
  /-- It is not asked; a submit is passed over after the end and refused before it. -/
  | nothing {r : Session × Action} (hasked : s.asked now inFlight f = [])
    (hsubmit : ∀ n m, r.2 ≠ .submit n m) (hbind : ∀ n b, r.2 ≠ .authenticate n b)
    (hrefused : ∀ status n b, f = .known status n (.submit b) →
      ¬ s.Admits inFlight n ∧ (s.state = .closed → r = (s, .ignore)) ∧
        (s.state ≠ .closed → r = (s.touched now, .reply (s.refusal n)))) :
    Asks s now inFlight f r

theorem not_admits_of_closed (h : s.state = .closed) (inFlight : Nat) (n : UInt32) :
    ¬ s.Admits inFlight n := by
  intro hadmits
  have htransmit := hadmits.1
  rw [h] at htransmit
  cases htransmit

theorem asked_of_closed (h : s.state = .closed) (now : Instant) (inFlight : Nat) (f : Frame) :
    s.asked now inFlight f = [] := by
  unfold asked
  split
  · rw [if_neg (by rw [h]; exact fun h => nomatch h)]
  · rw [if_neg (not_admits_of_closed h inFlight _)]
  · rfl

theorem asked_of_response {f : Frame} (h : f.isResponse = true) (now : Instant) (inFlight : Nat) :
    s.asked now inFlight f = [] := by
  unfold asked
  split
  · rw [Frame.isResponse_bind] at h
    cases h
  · cases h
  · rfl

theorem not_opened_of_isBound (h : s.state.isBound = true) : s.state ≠ .opened := by
  intro hopen
  rw [hopen] at h
  cases h

/-- **A frame asks for what the rule says.** -/
theorem asks (s : Session) (now : Instant) (inFlight : Nat) (f : Frame) :
    Asks s now inFlight f (s.receive now inFlight f) := by
  have hreceived := received s now inFlight f
  generalize s.receive now inFlight f = r at hreceived
  cases hreceived with
  | late hover =>
    refine .nothing (asked_of_closed hover now inFlight f) (fun _ _ => nofun) (fun _ _ => nofun) ?_
    intro status n b hf
    exact ⟨not_admits_of_closed hover inFlight n, fun _ => rfl, fun hactive => absurd hover hactive⟩
  | unknown hactive =>
    exact .nothing rfl (fun _ _ => nofun) (fun _ _ => nofun) (fun _ _ _ hf => nomatch hf)
  | rebind hbound =>
    exact .nothing (if_neg (not_opened_of_isBound hbound)) (fun _ _ => nofun) (fun _ _ => nofun)
      (fun _ _ _ hf => nomatch hf)
  | bind hopen => exact .bind rfl hopen
  | unbind hbound =>
    exact .nothing rfl (fun _ _ => nofun) (fun _ _ => nofun) (fun _ _ _ hf => nomatch hf)
  | unbound hopen =>
    exact .nothing rfl (fun _ _ => nofun) (fun _ _ => nofun) (fun _ _ _ hf => nomatch hf)
  | @submit status n b _ hactive hsubmit =>
    -- A session that has just been touched admits what it admitted before, and refuses it likewise.
    obtain ⟨hadmits, haction⟩ | ⟨hbarred, rfl⟩ := submit_of_admits hsubmit
    · obtain ⟨s', a⟩ := r
      dsimp only at haction
      rw [haction]
      exact .submit rfl hadmits
    · refine .nothing (if_neg hbarred) (fun _ _ => nofun) (fun _ _ => nofun) ?_
      intro status n b hf
      cases hf
      exact ⟨hbarred, fun hover => absurd hover hactive, fun _ => rfl⟩
  | probe hactive =>
    exact .nothing rfl (fun _ _ => nofun) (fun _ _ => nofun) (fun _ _ _ hf => nomatch hf)
  | response hactive hresponse =>
    refine .nothing (asked_of_response hresponse now inFlight) (fun _ _ => nofun)
      (fun _ _ => nofun) ?_
    intro status n b hf
    rw [hf] at hresponse
    cases hresponse

/-- A message that is handed over was admitted. -/
theorem admits_of_dispatch {now : Instant} {inFlight : Nat} {f : Frame} {verdict : AuthResult}
    {decided : Instant} {n : UInt32} {m : Submission}
    (h : (s.dispatch now inFlight f verdict decided).2 = .submit n m) : s.Admits inFlight n := by
  have hasks := s.asks now inFlight f
  unfold dispatch at h
  generalize s.receive now inFlight f = r at hasks h
  cases hasks with
  | bind hf hopen =>
    -- The end of an authentication hands nothing over.
    dsimp only [conclude] at h
    cases verdict with
    | ok _ => cases h
    | error e =>
      dsimp only at h
      split at h
      · cases h
      · cases h
  | submit hf hadmits =>
    cases h
    exact hadmits
  | nothing hasked hsubmit hbind hrefused =>
    obtain ⟨s', a⟩ := r
    cases a with
    | submit n m => exact absurd rfl (hsubmit n m)
    | authenticate n b => exact absurd rfl (hbind n b)
    | reply g => cases h
    | replyAndClose g => cases h
    | ignore => cases h

end Session

namespace Desk

variable {d : Desk} {f : Frame}

/-- A frame that calls for neither leaves the backend as it is. -/
theorem dispatch_of_plain {r : Session × Action}
    (hreceive : d.engagement.session.receive d.now d.engagement.calls.inFlight f = r)
    (hsubmit : ∀ n m, r.2 ≠ .submit n m) (hbind : ∀ n b, r.2 ≠ .authenticate n b) :
    d.dispatch f = ({ d with engagement := (d.engagement.react r).1 }, (d.engagement.react r).2) ∧
      ∀ call m, (d.dispatch f).2 ≠ .submit call m := by
  unfold dispatch Engagement.receive
  rw [hreceive]
  obtain ⟨s, a⟩ := r
  cases a with
  | reply g => exact ⟨rfl, fun _ _ => nofun⟩
  | replyAndClose g => exact ⟨rfl, fun _ _ => nofun⟩
  | submit n m => exact absurd rfl (hsubmit n m)
  | authenticate n b => exact absurd rfl (hbind n b)
  | ignore => exact ⟨rfl, fun _ _ => nofun⟩

theorem dispatch_of_submit {s : Session} {n : UInt32} {m : Submission}
    (hreceive : d.engagement.session.receive d.now d.engagement.calls.inFlight f =
      (s, .submit n m)) :
    (d.dispatch f).1.backend = (d.backend.submit d.now m).1 ∧
      (d.dispatch f).2 = .submit d.engagement.calls.made m := by
  unfold dispatch Engagement.receive
  rw [hreceive]
  exact ⟨rfl, rfl⟩

theorem dispatch_of_authenticate {s : Session} {n : UInt32} {b : Bind}
    (hreceive : d.engagement.session.receive d.now d.engagement.calls.inFlight f =
      (s, .authenticate n b)) :
    (d.dispatch f).1.backend = (d.backend.authenticate d.now b.credentials).1 ∧
      ∀ call m, (d.dispatch f).2 ≠ .submit call m := by
  unfold dispatch Engagement.receive
  rw [hreceive]
  refine ⟨rfl, ?_⟩
  -- The end of an authentication is a frame to write, never a message.
  intro call m hsubmit
  have hconclude : ∃ e t verdict,
      Reaction.submit call m = (Engagement.conclude e t n b verdict).2 := ⟨_, _, _, hsubmit.symm⟩
  obtain ⟨e, t, verdict, hsubmit⟩ := hconclude
  obtain ⟨g, hg | hg⟩ := e.conclude_answers t n b verdict
  · rw [hg] at hsubmit
    cases hsubmit
  · rw [hg] at hsubmit
    cases hsubmit

end Desk

/-- **The backend hears what it is asked, and nothing else.** Whatever has become of a session and
however many messages are with the backend: a frame leads to the calls of `Session.asked`, each of
them once, and to no others, and a backend that keeps a record has them in it; a message is handed
over exactly if the frame is a submit that is admitted, and it is the message of the submit in the
name of the client; and a submit that is not admitted is answered with the reason for it, while what
is pending and what is with the backend stay as they are. After the end a submit changes nothing and
is not answered. -/
theorem backend_hears_what_is_asked (d : Desk) (f : Frame) :
    let s := d.engagement.session
    let inFlight := d.engagement.calls.inFlight
    let r := d.dispatch f
    r.1.backend = (s.asked d.now inFlight f).foldl Backend.after d.backend ∧
    (∀ b, d.backend = .script b →
      ∃ b', r.1.backend = .script b' ∧ b'.calls = b.calls ++ s.asked d.now inFlight f) ∧
    ((∃ call m, r.2 = .submit call m) ↔
      ∃ status n b, f = .known status n (.submit b) ∧ s.Admits inFlight n) ∧
    ∀ status n b, f = .known status n (.submit b) →
      (s.Admits inFlight n → ∃ m,
        s.asked d.now inFlight f = [.submit d.now m] ∧ r.2 = .submit d.engagement.calls.made m ∧
          m.IsOf b (s.systemId?.getD "") ∧
          ∀ config begun inputs, s = (Session.start config begun).after inputs →
            ∃ systemId, s.systemId? = some systemId ∧ m.IsOf b systemId) ∧
      (s.state = .closed → r = (d, .ignore)) ∧
      (s.state ≠ .closed → ¬ s.Admits inFlight n →
        r.2 = .reply (s.refusal n) ∧ r.1.engagement.session.tracker = s.tracker ∧
          r.1.engagement.calls = d.engagement.calls) := by
  intro s inFlight r
  have hasks := s.asks d.now inFlight f
  -- The record of a backend that keeps one is a case of what any backend is left with.
  suffices hrest : r.1.backend = (s.asked d.now inFlight f).foldl Backend.after d.backend ∧ _ by
    refine ⟨hrest.1, fun b hb => ?_, hrest.2⟩
    rw [hrest.1, hb]
    exact Backend.foldl_after_script _ b
  generalize hreceive : s.receive d.now inFlight f = x at hasks
  cases hasks with
  | @bind status n b s' hf hopen =>
    -- The call is the authentication, and the frame is no submit.
    obtain ⟨hbackend, hreaction⟩ := Desk.dispatch_of_authenticate hreceive
    subst hf
    have hasked : s.asked d.now inFlight (.known status n (.bind b)) =
        [.authenticate d.now b.credentials] := by
      rw [Session.asked_bind, if_pos hopen]
    refine ⟨by rw [hasked]; exact hbackend, ⟨?_, ?_⟩, fun _ _ _ hf => nomatch hf⟩
    · rintro ⟨call, m, hr⟩
      exact absurd hr (hreaction call m)
    · rintro ⟨_, _, _, hf, -⟩
      cases hf
  | @submit status n b s' hf hadmits =>
    obtain ⟨hbackend, hreaction⟩ := Desk.dispatch_of_submit hreceive
    subst hf
    have hasked : s.asked d.now inFlight (.known status n (.submit b)) =
        [.submit d.now (b.submission (s.systemId?.getD ""))] := by
      rw [Session.asked_submit, if_pos hadmits]
    refine ⟨by rw [hasked]; exact hbackend, ⟨fun _ => ?_, fun _ => ⟨_, _, hreaction⟩⟩, ?_⟩
    · exact ⟨status, n, b, rfl, hadmits⟩
    · intro _ _ _ hf
      cases hf
      refine ⟨fun _ => ?_, fun hover => ?_, fun _ hbarred => absurd hadmits hbarred⟩
      -- A session that was started and may transmit has a client, so the default for a session
      -- without one is never used.
      · refine ⟨_, hasked, hreaction, b.submission_isOf _, fun config begun inputs hs => ?_⟩
        obtain ⟨systemId, hclient⟩ := Session.named_of_reached hs hadmits.1
        exact ⟨systemId, hclient, hclient ▸ b.submission_isOf systemId⟩
      · exact absurd hadmits (Session.not_admits_of_closed hover _ n)
  -- No call is made; what is left to show is the refusal, of a submit that is not admitted.
  | nothing hasked hsubmit hbind hrefused =>
    obtain ⟨hdispatch, hcall⟩ := Desk.dispatch_of_plain hreceive hsubmit hbind
    refine ⟨by rw [hasked]; exact congrArg (fun r => r.1.backend) hdispatch, ⟨?_, ?_⟩, ?_⟩
    · rintro ⟨call, m, hr⟩
      exact absurd hr (hcall call m)
    · rintro ⟨status, n, b, hf, hadmits⟩
      exact absurd hadmits (hrefused status n b hf).1
    · intro status n b hf
      obtain ⟨hbarred, hover, hactive⟩ := hrefused status n b hf
      have hr : r = ({ d with engagement := (d.engagement.react x).1 }, (d.engagement.react x).2) :=
        hdispatch
      refine ⟨fun hadmits => absurd hadmits hbarred, fun hclosed => ?_, fun hopen _ => ?_⟩
      · rw [hr, hover hclosed]
        rfl
      · rw [hr, hactive hopen]
        exact ⟨rfl, rfl, rfl⟩

/-- A client that submits after the end of its session gets no answer, not even that it may not
submit. -/
theorem submit_after_end_unanswered :
    let s := (Session.start {} 0).after [.close]
    let submit : Submit := {
      serviceType := "", source := ⟨.unknown, .unknown, "1000"⟩,
      destination := ⟨.unknown, .unknown, "2000"⟩, esmClass := 0, protocolId := 0,
      priority := .level0, scheduledTime := "", validityPeriod := "", registeredDelivery := 0,
      replaceIfPresent := 0, dataCoding := 0, defaultMessageId := 0, shortMessage := [104, 105],
      parameters := .empty }
    let d : Desk := ⟨0, .memory {}, ⟨s, {}⟩, {}⟩
    s.state.canTransmit = false ∧
      (d.dispatch (.known .ok 7 (.submit submit))).2 = .ignore ∧
      (d.dispatch (.known .ok 7 (.submit submit))).2 ≠
        .reply (.submitRefused 7 .invalidBindStatus) := by
  refine ⟨rfl, rfl, nofun⟩

end Smpp
