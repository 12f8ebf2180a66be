import Smpp.Proofs.Handler.Steps
import Smpp.Proofs.Session.Lifecycle

/-!
# Runs of a handler

`Handler.stepped` lists what a step may make of a handler: it takes note, it serves on, it begins to
wait for an authentication, or it ends. `Handler.Sound` is the invariant, that a handler has ended
exactly when its session is over, waits only for the bind of an open session, and has a client
exactly if one is bound; every step preserves it (`Sound.step`). The end is for good and silent
(`step_of_ended`), and what a handler does last in a run is to close the connection
(`nothing_after_close`).
-/

namespace Smpp

namespace Session

/-- What a session that goes on keeps. -/
structure GoesOn (s s' : Session) : Prop where
  sound : s.Sound → s'.Sound
  named : s.Named → s'.Named
  active : s.state ≠ .closed → s'.state ≠ .closed

theorem GoesOn.refl (s : Session) : s.GoesOn s := ⟨id, id, id⟩

theorem GoesOn.trans {s s' s'' : Session} (h : s.GoesOn s') (h' : s'.GoesOn s'') : s.GoesOn s'' :=
  ⟨h'.sound ∘ h.sound, h'.named ∘ h.named, h'.active ∘ h.active⟩

theorem goesOn_touched (s : Session) (now : Instant) : s.GoesOn (s.touched now) :=
  ⟨fun hs => ⟨hs.distinct, hs.nothing_pending⟩, fun hn => hn.of_eq rfl rfl, id⟩

/-- A frame that does not end a session lets it go on. -/
theorem goesOn_receive (s : Session) (now : Instant) (inFlight : Nat) (f : Frame) :
    (∃ r, (s.receive now inFlight f).2 = .replyAndClose r) ∨
      s.GoesOn (s.receive now inFlight f).1 := by
  have hreceived := received s now inFlight f
  generalize s.receive now inFlight f = r at hreceived
  -- Only the request of a bound client to end is answered for the last time.
  cases hreceived with
  | late hover => exact .inr (GoesOn.refl s)
  | unbind hbound => exact .inl ⟨_, rfl⟩
  | @submit status n b _ hactive hsubmit =>
    have hdispatched := dispatched_submit now inFlight hactive status n b hsubmit
    refine .inr ⟨fun hs => hs.dispatched hdispatched, ?_, ?_⟩
    · cases hsubmit <;> exact fun hn => hn.of_eq rfl rfl
    · cases hsubmit <;> exact id
  | unknown | rebind | bind | unbound | probe | response => exact .inr (goesOn_touched s now)

/-- The end of an authentication that does not end a session lets it go on. -/
theorem goesOn_conclude (s : Session) (now : Instant) (n : UInt32) (b : Bind)
    (result : AuthResult) :
    (∃ r, (s.conclude now n b result).2 = .replyAndClose r) ∨
      s.GoesOn (s.conclude now n b result).1 := by
  unfold conclude
  cases result with
  | ok _ =>
    exact .inr ⟨fun hs => ⟨hs.distinct, fun h => nomatch h⟩,
      fun _ => Session.Named.of_bound rfl rfl, fun _ h => nomatch h⟩
  | error e =>
    dsimp only
    split
    · exact .inl ⟨_, rfl⟩
    · exact .inr ⟨fun hs => ⟨hs.distinct, hs.nothing_pending⟩, fun hn => hn.of_eq rfl rfl, id⟩

theorem goesOn_complete (s : Session) (c : Completion) : s.GoesOn (s.complete c).1 := by
  have hsound : s.Sound → (s.complete c).1.Sound := fun hs => hs.step (.complete c)
  by_cases hactive : s.state = .closed
  · rw [complete_of_closed hactive]
    exact GoesOn.refl s
  rw [complete_of_active hactive] at hsound ⊢
  split
  · next hpending =>
    rw [if_pos hpending] at hsound
    exact ⟨hsound, fun hn => hn.of_eq rfl rfl, id⟩
  · exact GoesOn.refl s

theorem goesOn_expire (s : Session) (now : Instant) : s.GoesOn (s.expire now).1 :=
  ⟨fun hs => hs.step (.expire now), fun hn => hn.of_eq rfl rfl, id⟩

theorem goesOn_keepalive (s : Session) (now : Instant) : s.GoesOn (s.keepalive now).1 := by
  obtain ⟨probe, next, hframe⟩ := keepalive_frame (s := s) now
  rw [hframe]
  exact ⟨fun hs => ⟨hs.distinct, hs.nothing_pending⟩, fun hn => hn.of_eq rfl rfl, id⟩

end Session

namespace Handler

/-! ### What becomes of a handler -/

/-- What becomes of a handler by one thing that it is told, be it that it is cancelled or not, and
what it does in return. -/
inductive Stepped (h : Handler) : Bool → Handler × List Effect → Prop where
  /-- It takes note of what it is told, or finds nothing to do. -/
  | notes {h' : Handler} {cancels : Bool} (hstage : h'.stage = h.stage)
    (hsession : h'.engagement.session = h.engagement.session)
    (hcancelled : h'.cancelled = (h.cancelled || cancels)) : Stepped h cancels (h', [])
  /-- It serves its client from now on, or still does. -/
  | serves {h' : Handler} {es : List Effect} (hactive : h.reason? = none)
    (hstage : h'.stage = .serving) (hsession : h.engagement.session.GoesOn h'.engagement.session)
    (hcancelled : h'.cancelled = h.cancelled) (hopen : Effect.close ∉ es)
    (hquiet : ∀ c, Effect.authenticate c ∉ es) : Stepped h false (h', es)
  /-- It asks the backend about a bind, and waits. -/
  | asks {h' : Handler} {n : UInt32} {b : Bind} {now : Instant} (hstage : h.stage = .serving)
    (hopened : h.engagement.session.state = .opened) (hwaits : h'.stage = .authenticating n b)
    (hsession : h'.engagement.session = h.engagement.session.touched now)
    (hcancelled : h'.cancelled = h.cancelled) :
    Stepped h false (h', [.authenticate b.credentials])
  /-- It closes the connection, having said what there was to say. -/
  | ends {h' : Handler} {es : List Effect} {reason : CloseReason} (hactive : h.reason? = none)
    (hstage : h'.stage = .ended reason) (hsession : h'.engagement.session.state = .closed)
    (hpending : h'.engagement.session.tracker.pending = [])
    (hcancelled : h'.cancelled = h.cancelled)
    (hreason : reason = .shutdown → h.cancelled = true) (hspoken : Spoken es) :
    Stepped h false (h', es ++ [.close])

section Stepped

variable {h₀ h : Handler}

theorem reason?_of_serving (hserving : h.isServing = true) : h.reason? = none := by
  unfold reason?
  rw [isServing_iff.1 hserving]

theorem reason?_of_authenticating {n : UInt32} {b : Bind} (hstage : h.stage = .authenticating n b) :
    h.reason? = none := by
  unfold reason?
  rw [hstage]

theorem stepped_finish (hactive : h₀.reason? = none) (hcancelled : h.cancelled = h₀.cancelled)
    {es : List Effect} (hspoken : Spoken es) {reason : CloseReason}
    (hreason : reason = .shutdown → h₀.cancelled = true) :
    Stepped h₀ false ((h.finish reason).1, es ++ [.close]) :=
  .ends hactive rfl rfl rfl hcancelled hreason hspoken

theorem stepped_unbindAndFinish (hactive : h₀.reason? = none)
    (hcancelled : h.cancelled = h₀.cancelled) {reason : CloseReason}
    (hreason : reason = .shutdown → h₀.cancelled = true) :
    Stepped h₀ false (h.unbindAndFinish reason) := by
  obtain ⟨fs, hfinish, -⟩ := unbindAndFinish_eq h reason
  rw [hfinish]
  exact stepped_finish (h := h.withSession h.engagement.session.shutdownFrame.1) hactive
    hcancelled (spoken_farewells fs) hreason

/-- Frames are sent, or the handler ends over them. -/
theorem stepped_sendAll (hactive : h₀.reason? = none) (hserving : h.isServing = true)
    (hsession : h₀.engagement.session.GoesOn h.engagement.session)
    (hcancelled : h.cancelled = h₀.cancelled) (fs : List Frame) :
    Stepped h₀ false (h.sendAll fs) := by
  obtain ⟨sent, hsent⟩ | hends := sendAll_cases hserving fs
  · rw [hsent]
    exact .serves hactive (isServing_iff.1 hserving) hsession hcancelled
      (spoken_writes sent).close_not_mem (spoken_writes sent).authenticate_not_mem
  · rw [hends]
    exact stepped_finish hactive hcancelled (spoken_writes []) fun h => nomatch h

/-- A last frame is sent, or the handler ends over it; either way it ends. -/
theorem stepped_send_finish (hactive : h₀.reason? = none) (hserving : h.isServing = true)
    (hcancelled : h.cancelled = h₀.cancelled) (f : Frame) (reason : Handler → CloseReason)
    (hreason : ∀ h, reason h ≠ .shutdown) :
    Stepped h₀ false (andThen (h.send f) fun h => h.finish (reason h)) := by
  by_cases hgone : h.connection.ending = .reset
  · rw [send_of_gone hgone f]
    exact stepped_finish hactive hcancelled (spoken_writes []) fun h => nomatch h
  · rw [send_of_there hgone f, andThen_of_serving hserving]
    exact stepped_finish hactive hcancelled (spoken_writes [f]) fun h => absurd h (hreason _)

/-- A session that asks about a bind is open, and nothing but the time has changed. -/
theorem of_receive_authenticate {s s' : Session} {now : Instant} {inFlight : Nat} {f : Frame}
    {n : UInt32} {b : Bind} (h : s.receive now inFlight f = (s', .authenticate n b)) :
    s.state = .opened ∧ s' = s.touched now ∧ ∃ status, f = .known status n (.bind b) := by
  have hreceived := Session.received s now inFlight f
  rw [h] at hreceived
  cases hreceived with
  | bind hopen => exact ⟨hopen, rfl, _, rfl⟩
  | submit hactive hsubmit => cases hsubmit

/-- A frame is answered, taken on, or the last. -/
theorem stepped_carryOut_receive {c : Connection} (hserving : h.isServing = true) (now : Instant)
    (f : Frame) :
    Stepped h false (({ h with connection := c, engagement := (h.engagement.receive now f).1 } :
      Handler).carryOut (h.engagement.receive now f).2) := by
  have hactive := reason?_of_serving hserving
  have hstage := isServing_iff.1 hserving
  unfold Engagement.receive
  have hgoes := h.engagement.session.goesOn_receive now h.engagement.calls.inFlight f
  cases hreceive : h.engagement.session.receive now h.engagement.calls.inFlight f with
  | mk session action =>
  rw [hreceive] at hgoes
  -- By what the session asks for: an answer and a submit leave the handler where it was, an answer
  -- that is the last ends it, and an authentication takes it out of the loop.
  cases action with
  | reply r =>
    obtain ⟨_, hr⟩ | hgoes := hgoes
    · cases hr
    · have hsend := stepped_sendAll
        (h := { h with connection := c, engagement := ⟨session, h.engagement.calls⟩ })
        hactive hserving hgoes rfl [r]
      rw [← send_eq_sendAll] at hsend
      exact hsend
  | replyAndClose r =>
    refine stepped_send_finish
      (h := { h with connection := c, engagement := ⟨session, h.engagement.calls⟩ })
      hactive hserving rfl r
      (fun h => if h.engagement.session.systemId?.isSome then .unbound else .bindAttemptsExceeded)
      fun h => ?_
    split <;> exact fun h => nomatch h
  | submit n submission =>
    obtain ⟨_, hr⟩ | hgoes := hgoes
    · cases hr
    · exact .serves hactive hstage hgoes rfl (by simp) (by simp)
  | authenticate n b =>
    obtain ⟨hopened, hsession, -⟩ := of_receive_authenticate hreceive
    exact .asks hstage hopened rfl hsession rfl
  | ignore =>
    obtain ⟨_, hr⟩ | hgoes := hgoes
    · cases hr
    · exact .serves hactive hstage hgoes rfl List.not_mem_nil fun _ => List.not_mem_nil

theorem stepped_onRead {c : Connection} (hserving : h.isServing = true) (now : Instant)
    (r : ReadResult) : Stepped h false (({ h with connection := c } : Handler).onRead now r) := by
  have hactive := reason?_of_serving hserving
  -- Only a frame gets to the session; what is no frame is answered by the handler, or ends it.
  have hsame := Session.GoesOn.refl h.engagement.session
  have hfinish (reason : CloseReason) (hreason : reason ≠ .shutdown) :
      Stepped h false (({ h with connection := c } : Handler).finish reason) :=
    stepped_finish (h := { h with connection := c }) hactive rfl (spoken_writes [])
      fun h => absurd h hreason
  match r with
  | .frame f => exact stepped_carryOut_receive hserving now f
  | .pending => exact .notes rfl rfl (Bool.or_false _).symm
  | .closed => exact hfinish .peerClosed fun h => nomatch h
  | .error (.malformed command n cause) =>
    have hsend := stepped_sendAll (h := { h with connection := c }) hactive hserving hsame rfl
      [.nack cause.status n]
    rw [← send_eq_sendAll] at hsend
    exact hsend
  | .error (.framing (some n) cause) =>
    exact stepped_send_finish (h := { h with connection := c }) hactive hserving rfl _
      (fun _ => .protocolError) fun _ h => nomatch h
  | .error (.framing none cause) => exact hfinish .protocolError fun h => nomatch h
  | .error (.encode cause) => exact hfinish .transportError fun h => nomatch h
  | .error .reset => exact hfinish .transportError fun h => nomatch h
  | .error (.io text) => exact hfinish .transportError fun h => nomatch h

theorem stepped_turn (now : Instant) : Stepped h false ((h.turn now).getD (h, [])) := by
  have hturned := turned h now
  generalize h.turn now = r at hturned
  cases hturned with
  | idle => exact .notes rfl rfl (Bool.or_false _).symm
  | waits => exact .notes rfl rfl (Bool.or_false _).symm
  | obeys hserving hcancelled =>
    exact stepped_unbindAndFinish (reason?_of_serving hserving) rfl fun _ => hcancelled
  | @completes engagement completion answer hserving hcancelled hnext =>
    refine stepped_sendAll (h := { h with engagement }) (reason?_of_serving hserving) hserving ?_
      rfl _
    unfold Engagement.completeNext at hnext
    split at hnext
    · cases hnext
    · next calls _ =>
      cases hnext
      exact h.engagement.session.goesOn_complete completion
  | reads hserving hcancelled hnext hread hresult => exact stepped_onRead hserving now _

theorem stepped_tick (now : Instant) : Stepped h false (h.tick now) := by
  have hlooked := looked h now
  have hexpire := h.engagement.session.goesOn_expire now
  generalize h.tick now = r at hlooked
  cases hlooked with
  | early hearly => exact .notes rfl rfl (Bool.or_false _).symm
  | @gone s es hserving hs hspoken =>
    exact stepped_finish (h := h.withSession s) (reason?_of_serving hserving) rfl hspoken
      fun h => nomatch h
  | @silent es hserving hidle hspoken =>
    exact stepped_finish (h := h.withSession (h.engagement.session.expire now).1.shutdownFrame.1)
      (reason?_of_serving hserving) rfl hspoken fun h => nomatch h
  | awake hserving hidle =>
    exact .serves (reason?_of_serving hserving) (isServing_iff.1 hserving)
      (hexpire.trans (Session.goesOn_keepalive _ now)) rfl (spoken_writes _).close_not_mem
      (spoken_writes _).authenticate_not_mem

theorem stepped_authenticated (now : Instant) (result : AuthResult) :
    Stepped h false (h.authenticated now result) := by
  unfold authenticated
  split
  case h_2 => exact .notes rfl rfl (Bool.or_false _).symm
  case h_3 => exact .notes rfl rfl (Bool.or_false _).symm
  next n b hstage =>
  have hactive := reason?_of_authenticating hstage
  unfold Engagement.conclude
  have hgoes := h.engagement.session.goesOn_conclude now n b result
  obtain ⟨r, hr⟩ := h.engagement.conclude_answers now n b result
  unfold Engagement.conclude at hr
  cases hconclude : h.engagement.session.conclude now n b result with
  | mk session action =>
  rw [hconclude] at hgoes hr
  cases action with
  | reply r =>
    obtain ⟨_, hr⟩ | hgoes := hgoes
    · cases hr
    · have hsend := stepped_sendAll
        (h := { h with engagement := ⟨session, h.engagement.calls⟩, stage := .serving })
        hactive rfl hgoes rfl [r]
      rw [← send_eq_sendAll] at hsend
      exact hsend
  | replyAndClose r =>
    refine stepped_send_finish
      (h := { h with engagement := ⟨session, h.engagement.calls⟩, stage := .serving })
      hactive rfl rfl r
      (fun h => if h.engagement.session.systemId?.isSome then .unbound else .bindAttemptsExceeded)
      fun h => ?_
    split <;> exact fun h => nomatch h
  -- The end of an authentication is always answered.
  | submit n submission => obtain hr | hr := hr <;> cases hr
  | authenticate n b => obtain hr | hr := hr <;> cases hr
  | ignore => obtain hr | hr := hr <;> cases hr

end Stepped

/-- **What becomes of a handler by whatever it is told.** -/
theorem stepped (h : Handler) (e : Event) : Stepped h e.cancels (h.step e) := by
  cases e with
  | arrive bs => exact .notes rfl rfl (Bool.or_false _).symm
  | endStream ending => exact .notes rfl rfl (Bool.or_false _).symm
  | cancel => exact .notes rfl rfl (Bool.or_true _).symm
  | answer call result => exact .notes rfl rfl (Bool.or_false _).symm
  | authenticated now result => exact stepped_authenticated now result
  | turn now => exact stepped_turn now
  | tick now => exact stepped_tick now

/-! ### The invariant -/

/-- A handler has ended exactly when its session is over, what it waits for is the bind of a session
that is open, and whether it has a client goes by the state of its session. -/
structure Sound (h : Handler) : Prop where
  session : h.engagement.session.Sound
  named : h.engagement.session.Named
  over_iff : h.reason?.isSome = true ↔ h.engagement.session.state = .closed
  opened : ∀ n b, h.stage = .authenticating n b → h.engagement.session.state = .opened
  obedient : h.reason? = some .shutdown → h.cancelled = true

theorem Sound.start (config : Config) (now : Instant) : (start config now).Sound where
  session := Session.Sound.start config now
  named := Session.Named.start config now
  over_iff := ⟨fun h => (nomatch h), fun h => (nomatch h)⟩
  opened := fun _ _ h => nomatch h
  obedient := fun h => nomatch h

section Invariant

variable {h : Handler}

theorem reason?_eq {h' : Handler} (hstage : h'.stage = h.stage) : h'.reason? = h.reason? := by
  unfold reason?
  rw [hstage]

/-- A handler that has not ended has a session that goes on. -/
theorem Sound.active (hs : h.Sound) (hactive : h.reason? = none) :
    h.engagement.session.state ≠ .closed := by
  intro hover
  have hended := hs.over_iff.2 hover
  rw [hactive] at hended
  cases hended

/-- **Every step preserves the invariant.** -/
theorem Sound.step (hs : h.Sound) (e : Event) : (h.step e).1.Sound := by
  have hstepped := stepped h e
  generalize h.step e = r, e.cancels = cancels at hstepped
  -- By what becomes of the handler: it takes something down, serves on, waits for a verdict, or
  -- ends.
  cases hstepped with
  | notes hstage hsession hcancelled =>
    refine ⟨hsession ▸ hs.session, hsession ▸ hs.named, ?_, ?_, ?_⟩
    · rw [reason?_eq hstage, hsession]
      exact hs.over_iff
    · rw [hstage, hsession]
      exact hs.opened
    · rw [reason?_eq hstage]
      intro h
      rw [hcancelled, hs.obedient h]
      rfl
  | serves hactive hstage hsession hcancelled hopen =>
    have hgoes := hsession.active (hs.active hactive)
    refine ⟨hsession.sound hs.session, hsession.named hs.named, ?_, ?_, ?_⟩
    · rw [reason?_of_serving (isServing_iff.2 hstage)]
      exact ⟨fun h => (nomatch h), fun h => absurd h hgoes⟩
    · rw [hstage]
      exact fun _ _ h => nomatch h
    · rw [reason?_of_serving (isServing_iff.2 hstage)]
      exact fun h => nomatch h
  | asks hstage hopened hwaits hsession hcancelled =>
    -- The session has been touched by the frame and is open as before.
    refine ⟨?_, ?_, ?_, ?_, ?_⟩
    · rw [hsession]
      exact ⟨hs.session.distinct, hs.session.nothing_pending⟩
    · rw [hsession]
      exact hs.named.of_eq rfl rfl
    · rw [reason?_of_authenticating hwaits, hsession]
      exact ⟨fun h => (nomatch h), fun h => (nomatch hopened.symm.trans h)⟩
    · intro _ _ _
      rw [hsession]
      exact hopened
    · rw [reason?_of_authenticating hwaits]
      exact fun h => nomatch h
  | ends hactive hstage hsession hpending hcancelled hreason =>
    -- A session that is over has nothing pending, so no number is pending twice.
    refine ⟨⟨?_, fun _ => hpending⟩, Session.Named.of_closed hsession, ?_, ?_, ?_⟩
    · unfold Tracker.Distinct
      rw [hpending]
      exact List.nodup_nil
    · unfold reason?
      rw [hstage]
      exact ⟨fun _ => hsession, fun _ => rfl⟩
    · rw [hstage]
      exact fun _ _ h => nomatch h
    · unfold reason?
      rw [hstage, hcancelled]
      exact fun h => hreason (Option.some.inj h)

theorem Sound.after (hs : h.Sound) (events : List Event) : (h.after events).Sound :=
  after_of_step (q := fun _ => True) hs (fun _ e hs _ => hs.step e) fun _ _ => trivial

/-- **The end is for good, and silent.** -/
theorem step_of_ended {reason : CloseReason} (hended : h.reason? = some reason) (e : Event) :
    (h.step e).1.reason? = some reason ∧ (h.step e).2 = [] ∧
      (h.step e).1.engagement.session = h.engagement.session := by
  have hstepped := stepped h e
  generalize h.step e = r, e.cancels = cancels at hstepped
  cases hstepped with
  | notes hstage hsession hcancelled => exact ⟨(reason?_eq hstage).trans hended, rfl, hsession⟩
  | serves hactive => rw [hactive] at hended; cases hended
  | asks hstage =>
    rw [reason?_of_serving (isServing_iff.2 hstage)] at hended
    cases hended
  | ends hactive => rw [hactive] at hended; cases hended

/-- Only the worker cancels a handler, and for good. -/
@[simp] theorem cancelled_step (h : Handler) (e : Event) :
    (h.step e).1.cancelled = (h.cancelled || e.cancels) := by
  have hstepped := stepped h e
  generalize h.step e = r, e.cancels = cancels at hstepped ⊢
  cases hstepped with
  | notes hstage hsession hcancelled => exact hcancelled
  | serves _ _ _ hcancelled => exact hcancelled.trans (Bool.or_false _).symm
  | asks _ _ _ _ hcancelled => exact hcancelled.trans (Bool.or_false _).symm
  | ends _ _ _ _ hcancelled => exact hcancelled.trans (Bool.or_false _).symm

/-- The effects of a run. -/
def effects (moves : List Move) : List Effect := moves.flatMap Move.effects

theorem effects_of_ended {reason : CloseReason} (hended : h.reason? = some reason)
    (events : List Event) : effects (h.history events) = [] := by
  induction events generalizing h with
  | nil => rfl
  | cons e es ih =>
    obtain ⟨hended', hsilent, -⟩ := step_of_ended hended e
    rw [history_cons]
    change (h.step e).2 ++ effects ((h.step e).1.history es) = []
    rw [hsilent, ih hended']
    rfl

/-- **The last thing that a handler does is to close its connection.** -/
theorem nothing_after_close (h : Handler) (events : List Event) {done left : List Effect}
    (hclose : effects (h.history events) = done ++ .close :: left) : left = [] := by
  induction events generalizing h done with
  | nil => exact absurd hclose (by simp [effects])
  | cons e es ih =>
    rw [history_cons] at hclose
    change (h.step e).2 ++ effects ((h.step e).1.history es) = _ at hclose
    have hstepped := stepped h e
    have hrest : ∀ done, effects ((h.step e).1.history es) = done ++ .close :: left → left = [] :=
      fun done => ih (h.step e).1
    generalize h.step e = r, e.cancels = cancels at hstepped hclose hrest
    -- A step that goes on does not close, so it is behind the step that the connection is closed.
    have hlater (hopen : Effect.close ∉ r.2) : left = [] := by
      obtain ⟨more, hdone, hmore⟩ | ⟨more, hdone, hmore⟩ := List.append_eq_append_iff.1 hclose
      · exact hrest more hmore
      · cases more with
        | nil =>
          rw [List.nil_append] at hmore
          exact hrest [] hmore.symm
        | cons a more =>
          cases hmore
          exact absurd (hdone ▸ List.mem_append_right _ List.mem_cons_self) hopen
    cases hstepped with
    | notes => exact hlater List.not_mem_nil
    | serves _ _ _ _ hopen => exact hlater hopen
    | asks => exact hlater (by simp)
    | @ends h' es reason hactive hstage _ _ _ _ hspoken =>
      have hended : h'.reason? = some reason := by
        unfold reason?
        rw [hstage]
      dsimp only at hclose
      -- Nothing comes from the steps behind the one that ends, and in that one the close is last.
      rw [effects_of_ended hended, List.append_nil] at hclose
      obtain rfl | ⟨left, last, rfl⟩ := List.eq_nil_or_concat left
      · rfl
      · rw [List.concat_eq_append, ← List.cons_append, ← List.append_assoc] at hclose
        obtain ⟨hwrites, -⟩ := List.append_inj' hclose rfl
        have hmem : Effect.close ∈ es := by
          rw [hwrites]
          exact List.mem_append_right _ List.mem_cons_self
        exact absurd hmem hspoken.close_not_mem

end Invariant

end Handler

end Smpp
