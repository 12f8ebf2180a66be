import Smpp.Proofs.Handler.Attempts
import Smpp.Proofs.Handler.Writing

/-!
# Binds that fail, and why a handler ends

The reason for which a handler closes its connection is not handed on to it by the session that is
over: it is read off afterwards, from whether the session has a client. That this is the right
reason is a matter of the whole past. An open session has no client, since nothing but a bind that
succeeds gives it one (`Session.Named`), and the request to end is granted to a bound client only.

`Handler.Counts` is the invariant: while a session is open, its count is the number of failures that
were answered. Every step preserves it, by the cases of `Handler.Attempted`. The capstone is
`Handler.binds_of_run`.
-/

namespace Smpp

namespace Handler

/-! ### The count -/

/-- What the steps that a handler has made say of it. -/
structure Counts (config : Config) (done : List Move) (h : Handler) : Prop where
  sound : h.Sound
  settings : h.engagement.session.config = config
  /-- While a session is open, its count is the number of failures that were answered. -/
  counted : h.engagement.session.state = .opened →
    h.engagement.session.failedBinds = done.countP Move.refusesClient
  /-- Unless the handler has ended over them, fewer failed than are allowed. -/
  fewer : h.reason? ≠ some .bindAttemptsExceeded →
    done.countP Move.refusesClient < config.maxBindAttempts
  /-- It ends over them with the last one that is allowed. -/
  exceeded : h.reason? = some .bindAttemptsExceeded →
    done.countP Move.refusesClient = config.maxBindAttempts
  /-- Nobody is bound who was not let in. -/
  unbound : (∀ m ∈ done, m.admitsClient = false) → h.engagement.session.state.isBound = false

section Counts

variable {config : Config} {done : List Move} {h : Handler}

theorem Counts.start (hattempts : 0 < config.maxBindAttempts) (begun : Instant) :
    Counts config [] (start config begun) where
  sound := Sound.start config begun
  settings := rfl
  counted _ := rfl
  fewer _ := hattempts
  exceeded h := nomatch h
  unbound _ := rfl

theorem countP_refuses (done : List Move) {m : Move} {b : Bool} (hm : m.refusesClient = b) :
    (done ++ [m]).countP Move.refusesClient =
      done.countP Move.refusesClient + if b then 1 else 0 := by
  rw [List.countP_append, List.countP_singleton, hm]

theorem not_opened_of_ended (hs : h.Sound) {reason : CloseReason}
    (hreason : h.reason? = some reason) : h.engagement.session.state ≠ .opened := by
  rw [hs.over_iff.1 (by rw [hreason]; rfl)]
  exact fun h => nomatch h

/-- A handler that ends without a bind being refused ends with the count that it had. -/
theorem Counts.ends (hs : Counts config done h) (hactive : h.reason? = none) {m : Move}
    (hrefuses : m.refusesClient = false) {h' : Handler} (hsound : h'.Sound)
    (hsettings : h'.engagement.session.config = config) {reason : CloseReason}
    (hreason : h'.reason? = some reason) (hattempts : reason ≠ .bindAttemptsExceeded) :
    Counts config (done ++ [m]) h' where
  sound := hsound
  settings := hsettings
  counted hopen := absurd hopen (not_opened_of_ended hsound hreason)
  fewer _ := by
    rw [countP_refuses done hrefuses]
    exact hs.fewer (by rw [hactive]; exact fun h => nomatch h)
  exceeded hexceeded := by
    rw [hreason] at hexceeded
    exact absurd (Option.some.inj hexceeded) hattempts
  unbound _ := by
    rw [hsound.over_iff.1 (by rw [hreason]; rfl)]
    rfl

/-- **Every step keeps the count.** -/
theorem Counts.step (hs : Counts config done h) (e : Event) :
    Counts config (done ++ [h.move e]) (h.step e).1 := by
  have hsound := hs.sound.step e
  have hsettings := (stable_settings config).step (e := e) trivial hs.settings
  have hfew (hactive : h.reason? = none) :
      done.countP Move.refusesClient < config.maxBindAttempts :=
    hs.fewer (by rw [hactive]; exact fun h => nomatch h)
  cases attempted hs.sound e with
  -- The move is no attempt: either all that counts is as it was, or the handler ends for another
  -- reason.
  | passes hpasses hrefuses =>
    obtain ⟨hstanding, hreason⟩ | ⟨hactive, reason, hreason, -, hattempts⟩ := hpasses
    · obtain ⟨hstate, -, hfailed⟩ := Session.standing_eq_iff.1 hstanding
      change (h.step e).1.engagement.session.state = h.engagement.session.state at hstate
      change (h.step e).1.engagement.session.failedBinds = _ at hfailed
      change (h.step e).1.reason? = h.reason? at hreason
      refine ⟨hsound, hsettings, ?_, ?_, ?_, fun hnobody => ?_⟩
      · rw [hstate, hfailed, countP_refuses done hrefuses]
        exact hs.counted
      · rw [hreason, countP_refuses done hrefuses]
        exact hs.fewer
      · rw [hreason, countP_refuses done hrefuses]
        exact hs.exceeded
      · rw [hstate]
        exact hs.unbound fun m hm => hnobody m (List.mem_append_left _ hm)
    · exact hs.ends hactive hrefuses hsound hsettings hreason hattempts
  | unbinds hactive _ hrefuses hafter =>
    exact hs.ends hactive hrefuses hsound hsettings hafter fun h => nomatch h
  -- A session that is bound is not open, so its own count says nothing more of the moves.
  | binds hactive hadmits hrefuses _ hstanding hafter =>
    have hbound := congrArg Prod.fst hstanding
    change (h.step e).1.engagement.session.state = _ at hbound
    change (h.step e).1.reason? = none at hafter
    refine ⟨hsound, hsettings, ?_, fun _ => ?_, ?_, fun hnobody => ?_⟩
    · rw [hbound]
      exact fun h => nomatch h
    · rw [countP_refuses done hrefuses]
      exact hfew hactive
    · rw [hafter]
      exact fun h => nomatch h
    · have hnot := hnobody _ (List.mem_append_right _ (List.mem_singleton_self _))
      rw [hadmits] at hnot
      cases hnot
  -- One more failure on both sides, and the guard of the session says that it is not the last.
  | refuses hactive hrefuses hopen hmore _ hstanding hafter =>
    have hopen' := congrArg Prod.fst hstanding
    have hfailed := congrArg (fun x => x.2.2) hstanding
    change (h.step e).1.engagement.session.state = .opened at hopen'
    change (h.step e).1.engagement.session.failedBinds = h.engagement.session.failedBinds + 1
      at hfailed
    change (h.step e).1.reason? = none at hafter
    change h.engagement.session.failedBinds + 1 < h.engagement.session.config.maxBindAttempts
      at hmore
    rw [hs.settings, hs.counted hopen] at hmore
    refine ⟨hsound, hsettings, fun _ => ?_, fun _ => ?_, ?_, fun _ => ?_⟩
    · rw [hfailed, countP_refuses done hrefuses, hs.counted hopen]
      rfl
    · rw [countP_refuses done hrefuses]
      exact hmore
    · rw [hafter]
      exact fun h => nomatch h
    · rw [hopen']
      rfl
  | exceeds hactive hrefuses hopen hlast _ hafter =>
    change (h.step e).1.reason? = _ at hafter
    change h.engagement.session.config.maxBindAttempts ≤ h.engagement.session.failedBinds + 1
      at hlast
    rw [hs.settings, hs.counted hopen] at hlast
    refine ⟨hsound, hsettings, fun hopen => absurd hopen (not_opened_of_ended hsound hafter),
      fun hnot => absurd hafter hnot, fun _ => ?_, fun _ => ?_⟩
    · -- It was one short of the limit, and now it is not.
      rw [countP_refuses done hrefuses]
      exact Nat.le_antisymm (hfew hactive) hlast
    · rw [hsound.over_iff.1 (by rw [hafter]; rfl)]
      rfl

theorem Counts.after (hattempts : 0 < config.maxBindAttempts) (begun : Instant)
    (events : List Event) :
    Counts config ((Handler.start config begun).history events)
      ((Handler.start config begun).after events) := by
  -- On the events, from the last one: what was done before it is the run without it.
  induction events using List.reverseRecOn with
  | nil => exact .start hattempts begun
  | append_singleton events e ih =>
    rw [history_append, after_append]
    exact ih.step e

end Counts

/-! ### After a client was let in -/

section Bound

variable {h : Handler}

/-- The session of a client that is let in is open no more, whether or not the client is there. -/
theorem not_opened_of_admits {e : Event} (hadmits : (h.move e).admitsClient = true) :
    (h.step e).1.engagement.session.state ≠ .opened := by
  cases e with
  | authenticated now result =>
    cases hstage : h.stage with
    | serving | ended =>
      dsimp only [Move.admitsClient, Move.verdict?, move] at hadmits
      rw [hstage] at hadmits
      cases hadmits
    | authenticating n b =>
    dsimp only [Move.admitsClient, Move.verdict?, move] at hadmits
    rw [hstage] at hadmits
    cases result with
    | error cause => cases hadmits
    | ok _ =>
      -- The session is bound by the verdict, whatever becomes of the answer to the client.
      have hbound : (h.engagement.conclude now n b (.ok ())).1.session.state ≠ .opened :=
        fun h => nomatch h
      dsimp only [step, authenticated]
      rw [hstage]
      exact keeps_carryOut (p := fun h => h.engagement.session.state ≠ .opened)
        (fun _ _ _ h => nomatch h) (fun _ _ _ hp => hp)
        (h := { h with
          engagement := (h.engagement.conclude now n b (.ok ())).1, stage := .serving }) hbound _
  | arrive | endStream | cancel | answer | turn | tick => cases hadmits

theorem verdict?_of_not_opened (hs : h.Sound) (hstate : h.engagement.session.state ≠ .opened)
    (e : Event) : (h.move e).verdict? = none := by
  dsimp only [Move.verdict?, move]
  split
  · next hstage => exact absurd (hs.opened _ _ hstage) hstate
  · rfl

/-- **A session that is not open never is again.** -/
theorem not_opened_step (hs : h.Sound) (hstate : h.engagement.session.state ≠ .opened) (e : Event) :
    (h.step e).1.engagement.session.state ≠ .opened := by
  have hverdict := verdict?_of_not_opened hs hstate e
  have hsound := hs.step e
  have hover {reason : CloseReason} (hreason : (h.step e).1.reason? = some reason) :
      (h.step e).1.engagement.session.state ≠ .opened := by
    rw [hsound.over_iff.1 (by rw [hreason]; rfl)]
    exact fun h => nomatch h
  have hnot {m : Move} (hm : m.verdict? = none) : m.refusesClient ≠ true := by
    rw [Move.refusesClient_of_no_verdict hm]
    exact Bool.false_ne_true
  -- A failure would leave the session open, but without a verdict there is none.
  cases attempted hs e with
  | passes hpasses =>
    obtain ⟨hstanding, -⟩ | ⟨-, reason, hreason, -⟩ := hpasses
    · intro hopen
      exact hstate ((Session.standing_eq_iff.1 hstanding).1.symm.trans hopen)
    · exact hover hreason
  | unbinds _ _ _ hafter => exact hover hafter
  | binds _ _ _ _ hstanding =>
    rw [show (h.step e).1.engagement.session.state = _ from congrArg Prod.fst hstanding]
    exact fun h => nomatch h
  | refuses _ hrefuses => exact absurd hrefuses (hnot hverdict)
  | exceeds _ hrefuses => exact absurd hrefuses (hnot hverdict)

/-- The backend is asked about the binds of an open session only. -/
theorem not_asked_of_not_opened (hstate : h.engagement.session.state ≠ .opened) (e : Event)
    (c : Credentials) : Effect.authenticate c ∉ (h.step e).2 := by
  have hstepped := stepped h e
  generalize h.step e = r, e.cancels = cancels at hstepped
  cases hstepped with
  | notes => exact List.not_mem_nil
  | serves _ _ _ _ _ hquiet => exact hquiet c
  | asks _ hopened => exact absurd hopened hstate
  | ends _ _ _ _ _ _ hspoken =>
    rw [List.mem_append, List.mem_singleton]
    rintro (hwritten | hclose)
    · exact hspoken.authenticate_not_mem c hwritten
    · cases hclose

/-- A bind is answered at once by a session that is bound, and changes nothing. -/
theorem refuses_rebind (hs : h.Sound) (hstate : h.engagement.session.state ≠ .opened)
    {now : Instant} {status : CommandStatus} {n : UInt32} {b : Bind}
    (hreading : h.reading? = some (.frame (.known status n (.bind b)))) :
    (h.connection.ending = .reset → (h.step (.turn now)).1.reason? = some .transportError) ∧
    (h.connection.ending ≠ .reset →
      (h.step (.turn now)).1.engagement.session.standing = h.engagement.session.standing ∧
        (h.step (.turn now)).1.reason? = none ∧
        (h.move (.turn now)).said = [.bindRefused b.role n .alreadyBound]) := by
  obtain ⟨hserving, -, -, -, -, -⟩ := turn_of_reading now hreading
  have hending := ending_read h.connection
  have hstep := step_of_reading now hreading
  -- The handler serves, so the session is not over; it is not open either, so it refuses the bind.
  have hreceive : h.engagement.session.receive now h.engagement.calls.inFlight
      (.known status n (.bind b)) =
        (h.engagement.session.touched now, .reply (.bindRefused b.role n .alreadyBound)) := by
    have hreceived := Session.received h.engagement.session now h.engagement.calls.inFlight
      (.known status n (.bind b))
    generalize h.engagement.session.receive now h.engagement.calls.inFlight
      (.known status n (.bind b)) = r at hreceived
    cases hreceived with
    | late hover => exact absurd hover (hs.active (reason?_of_serving hserving))
    | rebind => rfl
    | bind hopen => exact absurd hopen hstate
    | response _ hresponse =>
      rw [Frame.isResponse_bind] at hresponse
      cases hresponse
  have hengaged : h.engagement.receive now (.known status n (.bind b)) =
      ({ h.engagement with session := h.engagement.session.touched now },
        .reply (.bindRefused b.role n .alreadyBound)) := congrArg h.engagement.react hreceive
  rw [hengaged] at hstep
  dsimp only [carryOut] at hstep
  -- What is left is the write, which needs a client that is there.
  constructor
  · intro hgone
    rw [hstep, send_of_gone (hending.trans hgone)]
    rfl
  · intro hthere
    have hsaid := said_of_reading now hthere hreading
    dsimp only [dueToReading] at hsaid
    rw [hengaged] at hsaid
    rw [hstep, send_of_there (hending.trans_ne hthere), hsaid]
    refine ⟨rfl, reason?_of_serving hserving, ?_⟩
    exact congrArg (fun f => [f]) (Frame.Plain.bindRefused b.role n .alreadyBound).onWire

end Bound

/-! ### What a step says of a bind, and why it ends -/

section Reasons

variable {config : Config} {done : List Move} {h : Handler}

/-- What is due in a step that reads a frame or ends an authentication is what is called for. -/
theorem due_of_reaction {e : Event} {r : Reaction} (h' : (h.move e).reaction? = some r) :
    h.due e = r.frames := by
  -- A reaction is to a frame that is read, or to the verdict that is waited for.
  cases e with
  | turn now =>
    dsimp only [Move.reaction?, move] at h'
    split at h'
    · next f hreading =>
      cases h'
      obtain ⟨hserving, hcancelled, hnext, hread, -, -⟩ := turn_of_reading now hreading
      rw [due_turn_of_reads hserving hcancelled hnext, hread]
      rfl
    · cases h'
  | authenticated now result =>
    dsimp only [Move.reaction?, move] at h'
    dsimp only [due]
    cases hstage : h.stage with
    | authenticating n b =>
      rw [hstage] at h'
      cases h'
      rfl
    | serving => rw [hstage] at h'; cases h'
    | ended reason => rw [hstage] at h'; cases h'
  | arrive | endStream | cancel | answer | tick => cases h'

/-- The failure of an authentication is answered under the number of the bind, with its status. -/
theorem said_of_refuses {e : Event} (hrefuses : (h.move e).refusesClient = true) :
    ∃ n b now cause, h.stage = .authenticating n b ∧ e = .authenticated now (.error cause) ∧
      (h.move e).said = [.bindRefused b.role n cause.status] := by
  cases e with
  | authenticated now result =>
    dsimp only [Move.refusesClient, Move.verdict?, move] at hrefuses
    split at hrefuses
    case h_2 => cases hrefuses
    next cause hverdict =>
    split at hverdict
    case h_2 => cases hverdict
    next t r n b hevent hstage =>
    cases hevent
    cases hverdict
    -- The client of a refusal is there to hear it, by what it is to be refused.
    have hthere : h.connection.ending ≠ .reset := bne_iff_ne.1 hrefuses
    have hframes : (h.engagement.conclude now n b (.error cause)).2.frames =
        [.bindRefused b.role n cause.status] := by
      unfold Engagement.conclude Session.conclude
      dsimp only
      split <;> rfl
    have hdue : h.due (.authenticated now (.error cause)) =
        [.bindRefused b.role n cause.status] := by
      dsimp only [due]
      rw [hstage]
      exact hframes
    refine ⟨n, b, now, cause, hstage, rfl, ?_⟩
    rw [said_move hthere, hdue]
    exact congrArg (fun f => [f]) (Frame.Plain.bindRefused b.role n cause.status).onWire
  | arrive | endStream | cancel | answer | turn | tick => cases hrefuses

/-- A closing reply goes out as it is. -/
theorem said_of_farewell {e : Event} {f : Frame} (hfarewell : (h.move e).farewell? = some f)
    (hf : f.Plain) : (h.move e).said = [f] := by
  unfold Move.farewell? at hfarewell
  split at hfarewell
  · next hreaction =>
    split at hfarewell
    · cases hfarewell
    · next hthere =>
      cases hfarewell
      rw [said_move (h := h) hthere, due_of_reaction hreaction]
      exact congrArg (fun f => [f]) hf.onWire
  · cases hfarewell

/-- **The failure that is answered is counted**, and it ends the handler if it is the last one that
is allowed. -/
theorem Counts.refused (hs : Counts config done h) {e : Event}
    (hrefuses : (h.move e).refusesClient = true) :
    (done.countP Move.refusesClient + 1 < config.maxBindAttempts ∧
      (h.step e).1.engagement.session.state = .opened ∧ (h.step e).1.reason? = none) ∨
    (done.countP Move.refusesClient + 1 = config.maxBindAttempts ∧
      (h.step e).1.engagement.session.state = .closed ∧
        (h.step e).1.reason? = some .bindAttemptsExceeded) := by
  have hclash {b : Prop} (hnot : (h.move e).refusesClient = false) : b := by
    rw [hrefuses] at hnot
    cases hnot
  -- The session counts for itself; while it is open its count is that of the moves so far.
  cases attempted hs.sound e with
  | passes _ hnot => exact hclash hnot
  | unbinds _ _ hnot => exact hclash hnot
  | binds _ _ hnot => exact hclash hnot
  | refuses _ _ hopen hmore _ hstanding hafter =>
    change h.engagement.session.failedBinds + 1 < h.engagement.session.config.maxBindAttempts
      at hmore
    rw [hs.settings, hs.counted hopen] at hmore
    exact .inl ⟨hmore, congrArg Prod.fst hstanding, hafter⟩
  | exceeds hactive _ hopen hlast _ hafter =>
    change h.reason? = none at hactive
    change h.engagement.session.config.maxBindAttempts ≤ h.engagement.session.failedBinds + 1
      at hlast
    rw [hs.settings, hs.counted hopen] at hlast
    have hfewer := hs.fewer (by rw [hactive]; exact fun h => nomatch h)
    have hover : (h.step e).1.engagement.session.state = .closed :=
      (hs.sound.step e).over_iff.1 (by rw [show (h.step e).1.reason? = _ from hafter]; rfl)
    exact .inr ⟨Nat.le_antisymm hfewer hlast, hover, hafter⟩

/-- **Why a handler ends**: over binds with the last failure that is allowed, and for its client
with the grant of its request. -/
theorem Counts.reasons (hs : Counts config done h) (hactive : h.reason? = none) (e : Event) :
    ((h.step e).1.reason? = some .bindAttemptsExceeded ↔
      (h.move e).refusesClient = true ∧
        done.countP Move.refusesClient + 1 = config.maxBindAttempts) ∧
    ((h.step e).1.reason? = some .unbound ↔
      ∃ n, (h.move e).farewell? = some (.unbindResp .ok n)) := by
  have hcount : (h.step e).1.reason? = some .bindAttemptsExceeded ↔
      (h.move e).refusesClient = true ∧
        done.countP Move.refusesClient + 1 = config.maxBindAttempts := by
    constructor
    · intro hexceeded
      -- Every other kind of move leaves the handler without a reason, or with another one.
      have hrefuses : (h.move e).refusesClient = true := by
        have hclash {b : Prop} {reason : Option CloseReason}
            (hreason : (h.step e).1.reason? = reason)
            (hnot : reason ≠ some .bindAttemptsExceeded) : b :=
          absurd (hreason.symm.trans hexceeded) hnot
        cases attempted hs.sound e with
        | passes hpasses =>
          obtain ⟨-, hreason⟩ | ⟨-, reason, hreason, -, hattempts⟩ := hpasses
          · exact hclash (hreason.trans hactive) fun h => nomatch h
          · exact hclash hreason fun h => hattempts (Option.some.inj h)
        | unbinds _ _ _ hafter => exact hclash hafter fun h => nomatch h
        | binds _ _ _ _ _ hafter => exact hclash hafter fun h => nomatch h
        | refuses _ hrefuses => exact hrefuses
        | exceeds _ hrefuses => exact hrefuses
      -- A failure that is not the last one leaves no reason, so this was the last.
      obtain ⟨-, -, hnone⟩ | ⟨hlast, -, -⟩ := hs.refused hrefuses
      · rw [hexceeded] at hnone
        cases hnone
      · exact ⟨hrefuses, hlast⟩
    · rintro ⟨hrefuses, hlast⟩
      obtain ⟨hmore, -, -⟩ | ⟨-, -, hexceeded⟩ := hs.refused hrefuses
      · omega
      · exact hexceeded
  refine ⟨hcount, ?_⟩
  -- The other half, the same way: only a move that grants the request to leave has the farewell.
  have hclash {b : Prop} {reason : Option CloseReason} (hreason : (h.step e).1.reason? = reason)
      (hnot : reason ≠ some .unbound) (hunbound : (h.step e).1.reason? = some .unbound) : b :=
    absurd (hreason.symm.trans hunbound) hnot
  have hsilent {b : Prop} (hnone : (h.move e).farewell? = none)
      (hfarewell : ∃ n, (h.move e).farewell? = some (.unbindResp .ok n)) : b := by
    obtain ⟨n, hn⟩ := hfarewell
    rw [hnone] at hn
    cases hn
  cases attempted hs.sound e with
  | passes hpasses _ hfarewell =>
    refine ⟨fun hunbound => ?_, hsilent hfarewell⟩
    obtain ⟨-, hreason⟩ | ⟨-, reason, hreason, hnot, -⟩ := hpasses
    · exact hclash (hreason.trans hactive) (fun h => nomatch h) hunbound
    · exact hclash hreason (fun h => hnot (Option.some.inj h)) hunbound
  | unbinds _ hfarewell _ hafter => exact ⟨fun _ => ⟨_, hfarewell⟩, fun _ => hafter⟩
  | binds _ _ _ hfarewell _ hafter => exact ⟨hclash hafter (fun h => nomatch h), hsilent hfarewell⟩
  | refuses _ _ _ _ hfarewell _ hafter =>
    exact ⟨hclash hafter (fun h => nomatch h), hsilent hfarewell⟩
  | exceeds _ _ _ _ hfarewell hafter =>
    refine ⟨hclash hafter (fun h => nomatch h), ?_⟩
    rintro ⟨n, hn⟩
    rw [hfarewell] at hn
    cases hn

/-- A closing reply is of a handler that has not ended, goes out as it is, and is the grant of a
request to end or the refusal of a bind. -/
theorem farewell_cases (hs : h.Sound) {e : Event} {f : Frame}
    (hfarewell : (h.move e).farewell? = some f) :
    h.reason? = none ∧ (h.move e).said = [f] ∧
      ((∃ n, f = .unbindResp .ok n) ∨ ∃ role n status, f = .bindRefused role n status) := by
  have hclash {b : Prop} (hnone : (h.move e).farewell? = none) : b := by
    rw [hfarewell] at hnone
    cases hnone
  cases attempted hs e with
  | passes _ _ hnone => exact hclash hnone
  | binds _ _ _ hnone => exact hclash hnone
  | refuses _ _ _ _ hnone => exact hclash hnone
  | unbinds hactive hunbinds =>
    rw [hfarewell] at hunbinds
    cases hunbinds
    exact ⟨hactive, said_of_farewell hfarewell (.unbindResp _ _), .inl ⟨_, rfl⟩⟩
  | exceeds hactive _ _ _ hrefuses =>
    rw [hfarewell] at hrefuses
    cases hrefuses
    exact ⟨hactive, said_of_farewell hfarewell (.bindRefused _ _ _), .inr ⟨_, _, _, rfl⟩⟩

end Reasons

/-- **Binds that fail, and why a handler ends.** In every run of a handler that allows at least one
bind:

* it ends over failed binds exactly with as many failures answered as are allowed, and as long as it
  has not ended and nobody was let in, its session is open and counts them;
* an answered failure goes out as a refusal under the number of the bind with the status of the
  failure, whichever that is; the session stays open after it unless it is the last one that is
  allowed, and is over with it if it is;
* a step ends the handler over failed binds exactly if it answers the last failure that is allowed,
  and for its client exactly if it grants a request to end;
* a closing reply goes out as it is, and the reason of the end is read off rightly: failed binds if
  it is the last refusal that is allowed, the client if it is the grant of a request to end;
* once a client was let in no authentication ends and the backend is not asked again; a bind that is
  read is refused at once, and the session goes on as it was, unless there is nobody left to hear
  it. -/
theorem binds_of_run (config : Config) (hattempts : 0 < config.maxBindAttempts) (begun : Instant)
    (events : List Event) :
    let h := (start config begun).after events
    let moves := (start config begun).history events
    (h.reason? = some .bindAttemptsExceeded ↔
      moves.countP Move.refusesClient = config.maxBindAttempts) ∧
    (h.reason? = none → (∀ m ∈ moves, m.admitsClient = false) →
      h.engagement.session.state = .opened ∧
        h.engagement.session.failedBinds = moves.countP Move.refusesClient ∧
        moves.countP Move.refusesClient < config.maxBindAttempts) ∧
    (∀ (earlier : List Move) (m : Move) (later : List Move), moves = earlier ++ m :: later →
      (m.refusesClient = true →
        (∃ n b now cause, m.before.stage = .authenticating n b ∧
          m.event = .authenticated now (.error cause) ∧
          m.said = [.bindRefused b.role n cause.status]) ∧
        ((earlier.countP Move.refusesClient + 1 < config.maxBindAttempts ∧
            m.after.engagement.session.state = .opened ∧ m.after.reason? = none) ∨
          (earlier.countP Move.refusesClient + 1 = config.maxBindAttempts ∧
            m.after.engagement.session.state = .closed ∧
            m.after.reason? = some .bindAttemptsExceeded))) ∧
      (m.before.reason? = none →
        (m.after.reason? = some .bindAttemptsExceeded ↔
          m.refusesClient = true ∧
            earlier.countP Move.refusesClient + 1 = config.maxBindAttempts) ∧
        (m.after.reason? = some .unbound ↔ ∃ n, m.farewell? = some (.unbindResp .ok n))) ∧
      (∀ f : Frame, m.farewell? = some f →
        m.said = [f] ∧
        (m.after.reason? = some .bindAttemptsExceeded ↔
          (∃ role n status, f = .bindRefused role n status) ∧ m.refusesClient = true ∧
            earlier.countP Move.refusesClient + 1 = config.maxBindAttempts) ∧
        (m.after.reason? = some .unbound ↔ ∃ n, f = .unbindResp .ok n)) ∧
      (m.admitsClient = true → ∀ m' ∈ later,
        m'.verdict? = none ∧ (∀ c, Effect.authenticate c ∉ m'.effects) ∧
        ∀ status n b, m'.reads? = some (.frame (.known status n (.bind b))) →
          (m'.before.connection.ending = .reset → m'.after.reason? = some .transportError) ∧
          (m'.before.connection.ending ≠ .reset →
            m'.after.engagement.session.standing = m'.before.engagement.session.standing ∧
              m'.after.reason? = none ∧ m'.said = [.bindRefused b.role n .alreadyBound]))) := by
  intro h moves
  have hcounts : Counts config moves h := Counts.after hattempts begun events
  refine ⟨⟨hcounts.exceeded, fun hlast => ?_⟩, fun hactive hnobody => ?_, ?_⟩
  · -- As long as it has not ended for that reason there are fewer failures.
    by_contra hnot
    have := hcounts.fewer hnot
    omega
  · -- It has not ended, so its session is not over, and nobody is bound.
    have hfewer := hcounts.fewer (by rw [hactive]; exact fun h => nomatch h)
    have hopen := Session.state_eq_opened_of_active (hcounts.sound.active hactive)
      (by rw [hcounts.unbound hnobody]; exact Bool.false_ne_true)
    exact ⟨hopen, hcounts.counted hopen, hfewer⟩
  -- What is so of a move follows from the counts of the moves before it.
  intro earlier m later hmoves
  obtain ⟨es, e, es', -, rfl, rfl, rfl⟩ := exists_of_history_eq hmoves
  have hs := Counts.after hattempts begun es
  refine ⟨fun hrefuses => ⟨said_of_refuses hrefuses, hs.refused hrefuses⟩,
    fun hactive => hs.reasons hactive e, fun f hfarewell => ?_, fun hadmits m' hm' => ?_⟩
  · -- A farewell is the grant of a request or a refusal; the reason tells which, and is told by it.
    obtain ⟨hactive, hsaid, hkind⟩ := farewell_cases hs.sound hfarewell
    obtain ⟨hexceeded, hunbound⟩ := hs.reasons hactive e
    refine ⟨hsaid, ⟨fun hend => ?_, fun hlast => hexceeded.2 hlast.2⟩, ⟨fun hend => ?_, ?_⟩⟩
    · refine ⟨?_, hexceeded.1 hend⟩
      obtain ⟨n, rfl⟩ | hrefused := hkind
      · have hend' := hunbound.2 ⟨n, hfarewell⟩
        rw [hexceeded.2 (hexceeded.1 hend)] at hend'
        cases hend'
      · exact hrefused
    · obtain ⟨n, hn⟩ := hunbound.1 hend
      rw [hfarewell] at hn
      exact ⟨n, Option.some.inj hn⟩
    · rintro ⟨n, rfl⟩
      exact hunbound.2 ⟨n, hfarewell⟩
  · -- A session that has been bound is never open again, so what is said of such a session holds
    -- of every move to come.
    obtain ⟨h', e', ⟨hs', hstate⟩, -, rfl⟩ := forall_mem_history
      (p := fun h => h.Sound ∧ h.engagement.session.state ≠ .opened) (q := fun _ => True)
      ⟨hs.sound.step e, not_opened_of_admits hadmits⟩
      (fun _ e hp _ => ⟨hp.1.step e, not_opened_step hp.1 hp.2 e⟩) (fun _ _ => trivial) m' hm'
    refine ⟨verdict?_of_not_opened hs' hstate e', not_asked_of_not_opened hstate e', ?_⟩
    intro status n b hreads
    cases e' with
    | turn now => exact refuses_rebind hs' hstate hreads
    | arrive | endStream | cancel | answer | authenticated | tick => cases hreads

/-- Two binds are allowed. A client with a wrong password is refused and asks to end, which it is
not bound for; the backend does not answer its second bind in time. -/
theorem binds_of_run_twice :
    let config : Config := { maxBindAttempts := 2 }
    let events : List Event :=
      [.arrive [0, 0, 0, 26, 0, 0, 0, 9, 0, 0, 0, 0, 0, 0, 0, 1, 99, 0, 112, 0, 116, 0, 52, 0, 0, 0],
        .turn 1, .authenticated 2 (.error .invalidPassword),
        .arrive [0, 0, 0, 16, 0, 0, 0, 6, 0, 0, 0, 0, 0, 0, 0, 2], .turn 3,
        .arrive [0, 0, 0, 26, 0, 0, 0, 9, 0, 0, 0, 0, 0, 0, 0, 3, 99, 0, 112, 0, 116, 0, 52, 0, 0, 0],
        .turn 4, .authenticated 9 (.error (.timedOut 5))]
    0 < config.maxBindAttempts ∧
      ((start config 0).after events).reason? = some .bindAttemptsExceeded := by
  intro config events
  have hattempts : 0 < config.maxBindAttempts := by decide
  have hcount : ((start config 0).history events).countP Move.refusesClient =
      config.maxBindAttempts := by
    decide +kernel
  exact ⟨hattempts, (binds_of_run config hattempts 0 events).1.2 hcount⟩

end Handler

end Smpp
