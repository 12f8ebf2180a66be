import Smpp.Proofs.Handler.Clock
import Smpp.Proofs.Handler.Output
import Smpp.Proofs.Session.Lifecycle

/-!
# What a step has to do with binds

A session that nobody is bound to counts the binds that failed, and the last one that is allowed
ends it. Of all that a handler is told only the end of an authentication touches the count; every
other step leaves alone what the session knows of its client, or ends the handler for a reason that
has nothing to do with binds (`Handler.Passes`).

`Handler.Attempted` lists what a step may make of the standing of the session and of the reason of
the handler, and `Handler.attempted` shows that it may make nothing else. What is asked of a step is
read off what it is told: the verdict of an authentication (`Handler.Move.verdict?`), whether the
client hears of it (`Handler.Move.refusesClient`), and whether the answer to it is the last thing
that is said (`Handler.Move.farewell?`).
-/

namespace Smpp

namespace Session

/-- A frame leaves the standing as it is, or it is the request of a bound client to end. -/
theorem standing_receive (s : Session) (now : Instant) (inFlight : Nat) (f : Frame) :
    ((s.receive now inFlight f).1.standing = s.standing ∧
      ∀ r, (s.receive now inFlight f).2 ≠ .replyAndClose r) ∨
    (s.state.isBound = true ∧
      ∃ n, s.receive now inFlight f =
        ((s.touched now).close, .replyAndClose (.unbindResp .ok n))) := by
  have hreceived := received s now inFlight f
  generalize s.receive now inFlight f = r at hreceived
  cases hreceived with
  | @unbind status n hbound => exact .inr ⟨hbound, n, rfl⟩
  | submit hactive hsubmit => cases hsubmit <;> exact .inl ⟨rfl, fun _ h => nomatch h⟩
  | late | unknown | rebind | bind | unbound | probe | response =>
    exact .inl ⟨rfl, fun _ h => nomatch h⟩

theorem standing_complete (s : Session) (c : Completion) :
    (s.complete c).1.standing = s.standing := by
  by_cases hactive : s.state = .closed
  · rw [complete_of_closed hactive]
  · rw [complete_of_active hactive]
    split <;> rfl

/-- A bind that fails is the last one that is allowed, or is counted. -/
theorem conclude_refused (s : Session) (now : Instant) (n : UInt32) (b : Bind) (cause : AuthError) :
    (s.config.maxBindAttempts ≤ s.failedBinds + 1 ∧
      (s.conclude now n b (.error cause)).2 =
        .replyAndClose (.bindRefused b.role n cause.status) ∧
      (s.conclude now n b (.error cause)).1.systemId? = s.systemId?) ∨
    (s.failedBinds + 1 < s.config.maxBindAttempts ∧
      (s.conclude now n b (.error cause)).2 = .reply (.bindRefused b.role n cause.status) ∧
      (s.conclude now n b (.error cause)).1.standing =
        (s.state, s.systemId?, s.failedBinds + 1)) := by
  unfold conclude
  dsimp only
  split
  · next hlast => exact .inl ⟨hlast, rfl, rfl⟩
  · next hmore => exact .inr ⟨Nat.lt_of_not_le hmore, rfl, rfl⟩

end Session

namespace Handler

namespace Move

/-- What the session calls for in a step that reads a frame or ends an authentication. -/
def reaction? (m : Move) : Option Reaction :=
  match m.event with
  | .turn now =>
    match m.before.reading? with
    | some (.frame f) => some (m.before.engagement.receive now f).2
    | _ => none
  | .authenticated now result =>
    match m.before.stage with
    | .authenticating n b => some (m.before.engagement.conclude now n b result).2
    | .serving | .ended _ => none
  | .arrive _ | .endStream _ | .cancel | .answer .. | .tick _ => none

/-- The closing reply of a step: the client is there, and gets it before the connection is
closed. -/
def farewell? (m : Move) : Option Frame :=
  match m.reaction? with
  | some (.replyAndClose f) => if m.before.connection.ending = .reset then none else some f
  | _ => none

/-- The result of the authentication that a step ends. -/
def verdict? (m : Move) : Option AuthResult :=
  match m.event, m.before.stage with
  | .authenticated _ result, .authenticating .. => some result
  | _, _ => none

/-- Whether the backend lets a client in. -/
def admitsClient (m : Move) : Bool :=
  match m.verdict? with
  | some (.ok ()) => true
  | _ => false

/-- Whether the failure of an authentication is answered: the client is there. -/
def refusesClient (m : Move) : Bool :=
  match m.verdict? with
  | some (.error _) => m.before.connection.ending != .reset
  | _ => false

theorem farewell?_of_no_reaction {m : Move} (h : m.reaction? = none) : m.farewell? = none := by
  unfold farewell?
  rw [h]

theorem farewell?_of_gone {m : Move} (hgone : m.before.connection.ending = .reset) :
    m.farewell? = none := by
  unfold farewell?
  split
  · exact if_pos hgone
  · rfl

theorem farewell?_of_reaction {m : Move} {r : Reaction} (h : m.reaction? = some r)
    (hr : ∀ f, r ≠ .replyAndClose f) : m.farewell? = none := by
  unfold farewell?
  rw [h]
  cases r with
  | replyAndClose f => exact absurd rfl (hr f)
  | reply | submit | authenticate | ignore => rfl

theorem refusesClient_of_gone {m : Move} (hgone : m.before.connection.ending = .reset) :
    m.refusesClient = false := by
  unfold refusesClient
  split
  · rw [hgone]
    rfl
  · rfl

theorem refusesClient_of_no_verdict {m : Move} (h : m.verdict? = none) :
    m.refusesClient = false := by
  unfold refusesClient
  rw [h]

end Move

/-! ### One step -/

/-- A handler goes on as it was, as far as binds are concerned, or ends for a reason that has
nothing to do with them. -/
def Passes (h h' : Handler) : Prop :=
  (h'.engagement.session.standing = h.engagement.session.standing ∧ h'.reason? = h.reason?) ∨
    (h.reason? = none ∧
      ∃ reason, h'.reason? = some reason ∧ reason ≠ .unbound ∧ reason ≠ .bindAttemptsExceeded)

/-- What a step may make of the standing of the session and of the reason of the handler. -/
inductive Attempted (m : Move) : Prop where
  /-- It has nothing to do with binds. -/
  | passes (hpasses : Passes m.before m.after) (hrefuses : m.refusesClient = false)
    (hfarewell : m.farewell? = none)
  /-- A client that is bound asks to end. -/
  | unbinds {n : UInt32} (hactive : m.before.reason? = none)
    (hfarewell : m.farewell? = some (.unbindResp .ok n)) (hrefuses : m.refusesClient = false)
    (hafter : m.after.reason? = some .unbound)
  /-- A client is let in. -/
  | binds {role : BindRole} {systemId : String} (hactive : m.before.reason? = none)
    (hadmits : m.admitsClient = true) (hrefuses : m.refusesClient = false)
    (hfarewell : m.farewell? = none)
    (hstanding : m.after.engagement.session.standing = (.bound role, some systemId, 0))
    (hafter : m.after.reason? = none)
  /-- A bind is refused, and another one is allowed. -/
  | refuses (hactive : m.before.reason? = none) (hrefuses : m.refusesClient = true)
    (hopen : m.before.engagement.session.state = .opened)
    (hmore : m.before.engagement.session.failedBinds + 1 <
      m.before.engagement.session.config.maxBindAttempts)
    (hfarewell : m.farewell? = none)
    (hstanding : m.after.engagement.session.standing =
      (.opened, none, m.before.engagement.session.failedBinds + 1))
    (hafter : m.after.reason? = none)
  /-- The last bind that is allowed is refused. -/
  | exceeds {role : BindRole} {n : UInt32} {status : CommandStatus}
    (hactive : m.before.reason? = none) (hrefuses : m.refusesClient = true)
    (hopen : m.before.engagement.session.state = .opened)
    (hlast : m.before.engagement.session.config.maxBindAttempts ≤
      m.before.engagement.session.failedBinds + 1)
    (hfarewell : m.farewell? = some (.bindRefused role n status))
    (hafter : m.after.reason? = some .bindAttemptsExceeded)

section Attempted

variable {h : Handler}

theorem Passes.refl (h : Handler) : Passes h h := .inl ⟨rfl, rfl⟩

/-- To end for a reason that has nothing to do with binds. -/
theorem passes_finish (hactive : h.reason? = none) {h' : Handler} {reason : CloseReason}
    (hunbound : reason ≠ .unbound) (hattempts : reason ≠ .bindAttemptsExceeded) :
    Passes h (h'.finish reason).1 :=
  .inr ⟨hactive, reason, rfl, hunbound, hattempts⟩

theorem passes_gone (hactive : h.reason? = none) {h' : Handler} :
    Passes h (h'.finish .transportError).1 :=
  passes_finish hactive (fun h => nomatch h) fun h => nomatch h

theorem passes_unbindAndFinish (hactive : h.reason? = none) {h' : Handler} {reason : CloseReason}
    (hunbound : reason ≠ .unbound) (hattempts : reason ≠ .bindAttemptsExceeded) :
    Passes h (h'.unbindAndFinish reason).1 := by
  obtain ⟨fs, hfinish, -⟩ := unbindAndFinish_eq h' reason
  rw [hfinish]
  exact passes_finish hactive hunbound hattempts

theorem passes_sendAll {g : Handler} (hactive : h.reason? = none) (hserving : g.isServing = true)
    (hstanding : g.engagement.session.standing = h.engagement.session.standing) (fs : List Frame) :
    Passes h (g.sendAll fs).1 := by
  obtain ⟨sent, hsent⟩ | hends := sendAll_cases hserving fs
  · rw [hsent]
    exact .inl ⟨hstanding, (reason?_of_serving hserving).trans hactive.symm⟩
  · rw [hends]
    exact passes_gone hactive

theorem passes_send {g : Handler} (hactive : h.reason? = none) (hserving : g.isServing = true)
    (hstanding : g.engagement.session.standing = h.engagement.session.standing) (f : Frame) :
    Passes h (g.send f).1 :=
  send_eq_sendAll g f ▸ passes_sendAll hactive hserving hstanding [f]

theorem passes_send_finish {g : Handler} (hactive : h.reason? = none)
    (hserving : g.isServing = true) (f : Frame) {reason : CloseReason}
    (hunbound : reason ≠ .unbound) (hattempts : reason ≠ .bindAttemptsExceeded) :
    Passes h (andThen (g.send f) fun h => h.finish reason).1 := by
  by_cases hgone : g.connection.ending = .reset
  · rw [send_of_gone hgone f]
    exact passes_gone hactive
  · rw [send_of_there hgone f, andThen_of_serving hserving]
    exact passes_finish hactive hunbound hattempts

/-- What is called for, unless it is to close. -/
theorem passes_carryOut {g : Handler} (hactive : h.reason? = none) (hserving : g.isServing = true)
    (hstanding : g.engagement.session.standing = h.engagement.session.standing) {r : Reaction}
    (hr : ∀ f, r ≠ .replyAndClose f) : Passes h (g.carryOut r).1 := by
  have hactive' := (reason?_of_serving hserving).trans hactive.symm
  cases r with
  | reply f => exact passes_send hactive hserving hstanding f
  | replyAndClose f => exact absurd rfl (hr f)
  | submit call submission => exact .inl ⟨hstanding, hactive'⟩
  | authenticate n b => exact .inl ⟨hstanding, hactive.symm⟩
  | ignore => exact .inl ⟨hstanding, hactive'⟩

/-- A closing reply that goes out ends the handler for the reason that is read off the session. -/
theorem carryOut_close {g : Handler} (hthere : g.connection.ending ≠ .reset)
    (hserving : g.isServing = true) (f : Frame) :
    (g.carryOut (.replyAndClose f)).1.reason? =
      some (if g.engagement.session.systemId?.isSome then .unbound else .bindAttemptsExceeded) := by
  dsimp only [carryOut]
  rw [send_finish_of_there hthere hserving]
  rfl

/-- An answer that nobody is there to get ends the handler. -/
theorem carryOut_of_gone {g : Handler} (hgone : g.connection.ending = .reset) {r : Reaction}
    {f : Frame} (hr : r = .reply f ∨ r = .replyAndClose f) :
    g.carryOut r = g.finish .transportError := by
  obtain rfl | rfl := hr
  · exact send_of_gone hgone f
  · dsimp only [carryOut]
    rw [send_of_gone hgone f]
    rfl

/-- What is no frame is reported or ends the handler. -/
theorem passes_onRead {g : Handler} (hactive : h.reason? = none) (hserving : g.isServing = true)
    (hstanding : g.engagement.session.standing = h.engagement.session.standing) (now : Instant)
    {r : ReadResult} (hr : ∀ f, r ≠ .frame f) : Passes h (g.onRead now r).1 := by
  match r with
  | .frame f => exact absurd rfl (hr f)
  | .pending => exact .inl ⟨hstanding, (reason?_of_serving hserving).trans hactive.symm⟩
  | .closed => exact passes_finish hactive (fun h => nomatch h) fun h => nomatch h
  | .error (.malformed command n cause) => exact passes_send hactive hserving hstanding _
  | .error (.framing (some n) cause) =>
    exact passes_send_finish hactive hserving _ (fun h => nomatch h) fun h => nomatch h
  | .error (.framing none cause) =>
    exact passes_finish hactive (fun h => nomatch h) fun h => nomatch h
  | .error (.encode cause) => exact passes_gone hactive
  | .error .reset => exact passes_gone hactive
  | .error (.io text) => exact passes_gone hactive

theorem passes_tick (now : Instant) : Passes h (h.tick now).1 := by
  have hlooked := looked h now
  generalize h.tick now = r at hlooked
  cases hlooked with
  | early => exact .refl h
  | gone hserving => exact passes_gone (reason?_of_serving hserving)
  | silent hserving =>
    exact passes_finish (reason?_of_serving hserving) (fun h => nomatch h) fun h => nomatch h
  | awake hserving hidle =>
    obtain ⟨probe, next, hframe⟩ :=
      Session.keepalive_frame (s := (h.engagement.session.expire now).1) now
    refine .inl ⟨?_, rfl⟩
    rw [hframe]
    rfl

/-- What is carried out is to close only if that is called for. -/
theorem react_ne_close {e : Engagement} {a : Session × Action}
    (ha : ∀ f, a.2 ≠ .replyAndClose f) (f : Frame) : (e.react a).2 ≠ .replyAndClose f := by
  obtain ⟨session, action⟩ := a
  cases action with
  | replyAndClose g => exact absurd rfl (ha g)
  | reply | submit | authenticate | ignore => exact fun h => nomatch h

theorem react_of_reply (e : Engagement) {a : Session × Action} {f : Frame} (h : a.2 = .reply f) :
    e.react a = ({ e with session := a.1 }, .reply f) := by
  obtain ⟨session, action⟩ := a
  cases h
  rfl

theorem react_of_close (e : Engagement) {a : Session × Action} {f : Frame}
    (h : a.2 = .replyAndClose f) : e.react a = ({ e with session := a.1 }, .replyAndClose f) := by
  obtain ⟨session, action⟩ := a
  cases h
  rfl

/-- A frame that is read has nothing to do with binds, or it is the request of a bound client to
end. -/
theorem attempted_frame (hs : h.Sound) {now : Instant} {f : Frame}
    (hreading : h.reading? = some (.frame f)) : Attempted (h.move (.turn now)) := by
  obtain ⟨hserving, -, -, -, -, -⟩ := turn_of_reading now hreading
  have hactive := reason?_of_serving hserving
  have hstep := step_of_reading now hreading
  have hending := ending_read h.connection
  have hreaction : (h.move (.turn now)).reaction? = some (h.engagement.receive now f).2 := by
    dsimp only [Move.reaction?, move]
    rw [hreading]
  -- Either the frame leaves it open who is bound, or it is the unbind of the client.
  obtain ⟨hstanding, hr⟩ | ⟨hbound, n, hreceive⟩ :=
    h.engagement.session.standing_receive now h.engagement.calls.inFlight f
  · have hclose := react_ne_close (e := h.engagement) hr
    refine .passes ?_ (Move.refusesClient_of_no_verdict rfl)
      (Move.farewell?_of_reaction hreaction hclose)
    dsimp only [move]
    rw [hstep]
    exact passes_carryOut
      (g := { h with
        connection := h.connection.read.1, engagement := (h.engagement.receive now f).1 })
      hactive hserving ((congrArg Session.standing (session_react h.engagement _)).trans hstanding)
      hclose
  · -- The session is over with its client, so that is what the reason is read off.
    have hengaged : h.engagement.receive now f =
        ({ h.engagement with session := (h.engagement.session.touched now).close },
          .replyAndClose (.unbindResp .ok n)) := congrArg h.engagement.react hreceive
    rw [hengaged] at hstep hreaction
    dsimp only at hstep hreaction
    -- A client that is gone by then hears no answer, and the write error is the reason.
    by_cases hthere : h.connection.ending = .reset
    · refine .passes ?_ (Move.refusesClient_of_no_verdict rfl) (Move.farewell?_of_gone hthere)
      have hgone := carryOut_of_gone
        (g := { h with
          connection := h.connection.read.1
          engagement := { h.engagement with session := (h.engagement.session.touched now).close } })
        (hending.trans hthere) (f := .unbindResp .ok n) (.inr rfl)
      dsimp only [move]
      rw [hstep, hgone]
      exact passes_gone hactive
    · refine .unbinds (n := n) hactive ?_ (Move.refusesClient_of_no_verdict rfl) ?_
      · unfold Move.farewell?
        rw [hreaction]
        exact if_neg hthere
      · have hclose := carryOut_close
          (g := { h with
            connection := h.connection.read.1
            engagement :=
              { h.engagement with session := (h.engagement.session.touched now).close } })
          (hending.trans_ne hthere) hserving (.unbindResp .ok n)
        dsimp only [move]
        rw [hstep, hclose]
        have hclient : h.engagement.session.systemId?.isSome = true :=
          Option.isSome_iff_exists.2 (hs.named.somebody hbound)
        exact congrArg some (if_pos hclient)

theorem attempted_turn (hs : h.Sound) (now : Instant) : Attempted (h.move (.turn now)) := by
  -- Only a frame can be an attempt to bind or to leave; the rest of the turns pass the session by.
  by_cases hframe : ∃ f, h.reading? = some (.frame f)
  · obtain ⟨f, hreading⟩ := hframe
    exact attempted_frame hs hreading
  have hreaction : (h.move (.turn now)).reaction? = none := by
    dsimp only [Move.reaction?, move]
    split
    · next f hreading => exact absurd ⟨f, hreading⟩ hframe
    · rfl
  refine .passes ?_ (Move.refusesClient_of_no_verdict rfl)
    (Move.farewell?_of_no_reaction hreaction)
  change Passes h ((h.turn now).getD (h, [])).1
  have hturned := turned h now
  generalize h.turn now = r at hturned
  cases hturned with
  | idle => exact .refl h
  | waits => exact .refl h
  | obeys hserving =>
    exact passes_unbindAndFinish (reason?_of_serving hserving) (fun h => nomatch h)
      fun h => nomatch h
  | @completes engagement completion answer hserving hcancelled hnext =>
    refine passes_sendAll (g := { h with engagement }) (reason?_of_serving hserving) hserving ?_ _
    obtain ⟨hsession, -⟩ := completeNext_answer hnext
    dsimp only
    rw [hsession]
    -- The end of a call is no matter of who is bound.
    exact h.engagement.session.standing_complete completion
  | @reads connection r hserving hcancelled hnext hread hresult =>
    refine passes_onRead (g := { h with connection }) (reason?_of_serving hserving) hserving rfl now
      fun f hr => hframe ⟨f, ?_⟩
    rw [← hr]
    exact reading?_of_reads hserving hcancelled hnext hread hresult

section Verdict

variable {n : UInt32} {b : Bind} (hstage : h.stage = .authenticating n b) (now : Instant)

include hstage

theorem step_of_authenticating (result : AuthResult) :
    h.step (.authenticated now result) =
      ({ h with engagement := (h.engagement.conclude now n b result).1, stage := .serving } :
        Handler).carryOut (h.engagement.conclude now n b result).2 := by
  dsimp only [step, authenticated]
  rw [hstage]

theorem reaction?_of_authenticating (result : AuthResult) :
    (h.move (.authenticated now result)).reaction? =
      some (h.engagement.conclude now n b result).2 := by
  dsimp only [Move.reaction?, move]
  rw [hstage]

theorem verdict?_of_authenticating (result : AuthResult) :
    (h.move (.authenticated now result)).verdict? = some result := by
  dsimp only [Move.verdict?, move]
  rw [hstage]

/-- Whatever the verdict is, there may be nobody to hear it. -/
theorem attempted_of_gone (hgone : h.connection.ending = .reset) (result : AuthResult) :
    Attempted (h.move (.authenticated now result)) := by
  refine .passes ?_ (Move.refusesClient_of_gone hgone) (Move.farewell?_of_gone hgone)
  obtain ⟨r, hr⟩ := h.engagement.conclude_answers now n b result
  have hends := carryOut_of_gone
    (g := { h with engagement := (h.engagement.conclude now n b result).1, stage := .serving })
    hgone hr
  dsimp only [move]
  rw [step_of_authenticating hstage, hends]
  exact passes_gone (reason?_of_authenticating hstage)

theorem attempted_accepted (hthere : h.connection.ending ≠ .reset) :
    Attempted (h.move (.authenticated now (.ok ()))) := by
  have hsend := send_of_there
    (h := { h with engagement := (h.engagement.conclude now n b (.ok ())).1, stage := .serving })
    hthere (.bindAccepted b.role n h.engagement.session.config.systemId)
  have hafter : (h.step (.authenticated now (.ok ()))).1 =
      { h with engagement := (h.engagement.conclude now n b (.ok ())).1, stage := .serving } :=
    (congrArg Prod.fst (step_of_authenticating hstage now _)).trans (congrArg Prod.fst hsend)
  have hbound : (h.step (.authenticated now (.ok ()))).1.engagement.session.standing =
      (.bound b.role, some b.systemId, 0) :=
    congrArg (fun h => h.engagement.session.standing) hafter
  have hnothing := Move.farewell?_of_reaction (reaction?_of_authenticating hstage now (.ok ()))
    fun _ h => nomatch h
  refine .binds (reason?_of_authenticating hstage) ?_ ?_ hnothing hbound (congrArg reason? hafter)
  · unfold Move.admitsClient
    rw [verdict?_of_authenticating hstage]
  · unfold Move.refusesClient
    rw [verdict?_of_authenticating hstage]

/-- A refusal is the last one, or another bind is allowed. -/
theorem attempted_refused (hs : h.Sound) (hthere : h.connection.ending ≠ .reset)
    (cause : AuthError) : Attempted (h.move (.authenticated now (.error cause))) := by
  have hactive := reason?_of_authenticating hstage
  have hopen := hs.opened n b hstage
  have hnobody := hs.named.nobody hopen
  have hstep := step_of_authenticating hstage now (.error cause)
  have hreaction := reaction?_of_authenticating hstage now (.error cause)
  have hrefuses : (h.move (.authenticated now (.error cause))).refusesClient = true := by
    unfold Move.refusesClient
    rw [verdict?_of_authenticating hstage]
    exact bne_iff_ne.2 hthere
  let session := (h.engagement.session.conclude now n b (.error cause)).1
  let concluded : Handler :=
    { h with engagement := { h.engagement with session }, stage := .serving }
  obtain ⟨hlast, hclose, hclient⟩ | ⟨hmore, hreply, hstanding⟩ :=
    h.engagement.session.conclude_refused now n b cause
  · have hengaged : h.engagement.conclude now n b (.error cause) =
        ({ h.engagement with session },
          .replyAndClose (.bindRefused b.role n cause.status)) :=
      react_of_close h.engagement hclose
    rw [hengaged] at hstep hreaction
    have hends := carryOut_close (g := concluded) hthere rfl (.bindRefused b.role n cause.status)
    have hfarewell : (h.move (.authenticated now (.error cause))).farewell? =
        some (.bindRefused b.role n cause.status) := by
      unfold Move.farewell?
      rw [hreaction]
      exact if_neg hthere
    refine .exceeds hactive hrefuses hopen hlast hfarewell ?_
    dsimp only [move]
    rw [hstep]
    -- The reason is read off a session that nobody was let into.
    refine hends.trans (congrArg some (if_neg ?_))
    rw [hclient, hnobody]
    exact Bool.false_ne_true
  · have hengaged : h.engagement.conclude now n b (.error cause) =
        ({ h.engagement with session }, .reply (.bindRefused b.role n cause.status)) :=
      react_of_reply h.engagement hreply
    rw [hengaged] at hstep hreaction
    have hsend := send_of_there (h := concluded) hthere (.bindRefused b.role n cause.status)
    have hafter := (congrArg Prod.fst hstep).trans (congrArg Prod.fst hsend)
    rw [hopen, hnobody] at hstanding
    refine .refuses hactive hrefuses hopen hmore
      (Move.farewell?_of_reaction hreaction fun _ h => nomatch h) ?_ ?_
    · exact (congrArg (fun h => h.engagement.session.standing) hafter).trans hstanding
    · exact congrArg reason? hafter

end Verdict

theorem attempted_authenticated (hs : h.Sound) (now : Instant) (result : AuthResult) :
    Attempted (h.move (.authenticated now result)) := by
  cases hstage : h.stage with
  | serving | ended =>
    -- Nothing was asked about.
    have hstep : h.step (.authenticated now result) = (h, []) := by
      dsimp only [step, authenticated]
      rw [hstage]
    have hreaction : (h.move (.authenticated now result)).reaction? = none := by
      dsimp only [Move.reaction?, move]
      rw [hstage]
    have hverdict : (h.move (.authenticated now result)).verdict? = none := by
      dsimp only [Move.verdict?, move]
      rw [hstage]
    refine .passes ?_ (Move.refusesClient_of_no_verdict hverdict)
      (Move.farewell?_of_no_reaction hreaction)
    dsimp only [move]
    rw [hstep]
    exact .refl h
  | authenticating n b =>
    by_cases hthere : h.connection.ending = .reset
    · exact attempted_of_gone hstage now hthere result
    · cases result with
      | ok _ => exact attempted_accepted hstage now hthere
      | error cause => exact attempted_refused hstage now hs hthere cause

/-- **What a step may make of the standing of the session and of the reason of the handler.** -/
theorem attempted (hs : h.Sound) (e : Event) : Attempted (h.move e) := by
  cases e with
  | arrive | endStream | cancel | answer => exact .passes (.inl ⟨rfl, rfl⟩) rfl rfl
  | authenticated now result => exact attempted_authenticated hs now result
  | turn now => exact attempted_turn hs now
  | tick now => exact .passes (passes_tick now) rfl rfl

end Attempted

end Handler

end Smpp
