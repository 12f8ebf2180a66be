import Smpp.Proofs.Floor.Rest
import Smpp.Proofs.Handler.Attempts

/-!
# What becomes of a session that is cancelled

A session that serves its client obeys a cancellation at once. One that waits for the answer to a
bind does not notice it before it has heard the answer, and the answer may end the session first:
the last refusal that the session may get does (`Session.isFinal`), and so does any answer that
cannot be sent because the client is gone (`Handler.Heard`). Only a session that survives the answer
then ends because it was cancelled.

Which of the two it will be can be read off a session while it waits: it is doomed if the answer
that is under way is its last refusal (`Station.isDoomed`). `Station.Fares` says what becomes of a
session from some moment on at which it is cancelled. Everything that its station does from then on
keeps it (`Station.Fares.step`), and once the station has played nothing is left to obey
(`Station.Fares.play`).
-/

namespace Smpp

/-- Whether an answer to a bind is the last refusal that a session may get. -/
def Session.isFinal (s : Session) : AuthResult → Bool
  | .ok _ => false
  | .error _ => s.config.maxBindAttempts ≤ s.failedBinds + 1

namespace Handler

variable {h : Handler} {n : UInt32} {b : Bind}

/-- What becomes of a handler that hears what its bind was answered. -/
inductive Heard (h : Handler) (result : AuthResult) (h' : Handler) : Prop where
  /-- There is nobody to tell. -/
  | gone (hgone : h.connection.ending = .reset) (hafter : h'.reason? = some .transportError)
  /-- It was refused for the last time. -/
  | exceeds (hfinal : h.engagement.session.isFinal result = true)
    (hafter : h'.reason? = some .bindAttemptsExceeded)
  /-- It goes on. -/
  | serves (hfinal : h.engagement.session.isFinal result = false) (hafter : h'.stage = .serving)

/-- **An answer to a bind** ends a handler if its client is gone, or if it is the last refusal. -/
theorem heard (hs : h.Sound) (hstage : h.stage = .authenticating n b) (now : Instant)
    (result : AuthResult) : Heard h result (h.authenticated now result).1 := by
  have hstep : h.authenticated now result = _ := step_of_authenticating hstage now result
  by_cases hthere : h.connection.ending = .reset
  · obtain ⟨f, hf⟩ := h.engagement.conclude_answers now n b result
    rw [hstep, carryOut_of_gone (g := { h with
      engagement := (h.engagement.conclude now n b result).1, stage := .serving }) hthere hf]
    exact .gone hthere rfl
  let session := (h.engagement.session.conclude now n b result).1
  let concluded : Handler :=
    { h with engagement := { h.engagement with session }, stage := .serving }
  -- An answer that leaves the session open is told to the client, and changes nothing else.
  have hgoes (f : Frame) (hreply : (h.engagement.session.conclude now n b result).2 = .reply f) :
      (h.authenticated now result).1.stage = .serving := by
    have hengaged : h.engagement.conclude now n b result =
        ({ h.engagement with session }, .reply f) := react_of_reply h.engagement hreply
    rw [hstep, hengaged]
    exact congrArg (fun r => r.1.stage) (send_of_there (h := concluded) hthere f)
  cases result with
  | ok _ => exact .serves rfl (hgoes _ rfl)
  | error cause =>
    obtain ⟨hlast, hclose, hclient⟩ | ⟨hmore, hreply, -⟩ :=
      h.engagement.session.conclude_refused now n b cause
    · have hengaged : h.engagement.conclude now n b (.error cause) =
          ({ h.engagement with session }, .replyAndClose (.bindRefused b.role n cause.status)) :=
        react_of_close h.engagement hclose
      have hends := carryOut_close (g := concluded) hthere rfl (.bindRefused b.role n cause.status)
      rw [hstep, hengaged]
      refine .exceeds (decide_eq_true hlast) (hends.trans (congrArg some (if_neg ?_)))
      -- Nobody was ever let into the session, so it is over for want of a bind.
      rw [hclient, hs.named.nobody (hs.opened n b hstage)]
      exact Bool.false_ne_true
    · exact .serves (decide_eq_false (Nat.not_le.2 hmore)) (hgoes _ hreply)

/-- A handler that serves its client obeys a cancellation before anything else. -/
theorem turn_of_cancelled (hserving : h.isServing = true) (hcancelled : h.cancelled = true)
    (now : Instant) : h.turn now = some (h.unbindAndFinish .shutdown) := by
  unfold turn
  rw [isServing_iff.1 hserving]
  exact if_pos hcancelled

theorem turn_of_authenticating (hstage : h.stage = .authenticating n b) (now : Instant) :
    h.turn now = none := by
  unfold turn
  rw [hstage]

theorem reason?_unbindAndFinish (h : Handler) (reason : CloseReason) :
    (h.unbindAndFinish reason).1.reason? = some reason := by
  obtain ⟨fs, hends, -⟩ := unbindAndFinish_eq h reason
  rw [hends]
  rfl

end Handler

/-- What an answer says about a bind, if it is about one. -/
def Reply.verdict? : Reply → Option AuthResult
  | .submitted .. => none
  | .authenticated result => some result

namespace Station

/-- What a bind is going to be answered, if an answer is under way. -/
def verdict? (s : Station) : Option AuthResult :=
  s.replies.entries.findSome? fun e => e.2.verdict?

/-- Whether a session waits for the answer to a bind. -/
def isWaiting (s : Station) : Bool :=
  match s.handler.stage with
  | .authenticating .. => true
  | .serving | .ended _ => false

/-- Whether a session waits for the refusal that is going to end it. -/
def isDoomed (s : Station) : Bool :=
  s.isWaiting && s.verdict?.any s.handler.engagement.session.isFinal

/-- What becomes of a session from some moment on, once it is cancelled. -/
inductive Fares (gone : Prop) (s s' : Station) : Prop where
  /-- It had ended. -/
  | ended {reason : CloseReason} (hbefore : s.reason? = some reason)
    (hafter : s'.reason? = some reason)
  /-- It waits for the same answer to the same bind. -/
  | waits (hwaits : s.isWaiting = true) (hstage : s'.handler.stage = s.handler.stage)
    (hsession : s'.handler.engagement.session = s.handler.engagement.session)
    (hverdict : s'.verdict? = s.verdict?)
  /-- It is about to obey. -/
  | serves (hactive : s.reason? = none) (hspared : s.isDoomed = false)
    (hafter : s'.handler.isServing = true)
  /-- It has obeyed. -/
  | cut (hactive : s.reason? = none) (hspared : s.isDoomed = false)
    (hafter : s'.reason? = some .shutdown)
  /-- It was refused for the last time. -/
  | refused (hdoomed : s.isDoomed = true) (hafter : s'.reason? = some .bindAttemptsExceeded)
  /-- Its client was gone when the answer came. -/
  | lost (hwaits : s.isWaiting = true) (hgone : gone) (hafter : s'.reason? = some .transportError)

section Fares

variable {gone : Prop} {now : Instant} {s s' : Station}

theorem exists_of_isWaiting (hwaits : s.isWaiting = true) :
    ∃ n b, s.handler.stage = .authenticating n b := by
  unfold isWaiting at hwaits
  split at hwaits
  · next n b hstage => exact ⟨n, b, hstage⟩
  · cases hwaits
  · cases hwaits

/-- A session that waits has not ended. -/
theorem reason?_of_isWaiting (hwaits : s.isWaiting = true) : s.reason? = none := by
  obtain ⟨n, b, hstage⟩ := exists_of_isWaiting hwaits
  exact Handler.reason?_of_authenticating hstage

theorem isWaiting_of_isDoomed (hdoomed : s.isDoomed = true) : s.isWaiting = true :=
  (Bool.and_eq_true_iff.1 hdoomed).1

theorem isDoomed_of_verdict {result : AuthResult} (hwaits : s.isWaiting = true)
    (hverdict : s.verdict? = some result) :
    s.isDoomed = s.handler.engagement.session.isFinal result := by
  unfold isDoomed
  rw [hwaits, hverdict]
  rfl

theorem Fares.refl (gone : Prop) (s : Station) : s.Fares gone s := by
  cases hstage : s.handler.stage with
  | serving =>
    have hserving : s.handler.isServing = true := Handler.isServing_iff.2 hstage
    refine .serves (Handler.reason?_of_serving hserving) ?_ hserving
    unfold isDoomed isWaiting
    rw [hstage]
    rfl
  | authenticating n b =>
    refine .waits ?_ rfl rfl rfl
    unfold isWaiting
    rw [hstage]
  | ended reason =>
    have hended : s.reason? = some reason := by
      unfold reason? Handler.reason?
      rw [hstage]
    exact .ended hended hended

/-- To be told something that changes neither what a session does nor what it is going to be
answered leaves its fate as it is. -/
theorem Fares.congr {s'' : Station} (h : s.Fares gone s')
    (hstage : s''.handler.stage = s'.handler.stage)
    (hsession : s''.handler.engagement.session = s'.handler.engagement.session)
    (hreplies : s''.replies = s'.replies) : s.Fares gone s'' := by
  have hreason : s''.reason? = s'.reason? := Handler.reason?_eq hstage
  cases h with
  | ended hbefore hafter => exact .ended hbefore (hreason.trans hafter)
  | waits hwaits hstage' hsession' hverdict =>
    refine .waits hwaits (hstage.trans hstage') (hsession.trans hsession') (.trans ?_ hverdict)
    unfold verdict?
    rw [hreplies]
  | serves hactive hspared hafter =>
    refine .serves hactive hspared ?_
    rw [Handler.isServing_iff] at hafter ⊢
    exact hstage.trans hafter
  | cut hactive hspared hafter => exact .cut hactive hspared (hreason.trans hafter)
  | refused hdoomed hafter => exact .refused hdoomed (hreason.trans hafter)
  | lost hwaits hgone hafter => exact .lost hwaits hgone (hreason.trans hafter)

/-- What is heard while a session waits is the answer that decides what becomes of it, or leaves
that answer to come. -/
theorem Fares.hear {b : Backend} {t : Instant} {reply : Reply} {rest : List (Instant × Reply)}
    (hwaits : s.isWaiting = true) (hstage : s'.handler.stage = s.handler.stage)
    (hsession : s'.handler.engagement.session = s.handler.engagement.session)
    (hverdict : s'.verdict? = s.verdict?) (hs : s'.handler.Sound)
    (hgone : s'.handler.connection.ending = .reset → gone)
    (hentries : s'.replies.entries = (t, reply) :: rest) :
    s.Fares gone (({ s' with replies := ⟨rest⟩ } : Station).hear now b reply).1 := by
  unfold verdict? at hverdict
  rw [hentries] at hverdict
  cases reply with
  | submitted call result => exact .waits hwaits hstage hsession hverdict
  | authenticated result =>
    have hdoomed := isDoomed_of_verdict hwaits hverdict.symm
    obtain ⟨n, bind, hauthenticating⟩ := exists_of_isWaiting hwaits
    have hheard := Handler.heard hs (hstage.trans hauthenticating) now result
    rw [← hsession] at hdoomed
    have hhandler : (({ s' with replies := ⟨rest⟩ } : Station).hear now b
        (.authenticated result)).1.handler = (s'.handler.authenticated now result).1 :=
      handler_performAll now b _ _
    rw [← hhandler] at hheard
    cases hheard with
    | gone hreset hafter => exact .lost hwaits (hgone hreset) hafter
    | exceeds hfinal hafter => exact .refused (hdoomed.trans hfinal) hafter
    | serves hfinal hafter =>
      exact .serves (reason?_of_isWaiting hwaits) (hdoomed.trans hfinal)
        (Handler.isServing_iff.2 hafter)

/-- **What a station does at an instant** keeps what becomes of its session. -/
theorem Fares.step {b : Backend} {p : Station × Backend} (h : s.Fares gone s')
    (hs : s'.handler.Sound) (hcancelled : s'.handler.cancelled = true)
    (hgone : s'.handler.connection.ending = .reset → gone)
    (hstep : s'.step now b = some p) : s.Fares gone p.1 := by
  obtain ⟨e, he, -, htells⟩ := tells_of_step hstep
  have hruns := htells.runs he
  cases h with
  | ended hbefore hafter => exact .ended hbefore (hruns.reason? hafter)
  | cut hactive hspared hafter => exact .cut hactive hspared (hruns.reason? hafter)
  | refused hdoomed hafter => exact .refused hdoomed (hruns.reason? hafter)
  | lost hwaits hgone hafter => exact .lost hwaits hgone (hruns.reason? hafter)
  | serves hactive hspared hafter =>
    -- A session that serves its client looks at the cancellation first.
    refine .cut hactive hspared ?_
    have hturn := Handler.turn_of_cancelled hafter hcancelled now
    unfold Station.step at hstep
    rw [hturn] at hstep
    cases hstep
    unfold reason?
    rw [handler_performAll]
    exact Handler.reason?_unbindAndFinish _ _
  | waits hwaits hstage hsession hverdict =>
    obtain ⟨r, hturn, -⟩ | ⟨t, reply, rest, hentries, rfl⟩ := step_cases hstep
    · -- One that waits looks at nothing but answers.
      obtain ⟨n, bind, hauthenticating⟩ := exists_of_isWaiting hwaits
      rw [Handler.turn_of_authenticating (hstage.trans hauthenticating)] at hturn
      cases hturn
    · exact .hear hwaits hstage hsession hverdict hs hgone hentries

/-- What a station does leaves to the client whether it is there. -/
theorem Runs.ending (h : Runs now s s') :
    s'.handler.connection.ending = s.handler.connection.ending := by
  refine h.handler (p := fun h => h.connection.ending = s.handler.connection.ending) rfl
    fun h e hsame he => ?_
  have hkept : (h.step e).1.connection.ending = h.connection.ending := by
    refine Handler.ending_step h fun ending hends => ?_
    subst hends
    exact he
  exact hkept.trans hsame

theorem Runs.sound (h : Runs now s s') (hs : s.handler.Sound) : s'.handler.Sound :=
  h.handler hs fun _ e hs _ => hs.step e

theorem Fares.settle (b : Backend) (h : s.Fares gone s') (hs : s'.handler.Sound)
    (hcancelled : s'.handler.cancelled = true)
    (hgone : s'.handler.connection.ending = .reset → gone) :
    s.Fares gone (s'.settle now b).1 := by
  -- On what the station has left to use up, as the settling itself.
  induction b, s' using settle.induct now with
  | case1 b s' hnone =>
    rw [settle_of_none hnone]
    exact h
  | case2 b s' s'' b' hsome ih =>
    rw [settle_of_some hsome]
    obtain ⟨e, he, -, htells⟩ := tells_of_step hsome
    have hruns := htells.runs he
    exact ih (h.step hs hcancelled hgone hsome) (hruns.sound hs)
      (hruns.cancelled.trans hcancelled) fun hreset => hgone (hruns.ending.symm.trans hreset)

/-- A session that is cancelled does not look at its timers any more. -/
theorem play_of_cancelled (b : Backend) (hcancelled : s.handler.cancelled = true) :
    s.play now b = s.settle now b := by
  have hidle : (s.settle now b).1.handler.isServing = false := by
    by_contra hserving
    rw [Bool.not_eq_false] at hserving
    have hturn := Handler.turn_of_cancelled hserving
      ((runs_settle now b s).cancelled.trans hcancelled) now
    rw [turn_settle] at hturn
    cases hturn
  unfold play
  dsimp only
  rw [Handler.tick_of_early (.inl hidle)]
  rfl

/-- **What becomes of a session that is cancelled** is kept by all that its station does. -/
theorem Fares.play (b : Backend) (h : s.Fares gone s') (hs : s'.handler.Sound)
    (hcancelled : s'.handler.cancelled = true)
    (hgone : s'.handler.connection.ending = .reset → gone) : s.Fares gone (s'.play now b).1 := by
  rw [play_of_cancelled b hcancelled]
  exact h.settle b hs hcancelled hgone

/-- **The tally.** A session that has ended counts as cut off or as doomed only if it had not ended
before, and then it counts as one of the two, unless its client was gone. -/
theorem Fares.tally (h : s.Fares gone s') (hended : s'.reason? ≠ none)
    (hfree : s.reason? ≠ some .shutdown) :
    (if s'.reason? == some .shutdown then 1 else 0) + (if s.isDoomed then 1 else 0) ≤
        (if s.reason? == none then 1 else 0) ∧
      ((s.isWaiting = true → ¬ gone) →
        (if s'.reason? == some .shutdown then 1 else 0) + (if s.isDoomed then 1 else 0) =
          (if s.reason? == none then 1 else 0)) := by
  -- By where the session may be: each place has one summand of the three, or none.
  cases h with
  | @ended reason hbefore hafter =>
    have hspared : s.isDoomed = false := by
      by_contra hdoomed
      rw [Bool.not_eq_false] at hdoomed
      rw [reason?_of_isWaiting (isWaiting_of_isDoomed hdoomed)] at hbefore
      cases hbefore
    have huncut : (s'.reason? == some .shutdown) = false :=
      beq_eq_false_iff_ne.2 (hafter.trans hbefore.symm ▸ hfree)
    rw [huncut, hspared, hbefore]
    exact ⟨Nat.le_refl _, fun _ => rfl⟩
  | waits hwaits hstage =>
    exact absurd ((Handler.reason?_eq hstage).trans (reason?_of_isWaiting hwaits)) hended
  | serves _ _ hafter => exact absurd (Handler.reason?_of_serving hafter) hended
  | cut hactive hspared hafter =>
    rw [hactive, hspared, hafter]
    exact ⟨Nat.le_refl _, fun _ => rfl⟩
  | refused hdoomed hafter =>
    rw [reason?_of_isWaiting (isWaiting_of_isDoomed hdoomed), hdoomed, hafter]
    exact ⟨Nat.le_refl _, fun _ => rfl⟩
  | lost hwaits hgone hafter =>
    rw [reason?_of_isWaiting hwaits, hafter]
    refine ⟨?_, fun hthere => absurd hgone (hthere hwaits)⟩
    cases s.isDoomed <;> decide

end Fares

end Station

end Smpp
