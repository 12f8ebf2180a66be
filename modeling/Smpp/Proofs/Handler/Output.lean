import Smpp.Proofs.Handler.Due
import Smpp.Proofs.Session.Accounting

/-!
# The output of a handler

What a step says is what is due in it, and from there the answers are facts about sessions. A frame
that is read is answered in the same step under its number (`answers_reading`), unless it is a bind,
about which the backend is asked first (`awaits_of_authenticating`), or a submit that is handed
over; that one is answered later and at most once, which the balance of a step shows
(`balance_move`): what is pending pays for each late answer. The capstone is `output_of_run`.
-/

namespace Smpp

/-- Whether an effect hands over a message. -/
def Effect.isSubmit : Effect → Bool
  | submit .. => true
  | write _ | farewell _ | authenticate _ | close => false

/-- Whether a frame asks for an answer: a request that is known, or a command without a meaning. -/
def Frame.asks : Frame → Bool
  | .unknown .. => true
  | .known _ _ (.bind _) | .known _ _ .unbind | .known _ _ (.submit _) | .known _ _ .enquireLink =>
    true
  | .known _ _ (.bindResp _) | .known _ _ .unbindResp | .known _ _ (.submitResp _)
  | .known _ _ .enquireLinkResp | .known _ _ .genericNack => false

/-- Whether a frame answers the submit with a number, be it with a result or by a negative
acknowledgement in its place. -/
def Frame.answersSubmit (n : UInt32) (f : Frame) : Bool := f.isSubmitResp n || f.isNack n

namespace Handler

namespace Move

/-- What a step reads, if it reads. -/
def reads? (m : Move) : Option ReadResult :=
  match m.event with
  | .turn _ => m.before.reading?
  | .arrive _ | .endStream _ | .cancel | .answer .. | .authenticated .. | .tick _ => none

/-- Whether a step reads the submit with a number and hands it over; the submit is then pending. -/
def admits (n : UInt32) (m : Move) : Bool :=
  match m.reads? with
  | some (.frame f) => f.isSubmit n && m.effects.any Effect.isSubmit
  | _ => false

/-- How many submits with a number a step hands over. -/
def admitted (n : UInt32) (m : Move) : Nat := if m.admits n then 1 else 0

/-- How many answers to the submit with a number a step gives that does not read it: such a step
takes a result or looks at the timers. -/
def late (n : UInt32) (m : Move) : Nat :=
  match m.event with
  | .turn _ | .tick _ => if m.reads?.isNone then m.said.countP (Frame.answersSubmit n) else 0
  | .arrive _ | .endStream _ | .cancel | .answer .. | .authenticated .. => 0

end Move

/-! ### Answers to what is read -/

section Answers

variable {h : Handler} {f : Frame} (now : Instant)

/-- A step that reads a frame carries out what the frame calls for. -/
theorem step_of_reading (hreading : h.reading? = some (.frame f)) :
    h.step (.turn now) =
      ({ h with connection := h.connection.read.1, engagement := (h.engagement.receive now f).1 } :
        Handler).carryOut (h.engagement.receive now f).2 := by
  obtain ⟨-, -, -, -, -, hturn⟩ := turn_of_reading now hreading
  exact congrArg (Option.getD · (h, [])) hturn

theorem said_of_reading (hthere : h.connection.ending ≠ .reset) {r : ReadResult}
    (hreading : h.reading? = some r) :
    (h.move (.turn now)).said = (h.dueToReading now r).map Frame.onWire := by
  obtain ⟨hserving, hcancelled, hnext, hread, -, -⟩ := turn_of_reading now hreading
  rw [said_move hthere, due_turn_of_reads hserving hcancelled hnext, hread]

/-- **A frame that is read is answered at once**, unless the backend is asked first: about a bind,
whose answer is waited for, or with a submit, which is pending from then on. A frame that asks for
nothing gets nothing. -/
theorem answers_reading (hs : h.Sound) (hthere : h.connection.ending ≠ .reset)
    (hreading : h.reading? = some (.frame f)) :
    let m := h.move (.turn now)
    (f.asks = false → m.said = []) ∧
    (f.asks = true →
      (∃ r, m.said = [r] ∧ r.sequence = f.sequence) ∨
      (m.said = [] ∧ m.admits f.sequence = true ∧
        m.after.engagement.session.tracker.isPending f.sequence = true) ∨
      (m.said = [] ∧ ∃ status n b, f = .known status n (.bind b) ∧
        m.after.stage = .authenticating n b)) := by
  intro m
  have hserving := (turn_of_reading now hreading).1
  have hsaid : m.said = ((h.engagement.receive now f).2.frames).map Frame.onWire :=
    said_of_reading now hthere hreading
  have hstep : h.step (.turn now) = _ := step_of_reading now hreading
  have hreads : m.reads? = some (.frame f) := hreading
  have hactive := hs.active (reason?_of_serving hserving)
  have hreceived := Session.received h.engagement.session now h.engagement.calls.inFlight f
  unfold Engagement.receive at hsaid hstep
  generalize hreceive : h.engagement.session.receive now h.engagement.calls.inFlight f = r
    at hreceived hsaid hstep
  -- A frame that is answered at once is answered under its number, whatever goes out for it.
  have hreply (r : Frame) (hsaid : m.said = [r].map Frame.onWire) (hr : r.sequence = f.sequence) :
      ∃ r, m.said = [r] ∧ r.sequence = f.sequence :=
    ⟨r.onWire, hsaid, (Frame.sequence_onWire r).trans hr⟩
  by_cases hasks : f.asks = true
  case neg =>
    refine ⟨fun _ => ?_, fun h => absurd h hasks⟩
    cases hreceived with
    | response => exact hsaid
    | late => exact hsaid
    | unknown | rebind | bind | unbind | unbound | submit | probe => exact absurd rfl hasks
  refine ⟨fun h => absurd hasks (Bool.eq_false_iff.1 h), fun _ => ?_⟩
  cases hreceived with
  | late hover => exact absurd hover hactive
  | unknown => exact .inl (hreply _ hsaid rfl)
  | rebind => exact .inl (hreply _ hsaid rfl)
  | bind =>
    exact .inr (.inr ⟨hsaid, _, _, _, rfl, congrArg (fun r => r.1.stage) hstep⟩)
  | unbind => exact .inl (hreply _ hsaid rfl)
  | unbound => exact .inl (hreply _ hsaid rfl)
  | submit _ hsubmit =>
    cases hsubmit with
    | barred => exact .inl (hreply _ hsaid rfl)
    | duplicate => exact .inl (hreply _ hsaid rfl)
    | throttled => exact .inl (hreply _ hsaid rfl)
    -- The one that is taken is answered later, and is pending until then.
    | taken htransmit hroom htrack =>
      refine .inr (.inl ⟨hsaid, ?_, ?_⟩)
      · unfold Move.admits
        rw [hreads, show m.effects = _ from congrArg Prod.snd hstep]
        simp [Frame.isSubmit, Frame.sequence, carryOut, Engagement.react, Effect.isSubmit]
      · rw [show m.after = _ from congrArg Prod.fst hstep]
        exact (Tracker.isPending_of_track htrack).2 (.inr rfl)
  | probe => exact .inl (hreply _ hsaid rfl)
  | response _ hresponse =>
    -- A command without a meaning may look like a response, and is answered all the same.
    exfalso
    cases f with
    | unknown command status n body =>
      rw [Session.receive_of_active now _ hactive] at hreceive
      cases hreceive
    | known status n message =>
      cases message with
      | bind b => rw [Frame.isResponse_bind] at hresponse; cases hresponse
      | unbind => cases hresponse
      | submit b => cases hresponse
      | enquireLink => cases hresponse
      | bindResp | unbindResp | submitResp | enquireLinkResp | genericNack => cases hasks

/-- **A malformed frame is answered by one negative acknowledgement** with its number and the status
of what is wrong with it, and the session does not hear of it. -/
theorem answers_malformed (hthere : h.connection.ending ≠ .reset) {command n : UInt32}
    {cause : WireError} (hreading : h.reading? = some (.error (.malformed command n cause))) :
    let m := h.move (.turn now)
    m.said = [.nack cause.status n] ∧ m.after.engagement = h.engagement ∧
      m.after.stage = .serving := by
  intro m
  obtain ⟨hserving, -, -, -, -, hturn⟩ := turn_of_reading now hreading
  have hthere' : (h.connection.read.1).ending ≠ .reset := (ending_read h.connection).trans_ne hthere
  have hstep : h.step (.turn now) =
      (({ h with connection := h.connection.read.1 } : Handler),
        writes [.nack cause.status n]) := by
    rw [← send_of_there (h := { h with connection := h.connection.read.1 }) hthere']
    exact congrArg (Option.getD · (h, [])) hturn
  refine ⟨said_of_reading now hthere hreading, ?_, ?_⟩
  · exact congrArg (fun r => r.1.engagement) hstep
  · rw [show m.after = _ from congrArg Prod.fst hstep]
    exact isServing_iff.1 hserving

end Answers

/-! ### The wait for an authentication -/

/-- In some steps nothing is said or read until an authentication ends, and then one frame is said,
under a number. -/
def Awaits (n : UInt32) : List Move → Prop
  | [] => True
  | m :: later =>
    match m.event with
    | .authenticated .. => ∃ r, m.said = [r] ∧ r.sequence = n
    | .arrive _ | .endStream _ | .cancel | .answer .. | .turn _ | .tick _ =>
      m.said = [] ∧ m.reads? = none ∧ Awaits n later

/-- **A bind that the backend is asked about is answered when the backend has answered**, and until
then nothing is said or read. -/
theorem awaits_of_authenticating {h : Handler} {n : UInt32} {b : Bind} {events : List Event}
    (hthere : h.connection.ending ≠ .reset) (hstage : h.stage = .authenticating n b)
    (hevents : ∀ e ∈ events, e ≠ .endStream .reset) : Awaits n (h.history events) := by
  -- On the events: whatever is not the end of the authentication leaves the handler waiting.
  induction events generalizing h with
  | nil => trivial
  | cons e es ih =>
    rw [List.forall_mem_cons] at hevents
    have hthere' := there_step hthere hevents.1
    have hidle : h.isServing = false := by
      refine beq_eq_false_iff_ne.2 ?_
      rw [hstage]
      exact fun h => nomatch h
    have hsilent (hdue : h.due e = []) : (h.move e).said = [] := by
      rw [said_move hthere, hdue]
      rfl
    have hreading : h.reading? = none := by
      unfold reading?
      rw [hidle]
      rfl
    rw [history_cons]
    cases e with
    | arrive bs => exact ⟨hsilent rfl, rfl, ih hthere' hstage hevents.2⟩
    | endStream ending => exact ⟨hsilent rfl, rfl, ih hthere' hstage hevents.2⟩
    | cancel => exact ⟨hsilent rfl, rfl, ih hthere' hstage hevents.2⟩
    | answer call result => exact ⟨hsilent rfl, rfl, ih hthere' hstage hevents.2⟩
    | authenticated now result =>
      obtain ⟨r, hr, hsequence, -⟩ := exists_frames_conclude h.engagement now n b result
      refine ⟨r.onWire, ?_, (Frame.sequence_onWire r).trans hsequence⟩
      rw [said_move hthere]
      dsimp only [due]
      rw [hstage]
      dsimp only
      rw [hr]
      rfl
    -- A handler that waits for a verdict takes no turn and looks at no timer.
    | turn now =>
      have hturn : h.turn now = none := by
        unfold turn
        rw [hstage]
      have hstep : (h.step (.turn now)).1 = h := by
        dsimp only [step]
        rw [hturn]
        rfl
      refine ⟨hsilent (due_turn_of_idle hidle), hreading, ?_⟩
      rw [hstep]
      exact ih hthere hstage hevents.2
    | tick now =>
      have hstep : (h.step (.tick now)).1 = h := congrArg Prod.fst (tick_of_early (.inl hidle))
      refine ⟨hsilent (due_tick_of_early (.inl hidle)), rfl, ?_⟩
      rw [hstep]
      exact ih hthere hstage hevents.2

/-! ### Late answers -/

section Balance

variable {n : UInt32}

theorem answersSubmit_onWire_answer (c : Completion) :
    c.answer.onWire.answersSubmit n = c.answer.isSubmitResp n := by
  have hshape :
      ∃ status messageId, c.answer = .known status c.sequence (.submitResp messageId) := by
    unfold Completion.answer
    split
    · exact ⟨_, _, rfl⟩
    · exact ⟨_, _, rfl⟩
  obtain ⟨status, messageId, hanswer⟩ := hshape
  rw [hanswer]
  unfold Frame.onWire
  split
  · unfold Frame.carried Message.carried Frame.answersSubmit
    dsimp only
    split <;> exact Bool.or_false _
  · exact Bool.false_or _

/-- What is said at an instant answers what is overdue, and no other submit. -/
theorem countP_dueAt (s : Session) (now : Instant) :
    ((dueAt s now).map Frame.onWire).countP (Frame.answersSubmit n) =
      (s.tracker.expire now).2.countP (·.sequence == n) := by
  have hoverdue : ((s.expire now).2.map Frame.onWire).countP (Frame.answersSubmit n) =
      (s.tracker.expire now).2.countP (·.sequence == n) := by
    unfold Session.expire
    dsimp only
    rw [List.map_map, List.countP_map]
    refine List.countP_congr fun request _ => ?_
    change ((request.sequence == n) || false) = true ↔ _
    rw [Bool.or_false]
  have hrequest (f : Option Frame) (hf : ∀ g, f = some g → g.onWire.answersSubmit n = false) :
      (f.toList.map Frame.onWire).countP (Frame.answersSubmit n) = 0 := by
    cases f with
    | none => rfl
    | some g =>
      rw [Option.toList_some, List.map_singleton, List.countP_singleton, hf g rfl]
      rfl
  unfold dueAt
  dsimp only
  rw [List.map_append, List.countP_append, hoverdue, hrequest, Nat.add_zero]
  -- Neither the request to end nor a probe answers a submit.
  intro g hg
  split at hg
  · unfold Session.shutdownFrame at hg
    split at hg <;> cases hg
    rfl
  · unfold Session.keepalive at hg
    split at hg
    · cases hg
    · split at hg <;> cases hg
      rfl

/-- How many submits are pending under a number. -/
def pending (n : UInt32) (h : Handler) : Nat := h.engagement.session.tracker.count n

theorem pending_finish (h : Handler) (reason : CloseReason) :
    pending n (h.finish reason).1 = 0 := rfl

theorem pending_carryOut_le (h : Handler) (r : Reaction) :
    pending n (h.carryOut r).1 ≤ pending n h :=
  keeps_carryOut (p := fun h' => pending n h' ≤ pending n h) (fun _ _ _ => Nat.zero_le _)
    (fun _ _ _ hp => hp) (Nat.le_refl _) r

/-- The end of an authentication leaves what is pending, or forgets it with everything else. -/
theorem pending_conclude_le (e : Engagement) (now : Instant) (k : UInt32) (b : Bind)
    (result : AuthResult) :
    (e.conclude now k b result).1.session.tracker.count n ≤ e.session.tracker.count n := by
  unfold Engagement.conclude Session.conclude
  cases result with
  | ok _ => exact Nat.le_refl _
  | error cause =>
    dsimp only
    split
    · exact Nat.zero_le _
    · exact Nat.le_refl _

theorem pending_authenticated_le (h : Handler) (now : Instant) (result : AuthResult) :
    pending n (h.authenticated now result).1 ≤ pending n h := by
  unfold authenticated
  split
  · exact Nat.le_trans (pending_carryOut_le _ _) (pending_conclude_le _ _ _ _ _)
  · exact Nat.le_refl _
  · exact Nat.le_refl _

/-- A frame makes a submit pending only if it is handed over. -/
theorem pending_reading_le {h : Handler} {now : Instant} {f : Frame}
    (hreading : h.reading? = some (.frame f)) :
    pending n (h.step (.turn now)).1 ≤ pending n h + (h.move (.turn now)).admitted n := by
  have hstep := step_of_reading now hreading
  have hreads : (h.move (.turn now)).reads? = some (.frame f) := hreading
  have heffects : (h.move (.turn now)).effects = (h.step (.turn now)).2 := rfl
  unfold Move.admitted Move.admits
  rw [hreads, heffects, hstep]
  refine Nat.le_trans (pending_carryOut_le _ _) ?_
  have hreceived := Session.received h.engagement.session now h.engagement.calls.inFlight f
  unfold Engagement.receive
  generalize h.engagement.session.receive now h.engagement.calls.inFlight f = r at hreceived
  -- All the ways a session takes a frame leave the tracker as it is, but two: the unbind of a
  -- client, which forgets what is pending, and a submit that is handed over.
  have hkept {tracker : Tracker} (k : Nat) (htracker : tracker = h.engagement.session.tracker) :
      tracker.count n ≤ pending n h + k := by
    rw [htracker]
    exact Nat.le_add_right _ _
  cases hreceived with
  | late => exact hkept _ rfl
  | unknown => exact hkept _ rfl
  | rebind => exact hkept _ rfl
  | bind => exact hkept _ rfl
  | unbind => exact Nat.zero_le _
  | unbound => exact hkept _ rfl
  | @submit _ k _ _ _ hsubmit =>
    cases hsubmit with
    | barred => exact hkept _ rfl
    | duplicate => exact hkept _ rfl
    | throttled => exact hkept _ rfl
    | @taken tracker _ _ _ htrack =>
      change tracker.count n ≤ pending n h + if ((k == n) && true) = true then 1 else 0
      rw [Tracker.count_of_track htrack, Bool.and_true]
      simp only [beq_iff_eq]
      exact Nat.le_refl _
  | probe => exact hkept _ rfl
  | response => exact hkept _ rfl

theorem pending_onRead_le (h : Handler) (now : Instant) {r : ReadResult}
    (hr : ∀ f, r ≠ .frame f) : pending n (h.onRead now r).1 ≤ pending n h :=
  keeps_onRead (p := fun h' => pending n h' ≤ pending n h) (fun _ _ _ => Nat.zero_le _)
    (Nat.le_refl _) now hr

theorem reading?_of_reads {h : Handler} {connection : Connection} {r : ReadResult}
    (hserving : h.isServing = true) (hcancelled : h.cancelled = false)
    (hnext : h.engagement.completeNext = none) (hread : h.connection.read = (connection, r))
    (hr : r ≠ .pending) : h.reading? = some r := by
  unfold reading?
  rw [hserving, hcancelled, hnext, hread]
  have hpending : (r != ReadResult.pending) = true := bne_iff_ne.2 hr
  dsimp only [Bool.not_false, Bool.and_true, Option.isNone_none]
  rw [hpending]
  rfl

/-- What there is pending and late after a step that reads. -/
theorem balance_reading {h : Handler} (now : Instant) {r : ReadResult}
    (hreading : h.reading? = some r) :
    pending n (h.step (.turn now)).1 + (h.move (.turn now)).late n ≤
      pending n h + (h.move (.turn now)).admitted n := by
  -- What is said to what is read is not late, whatever it is.
  have hlate : (h.move (.turn now)).late n = 0 := by
    change (if h.reading?.isNone then _ else 0) = 0
    rw [hreading]
    rfl
  rw [hlate, Nat.add_zero]
  by_cases hframe : ∃ f, r = .frame f
  · obtain ⟨f, rfl⟩ := hframe
    exact pending_reading_le hreading
  · obtain ⟨-, -, -, -, -, hturn⟩ := turn_of_reading now hreading
    have hstep : h.step (.turn now) = _ := congrArg (Option.getD · (h, [])) hturn
    rw [hstep]
    refine Nat.le_trans ?_ (Nat.le_add_right _ _)
    exact pending_onRead_le { h with connection := h.connection.read.1 } now
      fun f hr => hframe ⟨f, hr⟩

/-- What there is pending and late after a step that takes a result, obeys a cancellation or finds
nothing to do. -/
theorem balance_turn {h : Handler} (hs : h.Sound) (hthere : h.connection.ending ≠ .reset)
    (now : Instant) (hreading : h.reading? = none) :
    pending n (h.step (.turn now)).1 + (h.move (.turn now)).late n ≤ pending n h := by
  have hlate : (h.move (.turn now)).late n =
      ((h.due (.turn now)).map Frame.onWire).countP (Frame.answersSubmit n) := by
    change (if h.reading?.isNone then (h.move (.turn now)).said.countP _ else 0) = _
    rw [hreading, said_move hthere]
    rfl
  have hturned := turned h now
  rw [hlate]
  dsimp only [step]
  generalize h.turn now = r at hturned
  cases hturned with
  | idle hserving =>
    rw [due_turn_of_idle hserving]
    exact Nat.le_refl _
  | waits hserving hcancelled hnext hread =>
    rw [due_turn_of_reads hserving hcancelled hnext, hread]
    exact Nat.le_refl _
  | reads hserving hcancelled hnext hread hresult =>
    rw [reading?_of_reads hserving hcancelled hnext hread hresult] at hreading
    cases hreading
  | obeys hserving hcancelled =>
    -- The request to end answers nothing, and nothing is pending after the end.
    have hnone : (h.engagement.session.shutdownFrame.2.toList.map Frame.onWire).countP
        (Frame.answersSubmit n) = 0 := by
      unfold Session.shutdownFrame
      split <;> rfl
    rw [due_turn_of_cancelled hserving hcancelled, Option.getD_some,
      unbindAndFinish_of_there hthere, hnone]
    exact Nat.zero_le _
  | @completes engagement completion answer hserving hcancelled hnext =>
    obtain ⟨hsession, rfl⟩ := completeNext_answer hnext
    -- A result is answered if its submit was pending, and then it is pending no more.
    have hbalance := Session.balance_complete hs.session n completion
    have hanswers : ((h.engagement.session.complete completion).2.toList.map
        Frame.onWire).countP (Frame.answersSubmit n) =
        (h.engagement.session.complete completion).2.toList.countP (Frame.isSubmitResp n) := by
      cases hanswer : (h.engagement.session.complete completion).2 with
      | none => rfl
      | some f =>
        rw [complete_answer hanswer, Option.toList_some, List.map_singleton,
          List.countP_singleton, List.countP_singleton, answersSubmit_onWire_answer]
    rw [due_turn_of_completes hserving hcancelled hnext, hanswers, Option.getD_some,
      sendAll_of_there (h := { h with engagement }) hthere hserving]
    unfold pending
    dsimp only
    rw [hsession, ← hbalance]

/-- What there is pending and late after a look at the timers. -/
theorem balance_tick {h : Handler} (hthere : h.connection.ending ≠ .reset) (now : Instant) :
    pending n (h.step (.tick now)).1 + (h.move (.tick now)).late n ≤ pending n h := by
  have hlate : (h.move (.tick now)).late n =
      ((h.due (.tick now)).map Frame.onWire).countP (Frame.answersSubmit n) := by
    rw [← said_move hthere]
    rfl
  have hnothing (hearly : h.isServing = false ∨ now < h.engagement.session.nextWakeup) :
      pending n (h.step (.tick now)).1 + (h.move (.tick now)).late n ≤ pending n h := by
    rw [hlate, due_tick_of_early hearly]
    dsimp only [step]
    rw [tick_of_early hearly]
    exact Nat.le_refl _
  by_cases hserving : h.isServing = true
  case neg => exact hnothing (.inl (Bool.eq_false_iff.2 hserving))
  by_cases hdue : h.engagement.session.nextWakeup ≤ now
  case neg => exact hnothing (.inr (Nat.lt_of_not_le hdue))
  have hsplit := Tracker.count_expire h.engagement.session.tracker n now
  rw [hlate, due_tick_of_due hserving hdue, countP_dueAt]
  dsimp only [step]
  rw [tick_of_there hthere hserving hdue]
  split
  · -- At the end of a session what was not overdue is forgotten without an answer.
    rw [pending_finish]
    unfold pending
    omega
  · obtain ⟨probe, next, hframe⟩ :=
      Session.keepalive_frame (s := (h.engagement.session.expire now).1) now
    rw [hframe]
    exact Nat.le_of_eq hsplit.symm

/-- **What is pending pays for late answers**: what is pending after a step and what the step
answers late are no more than what was pending before it and what it hands over. -/
theorem balance_move {h : Handler} (hs : h.Sound) (hthere : h.connection.ending ≠ .reset)
    (e : Event) :
    pending n (h.step e).1 + (h.move e).late n ≤ pending n h + (h.move e).admitted n := by
  cases e with
  | arrive bs => exact Nat.le_refl _
  | endStream ending => exact Nat.le_refl _
  | cancel => exact Nat.le_refl _
  | answer call result => exact Nat.le_refl _
  | authenticated now result => exact pending_authenticated_le h now result
  | turn now =>
    cases hreading : h.reading? with
    | some r => exact balance_reading now hreading
    | none => exact Nat.le_trans (balance_turn hs hthere now hreading) (Nat.le_add_right _ _)
  | tick now => exact Nat.le_trans (balance_tick hthere now) (Nat.le_add_right _ _)

/-- **A run keeps the balance.** -/
theorem balance_history {h : Handler} (hs : h.Sound) (hthere : h.connection.ending ≠ .reset)
    {events : List Event} (hevents : ∀ e ∈ events, e ≠ .endStream .reset) :
    pending n (h.after events) + ((h.history events).map (Move.late n)).sum ≤
      pending n h + ((h.history events).map (Move.admitted n)).sum := by
  -- On the events: what one step leaves pending is what the next one begins with.
  induction events generalizing h with
  | nil => exact Nat.le_refl _
  | cons e es ih =>
    rw [List.forall_mem_cons] at hevents
    have hstep := balance_move (n := n) hs hthere e
    have hrest := ih (hs.step e) (there_step hthere hevents.1) hevents.2
    rw [history_cons, after_cons, List.map_cons, List.map_cons, List.sum_cons, List.sum_cons]
    omega

end Balance

/-! ### The output of a run -/

/-- What holds at every point of a run in which the client is there. -/
structure Serves (h : Handler) : Prop where
  sound : h.Sound
  there : h.connection.ending ≠ .reset

theorem Serves.start (config : Config) (begun : Instant) : (start config begun).Serves :=
  ⟨Sound.start config begun, fun h => nomatch h⟩

theorem Serves.step {h : Handler} (hs : h.Serves) {e : Event} (he : e ≠ .endStream .reset) :
    (h.step e).1.Serves :=
  ⟨hs.sound.step e, there_step hs.there he⟩

theorem Serves.after {h : Handler} (hs : h.Serves) {events : List Event}
    (hevents : ∀ e ∈ events, e ≠ .endStream .reset) : (h.after events).Serves :=
  after_of_step hs (fun _ _ hs he => hs.step he) hevents

/-- What is sent in a run is made up of what its steps say. -/
theorem allIn?_history {h : Handler} (hs : h.Serves) {events : List Event}
    (hevents : ∀ e ∈ events, e ≠ .endStream .reset) {largest : UInt32}
    (hlargest : Frame.longestFromServer ≤ largest.toNat) :
    Frame.allIn? largest.toNat ((h.history events).flatMap Move.written) =
      some ((h.history events).flatMap Move.said) := by
  have hmoves := forall_mem_history hs (fun _ _ hs he => hs.step he) hevents
  -- What is sent for the whole run is what is sent for all that is due in it.
  have hwritten : (h.history events).flatMap Move.written =
      ((h.history events).flatMap fun m => m.before.due m.event).flatMap octetsFor := by
    rw [List.flatMap_assoc]
    refine List.flatMap_congr fun m hm => ?_
    obtain ⟨h', e, hs', -, rfl⟩ := hmoves m hm
    exact written_step hs'.there e
  have hsaid : (h.history events).flatMap Move.said =
      ((h.history events).flatMap fun m => m.before.due m.event).map Frame.onWire := by
    rw [List.map_flatMap]
    refine List.flatMap_congr fun m hm => ?_
    obtain ⟨h', e, hs', -, rfl⟩ := hmoves m hm
    exact said_move hs'.there e
  rw [hwritten, hsaid]
  refine Frame.allIn?_octetsFor hlargest fun f hf => ?_
  obtain ⟨m, -, hf⟩ := List.mem_flatMap.1 hf
  exact fromServer_of_due hf

/-- **The output of a handler.** In every run in which the client is there to the end:

* what is sent is made up of frames, one after another with nothing left, for every client that
  takes frames as long as a server's;
* each step says what is due in it, and what cannot be written goes out as a negative
  acknowledgement under the same number;
* a frame that is read and asks for an answer gets it in the same step, one frame under its number,
  unless it is a submit that is handed over or a bind about which the backend is asked, whose answer
  then comes before anything else is said or read; a frame that asks for nothing gets nothing;
* a malformed frame gets one negative acknowledgement under its number, with the status of what is
  wrong, and leaves the session as it was;
* for a submit that was handed over, at most one answer comes later, from a result or at its
  deadline, unless another one is handed over under its number;
* after the connection is closed nothing is done. -/
theorem output_of_run (config : Config) (begun : Instant) (events : List Event)
    (hthere : ∀ e ∈ events, e ≠ .endStream .reset) :
    let moves := (start config begun).history events
    (∀ largest : UInt32, Frame.longestFromServer ≤ largest.toNat →
      Frame.allIn? largest.toNat (moves.flatMap Move.written) = some (moves.flatMap Move.said)) ∧
    (∀ m ∈ moves, m.said = (m.before.due m.event).map Frame.onWire) ∧
    (∀ earlier m later, moves = earlier ++ m :: later → ∀ f, m.reads? = some (.frame f) →
      (f.asks = false → m.said = []) ∧
      (f.asks = true →
        (∃ r, m.said = [r] ∧ r.sequence = f.sequence) ∨
        (m.said = [] ∧ m.admits f.sequence = true ∧
          m.after.engagement.session.tracker.isPending f.sequence = true) ∨
        (m.said = [] ∧ (∃ status n b, f = .known status n (.bind b)) ∧
          Awaits f.sequence later))) ∧
    (∀ m ∈ moves, ∀ command n cause, m.reads? = some (.error (.malformed command n cause)) →
      m.said = [.nack cause.status n] ∧ m.after.engagement = m.before.engagement ∧
        m.after.stage = .serving) ∧
    (∀ n earlier m later, moves = earlier ++ m :: later → m.admits n = true →
      (later.map (Move.late n)).sum ≤ 1 + (later.map (Move.admitted n)).sum) ∧
    (∀ done left, effects moves = done ++ .close :: left → left = []) := by
  intro moves
  have hstart := Serves.start config begun
  have hmoves := forall_mem_history hstart (fun _ _ hs he => hs.step he) hthere
  -- A run that is cut at a step goes on from what the step leaves behind, and the client is there.
  have hcut : ∀ {earlier later : List Move} {m : Move}, moves = earlier ++ m :: later →
      ∃ (h : Handler) (e : Event) (es : List Event), h.Serves ∧ m = h.move e ∧ m.after.Serves ∧
        later = m.after.history es ∧ ∀ e ∈ es, e ≠ .endStream .reset := by
    intro earlier later m hmoves
    obtain ⟨es, e, es', rfl, -, rfl, hlater⟩ := exists_of_history_eq hmoves
    have hes : ∀ e ∈ es, e ≠ .endStream .reset :=
      fun e he => hthere e (List.mem_append_left _ he)
    have he := hthere e (List.mem_append_right _ List.mem_cons_self)
    have hes' : ∀ e ∈ es', e ≠ .endStream .reset :=
      fun e he => hthere e (List.mem_append_right _ (List.mem_cons_of_mem _ he))
    have hbefore := hstart.after hes
    exact ⟨_, e, es', hbefore, rfl, hbefore.step he, hlater, hes'⟩
  refine ⟨fun largest hlargest => allIn?_history hstart hthere hlargest, ?_, ?_, ?_, ?_,
    fun done left hclose => nothing_after_close _ events hclose⟩
  · intro m hm
    obtain ⟨h, e, hs, -, rfl⟩ := hmoves m hm
    exact said_move hs.there e
  · intro earlier m later hm f hreads
    obtain ⟨h, e, es, hs, rfl, hafter, rfl, hes⟩ := hcut hm
    cases e with
    | turn now =>
      obtain ⟨hquiet, hanswers⟩ := answers_reading now hs.sound hs.there hreads
      refine ⟨hquiet, fun hasks => ?_⟩
      obtain hanswered | hadmitted | ⟨hsaid, status, n, b, rfl, hwaits⟩ := hanswers hasks
      · exact .inl hanswered
      · exact .inr (.inl hadmitted)
      · exact .inr (.inr ⟨hsaid, ⟨status, n, b, rfl⟩,
          awaits_of_authenticating hafter.there hwaits hes⟩)
    | arrive | endStream | cancel | answer | authenticated | tick => cases hreads
  · intro m hm command n cause hreads
    obtain ⟨h, e, hs, -, rfl⟩ := hmoves m hm
    cases e with
    | turn now => exact answers_malformed now hs.there hreads
    | arrive | endStream | cancel | answer | authenticated | tick => cases hreads
  · intro n earlier m later hm _
    obtain ⟨h, e, es, -, -, hafter, rfl, hes⟩ := hcut hm
    have hbalance := balance_history (n := n) hafter.sound hafter.there hes
    -- No number is pending twice, so what is pending behind the step pays for one late answer.
    have hone : pending n m.after ≤ 1 := by
      unfold pending
      rw [hafter.sound.session.distinct.count_eq]
      split <;> omega
    omega

/-- A server whose name cannot be written: the answer to the bind is replaced, and the frame behind
it has a body that it should not have. -/
theorem output_of_run_unwritable :
    let config : Config := { systemId := "smpp\x00gate" }
    let events : List Event :=
      [.arrive [0, 0, 0, 26, 0, 0, 0, 9, 0, 0, 0, 0, 0, 0, 0, 1, 99, 0, 112, 0, 116, 0, 52, 0, 0, 0,
        0, 0, 0, 17, 0, 0, 0, 21, 0, 0, 0, 0, 0, 0, 0, 2, 7], .turn 1, .authenticated 2 (.ok ()),
        .turn 3]
    (∀ e ∈ events, e ≠ .endStream .reset) ∧
      Frame.allIn? 81 (((start config 0).history events).flatMap Move.written) =
        some [.nack .unknownError 1, .nack .invalidCommandLength 2] := by
  intro config events
  have hthere : ∀ e ∈ events, e ≠ .endStream .reset := by
    simp [events]
  have hsaid : ((start config 0).history events).flatMap Move.said =
      [.nack .unknownError 1, .nack .invalidCommandLength 2] := by
    decide +kernel
  refine ⟨hthere, ?_⟩
  rw [← hsaid]
  exact (output_of_run config 0 events hthere).1 81 (by decide)

end Handler

end Smpp
