import Smpp.Proofs.Handler.Runs
import Smpp.Proofs.Handler.Speech

/-!
# What a handler has to say

`Handler.due` is what a session has to say when its handler is told something: the answer to the
frame that is read, to the result that is taken, to the authentication that has ended, the requests
that the clock calls for. Only two things that it says have a name in them, its own in the welcome
to a client and that of a message in a receipt (`utters_of_due`); all of it is of a server
(`fromServer_of_due`).

While the client is there a handler writes exactly what is due, each frame by itself
(`pieces_step`, `written_step`), and as what a server says is understood, the client gets it frame
by frame (`said_move`).
-/

namespace Smpp

/-- The octets that an effect sends, if it sends any. -/
def Effect.piece? : Effect → Option Octets
  | write bs | farewell bs => some bs
  | submit .. | authenticate _ | close => none

/-- The octets that an effect sends. -/
def Effect.octets (e : Effect) : Octets := e.piece?.getD []

/-- The octets that some effects send, each by itself. -/
def Effect.pieces (es : List Effect) : List Octets := es.filterMap Effect.piece?

/-- The octets that some effects send. -/
def Effect.written (es : List Effect) : Octets := es.flatMap Effect.octets

theorem Effect.written_eq_flatten (es : List Effect) : written es = (pieces es).flatten := by
  induction es with
  | nil => rfl
  | cons e es ih =>
    change e.octets ++ written es = _
    rw [ih]
    cases e with
    | write | farewell | submit | authenticate | close => rfl

/-- The frames that are sent at once. -/
def Reaction.frames : Reaction → List Frame
  | reply f | replyAndClose f => [f]
  | submit .. | authenticate .. | ignore => []

namespace Handler

/-- What the handler reads if it is its turn; nothing if there is something else to do first, or if
more octets are needed. -/
def reading? (h : Handler) : Option ReadResult :=
  if h.isServing && !h.cancelled && h.engagement.completeNext.isNone &&
      h.connection.read.2 != .pending then
    some h.connection.read.2
  else none

/-- What the session has to say to what is read. -/
def dueToReading (h : Handler) (now : Instant) : ReadResult → List Frame
  | .frame f => (h.engagement.receive now f).2.frames
  | .error (.malformed _ n cause) | .error (.framing (some n) cause) => [.nack cause.status n]
  | .closed | .pending | .error (.framing none _) | .error (.encode _) | .error .reset
  | .error (.io _) => []

/-- What the session has to say at an instant: an error for what is overdue, then the request to end
or a probe. -/
def dueAt (s : Session) (now : Instant) : List Frame :=
  let (s, overdue) := s.expire now
  overdue ++ (if s.isIdle now then s.shutdownFrame.2 else (s.keepalive now).2).toList

/-- What the session has to say when its handler is told something. -/
def due (h : Handler) : Event → List Frame
  | .arrive _ | .endStream _ | .cancel | .answer .. => []
  | .authenticated now result =>
    match h.stage with
    | .authenticating n b => (h.engagement.conclude now n b result).2.frames
    | .serving | .ended _ => []
  | .turn now =>
    if !h.isServing then []
    else if h.cancelled then h.engagement.session.shutdownFrame.2.toList
    else
      match h.engagement.completeNext with
      | some (_, _, answer) => answer.toList
      | none => h.dueToReading now h.connection.read.2
  | .tick now =>
    if h.isServing && h.engagement.session.nextWakeup ≤ now then dueAt h.engagement.session now
    else []

namespace Move

/-- The octets that a step sends. -/
def written (m : Move) : Octets := Effect.written m.effects

/-- The frames that the client gets out of what a step sends. -/
def said (m : Move) : List Frame := (Frame.allIn? Frame.largestLength.toNat m.written).getD []

end Move

/-! ### What is due is of a server -/

/-- What a handler may have to say when it is told something. -/
inductive Utters (h : Handler) (e : Event) : Frame → Prop where
  /-- It names neither itself nor a message. -/
  | plain {f : Frame} (hf : f.Plain) : Utters h e f
  /-- It welcomes a client whose bind the backend has let in. -/
  | welcome {now : Instant} {n : UInt32} {b : Bind} (hevent : e = .authenticated now (.ok ()))
    (hstage : h.stage = .authenticating n b) :
    Utters h e (.bindAccepted b.role n h.engagement.session.config.systemId)
  /-- It hands on the result of a message. -/
  | receipt {c : Completion} {messageId : String} (hline : c ∈ h.engagement.calls.finished)
    (hresult : c.result = .ok messageId) : Utters h e (.submitAccepted c.sequence messageId)

section FromServer

variable {f : Frame}

/-- What is sent at once is what the session answers. -/
theorem frames_react (e : Engagement) (a : Session × Action) :
    (e.react a).2.frames = (Session.Output.action a.2).written := by
  obtain ⟨session, action⟩ := a
  cases action <;> rfl

theorem plain_of_receive {s : Session} {now : Instant} {inFlight : Nat} {g : Frame}
    (hf : f ∈ (Session.Output.action (s.receive now inFlight g).2).written) : f.Plain := by
  -- A session writes one frame at the most, and none where it asks the backend.
  have hreceived := Session.received s now inFlight g
  generalize s.receive now inFlight g = r at hreceived hf
  cases hreceived with
  | late hover => cases hf
  | unknown hactive =>
    cases List.mem_singleton.1 hf
    exact .nack _ _
  | rebind hbound =>
    cases List.mem_singleton.1 hf
    exact .bindRefused _ _ _
  | bind hopen => cases hf
  | unbind hbound =>
    cases List.mem_singleton.1 hf
    exact .unbindResp _ _
  | unbound hopen =>
    cases List.mem_singleton.1 hf
    exact .unbindResp _ _
  | submit hactive hsubmit =>
    cases hsubmit with
    | barred =>
      cases List.mem_singleton.1 hf
      exact .submitRefused _ _
    | duplicate =>
      cases List.mem_singleton.1 hf
      exact .nack _ _
    | throttled =>
      cases List.mem_singleton.1 hf
      exact .submitRefused _ _
    | taken => cases hf
  | probe hactive =>
    cases List.mem_singleton.1 hf
    exact .enquireLinkResp _
  | response hactive hresponse => cases hf

/-- The end of an authentication is answered by one frame under the number of the bind; it welcomes
the client or names nobody. -/
theorem exists_written_conclude (s : Session) (now : Instant) (n : UInt32) (b : Bind)
    (result : AuthResult) :
    ∃ r, (Session.Output.action (s.conclude now n b result).2).written = [r] ∧ r.sequence = n ∧
      (result = .ok () ∧ r = .bindAccepted b.role n s.config.systemId ∨ r.Plain) := by
  unfold Session.conclude
  cases result with
  | ok _ => exact ⟨_, rfl, rfl, .inl ⟨rfl, rfl⟩⟩
  | error cause =>
    dsimp only
    split
    · exact ⟨_, rfl, rfl, .inr (.bindRefused _ _ _)⟩
    · exact ⟨_, rfl, rfl, .inr (.bindRefused _ _ _)⟩

/-- The end of an authentication is answered by one frame under the number of the bind. -/
theorem exists_frames_conclude (e : Engagement) (now : Instant) (n : UInt32) (b : Bind)
    (result : AuthResult) :
    ∃ r, (e.conclude now n b result).2.frames = [r] ∧ r.sequence = n ∧ r.FromServer := by
  obtain ⟨r, hr, hsequence, hkind⟩ := exists_written_conclude e.session now n b result
  refine ⟨r, (frames_react e _).trans hr, hsequence, ?_⟩
  obtain ⟨-, rfl⟩ | hplain := hkind
  · exact .bindAccepted _ _ _
  · exact hplain.fromServer

/-- What a result of the backend is answered with is under the number of a submit. -/
theorem completeNext_answer {e e' : Engagement} {c : Completion} {answer : Option Frame}
    (h : e.completeNext = some (e', c, answer)) :
    e'.session = (e.session.complete c).1 ∧ answer = (e.session.complete c).2 := by
  unfold Engagement.completeNext at h
  split at h
  · cases h
  · cases h
    exact ⟨rfl, rfl⟩

/-- What is taken is the first result in line. -/
theorem line_of_completeNext {e e' : Engagement} {c : Completion} {answer : Option Frame}
    (h : e.completeNext = some (e', c, answer)) :
    e.calls.finished = c :: e'.calls.finished := by
  unfold Engagement.completeNext Calls.take? at h
  split at h
  · cases h
  · next htake =>
    split at htake
    · cases htake
    · next hfinished =>
      cases htake
      cases h
      exact hfinished

/-- A result is handed on or names no message. -/
theorem answer_cases (c : Completion) :
    (∃ messageId, c.result = .ok messageId ∧ c.answer = .submitAccepted c.sequence messageId) ∨
      c.answer.Plain := by
  unfold Completion.answer
  split
  · next messageId hresult => exact .inl ⟨messageId, hresult, rfl⟩
  · exact .inr (.submitRefused _ _)

theorem complete_answer {s : Session} {c : Completion} (h : (s.complete c).2 = some f) :
    f = c.answer := by
  by_cases hactive : s.state = .closed
  · rw [Session.complete_of_closed hactive] at h
    cases h
  · rw [Session.complete_of_active hactive] at h
    split at h
    · exact (Option.some.inj h).symm
    · cases h

theorem plain_of_shutdownFrame {s : Session} (h : s.shutdownFrame.2 = some f) : f.Plain := by
  unfold Session.shutdownFrame at h
  split at h
  · cases h
    exact .unbind _
  · cases h

theorem plain_of_keepalive {s : Session} {now : Instant} (h : (s.keepalive now).2 = some f) :
    f.Plain := by
  unfold Session.keepalive at h
  split at h
  · cases h
  · split at h
    · cases h
    · cases h
      exact .enquireLink _

theorem plain_of_expire {s : Session} {now : Instant} (h : f ∈ (s.expire now).2) : f.Plain := by
  obtain ⟨request, -, rfl⟩ := List.mem_map.1 h
  exact .submitRefused _ _

theorem plain_of_dueAt {s : Session} {now : Instant} (hf : f ∈ dueAt s now) : f.Plain := by
  unfold dueAt at hf
  rw [List.mem_append, Option.mem_toList] at hf
  obtain hf | hf := hf
  · exact plain_of_expire hf
  · split at hf
    · exact plain_of_shutdownFrame hf
    · exact plain_of_keepalive hf

theorem plain_of_dueToReading {h : Handler} {now : Instant} {r : ReadResult}
    (hf : f ∈ h.dueToReading now r) : f.Plain := by
  unfold dueToReading at hf
  split at hf
  · exact plain_of_receive (frames_react h.engagement _ ▸ hf)
  · cases List.mem_singleton.1 hf
    exact .nack _ _
  · cases List.mem_singleton.1 hf
    exact .nack _ _
  all_goals cases hf

/-- **What a handler has to say**: it welcomes a client, hands on a result, or names nobody. -/
theorem utters_of_due {h : Handler} {e : Event} (hf : f ∈ h.due e) : Utters h e f := by
  -- By the event: the end of an authentication may welcome the client, a turn may hand on a result,
  -- and nothing else that is due names anybody.
  cases e with
  | arrive bs => cases hf
  | endStream ending => cases hf
  | cancel => cases hf
  | answer call result => cases hf
  | authenticated now result =>
    dsimp only [due] at hf
    split at hf
    · next n b hstage =>
      obtain ⟨r, hr, -, hkind⟩ := exists_written_conclude h.engagement.session now n b result
      have hframes : (h.engagement.conclude now n b result).2.frames = [r] :=
        (frames_react h.engagement _).trans hr
      rw [hframes, List.mem_singleton] at hf
      subst hf
      obtain ⟨rfl, rfl⟩ | hplain := hkind
      · exact .welcome rfl hstage
      · exact .plain hplain
    · cases hf
    · cases hf
  | turn now =>
    dsimp only [due] at hf
    -- In the order of a turn: it does not serve, it is told to end, a call has ended, it reads.
    split at hf
    · cases hf
    split at hf
    · exact .plain (plain_of_shutdownFrame (Option.mem_toList.1 hf))
    split at hf
    · next c answer hnext =>
      obtain ⟨-, rfl⟩ := completeNext_answer hnext
      have hline : c ∈ h.engagement.calls.finished := by
        rw [line_of_completeNext hnext]
        exact List.mem_cons_self
      rw [complete_answer (Option.mem_toList.1 hf)]
      obtain ⟨messageId, hresult, hanswer⟩ | hplain := answer_cases c
      · rw [hanswer]
        exact .receipt hline hresult
      · exact .plain hplain
    · exact .plain (plain_of_dueToReading hf)
  | tick now =>
    dsimp only [due] at hf
    split at hf
    · exact .plain (plain_of_dueAt hf)
    · cases hf

theorem Utters.fromServer {h : Handler} {e : Event} (hf : Utters h e f) : f.FromServer := by
  cases hf with
  | plain hf => exact hf.fromServer
  | welcome => exact .bindAccepted _ _ _
  | receipt => exact .submitAccepted _ _

/-- **What a session has to say is of a server.** -/
theorem fromServer_of_due {h : Handler} {e : Event} (hf : f ∈ h.due e) : f.FromServer :=
  (utters_of_due hf).fromServer

end FromServer

/-! ### What is due is written -/

@[simp] theorem written_append (es es' : List Effect) :
    Effect.written (es ++ es') = Effect.written es ++ Effect.written es' :=
  List.flatMap_append

@[simp] theorem pieces_append (es es' : List Effect) :
    Effect.pieces (es ++ es') = Effect.pieces es ++ Effect.pieces es' :=
  List.filterMap_append

@[simp] theorem pieces_close : Effect.pieces [.close] = [] := rfl

@[simp] theorem pieces_writes (fs : List Frame) :
    Effect.pieces (writes fs) = fs.map octetsFor := by
  unfold Effect.pieces writes
  rw [List.filterMap_map]
  exact congrFun List.filterMap_eq_map fs

@[simp] theorem pieces_farewells (fs : List Frame) :
    Effect.pieces (farewells fs) = fs.map octetsFor := by
  unfold Effect.pieces farewells
  rw [List.filterMap_map]
  exact congrFun List.filterMap_eq_map fs

section Turn

variable {h : Handler} {now : Instant}

theorem due_turn_of_idle (hserving : h.isServing = false) : h.due (.turn now) = [] := by
  dsimp only [due]
  rw [hserving]
  rfl

theorem due_turn_of_cancelled (hserving : h.isServing = true) (hcancelled : h.cancelled = true) :
    h.due (.turn now) = h.engagement.session.shutdownFrame.2.toList := by
  dsimp only [due]
  rw [hserving, hcancelled]
  rfl

theorem due_turn_of_completes {engagement : Engagement} {completion : Completion}
    {answer : Option Frame} (hserving : h.isServing = true) (hcancelled : h.cancelled = false)
    (hnext : h.engagement.completeNext = some (engagement, completion, answer)) :
    h.due (.turn now) = answer.toList := by
  dsimp only [due]
  rw [hserving, hcancelled, hnext]
  rfl

theorem due_turn_of_reads (hserving : h.isServing = true) (hcancelled : h.cancelled = false)
    (hnext : h.engagement.completeNext = none) :
    h.due (.turn now) = h.dueToReading now h.connection.read.2 := by
  dsimp only [due]
  rw [hserving, hcancelled, hnext]
  rfl

theorem due_tick_of_early
    (hearly : h.isServing = false ∨ now < h.engagement.session.nextWakeup) :
    h.due (.tick now) = [] := by
  dsimp only [due]
  obtain hidle | hearly := hearly
  · rw [hidle]
    rfl
  · rw [decide_eq_false (Nat.not_le.2 hearly), Bool.and_false]
    rfl

theorem due_tick_of_due (hserving : h.isServing = true)
    (hdue : h.engagement.session.nextWakeup ≤ now) :
    h.due (.tick now) = dueAt h.engagement.session now := by
  dsimp only [due]
  rw [hserving, decide_eq_true hdue]
  rfl

/-- What is read is what the connection gives, and it is the turn's only business. -/
theorem turn_of_reading (now : Instant) {r : ReadResult} (hreading : h.reading? = some r) :
    h.isServing = true ∧ h.cancelled = false ∧ h.engagement.completeNext = none ∧
      h.connection.read = (h.connection.read.1, r) ∧ r ≠ .pending ∧
      h.turn now =
        some (({ h with connection := h.connection.read.1 } : Handler).onRead now r) := by
  unfold reading? at hreading
  split at hreading
  case isFalse => cases hreading
  next hfree =>
  cases hreading
  simp only [Bool.and_eq_true, Bool.not_eq_true', Option.isNone_iff_eq_none, bne_iff_ne, ne_eq]
    at hfree
  obtain ⟨⟨⟨hserving, hcancelled⟩, hnext⟩, hpending⟩ := hfree
  have hturned := turned h now
  generalize h.turn now = r at hturned
  cases hturned with
  | idle hidle => rw [hserving] at hidle; cases hidle
  | obeys _ hobeys => rw [hcancelled] at hobeys; cases hobeys
  | completes _ _ hcompletes => rw [hnext] at hcompletes; cases hcompletes
  | waits _ _ _ hread => exact absurd hread hpending
  | reads _ _ _ hread hresult =>
    refine ⟨hserving, hcancelled, hnext, rfl, hpending, ?_⟩
    rw [hread]

end Turn

section There

variable {h : Handler} (hthere : h.connection.ending ≠ .reset)

include hthere

theorem unbindAndFinish_of_there (reason : CloseReason) :
    h.unbindAndFinish reason =
      (((h.withSession h.engagement.session.shutdownFrame.1).finish reason).1,
        farewells h.engagement.session.shutdownFrame.2.toList ++ [.close]) := by
  obtain ⟨fs, hfinish, hfs⟩ := unbindAndFinish_eq h reason
  rw [hfinish, hfs hthere]

theorem send_finish_of_there (hserving : h.isServing = true) (f : Frame)
    (reason : Handler → CloseReason) :
    (andThen (h.send f) fun h => h.finish (reason h)) =
      ((h.finish (reason h)).1, writes [f] ++ [.close]) := by
  rw [send_of_there hthere, andThen_of_serving hserving]
  rfl

/-- What the timers call for, all of it being sent: a client that has been silent for too long is
asked to end, and another one stays. -/
theorem tick_of_there {now : Instant} (hserving : h.isServing = true)
    (hdue : h.engagement.session.nextWakeup ≤ now) :
    let s := (h.engagement.session.expire now).1
    h.tick now =
      if s.isIdle now then
        (((h.withSession s.shutdownFrame.1).finish .idleTimeout).1,
          writes (h.engagement.session.expire now).2 ++
            (farewells s.shutdownFrame.2.toList ++ [.close]))
      else
        (h.withSession (s.keepalive now).1, writes (dueAt h.engagement.session now)) := by
  intro s
  rw [tick_of_due hserving hdue,
    sendAll_of_there (h := h.withSession s) hthere hserving (h.engagement.session.expire now).2]
  rw [andThen_of_serving hserving]
  dsimp only
  -- With a client that is there every write succeeds, so that whether the session is idle is all
  -- that is left to ask.
  by_cases hidle : s.isIdle now = true
  · have hidle' : (h.withSession s).engagement.session.isIdle now = true := hidle
    have hunbind := unbindAndFinish_of_there (h := h.withSession s) hthere .idleTimeout
    rw [if_pos hidle', hunbind, if_pos hidle]
    rfl
  · have hdueAt : dueAt h.engagement.session now =
        (h.engagement.session.expire now).2 ++ (s.keepalive now).2.toList := by
      unfold dueAt
      dsimp only
      rw [if_neg hidle]
    have hidle' : ¬ (h.withSession s).engagement.session.isIdle now = true := hidle
    have hsent := sendAll_of_there (h := h.withSession (s.keepalive now).1) hthere hserving
      (s.keepalive now).2.toList
    rw [if_neg hidle', if_neg hidle, hdueAt, writes_append]
    simp only [session_withSession, withSession_withSession]
    rw [hsent]

theorem pieces_carryOut (hserving : h.isServing = true) (r : Reaction) :
    Effect.pieces (h.carryOut r).2 = r.frames.map octetsFor := by
  cases r with
  | reply f =>
    change Effect.pieces (h.send f).2 = _
    rw [send_of_there hthere]
    exact pieces_writes [f]
  | replyAndClose f =>
    have hclose := send_finish_of_there hthere hserving f fun h =>
      if h.engagement.session.systemId?.isSome then .unbound else .bindAttemptsExceeded
    change Effect.pieces (andThen (h.send f) _).2 = _
    rw [hclose, pieces_append, pieces_writes, pieces_close, List.append_nil]
    rfl
  | submit call submission => rfl
  | authenticate n b => rfl
  | ignore => rfl

theorem pieces_onRead (hserving : h.isServing = true) (now : Instant) (r : ReadResult) :
    Effect.pieces (h.onRead now r).2 = (h.dueToReading now r).map octetsFor := by
  -- Something is said to a frame, and to what is malformed or misframed under a number; the rest
  -- ends the handler in silence.
  match r with
  | .frame f =>
    exact pieces_carryOut (h := { h with engagement := (h.engagement.receive now f).1 }) hthere
      hserving _
  | .pending => rfl
  | .closed => rfl
  | .error (.malformed command n cause) =>
    change Effect.pieces (h.send (.nack cause.status n)).2 = _
    rw [send_of_there hthere]
    exact pieces_writes [.nack cause.status n]
  | .error (.framing (some n) cause) =>
    have hclose := send_finish_of_there hthere hserving (.nack cause.status n)
      fun _ => .protocolError
    change Effect.pieces (andThen (h.send (.nack cause.status n)) _).2 = _
    rw [hclose, pieces_append, pieces_writes, pieces_close, List.append_nil]
    rfl
  | .error (.framing none cause) => rfl
  | .error (.encode cause) => rfl
  | .error .reset => rfl
  | .error (.io text) => rfl

/-- **What is due is written, and nothing else**, whatever a handler is told, each frame by
itself. -/
theorem pieces_step (e : Event) : Effect.pieces (h.step e).2 = (h.due e).map octetsFor := by
  -- What a step writes and what is due are both said by the same cases; between them are the
  -- writes, and these succeed while the client is there.
  cases e with
  | arrive bs => rfl
  | endStream ending => rfl
  | cancel => rfl
  | answer call result => rfl
  | authenticated now result =>
    dsimp only [step, authenticated, due]
    cases h.stage with
    | authenticating n b =>
      exact pieces_carryOut
        (h := { h with engagement := (h.engagement.conclude now n b result).1, stage := .serving })
        hthere rfl _
    | serving => rfl
    | ended reason => rfl
  | turn now =>
    have hturned := turned h now
    dsimp only [step]
    generalize h.turn now = r at hturned
    cases hturned with
    | idle hserving => rw [due_turn_of_idle hserving]; rfl
    | obeys hserving hcancelled =>
      rw [due_turn_of_cancelled hserving hcancelled, Option.getD_some,
        unbindAndFinish_of_there hthere, pieces_append, pieces_farewells, pieces_close,
        List.append_nil]
    | @completes engagement completion answer hserving hcancelled hnext =>
      rw [due_turn_of_completes hserving hcancelled hnext, Option.getD_some,
        sendAll_of_there (h := { h with engagement }) hthere hserving]
      exact pieces_writes _
    | @reads connection result hserving hcancelled hnext hread hresult =>
      rw [due_turn_of_reads hserving hcancelled hnext, hread, Option.getD_some]
      -- Reading does not make the client go away.
      have hthere' : connection.ending ≠ .reset := by
        have hending := ending_read h.connection
        rw [hread] at hending
        exact hending.trans_ne hthere
      exact pieces_onRead (h := { h with connection }) hthere' hserving now result
    | waits hserving hcancelled hnext hread =>
      rw [due_turn_of_reads hserving hcancelled hnext, hread]
      rfl
  | tick now =>
    have hnothing (hearly : h.isServing = false ∨ now < h.engagement.session.nextWakeup) :
        Effect.pieces (h.tick now).2 = (h.due (.tick now)).map octetsFor := by
      rw [tick_of_early hearly, due_tick_of_early hearly]
      rfl
    by_cases hserving : h.isServing = true
    case neg => exact hnothing (.inl (Bool.eq_false_iff.2 hserving))
    by_cases hdue : h.engagement.session.nextWakeup ≤ now
    case neg => exact hnothing (.inr (Nat.lt_of_not_le hdue))
    -- What has expired is said first, then the probe, or the request to end.
    dsimp only [step]
    rw [tick_of_there hthere hserving hdue, due_tick_of_due hserving hdue]
    split
    · next hidle =>
      unfold dueAt
      dsimp only
      rw [if_pos hidle, pieces_append, pieces_append, pieces_writes, pieces_farewells, pieces_close,
        List.append_nil, List.map_append]
    · exact pieces_writes _

theorem written_step (e : Event) :
    Effect.written (h.step e).2 = (h.due e).flatMap octetsFor := by
  rw [Effect.written_eq_flatten, pieces_step hthere, List.flatMap_def]

/-- **What a step says is what is due, as far as it can be written.** -/
theorem said_move (e : Event) : (h.move e).said = (h.due e).map Frame.onWire := by
  have hlargest : Frame.longestFromServer ≤ Frame.largestLength.toNat := by decide
  unfold Move.said
  change (Frame.allIn? _ (Effect.written (h.step e).2)).getD [] = _
  rw [written_step hthere,
    Frame.allIn?_octetsFor hlargest fun f (hf : f ∈ h.due e) => fromServer_of_due hf]
  rfl

theorem there_step {e : Event} (he : e ≠ .endStream .reset) :
    (h.step e).1.connection.ending ≠ .reset := by
  by_cases hends : ∃ ending, e = .endStream ending
  · obtain ⟨ending, rfl⟩ := hends
    exact fun hgone => he (congrArg Event.endStream hgone)
  · rw [h.ending_step fun ending heq => hends ⟨ending, heq⟩]
    exact hthere

end There

end Handler

end Smpp
