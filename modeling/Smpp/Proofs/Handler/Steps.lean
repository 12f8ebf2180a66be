import Smpp.Proofs.Connection.Reassembly
import Smpp.Proofs.Session.Runs

/-!
# What a handler does when it is told something

A handler is told one thing after another, and may be told them in any order: that octets have come,
that a call is answered, that it is its turn, that the clock shows an instant. `Handler.step` is
what it does when it is told one of them, and `Handler.history` what happens in a run of them.
Nothing is assumed of the order, so that what holds of every run holds however a worker goes about
it.

Two of the things have more than one outcome. `Handler.turned` lists what there may be to do in a
turn, and `Handler.looked` what may come of a look at the timers; later facts are by cases on these.
What the end of a handler leaves alone, everything that it says leaves alone
(`Handler.keeps_sendAll` and what follows it). What a session and its calls keep whatever is done
with them, every step keeps (`Handler.Stable.step`), and only reading changes a connection
(`Handler.ending_step`).
-/

namespace Smpp

namespace Handler

/-- One thing that a handler is told. -/
inductive Event where
  /-- Octets arrive. -/
  | arrive (bs : Octets)
  /-- The client stops sending, or is gone. -/
  | endStream (ending : Ending)
  /-- The worker cancels the connection. -/
  | cancel
  /-- A call is answered. -/
  | answer (call : Nat) (result : SubmitResult)
  /-- An authentication is answered, or was not answered in time. -/
  | authenticated (now : Instant) (result : AuthResult)
  /-- It is the handler's turn. -/
  | turn (now : Instant)
  /-- The clock shows an instant. -/
  | tick (now : Instant)

/-- Whether a handler is told something at an instant, and neither by its client nor by its
worker. -/
def Event.At (now : Instant) : Event → Prop
  | .answer .. => True
  | .authenticated t _ | .turn t | .tick t => t = now
  | .arrive _ | .endStream _ | .cancel => False

/-- Whether a handler is cancelled. -/
def Event.cancels : Event → Bool
  | .cancel => true
  | .arrive _ | .endStream _ | .answer .. | .authenticated .. | .turn _ | .tick _ => false

/-- What a handler does when it is told something. -/
def step (h : Handler) : Event → Handler × List Effect
  | .arrive bs => (h.receive bs, [])
  | .endStream ending => (h.endStream ending, [])
  | .cancel => (h.cancel, [])
  | .answer call result => (h.answer call result, [])
  | .authenticated now result => h.authenticated now result
  | .turn now => (h.turn now).getD (h, [])
  | .tick now => h.tick now

/-- The handler after it was told some things. -/
def after (h : Handler) (events : List Event) : Handler :=
  events.foldl (fun h e => (h.step e).1) h

/-- One step of a run. -/
structure Move where
  before : Handler
  event : Event
  after : Handler
  effects : List Effect

/-- The step that a handler makes when it is told something. -/
def move (h : Handler) (e : Event) : Move := ⟨h, e, (h.step e).1, (h.step e).2⟩

/-- The steps of a run. -/
def history (h : Handler) : List Event → List Move
  | [] => []
  | e :: es => h.move e :: (h.step e).1.history es

section Runs

variable (h : Handler)

@[simp] theorem after_nil : h.after [] = h := rfl

@[simp] theorem after_cons (e : Event) (es : List Event) :
    h.after (e :: es) = (h.step e).1.after es := rfl

theorem after_append (es es' : List Event) : h.after (es ++ es') = (h.after es).after es' :=
  List.foldl_append

@[simp] theorem history_nil : h.history [] = [] := rfl

@[simp] theorem history_cons (e : Event) (es : List Event) :
    h.history (e :: es) = h.move e :: (h.step e).1.history es := rfl

theorem history_append (es es' : List Event) :
    h.history (es ++ es') = h.history es ++ (h.after es).history es' := by
  induction es generalizing h with
  | nil => rfl
  | cons e es ih => rw [List.cons_append, history_cons, ih, history_cons, after_cons]; rfl

end Runs

/-- What every step preserves a run preserves. -/
theorem after_of_step {p : Handler → Prop} {q : Event → Prop} {h : Handler} (hp : p h)
    (hstep : ∀ h e, p h → q e → p (h.step e).1) {events : List Event} (hq : ∀ e ∈ events, q e) :
    p (h.after events) := by
  induction events generalizing h with
  | nil => exact hp
  | cons e es ih =>
    rw [List.forall_mem_cons] at hq
    exact ih (hstep h e hp hq.1) hq.2

/-- What holds of every step from a handler in an invariant holds of every step of a run, and the
invariant holds before it. -/
theorem forall_mem_history {p : Handler → Prop} {q : Event → Prop} {h : Handler} (hp : p h)
    (hstep : ∀ h e, p h → q e → p (h.step e).1) {events : List Event} (hq : ∀ e ∈ events, q e) :
    ∀ m ∈ h.history events, ∃ h e, p h ∧ q e ∧ m = h.move e := by
  induction events generalizing h with
  | nil => exact fun _ hm => absurd hm List.not_mem_nil
  | cons e es ih =>
    rw [List.forall_mem_cons] at hq
    rw [history_cons, List.forall_mem_cons]
    exact ⟨⟨h, e, hp, hq.1, rfl⟩, ih (hstep h e hp hq.1) hq.2⟩

/-- A run that is cut at a step is a run before it and a run from what the step leaves behind. -/
theorem exists_of_history_eq {h : Handler} {events : List Event} {earlier later : List Move}
    {m : Move} (hcut : h.history events = earlier ++ m :: later) :
    ∃ es e es', events = es ++ e :: es' ∧ earlier = h.history es ∧ m = (h.after es).move e ∧
      later = m.after.history es' := by
  -- On the steps before the cut, each of which belongs to one event.
  induction earlier generalizing h events with
  | nil =>
    cases events with
    | nil => cases hcut
    | cons e es =>
      cases hcut
      exact ⟨[], e, es, rfl, rfl, rfl, rfl⟩
  | cons m' earlier ih =>
    cases events with
    | nil => cases hcut
    | cons e es =>
      rw [history_cons, List.cons_append, List.cons.injEq] at hcut
      obtain ⟨rfl, hrest⟩ := hcut
      obtain ⟨es₁, e', es₂, rfl, rfl, hm, hlater⟩ := ih hrest
      exact ⟨e :: es₁, e', es₂, rfl, rfl, hm, hlater⟩

/-! ### Sending -/

/-- The effects of sending some frames. -/
def writes (fs : List Frame) : List Effect := fs.map fun f => .write (octetsFor f)

/-- The effects of sending some frames to a client that is about to be cut off. -/
def farewells (fs : List Frame) : List Effect := fs.map fun f => .farewell (octetsFor f)

theorem writes_append (fs gs : List Frame) : writes (fs ++ gs) = writes fs ++ writes gs :=
  List.map_append

/-- Effects that send something to the client, and do nothing else. -/
def Spoken (es : List Effect) : Prop := ∀ e ∈ es, ∃ bs, e = .write bs ∨ e = .farewell bs

section Spoken

variable {es es' : List Effect}

theorem spoken_writes (fs : List Frame) : Spoken (writes fs) := by
  intro e he
  obtain ⟨f, -, rfl⟩ := List.mem_map.1 he
  exact ⟨_, .inl rfl⟩

theorem spoken_farewells (fs : List Frame) : Spoken (farewells fs) := by
  intro e he
  obtain ⟨f, -, rfl⟩ := List.mem_map.1 he
  exact ⟨_, .inr rfl⟩

theorem Spoken.append (h : Spoken es) (h' : Spoken es') : Spoken (es ++ es') :=
  fun e he => (List.mem_append.1 he).elim (h e) (h' e)

theorem Spoken.close_not_mem (h : Spoken es) : Effect.close ∉ es := by
  intro hclose
  obtain ⟨bs, heq | heq⟩ := h _ hclose
  · cases heq
  · cases heq

theorem Spoken.authenticate_not_mem (h : Spoken es) (c : Credentials) :
    Effect.authenticate c ∉ es := by
  intro hasks
  obtain ⟨bs, heq | heq⟩ := h _ hasks
  · cases heq
  · cases heq

end Spoken

section Send

variable {h : Handler}

theorem isServing_iff : h.isServing = true ↔ h.stage = .serving := beq_iff_eq

theorem send_of_there (hthere : h.connection.ending ≠ .reset) (f : Frame) :
    h.send f = (h, writes [f]) :=
  if_neg fun hgone => hthere (beq_iff_eq.1 hgone)

theorem send_of_gone (hgone : h.connection.ending = .reset) (f : Frame) :
    h.send f = h.finish .transportError :=
  if_pos (beq_iff_eq.2 hgone)

/-- A client that is there is sent every frame. -/
theorem sendAll_of_there (hthere : h.connection.ending ≠ .reset) (hserving : h.isServing = true)
    (fs : List Frame) : h.sendAll fs = (h, writes fs) := by
  -- On the frames: a frame that goes out leaves the handler as it was for the next.
  induction fs with
  | nil => rfl
  | cons f fs ih =>
    unfold sendAll
    rw [send_of_there hthere f]
    dsimp only
    rw [if_pos hserving, ih]
    rfl

/-- A client that is gone ends the handler with the first frame. -/
theorem sendAll_of_gone (hgone : h.connection.ending = .reset) (fs : List Frame) :
    h.sendAll fs = (h, []) ∨ h.sendAll fs = h.finish .transportError := by
  cases fs with
  | nil => exact .inl rfl
  | cons f fs =>
    right
    unfold sendAll
    rw [send_of_gone hgone f]
    rfl

/-- Frames are sent, as far as the client is there, or the handler ends over them. -/
theorem sendAll_cases (hserving : h.isServing = true) (fs : List Frame) :
    (∃ sent, h.sendAll fs = (h, writes sent)) ∨ h.sendAll fs = h.finish .transportError := by
  by_cases hgone : h.connection.ending = .reset
  · exact (sendAll_of_gone hgone fs).imp (fun hnothing => ⟨[], hnothing⟩) id
  · exact .inl ⟨fs, sendAll_of_there hgone hserving fs⟩

/-- A handler that still serves its client goes on with what comes next. -/
theorem andThen_of_serving {r : Handler × List Effect} (hserving : r.1.isServing = true)
    (g : Handler → Handler × List Effect) :
    andThen r g = ((g r.1).1, r.2 ++ (g r.1).2) := if_pos hserving

/-- To send one frame is to send a row of one. -/
theorem send_eq_sendAll (h : Handler) (f : Frame) : h.send f = h.sendAll [f] := by
  unfold sendAll
  generalize h.send f = r
  obtain ⟨h', es⟩ := r
  dsimp only [sendAll]
  rw [List.append_nil, ite_self]

end Send

/-! ### What there is to do -/

/-- A handler with another session. -/
def withSession (h : Handler) (session : Session) : Handler :=
  { h with engagement := { h.engagement with session } }

@[simp] theorem session_withSession (h : Handler) (s : Session) :
    (h.withSession s).engagement.session = s := rfl

@[simp] theorem withSession_withSession (h : Handler) (s t : Session) :
    (h.withSession s).withSession t = h.withSession t := rfl

/-- What there is to do in a turn, in the order in which it is looked for. -/
inductive Turned (h : Handler) (now : Instant) : Option (Handler × List Effect) → Prop where
  /-- The handler does not serve its client. -/
  | idle (hserving : h.isServing = false) : Turned h now none
  /-- It obeys a cancellation. -/
  | obeys (hserving : h.isServing = true) (hcancelled : h.cancelled = true) :
    Turned h now (some (h.unbindAndFinish .shutdown))
  /-- It takes the first result in line. -/
  | completes {engagement : Engagement} {completion : Completion} {answer : Option Frame}
    (hserving : h.isServing = true) (hcancelled : h.cancelled = false)
    (hnext : h.engagement.completeNext = some (engagement, completion, answer)) :
    Turned h now (some (({ h with engagement } : Handler).sendAll answer.toList))
  /-- It reads from its connection. -/
  | reads {connection : Connection} {result : ReadResult} (hserving : h.isServing = true)
    (hcancelled : h.cancelled = false) (hnext : h.engagement.completeNext = none)
    (hread : h.connection.read = (connection, result)) (hresult : result ≠ .pending) :
    Turned h now (some (({ h with connection } : Handler).onRead now result))
  /-- It waits for its client. -/
  | waits (hserving : h.isServing = true) (hcancelled : h.cancelled = false)
    (hnext : h.engagement.completeNext = none) (hread : h.connection.read.2 = .pending) :
    Turned h now none

/-- **What there is to do in a turn.** -/
theorem turned (h : Handler) (now : Instant) : Turned h now (h.turn now) := by
  unfold turn
  split
  · next hstage => exact .idle (beq_eq_false_iff_ne.2 (by rw [hstage]; exact fun h => nomatch h))
  · next hstage => exact .idle (beq_eq_false_iff_ne.2 (by rw [hstage]; exact fun h => nomatch h))
  next hstage =>
  have hserving : h.isServing = true := isServing_iff.2 hstage
  split
  · next hcancelled => exact .obeys hserving hcancelled
  next hcancelled =>
  rw [Bool.not_eq_true] at hcancelled
  split
  · next engagement completion answer hnext =>
    -- A result that answers nothing is taken all the same.
    cases answer with
    | none => exact .completes hserving hcancelled hnext
    | some f =>
      dsimp only
      rw [send_eq_sendAll]
      exact .completes hserving hcancelled hnext
  next hnext =>
  split
  · next connection hread => exact .waits hserving hcancelled hnext (by rw [hread])
  · next connection result hresult hread =>
    refine .reads hserving hcancelled hnext hread ?_
    rintro rfl
    exact hresult rfl

/-- When the timers have something to say, what is overdue comes first, then the silence of the
client, then the probe. -/
theorem tick_of_due {h : Handler} {now : Instant} (hserving : h.isServing = true)
    (hdue : h.engagement.session.nextWakeup ≤ now) :
    h.tick now =
      andThen ((h.withSession (h.engagement.session.expire now).1).sendAll
          (h.engagement.session.expire now).2) fun h =>
        if h.engagement.session.isIdle now then h.unbindAndFinish .idleTimeout
        else
          (h.withSession (h.engagement.session.keepalive now).1).sendAll
            (h.engagement.session.keepalive now).2.toList := by
  have hdue' : (!h.isServing || decide (now < h.engagement.session.nextWakeup)) = false := by
    rw [hserving, decide_eq_false (Nat.not_lt.2 hdue)]
    rfl
  unfold tick
  rw [hdue', if_neg Bool.false_ne_true]
  refine congrArg (andThen _) (funext fun h' => ?_)
  split
  · rfl
  · generalize h'.engagement.session.keepalive now = kept
    obtain ⟨session, _ | f⟩ := kept
    · rfl
    · exact send_eq_sendAll _ f

theorem tick_of_early {h : Handler} {now : Instant}
    (hearly : h.isServing = false ∨ now < h.engagement.session.nextWakeup) :
    h.tick now = (h, []) := by
  have hearly' : (!h.isServing || decide (now < h.engagement.session.nextWakeup)) = true := by
    rw [Bool.or_eq_true, Bool.not_eq_true', decide_eq_true_iff]
    exact hearly
  unfold tick
  rw [hearly']
  rfl

/-- To end with a request to the client to end, as far as it goes out. -/
theorem unbindAndFinish_eq (h : Handler) (reason : CloseReason) :
    ∃ fs, h.unbindAndFinish reason =
        (((h.withSession h.engagement.session.shutdownFrame.1).finish reason).1,
          farewells fs ++ [.close]) ∧
      (h.connection.ending ≠ .reset → fs = h.engagement.session.shutdownFrame.2.toList) := by
  unfold unbindAndFinish
  dsimp only
  split
  · next hframe =>
    rw [hframe]
    exact ⟨[], rfl, fun _ => rfl⟩
  · next f hframe =>
    rw [hframe]
    split
    · next hgone => exact ⟨[], rfl, fun hthere => absurd (beq_iff_eq.1 hgone) hthere⟩
    · exact ⟨[f], rfl, fun _ => rfl⟩

/-- What may come of a look at the timers. What is overdue is given up first; then it is seen
whether the client has been silent for too long, and a probe sent if one is due. -/
inductive Looked (h : Handler) (now : Instant) : Handler × List Effect → Prop where
  /-- It is not time yet, or the handler does not serve its client. -/
  | early (hearly : h.isServing = false ∨ now < h.engagement.session.nextWakeup) :
    Looked h now (h, [])
  /-- There is something to say and the client is gone. -/
  | gone {s : Session} {es : List Effect} (hserving : h.isServing = true)
    (hs : s = (h.engagement.session.expire now).1 ∨
      s = ((h.engagement.session.expire now).1.keepalive now).1) (hspoken : Spoken es) :
    Looked h now (((h.withSession s).finish .transportError).1, es ++ [.close])
  /-- The client has been silent for too long. -/
  | silent {es : List Effect} (hserving : h.isServing = true)
    (hidle : (h.engagement.session.expire now).1.isIdle now = true) (hspoken : Spoken es) :
    Looked h now
      (((h.withSession (h.engagement.session.expire now).1.shutdownFrame.1).finish
        .idleTimeout).1, es ++ [.close])
  /-- The client stays, and is probed if it is time. -/
  | awake {fs : List Frame} (hserving : h.isServing = true)
    (hidle : (h.engagement.session.expire now).1.isIdle now = false) :
    Looked h now (h.withSession ((h.engagement.session.expire now).1.keepalive now).1, writes fs)

/-- **What comes of a look at the timers.** -/
theorem looked (h : Handler) (now : Instant) : Looked h now (h.tick now) := by
  by_cases hserving : h.isServing = true
  case neg =>
    have hidle : h.isServing = false := Bool.eq_false_iff.2 hserving
    rw [tick_of_early (.inl hidle)]
    exact .early (.inl hidle)
  by_cases hdue : h.engagement.session.nextWakeup ≤ now
  case neg =>
    have hearly : now < h.engagement.session.nextWakeup := Nat.lt_of_not_le hdue
    rw [tick_of_early (.inr hearly)]
    exact .early (.inr hearly)
  rw [tick_of_due hserving hdue]
  obtain ⟨fs, hsent⟩ | hends := sendAll_cases
    (h := h.withSession (h.engagement.session.expire now).1) hserving
    (h.engagement.session.expire now).2
  case inr =>
    have hgone : Looked h now (_, writes [] ++ [.close]) :=
      .gone hserving (.inl rfl) (spoken_writes [])
    rw [hends]
    exact hgone
  -- The errors for what was overdue are out, and the handler goes on to the silence of its client.
  rw [hsent, andThen_of_serving hserving]
  dsimp only
  by_cases hidle : (h.withSession (h.engagement.session.expire now).1).engagement.session.isIdle now
  case pos =>
    obtain ⟨gs, hunbind, -⟩ :=
      unbindAndFinish_eq (h.withSession (h.engagement.session.expire now).1) .idleTimeout
    rw [if_pos hidle, hunbind, ← List.append_assoc]
    exact .silent hserving hidle ((spoken_writes _).append (spoken_farewells _))
  rw [if_neg hidle]
  simp only [session_withSession, withSession_withSession]
  obtain ⟨gs, hsent'⟩ | hends := sendAll_cases
    (h := h.withSession ((h.engagement.session.expire now).1.keepalive now).1) hserving
    ((h.engagement.session.expire now).1.keepalive now).2.toList
  · rw [hsent', ← writes_append]
    exact .awake hserving (Bool.eq_false_iff.2 hidle)
  · rw [hends]
    exact .gone hserving (.inr rfl) (spoken_writes _)

/-! ### What a handler keeps

What the end of a handler leaves alone, everything that it says leaves alone. -/

section Keeps

variable {p : Handler → Prop}

theorem keeps_andThen {r : Handler × List Effect} {g : Handler → Handler × List Effect}
    (hg : ∀ h, p h → p (g h).1) (hr : p r.1) : p (andThen r g).1 := by
  unfold andThen
  split
  · exact hg r.1 hr
  · exact hr

variable (hfinish : ∀ h reason, p h → p (finish h reason).1) {h : Handler}

include hfinish

theorem keeps_send (hp : p h) (f : Frame) : p (h.send f).1 := by
  unfold send
  split
  · exact hfinish h _ hp
  · exact hp

theorem keeps_sendAll (hp : p h) (fs : List Frame) : p (h.sendAll fs).1 := by
  -- On the frames: the row breaks off at the first one that ends the handler.
  induction fs generalizing h with
  | nil => exact hp
  | cons f fs ih =>
    unfold sendAll
    dsimp only
    split
    · exact ih (keeps_send hfinish hp f)
    · exact keeps_send hfinish hp f

theorem keeps_send_finish (hp : p h) (f : Frame) (reason : Handler → CloseReason) :
    p (andThen (h.send f) fun h => h.finish (reason h)).1 :=
  keeps_andThen (fun h' => hfinish h' _) (keeps_send hfinish hp f)

theorem keeps_carryOut (hasks : ∀ (h : Handler) (n : UInt32) (b : Bind), p h →
    p { h with stage := .authenticating n b }) (hp : p h) (r : Reaction) :
    p (h.carryOut r).1 := by
  cases r with
  | reply f => exact keeps_send hfinish hp f
  | replyAndClose f => exact keeps_send_finish hfinish hp f _
  | submit call submission => exact hp
  | authenticate n b => exact hasks h n b hp
  | ignore => exact hp

/-- What is no frame is reported or ends the handler. -/
theorem keeps_onRead (hp : p h) (now : Instant) {r : ReadResult} (hr : ∀ f, r ≠ .frame f) :
    p (h.onRead now r).1 := by
  match r with
  | .frame f => exact absurd rfl (hr f)
  | .pending => exact hp
  | .closed => exact hfinish h _ hp
  | .error (.malformed command n cause) => exact keeps_send hfinish hp _
  | .error (.framing (some n) cause) => exact keeps_send_finish hfinish hp _ _
  | .error (.framing none cause) => exact hfinish h _ hp
  | .error (.encode cause) => exact hfinish h _ hp
  | .error .reset => exact hfinish h _ hp
  | .error (.io text) => exact hfinish h _ hp

end Keeps

/-! ### What an engagement keeps -/

/-- What an engagement keeps whatever its handler does with it, as long as the handler is told only
what it may be told. -/
structure Stable (p : Engagement → Prop) (may : Event → Prop) : Prop where
  receive : ∀ e now f, p e → p (e.receive now f).1
  conclude : ∀ e now n b result, p e → p (e.conclude now n b result).1
  completes : ∀ e e' c answer, e.completeNext = some (e', c, answer) → p e → p e'
  answers : ∀ (e : Engagement) call result, may (.answer call result) → p e →
    p { e with calls := e.calls.finish call result }
  expires : ∀ (e : Engagement) now, p e → p { e with session := (e.session.expire now).1 }
  probes : ∀ (e : Engagement) now, may (.tick now) → p e →
    p { e with session := (e.session.keepalive now).1 }
  unbinds : ∀ e : Engagement, p e → p { e with session := e.session.shutdownFrame.1 }
  closes : ∀ e : Engagement, p e → p { e with session := e.session.close }

namespace Stable

variable {p : Engagement → Prop} {may : Event → Prop} (hp : Stable p may) {h : Handler}

include hp

theorem finish (hs : p h.engagement) (reason : CloseReason) : p (h.finish reason).1.engagement :=
  hp.closes _ hs

theorem sendAll (hs : p h.engagement) (fs : List Frame) : p (h.sendAll fs).1.engagement :=
  keeps_sendAll (p := fun h => p h.engagement) (fun _ reason hs => hp.finish hs reason) hs fs

theorem carryOut (hs : p h.engagement) (r : Reaction) : p (h.carryOut r).1.engagement :=
  keeps_carryOut (p := fun h => p h.engagement) (fun _ reason hs => hp.finish hs reason)
    (fun _ _ _ hs => hs) hs r

theorem unbindAndFinish (hs : p h.engagement) (reason : CloseReason) :
    p (h.unbindAndFinish reason).1.engagement := by
  obtain ⟨fs, hfinish, -⟩ := unbindAndFinish_eq h reason
  rw [hfinish]
  exact hp.closes _ (hp.unbinds _ hs)

theorem onRead (hs : p h.engagement) (now : Instant) (r : ReadResult) :
    p (h.onRead now r).1.engagement := by
  by_cases hframe : ∃ f, r = .frame f
  · obtain ⟨f, rfl⟩ := hframe
    exact hp.carryOut (h := { h with engagement := _ }) (hp.receive _ now f hs) _
  · exact keeps_onRead (p := fun h => p h.engagement) (fun _ reason hs => hp.finish hs reason) hs
      now fun f hr => hframe ⟨f, hr⟩

/-- **What an engagement keeps is kept by whatever its handler is told.** -/
theorem step {e : Event} (he : may e) (hs : p h.engagement) : p (h.step e).1.engagement := by
  -- One clause of `Stable` for each thing that an event can do to the engagement; the writes and
  -- the reads around it are of the connection.
  cases e with
  | arrive bs => exact hs
  | endStream ending => exact hs
  | cancel => exact hs
  | answer call result => exact hp.answers _ call result he hs
  | authenticated now result =>
    dsimp only [Handler.step, authenticated]
    split
    · next n b hstage =>
      exact hp.carryOut (h := { h with engagement := _, stage := _ })
        (hp.conclude _ now n b result hs) _
    · exact hs
    · exact hs
  | turn now =>
    dsimp only [Handler.step]
    have hturned := turned h now
    generalize h.turn now = r at hturned
    cases hturned with
    | idle => exact hs
    | waits => exact hs
    | obeys => exact hp.unbindAndFinish hs _
    | @completes engagement completion answer hserving hcancelled hnext =>
      exact hp.sendAll (h := { h with engagement }) (hp.completes _ _ _ _ hnext hs) _
    | @reads connection result hserving hcancelled hnext hread hresult =>
      exact hp.onRead (h := { h with connection }) hs now result
  | tick now =>
    dsimp only [Handler.step]
    -- What is overdue expires first, and only then comes the probe, or the end.
    have hexpired := hp.expires _ now hs
    have hprobed := hp.probes _ now he hexpired
    have hlooked := looked h now
    generalize h.tick now = r at hlooked
    cases hlooked with
    | early => exact hs
    | gone hserving hs' =>
      obtain rfl | rfl := hs'
      · exact hp.closes _ hexpired
      · exact hp.closes _ hprobed
    | silent => exact hp.closes _ (hp.unbinds _ hexpired)
    | awake => exact hprobed

end Stable

/-! ### The connection

Only reading changes a connection; what a handler does besides leaves it as it is. -/

section Connection

variable (h : Handler)

@[simp] theorem connection_sendAll (fs : List Frame) :
    (h.sendAll fs).1.connection = h.connection :=
  keeps_sendAll (p := fun h' => h'.connection = h.connection) (fun _ _ hp => hp) rfl fs

@[simp] theorem connection_unbindAndFinish (reason : CloseReason) :
    (h.unbindAndFinish reason).1.connection = h.connection := by
  obtain ⟨fs, hfinish, -⟩ := unbindAndFinish_eq h reason
  rw [hfinish]
  rfl

@[simp] theorem connection_carryOut (r : Reaction) :
    (h.carryOut r).1.connection = h.connection :=
  keeps_carryOut (p := fun h' => h'.connection = h.connection) (fun _ _ hp => hp)
    (fun _ _ _ hp => hp) rfl r

@[simp] theorem connection_onRead (now : Instant) (r : ReadResult) :
    (h.onRead now r).1.connection = h.connection := by
  by_cases hframe : ∃ f, r = .frame f
  · obtain ⟨f, rfl⟩ := hframe
    exact connection_carryOut { h with engagement := (h.engagement.receive now f).1 } _
  · exact keeps_onRead (p := fun h' => h'.connection = h.connection) (fun _ _ hp => hp) rfl now
      fun f hr => hframe ⟨f, hr⟩

@[simp] theorem connection_tick (now : Instant) : (h.tick now).1.connection = h.connection := by
  have hlooked := looked h now
  generalize h.tick now = r at hlooked
  cases hlooked <;> rfl

@[simp] theorem connection_authenticated (now : Instant) (result : AuthResult) :
    (h.authenticated now result).1.connection = h.connection := by
  unfold authenticated
  split
  · exact connection_carryOut _ _
  · rfl
  · rfl

theorem ending_of_take {c : Connection} {r : Connection × ReadResult} (h : c.take = some r) :
    r.1.ending = c.ending := by
  unfold Connection.take at h
  split at h
  · cases h
  · cases h
    rfl
  · dsimp only at h
    split at h
    · cases h
      rfl
    · split at h <;> cases h <;> rfl

/-- Reading leaves to the client whether it still sends. -/
theorem ending_read (c : Connection) : c.read.1.ending = c.ending := by
  -- A read takes from the buffer, or fetches and takes, or finds that there is nothing to take.
  cases htake : c.take with
  | some r =>
    rw [Connection.read_of_take htake]
    exact ending_of_take htake
  | none =>
    cases hfetched : c.fetched.take with
    | some r =>
      rw [Connection.read_of_fetched htake hfetched]
      have hending : r.1.ending = c.fetched.ending := ending_of_take hfetched
      exact hending
    | none =>
      rw [Connection.read_of_rest htake hfetched]
      rfl

theorem ending_turn (now : Instant) :
    ((h.turn now).getD (h, [])).1.connection.ending = h.connection.ending := by
  have hturned := turned h now
  generalize h.turn now = r at hturned
  cases hturned with
  | idle => rfl
  | waits => rfl
  | obeys => exact congrArg Connection.ending (connection_unbindAndFinish h _)
  | completes => exact congrArg Connection.ending (connection_sendAll _ _)
  | reads hserving hcancelled hnext hread =>
    have hending := ending_read h.connection
    rw [hread] at hending
    rw [Option.getD_some, connection_onRead]
    exact hending

/-- Whether a client is there is up to the client. -/
theorem ending_step {e : Event} (he : ∀ ending, e ≠ .endStream ending) :
    (h.step e).1.connection.ending = h.connection.ending := by
  cases e with
  | arrive bs => rfl
  | endStream ending => exact absurd rfl (he ending)
  | cancel => rfl
  | answer call result => rfl
  | authenticated now result => exact congrArg Connection.ending (h.connection_authenticated _ _)
  | turn now => exact h.ending_turn now
  | tick now => exact congrArg Connection.ending (h.connection_tick now)

end Connection

end Handler

end Smpp
