import Smpp.Proofs.Handler.Silence
import Smpp.Proofs.Link.Steps

/-!
# The timeline of a silent client

A session that was last heard of at an instant probes its client after every interval of silence and
ends when the silence has lasted as long as it may. Nothing in between changes these instants: not
what the backend answers, not messages that are overdue, not octets that are no frames, and not a
write that waits for room, unless it does so for too long. A request that has to wait for room is
late, and so is one that becomes due while another write waits (`Link.spares`); as long as that does
not happen the client is served promptly (`Link.isPrompt`).

`Link.OnTime` says how far a silence has got: so many probes have been written and the next instant
that matters has not passed, or the session has ended. Whatever happens to a link, it stays on time
(`Link.OnTime.act`), so that what has been written by an instant follows from the instant alone
(`Link.timeline_of_silence`). How long a socket without room keeps the handler is up to the client:
one that does not read is neither probed nor cut off (`Link.silence_unread`).
-/

namespace Smpp

open Handler (octetsFor)

namespace Session

/-- The probes of a client that has been silent since its session was as `s₀`, each with the instant
at which it is due. -/
def probes (s₀ : Session) (k : Nat) : List (Instant × Frame) :=
  (List.range k).map fun i =>
    (s₀.lastActivity + (i + 1) * s₀.config.enquireLinkInterval,
      .enquireLink (numberAfter s₀.nextSequence i))

/-- The request to end that a client gets when its silence has lasted as long as it may, if it is
bound. -/
def farewell (s₀ : Session) (k : Nat) : List (Instant × Frame) :=
  if s₀.state.isBound then
    [(s₀.lastActivity + s₀.config.sessionTimeout, .unbind (numberAfter s₀.nextSequence k))]
  else []

theorem probes_succ (s₀ : Session) (k : Nat) :
    s₀.probes (k + 1) = s₀.probes k ++
      [(s₀.lastActivity + (k + 1) * s₀.config.enquireLinkInterval,
        .enquireLink (numberAfter s₀.nextSequence k))] := by
  unfold probes
  rw [List.range_succ, List.map_append]
  rfl

end Session

namespace Link

/-! ### What a client is asked -/

/-- What a client is asked by a piece of what it gets. -/
def asked (bs : Octets) : List Frame :=
  ((Frame.allIn? Frame.largestLength.toNat bs).getD []).filter Frame.asks

/-- What a client is asked by what it gets, each with its instant. -/
def requests (log : List (Instant × Octets)) : List (Instant × Frame) :=
  log.flatMap fun p => (asked p.2).map (p.1, ·)

section Requests

/-- What a server sends for a frame is that frame, or a substitute that asks for nothing. -/
theorem allIn?_octetsFor {f : Frame} (hf : f.FromServer) :
    Frame.allIn? Frame.largestLength.toNat (octetsFor f) = some [f.onWire] := by
  have hlargest : Frame.longestFromServer ≤ Frame.largestLength.toNat := by decide
  have hall := Frame.allIn?_octetsFor hlargest (List.forall_mem_singleton.2 hf)
  rw [List.flatMap_cons, List.flatMap_nil, List.append_nil] at hall
  exact hall

theorem asked_octetsFor {f : Frame} (hf : f.FromServer) :
    asked (octetsFor f) = [f].filter Frame.asks := by
  unfold asked
  rw [allIn?_octetsFor hf]
  exact Frame.filter_asks_onWire (List.forall_mem_singleton.2 hf)

theorem requests_append (log log' : List (Instant × Octets)) :
    requests (log ++ log') = requests log ++ requests log' :=
  List.flatMap_append

/-- What is asked by frames that are sent is asked when they are sent. -/
theorem requests_octetsFor (now : Instant) {fs : List Frame} (hfs : ∀ f ∈ fs, f.FromServer) :
    requests ((fs.map octetsFor).map (now, ·)) = (fs.filter Frame.asks).map (now, ·) := by
  induction fs with
  | nil => rfl
  | cons f fs ih =>
    rw [List.forall_mem_cons] at hfs
    have hrest := ih hfs.2
    unfold requests at hrest ⊢
    rw [List.map_cons, List.map_cons, List.flatMap_cons, hrest, asked_octetsFor hfs.1,
      ← List.map_append, ← List.filter_append]
    rfl

/-- Pieces that ask for nothing ask for nothing at any instant. -/
theorem requests_of_forall {now : Instant} {pieces : List Octets}
    (hnothing : ∀ bs ∈ pieces, asked bs = []) : requests (pieces.map (now, ·)) = [] := by
  unfold requests
  rw [List.flatMap_map, List.flatMap_eq_nil_iff]
  intro bs hbs
  rw [hnothing bs hbs]
  rfl

end Requests

/-- Whether the client gets what it is due in time although time passes until an instant: if a write
waits for room then no request waits with it, and none becomes due before the instant. -/
def spares (l : Link) (t : Instant) : Bool :=
  l.held.isNone ||
    l.owed.all (fun bs => (asked bs).isEmpty) &&
      decide (t ≤ l.handler.engagement.session.nextRequest)

/-- Whether the client gets what it is due in time throughout a run. -/
def isPrompt (l : Link) : List Label → Bool
  | [] => true
  | .pass t :: labels => l.spares t && (l.act (.pass t)).isPrompt labels
  | label :: labels => (l.act label).isPrompt labels

/-- Whether there is nothing to do before the clock moves: no write waits, and a handler that serves
its client waits for its timers. -/
def isAtRest (l : Link) : Bool :=
  l.held.isNone &&
    (!l.handler.isServing || decide (l.now < l.handler.engagement.session.nextWakeup))

/-- The octets that come from the client. -/
def Label.octets : Label → Octets
  | .tell (.arrive bs) => bs
  | .tell _ | .read _ | .giveUp | .pass _ => []

/-- The octets that come from the client in a run. -/
def octetsIn (labels : List Label) : Octets := labels.flatMap Label.octets

/-- Whether the client stops or is gone, or the worker cancels the connection. -/
def Label.leaves : Label → Bool
  | .tell (.endStream _) | .tell .cancel => true
  | .tell _ | .read _ | .giveUp | .pass _ => false

section Requests

variable {l l' : Link}

/-- What a handler that is told something asks of the client it asks now. -/
theorem requests_tell {e : Handler.Event} (hpossible : l.isPossible (.tell e) = true)
    (hthere : l.handler.connection.ending ≠ .reset) (hstays : e ≠ .endStream .reset) :
    requests (l.act (.tell e)).promised =
      requests l.promised ++ ((l.handler.due e).filter Frame.asks).map (l.now, ·) := by
  have hdue : ∀ f ∈ l.handler.due e, f.FromServer := fun f hf => Handler.fromServer_of_due hf
  rw [(carries_tell hpossible hstays).2.promised, requests_append, Handler.pieces_step hthere,
    requests_octetsFor l.now hdue]

theorem promised_carries (h : Carries l l' []) : l'.promised = l.promised := by
  rw [h.promised, List.map_nil, List.append_nil]

/-- A client that is served promptly is asked when it is to be asked. -/
theorem requests_pass {t : Instant} (hspares : l.spares t = true) :
    requests ({ l with now := t } : Link).promised = requests l.promised := by
  obtain hfree | hheld := Bool.or_eq_true_iff.1 hspares
  · have hfree := Option.isNone_iff_eq_none.1 hfree
    rw [promised_of_free hfree, promised_of_free (l := { l with now := t }) hfree]
  · have hnothing : ∀ bs ∈ l.owed, asked bs = [] := fun bs hbs =>
      List.isEmpty_iff.1 (List.all_eq_true.1 (Bool.and_eq_true_iff.1 hheld).1 bs hbs)
    unfold promised
    rw [requests_append, requests_append, requests_of_forall hnothing]
    exact congrArg (requests l.taken ++ ·) (requests_of_forall hnothing)

/-- Nothing becomes due for a client that is served promptly before it is looked at. -/
theorem le_nextRequest_of_pass {t : Instant} (hpossible : l.isPossible (.pass t) = true)
    (hspares : l.spares t = true) (hserving : l.handler.isServing = true) :
    t ≤ l.handler.engagement.session.nextRequest := by
  obtain hfree | hheld := Bool.or_eq_true_iff.1 hspares
  · have hawaits := (Bool.and_eq_true_iff.1 hpossible).2
    unfold awaits at hawaits
    rw [Option.isNone_iff_eq_none.1 hfree, hserving] at hawaits
    exact Nat.le_trans (of_decide_eq_true hawaits) Session.nextWakeup_le_nextRequest
  · exact of_decide_eq_true (Bool.and_eq_true_iff.1 hheld).2

theorem isPrompt_cons {label : Label} {labels : List Label}
    (h : l.isPrompt (label :: labels) = true) :
    (∀ t, label = .pass t → l.spares t = true) ∧ (l.act label).isPrompt labels = true := by
  cases label with
  | pass t =>
    obtain ⟨hspares, hrest⟩ := Bool.and_eq_true_iff.1 h
    refine ⟨fun t' ht' => ?_, hrest⟩
    cases ht'
    exact hspares
  | tell | read | giveUp => exact ⟨fun _ heq => (nomatch heq), h⟩

theorem isPrompt_append {labels labels' : List Label} (h : l.follow labels = some l')
    (hprompt : l.isPrompt labels = true) (hprompt' : l'.isPrompt labels' = true) :
    l.isPrompt (labels ++ labels') = true := by
  induction labels generalizing l with
  | nil =>
    cases h
    exact hprompt'
  | cons label labels ih =>
    have hrest := ih (follow_cons h).2 (isPrompt_cons hprompt).2
    cases label with
    | pass t => exact Bool.and_eq_true_iff.2 ⟨(isPrompt_cons hprompt).1 t rfl, hrest⟩
    | tell | read | giveUp => exact hrest

/-- As long as the client does not leave, what it gets are the frames of a server. -/
theorem framed_of_follow {labels : List Label} (hframed : l.Framed)
    (hthere : l.handler.connection.ending ≠ .reset)
    (hstays : ∀ label ∈ labels, label.leaves = false) (h : l.follow labels = some l') :
    l'.Framed := by
  suffices hboth : l'.Framed ∧ l'.handler.connection.ending ≠ .reset from hboth.1
  refine follow_of_act (p := fun l => l.Framed ∧ l.handler.connection.ending ≠ .reset)
    (q := fun label => label.leaves = false) ⟨hframed, hthere⟩ ?_ hstays h
  rintro l label ⟨hframed, hthere⟩ hstays hpossible
  cases label with
  | tell e =>
    have hstays : e ≠ .endStream .reset := by
      rintro rfl
      cases hstays
    refine ⟨hframed.tell hpossible hthere hstays, ?_⟩
    rw [(carries_tell hpossible hstays).1]
    exact Handler.there_step hthere hstays
  | read n =>
    refine ⟨hframed.carries (carries_makeRoom l n), ?_⟩
    rw [show (l.act (.read n)).handler = l.handler from handler_makeRoom l n]
    exact hthere
  | giveUp => exact ⟨hframed.carries (carries_giveUp l), hthere⟩
  | pass t => exact ⟨hframed.pass t, hthere⟩

end Requests

/-! ### Prompt service -/

/-- A link has come from another by a run in which its client was served promptly and nobody left,
and in which so many octets came from the client. -/
def Serves (l : Link) (arrived : Octets) (l' : Link) : Prop :=
  ∃ labels, l.follow labels = some l' ∧ (∀ label ∈ labels, label.leaves = false) ∧
    l.isPrompt labels = true ∧ octetsIn labels = arrived

section Serves

variable {l l' l'' : Link} {arrived arrived' : Octets}

theorem Serves.refl (l : Link) : l.Serves [] l :=
  ⟨[], rfl, fun _ h => absurd h List.not_mem_nil, rfl, rfl⟩

theorem Serves.trans (h : l.Serves arrived l') (h' : l'.Serves arrived' l'') :
    l.Serves (arrived ++ arrived') l'' := by
  obtain ⟨labels, hfollow, hstays, hprompt, rfl⟩ := h
  obtain ⟨labels', hfollow', hstays', hprompt', rfl⟩ := h'
  refine ⟨labels ++ labels', ?_, ?_, isPrompt_append hfollow hprompt hprompt',
    List.flatMap_append⟩
  · rw [follow_append, hfollow]
    exact hfollow'
  · exact fun label hlabel => (List.mem_append.1 hlabel).elim (hstays label) (hstays' label)

theorem serves_act {label : Label} (hpossible : l.isPossible label = true)
    (hstays : label.leaves = false) (hspares : ∀ t, label = .pass t → l.spares t = true) :
    l.Serves label.octets (l.act label) := by
  refine ⟨[label], ?_, List.forall_mem_singleton.2 hstays, ?_, List.append_nil _⟩
  · rw [follow, if_pos hpossible]
    rfl
  · cases label with
    | pass t => exact Bool.and_eq_true_iff.2 ⟨hspares t rfl, rfl⟩
    | tell | read | giveUp => rfl

/-- **A client that reads what it is written never makes its link wait**, whatever the handler is
told that is not the client's or the worker's. -/
theorem exists_serves_tell {e : Handler.Event} (hfree : l.held = none) (he : e.At l.now) :
    ∃ l', l.Serves [] l' ∧ l'.now = l.now ∧ l'.handler = (l.handler.step e).1 ∧ l'.held = none ∧
      l'.taken = l.taken ++ (Effect.pieces (l.handler.step e).2).map (l.now, ·) := by
  -- The client reads before the handler writes, as much as that will be.
  let n := (Effect.written (l.handler.step e).2).length
  have hread : l.Serves [] (l.act (.read n)) := serves_act rfl rfl fun _ heq => nomatch heq
  have hroomy : l.act (.read n) = { l with room := l.room + n } := by
    change l.makeRoom n = _
    unfold makeRoom
    rw [hfree]
  rw [hroomy] at hread
  have hpossible : ({ l with room := l.room + n } : Link).isPossible (.tell e) = true := by
    cases e with
    | arrive | endStream | cancel => exact absurd he id
    | answer => rfl
    | authenticated t _ | turn t | tick t =>
      cases he
      unfold isPossible
      rw [hfree]
      exact beq_self_eq_true l.now
  obtain ⟨hstays, hoctets, hends⟩ : Label.leaves (.tell e) = false ∧
      Label.octets (.tell e) = [] ∧ e ≠ .endStream .reset := by
    cases e with
    | arrive | endStream | cancel => exact absurd he id
    | answer | authenticated | turn | tick => exact ⟨rfl, rfl, fun heq => nomatch heq⟩
  have htold := serves_act hpossible hstays fun _ heq => nomatch heq
  rw [hoctets] at htold
  have hroom : (Effect.written (l.handler.step e).2).length ≤ l.room + n := Nat.le_add_left _ _
  obtain ⟨hheld, htaken⟩ := perform_of_room
    (l := { l with room := l.room + n, handler := (l.handler.step e).1 }) hfree hroom
  obtain ⟨hhandler, hcarries⟩ := carries_tell hpossible hends
  rw [← act_tell (l := { l with room := l.room + n }) hends] at hheld htaken
  exact ⟨_, hread.trans htold, hcarries.now, hhandler, hheld, htaken⟩

end Serves

/-! ### A client that has just been heard of -/

/-- No request waits for room whose client has just been heard of. -/
def Fresh (l : Link) : Prop :=
  l.handler.connection.ending ≠ .reset → l.handler.isServing = true →
    ∀ bs ∈ l.owed, asked bs ≠ [] → l.handler.engagement.session.lastActivity < l.now

section Fresh

variable {config : Config} {accepted : Instant} {l l' : Link}

theorem Fresh.carries (h : l.Fresh) (hhandler : l'.handler = l.handler)
    (hcarries : Carries l l' []) : l'.Fresh := by
  obtain ⟨hnow, moved, -, hmoved⟩ := hcarries
  rw [List.append_nil] at hmoved
  unfold Fresh
  rw [hhandler, hnow]
  intro hthere hserving bs hbs
  refine h hthere hserving bs ?_
  rw [hmoved]
  exact List.mem_append_right _ hbs

/-- What waits behind what is told to a handler is what has waited before, or what it is due to
say. -/
theorem mem_owed_tell {e : Handler.Event} {bs : Octets} (hpossible : l.isPossible (.tell e) = true)
    (hthere : l.handler.connection.ending ≠ .reset) (hstays : e ≠ .endStream .reset)
    (hbs : bs ∈ (l.act (.tell e)).owed) :
    bs ∈ l.owed ∨ ∃ f ∈ l.handler.due e, bs = octetsFor f := by
  obtain ⟨-, -, moved, -, hmoved⟩ := carries_tell hpossible hstays
  have hmem : bs ∈ l.owed ++ Effect.pieces (l.handler.step e).2 := by
    rw [hmoved]
    exact List.mem_append_right _ hbs
  rw [Handler.pieces_step hthere, List.mem_append, List.mem_map] at hmem
  exact hmem.imp id fun ⟨f, hf, heq⟩ => ⟨f, hf, heq.symm⟩

theorem held_of_owed {bs : Octets} (hbs : bs ∈ l.owed) : l.held ≠ none := by
  intro hfree
  unfold owed at hbs
  rw [hfree] at hbs
  cases hbs

theorem Fresh.tell {e : Handler.Event} (h : l.Fresh) (hreached : l.Reached config accepted)
    (hinterval : 0 < config.enquireLinkInterval) (hpossible : l.isPossible (.tell e) = true) :
    (l.act (.tell e)).Fresh := by
  by_cases hstays : e = .endStream .reset
  · -- Nothing is said of a client that is gone.
    subst hstays
    intro hthere
    obtain ⟨-, -, hhandler | hhandler⟩ := act_reset l
    · exact absurd (hhandler ▸ rfl) hthere
    · exact absurd (hhandler ▸ rfl) hthere
  obtain ⟨hhandler, hcarries⟩ := carries_tell hpossible hstays
  intro hthere' hserving' bs hbs hasked
  rw [hhandler] at hthere' hserving' ⊢
  rw [hcarries.now]
  have hthere : l.handler.connection.ending ≠ .reset :=
    fun hgone => hthere' (gone_of_tell hpossible hgone)
  obtain howed | ⟨f, hf, rfl⟩ := mem_owed_tell hpossible hthere hstays hbs
  · -- A handler that waits is told nothing that its session hears of.
    have hheld := held_of_owed howed
    cases e with
    | arrive | endStream | cancel | answer => exact h hthere hserving' bs howed hasked
    | authenticated | turn | tick =>
      exact absurd (Option.isNone_iff_eq_none.1 (Bool.and_eq_true_iff.1 hpossible).1) hheld
  · -- A new request is one of the timers', and these are due later than what was last heard.
    have hasks : f.asks = true := by
      by_contra hanswers
      rw [asked_octetsFor (Handler.fromServer_of_due hf), List.filter_cons_of_neg hanswers]
        at hasked
      exact hasked rfl
    cases e with
    | arrive | endStream | cancel | answer => cases hf
    | authenticated t result =>
      rw [Handler.asks_due_authenticated hf] at hasks
      cases hasks
    | turn t =>
      rw [Handler.asks_due_turn hf hasks] at hserving'
      cases hserving'
    | tick t =>
      have ht : t = l.now := beq_iff_eq.1 (Bool.and_eq_true_iff.1 hpossible).2
      subst ht
      obtain hends | hdue := Handler.asks_due_tick hf hasks
      · rw [hends] at hserving'
        cases hserving'
      · rw [Handler.lastActivity_step (hreached.sound hthere)]
        rw [hreached.timely.settings] at hdue
        exact Nat.lt_of_lt_of_le (Nat.lt_add_of_pos_right hinterval) hdue

theorem Fresh.act {label : Label} (h : l.Fresh) (hreached : l.Reached config accepted)
    (hinterval : 0 < config.enquireLinkInterval) (hpossible : l.isPossible label = true) :
    (l.act label).Fresh := by
  cases label with
  | tell e => exact h.tell hreached hinterval hpossible
  | read n => exact h.carries (handler_makeRoom l n) (carries_makeRoom l n)
  | giveUp => exact h.carries rfl (carries_giveUp l)
  | pass t =>
    have ht := of_decide_eq_true (Bool.and_eq_true_iff.1 hpossible).1
    exact fun hthere hserving bs hbs hasked => Nat.lt_trans (h hthere hserving bs hbs hasked) ht

end Fresh

/-! ### How far a silence has got -/

/-- A link whose client has been silent since its session was as `s₀` and it had been asked
`asked₀`, and has been probed so many times. -/
structure Waits (s₀ : Session) (asked₀ : List (Instant × Frame)) (future : Octets) (k : Nat)
    (l : Link) : Prop where
  silent : l.handler.Silent s₀ future k
  asked : requests l.promised = asked₀ ++ s₀.probes k
  /-- The last probe was due before the end. -/
  come : k = 0 ∨ s₀.state.isBound = true ∧
    k * s₀.config.enquireLinkInterval < s₀.config.sessionTimeout ∧
    s₀.lastActivity + k * s₀.config.enquireLinkInterval ≤ l.now
  /-- There is nothing to do for the client before now. -/
  due : l.now ≤ s₀.alarm k

/-- A link whose client has been silent for too long, and had been probed so many times by then. -/
structure Expired (s₀ : Session) (asked₀ : List (Instant × Frame)) (k : Nat) (l : Link) : Prop where
  reason : l.handler.reason? = some .idleTimeout
  asked : requests l.promised = asked₀ ++ (s₀.probes k ++ s₀.farewell k)
  passed : s₀.lastActivity + s₀.config.sessionTimeout ≤ l.now
  come : k = 0 ∨ s₀.state.isBound = true ∧
    k * s₀.config.enquireLinkInterval < s₀.config.sessionTimeout
  /-- The next probe would not have been due before the end. -/
  last : s₀.state.isBound = true →
    s₀.config.sessionTimeout ≤ (k + 1) * s₀.config.enquireLinkInterval

/-- A link whose client has been silent since its session was as `s₀` does everything in time. -/
def OnTime (s₀ : Session) (asked₀ : List (Instant × Frame)) (future : Octets) (l : Link) : Prop :=
  ∃ k, Waits s₀ asked₀ future k l ∨ Expired s₀ asked₀ k l

section OnTime

variable {s₀ : Session} {asked₀ : List (Instant × Frame)} {future : Octets} {k : Nat} {l l' : Link}

/-- What is taken meanwhile does not matter. -/
theorem OnTime.carries (h : l.OnTime s₀ asked₀ future) (hhandler : l'.handler = l.handler)
    (hcarries : Carries l l' []) : l'.OnTime s₀ asked₀ future := by
  obtain ⟨k, hwaits | hexpired⟩ := h
  · refine ⟨k, .inl ⟨hhandler ▸ hwaits.silent, ?_, ?_, ?_⟩⟩
    · rw [promised_carries hcarries, hwaits.asked]
    · rw [hcarries.now]
      exact hwaits.come
    · rw [hcarries.now]
      exact hwaits.due
  · refine ⟨k, .inr ⟨hhandler ▸ hexpired.reason, ?_, ?_, hexpired.come, hexpired.last⟩⟩
    · rw [promised_carries hcarries, hexpired.asked]
    · rw [hcarries.now]
      exact hexpired.passed

/-- What has ended says no more. -/
theorem Expired.tell {e : Handler.Event} (h : l.Expired s₀ asked₀ k)
    (hpossible : l.isPossible (.tell e) = true) (hstays : e ≠ .endStream .reset) :
    (l.act (.tell e)).Expired s₀ asked₀ k := by
  obtain ⟨hreason, heffects, -⟩ := Handler.step_of_ended h.reason e
  obtain ⟨hhandler, hcarries⟩ := carries_tell hpossible hstays
  rw [heffects] at hcarries
  refine ⟨hhandler ▸ hreason, ?_, ?_, h.come, h.last⟩
  · rw [promised_carries hcarries, h.asked]
  · rw [hcarries.now]
    exact h.passed

/-- Before it looks at its timers a handler asks nothing of a silent client. -/
theorem Waits.tell {e : Handler.Event} (h : l.Waits s₀ asked₀ future k)
    (hpossible : l.isPossible (.tell e) = true) (he : e.At l.now) (htick : ∀ t, e ≠ .tick t) :
    (l.act (.tell e)).Waits s₀ asked₀ future k := by
  have hstays : e ≠ .endStream .reset := by
    rintro rfl
    exact he
  obtain ⟨hsilent, hnothing⟩ := h.silent.step he htick
  obtain ⟨hhandler, hcarries⟩ := carries_tell hpossible hstays
  refine ⟨hhandler ▸ hsilent, ?_, ?_, ?_⟩
  · rw [requests_tell hpossible h.silent.there hstays, hnothing, h.asked]
    exact List.append_nil _
  · rw [hcarries.now]
    exact h.come
  · rw [hcarries.now]
    exact h.due

/-- **A silent client is asked what is due when its handler looks at its timers.** -/
theorem Waits.tick (h : l.Waits s₀ asked₀ future k)
    (hpossible : l.isPossible (.tell (.tick l.now)) = true) :
    (l.act (.tell (.tick l.now))).OnTime s₀ asked₀ future := by
  obtain ⟨hhandler, hcarries⟩ := carries_tell hpossible (fun heq => nomatch heq)
  have hasked := requests_tell hpossible h.silent.there (fun heq => nomatch heq)
  have hnow := hcarries.now
  have hticked := h.silent.tick h.due
  rw [h.asked, List.append_assoc] at hasked
  rw [← hhandler] at hticked
  generalize (l.handler.due (.tick l.now)).filter Frame.asks = asked at hticked hasked
  generalize l.act (.tell (.tick l.now)) = l' at hhandler hasked hnow hticked
  generalize hl' : l'.handler = h' at hticked
  cases hticked with
  | stays hsilent =>
    refine ⟨k, .inl ⟨hl' ▸ hsilent, ?_, hnow ▸ h.come, hnow ▸ h.due⟩⟩
    rw [hasked]
    exact congrArg (asked₀ ++ ·) (List.append_nil _)
  | probes hbound hdue hearly hsilent =>
    -- One more probe, at the instant at which it was due, so the next one is still to come.
    have hcome : (k + 1) * s₀.config.enquireLinkInterval < s₀.config.sessionTimeout :=
      Nat.lt_of_add_lt_add_left (hdue ▸ hearly)
    refine ⟨k + 1, .inl ⟨hl' ▸ hsilent, ?_, .inr ⟨hbound, hcome, ?_⟩, ?_⟩⟩
    · rw [hasked, Session.probes_succ, ← hdue]
      rfl
    · rw [hnow]
      exact Nat.le_of_eq hdue.symm
    · unfold Session.alarm
      rw [if_pos hbound, hnow]
      refine Nat.le_min.2 ⟨Nat.le_of_lt hearly, ?_⟩
      rw [hdue]
      exact Nat.add_le_add_left (Nat.mul_le_mul_right _ (Nat.le_succ _)) _
  | ends hover hreason =>
    -- The time is up now, and was not before.
    have hend : l.now = s₀.lastActivity + s₀.config.sessionTimeout := by
      refine Nat.le_antisymm ?_ hover
      have hdue := h.due
      unfold Session.alarm at hdue
      split at hdue
      · exact (Nat.le_min.1 hdue).1
      · exact hdue
    refine ⟨k, .inr ⟨hl' ▸ hreason, ?_, hnow ▸ hover, h.come.imp id fun h => ⟨h.1, h.2.1⟩, ?_⟩⟩
    · rw [hasked, hend]
      unfold Session.farewell
      split <;> rfl
    · intro hbound
      have hdue := h.due
      unfold Session.alarm at hdue
      rw [if_pos hbound] at hdue
      exact Nat.le_of_add_le_add_left (Nat.le_trans hover (Nat.le_min.1 hdue).2)

/-- **The clock passes over nothing that matters** to a client that is served promptly. -/
theorem OnTime.pass {t : Instant} (h : l.OnTime s₀ asked₀ future)
    (hpossible : l.isPossible (.pass t) = true) (hspares : l.spares t = true) :
    (l.act (.pass t)).OnTime s₀ asked₀ future := by
  have ht : l.now ≤ t :=
    Nat.le_of_lt (of_decide_eq_true (Bool.and_eq_true_iff.1 hpossible).1)
  obtain ⟨k, hwaits | hexpired⟩ := h
  · have hserving := hwaits.silent.serving
    have halarm := le_nextRequest_of_pass hpossible hspares hserving
    rw [hwaits.silent.session.nextRequest] at halarm
    refine ⟨k, .inl ⟨hwaits.silent, (requests_pass hspares).trans hwaits.asked,
      hwaits.come.imp id fun h => ⟨h.1, h.2.1, Nat.le_trans h.2.2 ht⟩, halarm⟩⟩
  · exact ⟨k, .inr ⟨hexpired.reason, (requests_pass hspares).trans hexpired.asked,
      Nat.le_trans hexpired.passed ht, hexpired.come, hexpired.last⟩⟩

/-- **Whatever happens to a link, a silent client that is served promptly gets everything in
time.** -/
theorem OnTime.act {label : Label} (h : l.OnTime s₀ asked₀ (label.octets ++ future))
    (hpossible : l.isPossible label = true) (hstays : label.leaves = false)
    (hspares : ∀ t, label = .pass t → l.spares t = true) :
    (l.act label).OnTime s₀ asked₀ future := by
  cases label with
  | read n => exact OnTime.carries h (handler_makeRoom l n) (carries_makeRoom l n)
  | giveUp => exact OnTime.carries h rfl (carries_giveUp l)
  | pass t => exact OnTime.pass h hpossible (hspares t rfl)
  | tell e =>
    obtain ⟨k, hwaits | hexpired⟩ := h
    case inr =>
      refine ⟨k, .inr (hexpired.tell hpossible ?_)⟩
      rintro rfl
      cases hstays
    cases e with
    | endStream ending => cases hstays
    | cancel => cases hstays
    | answer call result =>
      exact ⟨k, .inl (hwaits.tell hpossible trivial fun _ heq => nomatch heq)⟩
    | authenticated t result =>
      have ht : t = l.now := beq_iff_eq.1 (Bool.and_eq_true_iff.1 hpossible).2
      exact ⟨k, .inl (hwaits.tell hpossible ht fun _ heq => nomatch heq)⟩
    | turn t =>
      have ht : t = l.now := beq_iff_eq.1 (Bool.and_eq_true_iff.1 hpossible).2
      exact ⟨k, .inl (hwaits.tell hpossible ht fun _ heq => nomatch heq)⟩
    | tick t =>
      have ht : t = l.now := beq_iff_eq.1 (Bool.and_eq_true_iff.1 hpossible).2
      subst ht
      exact hwaits.tick hpossible
    | arrive bs =>
      -- Octets that are no frames change nothing.
      have hsilent := hwaits.silent
      exact ⟨k, .inl ⟨⟨hsilent.serving, hsilent.free, hsilent.sends, hsilent.noisy.receive,
        hsilent.session⟩, hwaits.asked, hwaits.come, hwaits.due⟩⟩

/-- **As long as it is served promptly a silent client gets everything in time.** -/
theorem OnTime.serves {arrived : Octets} (h : l.OnTime s₀ asked₀ (arrived ++ future))
    (hserves : l.Serves arrived l') : l'.OnTime s₀ asked₀ future := by
  obtain ⟨labels, hfollow, hstays, hprompt, rfl⟩ := hserves
  -- On the run: each label takes what comes from the client with it off what is still to come.
  induction labels generalizing l with
  | nil =>
    cases hfollow
    exact h
  | cons label labels ih =>
    rw [List.forall_mem_cons] at hstays
    obtain ⟨hpossible, hrest⟩ := follow_cons hfollow
    obtain ⟨hspares, hprompt'⟩ := isPrompt_cons hprompt
    unfold octetsIn at h
    rw [List.flatMap_cons, List.append_assoc] at h
    exact ih hrest hstays.2 hprompt' (h.act hpossible hstays.1 hspares)

/-! ### The timeline -/

/-- The probes that were sent by an instant are those that were due by then and before the end. -/
theorem le_iff_due {interval timeout begun t k : Nat}
    (hcome : k = 0 ∨ k * interval < timeout ∧ begun + k * interval ≤ t)
    (hlast : timeout ≤ (k + 1) * interval ∨ t < begun + (k + 1) * interval) {j : Nat}
    (hj : 1 ≤ j) : j ≤ k ↔ j * interval < timeout ∧ begun + j * interval ≤ t := by
  refine ⟨fun hjk => ?_, fun ⟨htimeout, hdue⟩ => ?_⟩
  · have hmul : j * interval ≤ k * interval := Nat.mul_le_mul_right _ hjk
    obtain rfl | ⟨htimeout, hdue⟩ := hcome
    · exact absurd hj (Nat.not_le.2 (Nat.lt_succ_of_le hjk))
    · exact ⟨Nat.lt_of_le_of_lt hmul htimeout, Nat.le_trans (Nat.add_le_add_left hmul _) hdue⟩
  · have hmul : j * interval < (k + 1) * interval := by
      obtain hlast | hlast := hlast
      · exact Nat.lt_of_lt_of_le htimeout hlast
      · exact Nat.lt_of_add_lt_add_left (Nat.lt_of_le_of_lt hdue hlast)
    exact Nat.le_of_lt_succ (Nat.lt_of_mul_lt_mul_right hmul)

/-- **What is on time by an instant follows from the instant**, once there is nothing to do. -/
theorem OnTime.timeline (h : l.OnTime s₀ asked₀ future) (hrest : l.isAtRest = true) :
    ∃ n, requests l.taken = asked₀ ++ (s₀.probes n ++
        (if s₀.lastActivity + s₀.config.sessionTimeout ≤ l.now then s₀.farewell n else [])) ∧
      (s₀.state.isBound = true → ∀ k, 1 ≤ k →
        (k ≤ n ↔ k * s₀.config.enquireLinkInterval < s₀.config.sessionTimeout ∧
          s₀.lastActivity + k * s₀.config.enquireLinkInterval ≤ l.now)) ∧
      (s₀.state.isBound = false → n = 0) ∧
      l.reason? =
        if s₀.lastActivity + s₀.config.sessionTimeout ≤ l.now then some .idleTimeout else none := by
  obtain ⟨hfree, hpunctual⟩ := Bool.and_eq_true_iff.1 hrest
  have hfree := Option.isNone_iff_eq_none.1 hfree
  have htaken := promised_of_free hfree
  have hreason : l.reason? = l.handler.reason? := by
    unfold Link.reason?
    rw [hfree]
  obtain ⟨k, hwaits | hexpired⟩ := h
  · -- The session waits, and all of its timers are to come: the end, and the probe after the last.
    have hserving := hwaits.silent.serving
    rw [hserving] at hpunctual
    obtain ⟨hbeforeEnd, hbeforeProbe⟩ := Session.lt_of_lt_alarm
      (Nat.lt_of_lt_of_le (of_decide_eq_true hpunctual) hwaits.silent.session.nextWakeup_le)
    have hgoesOn := Nat.not_le.2 hbeforeEnd
    refine ⟨k, ?_, ?_, ?_, ?_⟩
    · rw [← htaken, hwaits.asked, if_neg hgoesOn, List.append_nil]
    · intro hbound j hj
      exact le_iff_due (hwaits.come.imp id fun h => h.2) (.inr (hbeforeProbe hbound)) hj
    · intro hunbound
      exact hwaits.come.resolve_right fun h => Bool.eq_false_iff.1 hunbound h.1
    · rw [hreason, if_neg hgoesOn]
      exact Handler.reason?_of_serving hserving
  · -- The session has ended, when the time was up.
    refine ⟨k, ?_, ?_, ?_, ?_⟩
    · rw [← htaken, hexpired.asked, if_pos hexpired.passed]
    · intro hbound j hj
      refine le_iff_due (hexpired.come.imp id fun h => ⟨h.2, ?_⟩) (.inl (hexpired.last hbound)) hj
      exact Nat.le_trans (Nat.add_le_add_left (Nat.le_of_lt h.2) _) hexpired.passed
    · intro hunbound
      exact hexpired.come.resolve_right fun h => Bool.eq_false_iff.1 hunbound h.1
    · rw [hreason, if_pos hexpired.passed]
      exact hexpired.reason

end OnTime

/-- **What a client is asked whose silence begins now**, as long as it is served promptly, once
there is nothing more to do. -/
theorem Serves.timeline {config : Config} {arrived : Octets} {l l' : Link}
    (h : l.Serves arrived l')
    (hserving : l.handler.isServing = true) (hgoes : l.handler.cancelled = false)
    (hsends : l.handler.connection.ending = .none)
    (htimely : l.handler.engagement.session.Timely config l.now)
    (hheard : l.handler.engagement.session.lastActivity = l.now)
    (hnoise : ∀ entry ∈ Connection.pass l.handler.connection.largest
      (l.handler.connection.buffer ++ l.handler.connection.arrived ++ arrived) 0,
      entry.isNoise = true)
    (hrest : l'.isAtRest = true) :
    let session := l.handler.engagement.session
    ∃ n, requests l'.taken = requests l.promised ++ (session.probes n ++
        (if l.now + config.sessionTimeout ≤ l'.now then session.farewell n else [])) ∧
      (session.state.isBound = true → ∀ k, 1 ≤ k →
        (k ≤ n ↔ k * config.enquireLinkInterval < config.sessionTimeout ∧
          l.now + k * config.enquireLinkInterval ≤ l'.now)) ∧
      (session.state.isBound = false → n = 0) ∧
      l'.reason? =
        if l.now + config.sessionTimeout ≤ l'.now then some .idleTimeout else none := by
  intro session
  have hsettings : session.config = config := htimely.settings
  have hsilent : l.handler.Silent session arrived 0 := by
    refine ⟨hserving, hgoes, hsends, Connection.noisy_of_pass hnoise, ?_⟩
    rw [← hheard] at htimely
    exact Session.Quiet.start htimely
  -- At the first instant of the silence nothing is late.
  have hbegins : l.OnTime session (requests l.promised) (arrived ++ []) := by
    rw [List.append_nil]
    have hdue : l.now ≤ session.alarm 0 :=
      Nat.le_trans (Nat.le_of_eq hheard.symm) Session.lastActivity_le_alarm
    exact ⟨0, .inl ⟨hsilent, (List.append_nil _).symm, .inl rfl, hdue⟩⟩
  have htimeline := (hbegins.serves h).timeline hrest
  rw [hsettings, show session.lastActivity = l.now from hheard] at htimeline
  exact htimeline

end Link

end Smpp
