import Smpp.Proofs.Floor.Account
import Smpp.Proofs.Link.Silence

/-!
# A silent client on a floor

The clients of a floor take what they are sent at once. So a station is from any moment on a link
that never waits: as long as its client and its worker do not end the session, whatever happens on
the floor happens to the link of the station as well (`Station.Linked.play`, `Floor.Linked.run`),
and the clock stops at every instant at which the link wants to look at its timers.

A silent client therefore gets on a floor what it gets on any link that serves it promptly, whatever
happens to the other clients and however the time that passes is cut (`Floor.silent_client`).
-/

namespace Smpp

open Handler (octetsFor)

namespace Link

/-- The frames that a client gets are those that the server has said, and what it is asked by them
it is asked by the pieces in which it gets them. -/
theorem exists_frames {log : List (Instant × Octets)}
    (hframed : ∀ p ∈ log, ∃ f : Frame, f.FromServer ∧ p.2 = octetsFor f) :
    ∃ frames, Frame.allIn? Frame.largestLength.toNat (log.map Prod.snd).flatten = some frames ∧
      frames.filter Frame.asks = (requests log).map Prod.snd := by
  have hlargest : Frame.longestFromServer ≤ Frame.largestLength.toNat := by decide
  -- On the log, for the frames that were said.
  have hsaid : ∃ fs : List Frame, (∀ f ∈ fs, f.FromServer) ∧
      log.map Prod.snd = fs.map octetsFor ∧
      (requests log).map Prod.snd = fs.filter Frame.asks := by
    induction log with
    | nil => exact ⟨[], fun _ h => absurd h List.not_mem_nil, rfl, rfl⟩
    | cons p log ih =>
      rw [List.forall_mem_cons] at hframed
      obtain ⟨⟨f, hf, hp⟩, hrest⟩ := hframed
      obtain ⟨fs, hfs, hoctets, hasked⟩ := ih hrest
      refine ⟨f :: fs, List.forall_mem_cons.2 ⟨hf, hfs⟩, ?_, ?_⟩
      · rw [List.map_cons, List.map_cons, hoctets, hp]
      · have hfirst : ((asked p.2).map (p.1, ·)).map Prod.snd = [f].filter Frame.asks := by
          rw [List.map_map, hp, asked_octetsFor hf]
          exact List.map_id _
        unfold requests at hasked ⊢
        rw [List.flatMap_cons, List.map_append, hasked, hfirst, ← List.filter_append]
        rfl
  obtain ⟨fs, hfs, hoctets, hasked⟩ := hsaid
  refine ⟨fs.map Frame.onWire, ?_, ?_⟩
  · rw [hoctets, ← List.flatMap_def]
    exact Frame.allIn?_octetsFor hlargest hfs
  · rw [hasked]
    exact Frame.filter_asks_onWire hfs

end Link

namespace Station

/-! ### A station as a link -/

/-- A station as a link whose client has got nothing so far. -/
def link (now : Instant) (s : Station) : Link := { now, handler := s.handler, room := 0 }

/-- A station is at an instant what has become of a link that never waits: so many octets have come
from the client, and it has been sent what the link has taken. -/
structure Linked (l₀ : Link) (sent₀ arrived : Octets) (now : Instant) (s : Station) : Prop where
  sends : s.handler.connection.ending = .none
  linked : ∃ l, l₀.Serves arrived l ∧ l.now = now ∧ l.handler = s.handler ∧ l.held = none ∧
    s.sent = sent₀ ++ (l.taken.map Prod.snd).flatten

section Linked

variable {l₀ : Link} {sent₀ arrived : Octets} {now : Instant} {s s' : Station}

theorem linked_link (hsends : s.handler.connection.ending = .none) :
    s.Linked (s.link now) s.sent [] now :=
  ⟨hsends, s.link now, .refl _, rfl, rfl, rfl, (List.append_nil _).symm⟩

/-- **What a station tells its handler its link tells it**, with room for what comes of it. -/
theorem Linked.tells {e : Handler.Event} (h : s.Linked l₀ sent₀ arrived now) (he : e.At now)
    (htells : Tells e s s') : s'.Linked l₀ sent₀ arrived now := by
  obtain ⟨hsends, l, hserves, rfl, hhandler, hfree, hsent⟩ := h
  have hends : ∀ ending, e ≠ .endStream ending := by
    rintro ending rfl
    exact he
  obtain ⟨l', hserves', hnow, hhandler', hfree', htaken⟩ := Link.exists_serves_tell hfree he
  rw [hhandler] at hhandler' htaken
  refine ⟨?_, l', ?_, hnow, hhandler'.trans htells.handler.symm, hfree', ?_⟩
  · rw [htells.handler, s.handler.ending_step hends]
    exact hsends
  · rw [← List.append_nil arrived]
    exact hserves.trans hserves'
  · have hpieces : ((Effect.pieces (s.handler.step e).2).map (l.now, ·)).map Prod.snd =
        Effect.pieces (s.handler.step e).2 := by
      rw [List.map_map]
      exact List.map_id _
    rw [htaken, htells.sent, hsent, List.map_append, hpieces, List.flatten_append,
      Effect.written_eq_flatten, List.append_assoc]

/-- **A station that plays does what its link does.** -/
theorem Linked.play (h : s.Linked l₀ sent₀ arrived now) (b : Backend) :
    (s.play now b).1.Linked l₀ sent₀ arrived now := by
  have hsettled : (s.settle now b).1.Linked l₀ sent₀ arrived now :=
    settle_of_step b h fun _ _ _ he _ htells h => h.tells he htells
  exact hsettled.tells (e := .tick now) rfl (tells_play now b s)

/-- Time passes for a station as it does for its link. -/
theorem Linked.later (h : s.Linked l₀ sent₀ arrived now) {t : Instant} (ht : now ≤ t)
    (hdue : s.handler.isServing = true → t ≤ s.handler.engagement.session.nextWakeup) :
    s.Linked l₀ sent₀ arrived t := by
  obtain rfl | ht := Nat.eq_or_lt_of_le ht
  · exact h
  obtain ⟨hsends, l, hserves, rfl, hhandler, hfree, hsent⟩ := h
  have hawaits : l.awaits t = true := by
    unfold Link.awaits
    rw [hfree, hhandler]
    cases hserving : s.handler.isServing with
    | false => rfl
    | true => exact decide_eq_true (hdue hserving)
  have hpossible : l.isPossible (.pass t) = true :=
    Bool.and_eq_true_iff.2 ⟨decide_eq_true ht, hawaits⟩
  have hpassed := Link.serves_act hpossible rfl fun t' _ => by
    unfold Link.spares
    rw [hfree]
    rfl
  have hserves' := hserves.trans hpassed
  rw [show Link.Label.octets (.pass t) = [] from rfl, List.append_nil] at hserves'
  exact ⟨hsends, _, hserves', rfl, hhandler, hfree, hsent⟩

/-- What comes from the client comes to its link. -/
theorem Linked.receive (h : s.Linked l₀ sent₀ arrived now) (bs : Octets) :
    ({ s with handler := s.handler.receive bs } : Station).Linked l₀ sent₀ (arrived ++ bs) now := by
  obtain ⟨hsends, l, hserves, hnow, hhandler, hfree, hsent⟩ := h
  have hpossible : l.isPossible (.tell (.arrive bs)) = true := by
    unfold Link.isPossible
    rw [hhandler, hsends]
    rfl
  have htold := Link.serves_act hpossible rfl fun _ heq => nomatch heq
  refine ⟨hsends, _, hserves.trans htold, hnow, ?_, hfree, hsent⟩
  change l.handler.receive bs = s.handler.receive bs
  rw [hhandler]

end Linked

end Station

namespace Floor

/-! ### A floor with a silent client -/

/-- The octets that a client sends. -/
def Event.octetsFrom (client : Nat) : Event → Octets
  | .send c bs => if c = client then bs else []
  | .connect | .endStream .. | .advance _ | .drain | .shutdown => []

/-- The octets that a client sends in some events. -/
def sentBy (client : Nat) (events : List Event) : Octets :=
  events.flatMap (Event.octetsFrom client)

/-- The station of a client is what has become of a link, unless the worker closes. -/
def Linked (l₀ : Link) (sent₀ : Octets) (client : Nat) (arrived : Octets) (f : Floor) : Prop :=
  f.worker.isClosing = true ∨
    ∃ s, f.stations[client]? = some s ∧ s.Linked l₀ sent₀ arrived f.now

section Linked

variable {l₀ : Link} {sent₀ arrived : Octets} {client : Nat} {f : Floor}

/-- What is done at an instant is done to the link as well. -/
theorem Linked.settle (h : f.Linked l₀ sent₀ client arrived) :
    f.settle.Linked l₀ sent₀ client arrived := by
  by_cases hclosing : f.worker.isClosing = true
  · exact .inl (isClosing_settle hclosing)
  obtain hclosing' | ⟨s, hs, hlinked⟩ := h
  · exact absurd hclosing' hclosing
  have hplayers : f.players[client]? = some s := by
    unfold players
    rw [if_neg hclosing]
    exact hs
  obtain ⟨b, hb⟩ := getElem?_playStations f.now f.worker f.backend hplayers
  obtain ⟨hclosing, hsettle⟩ | ⟨hopen, hsettle⟩ := settle_cases f
  · -- The grace period may be over at this instant.
    left
    rw [hsettle, isClosing_play]
    exact hclosing
  · right
    rw [hsettle]
    exact ⟨_, hb, hlinked.play b⟩

/-- The clock stops at every instant at which a link wants to look at its timers. -/
theorem Linked.advanceTo {target : Instant} (h : f.Linked l₀ sent₀ client arrived)
    (hrest : f.Rested) (hinterval : 0 < f.config.enquireLinkInterval) (hnow : f.now ≤ target) :
    (f.advanceTo target).Linked l₀ sent₀ client arrived := by
  -- A floor at rest waits until the next instant that matters to a station.
  have hlater {g : Floor} {t : Instant} (hg : g.Linked l₀ sent₀ client arrived) (hgt : g.now ≤ t)
      (hdue : ∀ s ∈ g.stations, s.handler.isServing = true →
        t ≤ s.handler.engagement.session.nextWakeup) :
      ({ g with now := t } : Floor).Linked l₀ sent₀ client arrived := by
    refine hg.imp id fun ⟨s, hs, hlinked⟩ => ⟨s, hs, hlinked.later hgt ?_⟩
    exact hdue s (List.mem_of_getElem? hs)
  refine advanceTo_induction
    (p := fun g => g.config = f.config ∧ g.Rested ∧ g.Linked l₀ sent₀ client arrived)
    (q := fun g => g.Linked l₀ sent₀ client arrived) ⟨rfl, hrest, h⟩ hnow ?_ ?_
  · rintro g t ⟨hconfig, hrest, hlinked⟩ hwakeup -
    have hgt := Nat.le_of_lt (now_lt_of_wakeup hwakeup)
    refine ⟨(config_settle _).trans hconfig, (hrest.toKept.later hgt).settle,
      Linked.settle (hlater hlinked hgt ?_)⟩
    intro s hs hserving
    have hearly := hrest.punctual (hconfig ▸ hinterval) s hs hserving
    obtain ⟨t', ht', hle⟩ := exists_wakeup (mem_wakeups hs hserving) hearly
    rw [hwakeup] at ht'
    cases ht'
    exact hle
  · rintro g ⟨hconfig, hrest, hlinked⟩ hgt hlate
    refine hlater hlinked hgt fun s hs hserving => Nat.le_of_lt ?_
    have hearly := hrest.punctual (hconfig ▸ hinterval) s hs hserving
    exact lt_of_late (mem_wakeups hs hserving) hearly hlate

/-- **Whatever happens on a floor happens to the link of a station**, as far as the station has to
do with it. -/
theorem Linked.step {e : Event} (h : f.Linked l₀ sent₀ client arrived) (hrest : f.Rested)
    (hinterval : 0 < f.config.enquireLinkInterval)
    (he : ∀ ending, e ≠ .endStream client ending) :
    (f.step e).Linked l₀ sent₀ client (arrived ++ e.octetsFrom client) := by
  -- Only what the client sends comes to its link.
  have hothers (hnothing : e.octetsFrom client = [])
      (hlinked : (f.step e).Linked l₀ sent₀ client arrived) :
      (f.step e).Linked l₀ sent₀ client (arrived ++ e.octetsFrom client) := by
    rw [hnothing, List.append_nil]
    exact hlinked
  cases e with
  | connect =>
    refine hothers rfl ?_
    dsimp only [Floor.step, Worker.connect]
    cases hphase : f.worker.phase with
    | draining | closing => exact h
    | accepting =>
      refine Linked.settle ?_
      obtain hclosing | ⟨s, hs, hlinked⟩ := h
      · rw [Worker.isClosing_iff, hphase] at hclosing
        cases hclosing
      · -- The new session comes behind all others.
        have hbound := (List.getElem?_eq_some_iff.1 hs).1
        refine .inr ⟨s, ?_, hlinked⟩
        dsimp only
        rw [List.getElem?_append_left hbound]
        exact hs
  | send c bs =>
    refine Linked.settle (h.imp id fun ⟨s, hs, hlinked⟩ => ?_)
    dsimp only [Event.octetsFrom]
    have htold : (f.tell c (·.receive bs)).stations[client]? = some
        (if c = client then { s with handler := s.handler.receive bs } else s) := by
      unfold tell
      rw [List.getElem?_modify, hs]
      rfl
    split
    · next hclient =>
      rw [if_pos hclient] at htold
      exact ⟨_, htold, hlinked.receive bs⟩
    · next hother =>
      rw [if_neg hother] at htold
      rw [List.append_nil]
      exact ⟨s, htold, hlinked⟩
  -- It is the stream of another client.
  | endStream c ending =>
    refine hothers rfl (Linked.settle (h.imp id fun ⟨s, hs, hlinked⟩ => ⟨s, ?_, hlinked⟩))
    have hother : c ≠ client := by
      rintro rfl
      exact he ending rfl
    unfold tell
    rw [List.getElem?_modify, hs]
    exact congrArg some (if_neg hother)
  | advance span =>
    exact hothers rfl (Linked.advanceTo h hrest hinterval (Nat.le_add_right _ _))
  -- A drain takes back no shutdown, and with a shutdown nothing more is said of the link.
  | drain =>
    refine hothers rfl (Linked.settle (h.imp (fun hclosing => ?_) id))
    rw [Worker.isClosing_iff] at hclosing
    dsimp only [Worker.drain]
    rw [hclosing]
    exact Worker.isClosing_iff.2 hclosing
  | shutdown => exact .inl (isClosing_settle rfl)

/-- **In every run of a floor a station is a link that never waits.** -/
theorem Linked.run {events : List Event} (h : f.Linked l₀ sent₀ client arrived) (hrest : f.Rested)
    (hinterval : 0 < f.config.enquireLinkInterval)
    (hstays : ∀ e ∈ events, ∀ ending, e ≠ .endStream client ending) :
    (f.run events).Linked l₀ sent₀ client (arrived ++ sentBy client events) := by
  induction events generalizing f arrived with
  | nil =>
    rw [sentBy, List.flatMap_nil, List.append_nil]
    exact h
  | cons e es ih =>
    rw [List.forall_mem_cons] at hstays
    unfold sentBy at ih ⊢
    rw [List.flatMap_cons, ← List.append_assoc]
    exact ih (h.step hrest hinterval hstays.1) (hrest.step e)
      (by rw [config_step]; exact hinterval) hstays.2

end Linked

/-! ### The timeline -/

/-- What a session on a floor keeps of its client's activity is when its handler last heard of
it. -/
theorem lastActivity_of_mem (config : Config) (backend : Backend) (events : List Event)
    {s : Station} (hs : s ∈ ((start config backend).run events).stations) :
    ∃ begun told, s.handler = (Handler.start config begun).after told ∧
      s.handler.engagement.session.lastActivity =
        (((Handler.start config begun).history told).filterMap Handler.Move.heard?).getLastD
          begun := by
  have hran := ((Rested.start config backend).run events).ran s hs
  rw [config_run] at hran
  obtain ⟨begun, told, hhandler, -⟩ := hran
  refine ⟨begun, told, hhandler, ?_⟩
  rw [hhandler]
  exact Handler.lastActivity_after (Handler.Sound.start config begun) told

/-- **A silent client on a floor**, whose socket takes at once what the client is sent. Let a
session that serves its client have been last heard of now, so that an advance of the clock amid
which that happens is cut there (`run_advance_add`). Let the client go on sending, but nothing that
is a frame or cannot be the beginning of one, and let the worker not close. The silence has begun
with the last frame that was read, or with the last authentication that has ended, or if there was
neither with the connection; and whatever else happens, at every later instant:

* if the client is bound, it has been probed as often as there are whole intervals by then that end
  before the time is up, under consecutive numbers, and when the time is up it has been asked to end
  under the next one;
* if it is not bound, it has been asked nothing;
* the session has ended if the time is up, for that reason, and not before. -/
theorem silent_client {config : Config} {backend : Backend} {before later : List Event}
    {client : Nat} {s : Station} (hinterval : 0 < config.enquireLinkInterval)
    (hs : ((start config backend).run before).stations[client]? = some s)
    (hserving : s.handler.isServing = true) (hsends : s.handler.connection.ending = .none)
    (hheard : s.handler.engagement.session.lastActivity = ((start config backend).run before).now)
    (hstays : ∀ e ∈ later, ∀ ending, e ≠ .endStream client ending)
    (hnoise : ∀ entry ∈ Connection.pass s.handler.connection.largest
      (s.handler.connection.buffer ++ s.handler.connection.arrived ++ sentBy client later) 0,
      entry.isNoise = true)
    (hgoes : ((start config backend).run (before ++ later)).worker.isClosing = false) :
    let begun := ((start config backend).run before).now
    let now := ((start config backend).run (before ++ later)).now
    let session := s.handler.engagement.session
    (∃ accepted told, s.handler = (Handler.start config accepted).after told ∧
      begun = (((Handler.start config accepted).history told).filterMap
        Handler.Move.heard?).getLastD accepted) ∧
    ∃ s' octets frames n,
      ((start config backend).run (before ++ later)).stations[client]? = some s' ∧
      s'.sent = s.sent ++ octets ∧
      Frame.allIn? Frame.largestLength.toNat octets = some frames ∧
      frames.filter Frame.asks = (session.probes n ++
        (if begun + config.sessionTimeout ≤ now then session.farewell n else [])).map Prod.snd ∧
      (session.state.isBound = true → ∀ k, 1 ≤ k →
        (k ≤ n ↔ k * config.enquireLinkInterval < config.sessionTimeout ∧
          begun + k * config.enquireLinkInterval ≤ now)) ∧
      (session.state.isBound = false → n = 0) ∧
      s'.reason? =
        if begun + config.sessionTimeout ≤ now then some .idleTimeout else none := by
  intro begun now session
  refine ⟨?_, ?_⟩
  · obtain ⟨accepted, told, hhandler, hlast⟩ :=
      lastActivity_of_mem config backend before (List.mem_of_getElem? hs)
    exact ⟨accepted, told, hhandler, hheard.symm.trans hlast⟩
  have hrest : ((start config backend).run before).Rested :=
    (Rested.start config backend).run before
  have hrest' := (Rested.start config backend).run (before ++ later)
  have hmem := List.mem_of_getElem? hs
  have htimely : session.Timely config begun := by
    have htimely := hrest.timely s hmem
    rw [config_run] at htimely
    exact htimely
  have hopen : ((start config backend).run before).worker.isClosing = false := by
    refine Bool.eq_false_iff.2 fun hclosing => ?_
    have hcloses := isClosing_run hclosing later
    rw [← run_append, hgoes] at hcloses
    cases hcloses
  -- From the first instant of the silence on, the station is a link that never waits.
  have hlink : ((start config backend).run before).Linked (s.link begun) s.sent client [] :=
    .inr ⟨s, hs, Station.linked_link hsends⟩
  have hlinked : ((start config backend).run (before ++ later)).Linked (s.link begun) s.sent client
      (sentBy client later) := by
    rw [run_append]
    exact hlink.run hrest (by rw [config_run]; exact hinterval) hstays
  obtain hclosing | ⟨s', hs', -, l, hserves, hnow, hhandler, hfree, hsent⟩ := hlinked
  · rw [hgoes] at hclosing
    cases hclosing
  have hpunctual : s'.handler.isServing = true → now < s'.handler.engagement.session.nextWakeup :=
    hrest'.punctual (by rw [config_run]; exact hinterval) s' (List.mem_of_getElem? hs')
  have hatRest : l.isAtRest = true := by
    unfold Link.isAtRest
    rw [hfree, hhandler, hnow]
    cases hserving' : s'.handler.isServing with
    | false => rfl
    | true => exact decide_eq_true (hpunctual hserving')
  obtain ⟨n, hasked, htimeline⟩ := hserves.timeline hserving (hrest.free hopen s hmem) hsends
    htimely hheard hnoise hatRest
  have hframed : l.Framed := by
    obtain ⟨labels, hfollow, hstays, -⟩ := hserves
    refine Link.framed_of_follow (l := s.link begun) (fun _ h => absurd h List.not_mem_nil) ?_
      hstays hfollow
    exact fun hgone => nomatch hsends.symm.trans hgone
  obtain ⟨frames, hall, hfilter⟩ :=
    Link.exists_frames fun p hp => hframed p (List.mem_append_left _ hp)
  have hreason : l.reason? = s'.reason? := by
    unfold Link.reason? Station.reason?
    rw [hfree, hhandler]
  rw [hnow] at hasked htimeline
  rw [hreason] at htimeline
  refine ⟨s', _, frames, n, hs', hsent, hall, ?_, htimeline⟩
  rw [hfilter, hasked]
  rfl

end Floor

end Smpp
