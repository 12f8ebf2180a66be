import Smpp.Proofs.Handler.Clock
import Smpp.Proofs.Handler.Due

/-!
# A handler and its socket

What a handler writes goes to a socket, which takes octets as long as it has room and has more room
when the client reads. A handler that writes more than there is room for waits, and does nothing
else until the rest has been taken: it takes no results, reads nothing and looks at no timer, and a
cancellation finds it waiting. Only the request to end has a limit. When that is over the handler
goes on to close the connection, and what is left of the request is still to go out before it can.

`Link` is a handler with its socket on a clock. What a handler does when it is told something is
settled at once, and its effects are carried out one after another as there is room; nothing that it
can be told while it waits would have changed them. What happens to a link comes in any order
(`Label`); only what cannot be is left out (`isPossible`). Time does not pass beyond the instant at
which a handler that is free wants to look at its timers, nor beyond the limit of a request to end
that waits.

Whatever happens, what has been written is either taken or waits, in the order in which it was
written (`Link.Carries`), and the handler has been told one thing after another, as any handler
(`Link.reached_of_follow`). A link that waits does so until its client reads or is gone, however
much time passes (`Link.held_of_unread`).
-/

namespace Smpp

/-- What a write is for that waits for room. -/
inductive Errand where
  /-- A frame goes out, however long that takes. -/
  | reply
  /-- The request to end goes out, if it does by an instant. -/
  | farewell (limit : Instant)
  /-- What is left of the request to end goes out, and then the connection is closed. -/
  | flush
  deriving DecidableEq, Repr

/-- A write that waits for room. -/
structure Held where
  /-- What is written. -/
  octets : Octets
  /-- How many of the octets the socket has not taken. -/
  left : Nat
  errand : Errand
  /-- What is to be done when the socket has taken them. -/
  later : List Effect
  deriving DecidableEq, Repr

/-- A handler with its socket, on a clock. -/
structure Link where
  now : Instant
  handler : Handler
  /-- How many octets the socket takes at once. -/
  room : Nat
  /-- The write that waits for room, if one does. -/
  held : Option Held := none
  /-- What the socket has taken, the oldest first, each piece with the instant at which it had all
  of it. -/
  taken : List (Instant × Octets) := []

namespace Link

/-- What happens to a handler and its socket. -/
inductive Label where
  /-- The handler is told something. -/
  | tell (e : Handler.Event)
  /-- The client reads, and there is room for so many octets more. -/
  | read (n : Nat)
  /-- The handler gives up on the request to end. -/
  | giveUp
  /-- Time passes until an instant. -/
  | pass (t : Instant)

/-- A connection that is accepted now, on a socket with room for so many octets. -/
def start (config : Config) (room : Nat) (now : Instant) : Link :=
  { now, handler := .start config now, room }

/-- Why the connection was closed, if it was. It is not closed while a write waits. -/
def reason? (l : Link) : Option CloseReason :=
  match l.held with
  | some _ => none
  | none => l.handler.reason?

/-! ### Writing -/

/-- The socket takes the last octets of a piece. -/
def accept (l : Link) (bs : Octets) (n : Nat) : Link :=
  { l with room := l.room - n, taken := l.taken ++ [(l.now, bs)] }

/-- A write waits, with the octets for which there is no room. -/
def hold (l : Link) (bs : Octets) (errand : Errand) (later : List Effect) : Link :=
  { l with room := 0, held := some { octets := bs, left := bs.length - l.room, errand, later } }

/-- Carries out effects, until one has to wait. -/
def perform (l : Link) : List Effect → Link
  | [] => l
  | .write bs :: later =>
    if bs.length ≤ l.room then (l.accept bs bs.length).perform later
    else l.hold bs .reply later
  | .farewell bs :: later =>
    if bs.length ≤ l.room then (l.accept bs bs.length).perform later
    else l.hold bs (.farewell (l.now + Handler.farewellPatience)) later
  | .submit .. :: later | .authenticate _ :: later | .close :: later => l.perform later

/-- There is room for so many octets more, for the write that waits before all others. -/
def makeRoom (l : Link) (n : Nat) : Link :=
  match l.held with
  | none => { l with room := l.room + n }
  | some w =>
    if w.left ≤ l.room + n then
      (({ l with room := l.room + n, held := none } : Link).accept w.octets w.left).perform w.later
    else { l with room := 0, held := some { w with left := w.left - (l.room + n) } }

/-- The handler goes on to close the connection; what is left of a piece is to go out before. -/
def giveUp (l : Link) : Link := { l with held := l.held.map ({ · with errand := .flush }) }

/-- The client is gone, so that a write that waits fails. A handler that is about to close the
connection does not mind. -/
def cutOff (l : Link) : Link :=
  match l.held with
  | none => l
  | some w =>
    match w.errand with
    | .reply => { l with held := none, handler := (l.handler.finish .transportError).1 }
    | .farewell _ | .flush => { l with held := none }

/-! ### Runs -/

/-- Whether time may pass until an instant: a handler that is free looks at its timers in time, and
a request to end waits no longer than it may. -/
def awaits (l : Link) (t : Instant) : Bool :=
  match l.held with
  | none => !l.handler.isServing || decide (t ≤ l.handler.engagement.session.nextWakeup)
  | some w =>
    match w.errand with
    | .farewell limit => decide (t ≤ limit)
    | .reply | .flush => true

/-- Whether a request to end has waited for as long as it may. -/
def isOverdue (l : Link) : Bool :=
  match l.held with
  | none => false
  | some w =>
    match w.errand with
    | .farewell limit => decide (limit ≤ l.now)
    | .reply | .flush => false

/-- Whether something can happen. -/
def isPossible (l : Link) : Label → Bool
  | .tell (.arrive _) => l.handler.connection.ending == .none
  | .tell (.endStream ending) => l.handler.connection.ending != .reset && ending != .none
  | .tell .cancel | .tell (.answer ..) => true
  | .tell (.authenticated t _) | .tell (.turn t) | .tell (.tick t) => l.held.isNone && t == l.now
  | .read _ => true
  | .giveUp => l.isOverdue
  | .pass t => decide (l.now < t) && l.awaits t

/-- What becomes of a link by what happens to it. -/
def act (l : Link) : Label → Link
  | .tell (.endStream .reset) => ({ l with handler := l.handler.endStream .reset } : Link).cutOff
  | .tell e => ({ l with handler := (l.handler.step e).1 } : Link).perform (l.handler.step e).2
  | .read n => l.makeRoom n
  | .giveUp => l.giveUp
  | .pass t => { l with now := t }

/-- What becomes of a link by one thing after another, if each of them can happen. -/
def follow (l : Link) : List Label → Option Link
  | [] => some l
  | label :: labels => if l.isPossible label then (l.act label).follow labels else none

section Follow

variable {l l' : Link} {label : Label} {labels : List Label}

theorem follow_append (l : Link) (labels labels' : List Label) :
    l.follow (labels ++ labels') = (l.follow labels).bind fun l => l.follow labels' := by
  induction labels generalizing l with
  | nil => rfl
  | cons label labels ih =>
    rw [List.cons_append, follow, follow]
    split
    · exact ih _
    · rfl

theorem follow_cons (h : l.follow (label :: labels) = some l') :
    l.isPossible label = true ∧ (l.act label).follow labels = some l' := by
  rw [follow] at h
  split at h
  · next hpossible => exact ⟨hpossible, h⟩
  · cases h

/-- What everything that can happen preserves a run preserves. -/
theorem follow_of_act {p : Link → Prop} {q : Label → Prop} (hp : p l)
    (hact : ∀ l label, p l → q label → l.isPossible label = true → p (l.act label))
    (hq : ∀ label ∈ labels, q label) (h : l.follow labels = some l') : p l' := by
  induction labels generalizing l with
  | nil =>
    cases h
    exact hp
  | cons label labels ih =>
    rw [List.forall_mem_cons] at hq
    obtain ⟨hpossible, hrest⟩ := follow_cons h
    exact ih (hact l label hp hq.1 hpossible) hq.2 hrest

end Follow

/-! ### What is written is taken or waits -/

/-- The pieces that wait for room, the next one first. -/
def owed (l : Link) : List Octets :=
  match l.held with
  | none => []
  | some w => w.octets :: Effect.pieces w.later

/-- A link has come from another at the same instant, some pieces having been written: so many of
those that wait or are new were taken, and the others wait. -/
structure Carries (l l' : Link) (written : List Octets) : Prop where
  now : l'.now = l.now
  moves : ∃ moved, l'.taken = l.taken ++ moved.map (l.now, ·) ∧
    l.owed ++ written = moved ++ l'.owed

section Carries

variable {l l' : Link} {bs : Octets} {es : List Effect}

/-- What has room goes out, and the others come after it. -/
theorem carries_accept (hfree : l.held = none) {room n : Nat} {written : List Octets}
    (h : Carries (({ l with room } : Link).accept bs n) l' written) :
    Carries l l' (bs :: written) := by
  have howed : l.owed = [] := by
    unfold owed
    rw [hfree]
  have howed' : (({ l with room } : Link).accept bs n).owed = [] := howed
  obtain ⟨hnow, moved, htaken, hmoved⟩ := h
  rw [howed', List.nil_append] at hmoved
  refine ⟨hnow, bs :: moved, ?_, ?_⟩
  · rw [htaken]
    exact List.append_assoc _ [_] _
  · rw [howed, List.nil_append, hmoved, List.cons_append]

/-- What has no room waits, and the others behind it. -/
theorem carries_hold (hfree : l.held = none) (errand : Errand) :
    Carries l (l.hold bs errand es) (bs :: Effect.pieces es) := by
  refine ⟨rfl, [], (List.append_nil _).symm, ?_⟩
  unfold owed
  rw [hfree]
  rfl

/-- **What is written is taken or waits**, each piece behind those before it. -/
theorem carries_perform (hfree : l.held = none) (es : List Effect) :
    Carries l (l.perform es) (Effect.pieces es) := by
  -- On the effects: up to the first that has to wait, they are carried out by themselves.
  induction es generalizing l with
  | nil => exact ⟨rfl, [], (List.append_nil _).symm, List.append_nil _⟩
  | cons e later ih =>
    cases e with
    | write bs | farewell bs =>
      rw [perform]
      split
      · exact carries_accept hfree (ih hfree)
      · exact carries_hold hfree _
    | submit | authenticate | close => exact ih hfree

/-- Where there is room nothing waits. -/
theorem perform_of_room (hfree : l.held = none) (hroom : (Effect.written es).length ≤ l.room) :
    (l.perform es).held = none ∧
      (l.perform es).taken = l.taken ++ (Effect.pieces es).map (l.now, ·) := by
  induction es generalizing l with
  | nil => exact ⟨hfree, (List.append_nil _).symm⟩
  | cons e later ih =>
    have hwritten : (Effect.written (e :: later)).length =
        e.octets.length + (Effect.written later).length := List.length_append
    rw [hwritten] at hroom
    cases e with
    | write bs | farewell bs =>
      have hbs : bs.length + (Effect.written later).length ≤ l.room := hroom
      rw [perform, if_pos (Nat.le_trans (Nat.le_add_right _ _) hbs)]
      obtain ⟨hheld, htaken⟩ := ih (l := l.accept bs bs.length) hfree (Nat.le_sub_of_add_le' hbs)
      refine ⟨hheld, htaken.trans ?_⟩
      exact List.append_assoc _ [_] _
    | submit | authenticate | close =>
      exact ih hfree (Nat.le_trans (Nat.le_add_left _ _) hroom)

theorem handler_perform (l : Link) (es : List Effect) : (l.perform es).handler = l.handler := by
  induction es generalizing l with
  | nil => rfl
  | cons e later ih =>
    cases e with
    | write bs | farewell bs =>
      rw [perform]
      split
      · exact ih _
      · rfl
    | submit | authenticate | close => exact ih l

theorem carries_makeRoom (l : Link) (n : Nat) : Carries l (l.makeRoom n) [] := by
  unfold makeRoom
  split
  · next hfree =>
    refine ⟨rfl, [], (List.append_nil _).symm, ?_⟩
    unfold owed
    rw [hfree]
  next w hheld =>
  have howed : l.owed = w.octets :: Effect.pieces w.later := by
    unfold owed
    rw [hheld]
  split
  · -- The piece that waited is through, and what comes next is carried out.
    obtain ⟨hnow, moved, htaken, hmoved⟩ := carries_perform
      (l := ({ l with room := l.room + n, held := none } : Link).accept w.octets w.left) rfl w.later
    refine ⟨hnow, w.octets :: moved, ?_, ?_⟩
    · rw [htaken]
      exact List.append_assoc _ [_] _
    · rw [howed, List.append_nil]
      exact congrArg (w.octets :: ·) hmoved
  · refine ⟨rfl, [], (List.append_nil _).symm, ?_⟩
    rw [howed, List.append_nil]
    rfl

theorem handler_makeRoom (l : Link) (n : Nat) : (l.makeRoom n).handler = l.handler := by
  unfold makeRoom
  split
  · rfl
  · split
    · exact handler_perform _ _
    · rfl

theorem carries_giveUp (l : Link) : Carries l l.giveUp [] := by
  refine ⟨rfl, [], (List.append_nil _).symm, ?_⟩
  unfold owed giveUp
  rw [List.append_nil]
  cases l.held <;> rfl

/-- A handler that waits is told only what has no effect. -/
theorem effects_of_held {e : Handler.Event} (hpossible : l.isPossible (.tell e) = true)
    (hheld : l.held ≠ none) : (l.handler.step e).2 = [] := by
  cases e with
  | arrive | endStream | cancel | answer => rfl
  | authenticated | turn | tick =>
    cases h : l.held with
    | none => exact absurd h hheld
    | some w =>
      rw [isPossible, h] at hpossible
      cases hpossible

theorem act_tell {e : Handler.Event} (hstays : e ≠ .endStream .reset) :
    l.act (.tell e) =
      ({ l with handler := (l.handler.step e).1 } : Link).perform (l.handler.step e).2 := by
  unfold act
  split
  · next heq =>
    cases heq
    exact absurd rfl hstays
  · next heq =>
    cases heq
    rfl
  all_goals
    next heq => cases heq

/-- **What a handler is told is written**, as what any handler does. -/
theorem carries_tell {e : Handler.Event} (hpossible : l.isPossible (.tell e) = true)
    (hstays : e ≠ .endStream .reset) :
    (l.act (.tell e)).handler = (l.handler.step e).1 ∧
      Carries l (l.act (.tell e)) (Effect.pieces (l.handler.step e).2) := by
  rw [act_tell hstays]
  refine ⟨handler_perform _ _, ?_⟩
  by_cases hfree : l.held = none
  · obtain ⟨hnow, hmoves⟩ :=
      carries_perform (l := { l with handler := (l.handler.step e).1 }) hfree (l.handler.step e).2
    exact ⟨hnow, hmoves⟩
  · rw [effects_of_held hpossible hfree]
    exact ⟨rfl, [], (List.append_nil _).symm, List.append_nil _⟩

theorem Carries.taken {written : List Octets} (h : Carries l l' written) :
    l.taken <+: l'.taken := by
  obtain ⟨-, moved, htaken, -⟩ := h
  rw [htaken]
  exact List.prefix_append _ _

/-- A client that goes takes nothing more. -/
theorem act_reset (l : Link) :
    (l.act (.tell (.endStream .reset))).now = l.now ∧
      (l.act (.tell (.endStream .reset))).taken = l.taken ∧
      ((l.act (.tell (.endStream .reset))).handler = l.handler.endStream .reset ∨
        (l.act (.tell (.endStream .reset))).handler =
          ((l.handler.endStream .reset).finish .transportError).1) := by
  dsimp only [act, cutOff]
  split
  · exact ⟨rfl, rfl, .inl rfl⟩
  · split
    · exact ⟨rfl, rfl, .inr rfl⟩
    all_goals exact ⟨rfl, rfl, .inl rfl⟩

/-- What has been written, as if the socket took now what it has not taken yet. -/
def promised (l : Link) : List (Instant × Octets) := l.taken ++ l.owed.map (l.now, ·)

theorem Carries.promised {written : List Octets} (h : Carries l l' written) :
    l'.promised = l.promised ++ written.map (l.now, ·) := by
  obtain ⟨hnow, moved, htaken, hmoved⟩ := h
  unfold Link.promised
  rw [htaken, hnow, List.append_assoc, List.append_assoc, ← List.map_append, ← List.map_append,
    hmoved]

theorem promised_of_free (hfree : l.held = none) : l.promised = l.taken := by
  unfold Link.promised owed
  rw [hfree]
  exact List.append_nil _

end Carries

/-- Everything that has been written is a frame of a server. -/
def Framed (l : Link) : Prop :=
  ∀ p ∈ l.promised, ∃ f : Frame, f.FromServer ∧ p.2 = Handler.octetsFor f

section Framed

variable {l l' : Link}

theorem Framed.carries (h : l.Framed) (hcarries : Carries l l' []) : l'.Framed := by
  have hpromised := hcarries.promised
  rw [List.map_nil, List.append_nil] at hpromised
  unfold Framed
  rw [hpromised]
  exact h

theorem Framed.tell {e : Handler.Event} (h : l.Framed) (hpossible : l.isPossible (.tell e) = true)
    (hthere : l.handler.connection.ending ≠ .reset) (hstays : e ≠ .endStream .reset) :
    (l.act (.tell e)).Framed := by
  intro p hp
  rw [(carries_tell hpossible hstays).2.promised, Handler.pieces_step hthere, List.map_map] at hp
  obtain hp | hp := List.mem_append.1 hp
  · exact h p hp
  · obtain ⟨f, hf, rfl⟩ := List.mem_map.1 hp
    exact ⟨f, Handler.fromServer_of_due hf, rfl⟩

/-- What waits for room is the same, whatever the clock shows. -/
theorem Framed.pass (h : l.Framed) (t : Instant) : ({ l with now := t } : Link).Framed := by
  intro p hp
  obtain hp | hp := List.mem_append.1 hp
  · exact h p (List.mem_append_left _ hp)
  · obtain ⟨bs, hbs, rfl⟩ := List.mem_map.1 hp
    exact h (l.now, bs) (List.mem_append_right _ (List.mem_map_of_mem hbs))

end Framed

/-! ### The past of a link -/

/-- The handler of a link has kept time, and has been told one thing after another since the
connection was accepted; what it has written are the frames of a server. Or the client is gone. -/
structure Reached (config : Config) (accepted : Instant) (l : Link) : Prop where
  timely : l.handler.engagement.session.Timely config l.now
  told : l.handler.connection.ending = .reset ∨
    (∃ events, l.handler = (Handler.start config accepted).after events) ∧ l.Framed

section Reached

variable {config : Config} {accepted : Instant} {l l' : Link}

theorem Reached.sound (h : l.Reached config accepted)
    (hthere : l.handler.connection.ending ≠ .reset) : l.handler.Sound := by
  obtain ⟨⟨events, hevents⟩, -⟩ := h.told.resolve_left hthere
  rw [hevents]
  exact (Handler.Sound.start config accepted).after events

theorem Reached.start (config : Config) (room : Nat) (accepted : Instant) :
    (start config room accepted).Reached config accepted :=
  ⟨.start config accepted, .inr ⟨⟨[], rfl⟩, fun _ h => absurd h List.not_mem_nil⟩⟩

/-- What no one is told changes nothing but what has been taken. -/
theorem Reached.carries (h : l.Reached config accepted) (hhandler : l'.handler = l.handler)
    (hcarries : Carries l l' []) : l'.Reached config accepted := by
  obtain ⟨htimely, htold⟩ := h
  rw [← hhandler] at htold
  rw [← hcarries.now, ← hhandler] at htimely
  exact ⟨htimely, htold.imp id fun ⟨hevents, hframed⟩ => ⟨hevents, hframed.carries hcarries⟩⟩

theorem timely_tell {e : Handler.Event} (hs : l.handler.engagement.session.Timely config l.now)
    (hpossible : l.isPossible (.tell e) = true) :
    (l.handler.step e).1.engagement.session.Timely config l.now := by
  cases e with
  | arrive | endStream | cancel => exact hs
  | answer call result => exact Handler.timely_step (e := .answer call result) trivial hs
  | authenticated t result =>
    have ht : t = l.now := beq_iff_eq.1 (Bool.and_eq_true_iff.1 hpossible).2
    exact Handler.timely_step (e := .authenticated t result) ht hs
  | turn t =>
    have ht : t = l.now := beq_iff_eq.1 (Bool.and_eq_true_iff.1 hpossible).2
    exact Handler.timely_step (e := .turn t) ht hs
  | tick t =>
    have ht : t = l.now := beq_iff_eq.1 (Bool.and_eq_true_iff.1 hpossible).2
    exact Handler.timely_step (e := .tick t) ht hs

/-- Nobody comes back who is gone. -/
theorem gone_of_tell {e : Handler.Event} (hpossible : l.isPossible (.tell e) = true)
    (hgone : l.handler.connection.ending = .reset) :
    (l.handler.step e).1.connection.ending = .reset := by
  by_cases hends : ∃ ending, e = .endStream ending
  · obtain ⟨ending, rfl⟩ := hends
    rw [isPossible, hgone] at hpossible
    cases hpossible
  · rw [l.handler.ending_step fun ending heq => hends ⟨ending, heq⟩]
    exact hgone

/-- **What a handler is told, it is told after all that it was told before.** -/
theorem Reached.tell {e : Handler.Event} (h : l.Reached config accepted)
    (hpossible : l.isPossible (.tell e) = true) : (l.act (.tell e)).Reached config accepted := by
  have htimely := timely_tell h.timely hpossible
  by_cases hstays : e = .endStream .reset
  · subst hstays
    obtain ⟨hnow, -, hhandler⟩ := act_reset l
    rw [← hnow] at htimely
    obtain hhandler | hhandler := hhandler
    · exact ⟨hhandler ▸ htimely, .inl (hhandler ▸ rfl)⟩
    · exact ⟨hhandler ▸ htimely.of_eq rfl rfl, .inl (hhandler ▸ rfl)⟩
  obtain ⟨hhandler, hcarries⟩ := carries_tell hpossible hstays
  refine ⟨by rw [hhandler, hcarries.now]; exact htimely, ?_⟩
  rw [hhandler]
  by_cases hgone : l.handler.connection.ending = .reset
  · exact .inl (gone_of_tell hpossible hgone)
  obtain ⟨⟨events, hevents⟩, hframed⟩ := h.told.resolve_left hgone
  refine .inr ⟨⟨events ++ [e], ?_⟩, hframed.tell hpossible hgone hstays⟩
  rw [Handler.after_append, ← hevents]
  rfl

theorem Reached.pass {t : Instant} (h : l.Reached config accepted) (ht : l.now ≤ t) :
    ({ l with now := t } : Link).Reached config accepted :=
  ⟨h.timely.mono ht, h.told.imp id fun ⟨hevents, hframed⟩ => ⟨hevents, hframed.pass t⟩⟩

theorem Reached.act {label : Label} (h : l.Reached config accepted)
    (hpossible : l.isPossible label = true) : (l.act label).Reached config accepted := by
  cases label with
  | tell e => exact h.tell hpossible
  | read n => exact h.carries (handler_makeRoom l n) (carries_makeRoom l n)
  | giveUp => exact h.carries rfl (carries_giveUp l)
  | pass t =>
    have ht := of_decide_eq_true (Bool.and_eq_true_iff.1 hpossible).1
    exact h.pass (Nat.le_of_lt ht)

end Reached

/-! ### Waiting for the client -/

/-- Whether a write that waits may come to an end: the client reads, or is gone. -/
def Label.frees : Label → Bool
  | .read _ | .tell (.endStream .reset) => true
  | .tell _ | .giveUp | .pass _ => false

theorem held_act_of_unread {l : Link} {label : Label} (hheld : l.held ≠ none)
    (hpossible : l.isPossible label = true) (hunread : label.frees = false) :
    (l.act label).held ≠ none ∧ (l.act label).taken = l.taken := by
  cases label with
  | tell e =>
    have hstays : e ≠ .endStream .reset := by
      rintro rfl
      cases hunread
    rw [act_tell hstays, effects_of_held hpossible hheld]
    exact ⟨hheld, rfl⟩
  | read n => cases hunread
  | giveUp =>
    refine ⟨fun hfree => hheld ?_, rfl⟩
    exact Option.map_eq_none_iff.1 hfree
  | pass t => exact ⟨hheld, rfl⟩

/-- **A write that waits does so until its client reads or is gone.** Nothing more goes out and the
connection is not closed, whatever else happens and however much time passes. -/
theorem held_of_unread {l l' : Link} {labels : List Label} (hheld : l.held ≠ none)
    (hunread : ∀ label ∈ labels, label.frees = false) (h : l.follow labels = some l') :
    l'.held ≠ none ∧ l'.taken = l.taken ∧ l'.reason? = none := by
  obtain ⟨hheld', htaken⟩ := follow_of_act
    (p := fun l' => l'.held ≠ none ∧ l'.taken = l.taken) (q := fun label => label.frees = false)
    ⟨hheld, rfl⟩
    (fun l₁ label h hunread hpossible =>
      (held_act_of_unread h.1 hpossible hunread).imp id fun htaken => htaken.trans h.2)
    hunread h
  refine ⟨hheld', htaken, ?_⟩
  obtain ⟨w, hw⟩ := Option.ne_none_iff_exists'.1 hheld'
  unfold reason?
  rw [hw]

end Link

end Smpp
