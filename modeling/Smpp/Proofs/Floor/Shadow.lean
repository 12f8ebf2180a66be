import Smpp.Proofs.Floor.Mirror

/-!
# What a floor with one session shows

A floor with one session shows how a session of another floor stands if it mirrors it while it goes
on, and if both have ended alike once it has ended (`Floor.Shows`); from then on the two workers may
differ, since one of them may have nobody left to wait for. `Floor.Shadows` says so of a station
whose answers begin two lists, the lists that the floor with the one session answers from.

What happens on a floor concerns a client if the client does it or the worker is told it
(`Floor.Event.seenBy`). If the floor with the one session is told what concerns the client, each at
its instant (`Floor.view`, `Floor.replay`), it shows what becomes of its session whatever else
happens on the other floor (`Floor.shadows_run`).
-/

namespace Smpp

namespace Floor

/-! ### What concerns a client -/

/-- What a client does, and what the worker is told, as things that happen to a worker with no other
client. -/
def Event.seenBy (client : Nat) : Event → Option Event
  | .send c bs => if c = client then some (.send 0 bs) else none
  | .endStream c ending => if c = client then some (.endStream 0 ending) else none
  | .drain => some .drain
  | .shutdown => some .shutdown
  | .connect | .advance _ => none

/-- How much time passes. -/
def Event.span : Event → Span
  | .advance span => span
  | .connect | .send .. | .endStream .. | .drain | .shutdown => 0

/-- What a client does and what the worker is told in some events that begin at an instant, in
order, and each at its own instant. -/
def view (client : Nat) : Instant → List Event → List (Instant × Event)
  | _, [] => []
  | now, e :: es => (e.seenBy client).toList.map (now, ·) ++ view client (now + e.span) es

/-- What becomes of a floor to which things happen, each at its instant. -/
def replay (g : Floor) (timed : List (Instant × Event)) : Floor :=
  timed.foldl (fun g p => (g.advanceTo p.1).step p.2) g

theorem now_step (f : Floor) (e : Event) : (f.step e).now = f.now + e.span := by
  cases e with
  | connect =>
    dsimp only [Floor.step]
    split
    · exact now_settle _
    · rfl
  | send | endStream | drain | shutdown => exact now_settle _
  | advance span => exact now_advanceTo (Nat.le_add_right _ _)

section Shadows

variable {binds : List (Answer AuthResult)} {submits : List (Answer SubmitResult)} {i : Nat}
  {s s' : Station} {f f₀ g g' : Floor}

/-- A floor with one session shows how a station stands: it mirrors it while it goes on, and when it
has ended the session has ended alike. -/
inductive Shows (binds : List (Answer AuthResult)) (submits : List (Answer SubmitResult)) (i : Nat)
    (s : Station) (f g : Floor) : Prop where
  | active (hmirrors : Mirrors binds submits i s f g) (hidle : s.Idle f.now)
    (hactive : s.reason? = none)
  | ended {reason : CloseReason} {s' : Station} (halone : g.stations[0]? = some s')
    (hended : s.reason? = some reason) (hended' : s'.reason? = some reason)
    (hsent : s'.sent = s.sent)

/-- What is to be seen of a session. -/
theorem Shows.exists_eq (h : Shows binds submits i s f g) :
    ∃ s', g.stations[0]? = some s' ∧ s'.sent = s.sent ∧ s'.reason? = s.reason? := by
  cases h with
  | active hmirrors =>
    rw [hmirrors.alone]
    exact ⟨s, rfl, rfl, rfl⟩
  | ended halone hended hended' hsent => exact ⟨_, halone, hsent, hended'.trans hended.symm⟩

theorem Mirrors.shows_settle (h : Mirrors binds submits i s f g) (hrest : f.settle.Rested)
    (hinterval : 0 < f.config.enquireLinkInterval) (hs' : f.settle.stations[i]? = some s')
    (hwithin : s'.Within binds submits) : Shows binds submits i s' f.settle g.settle := by
  have hmirrors := h.settle hs' hwithin
  cases hreason : s'.reason? with
  | none =>
    refine .active hmirrors ?_ hreason
    rw [now_settle]
    exact idle_of_mem_settle hrest hinterval (List.mem_of_getElem? hs')
  | some reason =>
    refine .ended ?_ hreason hreason rfl
    rw [hmirrors.alone]
    rfl

/-- A floor with one session shows what becomes of a station of another floor, if both are answered
alike. -/
structure Shadows (binds : List (Answer AuthResult)) (submits : List (Answer SubmitResult))
    (i : Nat) (f g : Floor) : Prop where
  rested : f.Rested
  alone : g.Rested
  now : g.now = f.now
  place : ∃ s, f.stations[i]? = some s
  shows : ∀ s, f.stations[i]? = some s → s.Within binds submits → Shows binds submits i s f g

/-- **What is done at an instant is shown**, if while the session goes on the same is done on the
floor with the one session. -/
theorem Shadows.settle (h : Shadows binds submits i f g) (hrest : f₀.settle.Rested)
    (hrest' : g'.Rested)
    (hinterval : 0 < f₀.config.enquireLinkInterval) (hnow : g'.now = f₀.now)
    (hf : Continues i f f₀) (hg : Continues 0 g g')
    (hsame : ∀ s, Mirrors binds submits i s f g → s.Idle f.now → s.reason? = none →
      ∃ s₀ g₀, Mirrors binds submits i s₀ f₀ g₀ ∧ g' = g₀.settle) :
    Shadows binds submits i f₀.settle g' := by
  obtain ⟨s, hs⟩ := h.place
  obtain ⟨s', hs', hgoes⟩ := hf.trans (continues_settle i f₀) s hs
  refine ⟨hrest, hrest', ?_, ⟨s', hs'⟩, fun s'' hs'' hwithin => ?_⟩
  · rw [now_settle]
    exact hnow
  rw [hs'] at hs''
  cases hs''
  cases h.shows s hs (hgoes.within hwithin) with
  | active hmirrors hidle hactive =>
    obtain ⟨s₀, g₀, hmirrors₀, rfl⟩ := hsame s hmirrors hidle hactive
    exact hmirrors₀.shows_settle hrest hinterval hs' hwithin
  | ended halone hended hended' hsent =>
    -- What has ended says no more, on either floor.
    obtain ⟨hended, hsent₁⟩ := hgoes.ended _ hended
    obtain ⟨s₂, hs₂, hgoes₂⟩ := hg _ halone
    obtain ⟨hended', hsent₂⟩ := hgoes₂.ended _ hended'
    exact .ended hs₂ hended hended' (hsent₂.trans (hsent.trans hsent₁.symm))

theorem Mirrors.later (h : Mirrors binds submits i s f g) (t : Instant) :
    Mirrors binds submits i s { f with now := t } { g with now := t } :=
  ⟨h.place, h.alone, rfl, h.phase, h.grace, h.prompts⟩

/-- **Time is shown as it passes.** -/
theorem Shadows.advanceTo (h : Shadows binds submits i f g)
    (hinterval : 0 < f.config.enquireLinkInterval) {target : Instant} (hnow : f.now ≤ target) :
    Shadows binds submits i (f.advanceTo target) (g.advanceTo target) := by
  have hcut {t t' : Instant} (ht : f.now ≤ t) (ht' : t ≤ t') :
      g.advanceTo t' = (g.advanceTo t).advanceTo t' :=
    (advanceTo_advanceTo (Nat.le_trans (Nat.le_of_eq h.now) ht) ht').symm
  -- The clock of the one session is always where that of the floor is.
  refine advanceTo_induction
    (p := fun f' => f'.config = f.config ∧ f.now ≤ f'.now ∧
      Shadows binds submits i f' (g.advanceTo f'.now))
    (q := fun f' => Shadows binds submits i f' (g.advanceTo target)) ?_ hnow ?_ ?_
  · rw [advanceTo_of_le h.now]
    exact ⟨rfl, Nat.le_refl _, h⟩
  · rintro f' t ⟨hconfig, hle, hshadows⟩ hwakeup -
    have hlater : f'.now ≤ t := Nat.le_of_lt (now_lt_of_wakeup hwakeup)
    have hlater' : (g.advanceTo f'.now).now ≤ t := Nat.le_trans (Nat.le_of_eq hshadows.now) hlater
    refine ⟨(config_settle _).trans hconfig, ?_, ?_⟩
    · rw [now_settle]
      exact Nat.le_trans hle hlater
    rw [now_settle, hcut hle hlater]
    refine hshadows.settle (hshadows.rested.toKept.later hlater).settle
      (hshadows.alone.advanceTo hlater') (hconfig ▸ hinterval) (now_advanceTo hlater')
      (.refl i f') (continues_advanceTo 0 hlater') fun s hmirrors hidle hactive => ?_
    exact ⟨s, _, hmirrors.later t,
      hmirrors.advanceTo_wakeup hidle hactive hshadows.rested hshadows.alone hwakeup⟩
  · rintro f' ⟨-, hle, hshadows⟩ hlater hlate
    have hlater' : (g.advanceTo f'.now).now ≤ target :=
      Nat.le_trans (Nat.le_of_eq hshadows.now) hlater
    rw [hcut hle hlater]
    refine ⟨hshadows.rested.wait hlater hlate, hshadows.alone.advanceTo hlater',
      now_advanceTo hlater', hshadows.place, fun s hs hwithin => ?_⟩
    cases hshadows.shows s hs hwithin with
    | active hmirrors hidle hactive =>
      have hlate' : ∀ u, (g.advanceTo f'.now).wakeup? = some u → target < u := by
        intro u hu
        obtain ⟨t, ht, hle⟩ := hmirrors.exists_wakeup hshadows.rested hactive hu
        exact Nat.lt_of_lt_of_le (hlate t ht) hle
      rw [advanceTo_of_late hlate']
      exact .active (hmirrors.later target) (hmirrors.idle_of_late hidle hlate') hactive
    | ended halone hended hended' hsent =>
      obtain ⟨s₂, hs₂, hgoes⟩ := continues_advanceTo 0 hlater' _ halone
      obtain ⟨hended₂, hsent₂⟩ := hgoes.ended _ hended'
      exact .ended hs₂ hended hended₂ (hsent₂.trans hsent)

/-! ### Whatever happens -/

theorem Mirrors.tell (h : Mirrors binds submits i s f g) (k : Handler → Handler) :
    Mirrors binds submits i { s with handler := k s.handler } (f.tell i k) (g.tell 0 k) where
  place := by
    unfold Floor.tell
    rw [List.getElem?_modify, h.place]
    exact congrArg some (if_pos rfl)
  alone := by
    unfold Floor.tell
    rw [h.alone]
    rfl
  now := h.now
  phase := h.phase
  grace := h.grace
  prompts := h.prompts

theorem Mirrors.drain (h : Mirrors binds submits i s f g) :
    Mirrors binds submits i s { f with worker := f.worker.drain f.now }
      { g with worker := g.worker.drain g.now } := by
  have hdrain : (g.worker.drain g.now).phase = (f.worker.drain f.now).phase ∧
      (g.worker.drain g.now).grace = (f.worker.drain f.now).grace := by
    unfold Worker.drain
    rw [h.phase, h.now]
    split
    · exact ⟨congrArg (fun grace => WorkerPhase.draining (f.now + grace)) h.grace, h.grace⟩
    · exact ⟨h.phase, h.grace⟩
    · exact ⟨h.phase, h.grace⟩
  exact ⟨h.place, h.alone, h.now, hdrain.1, hdrain.2, h.prompts⟩

/-- **What concerns the client** is shown by the floor with the one session that is told it. -/
theorem Shadows.heard (h : Shadows binds submits i f g)
    (hinterval : 0 < f.config.enquireLinkInterval) {e e' : Event} (he : e.seenBy i = some e') :
    Shadows binds submits i (f.step e) (g.step e') := by
  -- Both floors come to rest after the event, so it is enough that the session mirrors the one of
  -- its floor between the event and the rest.
  have hrest := h.rested.step e
  have hrest' := h.alone.step e'
  have hgoes := continues_step 0 g e'
  cases e with
  | connect | advance => cases he
  -- What concerns another client is not seen; what concerns this one is told to both of its
  -- sessions.
  | send c bs =>
    dsimp only [Event.seenBy] at he
    split at he
    · next hclient =>
      cases he
      subst hclient
      exact h.settle hrest hrest' hinterval ((now_settle _).trans h.now)
        (continues_tell (g := (·.receive bs)) c c fun _ => rfl) hgoes
        fun s hmirrors _ _ => ⟨_, _, hmirrors.tell (·.receive bs), rfl⟩
    · cases he
  | endStream c ending =>
    dsimp only [Event.seenBy] at he
    split at he
    · next hclient =>
      cases he
      subst hclient
      exact h.settle hrest hrest' hinterval ((now_settle _).trans h.now)
        (continues_tell (g := (·.endStream ending)) c c fun _ => rfl) hgoes
        fun s hmirrors _ _ => ⟨_, _, hmirrors.tell (·.endStream ending), rfl⟩
    · cases he
  -- A drain and a shutdown are the worker's, and every session sees them.
  | drain =>
    cases he
    exact h.settle hrest hrest' hinterval ((now_settle _).trans h.now) (.refl i f) hgoes
      fun s hmirrors _ _ => ⟨s, _, hmirrors.drain, rfl⟩
  | shutdown =>
    cases he
    exact h.settle hrest hrest' hinterval ((now_settle _).trans h.now) (.refl i f) hgoes
      fun s hmirrors _ _ => ⟨s, { g with worker := g.worker.shutdown },
        ⟨hmirrors.place, hmirrors.alone, hmirrors.now, rfl, hmirrors.grace, hmirrors.prompts⟩, rfl⟩

/-- **What does not concern the client** leaves the floor with the one session as it is. -/
theorem Shadows.unheard (h : Shadows binds submits i f g)
    (hinterval : 0 < f.config.enquireLinkInterval) {e : Event} (he : e.seenBy i = none)
    (hspan : ∀ span, e ≠ .advance span) : Shadows binds submits i (f.step e) g := by
  have hrest := h.rested.step e
  -- The station has its place, and the session has nothing to do.
  have hothers {f₀ : Floor} (hrest : f₀.settle.Rested) (hconfig : f₀.config = f.config)
      (hnow : f₀.now = f.now) (hphase : f₀.worker.phase = f.worker.phase)
      (hgrace : f₀.worker.grace = f.worker.grace)
      (hplace : ∀ s, f.stations[i]? = some s → f₀.stations[i]? = some s) :
      Shadows binds submits i f₀.settle g := by
    refine h.settle hrest h.alone (hconfig ▸ hinterval) (h.now.trans hnow.symm)
      (fun s hs => ⟨s, hplace s hs, .refl s⟩) (.refl 0 g) fun s hmirrors hidle hactive => ?_
    refine ⟨s, g, ⟨hplace s hmirrors.place, hmirrors.alone, hmirrors.now.trans hnow.symm,
      hmirrors.phase.trans hphase.symm, hmirrors.grace.trans hgrace.symm, hmirrors.prompts⟩, ?_⟩
    exact (settle_of_idle hmirrors.alone (hmirrors.now ▸ hidle) hactive h.alone).symm
  have hmodify {c : Nat} (hother : c ≠ i) (k : Handler → Handler) (s : Station)
      (hs : f.stations[i]? = some s) : (f.tell c k).stations[i]? = some s := by
    unfold Floor.tell
    rw [List.getElem?_modify, hs]
    exact congrArg some (if_neg hother)
  cases e with
  | connect =>
    dsimp only [Floor.step, Worker.connect] at hrest ⊢
    cases hphase : f.worker.phase with
    | draining | closing => exact h
    | accepting =>
      rw [hphase] at hrest
      refine hothers hrest rfl rfl hphase.symm rfl fun s hs => ?_
      dsimp only
      rw [List.getElem?_append_left (List.getElem?_eq_some_iff.1 hs).1]
      exact hs
  | send c bs =>
    dsimp only [Event.seenBy] at he
    split at he
    · cases he
    · next hother => exact hothers hrest rfl rfl rfl rfl (hmodify hother _)
  | endStream c ending =>
    dsimp only [Event.seenBy] at he
    split at he
    · cases he
    · next hother => exact hothers hrest rfl rfl rfl rfl (hmodify hother _)
  | advance span => exact absurd rfl (hspan span)
  | drain | shutdown => cases he

/-- **Whatever happens on a floor**, the floor with the one session shows what becomes of it, if it
is told what concerns the client. -/
theorem shadows_run (h : Shadows binds submits i f (g.advanceTo f.now)) (hnow : g.now ≤ f.now)
    (hinterval : 0 < f.config.enquireLinkInterval) (events : List Event) :
    Shadows binds submits i (f.run events)
      ((g.replay (view i f.now events)).advanceTo (f.run events).now) := by
  -- On the events; the clock of the one session waits where it was last told something.
  induction events generalizing f g with
  | nil => exact h
  | cons e es ih =>
    have hlater : f.now ≤ (f.step e).now := now_le_step f e
    have hinterval' : 0 < (f.step e).config.enquireLinkInterval := by
      rw [config_step]
      exact hinterval
    unfold view
    rw [run_cons, ← now_step]
    cases he : e.seenBy i with
    | some e' =>
      have hheard := h.heard hinterval he
      have hsame : ((g.advanceTo f.now).step e').now = (f.step e).now := hheard.now
      refine ih ?_ (Nat.le_of_eq hsame) hinterval'
      rw [advanceTo_of_le hsame]
      exact hheard
    | none =>
      refine ih ?_ (Nat.le_trans hnow hlater) hinterval'
      by_cases hspan : ∃ span, e = .advance span
      · obtain ⟨span, rfl⟩ := hspan
        have hpassed := h.advanceTo hinterval (Nat.le_add_right f.now span)
        rw [advanceTo_advanceTo hnow (Nat.le_add_right _ _)] at hpassed
        rw [now_step]
        exact hpassed
      · have hwaits := h.unheard hinterval he fun span hspan' => hspan ⟨span, hspan'⟩
        have hsame : (f.step e).now = f.now := hwaits.now.symm.trans (now_advanceTo hnow)
        rw [hsame]
        exact hwaits

/-! ### A client from its connection on -/

/-- A worker whose only client connects at an instant, with a backend that has two lists of
answers. -/
def alone (config : Config) (binds : List (Answer AuthResult))
    (submits : List (Answer SubmitResult)) (now : Instant) : Floor :=
  ((start config (.script { binds, submits })).advanceTo now).step .connect

theorem Mirrors.shadows_settle (h : Mirrors binds submits i s f g) (hrest : f.settle.Rested)
    (hrest' : g.settle.Rested) (hinterval : 0 < f.config.enquireLinkInterval) :
    Shadows binds submits i f.settle g.settle where
  rested := hrest
  alone := hrest'
  now := by
    rw [now_settle, now_settle]
    exact h.now
  place := by
    obtain ⟨s', hs', -⟩ := continues_settle i f s h.place
    exact ⟨s', hs'⟩
  shows := fun _ hs' hwithin => h.shows_settle hrest hinterval hs' hwithin

theorem step_connect (hopen : f.worker.phase = .accepting) :
    f.step .connect = ({ f with
      worker := { f.worker with
        accepted := f.worker.accepted + 1, active := f.worker.active + 1 }
      stations := f.stations ++ [Station.start f.config f.now] } : Floor).settle := by
  dsimp only [Floor.step, Worker.connect]
  rw [hopen]

/-- A client that is accepted has a station from then on. -/
theorem exists_of_connect (hopen : f.worker.phase = .accepting) (events : List Event) :
    ∃ s, (f.run (.connect :: events)).stations[f.stations.length]? = some s := by
  rw [run_cons, step_connect hopen]
  have hgoes (g : Floor) (hg : g.stations = f.stations ++ [Station.start f.config f.now]) :
      ∃ s, (g.settle.run events).stations[f.stations.length]? = some s := by
    have hplace : g.stations[f.stations.length]? = some (Station.start f.config f.now) :=
      hg ▸ List.getElem?_concat_length
    obtain ⟨s, hs, -⟩ := (continues_settle _ g).trans (continues_run _ _ events) _ hplace
    exact ⟨s, hs⟩
  exact hgoes _ rfl

/-- **A client that connects** is shown by a floor where it is alone. -/
theorem shadows_connect (hrest : f.Rested) (hopen : f.worker.phase = .accepting)
    (hgrace : f.worker.grace = f.config.drainGracePeriod)
    (hinterval : 0 < f.config.enquireLinkInterval) :
    Shadows binds submits f.stations.length (f.step .connect)
      (alone f.config binds submits f.now) := by
  have hrest₁ := hrest.step .connect
  have hrest₂ : (alone f.config binds submits f.now).Rested :=
    ((Rested.start f.config _).advanceTo (Nat.zero_le _)).step .connect
  -- On the floor where it is alone nothing has happened until it connects.
  have hwaits : (start f.config (.script { binds, submits })).advanceTo f.now =
      { start f.config (.script { binds, submits }) with now := f.now } :=
    advanceTo_of_late fun _ h => nomatch h
  unfold alone at hrest₂ ⊢
  rw [hwaits] at hrest₂ ⊢
  rw [step_connect hopen] at hrest₁ ⊢
  refine Mirrors.shadows_settle (s := Station.start f.config f.now) ?_ hrest₁ hrest₂ hinterval
  exact ⟨List.getElem?_concat_length, rfl, rfl, hopen.symm, hgrace.symm, [], rfl⟩

end Shadows

end Floor

end Smpp
