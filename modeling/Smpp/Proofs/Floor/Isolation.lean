import Smpp.Proofs.Floor.Shadow

/-!
# Sessions do not influence each other

What a client sees of a worker follows from what it does itself, from what its own calls are
answered, and from when the worker is told to drain or to shut down. The way there is a third floor
on which the client is alone: it shows what becomes of the client in any run in which these are what
they are (`Floor.served_as_if_alone`), so two such runs look the same to the client
(`Floor.sessions_isolated`), whatever other clients do in either of them.

That they look the same at every instant is said by cutting both runs there (`Floor.upTo`).
-/

namespace Smpp

namespace Floor

/-! ### Up to an instant -/

/-- The events of a run up to an instant. -/
def upTo (t : Instant) : Instant → List Event → List Event
  | _, [] => []
  | now, e :: es =>
    if now + e.span ≤ t then e :: upTo t (now + e.span) es else [.advance (t - now)]

section UpTo

variable {t : Instant} {f : Floor}

/-- The events up to an instant lead to where the run is then. -/
theorem now_run_upTo (ht : f.now ≤ t) {events : List Event} (hend : t ≤ (f.run events).now) :
    (f.run (upTo t f.now events)).now = t := by
  induction events generalizing f with
  | nil => exact Nat.le_antisymm ht hend
  | cons e es ih =>
    unfold upTo
    split
    · next hgoes =>
      rw [← now_step] at hgoes ⊢
      exact ih hgoes hend
    · change (f.advanceTo (f.now + (t - f.now))).now = t
      rw [now_advanceTo (Nat.le_add_right _ _)]
      exact Nat.add_sub_of_le ht

/-- **Where a run is at an instant it comes by.** -/
theorem exists_run_upTo (ht : f.now ≤ t) (events : List Event) :
    ∃ later, f.run events = (f.run (upTo t f.now events)).run later := by
  induction events generalizing f with
  | nil => exact ⟨[], rfl⟩
  | cons e es ih =>
    unfold upTo
    split
    · next hgoes =>
      rw [← now_step] at hgoes ⊢
      exact ih hgoes
    · next hbeyond =>
      -- The instant is in a span that passes, which is cut there.
      cases e with
      | connect | send | endStream | drain | shutdown => exact absurd ht hbeyond
      | advance span =>
        refine ⟨.advance (span - (t - f.now)) :: es, ?_⟩
        have hspan : t - f.now + (span - (t - f.now)) = span := by
          refine Nat.add_sub_of_le (Nat.sub_le_iff_le_add'.2 ?_)
          exact Nat.le_of_lt (Nat.lt_of_not_le hbeyond)
        have hcut := run_advance_add f (t - f.now) (span - (t - f.now))
        rw [hspan] at hcut
        rw [← run_append]
        change f.run ([.advance span] ++ es) = f.run ([.advance _, .advance _] ++ es)
        rw [run_append, run_append, hcut]

theorem le_of_mem_view {client : Nat} {now : Instant} {events : List Event} {p : Instant × Event}
    (hp : p ∈ view client now events) : now ≤ p.1 := by
  induction events generalizing now with
  | nil => exact absurd hp List.not_mem_nil
  | cons e es ih =>
    unfold view at hp
    obtain hp | hp := List.mem_append.1 hp
    · obtain ⟨e', -, rfl⟩ := List.mem_map.1 hp
      exact Nat.le_refl _
    · exact Nat.le_trans (Nat.le_add_right _ _) (ih hp)

/-- What concerns a client up to an instant is what concerns it then or before. -/
theorem view_upTo (client : Nat) {now : Instant} (ht : now ≤ t) (events : List Event) :
    view client now (upTo t now events) =
      (view client now events).filter fun p => p.1 ≤ t := by
  -- On the events: the cut comes with the first step of the clock beyond the instant, and all that
  -- the client sees after that is later.
  induction events generalizing now with
  | nil => rfl
  | cons e es ih =>
    unfold upTo
    split
    · next hgoes =>
      unfold view
      rw [List.filter_append, ih hgoes]
      congr 1
      refine (List.filter_eq_self.2 fun p hp => ?_).symm
      obtain ⟨e', -, rfl⟩ := List.mem_map.1 hp
      exact decide_eq_true ht
    · next hbeyond =>
      cases e with
      | connect | send | endStream | drain | shutdown => exact absurd ht hbeyond
      | advance span =>
        refine (List.filter_eq_nil_iff.2 fun p hp => ?_).symm
        change p ∈ view client (now + span) es at hp
        rw [decide_eq_true_iff, Nat.not_le]
        exact Nat.lt_of_lt_of_le (Nat.lt_of_not_le hbeyond) (le_of_mem_view hp)

end UpTo

/-! ### As if alone -/

/-- **A client is served as if it were alone**: at every instant it has been sent what it would have
been sent by a worker with no other client, that was told the same and answered it the same. -/
theorem served_as_if_alone {config : Config} {backend : Backend} {before after : List Event}
    {binds : List (Answer AuthResult)} {submits : List (Answer SubmitResult)}
    (hinterval : 0 < config.enquireLinkInterval) :
    let f := (start config backend).run before
    let client := f.stations.length
    f.worker.phase = .accepting →
    (∀ s, (f.run (.connect :: after)).stations[client]? = some s → s.Within binds submits) →
    ∀ t, f.now ≤ t → t ≤ (f.run (.connect :: after)).now →
    ∃ s s', (f.run (.connect :: upTo t f.now after)).stations[client]? = some s ∧
      (((alone config binds submits f.now).replay
        ((view client f.now after).filter fun p => p.1 ≤ t)).advanceTo t).stations[0]? = some s' ∧
      s'.sent = s.sent ∧ s'.reason? = s.reason? := by
  intro f client hopen hanswers t hbegin hend
  have hrest : f.Rested := (Rested.start config backend).run before
  have hconfig : f.config = config := config_run config backend before
  have hgrace : f.worker.grace = f.config.drainGracePeriod := by
    rw [hconfig]
    exact grace_run config backend before
  have hinterval' : 0 < f.config.enquireLinkInterval := by
    rw [hconfig]
    exact hinterval
  have hnow : (f.step .connect).now = f.now := now_step f .connect
  rw [run_cons] at hend hanswers ⊢
  rw [← hnow] at hbegin
  -- The client is alone on the floor that shows it, from when it connects until the instant.
  have hconnects : Shadows binds submits client (f.step .connect)
      (alone f.config binds submits f.now) := shadows_connect hrest hopen hgrace hinterval'
  rw [hconfig] at hconnects
  have halone : (alone config binds submits f.now).now = (f.step .connect).now := hconnects.now
  have hshadows := shadows_run (g := alone config binds submits f.now)
    (by rw [advanceTo_of_le halone]; exact hconnects) (Nat.le_of_eq halone)
    (by rw [config_step]; exact hinterval') (upTo t (f.step .connect).now after)
  rw [now_run_upTo hbegin hend, view_upTo client hbegin, hnow] at hshadows
  obtain ⟨s, hs⟩ := hshadows.place
  -- What it has been answered by then it has been answered at the end.
  obtain ⟨later, hlater⟩ := exists_run_upTo hbegin after
  rw [hnow] at hlater
  obtain ⟨s₁, hs₁, hgoes⟩ := continues_run client _ later s hs
  rw [← hlater] at hs₁
  obtain ⟨s', hs', hsent, hreason⟩ :=
    (hshadows.shows s hs (hgoes.within (hanswers s₁ hs₁))).exists_eq
  exact ⟨s, s', hs, hs', hsent, hreason⟩

/-- **Sessions do not influence each other.** Take any two runs of a worker in which a client is
accepted at the same instant, does the same at the same instants, and gets the same answers after
the same delays to its own calls, one by one, and in which the worker is told to drain and to shut
down at the same instants. Then at every instant that both runs have reached the client has been
sent the same octets in both, and its connection is open in both or has been closed in both for the
same reason.

Nothing is asked of the two backends, of how many other clients there are and when they come, or of
what they do and are answered. That the interval between two probes is not zero `Config.validate`
sees to. -/
theorem sessions_isolated {config : Config} {backend₁ backend₂ : Backend}
    {before₁ before₂ after₁ after₂ : List Event} (hinterval : 0 < config.enquireLinkInterval) :
    let f₁ := (start config backend₁).run before₁
    let f₂ := (start config backend₂).run before₂
    let client₁ := f₁.stations.length
    let client₂ := f₂.stations.length
    f₁.worker.phase = .accepting → f₂.worker.phase = .accepting → f₁.now = f₂.now →
    view client₁ f₁.now after₁ = view client₂ f₂.now after₂ →
    (∀ s₁ s₂, (f₁.run (.connect :: after₁)).stations[client₁]? = some s₁ →
      (f₂.run (.connect :: after₂)).stations[client₂]? = some s₂ → s₁.AnsweredLike s₂) →
    ∀ t, f₁.now ≤ t → t ≤ (f₁.run (.connect :: after₁)).now →
      t ≤ (f₂.run (.connect :: after₂)).now →
    ∃ s₁ s₂, (f₁.run (.connect :: upTo t f₁.now after₁)).stations[client₁]? = some s₁ ∧
      (f₂.run (.connect :: upTo t f₂.now after₂)).stations[client₂]? = some s₂ ∧
      s₁.sent = s₂.sent ∧ s₁.reason? = s₂.reason? := by
  intro f₁ f₂ client₁ client₂ hopen₁ hopen₂ hnow hview hanswers t hbegin hend₁ hend₂
  obtain ⟨e₁, he₁⟩ := exists_of_connect hopen₁ after₁
  obtain ⟨e₂, he₂⟩ := exists_of_connect hopen₂ after₂
  obtain ⟨binds, submits, hwithin₁, hwithin₂⟩ := (hanswers e₁ e₂ he₁ he₂).exists_within
  have hanswers₁ : ∀ s, (f₁.run (.connect :: after₁)).stations[client₁]? = some s →
      s.Within binds submits := fun s hs => Option.some.inj (he₁.symm.trans hs) ▸ hwithin₁
  have hanswers₂ : ∀ s, (f₂.run (.connect :: after₂)).stations[client₂]? = some s →
      s.Within binds submits := fun s hs => Option.some.inj (he₂.symm.trans hs) ▸ hwithin₂
  obtain ⟨s₁, s₁', hs₁, hs₁', hsent₁, hreason₁⟩ :=
    served_as_if_alone hinterval hopen₁ hanswers₁ t hbegin hend₁
  obtain ⟨s₂, s₂', hs₂, hs₂', hsent₂, hreason₂⟩ :=
    served_as_if_alone hinterval hopen₂ hanswers₂ t (hnow ▸ hbegin) hend₂
  -- The floor where the client is alone is the same for both.
  have hsame : s₁' = s₂' := by
    change (((alone config binds submits f₁.now).replay
      ((view client₁ f₁.now after₁).filter fun p => p.1 ≤ t)).advanceTo t).stations[0]? =
        some s₁' at hs₁'
    rw [hview, hnow] at hs₁'
    exact Option.some.inj (hs₁'.symm.trans hs₂')
  subst hsame
  exact ⟨s₁, s₂, hs₁, hs₂, hsent₁.symm.trans hsent₂, hreason₁.symm.trans hreason₂⟩

/-- A client that binds and is cut off by a drain, when it is alone, and when there is one client
whose bind is never answered and that resets its connection, and another that sends a length that
cannot be. -/
theorem sessions_isolated_crowd :
    let config : Config :=
      { sessionTimeout := 9, enquireLinkInterval := 2, drainGracePeriod := 4 }
    let bind : Octets := [0, 0, 0, 26, 0, 0, 0, 9, 0, 0, 0, 0, 0, 0, 0, 1, 99, 0, 112, 0, 116, 0,
      52, 0, 0, 0]
    let quiet := (start config (.memory {})).run []
    let crowded := (start config (.script { binds := [⟨.never, .ok ()⟩] })).run
      [.connect, .send 0 bind]
    let after₁ : List Event := [.send 0 bind, .advance 3, .drain, .advance 5]
    let after₂ : List Event := [.send 1 bind, .connect, .advance 1, .send 2 [0, 0, 0, 1],
      .endStream 0 .reset, .advance 2, .drain, .advance 5]
    ∃ s₁ s₂, (quiet.run (.connect :: upTo 7 quiet.now after₁)).stations[0]? = some s₁ ∧
      (crowded.run (.connect :: upTo 7 crowded.now after₂)).stations[1]? = some s₂ ∧
      s₁.sent = s₂.sent ∧ s₁.reason? = s₂.reason? ∧ s₂.reason? = some .shutdown := by
  intro config bind quiet crowded after₁ after₂
  have hanswers₁ : (quiet.run (.connect :: after₁)).stations[0]?.map
      (fun s => (s.binds, s.submits)) = some ([⟨.atOnce, .ok ()⟩], []) := by
    decide +kernel
  have hanswers₂ : (crowded.run (.connect :: after₂)).stations[1]?.map
      (fun s => (s.binds, s.submits)) = some ([⟨.atOnce, .ok ()⟩], []) := by
    decide +kernel
  have hreason : (crowded.run (.connect :: upTo 7 crowded.now after₂)).stations[1]?.map
      Station.reason? = some (some .shutdown) := by
    decide +kernel
  have hclient₁ : quiet.stations.length = 0 := by decide +kernel
  have hclient₂ : crowded.stations.length = 1 := by decide +kernel
  have hbegun₁ : quiet.now = 0 := by decide +kernel
  have hbegun₂ : crowded.now = 0 := by decide +kernel
  have hview : view quiet.stations.length quiet.now after₁ =
      view crowded.stations.length crowded.now after₂ := by
    rw [hclient₁, hclient₂, hbegun₁, hbegun₂]
    rfl
  -- The one bind of the client is answered alike.
  have hlike : ∀ s₁ s₂,
      (quiet.run (.connect :: after₁)).stations[quiet.stations.length]? = some s₁ →
      (crowded.run (.connect :: after₂)).stations[crowded.stations.length]? = some s₂ →
        s₁.AnsweredLike s₂ := by
    intro s₁ s₂ hs₁ hs₂
    rw [hclient₁] at hs₁
    rw [hclient₂] at hs₂
    rw [hs₁, Option.map_some, Option.some.injEq, Prod.mk.injEq] at hanswers₁
    rw [hs₂, Option.map_some, Option.some.injEq, Prod.mk.injEq] at hanswers₂
    refine ⟨fun k a a' ha ha' => ?_, fun k a a' ha ha' => ?_⟩
    · rw [hanswers₁.1] at ha
      rw [hanswers₂.1, ha] at ha'
      exact Option.some.inj ha'
    · rw [hanswers₁.2] at ha
      cases ha
  obtain ⟨s₁, s₂, hs₁, hs₂, hsent, hsame⟩ :=
    @sessions_isolated config (.memory {}) (.script { binds := [⟨.never, .ok ()⟩] }) []
      [.connect, .send 0 bind] after₁ after₂ (by decide) (by decide +kernel) (by decide +kernel)
      (hbegun₁.trans hbegun₂.symm) hview hlike 7 (by decide +kernel) (by decide +kernel)
      (by decide +kernel)
  change (quiet.run (.connect :: upTo 7 quiet.now after₁)).stations[quiet.stations.length]? =
    some s₁ at hs₁
  change (crowded.run
    (.connect :: upTo 7 crowded.now after₂)).stations[crowded.stations.length]? = some s₂ at hs₂
  rw [hclient₁] at hs₁
  rw [hclient₂] at hs₂
  rw [hs₂, Option.map_some, Option.some.injEq] at hreason
  exact ⟨s₁, s₂, hs₁, hs₂, hsent, hsame, hreason⟩

end Floor

end Smpp
