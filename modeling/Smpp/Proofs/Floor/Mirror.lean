import Smpp.Proofs.Floor.Answers

/-!
# A floor with one session

A floor mirrors one station of another floor when it has that station and no other, shows the same
instant, has a worker that has come as far, and has a backend that answers the station as it is
answered among the others (`Floor.Mirrors`). Whatever is done at an instant comes to the same for
the station on both floors (`Floor.Mirrors.settle`).

The other sessions of a floor make its clock stop at more instants, and make it let its stations
play more often. A mirror in which nothing is to be done stays as it is (`Floor.settle_of_idle`),
and until its session has ended it has no instant to wait for that the floor does not wait for
(`Floor.Mirrors.mem_wakeups`); so its clock can move with that of the floor
(`Floor.Mirrors.advanceTo_wakeup`).
-/

namespace Smpp

namespace Floor

/-! ### A station goes on -/

/-- The station in a place has gone on. -/
def Continues (i : Nat) (f f' : Floor) : Prop :=
  ∀ s, f.stations[i]? = some s → ∃ s', f'.stations[i]? = some s' ∧ s.Continues s'

section Continues

variable {i : Nat} {f f' f'' : Floor}

theorem Continues.refl (i : Nat) (f : Floor) : Continues i f f :=
  fun s hs => ⟨s, hs, .refl s⟩

theorem Continues.trans (h : Continues i f f') (h' : Continues i f' f'') : Continues i f f'' := by
  intro s hs
  obtain ⟨s', hs', hgoes⟩ := h s hs
  obtain ⟨s'', hs'', hgoes'⟩ := h' s' hs'
  exact ⟨s'', hs'', hgoes.trans hgoes'⟩

/-- What a station is when it plays: that of a worker that is closing has been cancelled. -/
def player (f : Floor) (s : Station) : Station :=
  if f.worker.isClosing then { s with handler := s.handler.cancel } else s

theorem continues_player (f : Floor) (s : Station) : s.Continues (f.player s) := by
  unfold player
  split
  · exact Station.continues_told rfl
  · exact .refl s

/-- Every station plays in its place. -/
theorem exists_play_eq {s : Station} (hs : f.stations[i]? = some s) :
    ∃ b, f.play.stations[i]? = some ((f.player s).play f.now b).1 := by
  refine getElem?_playStations f.now f.worker f.backend ?_
  unfold player
  split
  · rw [List.getElem?_map, hs]
    rfl
  · exact hs

theorem continues_play (i : Nat) (f : Floor) : Continues i f f.play := by
  intro s hs
  obtain ⟨b, hplay⟩ := exists_play_eq hs
  exact ⟨_, hplay, (continues_player f s).trans (Station.continues_play f.now b _)⟩

theorem continues_settle (i : Nat) (f : Floor) : Continues i f f.settle := by
  obtain ⟨-, hsettle⟩ | ⟨-, hsettle⟩ := settle_cases f
  · rw [hsettle]
    exact (continues_play i f).trans (continues_play i f.ticked)
  · rw [hsettle]
    exact continues_play i f

theorem continues_advanceTo (i : Nat) {target : Instant} (hnow : f.now ≤ target) :
    Continues i f (f.advanceTo target) :=
  advanceTo_induction (p := Continues i f) (q := Continues i f) (.refl i f) hnow
    (fun g t hg _ _ => hg.trans (continues_settle i { g with now := t }))
    fun _ hg _ _ => hg

theorem continues_tell (i client : Nat) {g : Handler → Handler}
    (hstage : ∀ h, (g h).stage = h.stage) : Continues i f (f.tell client g) := by
  intro s hs
  unfold tell
  rw [List.getElem?_modify, hs]
  refine ⟨_, rfl, ?_⟩
  split
  · exact Station.continues_told (hstage s.handler)
  · exact .refl s

/-- **Whatever happens on a floor, its stations go on.** -/
theorem continues_step (i : Nat) (f : Floor) (e : Event) : Continues i f (f.step e) := by
  cases e with
  | connect =>
    dsimp only [Floor.step]
    split
    · refine .trans (fun s hs => ⟨s, ?_, .refl s⟩) (continues_settle i _)
      dsimp only
      rw [List.getElem?_append_left (List.getElem?_eq_some_iff.1 hs).1]
      exact hs
    · exact .refl i f
  | send client bs =>
    exact (continues_tell (g := (·.receive bs)) i client fun _ => rfl).trans (continues_settle i _)
  | endStream client ending =>
    exact (continues_tell (g := (·.endStream ending)) i client fun _ => rfl).trans
      (continues_settle i _)
  | advance span => exact continues_advanceTo i (Nat.le_add_right _ _)
  | drain => exact continues_settle i { f with worker := f.worker.drain f.now }
  | shutdown => exact continues_settle i { f with worker := f.worker.shutdown }

theorem continues_run (i : Nat) (f : Floor) (events : List Event) : Continues i f (f.run events) :=
  run_of_step (p := Continues i f) (q := fun _ => True) (.refl i f)
    (fun g e hg _ => hg.trans (continues_step i g e)) fun _ _ => trivial

end Continues

/-! ### The mirror of a station -/

section Mirrors

variable {binds : List (Answer AuthResult)} {submits : List (Answer SubmitResult)} {i : Nat}
  {s s' : Station} {f g : Floor}

/-- A floor whose only station is the station in a place of another floor, and whose backend
prompts it. -/
structure Mirrors (binds : List (Answer AuthResult)) (submits : List (Answer SubmitResult))
    (i : Nat) (s : Station) (f g : Floor) : Prop where
  place : f.stations[i]? = some s
  alone : g.stations = [s]
  now : g.now = f.now
  phase : g.worker.phase = f.worker.phase
  grace : g.worker.grace = f.worker.grace
  prompts : s.Prompts binds submits g.backend

/-- How far a worker comes by the clock depends on how far it has come. -/
theorem phase_tick {w w' : Worker} (hphase : w'.phase = w.phase) (now : Instant) :
    (w'.tick now).phase = (w.tick now).phase ∧ (w'.tick now).grace = w'.grace := by
  unfold Worker.tick
  rw [hphase]
  split
  · split
    · exact ⟨rfl, rfl⟩
    · exact ⟨hphase, rfl⟩
  · exact ⟨hphase, rfl⟩
  · exact ⟨hphase, rfl⟩

theorem Mirrors.isClosing (h : Mirrors binds submits i s f g) :
    g.worker.isClosing = f.worker.isClosing := by
  unfold Worker.isClosing
  rw [h.phase]

/-- The only station of a floor plays with the backend all by itself. -/
theorem play_of_alone (halone : g.stations = [s]) :
    g.play.stations = [((g.player s).play g.now g.backend).1] ∧
      g.play.backend = ((g.player s).play g.now g.backend).2 := by
  have hplayers : g.players = [g.player s] := by
    unfold players player
    rw [halone]
    split <;> rfl
  have hplay : g.play = { g with
    worker := (playStations g.now g.worker g.backend g.players).1
    backend := (playStations g.now g.worker g.backend g.players).2.1
    stations := (playStations g.now g.worker g.backend g.players).2.2 } := rfl
  rw [hplay, hplayers]
  exact ⟨rfl, rfl⟩

/-- **A round of the sessions** comes to the same for the station alone, if it is answered so. -/
theorem Mirrors.play (h : Mirrors binds submits i s f g) :
    ∃ s', f.play.stations[i]? = some s' ∧
      (s'.Within binds submits → Mirrors binds submits i s' f.play g.play) := by
  obtain ⟨b, hplay⟩ := exists_play_eq h.place
  refine ⟨_, hplay, fun hwithin => ?_⟩
  obtain ⟨hstations, hbackend⟩ := play_of_alone h.alone
  -- It is cancelled on one floor if and only if it is on the other.
  have hplayer : g.player s = f.player s := by
    unfold player
    rw [h.isClosing]
  have hprompts : (f.player s).Prompts binds submits g.backend := by
    unfold player
    split
    · exact h.prompts
    · exact h.prompts
  obtain ⟨hsame, hprompts'⟩ := Station.play_prompted hprompts hwithin
  rw [hplayer, h.now] at hstations hbackend
  refine ⟨hplay, hstations.trans (congrArg ([·]) hsame), h.now, ?_, ?_, hbackend ▸ hprompts'⟩
  · rw [phase_play, phase_play, h.phase]
  · rw [grace_play, grace_play, h.grace]

/-- **What is done at an instant** comes to the same for the station alone, if it is answered so. -/
theorem Mirrors.settle (h : Mirrors binds submits i s f g)
    (hs' : f.settle.stations[i]? = some s') (hwithin : s'.Within binds submits) :
    Mirrors binds submits i s' f.settle g.settle := by
  obtain ⟨s₁, hplace, hplayed⟩ := h.play
  -- The worker looks at the clock, and comes as far on both floors.
  have hticked (hwithin₁ : s₁.Within binds submits) :
      Mirrors binds submits i s₁ f.ticked g.ticked := by
    have hmirrors := hplayed hwithin₁
    obtain ⟨hphase, hgrace⟩ := phase_tick hmirrors.phase f.now
    obtain ⟨-, hgrace'⟩ := phase_tick (w := f.play.worker) rfl f.now
    have hnow : g.ticked = { g.play with worker := g.play.worker.tick f.now } := by
      rw [← h.now]
      rfl
    rw [hnow]
    exact ⟨hmirrors.place, hmirrors.alone, hmirrors.now, hphase,
      hgrace.trans (hmirrors.grace.trans hgrace'.symm), hmirrors.prompts⟩
  have hsame (hwithin₁ : s₁.Within binds submits) :
      g.ticked.worker.isClosing = f.ticked.worker.isClosing := (hticked hwithin₁).isClosing
  obtain ⟨hclosing, hsettle⟩ | ⟨hopen, hsettle⟩ := settle_cases f
  · -- The worker has closed, and its sessions have another round, on both floors.
    rw [hsettle] at hs' ⊢
    obtain ⟨s₂, hplace₂, hgoes₂⟩ := continues_play i f.ticked s₁ hplace
    rw [hs'] at hplace₂
    cases hplace₂
    have hwithin₁ := hgoes₂.within hwithin
    obtain ⟨hclosing', hsettle'⟩ | ⟨hopen', -⟩ := settle_cases g
    · rw [hsettle']
      obtain ⟨s₃, hplace₃, hplayed₃⟩ := (hticked hwithin₁).play
      rw [hs'] at hplace₃
      cases hplace₃
      exact hplayed₃ hwithin
    · rw [hsame hwithin₁, hclosing] at hopen'
      cases hopen'
  · rw [hsettle] at hs' ⊢
    rw [show f.ticked.stations[i]? = some s₁ from hplace] at hs'
    cases hs'
    obtain ⟨hclosing', -⟩ | ⟨hopen', hsettle'⟩ := settle_cases g
    · rw [hsame hwithin, hopen] at hclosing'
      cases hclosing'
    · rw [hsettle']
      exact hticked hwithin

/-! ### While nothing happens to it -/

/-- What a station is after what is done at an instant it is by having played. -/
theorem exists_of_mem_settle (hs' : s' ∈ f.settle.stations) :
    ∃ (s : Station) (b : Backend), s' = (s.play f.now b).1 := by
  obtain ⟨-, hsettle⟩ | ⟨-, hsettle⟩ := settle_cases f
  · rw [hsettle] at hs'
    obtain ⟨s, -, b, rfl⟩ := exists_of_mem_play hs'
    exact ⟨s, b, rfl⟩
  · rw [hsettle] at hs'
    obtain ⟨s, -, b, rfl⟩ := exists_of_mem_play hs'
    exact ⟨s, b, rfl⟩

theorem idle_of_mem_settle (hrest : f.settle.Rested)
    (hinterval : 0 < f.config.enquireLinkInterval) (hs' : s' ∈ f.settle.stations) :
    s'.Idle f.now := by
  have hpunctual := hrest.punctual (by rw [config_settle]; exact hinterval) s' hs'
  rw [now_settle] at hpunctual
  obtain ⟨s, b, rfl⟩ := exists_of_mem_settle hs'
  exact Station.idle_play f.now b s hpunctual

/-- A round of a floor with one idle station. -/
theorem play_of_idle (halone : g.stations = [s]) (hidle : s.Idle g.now)
    (hcancelled : g.worker.isClosing = true → s.handler.cancelled = true) : g.play = g := by
  -- A worker that closes tells its sessions so, and this one has been told.
  have hplayers : g.players = [s] := by
    unfold players
    rw [halone]
    split
    · next hclosing =>
      have hobeyed := hcancelled hclosing
      obtain ⟨⟨connection, engagement, cancelled, stage⟩, replies, sent, binds, submits⟩ := s
      cases hobeyed
      rfl
    · rfl
  have hplayed : playStations g.now g.worker g.backend [s] = (g.worker, g.backend, [s]) := by
    unfold playStations
    rw [hidle.play]
    dsimp only [playStations]
    cases s.reason? <;> rfl
  change { g with
    worker := (playStations g.now g.worker g.backend g.players).1
    backend := (playStations g.now g.worker g.backend g.players).2.1
    stations := (playStations g.now g.worker g.backend g.players).2.2 } = g
  rw [hplayers, hplayed, ← halone]

/-- A worker with a session that goes on is within its grace period, if it drains. -/
theorem Rested.tick_of_active (h : g.Rested) (hactive : none ∈ g.reasons) :
    g.worker.tick g.now = g.worker := by
  unfold Worker.tick
  split
  · next deadline hdraining =>
    have hearly := (h.graced deadline hdraining).resolve_right
      fun hempty => h.active_eq_zero_iff.1 hempty hactive
    exact if_neg (Nat.not_le.2 hearly)
  · rfl
  · rfl

/-- **A mirror in which nothing is to be done stays as it is.** -/
theorem settle_of_idle (halone : g.stations = [s]) (hidle : s.Idle g.now)
    (hactive : s.reason? = none) (hrest : g.Rested) : g.settle = g := by
  have hmem : s ∈ g.stations := halone ▸ List.mem_cons_self
  have hplay := play_of_idle halone hidle fun hclosing => (hrest.closed hclosing s hmem).1
  have htick := hrest.tick_of_active (hactive ▸ List.mem_map_of_mem hmem)
  unfold settle
  rw [hplay]
  dsimp only
  rw [htick, hplay, ite_self]

/-- **A mirror waits for nothing that the floor does not wait for**, while the session goes on. -/
theorem Mirrors.mem_wakeups (h : Mirrors binds submits i s f g) (hrest : f.Rested)
    (hactive : s.reason? = none) {u : Instant}
    (hu : u ∈ g.worker.deadline?.toList ++ g.stations.flatMap Station.wakeups) :
    u ∈ f.worker.deadline?.toList ++ f.stations.flatMap Station.wakeups := by
  have hmem : s ∈ f.stations := List.mem_of_getElem? h.place
  obtain hu | hu := List.mem_append.1 hu
  · -- There is somebody to wait for on the floor, too.
    refine List.mem_append_left _ ?_
    unfold Worker.deadline? at hu ⊢
    rw [h.phase] at hu
    split at hu
    · split at hu
      · cases hu
      · rw [if_neg fun hempty =>
          hrest.active_eq_zero_iff.1 hempty (hactive ▸ List.mem_map_of_mem hmem)]
        exact hu
    · cases hu
    · cases hu
  · rw [h.alone, List.flatMap_cons, List.flatMap_nil, List.append_nil] at hu
    exact List.mem_append_right _ (List.mem_flatMap.2 ⟨s, hmem, hu⟩)

/-- While the session goes on, the floor wakes up no later than the mirror. -/
theorem Mirrors.exists_wakeup (h : Mirrors binds submits i s f g) (hrest : f.Rested)
    (hactive : s.reason? = none) {u : Instant} (hu : g.wakeup? = some u) :
    ∃ t, f.wakeup? = some t ∧ t ≤ u := by
  obtain ⟨hmem, hlater⟩ := List.mem_filter.1 (Instant.mem_of_earliest hu)
  exact Floor.exists_wakeup (h.mem_wakeups hrest hactive hmem) (h.now ▸ of_decide_eq_true hlater)

/-- A station is idle until the mirror wakes up. -/
theorem Mirrors.idle_of_late (h : Mirrors binds submits i s f g) (hidle : s.Idle f.now)
    {t : Instant} (hlate : ∀ u, g.wakeup? = some u → t < u) : s.Idle t := by
  refine hidle.later fun u hu hnow => lt_of_late (f := g) ?_ (h.now ▸ hnow) hlate
  rw [h.alone, List.flatMap_cons, List.flatMap_nil, List.append_nil]
  exact List.mem_append_right _ hu

theorem advanceTo_of_le {target : Instant} (hnow : f.now = target) : f.advanceTo target = f := by
  subst hnow
  rw [advanceTo_of_late fun _ => now_lt_of_wakeup]

/-- **The mirror moves its clock with the floor**: what it does at an instant at which something
happens on the floor is what is to be done then, if it is anything. -/
theorem Mirrors.advanceTo_wakeup (h : Mirrors binds submits i s f g) (hidle : s.Idle f.now)
    (hactive : s.reason? = none) (hrest : f.Rested) (hrest' : g.Rested) {t : Instant}
    (hwakeup : f.wakeup? = some t) : g.advanceTo t = ({ g with now := t } : Floor).settle := by
  have hearly : g.now < t := h.now ▸ now_lt_of_wakeup hwakeup
  have hnext : ∀ u, g.wakeup? = some u → t ≤ u := by
    intro u hu
    obtain ⟨t', ht', hle⟩ := h.exists_wakeup hrest hactive hu
    rw [hwakeup] at ht'
    cases ht'
    exact hle
  -- Either the mirror wakes up as well, or it has nothing to do then.
  by_cases hwakes : g.wakeup? = some t
  · rw [advanceTo_of_wakeup hwakes (Nat.le_refl t), advanceTo_of_le (now_settle _)]
  · have hlate : ∀ u, g.wakeup? = some u → t < u := by
      intro u hu
      refine Nat.lt_of_le_of_ne (hnext u hu) ?_
      rintro rfl
      exact hwakes hu
    have hwaits := hrest'.wait (Nat.le_of_lt hearly) hlate
    rw [advanceTo_of_late hlate]
    have hidle' : s.Idle t := h.idle_of_late hidle hlate
    exact (settle_of_idle (g := { g with now := t }) h.alone hidle' hactive hwaits).symm

end Mirrors

end Floor

end Smpp
