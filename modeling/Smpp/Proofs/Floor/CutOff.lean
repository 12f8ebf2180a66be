import Smpp.Proofs.Floor.Account
import Smpp.Proofs.Floor.Cancelled

/-!
# The sessions that a shutdown cuts off

All sessions of a worker are cancelled at one moment, when it is told to shut down or its grace
period is over. That moment is the first floor that closes among those that are passed through
(`Floor.cutOff?`): those that have just been told something, those at which the worker has looked at
the clock, and those at rest. A floor may do everything that there is to do about what it is told,
or leave that for later (`Floor.Act`), and whatever it does it passes through where that leads
(`Floor.after_mem_passed`).

From that moment on a worker accepts no more, and every session that it has goes the way that
`Station.Fares` says (`Floor.CutOff`). `Floor.Marked` ties what a floor keeps to what it has passed
through: everything that it does keeps that (`Floor.Marked.after`), so in the end each session is
where it has gone from that moment.

To count is then to add up over the sessions (`Floor.tally_of_fares`): of those that had not ended
each is cut off, or was doomed, unless its client was gone.
-/

namespace Smpp

namespace Floor

/-! ### What a floor does -/

/-- One thing that a floor does. -/
inductive Act where
  /-- It is told something, and leaves for later what there is to do about it. -/
  | hears (event : Event)
  /-- It is told something, and does everything that there is to do about it. -/
  | steps (event : Event)
  /-- It does all that there is to do. -/
  | settles

/-- What a floor is told. -/
def Act.event? : Act → Option Event
  | .hears e | .steps e => some e
  | .settles => none

/-- What becomes of a floor by one thing that it does. -/
def act (f : Floor) : Act → Floor
  | .hears e => f.told e
  | .steps e => f.step e
  | .settles => f.settle

/-- What becomes of a floor by one thing after another. -/
def after (f : Floor) (acts : List Act) : Floor := acts.foldl act f

@[simp] theorem after_cons (f : Floor) (a : Act) (as : List Act) :
    f.after (a :: as) = (f.act a).after as := rfl

theorem after_append (f : Floor) (as as' : List Act) :
    f.after (as ++ as') = (f.after as).after as' :=
  List.foldl_append

/-- A run does everything at once. -/
theorem run_eq_after (f : Floor) (events : List Event) :
    f.run events = f.after (events.map .steps) := by
  unfold run after
  rw [List.foldl_map]
  rfl

/-! ### The floors that are passed through -/

/-- The floors that are passed through while everything is done that there is to do at an
instant. -/
def phases (f : Floor) : List Floor := [f, f.ticked, f.settle]

/-- The floors that are passed through while the clock moves forward to an instant. -/
def way (f : Floor) (target : Instant) : List Floor :=
  match _h : f.wakeup? with
  | some t =>
    if _ht : t ≤ target then
      ({ f with now := t } : Floor).phases ++ ({ f with now := t }.settle).way target
    else [{ f with now := target }]
  | none => [{ f with now := target }]
  termination_by target - f.now
  decreasing_by
    have : f.now < t := now_lt_of_wakeup _h
    rw [now_settle]
    exact Nat.sub_lt_sub_left (Nat.lt_of_lt_of_le this _ht) this

/-- The floors that are passed through by an event. -/
def passes (f : Floor) : Event → List Floor
  | .connect => if f.worker.connect.isSome then (f.told .connect).phases else []
  | .advance span => f.way (f.now + span)
  | e => (f.told e).phases

/-- The floors that are passed through by one thing that a floor does. -/
def leads (f : Floor) : Act → List Floor
  | .hears e => [f.told e]
  | .steps e => f.passes e
  | .settles => f.phases

/-- The floors that are passed through by one thing after another. -/
def passed (f : Floor) : List Act → List Floor
  | [] => []
  | a :: as => f.leads a ++ (f.act a).passed as

/-- The first floor whose worker closes. -/
def firstClosing? (passed : List Floor) : Option Floor := passed.find? (·.worker.isClosing)

/-- The moment at which the sessions of a worker are cancelled, if that has come. -/
def cutOff? (f : Floor) (acts : List Act) : Option Floor := firstClosing? (f.passed acts)

section Way

variable {f : Floor}

theorem way_of_wakeup {t target : Instant} (hwakeup : f.wakeup? = some t) (ht : t ≤ target) :
    f.way target =
      ({ f with now := t } : Floor).phases ++ ({ f with now := t }.settle).way target := by
  rw [way]
  split
  · next hsome =>
    rw [hwakeup] at hsome
    cases hsome
    rw [dif_pos ht]
  · next hnone => rw [hwakeup] at hnone; cases hnone

theorem way_of_late {target : Instant} (hlate : ∀ t, f.wakeup? = some t → target < t) :
    f.way target = [{ f with now := target }] := by
  rw [way]
  split
  · next t hsome => rw [dif_neg (Nat.not_le.2 (hlate t hsome))]
  · rfl

/-- **The way of the clock**, floor by floor: what holds of what was passed and of a floor is kept
at every instant at which something happens, and at the end, where nothing happens until then. -/
theorem way_induction {p : List Floor → Floor → Prop} {passed : List Floor} {target : Instant}
    (hp : p passed f) (hnow : f.now ≤ target)
    (hgo : ∀ passed f t, p passed f → f.wakeup? = some t →
      p (passed ++ ({ f with now := t } : Floor).phases) ({ f with now := t }.settle))
    (hstop : ∀ passed (f : Floor), p passed f → f.now ≤ target →
      p (passed ++ [{ f with now := target }]) { f with now := target }) :
    p (passed ++ f.way target) (f.advanceTo target) := by
  -- On the time that is left until the target, as the clock moves.
  induction f using advanceTo.induct target generalizing passed with
  | case1 f t hwakeup ht ih =>
    rw [advanceTo_of_wakeup hwakeup ht, way_of_wakeup hwakeup ht, ← List.append_assoc]
    refine ih (hgo passed f t hp hwakeup) ?_
    rw [now_settle]
    exact ht
  | case2 f t hwakeup ht =>
    have hlate : ∀ t, f.wakeup? = some t → target < t := by
      intro t' ht'
      rw [hwakeup] at ht'
      cases ht'
      exact Nat.lt_of_not_le ht
    rw [advanceTo_of_late hlate, way_of_late hlate]
    exact hstop passed f hp hnow
  | case3 f hnone =>
    have hlate : ∀ t, f.wakeup? = some t → target < t := by
      intro t' ht'
      rw [hnone] at ht'
      cases ht'
    rw [advanceTo_of_late hlate, way_of_late hlate]
    exact hstop passed f hp hnow

/-- What an event comes to, and what is passed through meanwhile. -/
theorem passes_cases (f : Floor) (e : Event) :
    (∃ span, e = .advance span ∧ f.step e = f.advanceTo (f.now + span) ∧
        f.passes e = f.way (f.now + span)) ∨
      f.step e = f ∧ f.passes e = [] ∨
      f.step e = (f.told e).settle ∧ f.passes e = (f.told e).phases := by
  cases e with
  | connect =>
    dsimp only [Floor.step, passes, told]
    cases f.worker.connect with
    | some => exact .inr (.inr ⟨rfl, rfl⟩)
    | none => exact .inr (.inl ⟨rfl, rfl⟩)
  | advance span => exact .inl ⟨span, rfl, rfl, rfl⟩
  | send | endStream | drain | shutdown => exact .inr (.inr ⟨rfl, rfl⟩)

theorem settle_mem_phases (f : Floor) : f.settle ∈ f.phases :=
  List.mem_cons_of_mem _ (List.mem_cons_of_mem _ List.mem_cons_self)

theorem mem_pass {f g : Floor} {passed gs : List Floor} (hg : g ∈ gs) : g ∈ f :: (passed ++ gs) :=
  List.mem_cons_of_mem _ (List.mem_append_right _ hg)

/-- An event leads to a floor that is passed through, if it leads anywhere. -/
theorem step_mem_passes (f : Floor) (e : Event) : f.step e ∈ f :: f.passes e := by
  obtain ⟨span, -, hstep, hpasses⟩ | ⟨hstep, -⟩ | ⟨hstep, hpasses⟩ := passes_cases f e <;>
    rw [hstep]
  · rw [hpasses]
    have hbegins : f ∈ f :: [] := List.mem_cons_self
    exact way_induction (p := fun passed g => g ∈ f :: passed) hbegins (Nat.le_add_right _ _)
      (fun _ _ _ _ _ => mem_pass (settle_mem_phases _)) fun _ _ _ _ =>
        mem_pass List.mem_cons_self
  · exact List.mem_cons_self
  · rw [hpasses]
    exact List.mem_cons_of_mem _ (settle_mem_phases _)

theorem act_mem_leads (f : Floor) (a : Act) : f.act a ∈ f :: f.leads a := by
  cases a with
  | hears e => exact List.mem_cons_of_mem _ List.mem_cons_self
  | steps e => exact step_mem_passes f e
  | settles => exact List.mem_cons_of_mem _ (settle_mem_phases f)

/-- **What a floor does leads to one that it passes through**, if it leads anywhere. -/
theorem after_mem_passed (f : Floor) (acts : List Act) : f.after acts ∈ f :: f.passed acts := by
  induction acts generalizing f with
  | nil => exact List.mem_cons_self
  | cons a as ih =>
    unfold passed
    rw [after_cons]
    obtain hafter | hafter := List.mem_cons.1 (ih (f.act a))
    · rw [hafter]
      obtain hact | hact := List.mem_cons.1 (act_mem_leads f a)
      · rw [hact]
        exact List.mem_cons_self
      · exact List.mem_cons_of_mem _ (List.mem_append_left _ hact)
    · exact mem_pass hafter

end Way

/-! ### From the moment on -/

/-- Only certain clients are gone. -/
def Gone (gone : Nat → Prop) (f : Floor) : Prop :=
  ∀ i s, f.stations[i]? = some s → s.handler.connection.ending = .reset → gone i

/-- A floor has come from the moment at which the sessions of its worker were cancelled. -/
structure CutOff (gone : Nat → Prop) (g f : Floor) : Prop where
  kept : g.Kept
  /-- By then nobody had been cancelled. -/
  free : ∀ s ∈ g.stations, s.handler.cancelled = false
  closing : f.worker.isClosing = true
  /-- Nobody was accepted since. -/
  length : f.stations.length = g.stations.length
  fares : ∀ (i : Nat) (s s' : Station), g.stations[i]? = some s → f.stations[i]? = some s' →
    s.Fares (gone i) s'

section CutOff

variable {gone : Nat → Prop} {f g : Floor}

theorem CutOff.refl (gone : Nat → Prop) (hkept : f.Kept)
    (hfree : ∀ s ∈ f.stations, s.handler.cancelled = false) (hclosing : f.worker.isClosing = true) :
    f.CutOff gone f := by
  refine ⟨hkept, hfree, hclosing, rfl, fun i s s' hs hs' => ?_⟩
  rw [hs] at hs'
  cases hs'
  exact .refl _ s

theorem length_play (f : Floor) : f.play.stations.length = f.stations.length := by
  have hplayers : f.players.length = f.stations.length := by
    unfold players
    split
    · exact List.length_map _
    · rfl
  exact (length_playStations _ _ _ _).trans hplayers

/-- A station that has played did so in its place. -/
theorem exists_of_getElem?_play {i : Nat} {s' : Station} (hs' : f.play.stations[i]? = some s') :
    ∃ s b, f.players[i]? = some s ∧ s' = (s.play f.now b).1 := by
  have hlength : f.play.stations.length = f.players.length := length_playStations _ _ _ _
  obtain ⟨hi, -⟩ := List.getElem?_eq_some_iff.1 hs'
  rw [hlength] at hi
  obtain ⟨s, hs⟩ : ∃ s, f.players[i]? = some s := ⟨_, List.getElem?_eq_getElem hi⟩
  obtain ⟨b, hplays⟩ := getElem?_playStations f.now f.worker f.backend hs
  exact ⟨s, b, hs, Option.some.inj (hs'.symm.trans hplays)⟩

/-- A station that plays is as it was, or has been cancelled. -/
theorem exists_of_getElem?_players {i : Nat} {s : Station} (hs : f.players[i]? = some s) :
    ∃ s₀, f.stations[i]? = some s₀ ∧ s.handler.stage = s₀.handler.stage ∧
      s.handler.engagement.session = s₀.handler.engagement.session ∧
      s.handler.connection = s₀.handler.connection ∧ s.replies = s₀.replies := by
  unfold players at hs
  split at hs
  · rw [List.getElem?_map] at hs
    obtain ⟨s₀, hs₀, rfl⟩ := Option.map_eq_some_iff.1 hs
    exact ⟨s₀, hs₀, rfl, rfl, rfl, rfl⟩
  · exact ⟨s, hs, rfl, rfl, rfl, rfl⟩

theorem Gone.play (h : f.Gone gone) : f.play.Gone gone := by
  intro i s' hs' hreset
  obtain ⟨s, b, hs, rfl⟩ := exists_of_getElem?_play hs'
  obtain ⟨s₀, hs₀, -, -, hconnection, -⟩ := exists_of_getElem?_players hs
  rw [(Station.runs_play f.now b s).ending, hconnection] at hreset
  exact h i s₀ hs₀ hreset

/-- **A round of the sessions** leaves each of them on its way. -/
theorem CutOff.play (h : g.CutOff gone f) (hkept : f.Kept) (hgone : f.Gone gone) :
    g.CutOff gone f.play := by
  refine ⟨h.kept, h.free, (isClosing_play f).trans h.closing, ?_, fun i s s' hs hs' => ?_⟩
  · exact (length_play f).trans h.length
  · obtain ⟨s₁, b, hs₁, rfl⟩ := exists_of_getElem?_play hs'
    obtain ⟨s₀, hs₀, hstage, hsession, hconnection, hreplies⟩ := exists_of_getElem?_players hs₁
    obtain ⟨hran, -, hcancelled⟩ := hkept.player (List.mem_of_getElem? hs₁)
    refine Station.Fares.play b ((h.fares i s s₀ hs hs₀).congr hstage hsession hreplies) hran.sound
      (hcancelled.trans h.closing) fun hreset => ?_
    rw [hconnection] at hreset
    exact hgone i s₀ hs₀ hreset

/-- A worker that closes goes on doing so when it looks at the clock. -/
theorem CutOff.ticked (h : g.CutOff gone f) (hkept : f.Kept) (hgone : f.Gone gone) :
    g.CutOff gone f.ticked := by
  -- The look at the clock comes behind a round, and only the worker looks.
  obtain ⟨hkept', hfree, hclosing, hlength, hfares⟩ := h.play hkept hgone
  refine ⟨hkept', hfree, ?_, hlength, hfares⟩
  have hphase := Worker.isClosing_iff.1 hclosing
  unfold Floor.ticked Worker.tick
  rw [hphase]
  exact hclosing

/-- What a client does is heard by its handler, and does not change what the session does. -/
theorem CutOff.tell {client : Nat} {k : Handler → Handler} (h : g.CutOff gone f)
    (hstage : ∀ h, (k h).stage = h.stage)
    (hsession : ∀ h, (k h).engagement.session = h.engagement.session) :
    g.CutOff gone (f.tell client k) := by
  refine ⟨h.kept, h.free, h.closing, ?_, fun i s s' hs hs' => ?_⟩
  · exact (List.length_modify _ _ _).trans h.length
  · unfold Floor.tell at hs'
    rw [List.getElem?_modify] at hs'
    obtain ⟨s₀, hs₀, rfl⟩ := Option.map_eq_some_iff.1 hs'
    have hfares := h.fares i s s₀ hs hs₀
    split
    · exact hfares.congr (hstage _) (hsession _) rfl
    · exact hfares

/-- Nobody is accepted by a worker that closes, and none of its sessions is called back. -/
theorem CutOff.told (h : g.CutOff gone f) (e : Event) : g.CutOff gone (f.told e) := by
  have hphase := Worker.isClosing_iff.1 h.closing
  cases e with
  | connect =>
    dsimp only [Floor.told, Worker.connect]
    rw [hphase]
    exact h
  | send client bs => exact h.tell (k := (·.receive bs)) (fun _ => rfl) fun _ => rfl
  | endStream client ending =>
    exact h.tell (k := (·.endStream ending)) (fun _ => rfl) fun _ => rfl
  | advance span => exact h
  | drain =>
    dsimp only [Floor.told, Worker.drain]
    rw [hphase]
    exact h
  | shutdown => exact ⟨h.kept, h.free, rfl, h.length, h.fares⟩

/-- A client that is gone is one of which that is said. -/
theorem Gone.told (h : f.Gone gone) {e : Event} (he : ∀ i, e = .endStream i .reset → gone i) :
    (f.told e).Gone gone := by
  -- Of all that a session can be told only the end of its own stream makes its client be gone.
  have htell {client : Nat} {k : Handler → Handler}
      (hk : ∀ h, (k h).connection.ending = .reset → h.connection.ending = .reset ∨ gone client) :
      (f.tell client k).Gone gone := by
    intro i s' hs' hreset
    unfold Floor.tell at hs'
    rw [List.getElem?_modify] at hs'
    obtain ⟨s, hs, rfl⟩ := Option.map_eq_some_iff.1 hs'
    split at hreset
    · next hclient =>
      obtain hreset | hgone := hk _ hreset
      · exact h i s hs hreset
      · exact hclient ▸ hgone
    · exact h i s hs hreset
  cases e with
  | connect =>
    dsimp only [Floor.told]
    split
    -- The new session is the last, and its client is there.
    · intro i s hs hreset
      rw [List.getElem?_append] at hs
      split at hs
      · exact h i s hs hreset
      · rw [List.mem_singleton.1 (List.mem_of_getElem? hs)] at hreset
        cases hreset
    · exact h
  | send client bs => exact htell (k := (·.receive bs)) fun _ hreset => .inl hreset
  | endStream client ending =>
    refine htell (k := (·.endStream ending)) fun _ hreset => .inr (he client ?_)
    exact congrArg (Event.endStream client) hreset
  | advance | drain | shutdown => exact h

end CutOff

/-! ### The first floor that closes -/

/-- What is kept by a run together with the floors that it has passed through: as long as none of
them closes nobody is cancelled, and the first that does is the moment that everything goes on
from. -/
structure Marked (gone : Nat → Prop) (passed : List Floor) (f : Floor) : Prop where
  kept : f.Kept
  /-- Whose clients are gone is known. -/
  known : f.Gone gone
  free : firstClosing? passed = none → ∀ s ∈ f.stations, s.handler.cancelled = false
  cut : ∀ g, firstClosing? passed = some g → g.CutOff gone f

section Marked

variable {gone : Nat → Prop} {passed : List Floor} {f : Floor}

theorem Marked.start (config : Config) (backend : Backend) (gone : Nat → Prop) :
    Marked gone [] (start config backend) :=
  ⟨(Rested.start config backend).toKept, fun _ _ h => (nomatch h),
    fun _ _ h => absurd h List.not_mem_nil, fun _ h => nomatch h⟩

/-- As long as no floor that was passed closes, none of them does. -/
theorem open_of_mem (hnone : firstClosing? passed = none) (hf : f ∈ passed) :
    f.worker.isClosing = false :=
  Bool.eq_false_iff.2 (List.find?_eq_none.1 hnone f hf)

theorem firstClosing?_append (passed : List Floor) (f : Floor) :
    firstClosing? (passed ++ [f]) =
      (firstClosing? passed).or (if f.worker.isClosing then some f else none) :=
  List.find?_append.trans (congrArg _ List.find?_singleton)

/-- A floor that is passed is the moment if it closes and none before it does. -/
theorem Marked.mark (h : Marked gone passed f) : Marked gone (passed ++ [f]) f := by
  refine ⟨h.kept, h.known, fun hnone => h.free ?_, fun g hg => ?_⟩
  · rw [firstClosing?_append, Option.or_eq_none_iff] at hnone
    exact hnone.1
  · rw [firstClosing?_append] at hg
    cases hbefore : firstClosing? passed with
    | some g' =>
      rw [hbefore] at hg
      cases hg
      exact h.cut g hbefore
    | none =>
      rw [hbefore, Option.none_or] at hg
      split at hg
      · next hclosing =>
        -- It is the moment itself, and nothing has happened since.
        cases hg
        exact .refl gone h.kept (h.free hbefore) hclosing
      · cases hg

theorem Marked.play (h : Marked gone passed f) (hf : f ∈ passed) : Marked gone passed f.play :=
  ⟨h.kept.play, h.known.play,
    fun hnone => h.kept.play.free ((isClosing_play f).trans (open_of_mem hnone hf)),
    fun g hg => (h.cut g hg).play h.kept h.known⟩

theorem Marked.ticked (h : Marked gone passed f) (hf : f ∈ passed) : Marked gone passed f.ticked :=
  ⟨h.kept.ticked, h.known.play, (h.play hf).free, fun g hg => (h.cut g hg).ticked h.kept h.known⟩

/-- What is done at an instant is a round, a look at the clock, and another round if the worker
closes by then. -/
theorem Marked.settle (h : Marked gone passed f) : Marked gone (passed ++ f.phases) f.settle := by
  have hmem {g : Floor} {gs : List Floor} : g ∈ gs ++ [g] :=
    List.mem_append_right _ List.mem_cons_self
  have hticked := (h.mark.ticked hmem).mark
  have hphases : passed ++ f.phases = passed ++ [f] ++ [f.ticked] ++ [f.settle] := by
    unfold phases
    simp
  rw [hphases]
  obtain ⟨-, hsettle⟩ | ⟨-, hsettle⟩ := settle_cases f <;> rw [hsettle]
  · exact (hticked.play hmem).mark
  · exact hticked.mark

theorem Marked.later (h : Marked gone passed f) {t : Instant} (ht : f.now ≤ t) :
    Marked gone passed { f with now := t } :=
  ⟨h.kept.later ht, h.known, h.free, fun g hg =>
    ⟨(h.cut g hg).kept, (h.cut g hg).free, (h.cut g hg).closing, (h.cut g hg).length,
      (h.cut g hg).fares⟩⟩

/-- To be told something cancels nobody. -/
theorem Marked.told (h : Marked gone passed f) {e : Event}
    (he : ∀ i, e = .endStream i .reset → gone i) : Marked gone passed (f.told e) := by
  refine ⟨h.kept.told e, h.known.told he, fun hnone s' hs' => ?_, fun g hg => (h.cut g hg).told e⟩
  have hfree := h.free hnone
  have htell {client : Nat} {k : Handler → Handler} (hk : ∀ h, (k h).cancelled = h.cancelled)
      (hs' : s' ∈ (f.tell client k).stations) : s'.handler.cancelled = false := by
    obtain ⟨s, hs, rfl | rfl⟩ := exists_of_mem_tell hs'
    · exact hfree _ hs
    · exact (hk _).trans (hfree s hs)
  cases e with
  | connect =>
    dsimp only [Floor.told] at hs'
    split at hs'
    · obtain hs | hs := List.mem_append.1 hs'
      · exact hfree _ hs
      · rw [List.mem_singleton.1 hs]
        rfl
    · exact hfree _ hs'
  | send client bs => exact htell (k := (·.receive bs)) (fun _ => rfl) hs'
  | endStream client ending => exact htell (k := (·.endStream ending)) (fun _ => rfl) hs'
  | advance | drain | shutdown => exact hfree _ hs'

theorem Marked.step (h : Marked gone passed f) {e : Event}
    (he : ∀ i, e = .endStream i .reset → gone i) :
    Marked gone (passed ++ f.passes e) (f.step e) := by
  obtain ⟨span, -, hstep, hpasses⟩ | ⟨hstep, hpasses⟩ | ⟨hstep, hpasses⟩ := passes_cases f e <;>
    rw [hstep, hpasses]
  · exact way_induction h (Nat.le_add_right _ _)
      (fun _ _ _ h hwakeup => (h.later (Nat.le_of_lt (now_lt_of_wakeup hwakeup))).settle)
      fun _ _ h hnow => (h.later hnow).mark
  · rw [List.append_nil]
    exact h
  · exact (h.told he).settle

/-- **One thing that a floor does** leaves the moment where it was, or is the moment. -/
theorem Marked.act (h : Marked gone passed f) {a : Act}
    (ha : ∀ i, a.event? = some (.endStream i .reset) → gone i) :
    Marked gone (passed ++ f.leads a) (f.act a) := by
  cases a with
  | hears e => exact (h.told fun i hi => ha i (congrArg some hi)).mark
  | steps e => exact h.step fun i hi => ha i (congrArg some hi)
  | settles => exact h.settle

/-- **What is kept whatever a floor does**, together with the floors that it passes through. -/
theorem Marked.after (h : Marked gone passed f) {acts : List Act}
    (hacts : ∀ i, ∀ a ∈ acts, a.event? = some (.endStream i .reset) → gone i) :
    Marked gone (passed ++ f.passed acts) (f.after acts) := by
  induction acts generalizing f passed with
  | nil =>
    unfold Floor.passed
    rw [List.append_nil]
    exact h
  | cons a as ih =>
    unfold Floor.passed
    rw [after_cons, ← List.append_assoc]
    exact ih (h.act fun i => hacts i a List.mem_cons_self)
      fun i a' ha' => hacts i a' (List.mem_cons_of_mem _ ha')

end Marked

/-! ### The count -/

variable {f : Floor}

/-- **The tally of sessions that have ended**, each on its way from some moment on. -/
theorem tally_of_fares {gone : Nat → Prop} {ss ss' : List Station}
    (hlength : ss'.length = ss.length)
    (hfares : ∀ (i : Nat) (s s' : Station), ss[i]? = some s → ss'[i]? = some s' →
      s.Fares (gone i) s')
    (hended : none ∉ ss'.map Station.reason?) (hfree : some .shutdown ∉ ss.map Station.reason?) :
    (ss'.map Station.reason?).count (some .shutdown) + ss.countP Station.isDoomed ≤
        (ss.map Station.reason?).count none ∧
      ((∀ (i : Nat) (s : Station), ss[i]? = some s → s.isWaiting = true → ¬ gone i) →
        (ss'.map Station.reason?).count (some .shutdown) + ss.countP Station.isDoomed =
          (ss.map Station.reason?).count none) := by
  -- On the sessions, each of which is counted by itself.
  induction ss generalizing ss' gone with
  | nil =>
    rw [List.eq_nil_of_length_eq_zero hlength]
    exact ⟨Nat.le_refl _, fun _ => rfl⟩
  | cons s ss ih =>
    obtain ⟨s', ss', rfl⟩ := List.exists_cons_of_length_eq_add_one hlength
    rw [List.map_cons, List.mem_cons, not_or] at hended hfree
    have hrest (i : Nat) (t t' : Station) (ht : ss[i]? = some t) (ht' : ss'[i]? = some t') :
        t.Fares (gone (i + 1)) t' := hfares (i + 1) t t' ht ht'
    obtain ⟨hle, heq⟩ := ih (Nat.succ.inj hlength) hrest hended.2 hfree.2
    obtain ⟨hle', heq'⟩ := (hfares 0 s s' rfl rfl).tally (Ne.symm hended.1)
      (Ne.symm hfree.1)
    rw [List.map_cons, List.map_cons, List.count_cons, List.count_cons, List.countP_cons]
    refine ⟨by omega, fun hthere => ?_⟩
    have hothers := heq fun i => hthere (i + 1)
    have hfirst := heq' (hthere 0 s rfl)
    omega

/-- Where nobody has been cancelled nobody has been cut off. -/
theorem Kept.uncut (h : f.Kept) (hfree : ∀ s ∈ f.stations, s.handler.cancelled = false) :
    some .shutdown ∉ f.reasons := by
  intro hcut
  obtain ⟨s, hs, hreason⟩ := List.mem_map.1 hcut
  have hcancelled := (h.ran s hs).sound.obedient hreason
  rw [hfree s hs] at hcancelled
  cases hcancelled

end Floor

end Smpp
