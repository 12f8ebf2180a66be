import Mathlib
import Smpp.Proofs.Coordinator.Gateway

/-!
# The stages of a gateway

`Fits` says for every stage of the coordinator what is true of its dates, and it is preserved by
whatever happens (`Fits.after`): while the coordinator waits and something goes on (`Fits.goes`),
while time passes (`Fits.pass`), and when the coordinator goes on (`Fits.proceed`). The clock is
what makes it more than a list of what has been done: it stands still while the coordinator has
something to do, so what is done late is done at the instant at which it became possible, and it
does not pass a deadline.
-/

namespace Smpp.Gateway

variable {g g' : Gateway} {patience : Span}

/-! ### What the stages say -/

/-- All workers have become ready at first. -/
def AllReady (g : Gateway) : Prop :=
  Coordinator.allStarted g.supervisors = true ∧ Coordinator.startupError? g.supervisors = none

/-- The drain was asked for at an instant: the later one of the stop and the readiness of all. -/
def DrainedAt (g : Gateway) (d : Instant) : Prop :=
  g.dates.drain = some d ∧ ∃ s ∈ g.dates.stop, ∃ r ∈ g.dates.ready, d = max s r

/-- The gateway failed at an instant: it was known of every worker what had become of its first
start, and everything was asked for at once. -/
structure AbortedAt (g : Gateway) (r : Instant) : Prop where
  ready : g.dates.ready = some r
  drain : g.dates.drain = some r
  shutdown : g.dates.shutdown = some r
  kill : g.dates.kill = some r
  early : r ≤ Supervisor.startupTimeout

/-- A date is that of what is asked for at an instant if some supervisor is left by then. Either it
was asked for, and the supervisors had not all ended before; or it was not, and the instant has not
passed, or they had all ended by then. -/
def Asked (g : Gateway) (date : Option Instant) (t : Instant) : Prop :=
  date = some t ∧ (∀ e ∈ g.dates.ended, t ≤ e) ∨
    date = none ∧ (g.now ≤ t ∨ ∃ e ∈ g.dates.ended, e ≤ t)

/-- What the stage of a coordinator says of the gateway. -/
def Fits (g : Gateway) : Prop :=
  match g.coordinator.stage with
  | .starting =>
    g.dates.drain = none ∧ g.dates.shutdown = none ∧ g.dates.kill = none ∧
      g.now ≤ Supervisor.startupTimeout ∧ ∀ r ∈ g.dates.ready, r = g.now
  | .running =>
    g.dates.drain = none ∧ g.dates.shutdown = none ∧ g.dates.kill = none ∧ g.AllReady ∧
      ∀ s ∈ g.dates.stop, ∀ r ∈ g.dates.ready, g.now ≤ max s r
  | .draining deadline =>
    g.AllReady ∧ ∃ d, g.DrainedAt d ∧ deadline = d + g.coordinator.patience ∧ g.now ≤ deadline ∧
      g.dates.shutdown = none ∧ g.dates.kill = none
  | .forcing deadline =>
    g.AllReady ∧ ∃ d, g.DrainedAt d ∧
      deadline = d + g.coordinator.patience + Coordinator.margin ∧ g.now ≤ deadline ∧
      g.Asked g.dates.shutdown (d + g.coordinator.patience) ∧ g.dates.shutdown.isSome = true ∧
      g.dates.kill = none
  | .killing =>
    g.AllReady ∧ ∃ d, g.DrainedAt d ∧
      (g.Asked g.dates.shutdown (d + g.coordinator.patience) ∧
        g.dates.shutdown.isSome = true) ∧
      g.Asked g.dates.kill (d + g.coordinator.patience + Coordinator.margin) ∧
      g.dates.kill.isSome = true
  | .aborting e =>
    Coordinator.allStarted g.supervisors = true ∧
      Coordinator.startupError? g.supervisors = some e ∧
      ∃ r, g.AbortedAt r ∧ g.now ≤ r + Supervisor.startupTimeout ∧ ∀ s ∈ g.slots, s.Winding r
  | .stopped (.error e) =>
    Coordinator.allStarted g.supervisors = true ∧
      Coordinator.startupError? g.supervisors = some e ∧
      Coordinator.allEnded g.supervisors = true ∧ ∃ r, g.AbortedAt r
  | .stopped (.ok ()) =>
    g.AllReady ∧ Coordinator.allEnded g.supervisors = true ∧ ∃ d, g.DrainedAt d ∧
      g.Asked g.dates.shutdown (d + g.coordinator.patience) ∧
      g.Asked g.dates.kill (d + g.coordinator.patience + Coordinator.margin)

/-! ### What the dates say later -/

/-- A date is the same later, or it is new. -/
structure Grows (now : Instant) (date date' : Option Instant) : Prop where
  same : date.isSome = true → date' = date
  mem : ∀ t ∈ date', t ∈ date ∨ t = now

theorem grows_first (now : Instant) (date : Option Instant) (holds : Bool) :
    Grows now date (first now date holds) :=
  ⟨first_of_isSome, fun _ => mem_first⟩

theorem Grows.of_mem {now : Instant} {date date' : Option Instant} (h : Grows now date date')
    {t : Instant} (ht : t ∈ date) : t ∈ date' := by
  rw [h.same (Option.isSome_of_mem ht)]
  exact ht

/-- The clock stands, the coordinator waits, and something goes on. -/
structure Goes (g g' : Gateway) : Prop where
  now : g'.now = g.now
  stage : g'.coordinator.stage = g.coordinator.stage
  patience : g'.coordinator.patience = g.coordinator.patience
  stop : Grows g.now g.dates.stop g'.dates.stop
  ready : Grows g.now g.dates.ready g'.dates.ready
  ended : Grows g.now g.dates.ended g'.dates.ended
  drain : g'.dates.drain = g.dates.drain
  shutdown : g'.dates.shutdown = g.dates.shutdown
  kill : g'.dates.kill = g.dates.kill
  supervisors : List.Forall₂ Further g.supervisors g'.supervisors
  winding : ∀ r, (∀ s ∈ g.slots, s.Winding r) → ∀ s ∈ g'.slots, s.Winding r

section Goes

variable (hgo : Goes g g')

include hgo

theorem AllReady.goes (h : g.AllReady) : g'.AllReady :=
  ⟨allStarted_mono hgo.supervisors h.1, (startupError?_eq hgo.supervisors h.1).trans h.2⟩

theorem DrainedAt.goes {d : Instant} (h : g.DrainedAt d) : g'.DrainedAt d := by
  obtain ⟨hdrain, s, hs, r, hr, hd⟩ := h
  exact ⟨hgo.drain.trans hdrain, s, hgo.stop.of_mem hs, r, hgo.ready.of_mem hr, hd⟩

theorem AbortedAt.goes {r : Instant} (h : g.AbortedAt r) : g'.AbortedAt r where
  ready := hgo.ready.of_mem h.ready
  drain := hgo.drain.trans h.drain
  shutdown := hgo.shutdown.trans h.shutdown
  kill := hgo.kill.trans h.kill
  early := h.early

/-- What was asked for was asked for before the present. -/
theorem Asked.goes {date : Option Instant} {t : Instant} (h : g.Asked date t)
    (hdate : ∀ u ∈ date, u ≤ g.now) : g'.Asked date t := by
  obtain ⟨rfl, hleft⟩ | ⟨rfl, hle | ⟨e, he, hle⟩⟩ := h
  · refine .inl ⟨rfl, fun e he => ?_⟩
    obtain he | rfl := hgo.ended.mem e he
    · exact hleft e he
    · exact hdate t rfl
  · exact .inr ⟨rfl, .inl (hgo.now ▸ hle)⟩
  · exact .inr ⟨rfl, .inr ⟨e, hgo.ended.of_mem he, hle⟩⟩

/-- **While the coordinator waits**, its stage goes on to say what it says. -/
theorem Fits.goes (h : g.Fits) (hdates : g.Agree) : g'.Fits := by
  -- The stage is as it was, and so are the dates of what the gateway has asked for; what is said of
  -- the supervisors only becomes more.
  unfold Fits at h ⊢
  rw [hgo.stage, hgo.patience, hgo.now, hgo.drain, hgo.shutdown, hgo.kill]
  revert h
  cases g.coordinator.stage with
  | starting =>
    rintro ⟨hdrain, hshutdown, hkill, hle, hready⟩
    refine ⟨hdrain, hshutdown, hkill, hle, fun r hr => ?_⟩
    exact (hgo.ready.mem r hr).elim (hready r) id
  | running =>
    rintro ⟨hdrain, hshutdown, hkill, hall, hstop⟩
    refine ⟨hdrain, hshutdown, hkill, hall.goes hgo, fun s hs r hr => ?_⟩
    -- A new date is the present, and so is the later one of the two then.
    obtain hs | rfl := hgo.stop.mem s hs
    · obtain hr | rfl := hgo.ready.mem r hr
      · exact hstop s hs r hr
      · exact Nat.le_max_right _ _
    · exact Nat.le_max_left _ _
  | draining deadline =>
    rintro ⟨hall, d, hdrained, hrest⟩
    exact ⟨hall.goes hgo, d, hdrained.goes hgo, hrest⟩
  | forcing deadline =>
    rintro ⟨hall, d, hdrained, hdeadline, hle, hshutdown, hrest⟩
    exact ⟨hall.goes hgo, d, hdrained.goes hgo, hdeadline, hle,
      hshutdown.goes hgo hdates.shutdown.le, hrest⟩
  | killing =>
    rintro ⟨hall, d, hdrained, ⟨hshutdown, hsome⟩, hkill, hsome'⟩
    exact ⟨hall.goes hgo, d, hdrained.goes hgo, ⟨hshutdown.goes hgo hdates.shutdown.le, hsome⟩,
      hkill.goes hgo hdates.kill.le, hsome'⟩
  | aborting e =>
    rintro ⟨hstarted, herror, r, haborted, hle, hwinding⟩
    exact ⟨allStarted_mono hgo.supervisors hstarted,
      (startupError?_eq hgo.supervisors hstarted).trans herror, r, haborted.goes hgo, hle,
      hgo.winding r hwinding⟩
  | stopped result =>
    cases result with
    | error e =>
      rintro ⟨hstarted, herror, hended, r, haborted⟩
      exact ⟨allStarted_mono hgo.supervisors hstarted,
        (startupError?_eq hgo.supervisors hstarted).trans herror,
        allEnded_mono hgo.supervisors hended, r, haborted.goes hgo⟩
    | ok =>
      rintro ⟨hall, hended, d, hdrained, hshutdown, hkill⟩
      exact ⟨hall.goes hgo, allEnded_mono hgo.supervisors hended, d, hdrained.goes hgo,
        hshutdown.goes hgo hdates.shutdown.le, hkill.goes hgo hdates.kill.le⟩

end Goes

theorem Kept.goes_inSlot (h : Kept patience g) {index : Nat} {l : Supervision.Label}
    (hl : g.slots[index]?.any (·.isPossible l) = true) : Goes g (g.inSlot index l) where
  now := rfl
  stage := rfl
  patience := rfl
  stop := grows_first ..
  ready := grows_first ..
  ended := grows_first ..
  drain := h.dates.drain.first_eq rfl
  shutdown := h.dates.shutdown.first_eq rfl
  kill := h.dates.kill.first_eq rfl
  supervisors := h.further_inSlot hl
  winding := by
    intro r hwinding s hs
    obtain ⟨i, hi⟩ := List.mem_iff_getElem?.1 hs
    change (g.slots.modify index (·.after l))[i]? = some s at hi
    rw [List.getElem?_modify] at hi
    obtain ⟨t, ht, rfl⟩ := Option.map_eq_some_iff.1 hi
    have hwind := hwinding t (List.mem_of_getElem? ht)
    split
    · next heq =>
      subst heq
      rw [ht] at hl
      exact hwind.after (h.slots index t ht).1 hl
    · exact hwind

theorem Kept.goes_stop (h : Kept patience g) : Goes g (g.after .stop) where
  now := rfl
  stage := rfl
  patience := rfl
  stop := grows_first ..
  ready := grows_first ..
  ended := grows_first ..
  drain := h.dates.drain.first_eq rfl
  shutdown := h.dates.shutdown.first_eq rfl
  kill := h.dates.kill.first_eq rfl
  supervisors := List.forall₂_same.2 fun s _ => .refl s
  winding := fun _ => id

/-! ### Time passes -/

/-- What is asked for by an instant that the clock does not pass, or that all supervisors have ended
by, is the same when time has passed. -/
theorem Asked.pass {date : Option Instant} {t u : Instant} (h : g.Asked date t)
    (hdate : date.isSome = true ∨ u ≤ t ∨ Coordinator.allEnded g.supervisors = true)
    (hdates : g.Agree) : (g.after (.pass u)).Asked date t := by
  obtain hsome | ⟨rfl, hpast⟩ := h
  · exact .inl hsome
  · refine .inr ⟨rfl, ?_⟩
    obtain hsome | hle | hended := hdate
    · cases hsome
    · exact .inl hle
    · -- All have ended before the present, which has not passed the instant.
      obtain hle | hended' := hpast
      · rw [← hdates.ended.isSome_eq] at hended
        obtain ⟨e, he⟩ := Option.isSome_iff_exists.1 hended
        exact .inr ⟨e, he, Nat.le_trans (hdates.ended.le e he) hle⟩
      · exact .inr hended'

/-- As long as it is not known of every worker what became of its first start, the time for that is
not over. -/
theorem Kept.le_startupTimeout (h : Kept patience g) {t : Instant}
    (hslots : g.slots.all (·.isPossible (.pass t)) = true)
    (hunknown : Coordinator.allStarted g.supervisors = false) :
    t ≤ Supervisor.startupTimeout := by
  rw [Coordinator.allStarted, supervisors, List.all_map, List.all_eq_false] at hunknown
  obtain ⟨s, hs, hnone⟩ := hunknown
  obtain ⟨index, hindex⟩ := List.mem_iff_getElem?.1 hs
  have hstage := (h.slots index s hindex).1.unknown (Option.not_isSome_iff_eq_none.1 hnone)
  exact (Supervision.le_of_isPossible_pass (List.all_eq_true.1 hslots s hs) hstage).2

/-- As long as some supervisor has not ended since the workers were to be killed, it waits for a
start that is not over. -/
theorem le_of_winding {r t : Instant} (hwinding : ∀ s ∈ g.slots, s.Winding r)
    (hslots : g.slots.all (·.isPossible (.pass t)) = true)
    (hleft : Coordinator.allEnded g.supervisors = false) : t ≤ r + Supervisor.startupTimeout := by
  rw [Coordinator.allEnded, supervisors, List.all_map, List.all_eq_false] at hleft
  obtain ⟨s, hs, hunended⟩ := hleft
  have hpossible := List.all_eq_true.1 hslots s hs
  obtain hended | ⟨d, hstage⟩ := Supervision.stage_of_isAtRest (hwinding s hs).drain
    (hwinding s hs).kill (Supervision.isAtRest_of_isPossible_pass hpossible)
  · exact absurd (beq_iff_eq.2 hended) hunended
  · exact Nat.le_trans (Supervision.le_of_isPossible_pass hpossible hstage).2
      ((hwinding s hs).starting d hstage)

/-- **While time passes**, the stage of the coordinator goes on to say what it says. -/
theorem Fits.pass (h : g.Fits) (hkept : Kept patience g) {t : Instant}
    (ht : g.isPossible (.pass t) = true) : (g.after (.pass t)).Fits := by
  have hcoordinator : (g.after (.pass t)).coordinator = g.coordinator := rfl
  have hsame : (g.after (.pass t)).supervisors = g.supervisors := supervisors_map fun _ => rfl
  have hwind : ∀ r, (∀ s ∈ g.slots, s.Winding r) →
      ∀ s ∈ (g.after (.pass t)).slots, s.Winding r := by
    intro r hwinding s hs
    obtain ⟨u, hu, rfl⟩ := List.mem_map.1 hs
    obtain ⟨index, hindex⟩ := List.mem_iff_getElem?.1 hu
    refine (hwinding u hu).after (hkept.slots index u hindex).1 ?_
    rw [isPossible, Bool.and_eq_true] at ht
    exact List.all_eq_true.1 ht.2 u hu
  rw [isPossible, Bool.and_eq_true, Bool.and_eq_true, Bool.and_eq_true] at ht
  obtain ⟨⟨⟨-, hnext⟩, hwakeup⟩, hslots⟩ := ht
  have hnext : g.coordinator.next g.now g.supervisors = none := Option.isNone_iff_eq_none.1 hnext
  unfold Fits at h ⊢
  unfold Coordinator.next at hnext
  unfold Coordinator.wakeup? at hwakeup
  rw [hcoordinator]
  unfold AllReady at h ⊢
  rw [hsame]
  revert h hwakeup hnext
  cases g.coordinator.stage with
  | starting =>
    rintro ⟨hdrain, hshutdown, hkill, -, -⟩ - hnext
    -- The coordinator would abort or begin if all first starts were known.
    have hunknown : Coordinator.allStarted g.supervisors = false := by
      rw [Bool.eq_false_iff]
      intro hstarted
      dsimp only at hnext
      rw [if_pos hstarted] at hnext
      split at hnext <;> cases hnext
    refine ⟨hdrain, hshutdown, hkill, hkept.le_startupTimeout hslots hunknown, fun r hr => ?_⟩
    -- Nothing is known of some worker, so there is no date.
    have hnone := (hunknown ▸ hkept.dates.ready).none_of_false
    cases hr.symm.trans hnone
  | running =>
    rintro ⟨hdrain, hshutdown, hkill, hall, -⟩ - hnext
    refine ⟨hdrain, hshutdown, hkill, hall, fun s hs => ?_⟩
    -- The coordinator would drain if it had been asked to stop.
    have hstop : g.coordinator.stopRequested = false := by
      rw [Bool.eq_false_iff]
      intro hstop
      dsimp only at hnext
      rw [if_pos hstop] at hnext
      cases hnext
    have hnone := (hstop ▸ hkept.dates.stop).none_of_false
    cases hs.symm.trans hnone
  | draining deadline =>
    rintro ⟨hall, d, hdrained, hdeadline, -, hrest⟩ hwakeup -
    exact ⟨hall, d, hdrained, hdeadline, of_decide_eq_true hwakeup, hrest⟩
  | forcing deadline =>
    rintro ⟨hall, d, hdrained, hdeadline, -, hshutdown, hsome, hkill⟩ hwakeup -
    exact ⟨hall, d, hdrained, hdeadline, of_decide_eq_true hwakeup,
      hshutdown.pass (.inl hsome) hkept.dates, hsome, hkill⟩
  | killing =>
    rintro ⟨hall, d, hdrained, ⟨hshutdown, hsome⟩, hkill, hsome'⟩ - -
    exact ⟨hall, d, hdrained, ⟨hshutdown.pass (.inl hsome) hkept.dates, hsome⟩,
      hkill.pass (.inl hsome') hkept.dates, hsome'⟩
  | aborting e =>
    rintro ⟨hstarted, herror, r, haborted, -, hwinding⟩ - hnext
    -- Some supervisor is left, and what it waits for bounds the clock.
    have hleft : Coordinator.allEnded g.supervisors = false := by
      rw [Bool.eq_false_iff]
      intro hended
      dsimp only at hnext
      rw [if_pos hended] at hnext
      cases hnext
    exact ⟨hstarted, herror, r, ⟨haborted.1, haborted.2, haborted.3, haborted.4, haborted.5⟩,
      le_of_winding hwinding hslots hleft, hwind r hwinding⟩
  | stopped result =>
    cases result with
    | error e =>
      rintro ⟨hstarted, herror, hended, r, haborted⟩ - -
      exact ⟨hstarted, herror, hended, r,
        ⟨haborted.1, haborted.2, haborted.3, haborted.4, haborted.5⟩⟩
    | ok =>
      rintro ⟨hall, hended, d, hdrained, hshutdown, hkill⟩ - -
      exact ⟨hall, hended, d, hdrained, hshutdown.pass (.inr (.inr hended)) hkept.dates,
        hkill.pass (.inr (.inr hended)) hkept.dates⟩

/-! ### The coordinator goes on -/

theorem supervisors_proceed (g : Gateway) (c : Coordinator) :
    (g.proceed c).supervisors = g.supervisors := supervisors_map fun _ => rfl

section Proceed

variable {c : Coordinator} (hkept : Kept patience g)
  (hdecision : Decision g.coordinator g.now g.supervisors c)

include hkept

theorem stop_proceed (hstop : c.stopRequested = g.coordinator.stopRequested) :
    (g.proceed c).dates.stop = g.dates.stop :=
  hkept.dates.stop.first_eq hstop

theorem ready_proceed : (g.proceed c).dates.ready = g.dates.ready :=
  hkept.dates.ready.first_eq (congrArg Coordinator.allStarted (supervisors_proceed g c))

theorem ended_proceed : (g.proceed c).dates.ended = g.dates.ended :=
  hkept.dates.ended.first_eq (congrArg Coordinator.allEnded (supervisors_proceed g c))

/-- The decision takes no time, and no supervisor ends by it. -/
theorem Asked.proceed {date : Option Instant} {t : Instant} (h : g.Asked date t) :
    (g.proceed c).Asked date t := by
  unfold Asked at h ⊢
  rw [ended_proceed hkept]
  exact h

theorem DrainedAt.proceed {d : Instant} (h : g.DrainedAt d)
    (hstop : c.stopRequested = g.coordinator.stopRequested)
    (hdrain : c.lifecycle.drain = g.coordinator.lifecycle.drain) : (g.proceed c).DrainedAt d := by
  unfold DrainedAt at h ⊢
  rw [stop_proceed hkept hstop, ready_proceed hkept]
  exact ⟨(hkept.dates.drain.first_eq hdrain).trans h.1, h.2⟩

/-- A worker could not be started: everything is asked for at once. -/
theorem fits_abort (h : g.Fits) {e : GatewayError} (hbefore : g.coordinator.stage = .starting)
    (hstarted : Coordinator.allStarted g.supervisors = true)
    (herror : Coordinator.startupError? g.supervisors = some e)
    (hafter : c = { g.coordinator with
      lifecycle := { drain := true, shutdown := true, kill := true }, stage := .aborting e }) :
    (g.proceed c).Fits := by
  unfold Fits at h
  rw [hbefore] at h
  obtain ⟨hdrain, hshutdown, hkill, hle, hready⟩ := h
  have hstage : (g.proceed c).coordinator.stage = .aborting e :=
    congrArg Coordinator.stage hafter
  obtain ⟨r, hr⟩ : ∃ r, g.dates.ready = some r :=
    Option.isSome_iff_exists.1 (hkept.dates.ready.isSome_eq.trans hstarted)
  -- The last start has become known just now.
  obtain rfl := hready r hr
  rw [Fits, hstage, supervisors_proceed]
  refine ⟨hstarted, herror, g.now, ?_, Nat.le_add_right _ _, ?_⟩
  · constructor
    · exact (ready_proceed hkept).trans hr
    · exact first_of_eq_none hdrain (by rw [hafter])
    · exact first_of_eq_none hshutdown (by rw [hafter])
    · exact first_of_eq_none hkill (by rw [hafter])
    · exact hle
  · intro s hs
    obtain ⟨t, ht, rfl⟩ := List.mem_map.1 hs
    obtain ⟨index, hindex⟩ := List.mem_iff_getElem?.1 ht
    obtain ⟨hreports, hsame, -⟩ := hkept.slots index t hindex
    exact hsame ▸ hreports.winding (by rw [hafter]) (by rw [hafter])

/-- The drain is asked for at the first instant at which the gateway has been asked to stop and all
workers have become ready. -/
theorem fits_draining (h : g.Fits) (hbefore : g.coordinator.stage = .running)
    (hasked : g.coordinator.stopRequested = true)
    (hafter : c = { g.coordinator with
      lifecycle := { g.coordinator.lifecycle with drain := true }
      stage := .draining (g.now + g.coordinator.patience) }) : (g.proceed c).Fits := by
  have hpatience : (g.proceed c).coordinator.patience = g.coordinator.patience := by
    subst hafter
    rfl
  have hstop : c.stopRequested = g.coordinator.stopRequested := by rw [hafter]
  unfold Fits at h
  rw [hbefore] at h
  obtain ⟨hdrain, hshutdown, hkill, hall, hlatest⟩ := h
  have hstage : (g.proceed c).coordinator.stage =
      .draining (g.now + g.coordinator.patience) := congrArg Coordinator.stage hafter
  obtain ⟨s, hs⟩ : ∃ s, g.dates.stop = some s :=
    Option.isSome_iff_exists.1 (hkept.dates.stop.isSome_eq.trans hasked)
  obtain ⟨r, hr⟩ : ∃ r, g.dates.ready = some r :=
    Option.isSome_iff_exists.1 (hkept.dates.ready.isSome_eq.trans hall.1)
  -- The present is the first instant at which both were so.
  have hmax : g.now = max s r := Nat.le_antisymm (hlatest s hs r hr)
    (Nat.max_le.2 ⟨hkept.dates.stop.le s hs, hkept.dates.ready.le r hr⟩)
  rw [Fits, hstage, hpatience, AllReady, supervisors_proceed]
  refine ⟨hall, g.now, ⟨?_, s, ?_, r, ?_, hmax⟩, rfl, Nat.le_add_right _ _, ?_, ?_⟩
  · exact first_of_eq_none hdrain (by rw [hafter])
  · exact (stop_proceed hkept hstop).trans hs
  · exact (ready_proceed hkept).trans hr
  · exact (hkept.dates.shutdown.first_eq (by rw [hafter])).trans hshutdown
  · exact (hkept.dates.kill.first_eq (by rw [hafter])).trans hkill

/-- No supervisor is left: what has not been asked for by now is not asked for any more. -/
theorem fits_stopped (h : g.Fits)
    (hbefore : (∃ deadline, g.coordinator.stage = .draining deadline ∨
      g.coordinator.stage = .forcing deadline) ∨ g.coordinator.stage = .killing)
    (hallEnded : Coordinator.allEnded g.supervisors = true)
    (hafter : c = { g.coordinator with stage := .stopped (.ok ()) }) : (g.proceed c).Fits := by
  have hpatience : (g.proceed c).coordinator.patience = g.coordinator.patience := by
    subst hafter
    rfl
  have hstop : c.stopRequested = g.coordinator.stopRequested := by rw [hafter]
  unfold Fits at h
  have hstage : (g.proceed c).coordinator.stage = .stopped (.ok ()) :=
    congrArg Coordinator.stage hafter
  have hshutdown' : (g.proceed c).dates.shutdown = g.dates.shutdown :=
    hkept.dates.shutdown.first_eq (by rw [hafter])
  have hkill' : (g.proceed c).dates.kill = g.dates.kill :=
    hkept.dates.kill.first_eq (by rw [hafter])
  have hdrained' {d : Instant} (h : g.DrainedAt d) : (g.proceed c).DrainedAt d :=
    h.proceed hkept hstop (by rw [hafter])
  rw [Fits, hstage, hpatience, AllReady, supervisors_proceed, hshutdown', hkill']
  -- The stage before says what has been asked for; the deadline of what has not is not over.
  obtain ⟨deadline, hdraining | hforcing⟩ | hkilling := hbefore
  · rw [hdraining] at h
    obtain ⟨hall, d, hdrained, rfl, hle, hshutdown, hkill⟩ := h
    exact ⟨hall, hallEnded, d, hdrained' hdrained, .inr ⟨hshutdown, .inl hle⟩,
      .inr ⟨hkill, .inl (Nat.le_add_right_of_le hle)⟩⟩
  · rw [hforcing] at h
    obtain ⟨hall, d, hdrained, rfl, hle, hshutdown, -, hkill⟩ := h
    exact ⟨hall, hallEnded, d, hdrained' hdrained, hshutdown.proceed hkept,
      .inr ⟨hkill, .inl hle⟩⟩
  · rw [hkilling] at h
    obtain ⟨hall, d, hdrained, ⟨hshutdown, -⟩, hkill, -⟩ := h
    exact ⟨hall, hallEnded, d, hdrained' hdrained, hshutdown.proceed hkept,
      hkill.proceed hkept⟩

include hdecision

/-- **When the coordinator goes on**, its new stage says what it says. -/
theorem Fits.proceed (h : g.Fits) : (g.proceed c).Fits := by
  obtain ⟨hpatience, hstop, -⟩ := lifecycle_of_decision hdecision
  have hpatience : (g.proceed c).coordinator.patience = g.coordinator.patience := hpatience
  have hended : Coordinator.allEnded g.supervisors = false → g.dates.ended = none := fun hleft =>
    (hleft ▸ hkept.dates.ended).none_of_false
  unfold Fits at h
  -- By the decision: it gives one of the dates its first value and leaves the others.
  cases hdecision with
  | abort e hbefore hstarted herror hafter =>
    exact fits_abort hkept h hbefore hstarted herror hafter
  | begin hbefore hstarted herror hafter =>
    rw [hbefore] at h
    obtain ⟨hdrain, hshutdown, hkill, hle, hready⟩ := h
    have hstage : (g.proceed c).coordinator.stage = .running := congrArg Coordinator.stage hafter
    rw [Fits, hstage, AllReady, supervisors_proceed, ready_proceed hkept]
    refine ⟨?_, ?_, ?_, ⟨hstarted, herror⟩, fun s _ r hr => ?_⟩
    · exact (hkept.dates.drain.first_eq (by rw [hafter])).trans hdrain
    · exact (hkept.dates.shutdown.first_eq (by rw [hafter])).trans hshutdown
    · exact (hkept.dates.kill.first_eq (by rw [hafter])).trans hkill
    · exact hready r hr ▸ Nat.le_max_right _ _
  | drain hbefore hasked hafter => exact fits_draining hkept h hbefore hasked hafter
  | shutdown deadline hbefore hleft hdue hafter =>
    rw [hbefore] at h
    obtain ⟨hall, d, hdrained, rfl, hle, hshutdown, hkill⟩ := h
    have hstage : (g.proceed c).coordinator.stage = .forcing (g.now + Coordinator.margin) :=
      congrArg Coordinator.stage hafter
    -- The deadline is reached, and the clock has not passed it.
    have hnow : g.now = d + g.coordinator.patience := Nat.le_antisymm hle hdue
    have hasked : (g.proceed c).dates.shutdown = some (d + g.coordinator.patience) :=
      hnow ▸ first_of_eq_none hshutdown (by rw [hafter])
    rw [Fits, hstage, hpatience, AllReady, supervisors_proceed, hasked]
    refine ⟨hall, d, hdrained.proceed hkept hstop (by rw [hafter]), ?_, ?_, ?_, rfl, ?_⟩
    · rw [hnow]
    · exact Nat.le_add_right _ _
    · -- Not all supervisors have ended so far, so they will not have ended before.
      refine .inl ⟨rfl, fun e he => ?_⟩
      rw [ended_proceed hkept, hended hleft] at he
      cases he
    · exact (hkept.dates.kill.first_eq (by rw [hafter])).trans hkill
  | kill deadline hbefore hleft hdue hafter =>
    rw [hbefore] at h
    obtain ⟨hall, d, hdrained, rfl, hle, hshutdown, hsome, hkill⟩ := h
    have hstage : (g.proceed c).coordinator.stage = .killing := congrArg Coordinator.stage hafter
    have hnow : g.now = d + g.coordinator.patience + Coordinator.margin :=
      Nat.le_antisymm hle hdue
    have hasked : (g.proceed c).dates.kill =
        some (d + g.coordinator.patience + Coordinator.margin) :=
      hnow ▸ first_of_eq_none hkill (by rw [hafter])
    have hbefore' : (g.proceed c).dates.shutdown = g.dates.shutdown :=
      hkept.dates.shutdown.first_eq (by rw [hafter])
    rw [Fits, hstage, hpatience, AllReady, supervisors_proceed, hasked, hbefore']
    refine ⟨hall, d, hdrained.proceed hkept hstop (by rw [hafter]),
      ⟨hshutdown.proceed hkept, hsome⟩, .inl ⟨rfl, fun e he => ?_⟩, rfl⟩
    rw [ended_proceed hkept, hended hleft] at he
    cases he
  | stop hbefore hallEnded hafter => exact fits_stopped hkept h hbefore hallEnded hafter
  -- No date is new here: the fault has been found before.
  | fail e hbefore hallEnded hafter =>
    rw [hbefore] at h
    obtain ⟨hstarted, herror, r, haborted, -⟩ := h
    have hstage : (g.proceed c).coordinator.stage = .stopped (.error e) :=
      congrArg Coordinator.stage hafter
    rw [Fits, hstage, supervisors_proceed]
    refine ⟨hstarted, herror, hallEnded, r, ?_⟩
    constructor
    · exact (ready_proceed hkept).trans haborted.ready
    · exact (hkept.dates.drain.first_eq (by rw [hafter])).trans haborted.drain
    · exact (hkept.dates.shutdown.first_eq (by rw [hafter])).trans haborted.shutdown
    · exact (hkept.dates.kill.first_eq (by rw [hafter])).trans haborted.kill
    · exact haborted.early

end Proceed

/-! ### All that happens -/

theorem Fits.start {config : Config} (h : Gateway.start config = .ok g) : g.Fits := by
  rw [eq_of_start h]
  refine ⟨rfl, rfl, rfl, Nat.zero_le _, fun r hr => ?_⟩
  change r ∈ first 0 none _ at hr
  obtain hr | rfl := mem_first hr
  · cases hr
  · rfl

/-- **Whatever happens**, the stage of the coordinator goes on to say what it says. -/
theorem Fits.after (h : g.Fits) (hkept : Kept patience g) {l : Label}
    (hl : g.isPossible l = true) : (g.after l).Fits := by
  cases l with
  | pass t => exact h.pass hkept hl
  | stop => exact h.goes hkept.goes_stop hkept.dates
  | exit index => exact h.goes (hkept.goes_inSlot hl) hkept.dates
  | hear index e => exact h.goes (hkept.goes_inSlot hl) hkept.dates
  | decide =>
    rw [Gateway.after]
    split
    · next c hnext => exact h.proceed hkept (decision_of_next hnext)
    · exact h

theorem kept_fits_follow (hkept : Kept patience g) (hfits : g.Fits) {ls : List Label}
    (h : g.follow ls = some g') : Kept patience g' ∧ g'.Fits := by
  induction ls generalizing g with
  | nil =>
    cases h
    exact ⟨hkept, hfits⟩
  | cons l ls ih =>
    rw [follow] at h
    split at h
    · next hl => exact ih (hkept.after hl) (hfits.after hkept hl) h
    · cases h

end Smpp.Gateway
