import Mathlib
import Smpp.Proofs.Coordinator.Slots

/-!
# A gateway under way

A `Gateway` is a coordinator with the slots of its workers, each of them under supervision, and a
clock. What happens comes in any order (`Label`): something happens to one of the slots, the gateway
is asked to stop, the coordinator does the next thing that there is to do, time passes. Time passes
only while neither the coordinator nor a supervisor has anything to do, and not beyond an instant
for which one of them waits (`isPossible`).

The gateway writes down when what a reader may want to know came to be so (`Dates`); the coordinator
never looks at that.

`Kept` is what every thing that happens preserves of the slots and of the dates (`Kept.after`): each
date stands for a condition that is never taken back.
-/

namespace Smpp

/-- When things first came to be so. -/
structure Dates where
  /-- The gateway had been asked to stop. -/
  stop : Option Instant := none
  /-- It was known of every worker what had become of its first start. -/
  ready : Option Instant := none
  /-- The workers had been asked to drain, -/
  drain : Option Instant := none
  /-- to shut down, -/
  shutdown : Option Instant := none
  /-- and to end at once. -/
  kill : Option Instant := none
  /-- Every supervisor had ended. -/
  ended : Option Instant := none
  deriving DecidableEq, Repr

/-- A coordinator with its slots. -/
structure Gateway where
  now : Instant := 0
  coordinator : Coordinator
  slots : List Supervision
  dates : Dates := {}

namespace Gateway

/-- What happens to a gateway. -/
inductive Label where
  /-- Time passes until an instant. -/
  | pass (t : Instant)
  /-- The gateway is asked to stop. -/
  | stop
  /-- The process in a slot exits by itself. -/
  | exit (index : Nat)
  /-- The supervisor of a slot hears of something. -/
  | hear (index : Nat) (e : Supervisor.Event)
  /-- The coordinator does the next thing. -/
  | decide
  deriving DecidableEq, Repr

/-- The supervisors, in the order of their slots. -/
def supervisors (g : Gateway) : List Supervisor := g.slots.map Supervision.supervisor

/-- What the coordinator would do next. -/
def next (g : Gateway) : Option Coordinator := g.coordinator.next g.now g.supervisors

/-- When something first came to be so, if it may have come to be so now. -/
def first (now : Instant) (date : Option Instant) (holds : Bool) : Option Instant :=
  date.or (if holds then some now else none)

/-- Writes down what has come to be so. -/
def note (g : Gateway) : Gateway :=
  { g with
    dates :=
      { stop := first g.now g.dates.stop g.coordinator.stopRequested
        ready := first g.now g.dates.ready (Coordinator.allStarted g.supervisors)
        drain := first g.now g.dates.drain g.coordinator.lifecycle.drain
        shutdown := first g.now g.dates.shutdown g.coordinator.lifecycle.shutdown
        kill := first g.now g.dates.kill g.coordinator.lifecycle.kill
        ended := first g.now g.dates.ended (Coordinator.allEnded g.supervisors) } }

/-- A gateway whose clock begins with the start of its workers. -/
def start (config : Config) : Except GatewayError Gateway := do
  let coordinator ← Coordinator.start config
  let slots := (List.range config.workerCount).map fun index => Supervision.start config index 0
  return note { coordinator, slots }

/-- Whether something can happen. -/
def isPossible (g : Gateway) : Label → Bool
  | .pass t =>
    decide (g.now ≤ t) && g.next.isNone && g.coordinator.wakeup?.all (t ≤ ·) &&
      g.slots.all (·.isPossible (.pass t))
  | .stop => true
  | .exit index => g.slots[index]?.any (·.isPossible .exit)
  | .hear index e => g.slots[index]?.any (·.isPossible (.hear e))
  | .decide => g.next.isSome

/-- Something happens to a slot. -/
def inSlot (g : Gateway) (index : Nat) (l : Supervision.Label) : Gateway :=
  note { g with slots := g.slots.modify index (·.after l) }

/-- The coordinator has gone on, and the supervisors can see how far. -/
def proceed (g : Gateway) (c : Coordinator) : Gateway :=
  note { g with coordinator := c, slots := g.slots.map (·.after (.ask c.lifecycle)) }

/-- What becomes of a gateway by what happens to it. -/
def after (g : Gateway) : Label → Gateway
  | .pass t => { g with now := t, slots := g.slots.map (·.after (.pass t)) }
  | .stop => note { g with coordinator := { g.coordinator with stopRequested := true } }
  | .exit index => g.inSlot index .exit
  | .hear index e => g.inSlot index (.hear e)
  | .decide =>
    match g.next with
    | some c => g.proceed c
    | none => g

/-- What becomes of a gateway by one thing after another, if each of them can happen. -/
def follow (g : Gateway) : List Label → Option Gateway
  | [] => some g
  | l :: ls => if g.isPossible l then (g.after l).follow ls else none

variable {g : Gateway}

/-! ### Dates -/

/-- A date says whether a condition holds, and it is past. -/
structure Dated (now : Instant) (date : Option Instant) (holds : Bool) : Prop where
  isSome_eq : date.isSome = holds
  le : ∀ t ∈ date, t ≤ now

section Dates

variable {now t : Instant} {date : Option Instant} {holds holds' : Bool}

theorem first_of_isSome (h : date.isSome = true) : first now date holds = date :=
  Option.or_of_isSome h

theorem mem_first (h : t ∈ first now date holds) : t ∈ date ∨ t = now := by
  unfold first at h
  cases date with
  | some u => exact .inl h
  | none =>
    rw [Option.none_or] at h
    split at h
    · exact .inr (Option.some.inj h).symm
    · cases h

/-- A condition that still holds, or still does not, has the same date. -/
theorem Dated.first_eq (h : Dated now date holds) (hsame : holds' = holds) :
    first now date holds' = date := by
  cases date with
  | some u => rfl
  | none =>
    rw [hsame, ← h.isSome_eq]
    rfl

/-- What comes to be so has the present as its date. -/
theorem first_of_eq_none (hdate : date = none) (h : holds = true) :
    first now date holds = some now := by
  rw [hdate, h]
  rfl

/-- A condition that is never taken back is dated by when it first held. -/
theorem Dated.first (h : Dated now date holds) (himp : holds = true → holds' = true) :
    Dated now (Gateway.first now date holds') holds' where
  isSome_eq := by
    cases date with
    | some u => exact (himp h.isSome_eq.symm).symm
    | none => cases holds' <;> rfl
  le := by
    intro t ht
    obtain ht | rfl := mem_first ht
    · exact h.le t ht
    · exact Nat.le_refl _

theorem Dated.none_of_false (h : Dated now date false) : date = none :=
  Option.not_isSome_iff_eq_none.1 (by rw [h.isSome_eq]; exact Bool.false_ne_true)

theorem Dated.mono (h : Dated now date holds) {now' : Instant} (hle : now ≤ now') :
    Dated now' date holds :=
  ⟨h.isSome_eq, fun t ht => Nat.le_trans (h.le t ht) hle⟩

end Dates

/-- Every date stands for its condition. -/
structure Agree (g : Gateway) : Prop where
  stop : Dated g.now g.dates.stop g.coordinator.stopRequested
  ready : Dated g.now g.dates.ready (Coordinator.allStarted g.supervisors)
  drain : Dated g.now g.dates.drain g.coordinator.lifecycle.drain
  shutdown : Dated g.now g.dates.shutdown g.coordinator.lifecycle.shutdown
  kill : Dated g.now g.dates.kill g.coordinator.lifecycle.kill
  ended : Dated g.now g.dates.ended (Coordinator.allEnded g.supervisors)

/-! ### What supervisors do not take back -/

/-- What is known of a supervisor stays known. -/
structure Further (s s' : Supervisor) : Prop where
  startup : s.startup.isSome = true → s'.startup = s.startup
  ended : s.hasEnded = true → s'.hasEnded = true

theorem Further.refl (s : Supervisor) : Further s s := ⟨fun _ => rfl, id⟩

variable {ss ss' : List Supervisor}

theorem allStarted_mono (h : List.Forall₂ Further ss ss')
    (hall : Coordinator.allStarted ss = true) : Coordinator.allStarted ss' = true := by
  unfold Coordinator.allStarted at hall ⊢
  induction h with
  | nil => rfl
  | @cons s s' ss ss' hs _ ih =>
    rw [List.all_cons, Bool.and_eq_true] at hall ⊢
    refine ⟨?_, ih hall.2⟩
    rw [hs.startup hall.1]
    exact hall.1

theorem allEnded_mono (h : List.Forall₂ Further ss ss') (hall : Coordinator.allEnded ss = true) :
    Coordinator.allEnded ss' = true := by
  unfold Coordinator.allEnded at hall ⊢
  induction h with
  | nil => rfl
  | cons hs _ ih =>
    rw [List.all_cons, Bool.and_eq_true] at hall ⊢
    exact ⟨hs.ended hall.1, ih hall.2⟩

/-- Once all first starts are known, so is the fault of the first that failed. -/
theorem startupError?_eq (h : List.Forall₂ Further ss ss')
    (hall : Coordinator.allStarted ss = true) :
    Coordinator.startupError? ss' = Coordinator.startupError? ss := by
  unfold Coordinator.allStarted at hall
  unfold Coordinator.startupError?
  induction h with
  | nil => rfl
  | cons hs _ ih =>
    rw [List.all_cons, Bool.and_eq_true] at hall
    rw [List.findSome?_cons, List.findSome?_cons, hs.startup hall.1, ih hall.2]

theorem further_modify {index : Nat} {l : Supervision.Label}
    (h : ∀ s, g.slots[index]? = some s → Further s.supervisor (s.after l).supervisor) :
    List.Forall₂ Further g.supervisors
      ((g.slots.modify index (·.after l)).map Supervision.supervisor) := by
  unfold supervisors
  revert h
  generalize g.slots = slots
  intro h
  induction slots generalizing index with
  | nil => cases index <;> exact .nil
  | cons s slots ih =>
    cases index with
    | zero =>
      refine .cons (h s rfl) ?_
      exact List.forall₂_same.2 fun s _ => .refl s
    | succ index => exact .cons (.refl _) (ih fun t ht => h t ht)

/-! ### What is preserved -/

/-- **What holds of a gateway** at any time: its slots are in order, and its dates agree. -/
structure Kept (patience : Span) (g : Gateway) : Prop where
  patience_eq : g.coordinator.patience = patience
  slots : ∀ (index : Nat) (s : Supervision), g.slots[index]? = some s →
    s.Reports index ∧ s.now = g.now ∧ s.lifecycle = g.coordinator.lifecycle
  dates : g.Agree

variable {patience : Span}

/-- What the coordinator does next. -/
inductive Decision (c : Coordinator) (now : Instant) (ss : List Supervisor) (d : Coordinator) :
    Prop where
  /-- A worker could not be started. -/
  | abort (e : GatewayError) (before : c.stage = .starting)
      (started : Coordinator.allStarted ss = true)
      (failed : Coordinator.startupError? ss = some e)
      (after : d = { c with
        lifecycle := { drain := true, shutdown := true, kill := true }, stage := .aborting e })
  /-- All workers could. -/
  | begin (before : c.stage = .starting) (started : Coordinator.allStarted ss = true)
      (failed : Coordinator.startupError? ss = none) (after : d = { c with stage := .running })
  /-- The gateway has been asked to stop. -/
  | drain (before : c.stage = .running) (asked : c.stopRequested = true)
      (after : d = { c with
        lifecycle := { c.lifecycle with drain := true }, stage := .draining (now + c.patience) })
  /-- Some worker is left behind the grace period. -/
  | shutdown (deadline : Instant) (before : c.stage = .draining deadline)
      (left : Coordinator.allEnded ss = false) (due : deadline ≤ now)
      (after : d = { c with
        lifecycle := { c.lifecycle with shutdown := true }
        stage := .forcing (now + Coordinator.margin) })
  /-- Some worker is left behind the shutdown. -/
  | kill (deadline : Instant) (before : c.stage = .forcing deadline)
      (left : Coordinator.allEnded ss = false) (due : deadline ≤ now)
      (after : d = { c with lifecycle := { c.lifecycle with kill := true }, stage := .killing })
  /-- No worker is left after the stop. -/
  | stop (before : (∃ deadline, c.stage = .draining deadline ∨ c.stage = .forcing deadline) ∨
        c.stage = .killing)
      (ended : Coordinator.allEnded ss = true) (after : d = { c with stage := .stopped (.ok ()) })
  /-- No worker is left after the fault. -/
  | fail (e : GatewayError) (before : c.stage = .aborting e)
      (ended : Coordinator.allEnded ss = true)
      (after : d = { c with stage := .stopped (.error e) })

/-- **The coordinator does one of these things**, or nothing. -/
theorem decision_of_next {c d : Coordinator} {now : Instant} {ss : List Supervisor}
    (h : c.next now ss = some d) : Decision c now ss d := by
  -- By the stage, from the start to the end, and in each by the guards in the order in which they
  -- are looked at: what has ended goes before what is due.
  unfold Coordinator.next at h
  split at h
  · next hstage =>
    -- The workers are waited for, and one that did not start is a fault.
    split at h
    · next hstarted =>
      split at h
      · next e herror =>
        cases h
        exact .abort e hstage hstarted herror rfl
      · next herror =>
        cases h
        exact .begin hstage hstarted herror rfl
    · cases h
  · next hstage =>
    split at h
    · next hstop =>
      cases h
      exact .drain hstage hstop rfl
    · cases h
  · next deadline hstage =>
    -- Within the grace of the drain.
    split at h
    · next hended =>
      cases h
      exact .stop (.inl ⟨deadline, .inl hstage⟩) hended rfl
    · next hended =>
      split at h
      · next hdue =>
        cases h
        exact .shutdown deadline hstage (Bool.eq_false_iff.2 hended) hdue rfl
      · cases h
  · next deadline hstage =>
    -- Within the grace of the shutdown.
    split at h
    · next hended =>
      cases h
      exact .stop (.inl ⟨deadline, .inr hstage⟩) hended rfl
    · next hended =>
      split at h
      · next hdue =>
        cases h
        exact .kill deadline hstage (Bool.eq_false_iff.2 hended) hdue rfl
      · cases h
  -- From here on nothing is due any more; the exits are waited for, without a limit.
  · next hstage =>
    split at h
    · next hended =>
      cases h
      exact .stop (.inr hstage) hended rfl
    · cases h
  · next e hstage =>
    split at h
    · next hended =>
      cases h
      exact .fail e hstage hended rfl
    · cases h
  · cases h

/-- The coordinator takes back nothing that it has asked for, and stays the same coordinator. -/
theorem lifecycle_of_decision {c d : Coordinator} {now : Instant} {ss : List Supervisor}
    (h : Decision c now ss d) :
    d.patience = c.patience ∧ d.stopRequested = c.stopRequested ∧
      (c.lifecycle.drain = true → d.lifecycle.drain = true) ∧
      (c.lifecycle.shutdown = true → d.lifecycle.shutdown = true) ∧
      (c.lifecycle.kill = true → d.lifecycle.kill = true) := by
  cases h with
  | abort e _ _ _ hafter => subst hafter; exact ⟨rfl, rfl, fun _ => rfl, fun _ => rfl, fun _ => rfl⟩
  | begin _ _ _ hafter => subst hafter; exact ⟨rfl, rfl, id, id, id⟩
  | drain _ _ hafter => subst hafter; exact ⟨rfl, rfl, fun _ => rfl, id, id⟩
  | shutdown _ _ _ _ hafter => subst hafter; exact ⟨rfl, rfl, id, fun _ => rfl, id⟩
  | kill _ _ _ _ hafter => subst hafter; exact ⟨rfl, rfl, id, id, fun _ => rfl⟩
  | stop _ _ hafter => subst hafter; exact ⟨rfl, rfl, id, id, id⟩
  | fail _ _ _ hafter => subst hafter; exact ⟨rfl, rfl, id, id, id⟩

theorem Dated.never (now : Instant) : Dated now none false := ⟨rfl, fun _ h => nomatch h⟩

/-- What is written down for the first time agrees. -/
theorem agree_note (h : g.dates = {}) : Agree (note g) := by
  have hfirst (holds : Bool) : Dated g.now (first g.now none holds) holds :=
    (Dated.never g.now).first fun h => nomatch h
  unfold note
  rw [h]
  exact ⟨hfirst _, hfirst _, hfirst _, hfirst _, hfirst _, hfirst _⟩

theorem start_of_validate {config : Config} (h : config.validate = .ok ()) :
    ∃ g, start config = .ok g := by
  unfold start Coordinator.start
  rw [h]
  exact ⟨_, rfl⟩

theorem eq_of_start {config : Config} (h : start config = .ok g) :
    g = note
      { coordinator := { patience := config.drainGracePeriod + Coordinator.margin }
        slots := (List.range config.workerCount).map
          fun index => Supervision.start config index 0 } := by
  unfold start Coordinator.start at h
  split at h <;> cases h
  rfl

theorem Kept.start {config : Config} (h : start config = .ok g) :
    Kept (config.drainGracePeriod + Coordinator.margin) g := by
  rw [eq_of_start h]
  refine ⟨rfl, fun index s hs => ?_, agree_note rfl⟩
  obtain ⟨i, hi, rfl⟩ := Option.map_eq_some_iff.1 ((List.getElem?_map ..).symm.trans hs)
  obtain ⟨-, rfl⟩ := List.getElem?_eq_some_iff.1 hi
  rw [List.getElem_range]
  exact ⟨.start config index, rfl, rfl⟩

/-- What happens to a slot makes its supervisor take nothing back. -/
theorem Kept.further_inSlot (h : Kept patience g) {index : Nat} {l : Supervision.Label}
    (hl : g.slots[index]?.any (·.isPossible l) = true) :
    List.Forall₂ Further g.supervisors (g.inSlot index l).supervisors := by
  refine further_modify fun s hs => ⟨fun hknown => ?_, fun hended => ?_⟩
  · rw [hs] at hl
    exact Supervision.startup_after (h.slots index s hs).1.kept hl hknown
  · exact Supervision.hasEnded_after hended l

/-- Something happens to a slot. -/
theorem Kept.inSlot (h : Kept patience g) {index : Nat} {l : Supervision.Label}
    (hl : g.slots[index]?.any (·.isPossible l) = true)
    (hown : ∀ s : Supervision, (s.after l).now = s.now ∧ (s.after l).lifecycle = s.lifecycle) :
    Kept patience (g.inSlot index l) := by
  have hfurther := h.further_inSlot hl
  refine ⟨h.patience_eq, fun i s hs => ?_, ?_⟩
  · change (g.slots.modify index (·.after l))[i]? = some s at hs
    rw [List.getElem?_modify] at hs
    obtain ⟨t, ht, rfl⟩ := Option.map_eq_some_iff.1 hs
    obtain ⟨hreports, hnow, hlifecycle⟩ := h.slots i t ht
    split
    · next heq =>
      subst heq
      rw [ht] at hl
      exact ⟨hreports.after hl, (hown t).1.trans hnow, (hown t).2.trans hlifecycle⟩
    · exact ⟨hreports, hnow, hlifecycle⟩
  · -- Only what supervisors report can have come to be so.
    exact ⟨h.dates.stop.first id, h.dates.ready.first (allStarted_mono hfurther),
      h.dates.drain.first id, h.dates.shutdown.first id, h.dates.kill.first id,
      h.dates.ended.first (allEnded_mono hfurther)⟩

/-- What concerns all slots alike changes no supervisor. -/
theorem supervisors_map {f : Supervision → Supervision}
    (hf : ∀ s, (f s).supervisor = s.supervisor) :
    (g.slots.map f).map Supervision.supervisor = g.supervisors := by
  rw [List.map_map]
  exact List.map_congr_left fun s _ => hf s

theorem Kept.pass (h : Kept patience g) {t : Instant} (ht : g.isPossible (.pass t) = true) :
    Kept patience (g.after (.pass t)) := by
  rw [isPossible, Bool.and_eq_true, Bool.and_eq_true, Bool.and_eq_true] at ht
  obtain ⟨⟨⟨hle, -⟩, -⟩, hslots⟩ := ht
  have hle : g.now ≤ t := of_decide_eq_true hle
  refine ⟨h.patience_eq, fun index s hs => ?_, ?_⟩
  · obtain ⟨u, hu, rfl⟩ := Option.map_eq_some_iff.1 ((List.getElem?_map ..).symm.trans hs)
    obtain ⟨hreports, -, hlifecycle⟩ := h.slots index u hu
    exact ⟨hreports.after (List.all_eq_true.1 hslots u (List.mem_of_getElem? hu)), rfl, hlifecycle⟩
  · have hsame : (g.after (.pass t)).supervisors = g.supervisors := supervisors_map fun _ => rfl
    refine ⟨h.dates.stop.mono hle, ?_, h.dates.drain.mono hle, h.dates.shutdown.mono hle,
      h.dates.kill.mono hle, ?_⟩ <;> rw [hsame]
    · exact h.dates.ready.mono hle
    · exact h.dates.ended.mono hle

theorem Kept.stop (h : Kept patience g) : Kept patience (g.after .stop) :=
  ⟨h.patience_eq, h.slots, h.dates.stop.first fun _ => rfl, h.dates.ready.first id,
    h.dates.drain.first id, h.dates.shutdown.first id, h.dates.kill.first id,
    h.dates.ended.first id⟩

/-- The gateway may ask for more, as it has not taken anything back. -/
theorem isPossible_ask {s : Supervision} {l : Lifecycle}
    (hdrain : s.lifecycle.drain = true → l.drain = true)
    (hshutdown : s.lifecycle.shutdown = true → l.shutdown = true)
    (hkill : s.lifecycle.kill = true → l.kill = true) : s.isPossible (.ask l) = true := by
  have himp {a b : Bool} (h : a = true → b = true) : (!a || b) = true := by
    cases a with
    | true => exact h rfl
    | false => rfl
  rw [Supervision.isPossible, himp hdrain, himp hshutdown, himp hkill]
  rfl

/-- The coordinator goes on. -/
theorem Kept.proceed (h : Kept patience g) {c : Coordinator}
    (hdecision : Decision g.coordinator g.now g.supervisors c) : Kept patience (g.proceed c) := by
  obtain ⟨hpatience, hstop, hdrain, hshutdown, hkill⟩ := lifecycle_of_decision hdecision
  have hsame : (g.slots.map (·.after (.ask c.lifecycle))).map Supervision.supervisor =
      g.supervisors := supervisors_map fun _ => rfl
  refine ⟨hpatience.trans h.patience_eq, fun index s hs => ?_, ?_⟩
  · obtain ⟨u, hu, rfl⟩ := Option.map_eq_some_iff.1 ((List.getElem?_map ..).symm.trans hs)
    obtain ⟨hreports, hnow, hlifecycle⟩ := h.slots index u hu
    -- Every slot had seen as much as the coordinator had asked for.
    rw [← hlifecycle] at hdrain hshutdown hkill
    exact ⟨hreports.after (isPossible_ask hdrain hshutdown hkill), hnow, rfl⟩
  · exact ⟨h.dates.stop.first hstop.trans,
      h.dates.ready.first (congrArg Coordinator.allStarted hsame).trans,
      h.dates.drain.first hdrain, h.dates.shutdown.first hshutdown, h.dates.kill.first hkill,
      h.dates.ended.first (congrArg Coordinator.allEnded hsame).trans⟩

/-- **What holds of a gateway is preserved** by whatever happens to it. -/
theorem Kept.after (h : Kept patience g) {l : Label} (hl : g.isPossible l = true) :
    Kept patience (g.after l) := by
  cases l with
  | pass t => exact h.pass hl
  | stop => exact h.stop
  | exit index => exact h.inSlot hl fun s => ⟨rfl, rfl⟩
  | hear index e =>
    exact h.inSlot hl fun s => ⟨Supervision.now_hear s e, Supervision.lifecycle_hear s e⟩
  | decide =>
    rw [Gateway.after]
    split
    · next c hnext => exact h.proceed (decision_of_next hnext)
    · exact h

end Gateway

end Smpp
