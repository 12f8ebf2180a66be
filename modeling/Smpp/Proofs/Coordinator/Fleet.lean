import Mathlib
import Smpp.Proofs.Coordinator.StartAndStop
import Smpp.Proofs.Supervisor.Rest

/-!
# A fleet is a gateway under way

A fleet does things in one order: at every instant at which the clock matters each supervisor looks
at the clock, and then all look how far the gateway has come, and the coordinator does the next
thing, until there is none. This is one of the orders in which things may happen to a gateway:
whatever becomes of a fleet becomes of the gateway with the same settings by one possible thing
after another (`Fleet.follow_of_run`), so what holds of every gateway under way holds of every fleet
(`Fleet.conducted_of_run`).

What a slot does, a gateway does (`Gateway.reaches_of_leads`). The clock of a fleet passes over
nothing that matters: when a fleet has settled, neither the coordinator nor a supervisor has
anything to do, and what they wait for is still to come (`Fleet.Settled`).
-/

namespace Smpp

namespace Gateway

variable {g g' g'' : Gateway}

/-! ### From one state to another -/

theorem follow_append (g : Gateway) (ls ls' : List Label) :
    g.follow (ls ++ ls') = (g.follow ls).bind fun g => g.follow ls' := by
  induction ls generalizing g with
  | nil => rfl
  | cons l ls ih =>
    rw [List.cons_append, follow, follow]
    split
    · exact ih _
    · rfl

/-- A gateway can come from one state to another. -/
def Reaches (g g' : Gateway) : Prop := ∃ ls, g.follow ls = some g'

theorem Reaches.refl (g : Gateway) : Reaches g g := ⟨[], rfl⟩

theorem Reaches.trans (h : Reaches g g') (h' : Reaches g' g'') : Reaches g g'' := by
  obtain ⟨ls, hls⟩ := h
  obtain ⟨ls', hls'⟩ := h'
  refine ⟨ls ++ ls', ?_⟩
  rw [follow_append, hls]
  exact hls'

theorem Reaches.single {l : Label} (hl : g.isPossible l = true) : Reaches g (g.after l) := by
  refine ⟨[l], ?_⟩
  rw [follow, if_pos hl]
  rfl

/-- The coordinator does what there is to do. -/
theorem reaches_proceed {c : Coordinator} (h : g.next = some c) : Reaches g (g.proceed c) := by
  have hreaches : Reaches g (g.after .decide) := .single (Option.isSome_of_eq_some h)
  rw [after, h] at hreaches
  exact hreaches

open Supervision (Leads)

variable {index : Nat} {s s' : Supervision}

theorem Reaches.inSlot {l : Supervision.Label} (hlocal : l.isLocal = true)
    (hs : g.slots[index]? = some s) (hl : s.isPossible l = true) :
    Reaches g (g.inSlot index l) := by
  cases l with
  | exit => exact .single (l := .exit index) (by rw [isPossible, hs]; exact hl)
  | hear e => exact .single (l := .hear index e) (by rw [isPossible, hs]; exact hl)
  | pass | ask => cases hlocal

/-- **What a slot does, the gateway does.** -/
theorem reaches_of_leads (hs : g.slots[index]? = some s) (h : Leads s s') :
    ∃ dates, Reaches g { g with slots := g.slots.set index s', dates } := by
  obtain ⟨ls, hlocal, hfollow⟩ := h
  -- On what happens in the slot; only the dates of the gateway tell it from where it began.
  induction ls generalizing g s with
  | nil =>
    cases hfollow
    obtain ⟨hlt, rfl⟩ := List.getElem?_eq_some_iff.1 hs
    rw [List.set_getElem_self]
    exact ⟨g.dates, .refl g⟩
  | cons l ls ih =>
    rw [Supervision.follow] at hfollow
    split at hfollow
    · next hl =>
      have hslot : (g.inSlot index l).slots = g.slots.set index (s.after l) := by
        obtain ⟨hlt, rfl⟩ := List.getElem?_eq_some_iff.1 hs
        exact List.modify_eq_set_get _ hlt
      have hs' : (g.inSlot index l).slots[index]? = some (s.after l) := by
        obtain ⟨hlt, -⟩ := List.getElem?_eq_some_iff.1 hs
        rw [hslot, List.getElem?_set_self hlt]
      obtain ⟨dates, hreaches⟩ := ih hs' (fun k hk => hlocal k (List.mem_cons_of_mem l hk)) hfollow
      rw [hslot, List.set_set] at hreaches
      exact ⟨dates, (Reaches.inSlot (hlocal l List.mem_cons_self) hs hl).trans hreaches⟩
    · cases hfollow

/-- What all slots do, one after another. -/
theorem reaches_of_forall_leads (done : List Supervision) {rest rest' : List Supervision}
    (h : List.Forall₂ Leads rest rest') (hslots : g.slots = done ++ rest) :
    ∃ dates, Reaches g { g with slots := done ++ rest', dates } := by
  -- On the slots: those in front have gone their way, those behind are still where they were.
  induction h generalizing g done with
  | nil =>
    rw [← hslots]
    exact ⟨g.dates, .refl g⟩
  | @cons s s' rest rest' hs _ ih =>
    have hget : g.slots[done.length]? = some s := by
      rw [hslots, List.getElem?_append_right (Nat.le_refl _), Nat.sub_self]
      rfl
    have hset : g.slots.set done.length s' = done ++ [s'] ++ rest := by
      rw [hslots, List.set_append_right _ _ (Nat.le_refl _), Nat.sub_self, List.append_assoc]
      rfl
    obtain ⟨dates, hreaches⟩ := reaches_of_leads hget hs
    rw [hset] at hreaches
    obtain ⟨dates', hreaches'⟩ :=
      @ih { g with slots := done ++ [s'] ++ rest, dates } (done ++ [s']) rfl
    have hdone : done ++ [s'] ++ rest' = done ++ s' :: rest' := List.append_assoc ..
    rw [hdone] at hreaches'
    exact ⟨dates', hreaches.trans hreaches'⟩

end Gateway

namespace Coordinator

variable {c : Coordinator} {now t u : Instant} {supervisors : List Supervisor}

/-! ### A coordinator that waits -/

/-- A coordinator with nothing to do waits for what is still to come. -/
theorem lt_wakeup_of_next (h : c.next now supervisors = none) (hu : u ∈ c.wakeup?) : now < u := by
  unfold wakeup? at hu
  unfold next at h
  cases hstage : c.stage with
  | draining deadline | forcing deadline =>
    rw [hstage] at h hu
    cases hu
    -- Otherwise the deadline would be over, and the coordinator would go on.
    by_contra hdue
    dsimp only at h
    rw [if_pos (Nat.le_of_not_lt hdue)] at h
    split at h <;> cases h
  | starting | running | killing | aborting | stopped =>
    rw [hstage] at hu
    cases hu

/-- It has nothing to do until then. -/
theorem next_of_late (h : c.next now supervisors = none) (hlate : ∀ u ∈ c.wakeup?, t < u) :
    c.next t supervisors = none := by
  unfold next at h ⊢
  unfold wakeup? at hlate
  cases hstage : c.stage with
  | draining deadline | forcing deadline =>
    rw [hstage] at h hlate
    dsimp only at h ⊢
    split at h
    · cases h
    · next hleft => rw [if_neg hleft, if_neg (Nat.not_le.2 (hlate deadline rfl))]
  | running =>
    rw [hstage] at h
    dsimp only at h ⊢
    split at h
    · cases h
    · next hasked => exact if_neg hasked
  | starting | killing | aborting =>
    rw [hstage] at h
    exact h
  | stopped => rfl

end Coordinator

namespace Fleet

open Gateway (Reaches)
open Supervision (Leads)

variable {f : Fleet} {g : Gateway} {t target : Instant}

/-! ### The state of a fleet -/

/-- A fleet, and a gateway in the same state. -/
structure Under (f : Fleet) (g : Gateway) : Prop where
  now : g.now = f.now
  coordinator : g.coordinator = f.coordinator
  slots : List.Forall₂ (Slot.Under f.now f.coordinator.lifecycle) f.slots g.slots

theorem Under.supervisors (h : f.Under g) : g.supervisors = f.slots.map Slot.supervisor := by
  unfold Gateway.supervisors
  have hslots := h.slots
  revert hslots
  generalize f.slots = slots, g.slots = ss
  intro hslots
  induction hslots with
  | nil => rfl
  | cons hslot _ ih => rw [List.map_cons, List.map_cons, hslot.tracks.supervisor, ih]

/-- A slot may become another while no time passes. -/
def Becomes (f : Fleet) (slot slot' : Slot) : Prop :=
  ∀ s, slot.Under f.now f.coordinator.lifecycle s →
    ∃ s', Leads s s' ∧ slot'.Under f.now f.coordinator.lifecycle s'

/-- **What the slots of a fleet do, a gateway does.** -/
theorem Under.become (h : f.Under g) {slots : List Slot}
    (hslots : List.Forall₂ f.Becomes f.slots slots) :
    ∃ g', Reaches g g' ∧ ({ f with slots } : Fleet).Under g' := by
  have hleads : ∃ ss, List.Forall₂ Leads g.slots ss ∧
      List.Forall₂ (Slot.Under f.now f.coordinator.lifecycle) slots ss := by
    have hunder := h.slots
    revert hslots hunder
    generalize f.slots = before, g.slots = ss
    intro hslots hunder
    induction hslots generalizing ss with
    | nil =>
      cases hunder
      exact ⟨[], .nil, .nil⟩
    | cons hslot _ ih =>
      cases hunder with
      | cons hs hss =>
        obtain ⟨s', hlead, hs'⟩ := hslot _ hs
        obtain ⟨ss', hleads, hss'⟩ := ih _ hss
        exact ⟨s' :: ss', .cons hlead hleads, .cons hs' hss'⟩
  obtain ⟨ss, hleads, hunder⟩ := hleads
  obtain ⟨dates, hreaches⟩ := Gateway.reaches_of_forall_leads [] hleads rfl
  exact ⟨_, hreaches, ⟨h.now, h.coordinator, hunder⟩⟩

theorem Under.map (h : f.Under g) {φ : Slot → Slot} (hφ : ∀ slot, f.Becomes slot (φ slot)) :
    ∃ g', Reaches g g' ∧ ({ f with slots := f.slots.map φ } : Fleet).Under g' :=
  h.become (List.forall₂_map_right_iff.2 (List.forall₂_same.2 fun slot _ => hφ slot))

theorem Under.modify (h : f.Under g) (worker : Nat) {φ : Slot → Slot}
    (hφ : ∀ slot, f.Becomes slot (φ slot)) :
    ∃ g', Reaches g g' ∧ ({ f with slots := f.slots.modify worker φ } : Fleet).Under g' := by
  have hrefl (slot : Slot) : f.Becomes slot slot := fun s hs => ⟨s, .refl s, hs⟩
  refine h.become ?_
  generalize f.slots = slots
  induction slots generalizing worker with
  | nil => cases worker <;> exact .nil
  | cons slot slots ih =>
    cases worker with
    | zero => exact .cons (hφ slot) (List.forall₂_same.2 fun slot _ => hrefl slot)
    | succ worker => exact .cons (hrefl slot) (ih worker)

theorem Under.look (h : f.Under g) : ∃ g', Reaches g g' ∧ f.look.Under g' :=
  h.map fun _ _ hs => hs.look

/-- The coordinator does the next thing. -/
theorem Under.decide (h : f.Under g) {c : Coordinator}
    (hnext : f.coordinator.next f.now (f.slots.map Slot.supervisor) = some c) :
    ∃ g', Reaches g g' ∧ ({ f with coordinator := c } : Fleet).Under g' := by
  rw [← h.supervisors, ← h.coordinator, ← h.now] at hnext
  -- The supervisors see what is asked for from then on, and nothing of it is taken back.
  obtain ⟨-, -, hdrain, hshutdown, hkill⟩ :=
    Gateway.lifecycle_of_decision (Gateway.decision_of_next hnext)
  rw [h.coordinator] at hdrain hshutdown hkill
  refine ⟨g.proceed c, Gateway.reaches_proceed hnext, ?_⟩
  refine ⟨h.now, rfl, List.forall₂_map_right_iff.2 (h.slots.imp fun slot s hs => ?_)⟩
  refine hs.ask (Gateway.isPossible_ask ?_ ?_ ?_) <;> rw [hs.tracks.lifecycle]
  · exact hdrain
  · exact hshutdown
  · exact hkill

/-- What is done at an instant is done step by step. -/
theorem Under.settle (h : f.Under g) : ∃ g', Reaches g g' ∧ f.settle.Under g' := by
  -- As the settling itself: all look, the coordinator does the next thing, and so on.
  fun_induction Fleet.settle f generalizing g with
  | case1 f c hnext ih =>
    obtain ⟨g₁, hlook, hunder₁⟩ := h.look
    obtain ⟨g₂, hdecide, hunder₂⟩ := hunder₁.decide hnext
    obtain ⟨g₃, hsettle, hunder₃⟩ := ih hunder₂
    exact ⟨g₃, (hlook.trans hdecide).trans hsettle, hunder₃⟩
  | case2 f hnext => exact h.look

/-! ### While nothing happens -/

/-- All that the clock is waited for. -/
def wakeups (f : Fleet) : List Instant :=
  f.coordinator.wakeup?.toList ++ f.slots.flatMap (·.supervisor.wakeup?.toList)

theorem mem_wakeups {u : Instant} : u ∈ f.wakeups ↔
    u ∈ f.coordinator.wakeup? ∨ ∃ slot ∈ f.slots, u ∈ slot.supervisor.wakeup? := by
  simp [wakeups]

/-- Neither the coordinator nor a supervisor has anything to do, and what they wait for is still to
come. -/
structure Settled (f : Fleet) : Prop where
  next : f.coordinator.next f.now (f.slots.map Slot.supervisor) = none
  still : ∀ slot ∈ f.slots, slot.supervisor.stage.IsStill f.coordinator.lifecycle
  waits : ∀ slot ∈ f.slots, slot.supervisor.Waits f.now

/-- **A fleet settles.** -/
theorem settled_settle (h : ∀ slot ∈ f.slots, slot.supervisor.Waits f.now) : f.settle.Settled := by
  have hwaits (f : Fleet) (h : ∀ slot ∈ f.slots, slot.supervisor.Waits f.now) :
      ∀ slot ∈ f.look.slots, slot.supervisor.Waits f.now := by
    intro slot hslot
    obtain ⟨slot, hmem, rfl⟩ := List.mem_map.1 hslot
    exact Slot.waits_look (h slot hmem)
  fun_induction Fleet.settle f with
  | case1 f c hnext ih => exact ih (hwaits f h)
  | case2 f hnext =>
    refine ⟨hnext, fun slot hslot => ?_, hwaits f h⟩
    obtain ⟨slot, -, rfl⟩ := List.mem_map.1 hslot
    exact Slot.isStill_look

theorem Settled.lt_of_mem (h : f.Settled) {u : Instant} (hu : u ∈ f.wakeups) : f.now < u := by
  obtain hu | ⟨slot, hslot, hu⟩ := mem_wakeups.1 hu
  · exact Coordinator.lt_wakeup_of_next h.next hu
  · exact (h.waits slot hslot).lt_wakeup hu

/-- All that is waited for is waited for no longer than until the clock matters next. -/
theorem Settled.exists_wakeup (h : f.Settled) {u : Instant} (hu : u ∈ f.wakeups) :
    ∃ t, f.wakeup? = some t ∧ t ≤ u := by
  have hmem : u ∈ f.wakeups.filter (f.now < ·) :=
    List.mem_filter.2 ⟨hu, decide_eq_true (h.lt_of_mem hu)⟩
  exact Instant.earliest_le hmem

/-- A fleet is still settled when the clock has moved and not come to anything. -/
theorem Settled.later (h : f.Settled) (hlate : ∀ u ∈ f.wakeups, target < u) :
    ({ f with now := target } : Fleet).Settled where
  next := Coordinator.next_of_late h.next fun u hu => hlate u (mem_wakeups.2 (.inl hu))
  still := h.still
  waits := fun slot hslot => (h.waits slot hslot).later fun u hu =>
    hlate u (mem_wakeups.2 (.inr ⟨slot, hslot, hu⟩))

/-- **The clock passes over nothing that matters.** -/
theorem Under.pass (h : f.Under g) (hsettled : f.Settled) (hle : f.now ≤ t)
    (ht : ∀ u ∈ f.wakeups, t ≤ u) :
    ∃ g', Reaches g g' ∧ ({ f with now := t } : Fleet).Under g' := by
  have hslots : List.Forall₂ (fun slot s => s.isPossible (.pass t) = true ∧
      slot.Under t f.coordinator.lifecycle (s.after (.pass t))) f.slots g.slots := by
    have hall : ∀ slot ∈ f.slots, slot ∈ f.slots := fun _ hslot => hslot
    refine ((List.forall₂_and_left _ _).2 ⟨hall, h.slots⟩).imp fun slot s ⟨hslot, hs⟩ => ?_
    exact hs.pass (hsettled.still slot hslot) hle fun u hu =>
      ht u (mem_wakeups.2 (.inr ⟨slot, hslot, hu⟩))
  have hpossible : g.isPossible (.pass t) = true := by
    have hnext : g.next = none := by
      rw [Gateway.next, h.supervisors, h.coordinator, h.now]
      exact hsettled.next
    rw [Gateway.isPossible, hnext, h.now, h.coordinator, decide_eq_true hle, Bool.and_eq_true,
      Bool.and_eq_true, Option.all_eq_true, List.all_eq_true]
    refine ⟨⟨rfl, fun u hu => decide_eq_true (ht u (mem_wakeups.2 (.inl hu)))⟩, ?_⟩
    exact ((List.forall₂_and_left _ _).1 hslots.flip).1
  have hunder : List.Forall₂ (Slot.Under t f.coordinator.lifecycle) f.slots
      (g.slots.map (·.after (.pass t))) :=
    List.forall₂_map_right_iff.2 (hslots.imp fun _ _ hs => hs.2)
  exact ⟨_, .single hpossible, ⟨rfl, h.coordinator, hunder⟩⟩

/-- **The clock comes to an instant that matters.** -/
theorem Under.tick (h : f.Under g) (hsettled : f.Settled) (ht : f.wakeup? = some t) :
    ∃ g', Reaches g g' ∧ (f.tick t).Under g' ∧ (f.tick t).Settled := by
  -- Nothing is waited for before the instant, so the clock can pass until then.
  have hnext : ∀ u ∈ f.wakeups, t ≤ u := by
    intro u hu
    obtain ⟨t', ht', hle⟩ := hsettled.exists_wakeup hu
    cases ht.symm.trans ht'
    exact hle
  obtain ⟨g₁, hpass, hunder₁⟩ :=
    h.pass hsettled (Nat.le_of_lt (Instant.lt_of_earliest_filter ht)) hnext
  obtain ⟨g₂, hclock, hunder₂⟩ :=
    hunder₁.map (φ := fun slot => slot.handle t f.coordinator.lifecycle .clock)
      fun _ _ hs => hs.handle List.mem_cons_self
  obtain ⟨g₃, hsettle, hunder₃⟩ := hunder₂.settle
  refine ⟨g₃, (hpass.trans hclock).trans hsettle, hunder₃, settled_settle fun slot hslot => ?_⟩
  obtain ⟨slot, hmem, rfl⟩ := List.mem_map.1 hslot
  exact Slot.waits_handle_clock (hsettled.waits slot hmem).interval

/-- **The clock stops before it matters.** -/
theorem Under.rest (h : f.Under g) (hsettled : f.Settled) (hle : f.now ≤ target)
    (hlate : ∀ t, f.wakeup? = some t → target < t) :
    ∃ g', Reaches g g' ∧ ({ f with now := target } : Fleet).Under g' ∧
      ({ f with now := target } : Fleet).Settled := by
  have hall : ∀ u ∈ f.wakeups, target < u := by
    intro u hu
    obtain ⟨t, ht, hle⟩ := hsettled.exists_wakeup hu
    exact Nat.lt_of_lt_of_le (hlate t ht) hle
  obtain ⟨g', hpass, hunder⟩ := h.pass hsettled hle fun u hu => Nat.le_of_lt (hall u hu)
  exact ⟨g', hpass, hunder, hsettled.later hall⟩

/-- **Time passes.** -/
theorem Under.advanceTo (h : f.Under g) (hsettled : f.Settled) (hle : f.now ≤ target) :
    ∃ g', Reaches g g' ∧ (f.advanceTo target).Under g' ∧ (f.advanceTo target).Settled := by
  fun_induction Fleet.advanceTo f target generalizing g with
  | case1 f t hwakeup htarget ih =>
    obtain ⟨g₁, htick, hunder₁, hsettled₁⟩ := h.tick hsettled hwakeup
    have hle₁ : (f.tick t).now ≤ target := by
      rw [Fleet.tick, now_settle]
      exact htarget
    obtain ⟨g₂, hadvance, hrest⟩ := ih hunder₁ hsettled₁ hle₁
    exact ⟨g₂, htick.trans hadvance, hrest⟩
  | case2 f t hwakeup hlate =>
    refine h.rest hsettled hle fun u hu => ?_
    cases hwakeup.symm.trans hu
    exact Nat.lt_of_not_le hlate
  | case3 f hwakeup => exact h.rest hsettled hle fun u hu => nomatch hwakeup.symm.trans hu

/-! ### The run -/

/-- What happens to the process of a worker leaves a settled fleet. -/
theorem Under.happen (h : f.Under g) (hsettled : f.Settled) (worker : Nat) {φ : Slot → Slot}
    (hφ : ∀ slot, f.Becomes slot (φ slot))
    (hwaits : ∀ slot : Slot, slot.supervisor.Waits f.now → (φ slot).supervisor.Waits f.now) :
    ∃ g', Reaches g g' ∧ (f.modify worker φ).Under g' ∧ (f.modify worker φ).Settled := by
  obtain ⟨g₁, hmodify, hunder₁⟩ := h.modify worker hφ
  obtain ⟨g₂, hsettle, hunder₂⟩ := hunder₁.settle
  refine ⟨g₂, hmodify.trans hsettle, hunder₂, settled_settle fun slot hslot => ?_⟩
  obtain ⟨i, hi⟩ := List.mem_iff_getElem?.1 hslot
  rw [List.getElem?_modify] at hi
  obtain ⟨before, hbefore, rfl⟩ := Option.map_eq_some_iff.1 hi
  have hbefore := hsettled.waits before (List.mem_of_getElem? hbefore)
  split
  · exact hwaits before hbefore
  · exact hbefore

/-- **What happens to a fleet happens to a gateway.** -/
theorem Under.step (h : f.Under g) (hsettled : f.Settled) (e : Event) :
    ∃ g', Reaches g g' ∧ (f.step e).Under g' ∧ (f.step e).Settled := by
  cases e with
  | advance span => exact h.advanceTo hsettled (Nat.le_add_right f.now span)
  | say worker lines =>
    exact h.happen hsettled worker (fun _ _ hs => hs.say lines) fun _ hs => Slot.waits_foldl hs _
  | crash worker =>
    refine h.happen hsettled worker (fun _ _ hs => hs.exit) fun slot hs => ?_
    have hexit : ({ slot with standIn := slot.standIn.exit.1 } : Slot).supervisor.Waits f.now := hs
    exact Slot.waits_foldl hexit _
  | stop =>
    have hstop : Reaches g (g.after .stop) := .single rfl
    obtain ⟨g', hsettle, hunder⟩ :=
      Under.settle (f := { f with coordinator := { f.coordinator with stopRequested := true } })
        (g := g.after .stop) ⟨h.now, by rw [Gateway.after, ← h.coordinator]; rfl, h.slots⟩
    exact ⟨g', hstop.trans hsettle, hunder, settled_settle hsettled.waits⟩

theorem Under.run (h : f.Under g) (hsettled : f.Settled) (events : List Event) :
    ∃ g', Reaches g g' ∧ (f.run events).Under g' := by
  induction events generalizing f g with
  | nil => exact ⟨g, .refl g, h⟩
  | cons e events ih =>
    obtain ⟨g₁, hstep, hunder, hsettled⟩ := h.step hsettled e
    obtain ⟨g₂, hrun, hunder⟩ := ih hunder hsettled
    exact ⟨g₂, hstep.trans hrun, hunder⟩

/-- With settings that are not refused, none of the periods is zero. -/
theorem pos_of_validate {config : Config} (h : config.validate = .ok ()) {setting : String × Nat}
    (hmem : setting ∈ config.positives) : 0 < setting.2 := by
  unfold Config.validate at h
  split at h
  · cases h
  split at h
  · cases h
  split at h
  · cases h
  split at h
  · cases h
  · next hnone =>
    have hne := List.find?_eq_none.1 hnone setting hmem
    exact Nat.pos_of_ne_zero fun hzero => hne (beq_iff_eq.2 hzero)

theorem eq_of_start {config : Config} {launches : Nat → List Launch}
    (h : Fleet.start config launches = .ok f) :
    config.validate = .ok () ∧
      f = ({ coordinator := { patience := config.drainGracePeriod + Coordinator.margin }
             slots := (List.range config.workerCount).map fun index =>
               Slot.start config 0 index (launches index) } : Fleet).settle := by
  unfold Fleet.start Coordinator.start at h
  cases hvalid : config.validate with
  | error e =>
    rw [hvalid] at h
    cases h
  | ok =>
    rw [hvalid] at h
    cases h
    exact ⟨rfl, rfl⟩

/-- **A fleet begins as a gateway does.** -/
theorem under_start {config : Config} {launches : Nat → List Launch}
    (h : Fleet.start config launches = .ok f) :
    ∃ g g', Gateway.start config = .ok g ∧ Reaches g g' ∧ f.Under g' ∧ f.Settled := by
  obtain ⟨hvalid, rfl⟩ := eq_of_start h
  obtain ⟨g, hstart⟩ := Gateway.start_of_validate hvalid
  have hg := Gateway.eq_of_start hstart
  -- Every slot is filled, and what its process does then is followed.
  choose history hleads hunder using fun index => Slot.under_start config 0 index (launches index)
  have hall : List.Forall₂ Leads g.slots ((List.range config.workerCount).map history) := by
    rw [hg]
    exact List.forall₂_map_left_iff.2 (List.forall₂_map_right_iff.2
      (List.forall₂_same.2 fun index _ => hleads index))
  obtain ⟨dates, hfill⟩ := Gateway.reaches_of_forall_leads [] hall rfl
  have hfilled : Under
      { coordinator := { patience := config.drainGracePeriod + Coordinator.margin }
        slots := (List.range config.workerCount).map fun index =>
          Slot.start config 0 index (launches index) }
      { g with slots := (List.range config.workerCount).map history, dates } := by
    refine ⟨by rw [hg]; rfl, by rw [hg]; rfl, ?_⟩
    exact List.forall₂_map_left_iff.2 (List.forall₂_map_right_iff.2
      (List.forall₂_same.2 fun index _ => hunder index))
  obtain ⟨g', hsettle, hunder'⟩ := hfilled.settle
  refine ⟨g, g', hstart, hfill.trans hsettle, hunder', settled_settle fun slot hslot => ?_⟩
  obtain ⟨index, -, rfl⟩ := List.mem_map.1 hslot
  have hinterval : ("health_interval", config.healthInterval) ∈ config.positives := by
    simp [Config.positives]
  exact Slot.waits_start (pos_of_validate hvalid hinterval) 0 index (launches index)

/-- **Every run of a fleet is a run of a gateway**: whatever the processes do that follow their
scripts, and whatever happens from outside, becomes of the gateway with the same settings by one
possible thing after another, with the same clock, coordinator and supervisors. -/
theorem follow_of_run {config : Config} {launches : Nat → List Launch}
    (h : Fleet.start config launches = .ok f) (events : List Event) :
    ∃ g ls g', Gateway.start config = .ok g ∧ g.follow ls = some g' ∧ (f.run events).Under g' := by
  obtain ⟨g, g₁, hstart, hreaches, hunder, hsettled⟩ := under_start h
  obtain ⟨g₂, hrun, hunder⟩ := hunder.run hsettled events
  obtain ⟨ls, hls⟩ := hreaches.trans hrun
  exact ⟨g, ls, g₂, hstart, hls, hunder⟩

/-- **Every fleet is conducted as a gateway**, and every slot of it is supervised. -/
theorem conducted_of_run {config : Config} {launches : Nat → List Launch}
    (h : Fleet.start config launches = .ok f) (events : List Event) :
    ∃ g, (f.run events).Under g ∧ g.Conducted config ∧ ∀ s ∈ g.slots, s.Supervised := by
  obtain ⟨g₀, ls, g, hstart, hfollow, hunder⟩ := follow_of_run h events
  obtain ⟨hkept, hfits⟩ := Gateway.kept_fits_follow (.start hstart) (.start hstart) hfollow
  refine ⟨g, hunder, Gateway.conducted_of_fits hkept hfits, fun s hs => ?_⟩
  obtain ⟨index, hindex⟩ := List.mem_iff_getElem?.1 hs
  obtain ⟨hreports, -⟩ := hkept.slots index s hindex
  exact hreports.kept.supervised

end Fleet

end Smpp
