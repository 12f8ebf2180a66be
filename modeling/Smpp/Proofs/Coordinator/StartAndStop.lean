import Mathlib
import Smpp.Proofs.Coordinator.Stages

/-!
# How a gateway starts and stops

`conducted_of_follow` reads off what the stages of a coordinator say of its dates how a gateway that
fails to start ends, and in which order and when it stops otherwise.
-/

namespace Smpp.Gateway

variable {g g' : Gateway} {patience : Span}

/-- The fault of the coordinator is that of the first worker that could not be started. -/
theorem exists_of_startupError? {ss : List Supervisor} {e : GatewayError}
    (hstarted : Coordinator.allStarted ss = true)
    (h : Coordinator.startupError? ss = some e) :
    ∃ before s after, ss = before ++ s :: after ∧ s.startup = some (.error e) ∧
      ∀ r ∈ before, r.startup = some (.ok ()) := by
  obtain ⟨before, s, after, rfl, hs, hbefore⟩ := List.findSome?_eq_some_iff.1 h
  refine ⟨before, s, after, rfl, ?_, fun r hr => ?_⟩
  · split at hs
    · next heq =>
      cases hs
      exact heq
    · cases hs
    · cases hs
  · have hknown := List.all_eq_true.1 hstarted r (List.mem_append_left _ hr)
    have hok := hbefore r hr
    split at hok
    · cases hok
    · next heq => exact heq
    · next heq =>
      rw [heq] at hknown
      cases hknown

/-- If no fault is found, every worker was started. -/
theorem AllReady.startup_eq (h : g.AllReady) {s : Supervisor} (hs : s ∈ g.supervisors) :
    s.startup = some (.ok ()) := by
  have hknown := List.all_eq_true.1 h.1 s hs
  have hok := List.findSome?_eq_none_iff.1 h.2 s hs
  split at hok
  · cases hok
  · next heq => exact heq
  · next heq =>
    rw [heq] at hknown
    cases hknown

/-- A gateway that was not kept from starting asks for one stage of stopping after the other, each
in time and only if it is needed. -/
structure Stages (patience : Span) (g : Gateway) : Prop where
  /-- The drain is asked for at the later of the stop and the readiness of all. -/
  drain : (∃ s ∈ g.dates.stop, ∃ r ∈ g.dates.ready, g.dates.drain = some (max s r)) ∨
    g.dates.drain = none ∧ ∀ s ∈ g.dates.stop, ∀ r ∈ g.dates.ready, g.now ≤ max s r
  /-- Nothing else is asked for before. -/
  later : g.dates.drain = none → g.dates.shutdown = none ∧ g.dates.kill = none
  /-- The shutdown is asked for if a supervisor is left when the patience with the drain is over, -/
  shutdown : ∀ d ∈ g.dates.drain, g.Asked g.dates.shutdown (d + patience)
  /-- and the kill if one is left when the patience with the shutdown is. -/
  kill : ∀ d ∈ g.dates.drain, g.Asked g.dates.kill (d + patience + Coordinator.margin)

theorem Stages.of_none (hdrain : g.dates.drain = none) (hshutdown : g.dates.shutdown = none)
    (hkill : g.dates.kill = none)
    (hnow : ∀ s ∈ g.dates.stop, ∀ r ∈ g.dates.ready, g.now ≤ max s r) : g.Stages patience where
  drain := .inr ⟨hdrain, hnow⟩
  later := fun _ => ⟨hshutdown, hkill⟩
  shutdown := by
    intro d hd
    cases hd.symm.trans hdrain
  kill := by
    intro d hd
    cases hd.symm.trans hdrain

theorem Stages.of_drainedAt {d : Instant} (hdrained : g.DrainedAt d)
    (hshutdown : g.Asked g.dates.shutdown (d + patience))
    (hkill : g.Asked g.dates.kill (d + patience + Coordinator.margin)) : g.Stages patience := by
  obtain ⟨hdrain, s, hs, r, hr, rfl⟩ := hdrained
  refine ⟨.inl ⟨s, hs, r, hr, hdrain⟩, fun hnone => ?_, fun d hd => ?_, fun d hd => ?_⟩
  · cases hdrain.symm.trans hnone
  · cases hdrain.symm.trans hd
    exact hshutdown
  · cases hdrain.symm.trans hd
    exact hkill

/-- A gateway **starts and stops** as it should. -/
structure Conducted (config : Config) (g : Gateway) : Prop where
  /-- If it ends with a fault, then it is the fault of a worker that could not be started, all those
  before it could, and no supervisor is left. -/
  failed : ∀ e, g.coordinator.result? = some (.error e) →
    (∃ before s after reason, g.supervisors = before ++ s :: after ∧
      s.startup = some (.error e) ∧ (∀ r ∈ before, r.startup = some (.ok ())) ∧
      e = .workerStartup before.length reason) ∧
      ∀ s ∈ g.supervisors, s.hasEnded = true
  /-- If it ends without a fault, then it had been asked to stop, every worker had become ready at
  first, and no supervisor is left. -/
  succeeded : g.coordinator.result? = some (.ok ()) →
    g.dates.stop.isSome = true ∧
      ∀ s ∈ g.supervisors, s.startup = some (.ok ()) ∧ s.hasEnded = true
  /-- If a worker could not be started, everything is asked for at the instant at which it is known
  of every worker what became of its first start, and the gateway has ended, with a fault, in the
  time of two starts. -/
  aborted : (∃ s ∈ g.supervisors, ∃ e, s.startup = some (.error e)) →
    (∀ r ∈ g.dates.ready, r < g.now →
      g.dates.drain = some r ∧ g.dates.shutdown = some r ∧ g.dates.kill = some r) ∧
      (2 * Supervisor.startupTimeout < g.now →
        ∃ e, g.coordinator.result? = some (.error e))
  /-- Otherwise it stops in stages. The patience with the drain is the grace period and two
  seconds. -/
  stopped : (∀ s ∈ g.supervisors, ∀ e, s.startup ≠ some (.error e)) →
    g.Stages (config.drainGracePeriod + Span.ofSeconds 2)
  /-- In either case it has ended, with nothing left to do, when no supervisor is left. -/
  returned : g.dates.drain.isSome = true → (∀ s ∈ g.supervisors, s.hasEnded = true) →
    g.next = none → g.coordinator.result?.isSome = true

section Conducted

variable {config : Config}
  (hkept : Kept (config.drainGracePeriod + Coordinator.margin) g) (h : g.Fits)

include hkept h

theorem failed_of_fits {e : GatewayError} (hresult : g.coordinator.result? = some (.error e)) :
    (∃ before s after reason, g.supervisors = before ++ s :: after ∧
      s.startup = some (.error e) ∧ (∀ r ∈ before, r.startup = some (.ok ())) ∧
      e = .workerStartup before.length reason) ∧
      ∀ s ∈ g.supervisors, s.hasEnded = true := by
  unfold Coordinator.result? at hresult
  split at hresult
  · next result hstage =>
    cases hresult
    rw [Fits, hstage] at h
    obtain ⟨hstarted, herror, hended, -⟩ := h
    obtain ⟨before, s, after, heq, hs, hbefore⟩ := exists_of_startupError? hstarted herror
    refine ⟨⟨before, s, after, ?_⟩, List.all_eq_true.1 hended⟩
    -- The fault names the slot of its supervisor.
    have hindex : g.supervisors[before.length]? = some s := by
      rw [heq, List.getElem?_append_right (Nat.le_refl _), Nat.sub_self]
      rfl
    obtain ⟨slot, hslot, rfl⟩ := Option.map_eq_some_iff.1 ((List.getElem?_map ..).symm.trans hindex)
    obtain ⟨-, reason, hreason⟩ := (hkept.slots _ slot hslot).1.failed e hs
    exact ⟨reason, heq, hs, hbefore, hreason⟩
  all_goals cases hresult

omit hkept in
theorem succeeded_of_fits (hresult : g.coordinator.result? = some (.ok ())) :
    g.dates.stop.isSome = true ∧
      ∀ s ∈ g.supervisors, s.startup = some (.ok ()) ∧ s.hasEnded = true := by
  unfold Coordinator.result? at hresult
  split at hresult
  · next result hstage =>
    cases hresult
    rw [Fits, hstage] at h
    obtain ⟨hall, hended, d, ⟨-, u, hu, -⟩, -⟩ := h
    refine ⟨Option.isSome_of_mem hu, fun s hs => ⟨hall.startup_eq hs, ?_⟩⟩
    exact List.all_eq_true.1 hended s hs
  all_goals cases hresult

omit hkept in
theorem aborted_of_fits (hfailed : ∃ s ∈ g.supervisors, ∃ e, s.startup = some (.error e)) :
    (∀ r ∈ g.dates.ready, r < g.now →
      g.dates.drain = some r ∧ g.dates.shutdown = some r ∧ g.dates.kill = some r) ∧
      (2 * Supervisor.startupTimeout < g.now →
        ∃ e, g.coordinator.result? = some (.error e)) := by
  obtain ⟨s, hs, e, hstartup⟩ := hfailed
  -- Every stage but these three says that all workers have become ready.
  have hnot : ¬ g.AllReady := by
    intro hall
    cases hstartup.symm.trans (hall.startup_eq hs)
  have hall {r : Instant} (haborted : g.AbortedAt r) : ∀ u ∈ g.dates.ready, u < g.now →
      g.dates.drain = some u ∧ g.dates.shutdown = some u ∧ g.dates.kill = some u := by
    intro u hu _
    cases hu.symm.trans haborted.ready
    exact ⟨haborted.drain, haborted.shutdown, haborted.kill⟩
  unfold Fits at h
  unfold Coordinator.result?
  revert h
  cases g.coordinator.stage with
  | starting =>
    rintro ⟨-, -, -, hle, hready⟩
    refine ⟨fun r hr hlt => ?_, fun hlate => ?_⟩
    · exact absurd (hready r hr) (Nat.ne_of_lt hlt)
    · exact absurd (Nat.le_trans hle (Nat.le_mul_of_pos_left _ Nat.two_pos)) (Nat.not_le.2 hlate)
  | running => exact fun ⟨_, _, _, hready, _⟩ => absurd hready hnot
  | draining deadline => exact fun ⟨hready, _⟩ => absurd hready hnot
  | forcing deadline => exact fun ⟨hready, _⟩ => absurd hready hnot
  | killing => exact fun ⟨hready, _⟩ => absurd hready hnot
  | aborting e =>
    rintro ⟨-, -, r, haborted, hle, -⟩
    refine ⟨hall haborted, fun hlate => ?_⟩
    refine absurd (Nat.le_trans hle ?_) (Nat.not_le.2 hlate)
    rw [Nat.two_mul]
    exact Nat.add_le_add_right haborted.early _
  | stopped result =>
    cases result with
    | error e =>
      rintro ⟨-, -, -, r, haborted⟩
      exact ⟨hall haborted, fun _ => ⟨e, rfl⟩⟩
    | ok => exact fun ⟨hready, _⟩ => absurd hready hnot

theorem stopped_of_fits (hunfailed : ∀ s ∈ g.supervisors, ∀ e, s.startup ≠ some (.error e)) :
    g.Stages (config.drainGracePeriod + Coordinator.margin) := by
  -- The coordinator would have found no fault.
  have hnot {e : GatewayError} (hstarted : Coordinator.allStarted g.supervisors = true) :
      Coordinator.startupError? g.supervisors ≠ some e := by
    intro herror
    obtain ⟨before, s, after, heq, hs, -⟩ := exists_of_startupError? hstarted herror
    exact hunfailed s (heq ▸ List.mem_append_right _ List.mem_cons_self) e hs
  unfold Fits at h
  rw [← hkept.patience_eq]
  revert h
  cases g.coordinator.stage with
  | starting =>
    rintro ⟨hdrain, hshutdown, hkill, -, hready⟩
    exact .of_none hdrain hshutdown hkill fun s _ r hr => hready r hr ▸ Nat.le_max_right _ _
  | running =>
    rintro ⟨hdrain, hshutdown, hkill, -, hnow⟩
    exact .of_none hdrain hshutdown hkill hnow
  | draining deadline =>
    rintro ⟨-, d, hdrained, rfl, hle, hshutdown, hkill⟩
    exact .of_drainedAt hdrained (.inr ⟨hshutdown, .inl hle⟩)
      (.inr ⟨hkill, .inl (Nat.le_add_right_of_le hle)⟩)
  | forcing deadline =>
    rintro ⟨-, d, hdrained, rfl, hle, hshutdown, -, hkill⟩
    exact .of_drainedAt hdrained hshutdown (.inr ⟨hkill, .inl hle⟩)
  | killing =>
    rintro ⟨-, d, hdrained, ⟨hshutdown, -⟩, hkill, -⟩
    exact .of_drainedAt hdrained hshutdown hkill
  | aborting e => exact fun ⟨hstarted, herror, _⟩ => absurd herror (hnot hstarted)
  | stopped result =>
    cases result with
    | error e => exact fun ⟨hstarted, herror, _⟩ => absurd herror (hnot hstarted)
    | ok =>
      rintro ⟨-, -, d, hdrained, hshutdown, hkill⟩
      exact .of_drainedAt hdrained hshutdown hkill

omit hkept in
theorem returned_of_fits (hdrain : g.dates.drain.isSome = true)
    (hended : ∀ s ∈ g.supervisors, s.hasEnded = true) (hnext : g.next = none) :
    g.coordinator.result?.isSome = true := by
  have hended : Coordinator.allEnded g.supervisors = true := List.all_eq_true.2 hended
  have hundrained : g.dates.drain ≠ none := fun hnone => by
    rw [hnone] at hdrain
    cases hdrain
  unfold Fits at h
  -- With no supervisor left, the coordinator goes on from every stage but the last.
  unfold next Coordinator.next at hnext
  rw [hended] at hnext
  unfold Coordinator.result?
  revert h hnext
  cases g.coordinator.stage with
  | starting => exact fun ⟨hnone, _⟩ => absurd hnone hundrained
  | running => exact fun ⟨hnone, _⟩ => absurd hnone hundrained
  | draining deadline => exact fun _ hnext => nomatch hnext
  | forcing deadline => exact fun _ hnext => nomatch hnext
  | killing => exact fun _ hnext => nomatch hnext
  | aborting e => exact fun _ hnext => nomatch hnext
  | stopped result => exact fun _ _ => rfl

theorem conducted_of_fits : g.Conducted config :=
  ⟨fun _ => failed_of_fits hkept h, succeeded_of_fits h, aborted_of_fits h,
    stopped_of_fits hkept h, returned_of_fits h⟩

end Conducted

end Smpp.Gateway
