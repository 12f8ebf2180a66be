import Mathlib
import Smpp.Proofs.Coordinator.Fleet
import Smpp.Proofs.Session.Horizon

/-!
# Which settings leave room for what lies ahead

A coordinator that drains waits for the grace period and a margin. With settings that are not
refused every gateway may come to drain (`Gateway.exists_draining`): its workers become ready one
after the other, it is asked to stop, and the coordinator goes on. So the span that it waits is one
that a machine holds exactly if the settings leave room for it
(`Gateway.forall_patience_le_iff`).

Together with what a session looks ahead to, `Config.sums_in_range_iff` says of settings that are
not refused which sums of instants and spans a machine holds, up to any instant. `Config.validate`
asks of no span how long it is, and so leaves the sums out of range (`Config.sums_out_of_range`).
-/

namespace Smpp

namespace Gateway

variable {config : Config} {g : Gateway}

/-- A slot whose first process has become ready. -/
def filled (config : Config) (index : Nat) : Supervision :=
  (Supervision.start config index 0).after (.hear (.line "ready 1 127.0.0.1:2775"))

theorem leads_filled (config : Config) (index : Nat) :
    (Supervision.start config index 0).Leads (filled config index) :=
  .single rfl rfl

theorem startup_filled (config : Config) (index : Nat) :
    (filled config index).supervisor.startup = some (.ok ()) := rfl

/-- Workers that have all become ready let the coordinator go on. -/
theorem next_of_ready {c : Coordinator} (hstage : c.stage = .starting) {now : Instant}
    {ss : List Supervisor} (hready : ∀ s ∈ ss, s.startup = some (.ok ())) :
    c.next now ss = some { c with stage := .running } := by
  have hstarted : Coordinator.allStarted ss = true :=
    List.all_eq_true.2 fun s hs => by rw [hready s hs]; rfl
  have hfault : Coordinator.startupError? ss = none :=
    List.findSome?_eq_none_iff.2 fun s hs => by rw [hready s hs]
  unfold Coordinator.next
  simp only [hstage, hstarted, hfault, if_true]

/-- A coordinator that is asked to stop waits for its workers to drain. -/
theorem next_of_asked {c : Coordinator} (hstage : c.stage = .running)
    (hasked : c.stopRequested = true) (now : Instant) (ss : List Supervisor) :
    c.next now ss = some { c with
      lifecycle := { c.lifecycle with drain := true }, stage := .draining (now + c.patience) } := by
  unfold Coordinator.next
  simp only [hstage, hasked, if_true]

/-- All workers of a gateway that has just begun may become ready before the coordinator notices. -/
theorem exists_ready (hstart : start config = .ok g) :
    ∃ g', Reaches g g' ∧ g'.coordinator.stage = .starting ∧
      ∀ s ∈ g'.supervisors, s.startup = some (.ok ()) := by
  have hg := eq_of_start hstart
  have hleads : List.Forall₂ Supervision.Leads g.slots
      ((List.range config.workerCount).map (filled config)) := by
    rw [hg]
    exact List.forall₂_map_left_iff.2 (List.forall₂_map_right_iff.2
      (List.forall₂_same.2 fun index _ => leads_filled config index))
  obtain ⟨dates, hfill⟩ := reaches_of_forall_leads [] hleads rfl
  refine ⟨_, hfill, by rw [hg]; rfl, ?_⟩
  intro s hs
  obtain ⟨slot, hslot, rfl⟩ := List.mem_map.1 hs
  obtain ⟨index, -, rfl⟩ := List.mem_map.1 hslot
  exact startup_filled config index

/-- A gateway whose workers are all ready drains if it is asked to stop. -/
theorem reaches_draining (hstage : g.coordinator.stage = .starting)
    (hready : ∀ s ∈ g.supervisors, s.startup = some (.ok ())) :
    ∃ g' deadline, Reaches g g' ∧ g'.coordinator.stage = .draining deadline := by
  let asked : Coordinator := { g.coordinator with stopRequested := true }
  have hstop : Reaches g (g.after .stop) := .single rfl
  -- The coordinator goes on twice: all are ready, and the stop has been asked for.
  have hrun : Reaches (g.after .stop) ((g.after .stop).proceed { asked with stage := .running }) :=
    reaches_proceed (next_of_ready (c := asked) hstage hready)
  exact ⟨_, _, (hstop.trans hrun).trans (reaches_proceed (next_of_asked rfl rfl _ _)), rfl⟩

/-- **Every gateway may come to drain.** -/
theorem exists_draining (hstart : start config = .ok g) :
    ∃ g' deadline, Reaches g g' ∧ g'.coordinator.stage = .draining deadline := by
  obtain ⟨ready, hfill, hstage, hready⟩ := exists_ready hstart
  obtain ⟨g', deadline, hrun, hdrains⟩ := reaches_draining hstage hready
  exact ⟨g', deadline, hfill.trans hrun, hdrains⟩

/-- The patience of a coordinator is that of its settings, however far it has come. -/
theorem patience_of_follow (hstart : start config = .ok g) {ls : List Label} {g' : Gateway}
    (h : g.follow ls = some g') :
    g'.coordinator.patience = config.drainGracePeriod + Coordinator.margin :=
  (kept_fits_follow (.start hstart) (.start hstart) h).1.patience_eq

/-- **How long a coordinator waits** for workers that drain. -/
theorem forall_patience_le_iff (hvalid : config.validate = .ok ()) (last : Span) :
    (∀ g ls g' deadline, start config = .ok g → g.follow ls = some g' →
        g'.coordinator.stage = .draining deadline → g'.coordinator.patience ≤ last) ↔
      config.drainGracePeriod + Coordinator.margin ≤ last := by
  constructor
  · intro h
    obtain ⟨g, hstart⟩ := start_of_validate hvalid
    obtain ⟨g', deadline, ⟨ls, hls⟩, hdrains⟩ := exists_draining hstart
    calc config.drainGracePeriod + Coordinator.margin
        = g'.coordinator.patience := (patience_of_follow hstart hls).symm
      _ ≤ last := h g ls g' deadline hstart hls hdrains
  · intro hlast g ls g' deadline hstart hls _
    rw [patience_of_follow hstart hls]
    exact hlast

end Gateway

namespace Config

/-- **Which sums are in range.** With settings that are not refused, and up to any instant `t`: the
span that a gateway waits for workers that drain is one that a machine holds exactly if the grace
period leaves room for the margin, and the instants at which a session is given up, probes its
client and gives up a message are on the clock of a machine exactly if `t` leaves room for the time
that a client may be silent, for the interval of the probes and for the time that a call may take.
-/
theorem sums_in_range_iff {config : Config} (hvalid : config.validate = .ok ()) (t : Instant) :
    ((∀ g ls g' deadline, Gateway.start config = .ok g → g.follow ls = some g' →
        g'.coordinator.stage = .draining deadline → g'.coordinator.patience ≤ Span.largest) ↔
      config.drainGracePeriod + Coordinator.margin ≤ Span.largest) ∧
    ((∀ s, Session.ReachedBy config t s →
        s.lastActivity + s.config.sessionTimeout ≤ Instant.largest) ↔
      t + config.sessionTimeout ≤ Instant.largest) ∧
    ((∀ s, Session.ReachedBy config t s → ∀ due ∈ s.keepaliveDue, due ≤ Instant.largest) ↔
      t + config.enquireLinkInterval ≤ Instant.largest) ∧
    ((∀ s, Session.ReachedBy config t s →
        ∀ r ∈ s.tracker.pending, r.deadline ≤ Instant.largest) ↔
      t + config.backendCallTimeout ≤ Instant.largest) := by
  have hlimit : ("max_pending_submits", config.maxPendingSubmits) ∈ config.positives := by
    simp [Config.positives]
  have hroom : 0 < config.maxPendingSubmits := Fleet.pos_of_validate hvalid hlimit
  exact ⟨Gateway.forall_patience_le_iff hvalid _, Session.forall_silence_le_iff config t _,
    Session.forall_keepaliveDue_le_iff config t _, Session.forall_deadline_le_iff hroom t _⟩

/-- With the settings that a gateway has by itself nothing is out of range for a hundred years. -/
theorem sums_in_range_default :
    let century : Instant := Span.ofSeconds 3155760000
    ({} : Config).validate = .ok () ∧
    (∀ g ls g' deadline, Gateway.start {} = .ok g → g.follow ls = some g' →
      g'.coordinator.stage = .draining deadline → g'.coordinator.patience ≤ Span.largest) ∧
    ∀ s, Session.ReachedBy {} century s →
      s.lastActivity + s.config.sessionTimeout ≤ Instant.largest ∧
      (∀ due ∈ s.keepaliveDue, due ≤ Instant.largest) ∧
      ∀ r ∈ s.tracker.pending, r.deadline ≤ Instant.largest := by
  intro century
  have hvalid : ({} : Config).validate = .ok () := by decide
  obtain ⟨hdrain, hsilence, hprobe, hcall⟩ := sums_in_range_iff hvalid century
  refine ⟨hvalid, hdrain.2 (by decide), fun s hs => ⟨?_, ?_, ?_⟩⟩
  · exact hsilence.2 (by decide) s hs
  · exact hprobe.2 (by decide) s hs
  · exact hcall.2 (by decide) s hs

/-- Settings whose spans are the longest ones of whole seconds that a machine holds. -/
def longestSpans : Config where
  workerCount := 1
  sessionTimeout := Span.ofSeconds 18446744073709551615
  enquireLinkInterval := Span.ofSeconds 18446744073709551615
  backendCallTimeout := Span.ofSeconds 18446744073709551615
  drainGracePeriod := Span.ofSeconds 18446744073709551615

/-- Such settings are not refused, and every sum with one of their spans is out of range: that of a
gateway that drains its only worker, of a session that has just begun, of one whose client has just
bound, and of one whose client has just submitted. -/
theorem sums_out_of_range :
    let begun := Session.start longestSpans 0
    let bound := begun.after [Session.bindAt 0]
    let waiting := begun.after [Session.bindAt 0, Session.submitAt 0]
    Span.ofSeconds 18446744073709551615 ≤ Span.largest ∧ longestSpans.validate = .ok () ∧
    (∃ g g' deadline, Gateway.start longestSpans = .ok g ∧
      g.follow [.hear 0 (.line "ready 1 127.0.0.1:2775"), .stop, .decide, .decide] = some g' ∧
      g'.coordinator.stage = .draining deadline ∧ Span.largest < g'.coordinator.patience) ∧
    Instant.largest < begun.lastActivity + begun.config.sessionTimeout ∧
    (∃ due ∈ bound.keepaliveDue, Instant.largest < due) ∧
    ∃ r ∈ waiting.tracker.pending, Instant.largest < r.deadline := by
  intro begun bound waiting
  have hdrains : ∃ g g' deadline, Gateway.start longestSpans = .ok g ∧
      g.follow [.hear 0 (.line "ready 1 127.0.0.1:2775"), .stop, .decide, .decide] = some g' ∧
      g'.coordinator.stage = .draining deadline :=
    ⟨_, _, _, rfl, rfl, rfl⟩
  obtain ⟨g, g', deadline, hstart, hfollow, hstage⟩ := hdrains
  refine ⟨by decide, by decide, ⟨g, g', deadline, hstart, hfollow, hstage, ?_⟩, by decide,
    ⟨_, rfl, by decide⟩, ⟨_, List.mem_singleton_self _, by decide⟩⟩
  rw [Gateway.patience_of_follow hstart hfollow]
  decide

end Config

end Smpp
