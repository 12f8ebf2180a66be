import Smpp.Proofs.Session.Runs

/-!
# The way of a session

A session goes from open to bound to closed, or straight from open to closed, and never back. Its
state, its client and its failed binds are fields of their own, and nothing but its way ties them
together: an open session has no client and nothing pending, and it has failed fewer binds than are
allowed; a bound one has the client whose bind succeeded and no failure since; only one that may
transmit has anything pending.

`Course` lists what a step can make of the three fields, with the input that it takes. `Settled` is
the invariant that ties them to each other, to what is pending and to the limit of failed binds;
every step preserves it (`Settled.step`). That the client of a bound session is the one of a bind
that succeeded is a fact about its past, and `exists_binds_of_bound` finds that bind.
-/

namespace Smpp.Session

namespace Move

/-- A client binds: its bind came to an open session, and the backend let it. -/
def Binds (m : Move) (b : Bind) : Prop :=
  m.before.state = .opened ∧ ∃ status n now inFlight decided,
    m.input = .frame (.known status n (.bind b)) now inFlight (.ok ()) decided

/-- A step that leaves a session in the state and to the client that it had. -/
def Keeps (m : Move) : Prop :=
  m.after.state = m.before.state ∧ m.after.systemId? = m.before.systemId?

/-- A step that ends a session. -/
def Closes (m : Move) : Prop :=
  m.after.state = .closed ∧ m.after.systemId? = m.before.systemId?

end Move

/-! ### One step -/

/-- What a step may make of the state of a session, of its client and of its failures. -/
inductive Course (s : Session) (i : Input) (s' : Session) : Prop where
  /-- Nothing. -/
  | stays (hstate : s'.state = s.state) (hclient : s'.systemId? = s.systemId?)
    (hfailed : s'.failedBinds = s.failedBinds)
  /-- A bind was refused, and another one is allowed. -/
  | refused (hopen : s.state = .opened) (hmore : s.failedBinds + 1 < s.config.maxBindAttempts)
    (hstate : s'.state = s.state) (hclient : s'.systemId? = s.systemId?)
    (hfailed : s'.failedBinds = s.failedBinds + 1)
  /-- A bind succeeded. -/
  | binds {b : Bind} {status : CommandStatus} {n : UInt32} {now decided : Instant} {inFlight : Nat}
    (hopen : s.state = .opened)
    (hinput : i = .frame (.known status n (.bind b)) now inFlight (.ok ()) decided)
    (hstate : s'.state = .bound b.role) (hclient : s'.systemId? = some b.systemId)
    (hfailed : s'.failedBinds = 0)
  /-- The session is over. -/
  | closes (hstate : s'.state = .closed) (hclient : s'.systemId? = s.systemId?)

section Course

variable {s : Session}

theorem course_conclude (hopen : s.state = .opened) (status : CommandStatus) (n : UInt32)
    (b : Bind) (now decided : Instant) (inFlight : Nat) (verdict : AuthResult) :
    (s.conclude decided n b verdict).1.config = s.config ∧
      Course s (.frame (.known status n (.bind b)) now inFlight verdict decided)
        (s.conclude decided n b verdict).1 := by
  unfold conclude
  cases verdict with
  | ok _ => exact ⟨rfl, .binds hopen rfl rfl rfl rfl⟩
  | error e =>
    dsimp only
    split
    · exact ⟨rfl, .closes rfl rfl⟩
    · next hmore => exact ⟨rfl, .refused hopen (Nat.lt_of_not_le hmore) rfl rfl rfl⟩

theorem course_frame (f : Frame) (now : Instant) (inFlight : Nat) (verdict : AuthResult)
    (decided : Instant) :
    (s.dispatch now inFlight f verdict decided).1.config = s.config ∧
      Course s (.frame f now inFlight verdict decided)
        (s.dispatch now inFlight f verdict decided).1 := by
  have hreceived := received s now inFlight f
  unfold dispatch
  generalize s.receive now inFlight f = r at hreceived
  cases hreceived with
  | late hover => exact ⟨rfl, .stays rfl rfl rfl⟩
  | unknown hactive => exact ⟨rfl, .stays rfl rfl rfl⟩
  | rebind hbound => exact ⟨rfl, .stays rfl rfl rfl⟩
  | @bind status n b hopen =>
    dsimp only
    rw [conclude_touched]
    exact course_conclude hopen status n b now decided inFlight verdict
  | unbind hbound => exact ⟨rfl, .closes rfl rfl⟩
  | unbound hopen => exact ⟨rfl, .stays rfl rfl rfl⟩
  | submit hactive hsubmit =>
    -- A submit changes what is pending and nothing else.
    cases hsubmit with
    | barred htransmit => exact ⟨rfl, .stays rfl rfl rfl⟩
    | duplicate htransmit hpending => exact ⟨rfl, .stays rfl rfl rfl⟩
    | throttled htransmit hpending hfull => exact ⟨rfl, .stays rfl rfl rfl⟩
    | taken htransmit hroom htrack => exact ⟨rfl, .stays rfl rfl rfl⟩
  | probe hactive => exact ⟨rfl, .stays rfl rfl rfl⟩
  | response hactive hresponse => exact ⟨rfl, .stays rfl rfl rfl⟩

/-- **What a step makes of the state, the client and the failures of a session.** The settings stay
as they are. -/
theorem course (s : Session) (i : Input) :
    (s.step i).1.config = s.config ∧ Course s i (s.step i).1 := by
  -- Only a frame and the end write any of the three fields; results, probes and expiry are of the
  -- tracker and the probe.
  cases i with
  | frame f now inFlight verdict decided => exact course_frame f now inFlight verdict decided
  | complete c =>
    rw [step_complete]
    by_cases hactive : s.state = .closed
    · rw [complete_of_closed hactive]
      exact ⟨rfl, .stays rfl rfl rfl⟩
    · rw [complete_of_active hactive]
      split
      · exact ⟨rfl, .stays rfl rfl rfl⟩
      · exact ⟨rfl, .stays rfl rfl rfl⟩
  | expire now => exact ⟨rfl, .stays rfl rfl rfl⟩
  | keepalive now =>
    obtain ⟨probe, next, hframe⟩ := keepalive_frame (s := s) now
    rw [step_keepalive, hframe]
    exact ⟨rfl, .stays rfl rfl rfl⟩
  | shutdown =>
    obtain ⟨next, hframe⟩ := shutdownFrame_frame (s := s)
    rw [step_shutdown, hframe]
    exact ⟨rfl, .stays rfl rfl rfl⟩
  | close => exact ⟨rfl, .closes rfl rfl⟩

end Course

/-- What a session knows of its client: how far it has come, the name, and how many binds have
failed. -/
def standing (s : Session) : SessionState × Option String × Nat :=
  (s.state, s.systemId?, s.failedBinds)

theorem standing_eq_iff {s s' : Session} :
    s'.standing = s.standing ↔
      s'.state = s.state ∧ s'.systemId? = s.systemId? ∧ s'.failedBinds = s.failedBinds := by
  unfold standing
  rw [Prod.mk.injEq, Prod.mk.injEq]

/-! ### What the state says of the rest -/

/-- Whether a session has a client goes by its state: an open one has none, a bound one has one. -/
structure Named (s : Session) : Prop where
  nobody : s.state = .opened → s.systemId? = none
  somebody : s.state.isBound = true → ∃ systemId, s.systemId? = some systemId

section Named

variable {s s' : Session}

theorem Named.start (config : Config) (now : Instant) : (start config now).Named where
  nobody _ := rfl
  somebody h := nomatch h

theorem Named.of_eq (h : s.Named) (hstate : s'.state = s.state)
    (hclient : s'.systemId? = s.systemId?) : s'.Named where
  nobody hopen := hclient.trans (h.nobody (hstate.symm.trans hopen))
  somebody hbound := hclient ▸ h.somebody (hstate ▸ hbound)

theorem Named.of_bound {role : BindRole} {systemId : String} (hstate : s.state = .bound role)
    (hclient : s.systemId? = some systemId) : s.Named where
  nobody hopen := by
    rw [hstate] at hopen
    cases hopen
  somebody _ := ⟨systemId, hclient⟩

/-- Of a session that is over nothing is asked. -/
theorem Named.of_closed (hover : s.state = .closed) : s.Named where
  nobody hopen := by
    rw [hover] at hopen
    cases hopen
  somebody hbound := by
    rw [hover] at hbound
    cases hbound

end Named

/-- Nothing is pending but in a session that may transmit; while a session is open it has no
client, and it has failed fewer binds than are allowed; while it is bound it has a client and no
failures. -/
structure Settled (config : Config) (s : Session) : Prop where
  sound : s.Sound
  settings : s.config = config
  nothing_pending : s.state.canTransmit = false → s.tracker.pending = []
  named : s.Named
  failed_lt : s.state = .opened → s.failedBinds < max 1 config.maxBindAttempts
  failed_none : s.state.isBound = true → s.failedBinds = 0

theorem Settled.start (config : Config) (now : Instant) : Settled config (start config now) where
  sound := Sound.start config now
  settings := rfl
  nothing_pending := fun _ => rfl
  named := Named.start config now
  failed_lt := fun _ => Nat.lt_of_lt_of_le Nat.zero_lt_one (Nat.le_max_left _ _)
  failed_none := fun h => nomatch h

section Step

variable {s : Session}

/-- Only a session that may transmit takes anything on. -/
theorem pending_step_of_not_transmit (hbarred : s.state.canTransmit = false)
    (hnothing : s.tracker.pending = []) (i : Input) : (s.step i).1.tracker.pending = [] := by
  -- What a step leaves pending was pending before, unless the step takes a submit.
  have hfewer : (s.step i).1.tracker.pending ⊆ s.tracker.pending := by
    cases i with
    | frame f now inFlight verdict decided =>
      have hdispatched := Session.dispatched s now inFlight f verdict decided
      rw [step_frame]
      generalize s.dispatch now inFlight f verdict decided = r at hdispatched
      obtain ⟨s', a⟩ := r
      dsimp only at hdispatched ⊢
      cases hdispatched with
      | afterEnd hover => exact List.Subset.refl _
      | ignored hactive hstate htracker => exact htracker ▸ List.Subset.refl _
      | answered hactive hstate htracker => exact htracker ▸ List.Subset.refl _
      | taken htransmit =>
        rw [hbarred] at htransmit
        cases htransmit
      | ended hactive hstate htracker => exact htracker ▸ List.nil_subset _
    | complete c =>
      rw [step_complete]
      by_cases hactive : s.state = .closed
      · rw [complete_of_closed hactive]
        exact List.Subset.refl _
      · rw [complete_of_active hactive]
        split
        · exact List.filter_sublist.subset
        · exact List.Subset.refl _
    | expire now => exact List.filter_sublist.subset
    | keepalive now =>
      obtain ⟨probe, next, hframe⟩ := keepalive_frame (s := s) now
      rw [step_keepalive, hframe]
      exact List.Subset.refl _
    | shutdown =>
      obtain ⟨next, hframe⟩ := shutdownFrame_frame (s := s)
      rw [step_shutdown, hframe]
      exact List.Subset.refl _
    | close => exact List.nil_subset _
  rw [hnothing] at hfewer
  exact List.subset_nil.1 hfewer

theorem canTransmit_of_opened (h : s.state = .opened) : s.state.canTransmit = false := by
  rw [h]
  rfl

theorem isBound_of_canTransmit (h : s.state.canTransmit = true) : s.state.isBound = true := by
  cases hstate : s.state with
  | opened => rw [hstate] at h; cases h
  | bound role => rfl
  | closed => rw [hstate] at h; cases h

/-- **Every step keeps a session settled.** -/
theorem Settled.step {config : Config} (hs : Settled config s) (i : Input) :
    Settled config (s.step i).1 := by
  obtain ⟨hconfig, hcourse⟩ := course s i
  have hsound := hs.sound.step i
  have hsettings := hconfig.trans hs.settings
  have hkept := fun hbarred =>
    pending_step_of_not_transmit hbarred (hs.nothing_pending hbarred) i
  generalize (s.step i).1 = s' at hsound hsettings hkept hcourse
  -- By what the step writes of the three fields: a refusal the failures, a bind all of them, the
  -- end the state alone. Nothing else writes them.
  cases hcourse with
  | stays hstate hclient hfailed =>
    refine ⟨hsound, hsettings, ?_, hs.named.of_eq hstate hclient, ?_, ?_⟩
    · rw [hstate]
      exact hkept
    · rw [hstate, hfailed]
      exact hs.failed_lt
    · rw [hstate, hfailed]
      exact hs.failed_none
  | refused hopen hmore hstate hclient hfailed =>
    -- One more failure, and the guard of the rule is that it is not the last.
    have hopened := hstate.trans hopen
    have hunbound : ¬ s'.state.isBound = true := fun h => by
      rw [hopened] at h
      cases h
    refine ⟨hsound, hsettings, fun _ => hkept (canTransmit_of_opened hopen),
      hs.named.of_eq hstate hclient, fun _ => ?_, fun h => absurd h hunbound⟩
    rw [hs.settings] at hmore
    rw [hfailed]
    exact Nat.lt_of_lt_of_le hmore (Nat.le_max_right _ _)
  | binds hopen hinput hstate hclient hfailed =>
    -- The name and the state are written together, and the failures are forgotten.
    have hbound : s'.state ≠ .opened := by
      rw [hstate]
      exact fun h => nomatch h
    exact ⟨hsound, hsettings, fun _ => hkept (canTransmit_of_opened hopen),
      Named.of_bound hstate hclient, fun h => absurd h hbound, fun _ => hfailed⟩
  | closes hstate hclient =>
    -- Nothing is said of the failures of a session that is over, so what it keeps of them is free.
    have hover : s'.state ≠ .opened := by
      rw [hstate]
      exact fun h => nomatch h
    have hunbound : ¬ s'.state.isBound = true := fun h => by
      rw [hstate] at h
      cases h
    exact ⟨hsound, hsettings, fun _ => hsound.nothing_pending hstate, Named.of_closed hstate,
      fun h => absurd h hover, fun h => absurd h hunbound⟩

end Step

/-! ### Whole runs -/

theorem Settled.after (config : Config) (now : Instant) (inputs : List Input) :
    Settled config ((Session.start config now).after inputs) :=
  after_of_step (Settled.start config now) (fun _ i hs => hs.step i) inputs

/-- A session that has come to be bound in its course has a client. -/
theorem named_of_reached {s : Session} {config : Config} {begun : Instant} {inputs : List Input}
    (hs : s = (Session.start config begun).after inputs) (htransmit : s.state.canTransmit = true) :
    ∃ systemId, s.systemId? = some systemId := by
  subst hs
  exact (Settled.after config begun inputs).named.somebody (isBound_of_canTransmit htransmit)

/-- A session that is bound at the end of a run was so at its beginning and has kept its client, or
a client bound on the way, and it is that client's. -/
theorem exists_binds_of_bound {s : Session} {role : BindRole} (inputs : List Input)
    (h : (s.after inputs).state = .bound role) :
    (s.state = .bound role ∧ (s.after inputs).systemId? = s.systemId?) ∨
      ∃ m ∈ s.history inputs, ∃ b, m.Binds b ∧ b.role = role ∧
        (s.after inputs).systemId? = some b.systemId := by
  -- On the inputs: the run behind the first step leaves open only how that step began to be bound.
  induction inputs generalizing s with
  | nil => exact .inl ⟨h, rfl⟩
  | cons i is ih =>
    rw [history_cons, after_cons]
    obtain ⟨hbound, hclient⟩ | ⟨m, hm, b, hbinds⟩ := ih h
    · obtain ⟨-, hcourse⟩ := course s i
      cases hcourse with
      | stays hstate hkept => exact .inl ⟨hstate.symm.trans hbound, hclient.trans hkept⟩
      | refused hopen hmore hstate =>
        rw [hstate, hopen] at hbound
        cases hbound
      | @binds b status n now decided inFlight hopen hinput hstate hnamed =>
        rw [hstate] at hbound
        cases hbound
        exact .inr ⟨_, List.mem_cons_self, b, ⟨hopen, status, n, now, inFlight, decided, hinput⟩,
          rfl, hclient.trans hnamed⟩
      | closes hstate =>
        rw [hstate] at hbound
        cases hbound
    · exact .inr ⟨m, List.mem_cons_of_mem _ hm, b, hbinds⟩

/-- A step keeps the state and the client, binds a client, or ends the session. -/
theorem keeps_or_binds_or_closes (s : Session) (i : Input) :
    let m : Move := ⟨s, i, (s.step i).1, (s.step i).2⟩
    m.Keeps ∨
      (∃ b, m.Binds b ∧ m.after.state = .bound b.role ∧ m.after.systemId? = some b.systemId) ∨
      m.Closes := by
  intro m
  obtain ⟨-, hcourse⟩ := course s i
  cases hcourse with
  | stays hstate hclient => exact .inl ⟨hstate, hclient⟩
  | refused hopen hmore hstate hclient => exact .inl ⟨hstate, hclient⟩
  | @binds b status n now decided inFlight hopen hinput hstate hclient =>
    exact .inr (.inl ⟨b, ⟨hopen, status, n, now, inFlight, decided, hinput⟩, hstate, hclient⟩)
  | closes hstate hclient => exact .inr (.inr ⟨hstate, hclient⟩)

/-- **The way of a session.** After every run an open session has no client and nothing pending, and
it has failed fewer binds than are allowed; a bound one has failed none since, and has the role and
the client of a bind that succeeded on the way; one that only receives, and one that is over, has
nothing pending. On the way a session changes its state only when a client binds, to the role of the
bind, and when it ends, and its client only when one binds. After the end nothing changes it and it
answers nothing. -/
theorem lifecycle (config : Config) (begun : Instant) (inputs : List Input) :
    let moves := (start config begun).history inputs
    let s := (start config begun).after inputs
    (s.state = .opened →
      s.systemId? = none ∧ s.tracker.pending = [] ∧
        s.failedBinds < max 1 config.maxBindAttempts) ∧
    (∀ role, s.state = .bound role →
      s.failedBinds = 0 ∧
        ∃ m ∈ moves, ∃ b, m.Binds b ∧ b.role = role ∧ s.systemId? = some b.systemId) ∧
    (s.state = .bound .receiver ∨ s.state = .closed → s.tracker.pending = []) ∧
    (∀ m ∈ moves,
      m.Keeps ∨
        (∃ b, m.Binds b ∧ m.after.state = .bound b.role ∧ m.after.systemId? = some b.systemId) ∨
        m.Closes) ∧
    (s.state = .closed → ∀ i, s.step i = (s, i.silence)) := by
  intro moves s
  have hs : Settled config s := Settled.after config begun inputs
  -- What is so of a state is the invariant; who has bound the session is in the history, and what a
  -- move does is the course of its step.
  refine ⟨?_, ?_, ?_, ?_, ?_⟩
  · intro hopen
    exact ⟨hs.named.nobody hopen, hs.nothing_pending (canTransmit_of_opened hopen),
      hs.failed_lt hopen⟩
  · intro role hbound
    refine ⟨hs.failed_none (by rw [hbound]; rfl), ?_⟩
    obtain ⟨hstart, -⟩ | hbinds := exists_binds_of_bound inputs hbound
    · cases hstart
    · exact hbinds
  · intro hidle
    refine hs.nothing_pending ?_
    obtain hreceiver | hover := hidle
    · rw [hreceiver]
      rfl
    · rw [hover]
      rfl
  · exact forall_mem_history (p := fun _ => True) trivial
      (fun s i _ => ⟨trivial, keeps_or_binds_or_closes s i⟩) inputs
  · intro hover i
    exact hs.sound.step_eq_of_closed hover i

end Smpp.Session
