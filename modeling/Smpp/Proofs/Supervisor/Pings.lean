import Mathlib
import Smpp.Proofs.Supervisor.Signs

/-!
# Missed probes

A supervisor counts the probes that a process has missed, and it remembers the last probe until that
is settled. The two do not go together: every answer sets the count back to zero, but only the one
that carries the nonce of the last probe settles it. So a late answer clears the count and leaves a
probe behind that the next one will count as missed.

`Unsettled` says of the signs that a process has given since it became ready that the last probe is
not settled. It is what the supervisor remembers (`Tracks`), and with it the count is known at any
moment (`accounted_of_follow`): behind an answer that has left no probe unsettled the first probe is
not counted, and every other one is.
-/

namespace Smpp

namespace Sign

/-- How many probes are sent. The `n`-th one carries the nonce `n`. -/
def pings (signs : List Sign) : Nat := signs.countP isPing

/-- **The last probe is unsettled**: one has been sent, and no answer behind the last one carries
its nonce. -/
def Unsettled (signs : List Sign) : Prop :=
  ∃ before after : List Sign, signs = before ++ .ping :: after ∧ (∀ x ∈ after, x.isPing = false) ∧
    ∀ active : UInt64, .pong (UInt64.ofNat (pings signs)) active ∉ after

variable {signs : List Sign} {nonce active : UInt64}

theorem pings_append (signs signs' : List Sign) :
    pings (signs ++ signs') = pings signs + pings signs' := List.countP_append

theorem pings_ping (signs : List Sign) : pings (signs ++ [.ping]) = pings signs + 1 :=
  pings_append signs [.ping]

theorem pings_pong (signs : List Sign) (nonce active : UInt64) :
    pings (signs ++ [.pong nonce active]) = pings signs :=
  pings_append signs [.pong nonce active]

/-- A sign of a process that stays the same is a probe or an answer. -/
theorem eq_of_isProbing {x : Sign} (h : x.isProbing = true) :
    x = .ping ∨ ∃ nonce active, x = .pong nonce active := by
  cases x with
  | ping => exact .inl rfl
  | pong nonce active => exact .inr ⟨nonce, active, rfl⟩
  | ready | gone => cases h

theorem not_unsettled_nil : ¬ Unsettled [] := by
  rintro ⟨before, after, heq, -⟩
  cases before <;> cases heq

/-- A probe is unsettled when it is sent. -/
theorem unsettled_ping (signs : List Sign) : Unsettled (signs ++ [.ping]) :=
  ⟨signs, [], rfl, fun _ hx => (List.not_mem_nil hx).elim, fun _ => List.not_mem_nil⟩

/-- **Only the answer to the last probe settles it.** -/
theorem unsettled_pong_iff :
    Unsettled (signs ++ [.pong nonce active]) ↔
      Unsettled signs ∧ nonce ≠ UInt64.ofNat (pings signs) := by
  unfold Unsettled
  rw [pings_pong]
  constructor
  · rintro ⟨before, after, heq, hlast, hunanswered⟩
    obtain rfl | ⟨after, x, rfl⟩ := List.eq_nil_or_concat' after
    · -- The answer is no probe.
      cases (List.append_inj' heq rfl).2
    · rw [← List.cons_append, ← List.append_assoc] at heq
      obtain ⟨rfl, hx⟩ := List.append_inj' heq rfl
      obtain rfl := (List.cons.inj hx).1
      refine ⟨⟨before, after, rfl, fun y hy => hlast y (List.mem_append_left _ hy), ?_⟩, ?_⟩
      · exact fun a ha => hunanswered a (List.mem_append_left _ ha)
      · rintro rfl
        exact hunanswered active (List.mem_append_right _ List.mem_cons_self)
  · rintro ⟨⟨before, after, heq, hlast, hunanswered⟩, hnonce⟩
    refine ⟨before, after ++ [.pong nonce active], ?_, ?_, ?_⟩
    · rw [heq, List.append_assoc, List.cons_append]
    · intro x hx
      obtain hx | hx := List.mem_append.1 hx
      · exact hlast x hx
      · cases List.mem_singleton.1 hx
        rfl
    · intro a ha
      obtain ha | ha := List.mem_append.1 ha
      · exact hunanswered a ha
      · cases List.mem_singleton.1 ha
        exact hnonce rfl

end Sign

open Sign

/-! ### What a supervisor remembers -/

namespace Vitals

/-- **The vitals keep track** of the signs that a process has given since it became ready. -/
structure Tracks (v : Vitals) (signs : List Sign) : Prop where
  /-- The last nonce is the number of the probes. -/
  last : v.probes.map Probes.last = some (UInt64.ofNat (pings signs))
  /-- What is awaited is the last probe, as long as it is unsettled. -/
  awaiting : ∀ n, v.awaiting = some n ↔ Unsettled signs ∧ n = UInt64.ofNat (pings signs)
  /-- No more probes are missed than are sent. -/
  missed_le : v.missedPongs ≤ pings signs

variable {v : Vitals} {signs : List Sign}

theorem Tracks.isSome_awaiting_iff (h : v.Tracks signs) :
    v.awaiting.isSome = true ↔ Unsettled signs := by
  rw [Option.isSome_iff_exists]
  constructor
  · rintro ⟨n, hn⟩
    exact ((h.awaiting n).1 hn).1
  · exact fun hunsettled => ⟨_, (h.awaiting _).2 ⟨hunsettled, rfl⟩⟩

theorem tracks_ready (v : Vitals) (pid : UInt32) : (v.after (.ready pid)).Tracks [] where
  last := rfl
  awaiting n := iff_of_false (fun h => by cases h) fun h => not_unsettled_nil h.1
  missed_le := Nat.le_refl 0

theorem Tracks.ping (h : v.Tracks signs) : (v.after .ping).Tracks (signs ++ [.ping]) := by
  obtain ⟨p, hp, hlast⟩ := Option.map_eq_some_iff.1 h.last
  have hnext : UInt64.ofNat (pings signs) + 1 = UInt64.ofNat (pings (signs ++ [.ping])) := by
    rw [pings_ping, UInt64.ofNat_add]
    rfl
  have hprobes : (v.after .ping).probes =
      some { last := UInt64.ofNat (pings (signs ++ [.ping])),
             awaiting := some (UInt64.ofNat (pings (signs ++ [.ping]))) } := by
    rw [← hnext, ← hlast, after, hp]
    rfl
  refine ⟨by rw [hprobes]; rfl, fun n => ?_, ?_⟩
  · rw [Vitals.awaiting, hprobes]
    change some _ = some n ↔ _
    rw [Option.some.injEq, and_iff_right (unsettled_ping signs), eq_comm]
  · rw [pings_ping]
    have hle := h.missed_le
    dsimp only [after]
    split <;> omega

theorem Tracks.pong (h : v.Tracks signs) (nonce active : UInt64) :
    (v.after (.pong nonce active)).Tracks (signs ++ [.pong nonce active]) := by
  obtain ⟨p, hp, hlast⟩ := Option.map_eq_some_iff.1 h.last
  have hbefore : v.awaiting = p.awaiting := by
    rw [Vitals.awaiting, hp]
    rfl
  have hprobes : (v.after (.pong nonce active)).probes =
      some { p with awaiting := if p.awaiting = some nonce then none else p.awaiting } := by
    rw [after, hp]
    rfl
  refine ⟨?_, fun n => ?_, Nat.zero_le _⟩
  · rw [hprobes, pings_pong, ← hlast]
    rfl
  · rw [Vitals.awaiting, hprobes, pings_pong, unsettled_pong_iff]
    change (if p.awaiting = some nonce then none else p.awaiting) = some n ↔ _
    rw [← hbefore]
    split
    · next hsettled =>
      -- The answer is the one that is awaited.
      have hnonce := ((h.awaiting nonce).1 hsettled).2
      exact iff_of_false (fun h => by cases h) fun hn => hn.1.2 hnonce
    · next hstale =>
      rw [h.awaiting n, and_right_comm]
      refine (and_iff_left_of_imp ?_).symm
      rintro ⟨hunsettled, -⟩ rfl
      exact hstale ((h.awaiting _).2 ⟨hunsettled, rfl⟩)

theorem Tracks.probing (h : v.Tracks signs) {x : Sign} (hx : x.isProbing = true) :
    (v.after x).Tracks (signs ++ [x]) := by
  obtain rfl | ⟨nonce, active, rfl⟩ := eq_of_isProbing hx
  · exact h.ping
  · exact h.pong nonce active

/-- **The vitals keep track** as long as the process stays the same. -/
theorem tracks_afterAll (v : Vitals) (pid : UInt32) (signs : List Sign)
    (h : ∀ x ∈ signs, x.isProbing = true) :
    ((v.after (.ready pid)).afterAll signs).Tracks signs := by
  induction signs using List.reverseRecOn with
  | nil => exact tracks_ready v pid
  | append_singleton signs x ih =>
    rw [afterAll_append]
    exact (ih fun y hy => h y (List.mem_append_left _ hy)).probing
      (h x (List.mem_append_right _ List.mem_cons_self))

/-- **A row of probes**: all of them count, except the first one if there is nothing unsettled in
front of it. -/
theorem missedPongs_afterAll_pings {v : Vitals} (hwatched : v.probes.isSome = true)
    {signs : List Sign} (h : ∀ x ∈ signs, x = .ping) :
    (v.afterAll signs).missedPongs =
      v.missedPongs + if v.awaiting.isSome then pings signs else pings signs - 1 := by
  induction signs generalizing v with
  | nil => split <;> rfl
  | cons x signs ih =>
    obtain ⟨rfl, hsigns⟩ := List.forall_mem_cons.1 h
    have hcount : pings (.ping :: signs) = pings signs + 1 := List.countP_cons_of_pos rfl
    obtain ⟨p, hp⟩ := Option.isSome_iff_exists.1 hwatched
    -- Once a probe is sent, one is awaited.
    have hprobes : (v.after .ping).probes = some ⟨p.last + 1, some (p.last + 1)⟩ := by
      rw [after, hp]
      rfl
    have hawaiting : (v.after .ping).awaiting.isSome = true := by
      rw [awaiting, hprobes]
      rfl
    rw [afterAll_cons, ih (by rw [hprobes]; rfl) hsigns, if_pos hawaiting, hcount]
    dsimp only [after]
    split <;> omega

end Vitals

/-! ### The count -/

namespace Supervision

variable {s : Supervision} {since : List Sign}

/-- **Missed probes are accounted for**: `since` is what has shown of a process since it became
ready. -/
structure Accounted (s : Supervision) (since : List Sign) : Prop where
  /-- The count stays within 32 bits. -/
  bounded : s.supervisor.health.missedPongs < 2 ^ 32
  /-- A probe counts the one before it, if that is unsettled, -/
  missed : ∀ l, s.sign? l = some .ping → Unsettled since →
    (s.after l).supervisor.health.missedPongs = s.supervisor.health.missedPongs + 1
  /-- and only then, -/
  unmissed : ∀ l, s.sign? l = some .ping → ¬ Unsettled since →
    (s.after l).supervisor.health.missedPongs = s.supervisor.health.missedPongs
  /-- and the process is told its number. -/
  told : ∀ l, s.sign? l = some .ping →
    (s.after l).current.told = s.current.told ++ [.ping (UInt64.ofNat (pings since + 1))]
  /-- An answer sets the count back and names the sessions, whatever probe it answers; -/
  answered : ∀ l nonce active, s.sign? l = some (.pong nonce active) →
    (s.after l).supervisor.health.missedPongs = 0 ∧
      (s.after l).supervisor.health.activeSessions = active.toNat
  /-- it settles the last probe if it carries the nonce of that one, and only then. -/
  settled : ∀ l nonce active, s.sign? l = some (.pong nonce active) → Unsettled since →
    ((s.after l).vitals.awaiting = none ↔ nonce = UInt64.ofNat (pings since))
  /-- What is awaited is the last probe, as long as it is unsettled. -/
  awaiting : ∀ n, s.vitals.awaiting = some n ↔
    Unsettled since ∧ n = UInt64.ofNat (pings since)
  /-- Nothing else has to do with it. -/
  unchanged : ∀ l, s.sign? l = none → (s.after l).vitals = s.vitals
  /-- All probes behind an answer count, if that has left one unsettled, -/
  behind_stale : ∀ (before : List Sign) (nonce active : UInt64) (after : List Sign),
    since = before ++ .pong nonce active :: after → (∀ x ∈ after, x.isPong = false) →
      Unsettled (before ++ [.pong nonce active]) →
        s.supervisor.health.missedPongs = pings after
  /-- and all but the first one, if it has not. -/
  behind_fresh : ∀ (before : List Sign) (nonce active : UInt64) (after : List Sign),
    since = before ++ .pong nonce active :: after → (∀ x ∈ after, x.isPong = false) →
      ¬ Unsettled (before ++ [.pong nonce active]) →
        s.supervisor.health.missedPongs = pings after - 1
  /-- All probes but the first one count, if none has been answered. -/
  unanswered : (∀ x ∈ since, x.isPong = false) →
    s.supervisor.health.missedPongs = pings since - 1

/-- A probe that is sent is told to the process. -/
theorem told_of_sign_ping {l : Label} (h : s.sign? l = some .ping) :
    ∃ w, s.supervisor.stage = .watching w ∧
      (s.after l).current.told = s.current.told ++ [.ping (w.nonce + 1)] := by
  cases l with
  | hear e =>
    change s.supervisor.sign? s.now s.lifecycle e = some .ping at h
    unfold Supervisor.sign? at h
    split at h
    · -- A process that is to become ready is not probed.
      unfold Supervisor.signOnStarting at h
      split at h
      · split at h <;> cases h
      all_goals cases h
    · next w hstage =>
      refine ⟨w, hstage, ?_⟩
      have hstep : s.supervisor.step s.now s.lifecycle e =
          s.supervisor.onWatching s.now s.lifecycle w e := by
        rw [Supervisor.step, hstage]
      cases e with
      | clock =>
        rw [Supervisor.signOnWatching] at h
        split at h
        · cases h
        · next hdue =>
          rw [Supervisor.onWatching, if_neg hdue, Supervisor.ping] at hstep
          change (s.hear .clock).current.told = _
          rw [hear_of_step hstep]
          rfl
      | line text =>
        rw [Supervisor.signOnWatching] at h
        split at h <;> cases h
      | seeKill =>
        rw [Supervisor.signOnWatching] at h
        split at h <;> cases h
      | spawnFailed | silence | exited | seeShutdown | seeDrain => cases h
    all_goals cases h
  | pass | ask | exit => cases h

/-- Signs of one process that are no answers are probes. -/
theorem forall_eq_ping {signs : List Sign} (h : ∀ x ∈ signs, x.isProbing = true)
    (hunanswered : ∀ x ∈ signs, x.isPong = false) : ∀ x ∈ signs, x = .ping := by
  intro x hx
  obtain rfl | ⟨nonce, active, rfl⟩ := eq_of_isProbing (h x hx)
  · rfl
  · cases hunanswered _ hx

/-- What a sign makes of the vitals of a slot. -/
theorem vitals_after_of_sign {l : Label} {x : Sign} (h : s.sign? l = some x) :
    (s.after l).vitals = s.vitals.after x := by
  rw [vitals_after, h]
  rfl

theorem accounted_of_vitals {v : Vitals} {pid : UInt32}
    (hvitals : s.vitals = (v.after (.ready pid)).afterAll since)
    (hsame : ∀ x ∈ since, x.isProbing = true) (hfew : pings since < 2 ^ 32) :
    s.Accounted since := by
  -- What is known of the process is a fold over its signs, and what the fold tracks is what is
  -- asked.
  have htracks : s.vitals.Tracks since := hvitals ▸ Vitals.tracks_afterAll v pid since hsame
  have hmissed (l : Label) (hl : s.sign? l = some .ping) :
      (s.after l).supervisor.health.missedPongs =
        if s.vitals.awaiting.isSome then s.vitals.missedPongs + 1 else s.vitals.missedPongs :=
    congrArg Vitals.missedPongs (vitals_after_of_sign hl)
  -- What an answer leaves, and the probes behind it.
  have hbehind (before : List Sign) (nonce active : UInt64) (after : List Sign)
      (heq : since = before ++ .pong nonce active :: after)
      (hafter : ∀ x ∈ after, x.isPong = false) :
      ∃ u : Vitals, u.Tracks (before ++ [.pong nonce active]) ∧
        s.supervisor.health.missedPongs =
          if u.awaiting.isSome then pings after else pings after - 1 := by
    rw [heq] at hsame
    have hbefore : ∀ x ∈ before ++ [.pong nonce active], x.isProbing = true := by
      intro x hx
      obtain hx | hx := List.mem_append.1 hx
      · exact hsame x (List.mem_append_left _ hx)
      · cases List.mem_singleton.1 hx
        rfl
    have hpings : ∀ x ∈ after, x = .ping :=
      forall_eq_ping (fun x hx => hsame x (List.mem_append_right _ (List.mem_cons_of_mem _ hx)))
        hafter
    have hu := Vitals.tracks_afterAll v pid _ hbefore
    refine ⟨_, hu, ?_⟩
    have hwatched : ((v.after (.ready pid)).afterAll
        (before ++ [.pong nonce active])).probes.isSome = true := by
      rw [← Option.isSome_map (f := Probes.last), hu.last]
      rfl
    have hzero : ((v.after (.ready pid)).afterAll
        (before ++ [.pong nonce active])).missedPongs = 0 := by
      rw [Vitals.afterAll_append]
      rfl
    change s.vitals.missedPongs = _
    rw [hvitals, heq, List.append_cons, Vitals.afterAll_append,
      Vitals.missedPongs_afterAll_pings hwatched hpings, hzero, Nat.zero_add]
  exact
    { bounded := Nat.lt_of_le_of_lt htracks.missed_le hfew
      missed := fun l hl hunsettled => by
        rw [hmissed l hl, if_pos (htracks.isSome_awaiting_iff.2 hunsettled)]
        rfl
      unmissed := fun l hl hsettled => by
        rw [hmissed l hl, if_neg (mt htracks.isSome_awaiting_iff.1 hsettled)]
        rfl
      told := fun l hl => by
        obtain ⟨w, hstage, htold⟩ := told_of_sign_ping hl
        have hlast := htracks.last
        rw [vitals, Supervisor.vitals, Supervisor.probes?, hstage] at hlast
        have hnonce : w.nonce = UInt64.ofNat (pings since) := Option.some.inj hlast
        rw [htold, hnonce, UInt64.ofNat_add]
        rfl
      answered := fun l nonce active hl => by
        have hpong := vitals_after_of_sign hl
        exact ⟨congrArg Vitals.missedPongs hpong, congrArg Vitals.activeSessions hpong⟩
      settled := fun l nonce active hl hunsettled => by
        have hnext := (htracks.pong nonce active).isSome_awaiting_iff
        rw [unsettled_pong_iff, and_iff_right hunsettled] at hnext
        rw [vitals_after_of_sign hl, ← Option.not_isSome_iff_eq_none, hnext, not_not]
      awaiting := htracks.awaiting
      unchanged := fun l hl => by
        rw [vitals_after, hl]
        rfl
      behind_stale := fun before nonce active after heq hafter hunsettled => by
        obtain ⟨u, hu, hcount⟩ := hbehind before nonce active after heq hafter
        rw [hcount, if_pos (hu.isSome_awaiting_iff.2 hunsettled)]
      behind_fresh := fun before nonce active after heq hafter hsettled => by
        obtain ⟨u, hu, hcount⟩ := hbehind before nonce active after heq hafter
        rw [hcount, if_neg (mt hu.isSome_awaiting_iff.1 hsettled)]
      unanswered := fun hnone => by
        change s.vitals.missedPongs = _
        rw [hvitals, Vitals.missedPongs_afterAll_pings rfl (forall_eq_ping hsame hnone)]
        exact Nat.zero_add _ }

/-- **Missed probes are accounted for.** In whatever order a slot is probed, its process answers and
anything else happens to it, as long as the process that has become ready stays the same and has
been sent fewer than 2^32 probes: a further probe counts as missed the one before it exactly if that
is unsettled; any answer sets the count back to zero and names the sessions, but only one with the
nonce of the last probe settles it. So behind an answer the count is the number of probes since
then, or one less if the answer has left none unsettled, and before any answer it is one less than
the number of probes. -/
theorem accounted_of_follow {config : Config} {index : Nat} {now : Instant} {ls : List Label}
    (h : (Supervision.start config index now).follow ls = some s) {earlier : List Sign}
    {pid : UInt32}
    (hsigns : (Supervision.start config index now).signs ls = earlier ++ .ready pid :: since)
    (hsame : ∀ x ∈ since, x.isProbing = true) (hfew : pings since < 2 ^ 32) :
    s.Accounted since := by
  have hvitals : s.vitals =
      ((Vitals.afterAll {} earlier).after (.ready pid)).afterAll since := by
    rw [vitals_follow h, vitals_start, hsigns, Vitals.afterAll_append, Vitals.afterAll_cons]
  exact accounted_of_vitals hvitals hsame hfew

/-- A process that answers the first of two probes behind the second one, and nothing after
that. -/
def lateAnswer : List Label :=
  [.hear (.line "ready 7 127.0.0.1:2775"), .pass 5000000000, .hear .clock, .pass 10000000000,
    .hear .clock, .hear (.line "pong 1 3"), .pass 15000000000, .hear .clock]

/-- Its late answer sets the count back and leaves the second probe unsettled, which is missed when
the third one is sent. -/
theorem accounted_lateAnswer :
    ∃ s, (Supervision.start {} 0 0).follow lateAnswer = some s ∧
      s.Accounted [.ping, .ping, .pong 1 3, .ping] ∧ s.supervisor.health.missedPongs = 1 ∧
      s.supervisor.health.activeSessions = 3 := by
  have hrun : ∃ s, (Supervision.start {} 0 0).follow lateAnswer = some s ∧
      (Supervision.start {} 0 0).signs lateAnswer =
        [] ++ .ready 7 :: [.ping, .ping, .pong 1 3, .ping] ∧
      s.supervisor.health.activeSessions = 3 := ⟨_, rfl, rfl, rfl⟩
  obtain ⟨s, hs, hsigns, hactive⟩ := hrun
  have haccounted := accounted_of_follow hs hsigns (by decide) (by decide)
  have hstale : Unsettled ([.ping, .ping] ++ [.pong 1 3]) :=
    unsettled_pong_iff.2 ⟨unsettled_ping [.ping], by decide⟩
  have hmissed := haccounted.behind_stale [.ping, .ping] 1 3 [.ping] rfl (by decide) hstale
  exact ⟨s, hs, haccounted, hmissed, hactive⟩

end Supervision

end Smpp
