import Smpp.Proofs.Handler.Clock
import Smpp.Proofs.Handler.Due

/-!
# Wake-ups are exact

A session names the first instant at which it wants to be looked at (`Session.nextWakeup`), from the
silence of its client, the next probe and the first deadline; what is done at that instant is
computed apart from it, by `expire`, `isIdle` and `keepalive`. The two agree: each of the three has
something to do exactly when its own part of the instant has come (`Session.expire_quiet_iff`,
`Session.keepalive_quiet_iff`), and what has nothing to do leaves the session as it is. So a session
is woken neither too late nor for nothing, and after it was looked at it is woken later, unless its
client has been silent for too long. Then the instant stays in the past, and it is the handler that
ends (`Session.wakeups_exact`).
-/

namespace Smpp

namespace Session

section Quiet

variable {s : Session} {now : Instant}

/-- An instant is before the wake-up exactly when it is before each of the three. -/
theorem lt_nextWakeup_iff :
    now < s.nextWakeup ↔
      s.isIdle now = false ∧ (∀ t, s.keepaliveDue = some t → now < t) ∧
        ∀ request ∈ s.tracker.pending, now < request.deadline := by
  rw [← Tracker.lt_nextDeadline_iff]
  constructor
  · intro hearly
    obtain ⟨hfirst, hdeadline⟩ := Nat.lt_min.1 hearly
    obtain ⟨hidle, hprobe⟩ := Nat.lt_min.1 hfirst
    refine ⟨decide_eq_false (Nat.not_le.2 hidle), fun t ht => ?_, fun d hd => ?_⟩
    · rw [ht] at hprobe
      exact hprobe
    · rw [hd] at hdeadline
      exact hdeadline
  · rintro ⟨hidle, hprobe, hdeadline⟩
    exact lt_nextWakeup hidle hprobe hdeadline

/-- Nothing is given up exactly when nothing is overdue. -/
theorem expire_quiet_iff :
    (s.expire now).2 = [] ↔ ∀ request ∈ s.tracker.pending, now < request.deadline :=
  List.map_eq_nil_iff.trans Tracker.expire_eq_nil_iff

/-- Where nothing is overdue, the session stays as it is. -/
theorem expire_of_lt (hall : ∀ request ∈ s.tracker.pending, now < request.deadline) :
    s.expire now = (s, []) := by
  refine Prod.ext ?_ (expire_quiet_iff.2 hall)
  change ({ s with tracker := (s.tracker.expire now).1 } : Session) = s
  rw [Tracker.expire_of_lt hall]

/-- Where no probe is due, the session stays as it is. -/
theorem keepalive_of_lt (hprobe : ∀ t, s.keepaliveDue = some t → now < t) :
    s.keepalive now = (s, none) := by
  unfold keepalive
  split
  · rfl
  · next due hdue => exact if_pos (hprobe due hdue)

/-- Nothing is sent exactly when no probe is due. -/
theorem keepalive_quiet_iff :
    (s.keepalive now).2 = none ↔ ∀ t, s.keepaliveDue = some t → now < t := by
  refine ⟨fun hquiet t ht => ?_, fun hprobe => by rw [keepalive_of_lt hprobe]⟩
  unfold keepalive at hquiet
  rw [ht] at hquiet
  dsimp only at hquiet
  split at hquiet
  · next hearly => exact hearly
  · cases hquiet

/-- What a session does at its wake-up. -/
theorem lt_nextWakeup_iff_quiet :
    now < s.nextWakeup ↔
      (s.expire now).2 = [] ∧ s.isIdle now = false ∧ (s.keepalive now).2 = none := by
  rw [lt_nextWakeup_iff, expire_quiet_iff, keepalive_quiet_iff]
  exact ⟨fun ⟨hidle, hprobe, hall⟩ => ⟨hall, hidle, hprobe⟩,
    fun ⟨hall, hidle, hprobe⟩ => ⟨hidle, hprobe, hall⟩⟩

/-- A silence that has lasted too long is not ended by what is overdue. -/
theorem nextWakeup_expire_le (hidle : s.isIdle now = true) : (s.expire now).1.nextWakeup ≤ now := by
  refine Nat.le_of_not_lt fun hearly => ?_
  have hawake : s.isIdle now = false := (lt_nextWakeup_iff.1 hearly).1
  rw [hidle] at hawake
  cases hawake

end Quiet

end Session

namespace Handler

/-- **A handler whose client has been silent for too long ends when it looks at its timers**, for
that reason, unless the client is gone by then. -/
theorem reason?_tick_of_idle {h : Handler} {now : Instant} (hserving : h.isServing = true)
    (hidle : h.engagement.session.isIdle now = true) :
    (h.tick now).1.reason? = some .idleTimeout ∨
      h.connection.ending = .reset ∧ (h.tick now).1.reason? = some .transportError := by
  have hdue : h.engagement.session.nextWakeup ≤ now := by
    refine Nat.le_of_not_lt fun hearly => ?_
    have hawake : h.engagement.session.isIdle now = false := (Session.lt_nextWakeup_iff.1 hearly).1
    rw [hidle] at hawake
    cases hawake
  -- What is overdue is not heard of, so the silence is as long after it as before.
  have hidle' : (h.engagement.session.expire now).1.isIdle now = true := hidle
  by_cases hgone : h.connection.ending = .reset
  case neg =>
    have htick := tick_of_there hgone hserving hdue
    dsimp only at htick
    rw [if_pos hidle'] at htick
    rw [htick]
    exact .inl rfl
  have hlooked := looked h now
  generalize h.tick now = r at hlooked
  cases hlooked with
  | early hearly =>
    obtain hended | hearly := hearly
    · rw [hserving] at hended
      cases hended
    · exact absurd hearly (Nat.not_lt.2 hdue)
  | gone => exact .inr ⟨hgone, rfl⟩
  | silent => exact .inl rfl
  | awake hserving hawake =>
    rw [hidle'] at hawake
    cases hawake

theorem not_serving_tick_of_idle {h : Handler} {now : Instant}
    (hidle : h.engagement.session.isIdle now = true) : (h.tick now).1.isServing = false := by
  by_cases hserving : h.isServing = true
  · rw [Bool.eq_false_iff]
    intro hserving'
    have hgoes : (h.tick now).1.reason? = none := reason?_of_serving hserving'
    obtain hreason | ⟨-, hreason⟩ := reason?_tick_of_idle hserving hidle
    · rw [hgoes] at hreason
      cases hreason
    · rw [hgoes] at hreason
      cases hreason
  · have hended := Bool.eq_false_iff.2 hserving
    rw [tick_of_early (.inl hended)]
    exact hended

end Handler

namespace Session

/-- **Wake-ups are exact.** For every session and every instant:

* before the wake-up nothing is overdue, the client has not been silent for too long and no probe is
  due, and to look at them changes nothing;
* from the wake-up on, at least one of the three has something to do;
* a session whose client has not been silent for too long is woken later once it was looked at, if
  its probes are an interval apart at all;
* a client that has been silent for too long is silent still when what is overdue is given up: the
  wake-up stays where it was, and a handler that looks at its timers then serves its client no more.
  One that did until then ends over the silence, or because the client is gone. -/
theorem wakeups_exact (s : Session) (now : Instant) :
    (now < s.nextWakeup →
      s.expire now = (s, []) ∧ s.isIdle now = false ∧ s.keepalive now = (s, none)) ∧
    (s.nextWakeup ≤ now →
      (s.expire now).2 ≠ [] ∨ s.isIdle now = true ∨ (s.keepalive now).2 ≠ none) ∧
    (0 < s.config.enquireLinkInterval → s.isIdle now = false →
      now < ((s.expire now).1.keepalive now).1.nextWakeup) ∧
    (s.isIdle now = true →
      (s.expire now).1.nextWakeup ≤ now ∧
        ∀ h : Handler, h.engagement.session = s →
          (h.tick now).1.isServing = false ∧
          (h.isServing = true →
            (h.tick now).1.reason? = some .idleTimeout ∨
              h.connection.ending = .reset ∧
                (h.tick now).1.reason? = some .transportError)) := by
  refine ⟨fun hearly => ?_, fun hdue => ?_, lt_nextWakeup_looked, fun hidle => ?_⟩
  · obtain ⟨hidle, hprobe, hall⟩ := lt_nextWakeup_iff.1 hearly
    exact ⟨expire_of_lt hall, hidle, keepalive_of_lt hprobe⟩
  · -- Were all three quiet, the wake-up would be yet to come.
    by_contra hquiet
    push Not at hquiet
    obtain ⟨hexpire, hidle, hkeepalive⟩ := hquiet
    refine Nat.not_le.2 (lt_nextWakeup_iff_quiet.2 ⟨hexpire, ?_, hkeepalive⟩) hdue
    exact Bool.eq_false_iff.2 hidle
  · refine ⟨nextWakeup_expire_le hidle, ?_⟩
    rintro h rfl
    exact ⟨Handler.not_serving_tick_of_idle hidle,
      fun hserving => Handler.reason?_tick_of_idle hserving hidle⟩

/-- A client that says nothing for five minutes is not woken again: once what is overdue was given
up, the instant of the next look is still the one that has come. -/
theorem not_lt_nextWakeup_of_silence :
    0 < (start {} 0).config.enquireLinkInterval ∧ (start {} 0).state ≠ .closed ∧
      (start {} 0).lastActivity ≤ Span.ofSeconds 300 ∧
      (start {} 0).isIdle (Span.ofSeconds 300) = true ∧
      ¬ Span.ofSeconds 300 < ((start {} 0).expire (Span.ofSeconds 300)).1.nextWakeup := by
  decide

end Session

end Smpp
