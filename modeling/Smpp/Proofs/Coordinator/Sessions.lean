import Mathlib
import Smpp.Proofs.Coordinator.Gateway
import Smpp.Proofs.Supervisor.Signs

/-!
# The sessions that are known of

A gateway adds up the sessions that its workers have named. What a slot contributes is what the last
answer named that any of its processes has given (`Sign.lastNamed`): neither the end of a process
nor the start of the next one changes it. This is what the process that is there has named itself
(`Sign.ofProcess`) as long as it has answered. A slot that is empty, or whose process has not
answered yet, goes on to contribute the sessions of a process that is gone, unless that one had
named none (`sessions_of_follow`).

A slot of a gateway is supervised as any slot is: whatever every slot keeps, the slots of a gateway
keep (`forall_slots_of_follow`). What it contributes is read off its signs.
-/

namespace Smpp

namespace Sign

/-- The sessions that an answer names. -/
def named? : Sign → Option Nat
  | .pong _ activeSessions => some activeSessions.toNat
  | .ready _ | .ping | .gone => none

/-- How many sessions the last answer named, whichever process gave it. -/
def lastNamed (signs : List Sign) : Nat := (signs.filterMap named?).getLast?.getD 0

/-- Which process is there from now on, if that changes. -/
def process? : Sign → Option (Option UInt32)
  | .ready pid => some (some pid)
  | .gone => some none
  | .ping | .pong .. => none

/-- The process that is ready and not gone. -/
def process (signs : List Sign) : Option UInt32 := (signs.filterMap process?).getLast?.getD none

/-- The signs that have been given since a process was last ready or gone. -/
def sinceChange (signs : List Sign) : List Sign := signs.rtakeWhile (·.process?.isNone)

/-- No process is there, or it has not answered yet. -/
def IsSilent (signs : List Sign) : Prop :=
  process signs = none ∨ ∀ x ∈ sinceChange signs, x.isPong = false

/-- How many sessions the process that is there has last named itself, if one is there. -/
def ofProcess (signs : List Sign) : Nat :=
  if (process signs).isSome then lastNamed (sinceChange signs) else 0

/-- Signs without an answer name nothing. -/
theorem filterMap_named?_eq_nil {signs : List Sign} (h : ∀ x ∈ signs, x.isPong = false) :
    signs.filterMap named? = [] := by
  rw [List.filterMap_eq_nil_iff]
  intro x hx
  cases x with
  | pong nonce active => cases h _ hx
  | ready | ping | gone => rfl

theorem ofProcess_of_isSilent {signs : List Sign} (h : IsSilent signs) : ofProcess signs = 0 := by
  rw [ofProcess]
  rcases h with hnone | hsince
  · rw [hnone]
    rfl
  · rw [lastNamed, filterMap_named?_eq_nil hsince]
    exact ite_self 0

theorem ofProcess_of_not_isSilent {signs : List Sign} (h : ¬IsSilent signs) :
    ofProcess signs = lastNamed signs := by
  obtain ⟨hthere, hanswered⟩ := not_or.1 h
  push Not at hanswered
  obtain ⟨x, hx, hpong⟩ := hanswered
  have hnamed : (sinceChange signs).filterMap named? ≠ [] := by
    cases x with
    | pong nonce active => exact List.ne_nil_of_mem (List.mem_filterMap.2 ⟨_, hx, rfl⟩)
    | ready | ping | gone => exact absurd rfl hpong
  rw [ofProcess, if_pos (Option.isSome_iff_ne_none.2 hthere), lastNamed, lastNamed]
  -- What was named before the change comes before what was named since.
  have hsplit : signs = signs.rdropWhile (·.process?.isNone) ++ sinceChange signs :=
    List.rdropWhile_append_rtakeWhile.symm
  conv_rhs => rw [hsplit, List.filterMap_append, List.getLast?_append_of_ne_nil _ hnamed]

/-- The last answer is one of the process that is there, or it named nothing. -/
theorem lastNamed_eq_ofProcess_iff {signs : List Sign} :
    lastNamed signs = ofProcess signs ↔ (IsSilent signs → lastNamed signs = 0) := by
  by_cases h : IsSilent signs
  · rw [ofProcess_of_isSilent h]
    exact ⟨fun hzero _ => hzero, fun hzero => hzero h⟩
  · rw [ofProcess_of_not_isSilent h]
    exact ⟨fun _ hsilent => absurd hsilent h, fun _ => rfl⟩

theorem ofProcess_le_lastNamed (signs : List Sign) : ofProcess signs ≤ lastNamed signs := by
  by_cases h : IsSilent signs
  · exact ofProcess_of_isSilent h ▸ Nat.zero_le _
  · exact (ofProcess_of_not_isSilent h).le

/-- Nothing makes up for the sessions that a process that is gone has named. -/
theorem sum_lastNamed_eq_sum_ofProcess_iff {slots : List (List Sign)} :
    (slots.map lastNamed).sum = (slots.map ofProcess).sum ↔
      ∀ signs ∈ slots, IsSilent signs → lastNamed signs = 0 := by
  induction slots with
  | nil => exact iff_of_true rfl fun signs hsigns => by cases hsigns
  | cons signs slots ih =>
    have hle := ofProcess_le_lastNamed signs
    have hsum : (slots.map ofProcess).sum ≤ (slots.map lastNamed).sum :=
      List.sum_le_sum fun x _ => ofProcess_le_lastNamed x
    rw [List.forall_mem_cons, ← ih, ← lastNamed_eq_ofProcess_iff, List.map_cons, List.sum_cons,
      List.map_cons, List.sum_cons]
    omega

end Sign

namespace Vitals

/-- **Sessions stay named** until another answer names others. -/
theorem activeSessions_afterAll (v : Vitals) (signs : List Sign) :
    (v.afterAll signs).activeSessions =
      (signs.filterMap Sign.named?).getLast?.getD v.activeSessions := by
  induction signs generalizing v with
  | nil => rfl
  | cons x signs ih =>
    rw [afterAll_cons, ih]
    cases x with
    | pong nonce active =>
      change _ = (active.toNat :: signs.filterMap Sign.named?).getLast?.getD v.activeSessions
      rw [List.getLast?_cons]
      rfl
    | ready | ping | gone => rfl

/-- **A process is there** from when it becomes ready until it is gone. -/
theorem pid_afterAll (v : Vitals) (signs : List Sign) :
    (v.afterAll signs).pid = (signs.filterMap Sign.process?).getLast?.getD v.pid := by
  induction signs generalizing v with
  | nil => rfl
  | cons x signs ih =>
    rw [afterAll_cons, ih]
    cases x with
    | ready pid =>
      change _ = (some pid :: signs.filterMap Sign.process?).getLast?.getD v.pid
      rw [List.getLast?_cons]
      rfl
    | gone =>
      change _ = (none :: signs.filterMap Sign.process?).getLast?.getD v.pid
      rw [List.getLast?_cons]
      rfl
    | ping | pong => rfl

end Vitals

namespace Supervision

/-- A slot has given some signs since it was filled for the first time. -/
def Shows (config : Config) (s : Supervision) (signs : List Sign) : Prop :=
  ∃ index history, (Supervision.start config index 0).follow history = some s ∧
    (Supervision.start config index 0).signs history = signs

/-- **What a slot contributes**, by the signs that it has given. -/
structure Counted (s : Supervision) (signs : List Sign) : Prop where
  /-- The process that is there is the last that became ready, if it is not gone. -/
  process : s.supervisor.health.pid = Sign.process signs
  /-- The slot contributes what the last answer named, whichever process gave it. -/
  named : s.supervisor.health.activeSessions = Sign.lastNamed signs
  /-- A process that has answered contributes what its last answer named. -/
  answered : ∀ (before : List Sign) (nonce active : UInt64) (after : List Sign),
    signs = before ++ .pong nonce active :: after → (∀ x ∈ after, x.isPong = false) →
      s.supervisor.health.activeSessions = active.toNat
  /-- A process that has not answered leaves what the ones before it have named, -/
  fresh : ∀ (earlier : List Sign) (pid : UInt32) (since : List Sign),
    signs = earlier ++ .ready pid :: since → (∀ x ∈ since, x.isPong = false) →
      s.supervisor.health.activeSessions = Sign.lastNamed earlier
  /-- and so does an empty slot: what it contributes is what the process that is there has named,
  unless that one is silent and the ones before it have named sessions. -/
  ofProcess : s.supervisor.health.activeSessions = Sign.ofProcess signs ↔
    (Sign.IsSilent signs → Sign.lastNamed signs = 0)

theorem Shows.counted {config : Config} {s : Supervision} {signs : List Sign}
    (h : s.Shows config signs) : s.Counted signs := by
  obtain ⟨index, history, hfollow, rfl⟩ := h
  have hvitals := vitals_follow hfollow
  rw [vitals_start] at hvitals
  have hnamed : s.supervisor.health.activeSessions =
      Sign.lastNamed ((Supervision.start config index 0).signs history) :=
    (congrArg Vitals.activeSessions hvitals).trans (Vitals.activeSessions_afterAll {} _)
  refine
    { process := (congrArg Vitals.pid hvitals).trans (Vitals.pid_afterAll {} _)
      named := hnamed
      answered := fun before nonce active after heq hafter => ?_
      fresh := fun earlier pid since heq hsince => ?_
      ofProcess := hnamed ▸ Sign.lastNamed_eq_ofProcess_iff }
  -- After an answer nothing has named a count any more, so the last one named is that of the
  -- answer; with a new process nothing has named one since, so it is the one from before.
  · have hanswer : (Sign.pong nonce active :: after).filterMap Sign.named? = [active.toNat] :=
      congrArg (active.toNat :: ·) (Sign.filterMap_named?_eq_nil hafter)
    rw [hnamed, heq, Sign.lastNamed, List.filterMap_append, hanswer, List.getLast?_concat]
    rfl
  · have hnone : (Sign.ready pid :: since).filterMap Sign.named? = [] :=
      Sign.filterMap_named?_eq_nil (List.forall_mem_cons.2 ⟨rfl, hsince⟩)
    rw [hnamed, heq, Sign.lastNamed, List.filterMap_append, hnone, List.append_nil]
    rfl

end Supervision

namespace Gateway

variable {config : Config} {g g' : Gateway} {ls : List Label}

/-- What is known of all workers. -/
def snapshot (g : Gateway) : HealthSnapshot := ⟨g.slots.map fun s => s.supervisor.health⟩

/-- What every slot keeps by itself is kept by the slots of a gateway. -/
theorem forall_slots_after {p : Nat → Supervision → Prop}
    (hafter : ∀ index s l, p index s → s.isPossible l = true → p index (s.after l))
    {patience : Span} (hkept : Kept patience g)
    (hslots : ∀ index s, g.slots[index]? = some s → p index s) {l : Label}
    (hl : g.isPossible l = true) :
    ∀ index s, (g.after l).slots[index]? = some s → p index s := by
  have hinSlot (place : Nat) (l : Supervision.Label)
      (hl : g.slots[place]?.any (·.isPossible l) = true) :
      ∀ index s, (g.inSlot place l).slots[index]? = some s → p index s := by
    intro index s hs
    change (g.slots.modify place (·.after l))[index]? = some s at hs
    rw [List.getElem?_modify] at hs
    obtain ⟨t, ht, rfl⟩ := Option.map_eq_some_iff.1 hs
    split
    · next heq =>
      subst heq
      rw [ht] at hl
      exact hafter place t l (hslots place t ht) hl
    · exact hslots index t ht
  cases l with
  | pass t =>
    intro index s hs
    obtain ⟨u, hu, rfl⟩ := Option.map_eq_some_iff.1 ((List.getElem?_map ..).symm.trans hs)
    rw [isPossible, Bool.and_eq_true] at hl
    exact hafter index u (.pass t) (hslots index u hu)
      (List.all_eq_true.1 hl.2 u (List.mem_of_getElem? hu))
  | stop => exact hslots
  | exit index => exact hinSlot index .exit hl
  | hear index e => exact hinSlot index (.hear e) hl
  | decide =>
    rw [Gateway.after]
    split
    · next c hnext =>
      intro index s hs
      obtain ⟨u, hu, rfl⟩ := Option.map_eq_some_iff.1 ((List.getElem?_map ..).symm.trans hs)
      -- The coordinator takes nothing back, so every slot can be asked.
      obtain ⟨-, -, hdrain, hshutdown, hkill⟩ := lifecycle_of_decision (decision_of_next hnext)
      rw [← (hkept.slots index u hu).2.2] at hdrain hshutdown hkill
      exact hafter index u (.ask c.lifecycle) (hslots index u hu)
        (isPossible_ask hdrain hshutdown hkill)
    · exact hslots

/-- **What every slot keeps is kept by the slots of a gateway.** -/
theorem forall_slots_of_follow {p : Nat → Supervision → Prop}
    (hbegin : ∀ index, p index (Supervision.start config index 0))
    (hafter : ∀ index s l, p index s → s.isPossible l = true → p index (s.after l))
    (hstart : Gateway.start config = .ok g) (h : g.follow ls = some g') :
    ∀ index s, g'.slots[index]? = some s → p index s := by
  have hslots : ∀ index s, g.slots[index]? = some s → p index s := by
    rw [eq_of_start hstart]
    intro index s hs
    obtain ⟨i, hi, rfl⟩ := Option.map_eq_some_iff.1 ((List.getElem?_map ..).symm.trans hs)
    obtain ⟨-, rfl⟩ := List.getElem?_eq_some_iff.1 hi
    rw [List.getElem_range]
    exact hbegin index
  have hkept := Kept.start hstart
  clear hstart
  induction ls generalizing g with
  | nil =>
    cases h
    exact hslots
  | cons l ls ih =>
    rw [follow] at h
    split at h
    · next hl => exact ih h (forall_slots_after hafter hkept hslots hl) (hkept.after hl)
    · cases h

/-- The slot of a gateway has its own history. -/
theorem exists_history_of_follow (hstart : Gateway.start config = .ok g)
    (h : g.follow ls = some g') {index : Nat} {s : Supervision}
    (hs : g'.slots[index]? = some s) :
    ∃ history, (Supervision.start config index 0).follow history = some s := by
  refine forall_slots_of_follow
    (p := fun index s => ∃ history, (Supervision.start config index 0).follow history = some s)
    (fun index => ⟨[], rfl⟩) (fun index s l hhistory hl => ?_) hstart h index s hs
  obtain ⟨history, hhistory⟩ := hhistory
  refine ⟨history ++ [l], ?_⟩
  rw [Supervision.follow_append, hhistory, Option.bind_some, Supervision.follow, if_pos hl,
    Supervision.follow]

/-- All slots together contribute what their last answers named. -/
theorem totalSessions_of_shows {slots : List Supervision}
    (h : ∀ s ∈ slots, ∃ signs, s.Shows config signs) :
    ∃ signs : List (List Sign),
      List.Forall₂ (fun s signs => s.Shows config signs ∧ s.Counted signs) slots signs ∧
      HealthSnapshot.totalSessions ⟨slots.map fun s => s.supervisor.health⟩ =
        (signs.map Sign.lastNamed).sum := by
  induction slots with
  | nil => exact ⟨[], .nil, rfl⟩
  | cons s slots ih =>
    obtain ⟨⟨shown, hshows⟩, hslots⟩ := List.forall_mem_cons.1 h
    obtain ⟨signs, hall, htotal⟩ := ih hslots
    refine ⟨shown :: signs, .cons ⟨hshows, hshows.counted⟩ hall, ?_⟩
    change s.supervisor.health.activeSessions + HealthSnapshot.totalSessions _ =
      Sign.lastNamed shown + (signs.map Sign.lastNamed).sum
    rw [htotal, hshows.counted.named]

/-- **The sessions that are known of.** In whatever order the processes of a gateway become ready,
answer, exit and are replaced: a slot contributes the sessions that the last answer of any of its
processes named, and none before the first answer. A process that has answered contributes what it
last named itself. So the snapshot counts the sessions of the processes that are there exactly if,
in every slot that is empty or whose process has not answered yet, the processes before have given
no answer or named no session in the last one. -/
theorem sessions_of_follow (hstart : Gateway.start config = .ok g) (h : g.follow ls = some g') :
    ∃ signs : List (List Sign),
      List.Forall₂ (fun s signs => s.Shows config signs ∧ s.Counted signs) g'.slots signs ∧
      g'.snapshot.totalSessions = (signs.map Sign.lastNamed).sum ∧
      (g'.snapshot.totalSessions = (signs.map Sign.ofProcess).sum ↔
        ∀ x ∈ signs, Sign.IsSilent x → Sign.lastNamed x = 0) := by
  have hshows : ∀ s ∈ g'.slots, ∃ signs, s.Shows config signs := by
    intro s hs
    obtain ⟨index, hindex⟩ := List.getElem?_of_mem hs
    obtain ⟨history, hhistory⟩ := exists_history_of_follow hstart h hindex
    exact ⟨_, index, history, hhistory, rfl⟩
  obtain ⟨signs, hall, htotal⟩ := totalSessions_of_shows hshows
  refine ⟨signs, hall, htotal, ?_⟩
  rw [← Sign.sum_lastNamed_eq_sum_ofProcess_iff]
  exact htotal ▸ Iff.rfl

/-- A worker that names seven sessions and exits. -/
def lostWorker : List Label :=
  [.hear 0 (.line "ready 100 127.0.0.1:2775"), .decide, .pass 5000000000, .hear 0 .clock,
    .hear 0 (.line "pong 1 7"), .exit 0, .hear 0 .exited]

/-- It is replaced a backoff later. -/
def replacedWorker : List Label :=
  lostWorker ++ [.pass 6000000000, .hear 0 .clock, .hear 0 (.line "ready 101 127.0.0.1:2775")]

/-- A gateway that has lost its only worker, and another one that has replaced it. -/
theorem sessions_lost_and_replaced :
    ∃ g lost replaced, Gateway.start { workerCount := 1 } = .ok g ∧
      g.follow lostWorker = some lost ∧ g.follow replacedWorker = some replaced ∧
      ∀ g' ∈ [lost, replaced], ∃ signs : List (List Sign),
        List.Forall₂ (fun s signs => s.Shows { workerCount := 1 } signs ∧ s.Counted signs)
          g'.slots signs ∧
        7 = (signs.map Sign.lastNamed).sum ∧
        (7 = (signs.map Sign.ofProcess).sum ↔
          ∀ x ∈ signs, Sign.IsSilent x → Sign.lastNamed x = 0) := by
  have hrun : ∃ g lost replaced, Gateway.start { workerCount := 1 } = .ok g ∧
      g.follow lostWorker = some lost ∧ g.follow replacedWorker = some replaced ∧
      lost.snapshot.totalSessions = 7 ∧ replaced.snapshot.totalSessions = 7 :=
    ⟨_, _, _, rfl, rfl, rfl, rfl, rfl⟩
  obtain ⟨g, lost, replaced, hstart, hlost, hreplaced, hseven, hseven'⟩ := hrun
  refine ⟨g, lost, replaced, hstart, hlost, hreplaced, ?_⟩
  rw [List.forall_mem_cons, List.forall_mem_singleton]
  exact ⟨hseven ▸ sessions_of_follow hstart hlost, hseven' ▸ sessions_of_follow hstart hreplaced⟩

/-- **The sessions of a process that is gone are still counted**, while its slot is empty and when
the next process is ready and has not answered. -/
theorem lost_sessions_counted :
    ∃ g empty replaced, Gateway.start { workerCount := 1 } = .ok g ∧
      g.follow lostWorker = some empty ∧
      empty.supervisors.map (·.health.pid) = [none] ∧ empty.snapshot.totalSessions = 7 ∧
      g.follow replacedWorker = some replaced ∧
      replaced.supervisors.map (·.health.pid) = [some 101] ∧
      replaced.snapshot.totalSessions = 7 :=
  ⟨_, _, _, rfl, rfl, rfl, rfl, rfl, rfl, rfl⟩

end Gateway

end Smpp
