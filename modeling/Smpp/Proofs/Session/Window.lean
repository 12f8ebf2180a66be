import Smpp.Proofs.Session.Admission
import Smpp.Proofs.Session.Ledger
import Smpp.Proofs.Session.Lifecycle

/-!
# How many messages are with the backend

A session hands over a message only while fewer are with the backend than its settings allow, and a
message counts until its call is over, whatever becomes of the session in the meantime. A call ends
in two steps: it sends its result, and then it is over. In between the result waits in line, and the
session may even have taken it, while the call still counts.

`Window` is a ledger that follows the calls through these steps. Under `Window.Kept`, which every
step preserves (`Kept.step`), what runs is what was begun and is not over, and the call for which a
number is pending is one whose result the session has not taken: it runs, or its result is in line.
So there is never more pending than runs and waits (`window_bounded`).

The runs of a ledger, in which a call is over as soon as its result is in line, are among those of a
window (`ledger_after_turnsOf`).
-/

namespace Smpp

/-! ### What a step does to a ledger -/

namespace Ledger

open Engagement (Event)

variable {l : Ledger}

/-- A frame begins a call under its number, for which there is room, or it begins none. -/
theorem step_frame_eq (l : Ledger) (f : Frame) (now : Instant) (verdict : AuthResult)
    (decided : Instant) :
    ∃ s : Session, s.config = l.session.config ∧
      (l.step (.frame f now verdict decided) = l.followSession s ∨
        l.engagement.calls.inFlight < l.session.config.maxPendingSubmits ∧
          l.step (.frame f now verdict decided) =
            l.begin ⟨s, (l.engagement.calls.begin f.sequence).1⟩ l.engagement.calls.made
              f.sequence) := by
  have hstep : l.step (.frame f now verdict decided) = l.react f (l.engagement.react
      (l.session.dispatch now l.engagement.calls.inFlight f verdict decided)) :=
    congrArg (l.react f) (Engagement.dispatch_eq l.engagement now f verdict decided)
  rw [hstep]
  have hdispatched :=
    Session.dispatched l.session now l.engagement.calls.inFlight f verdict decided
  have hconfig :=
    (Session.course_frame (s := l.session) f now l.engagement.calls.inFlight verdict decided).1
  have hroom : ∀ n m,
      (l.session.dispatch now l.engagement.calls.inFlight f verdict decided).2 = .submit n m →
        l.engagement.calls.inFlight < l.session.config.maxPendingSubmits :=
    fun n m h => (Session.admits_of_dispatch h).2.2
  -- A call begins exactly with a submit, and a session asks for one only while there is room.
  generalize l.session.dispatch now l.engagement.calls.inFlight f verdict decided = x at *
  obtain ⟨s, a⟩ := x
  refine ⟨s, hconfig, ?_⟩
  cases hdispatched with
  | afterEnd hover => exact .inl rfl
  | ignored hactive hstate htracker => exact .inl rfl
  | answered hactive hstate htracker => exact .inl rfl
  | taken htransmit hsubmit htrack hstate htracker =>
    cases Frame.sequence_of_isSubmit hsubmit
    exact .inr ⟨hroom _ _ rfl, rfl⟩
  | ended hactive hstate htracker => exact .inl rfl

/-- Nothing that happens changes the settings. -/
theorem config_step (l : Ledger) (e : Event) : (l.step e).session.config = l.session.config := by
  cases e with
  | frame f now verdict decided =>
    obtain ⟨s, hconfig, hstep | ⟨-, hstep⟩⟩ := l.step_frame_eq f now verdict decided
    · rw [hstep]
      exact hconfig
    · rw [hstep]
      exact hconfig
  | answer call result => rfl
  | complete =>
    unfold step Engagement.completeNext
    cases l.engagement.calls.take? with
    | none => rfl
    | some p => exact (Session.course l.session (.complete p.1)).1
  | expire now => rfl
  | keepalive now => exact (Session.course l.session (.keepalive now)).1
  | shutdown => exact (Session.course l.session .shutdown).1
  | close => rfl

theorem Kept.find?_running (h : l.Kept) {call : Call} (hcall : call ∈ l.engagement.calls.running) :
    l.engagement.calls.running.find? (·.number == call.number) = some call := by
  cases hfind : l.engagement.calls.running.find? (·.number == call.number) with
  | none =>
    have hnone := List.find?_eq_none.1 hfind call hcall
    exact absurd (beq_self_eq_true call.number) hnone
  | some c =>
    -- What is found has the number, and calls with the same number are the same.
    have hnumber : (c.number == call.number) = true :=
      List.find?_some (p := fun c : Call => c.number == call.number) hfind
    have hsame := h.eq_of_number (h.running c (List.mem_of_find?_eq_some hfind))
      (h.running call hcall) (beq_iff_eq.1 hnumber)
    rw [hsame]

theorem Kept.complete_of_nil (h : l.Kept) (hline : l.line = []) : l.step .complete = l := by
  unfold Ledger.step Engagement.completeNext Calls.take?
  rw [h.finished, hline]
  rfl

/-- The session takes the first result in line. -/
theorem Kept.complete_of_cons (h : l.Kept) {p : Call × SubmitResult}
    {rest : List (Call × SubmitResult)} (hline : l.line = p :: rest) :
    ∃ calls : Calls, calls.running = l.engagement.calls.running ∧
      calls.made = l.engagement.calls.made ∧
      l.step .complete = { l.follow ⟨(l.session.complete ⟨p.1.sequence, p.2⟩).1, calls⟩ with
        line := rest } := by
  unfold Ledger.step Engagement.completeNext Calls.take?
  rw [h.finished, hline]
  exact ⟨{ l.engagement.calls with finished := rest.map fun q => ⟨q.1.sequence, q.2⟩ },
    rfl, rfl, rfl⟩

end Ledger

/-- A ledger, with an account of how far its calls have come. -/
structure Window where
  ledger : Ledger
  /-- The calls whose results have got in line, in that order. -/
  delivered : List Nat := []
  /-- The calls whose results the session has taken, in that order. -/
  taken : List Nat := []
  /-- The calls that are over. -/
  ended : List Nat := []

namespace Window

open Engagement (Event)

/-- One thing that happens in a window. -/
inductive Turn where
  /-- What happens to an engagement; where a call is answered, its result gets in line. -/
  | event (e : Event)
  /-- A call is over. -/
  | leave (call : Nat)

/-- A window that opens now. -/
def start (config : Config) (now : Instant) : Window := { ledger := .start config now }

/-- The calls of a window. -/
def calls (w : Window) : Calls := w.ledger.engagement.calls

/-- A call has been begun, and its result has not got in line. -/
def Asking (w : Window) (call : Nat) : Prop :=
  call ∈ w.ledger.begun.map Call.number ∧ call ∉ w.delivered

/-- The result of a call has got in line, and the call is not over. -/
def Lingering (w : Window) (call : Nat) : Prop := call ∈ w.delivered ∧ call ∉ w.ended

instance (w : Window) (call : Nat) : Decidable (w.Asking call) :=
  inferInstanceAs (Decidable (_ ∧ _))

instance (w : Window) (call : Nat) : Decidable (w.Lingering call) :=
  inferInstanceAs (Decidable (_ ∧ _))

/-- Writes down one thing that happens. A call sends one result, and is over some time after. -/
def step (w : Window) : Turn → Window
  | .event (.answer call result) =>
    if w.Asking call then
      { w with ledger := w.ledger.deliver call result, delivered := w.delivered ++ [call] }
    else w
  | .event .complete =>
    { w with
      ledger := w.ledger.step .complete
      taken := w.taken ++ (w.ledger.line.head?.map (·.1.number)).toList }
  | .event e => { w with ledger := w.ledger.step e }
  | .leave call =>
    if w.Lingering call then
      { w with ledger := w.ledger.leave call, ended := w.ended ++ [call] }
    else w

/-- The window after a row of turns. -/
def after (w : Window) (turns : List Turn) : Window := turns.foldl step w

/-! ### The invariant -/

/-- What a window always says. -/
structure Kept (config : Config) (w : Window) : Prop where
  ledger : w.ledger.Kept
  settings : w.ledger.session.config = config
  /-- What runs is what was begun and is not over. -/
  running : w.calls.running = w.ledger.begun.filter (·.number ∉ w.ended)
  /-- No more runs than is allowed. -/
  room : w.calls.inFlight ≤ config.maxPendingSubmits
  /-- What got in line has been taken or waits there. -/
  line : w.delivered = w.taken ++ w.ledger.line.map (·.1.number)
  delivered_lt : ∀ k ∈ w.delivered, k < w.calls.made
  /-- A call that is over has sent its result. -/
  ended : ∀ k ∈ w.ended, k ∈ w.delivered
  /-- A number stands for a call whose result the session has not taken. -/
  owned : ∀ n k, w.ledger.owner n = some k → k ∉ w.taken

theorem Kept.start (config : Config) (now : Instant) : Kept config (start config now) where
  ledger := Ledger.Kept.start config now
  settings := rfl
  running := rfl
  room := Nat.zero_le _
  line := rfl
  delivered_lt := fun _ h => absurd h List.not_mem_nil
  ended := fun _ h => absurd h List.not_mem_nil
  owned := fun _ _ h => nomatch h

section Step

variable {config : Config} {w : Window}

theorem Kept.taken_sub (h : Kept config w) {k : Nat} (hk : k ∈ w.taken) : k ∈ w.delivered := by
  rw [h.line]
  exact List.mem_append_left _ hk

theorem Kept.mem_running (h : Kept config w) {call : Call} (hbegun : call ∈ w.ledger.begun)
    (hended : call.number ∉ w.ended) : call ∈ w.calls.running := by
  rw [h.running]
  exact List.mem_filter.2 ⟨hbegun, decide_eq_true hended⟩

/-- A window goes on where no call begins or ends, no result comes and no number becomes pending. -/
theorem Kept.followed (h : Kept config w) {l : Ledger} (hl : l.Kept)
    (hconfig : l.session.config = w.ledger.session.config) (hcalls : l.engagement.calls = w.calls)
    (hbegun : l.begun = w.ledger.begun) (hline : l.line = w.ledger.line)
    (howner : ∀ n k, l.owner n = some k → w.ledger.owner n = some k) :
    Kept config { w with ledger := l } where
  ledger := hl
  settings := hconfig.trans h.settings
  running := by
    change l.engagement.calls.running = l.begun.filter (·.number ∉ w.ended)
    rw [hcalls, hbegun]
    exact h.running
  room := by
    change l.engagement.calls.inFlight ≤ _
    rw [hcalls]
    exact h.room
  line := by
    change w.delivered = w.taken ++ l.line.map (·.1.number)
    rw [hline]
    exact h.line
  delivered_lt := by
    change ∀ k ∈ w.delivered, k < l.engagement.calls.made
    rw [hcalls]
    exact h.delivered_lt
  ended := h.ended
  owned := fun n k hk => h.owned n k (howner n k hk)

/-- A call begins where there is room for it. -/
theorem Kept.began (h : Kept config w) {s : Session} {n : UInt32}
    (hroom : w.calls.inFlight < config.maxPendingSubmits) (hconfig : s.config = config)
    (hl : (w.ledger.begin ⟨s, (w.calls.begin n).1⟩ w.calls.made n).Kept) :
    Kept config { w with ledger := w.ledger.begin ⟨s, (w.calls.begin n).1⟩ w.calls.made n } where
  ledger := hl
  settings := hconfig
  running := by
    -- The new call is newer than every call that is over.
    have hnew : w.calls.made ∉ w.ended := by
      intro hmade
      exact Nat.lt_irrefl _ (h.delivered_lt _ (h.ended _ hmade))
    let call : Call := ⟨w.calls.made, n⟩
    change w.calls.running ++ [call] = (w.ledger.begun ++ [call]).filter (·.number ∉ w.ended)
    rw [List.filter_append, h.running, List.filter_singleton, decide_eq_true hnew, cond_true]
  room := by
    change (w.calls.running ++ [(⟨w.calls.made, n⟩ : Call)]).length ≤ _
    rw [List.length_append]
    exact hroom
  line := h.line
  delivered_lt := fun k hk => Nat.lt_succ_of_lt (h.delivered_lt k hk)
  ended := h.ended
  owned := by
    intro m k hk htaken
    change (w.ledger.begin _ _ n).owner m = some k at hk
    rw [Ledger.begin_owner] at hk
    split at hk
    · have hlt := h.delivered_lt k (h.taken_sub htaken)
      rw [← Option.some.inj hk] at hlt
      exact Nat.lt_irrefl _ hlt
    · exact h.owned m k hk htaken

/-- A call sends its result. -/
theorem Kept.answered (h : Kept config w) (number : Nat) (result : SubmitResult) :
    Kept config (w.step (.event (.answer number result))) := by
  unfold step
  dsimp only
  split
  case isFalse => exact h
  case isTrue hasking =>
  obtain ⟨hbegun, hnew⟩ := hasking
  obtain ⟨call, hcall, rfl⟩ := List.mem_map.1 hbegun
  -- A call that has not sent its result is not over, so it runs.
  have hrunning := h.mem_running hcall fun hended => hnew (h.ended _ hended)
  have hline : (w.ledger.deliver call.number result).line = w.ledger.line ++ [(call, result)] := by
    unfold Ledger.deliver
    rw [h.ledger.find?_running hrunning]
    rfl
  refine ⟨h.ledger.delivered _ result, h.settings, h.running, h.room, ?_, ?_, ?_, h.owned⟩
  · change w.delivered ++ [call.number] =
      w.taken ++ (w.ledger.deliver call.number result).line.map (·.1.number)
    rw [hline, List.map_append, ← List.append_assoc, ← h.line]
    rfl
  · intro k hk
    obtain hk | hk := List.mem_append.1 hk
    · exact h.delivered_lt k hk
    · rw [List.mem_singleton.1 hk]
      exact h.ledger.number_lt hcall
  · exact fun k hk => List.mem_append_left _ (h.ended k hk)

/-- A call that has sent its result is over. -/
theorem Kept.left (h : Kept config w) (number : Nat) : Kept config (w.step (.leave number)) := by
  unfold step
  dsimp only
  split
  case isFalse => exact h
  case isTrue hlingering =>
  refine ⟨h.ledger.left number, h.settings, ?_, ?_, h.line, h.delivered_lt, ?_, h.owned⟩
  · change w.calls.running.filter (·.number != number) =
      w.ledger.begun.filter (·.number ∉ w.ended ++ [number])
    rw [h.running, List.filter_filter]
    refine List.filter_congr fun call _ => ?_
    simp only [List.mem_append, List.mem_singleton, not_or, decide_not, Bool.decide_and]
    exact Bool.and_comm _ _
  · change (w.calls.running.filter (·.number != number)).length ≤ _
    exact Nat.le_trans (List.length_filter_le _ _) h.room
  · intro k hk
    obtain hk | hk := List.mem_append.1 hk
    · exact h.ended k hk
    · rw [List.mem_singleton.1 hk]
      exact hlingering.1

/-- The session takes the first result in line. -/
theorem Kept.completed (h : Kept config w) : Kept config (w.step (.event .complete)) := by
  have hkept := h.ledger.step .complete
  have hconfig := w.ledger.config_step .complete
  unfold step
  dsimp only
  cases hline : w.ledger.line with
  | nil =>
    rw [h.ledger.complete_of_nil hline, List.head?_nil, Option.map_none, Option.toList_none,
      List.append_nil]
    exact h
  | cons p rest =>
    obtain ⟨calls, hrunning, hmade, hstep⟩ := h.ledger.complete_of_cons hline
    rw [hstep] at hkept hconfig ⊢
    refine ⟨hkept, hconfig.trans h.settings, hrunning.trans h.running, ?_, ?_, ?_, h.ended, ?_⟩
    · change calls.running.length ≤ _
      rw [hrunning]
      exact h.room
    · change w.delivered = w.taken ++ [p.1.number] ++ rest.map (·.1.number)
      rw [h.line, hline, List.append_assoc]
      rfl
    · change ∀ k ∈ w.delivered, k < calls.made
      rw [hmade]
      exact h.delivered_lt
    · intro n k hk htaken
      have hold : w.ledger.owner n = some k := Ledger.owner_of_follow hk
      obtain htaken | htaken := List.mem_append.1 htaken
      · exact h.owned n k hold htaken
      -- The number of the result stands for no call any more, so it is not the number that does.
      have hcall : p.1 = ⟨k, n⟩ :=
        h.ledger.eq_of_number (h.ledger.line p (by rw [hline]; exact List.mem_cons_self))
          (h.ledger.begun_of_owner hold) (List.mem_singleton.1 htaken).symm
      have hgone := h.ledger.sound.isPending_complete ⟨p.1.sequence, p.2⟩
      rw [hcall] at hgone
      have hnone := hkept.unowned n (by rw [hcall]; exact hgone)
      rw [hk] at hnone
      cases hnone

/-- **Every turn preserves what a window says.** -/
theorem Kept.step (h : Kept config w) (t : Turn) : Kept config (w.step t) := by
  -- A frame may begin a call, an answer and a completion are steps on the way of one, a task
  -- leaves; what is left for the other events is that they follow the session and touch no call.
  cases t with
  | leave number => exact h.left number
  | event e =>
    have hkept := h.ledger.step e
    have hconfig := w.ledger.config_step e
    cases e with
    | answer number result => exact h.answered number result
    | complete => exact h.completed
    | frame f now verdict decided =>
      change Kept config { w with ledger := w.ledger.step (.frame f now verdict decided) }
      obtain ⟨s, hs, hstep | ⟨hroom, hstep⟩⟩ := w.ledger.step_frame_eq f now verdict decided
      · rw [hstep] at hkept ⊢
        exact h.followed hkept hs rfl rfl rfl fun _ _ => Ledger.owner_of_follow
      · rw [hstep] at hkept ⊢
        rw [h.settings] at hs hroom
        exact h.began hroom hs hkept
    | expire now => exact h.followed hkept hconfig rfl rfl rfl fun _ _ => Ledger.owner_of_follow
    | keepalive now => exact h.followed hkept hconfig rfl rfl rfl fun _ _ => Ledger.owner_of_follow
    | shutdown => exact h.followed hkept hconfig rfl rfl rfl fun _ _ => Ledger.owner_of_follow
    | close => exact h.followed hkept hconfig rfl rfl rfl fun _ _ => Ledger.owner_of_follow

end Step

/-- **Every run preserves what a window says.** -/
theorem Kept.after {config : Config} {w : Window} (h : Kept config w) (turns : List Turn) :
    Kept config (w.after turns) := by
  induction turns generalizing w with
  | nil => exact h
  | cons t ts ih => exact ih (h.step t)

/-! ### What there is of calls -/

section Bounds

variable {config : Config} {w : Window}

/-- A pending number stands for a call whose result the session has not taken. -/
theorem Kept.exists_owner (h : Kept config w) {r : PendingRequest}
    (hr : r ∈ w.ledger.session.tracker.pending) :
    ∃ call ∈ w.ledger.begun, w.ledger.owner r.sequence = some call.number ∧
      call.sequence = r.sequence ∧ call.number ∉ w.taken := by
  obtain ⟨k, hk, hbegun, -⟩ := h.ledger.owned r.sequence (Tracker.isPending_iff.2 ⟨r, hr, rfl⟩)
  exact ⟨⟨k, r.sequence⟩, hbegun, hk, rfl, h.owned r.sequence k hk⟩

/-- Different requests stand for different calls. -/
theorem Kept.nodup_owners (h : Kept config w) :
    (w.ledger.session.tracker.pending.map fun r => w.ledger.owner r.sequence).Nodup := by
  have hdistinct : (w.ledger.session.tracker.pending.map PendingRequest.sequence).Nodup :=
    h.ledger.sound.distinct
  refine List.Nodup.map_on ?_ hdistinct.of_map
  intro r hr q hq hsame
  obtain ⟨a, ha, hra, hsequence, -⟩ := h.exists_owner hr
  obtain ⟨b, hb, hqb, hsequence', -⟩ := h.exists_owner hq
  rw [hra, hqb] at hsame
  have hcall : a = b := h.ledger.eq_of_number ha hb (Option.some.inj hsame)
  refine List.inj_on_of_nodup_map hdistinct hr hq ?_
  rw [← hsequence, ← hsequence', hcall]

/-- A call whose result the session has not taken runs, or its result is in line. -/
theorem Kept.runs_or_waits (h : Kept config w) {call : Call} (hbegun : call ∈ w.ledger.begun)
    (htaken : call.number ∉ w.taken) :
    call.number ∈ w.calls.running.map Call.number ++ w.ledger.line.map (·.1.number) := by
  by_cases hended : call.number ∈ w.ended
  · have hdelivered := h.ended _ hended
    rw [h.line] at hdelivered
    exact List.mem_append_right _ ((List.mem_append.1 hdelivered).resolve_left htaken)
  · exact List.mem_append_left _ (List.mem_map_of_mem (h.mem_running hbegun hended))

/-- **No more is pending than runs and waits in line.** -/
theorem Kept.size_le (h : Kept config w) :
    w.ledger.session.tracker.size ≤ w.calls.inFlight + w.calls.finished.length := by
  -- The requests stand for as many calls, and each of these runs or waits.
  have hsub : (w.ledger.session.tracker.pending.map fun r => w.ledger.owner r.sequence) ⊆
      (w.calls.running.map Call.number ++ w.ledger.line.map (·.1.number)).map some := by
    intro k hk
    obtain ⟨r, hr, rfl⟩ := List.mem_map.1 hk
    obtain ⟨call, hbegun, howner, -, htaken⟩ := h.exists_owner hr
    rw [howner]
    exact List.mem_map_of_mem (h.runs_or_waits hbegun htaken)
  have hle := (List.subperm_of_subset h.nodup_owners hsub).length_le
  have hfinished : w.calls.finished.length = w.ledger.line.length := by
    unfold calls
    rw [h.ledger.finished, List.length_map]
  rw [List.length_map, List.length_map, List.length_append, List.length_map, List.length_map] at hle
  rw [hfinished]
  exact hle

end Bounds

/-- **The window is bounded.** After every run, as many messages are with the backend as calls have
been begun that are not over, and never more than the settings allow; what expires and the end of
the session change nothing about them. Each request that is pending stands for a call of its own,
begun under its number, whose result the session has not taken. The results that have been sent are
those that have been taken and those in line, and so no more requests are pending than calls run and
results wait in line. -/
theorem window_bounded (config : Config) (begun : Instant) (turns : List Turn) :
    let w := (start config begun).after turns
    let tracker := w.ledger.session.tracker
    w.calls.inFlight = (w.ledger.begun.filter (·.number ∉ w.ended)).length ∧
    w.calls.inFlight ≤ config.maxPendingSubmits ∧
    (∀ now, (w.step (.event (.expire now))).calls = w.calls) ∧
    (w.step (.event .close)).calls = w.calls ∧
    (∀ r ∈ tracker.pending, ∃ call ∈ w.ledger.begun,
      w.ledger.owner r.sequence = some call.number ∧ call.sequence = r.sequence ∧
        call.number ∉ w.taken) ∧
    (tracker.pending.map fun r => w.ledger.owner r.sequence).Nodup ∧
    w.delivered.length = w.taken.length + w.calls.finished.length ∧
    tracker.size ≤ w.calls.inFlight + w.calls.finished.length := by
  intro w tracker
  have h : Kept config w := (Kept.start config begun).after turns
  refine ⟨?_, h.room, fun now => rfl, rfl, fun r hr => h.exists_owner hr, h.nodup_owners, ?_,
    h.size_le⟩
  · unfold Calls.inFlight
    rw [h.running]
  · rw [h.line, List.length_append, List.length_map, calls, h.ledger.finished, List.length_map]

/-! ### The runs of a ledger -/

/-- The turns of one event when a call is over as soon as its result is in line. -/
def turnsOf : Event → List Turn
  | .answer call result => [.event (.answer call result), .leave call]
  | e => [.event e]

theorem answer_of_not_running {l : Ledger} {number : Nat}
    (h : l.engagement.calls.running.find? (·.number == number) = none) (result : SubmitResult) :
    l.answer number result = l := by
  unfold Ledger.answer Calls.finish
  rw [h, Option.map_none, Option.toList_none, List.append_nil]

/-- One event of a ledger is a turn or two of a window in which no call lingers. -/
theorem Kept.after_turnsOf {config : Config} {w : Window} (h : Kept config w)
    (hprompt : w.ended = w.delivered) (e : Event) :
    (w.after (turnsOf e)).ledger = w.ledger.step e ∧
      (w.after (turnsOf e)).ended = (w.after (turnsOf e)).delivered := by
  cases e with
  | answer number result =>
    change ((w.step (.event (.answer number result))).step (.leave number)).ledger =
        w.ledger.answer number result ∧
      ((w.step (.event (.answer number result))).step (.leave number)).ended =
        ((w.step (.event (.answer number result))).step (.leave number)).delivered
    by_cases hasking : w.Asking number
    · have hsent : w.step (.event (.answer number result)) = { w with
          ledger := w.ledger.deliver number result
          delivered := w.delivered ++ [number] } := if_pos hasking
      have hlingers : (w.step (.event (.answer number result))).Lingering number := by
        rw [hsent]
        refine ⟨List.mem_append_right _ (List.mem_singleton_self _), ?_⟩
        change number ∉ w.ended
        rw [hprompt]
        exact hasking.2
      have hleft : (w.step (.event (.answer number result))).step (.leave number) =
          ⟨(w.ledger.deliver number result).leave number, w.delivered ++ [number], w.taken,
            w.ended ++ [number]⟩ := by
        rw [hsent] at hlingers ⊢
        exact if_pos hlingers
      rw [hleft, Ledger.answer_eq, hprompt]
      exact ⟨rfl, rfl⟩
    · have hsent : w.step (.event (.answer number result)) = w := if_neg hasking
      have hlingers : ¬ w.Lingering number := by
        rintro ⟨hdelivered, hended⟩
        rw [hprompt] at hended
        exact hended hdelivered
      have hleft : w.step (.leave number) = w := if_neg hlingers
      -- A call that runs has not sent its result, so there is none under the number.
      have hidle : w.ledger.engagement.calls.running.find? (·.number == number) = none := by
        rw [List.find?_eq_none]
        intro call hcall hnumber
        have hbegun : call ∈ w.ledger.begun := h.ledger.running call hcall
        have hrunning : call ∈ w.calls.running := hcall
        rw [h.running] at hrunning
        have hnew : call.number ∉ w.ended := of_decide_eq_true (List.mem_filter.1 hrunning).2
        rw [hprompt, beq_iff_eq.1 hnumber] at hnew
        exact hasking ⟨List.mem_map.2 ⟨call, hbegun, beq_iff_eq.1 hnumber⟩, hnew⟩
      rw [hsent, hleft, answer_of_not_running hidle]
      exact ⟨rfl, hprompt⟩
  | frame f now verdict decided => exact ⟨rfl, hprompt⟩
  | complete => exact ⟨rfl, hprompt⟩
  | expire now => exact ⟨rfl, hprompt⟩
  | keepalive now => exact ⟨rfl, hprompt⟩
  | shutdown => exact ⟨rfl, hprompt⟩
  | close => exact ⟨rfl, hprompt⟩

/-- **The runs of a ledger are runs of a window**, in which every call is over as soon as its result
is in line. -/
theorem ledger_after_turnsOf (config : Config) (begun : Instant) (events : List Event) :
    ((start config begun).after (events.flatMap turnsOf)).ledger =
      (Ledger.start config begun).after events := by
  -- On the events, for every window in which no call lingers.
  have hrun : ∀ w : Window, Kept config w → w.ended = w.delivered →
      (w.after (events.flatMap turnsOf)).ledger = w.ledger.after events := by
    induction events with
    | nil => exact fun w _ _ => rfl
    | cons e es ih =>
      intro w h hprompt
      obtain ⟨hledger, hprompt'⟩ := h.after_turnsOf hprompt e
      have hrest := ih _ (h.after (turnsOf e)) hprompt'
      have hsplit : w.after ((e :: es).flatMap turnsOf) =
          (w.after (turnsOf e)).after (es.flatMap turnsOf) := List.foldl_append
      rw [hsplit, hrest, hledger]
      rfl
  exact hrun _ (Kept.start config begun) rfl

end Window

end Smpp
