import Smpp.Proofs.Session.Runs

/-!
# Every submit is answered once

Over a whole run, the submits that became pending under a number are those that were answered from a
result, those that were answered because their deadline came, those that were forgotten when the
session ended, and the one that is still pending, if there is one (`every_submit_accounted_for`).
The other submits that come before the end are answered at once, and after the end nothing is
answered.

The count is kept by one step at a time: `balance_step` says that what is pending before a step and
what becomes pending in it are, together, what is pending after it and what it answers or forgets.
It takes the invariant, since a step that completes a number takes out all that is pending under it
and answers once.
-/

namespace Smpp.Session

namespace Move

/-- How many submits with a number became pending in a step. -/
def taken (n : UInt32) (m : Move) : Nat :=
  match m.input, m.output with
  | .frame f .., .action (.submit ..) => if f.isSubmit n then 1 else 0
  | _, _ => 0

/-- How many submits with a number a step answered from a result. -/
def completed (n : UInt32) (m : Move) : Nat :=
  match m.input with
  | .complete _ => m.output.written.countP (Frame.isSubmitResp n)
  | _ => 0

/-- How many submits with a number a step answered because their deadline had come. -/
def expired (n : UInt32) (m : Move) : Nat :=
  match m.input with
  | .expire _ => m.output.written.countP (Frame.isSubmitResp n)
  | _ => 0

/-- How many submits with a number a step forgot. A session ends when it is told so, and when a
frame is answered for the last time. -/
def discarded (n : UInt32) (m : Move) : Nat :=
  match m.input, m.output with
  | .close, _ => m.before.tracker.count n
  | .frame .., .action (.replyAndClose _) => m.before.tracker.count n
  | _, _ => 0

/-- A count over the steps of a run. -/
def total (count : Move → Nat) : List Move → Nat
  | [] => 0
  | m :: moves => count m + total count moves

@[simp] theorem total_nil (count : Move → Nat) : total count [] = 0 := rfl

@[simp] theorem total_cons (count : Move → Nat) (m : Move) (moves : List Move) :
    total count (m :: moves) = count m + total count moves := rfl

end Move

open Move

/-! ### One step -/

theorem countP_toList_answer {n : UInt32} (c : Completion) :
    [c.answer].countP (Frame.isSubmitResp n) = if c.sequence = n then 1 else 0 := by
  rw [List.countP_singleton]
  unfold Completion.answer
  cases c.result <;> simp [Frame.submitAccepted, Frame.submitRefused, Frame.isSubmitResp]

theorem countP_submitRefused (n : UInt32) (c : CommandStatus) (requests : List PendingRequest) :
    (requests.map fun r => Frame.submitRefused r.sequence c).countP (Frame.isSubmitResp n) =
      requests.countP (·.sequence == n) := by
  rw [List.countP_map]
  rfl

/-- A frame makes a submit pending, forgets what is pending, or leaves it. -/
theorem balance_dispatched {s s' : Session} {f : Frame} {a : Action} (h : Dispatched s f s' a)
    (n : UInt32) (now : Instant) (inFlight : Nat) (verdict : AuthResult) (decided : Instant) :
    let m : Move := ⟨s, .frame f now inFlight verdict decided, s', .action a⟩
    s.tracker.count n + m.taken n = s'.tracker.count n + m.discarded n := by
  cases h with
  | afterEnd hover => rfl
  | ignored hactive hstate htracker => rw [htracker]; rfl
  | answered hactive hstate htracker => rw [htracker]; rfl
  | @taken _ k _ _ _ _ htransmit hsubmit htrack hstate htracker =>
    -- The submit became pending under its own number and no other.
    have hnumber : f.isSubmit n = true ↔ k = n := by
      unfold Frame.isSubmit at hsubmit ⊢
      split at hsubmit
      · rw [beq_iff_eq] at hsubmit ⊢
        rw [hsubmit]
      · cases hsubmit
    rw [htracker, Tracker.count_of_track htrack]
    simp only [taken, discarded, hnumber, Nat.add_zero]
  | ended hactive hstate htracker =>
    have hnothing : s'.tracker.count n = 0 := by
      rw [htracker]
      rfl
    change s.tracker.count n + 0 = s'.tracker.count n + s.tracker.count n
    rw [hnothing, Nat.zero_add, Nat.add_zero]

/-- A result that is handed on answers what was pending under its number, and nothing else. -/
theorem balance_complete {s : Session} (hs : s.Sound) (n : UInt32) (c : Completion) :
    s.tracker.count n =
      (s.complete c).1.tracker.count n +
        (s.complete c).2.toList.countP (Frame.isSubmitResp n) := by
  by_cases hactive : s.state = .closed
  · rw [complete_of_closed hactive]
    rfl
  rw [complete_of_active hactive]
  -- The invariant comes in here: what is taken out under the number is one request, not several.
  by_cases hpending : s.tracker.isPending c.sequence = true
  · rw [if_pos hpending, Option.toList_some, countP_toList_answer, Tracker.count_complete]
    by_cases hn : c.sequence = n
    · rw [if_pos hn, if_pos hn, hs.distinct.count_eq, ← hn, if_pos hpending]
    · rw [if_neg hn, if_neg hn, Nat.add_zero]
  · rw [if_neg hpending]
    rfl

/-- **A step keeps the balance.** -/
theorem balance_step {s : Session} (hs : s.Sound) (n : UInt32) (i : Input) :
    let m : Move := ⟨s, i, (s.step i).1, (s.step i).2⟩
    s.tracker.count n + m.taken n =
      (s.step i).1.tracker.count n + m.completed n + m.expired n + m.discarded n := by
  -- Each input moves a number in one way: a frame takes it or throws it away, a result completes
  -- it, the clock expires it and the end discards it; a probe and an unbind leave what is pending.
  cases i with
  | frame f now inFlight verdict decided =>
    exact balance_dispatched (dispatched s now inFlight f verdict decided) n now inFlight verdict
      decided
  | complete c => exact balance_complete hs n c
  | expire now =>
    have hsplit := Tracker.count_expire s.tracker n now
    rw [← countP_submitRefused n .systemError] at hsplit
    exact hsplit
  | keepalive now =>
    obtain ⟨probe, next, hframe⟩ := keepalive_frame (s := s) now
    rw [step_keepalive, hframe]
    rfl
  | shutdown =>
    obtain ⟨next, hframe⟩ := shutdownFrame_frame (s := s)
    rw [step_shutdown, hframe]
    rfl
  | close =>
    intro m
    change s.tracker.count n = 0 + s.tracker.count n
    rw [Nat.zero_add]

/-! ### Whole runs -/

/-- **A run keeps the balance.** -/
theorem balance_history {s : Session} (hs : s.Sound) (n : UInt32) (inputs : List Input) :
    s.tracker.count n + total (taken n) (s.history inputs) =
      (s.after inputs).tracker.count n + total (completed n) (s.history inputs) +
        total (expired n) (s.history inputs) + total (discarded n) (s.history inputs) := by
  -- On the inputs, for every sound session: the balance of the first step and that of the rest add
  -- up, since the first step leaves what the rest begins with.
  induction inputs generalizing s with
  | nil => rfl
  | cons i is ih =>
    have hstep := balance_step hs n i
    have hrest := ih (hs.step i)
    simp only [history_cons, after_cons, total_cons]
    dsimp only at hstep
    omega

/-- A submit that comes before the end becomes pending or is answered at once under its number. -/
theorem submit_answered {s s' : Session} {f : Frame} {a : Action} {n : UInt32}
    (h : Dispatched s f s' a) (hactive : s.state ≠ .closed) (hf : f.isSubmit n = true) :
    (∃ k submission, a = .submit k submission) ∨
      ∃ r, a = .reply r ∧ (r.isSubmitResp n = true ∨ r.isNack n = true) := by
  cases h with
  | afterEnd hover => exact absurd hover hactive
  | ignored hactive hstate htracker hsubmit => rw [hsubmit] at hf; cases hf
  | answered hactive hstate htracker hsequence hsubmit => exact .inr ⟨_, rfl, hsubmit n hf⟩
  | taken htransmit hsubmit htrack hstate htracker => exact .inl ⟨_, _, rfl⟩
  | ended hactive hstate htracker hsequence hsubmit => rw [hsubmit] at hf; cases hf

/-- **Every submit is accounted for.** In every run and for every number, the submits that became
pending are those that were answered from a result or at their deadline, the one that is still
pending and those that were forgotten; every other submit that came before the end was answered by
one frame under its number; and nothing is written once a session is over. -/
theorem every_submit_accounted_for (config : Config) (begun : Instant) (inputs : List Input)
    (n : UInt32) :
    let s := start config begun
    let moves := s.history inputs
    total (taken n) moves =
        total (completed n) moves + total (expired n) moves +
          (if (s.after inputs).tracker.isPending n then 1 else 0) + total (discarded n) moves ∧
      (∀ m ∈ moves, ∀ f now inFlight verdict decided,
        m.input = .frame f now inFlight verdict decided → f.isSubmit n = true →
          m.before.state ≠ .closed → (∀ k submission, m.output ≠ .action (.submit k submission)) →
            ∃ r, m.output = .action (.reply r) ∧ (r.isSubmitResp n = true ∨ r.isNack n = true)) ∧
      ∀ earlier later, inputs = earlier ++ later → (s.after earlier).state = .closed →
        ∀ m ∈ (s.after earlier).history later, m.output.written = [] := by
  dsimp only
  refine ⟨?_, ?_, ?_⟩
  · -- The balance from the beginning, where nothing was pending.
    have hbalance := balance_history (Sound.start config begun) n inputs
    have hnothing : (start config begun).tracker.count n = 0 := rfl
    rw [(Sound.after config begun inputs).distinct.count_eq, hnothing] at hbalance
    omega
  · -- One step at a time, from any session: the run does not matter here.
    refine forall_mem_history (p := fun _ => True) trivial ?_ inputs
    intro s i _
    refine ⟨trivial, ?_⟩
    rintro f now inFlight verdict decided rfl hf hactive hpending
    obtain ⟨k, submission, ha⟩ | ⟨r, ha, hr⟩ :=
      submit_answered (dispatched s now inFlight f verdict decided) hactive hf
    · exact absurd (congrArg Output.action ha) (hpending k submission)
    · exact ⟨r, congrArg Output.action ha, hr⟩
  · -- From the end on, which no step undoes.
    rintro earlier later rfl hover
    have hsound := Sound.after config begun earlier
    refine forall_mem_history (p := fun s => s.Sound ∧ s.state = .closed) ⟨hsound, hover⟩ ?_ later
    rintro s i ⟨hs, hclosed⟩
    obtain ⟨hstays, hsilent⟩ := hs.step_of_closed hclosed i
    exact ⟨⟨hs.step i, hstays⟩, hsilent⟩

end Smpp.Session
