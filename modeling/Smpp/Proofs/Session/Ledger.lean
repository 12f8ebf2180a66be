import Smpp.Proofs.Session.Runs
import Smpp.Session.Engagement

/-!
# Which call a number stands for

A session and the backend speak of a message by its sequence number, and a client may use a number
again as soon as it is not pending. A ledger watches an engagement and writes down what the numbers
do not say: which calls were begun, for which of them a number is pending, whose results wait in
line, and on which the session has given up. Nothing of it is ever looked at by the engagement.

`Ledger.Kept` is what every step preserves (`Kept.step`): a pending number stands for the last call
that was begun under it, and a call that was given up stands behind no number.
-/

namespace Smpp

namespace Calls

/-- The result of a call gets in line. -/
def deliver (c : Calls) (number : Nat) (result : SubmitResult) : Calls :=
  { c with
    finished := c.finished ++
      ((c.running.find? (·.number == number)).map fun call => ⟨call.sequence, result⟩).toList }

/-- A call is over. -/
def leave (c : Calls) (number : Nat) : Calls :=
  { c with running := c.running.filter (·.number != number) }

/-- A call ends in two steps: its result gets in line, and then it is over. -/
theorem finish_eq (c : Calls) (number : Nat) (result : SubmitResult) :
    c.finish number result = (c.deliver number result).leave number := by
  unfold finish deliver leave
  cases hfind : c.running.find? (·.number == number) with
  | some call => rfl
  | none =>
    -- Nothing runs under the number, so nothing is taken out under it.
    have hall : c.running.filter (·.number != number) = c.running := by
      rw [List.filter_eq_self]
      intro call hcall
      rw [bne, Bool.not_eq_true']
      exact Bool.eq_false_iff.2 (List.find?_eq_none.1 hfind call hcall)
    dsimp only
    rw [hall, Option.map_none, Option.toList_none, List.append_nil]

end Calls

namespace Engagement

/-- What a frame calls for in the end: of an authentication, what its result calls for. -/
def dispatch (e : Engagement) (now : Instant) (f : Frame) (verdict : AuthResult)
    (decided : Instant) : Engagement × Reaction :=
  match e.receive now f with
  | (e, .authenticate n b) => e.conclude decided n b verdict
  | (e, r) => (e, r)

/-- A frame comes to the session, and a call begins if it calls for one. -/
theorem dispatch_eq (e : Engagement) (now : Instant) (f : Frame) (verdict : AuthResult)
    (decided : Instant) :
    e.dispatch now f verdict decided =
      e.react (e.session.dispatch now e.calls.inFlight f verdict decided) := by
  unfold dispatch receive Session.dispatch
  cases e.session.receive now e.calls.inFlight f with
  | mk s a => cases a <;> rfl

/-- One thing that happens to an engagement. -/
inductive Event where
  /-- A frame has come. Where it calls for an authentication, `verdict` is the result and comes at
  the instant `decided`. -/
  | frame (f : Frame) (now : Instant) (verdict : AuthResult) (decided : Instant)
  /-- The backend answers a call. -/
  | answer (call : Nat) (result : SubmitResult)
  /-- The session takes the first result in line. -/
  | complete
  /-- The session gives up on what is overdue. -/
  | expire (now : Instant)
  /-- The session probes the client, if that is due. -/
  | keepalive (now : Instant)
  /-- The client is about to be cut off. -/
  | shutdown
  /-- The session is over. -/
  | close

end Engagement

/-- An engagement, with an account of its calls. -/
structure Ledger where
  engagement : Engagement
  /-- The calls that have been begun, the oldest first. -/
  begun : List Call := []
  /-- The call that was begun when a number became pending, for every number that is. -/
  owner : UInt32 → Option Nat := fun _ => none
  /-- The calls whose results wait in line, with the backend's answers. -/
  line : List (Call × SubmitResult) := []
  /-- The calls on which the session has given up. -/
  expired : List Nat := []

namespace Ledger

open Engagement (Event)

/-- An account that begins now. -/
def start (config : Config) (now : Instant) : Ledger := { engagement := .start config now }

/-- The session of an account. -/
def session (l : Ledger) : Session := l.engagement.session

/-- Goes on with an engagement in which no call was begun: a number that is no longer pending stands
for no call. -/
def follow (l : Ledger) (e : Engagement) : Ledger :=
  { l with
    engagement := e
    owner := fun n => if e.session.tracker.isPending n then l.owner n else none }

theorem follow_owner (l : Ledger) (e : Engagement) (n : UInt32) :
    (l.follow e).owner n = if e.session.tracker.isPending n then l.owner n else none := rfl

theorem owner_of_follow {l : Ledger} {e : Engagement} {n : UInt32} {k : Nat}
    (h : (l.follow e).owner n = some k) : l.owner n = some k := by
  rw [follow_owner] at h
  split at h
  · exact h
  · cases h

/-- Goes on with a session in an engagement in which nothing else changed. -/
def followSession (l : Ledger) (s : Session) : Ledger :=
  l.follow { l.engagement with session := s }

/-- Goes on with an engagement in which a call was begun under a number. -/
def begin (l : Ledger) (e : Engagement) (call : Nat) (n : UInt32) : Ledger :=
  { l with
    engagement := e
    begun := l.begun ++ [⟨call, n⟩]
    owner := fun m => if m = n then some call else l.owner m }

theorem begin_owner (l : Ledger) (e : Engagement) (call : Nat) (n m : UInt32) :
    (l.begin e call n).owner m = if m = n then some call else l.owner m := rfl

/-- Goes on with what became of a frame. -/
def react (l : Ledger) (f : Frame) : Engagement × Reaction → Ledger
  | (e, .submit call _) => l.begin e call f.sequence
  | (e, _) => l.follow e

/-- Ends a call with a result, which gets in line if the call was running. -/
def answer (l : Ledger) (number : Nat) (result : SubmitResult) : Ledger :=
  { l with
    engagement := { l.engagement with calls := l.engagement.calls.finish number result }
    line := l.line ++
      ((l.engagement.calls.running.find? (·.number == number)).map (·, result)).toList }

/-- The result of a call gets in line, while the call still runs. -/
def deliver (l : Ledger) (number : Nat) (result : SubmitResult) : Ledger :=
  { l with
    engagement := { l.engagement with calls := l.engagement.calls.deliver number result }
    line := l.line ++
      ((l.engagement.calls.running.find? (·.number == number)).map (·, result)).toList }

/-- A call is over. -/
def leave (l : Ledger) (number : Nat) : Ledger :=
  { l with engagement := { l.engagement with calls := l.engagement.calls.leave number } }

theorem answer_eq (l : Ledger) (number : Nat) (result : SubmitResult) :
    l.answer number result = (l.deliver number result).leave number := by
  unfold answer
  rw [Calls.finish_eq]
  rfl

/-- The calls whose numbers are overdue. -/
def overdue (l : Ledger) (now : Instant) : List Nat :=
  (l.session.tracker.expire now).2.filterMap fun request => l.owner request.sequence

/-- Writes down one thing that happens. -/
def step (l : Ledger) : Event → Ledger
  | .frame f now verdict decided => l.react f (l.engagement.dispatch now f verdict decided)
  | .answer number result => l.answer number result
  | .complete =>
    match l.engagement.completeNext with
    | none => l
    | some (e, _, _) => { l.follow e with line := l.line.tail }
  | .expire now =>
    { l.followSession (l.session.expire now).1 with expired := l.expired ++ l.overdue now }
  | .keepalive now => l.followSession (l.session.keepalive now).1
  | .shutdown => l.followSession l.session.shutdownFrame.1
  | .close => l.followSession l.session.close

/-- The account after a row of events. -/
def after (l : Ledger) (events : List Event) : Ledger := events.foldl step l

/-! ### The invariant -/

/-- What an account always says. -/
structure Kept (l : Ledger) : Prop where
  /-- No number is pending twice, and nothing is pending after the end. -/
  sound : l.session.Sound
  /-- Calls are numbered in the order in which they were begun. -/
  numbered : l.begun.map Call.number = List.range l.engagement.calls.made
  /-- What runs was begun. -/
  running : ∀ call ∈ l.engagement.calls.running, call ∈ l.begun
  /-- What waits in line are the answers to calls that were begun. -/
  line : ∀ p ∈ l.line, p.1 ∈ l.begun
  /-- A result in line is the answer to its call, under the call's number. -/
  finished : l.engagement.calls.finished = l.line.map fun p => ⟨p.1.sequence, p.2⟩
  /-- A pending number stands for the last call that was begun under it. -/
  owned : ∀ n, l.session.tracker.isPending n = true →
    ∃ k, l.owner n = some k ∧ ⟨k, n⟩ ∈ l.begun ∧
      ∀ call ∈ l.begun, call.sequence = n → call.number ≤ k
  /-- A number that is not pending stands for no call. -/
  unowned : ∀ n, l.session.tracker.isPending n = false → l.owner n = none
  /-- A call on which the session has given up was begun. -/
  expired_begun : ∀ k ∈ l.expired, k < l.engagement.calls.made
  /-- A call on which the session has given up stands behind no number. -/
  expired_lost : ∀ k ∈ l.expired, ∀ n, l.owner n ≠ some k

theorem Kept.start (config : Config) (now : Instant) : (start config now).Kept where
  sound := Session.Sound.start config now
  numbered := rfl
  running := fun _ h => absurd h List.not_mem_nil
  line := fun _ h => absurd h List.not_mem_nil
  finished := rfl
  owned := fun _ h => by cases h
  unowned := fun _ _ => rfl
  expired_begun := fun _ h => absurd h List.not_mem_nil
  expired_lost := fun _ h => absurd h List.not_mem_nil

variable {l : Ledger}

/-- A call stands at the place that its number says. -/
theorem Kept.getElem?_number (h : l.Kept) {a : Call} (ha : a ∈ l.begun) :
    l.begun[a.number]? = some a := by
  obtain ⟨i, hi, rfl⟩ := List.getElem_of_mem ha
  have hnumber : (l.begun[i]).number = i := by
    rw [← List.getElem_map Call.number (h := by rwa [List.length_map])]
    simp only [h.numbered, List.getElem_range]
  rw [hnumber, List.getElem?_eq_getElem hi]

/-- Calls with the same number are the same call. -/
theorem Kept.eq_of_number (h : l.Kept) {a b : Call} (ha : a ∈ l.begun) (hb : b ∈ l.begun)
    (hab : a.number = b.number) : a = b := by
  have hsame := h.getElem?_number ha
  rw [hab, h.getElem?_number hb] at hsame
  exact (Option.some.inj hsame).symm

theorem Kept.number_lt (h : l.Kept) {a : Call} (ha : a ∈ l.begun) :
    a.number < l.engagement.calls.made := by
  rw [← List.mem_range, ← h.numbered]
  exact List.mem_map_of_mem ha

/-- The call for which a number stands was begun under it. -/
theorem Kept.begun_of_owner (h : l.Kept) {n : UInt32} {k : Nat} (hk : l.owner n = some k) :
    ⟨k, n⟩ ∈ l.begun := by
  -- Only a pending number stands for a call, and then for the last one under it.
  cases hn : l.session.tracker.isPending n with
  | true =>
    obtain ⟨k', hk', hbegun, -⟩ := h.owned n hn
    rw [hk] at hk'
    cases hk'
    exact hbegun
  | false =>
    rw [h.unowned n hn] at hk
    cases hk

/-- A call that is overdue is one for which a number stands that expires. -/
theorem mem_overdue {k : Nat} {now : Instant} :
    k ∈ l.overdue now ↔
      ∃ r ∈ (l.session.tracker.expire now).2, l.owner r.sequence = some k := by
  unfold overdue
  rw [List.mem_filterMap]

/-! ### Steps in which no call begins -/

/-- **An account goes on where no call begins**, no number becomes pending and no result comes. -/
theorem Kept.followed (h : l.Kept) {e : Engagement} {line : List (Call × SubmitResult)}
    (hsound : e.session.Sound) (hmade : e.calls.made = l.engagement.calls.made)
    (hrunning : ∀ call ∈ e.calls.running, call ∈ l.engagement.calls.running)
    (hline : ∀ p ∈ line, p ∈ l.line)
    (hfinished : e.calls.finished = line.map fun p => ⟨p.1.sequence, p.2⟩)
    (hpending : ∀ n, e.session.tracker.isPending n = true → l.session.tracker.isPending n = true) :
    ({ l.follow e with line := line } : Ledger).Kept where
  sound := hsound
  numbered := h.numbered.trans (congrArg List.range hmade.symm)
  running := fun call hcall => h.running call (hrunning call hcall)
  line := fun p hp => h.line p (hline p hp)
  finished := hfinished
  owned := by
    intro n hn
    obtain ⟨k, hk, hbegun, hlast⟩ := h.owned n (hpending n hn)
    exact ⟨k, (if_pos hn).trans hk, hbegun, hlast⟩
  unowned := by
    intro n hn
    exact if_neg (Bool.eq_false_iff.1 hn)
  expired_begun := by
    intro k hk
    change k < e.calls.made
    rw [hmade]
    exact h.expired_begun k hk
  expired_lost := by
    intro k hk n hn
    exact h.expired_lost k hk n (owner_of_follow hn)

theorem Kept.followedSession (h : l.Kept) {s : Session} (hsound : s.Sound)
    (hpending : ∀ n, s.tracker.isPending n = true → l.session.tracker.isPending n = true) :
    (l.followSession s).Kept :=
  h.followed (e := { l.engagement with session := s }) hsound rfl (fun _ hcall => hcall)
    (fun _ hp => hp) h.finished hpending

/-- A result that the session takes leaves the line. -/
theorem Kept.completed (h : l.Kept) : (l.step .complete).Kept := by
  obtain ⟨e, begun, owner, line, expired⟩ := l
  have hfinished := h.finished
  dsimp only at hfinished
  unfold step Engagement.completeNext Calls.take?
  cases line with
  | nil =>
    dsimp only
    rw [hfinished, List.map_nil]
    exact h
  | cons p ps =>
    dsimp only
    rw [hfinished, List.map_cons]
    refine h.followed (h.sound.step (.complete _)) rfl (fun _ hcall => hcall)
      (fun _ hp => List.mem_cons_of_mem p hp) rfl ?_
    exact fun n => Session.isPending_of_complete

/-- Calls behind which no number stands may be given up. -/
theorem Kept.withExpired (h : l.Kept) {calls : List Nat}
    (hbegun : ∀ k ∈ calls, k < l.engagement.calls.made)
    (hlost : ∀ k ∈ calls, ∀ n, l.owner n ≠ some k) :
    ({ l with expired := l.expired ++ calls } : Ledger).Kept :=
  { h with
    expired_begun := fun k hk => (List.mem_append.1 hk).elim (h.expired_begun k) (hbegun k)
    expired_lost := fun k hk => (List.mem_append.1 hk).elim (h.expired_lost k) (hlost k) }

/-- The session gives up on calls, and their numbers stand for no call any more. -/
theorem Kept.gaveUp (h : l.Kept) (now : Instant) : (l.step (.expire now)).Kept := by
  have hfollowed : (l.followSession (l.session.expire now).1).Kept :=
    h.followedSession (h.sound.step (.expire now))
      (fun n => Tracker.isPending_of_subset List.filter_sublist.subset)
  refine hfollowed.withExpired ?_ ?_
  · intro k hk
    obtain ⟨r, -, howner⟩ := mem_overdue.1 hk
    exact h.number_lt (h.begun_of_owner howner)
  · intro k hk m hm
    obtain ⟨r, hr, howner⟩ := mem_overdue.1 hk
    -- A number that still stands for the call can only be the one that has just expired.
    have hcall := h.eq_of_number (hfollowed.begun_of_owner hm) (h.begun_of_owner howner) rfl
    have hnumber : m = r.sequence := congrArg Call.sequence hcall
    have hgone := h.sound.distinct.isPending_of_expire hr
    rw [← hnumber] at hgone
    have hnone := hfollowed.unowned m hgone
    rw [hm] at hnone
    cases hnone

/-- A call begins under the number of a frame. -/
theorem Kept.began (h : l.Kept) {s : Session} {n : UInt32} {now : Instant} {t : Tracker}
    {request : PendingRequest} (hsound : s.Sound)
    (htrack : l.session.tracker.track n .submitSm now = some (t, request))
    (htracker : s.tracker = t) :
    (l.begin ⟨s, (l.engagement.calls.begin n).1⟩ l.engagement.calls.made n).Kept where
  -- The new call is at the end of the calls begun, runs, and owns its number; all that is said of
  -- the other calls and numbers is said of a longer list.
  sound := hsound
  numbered := by
    change (l.begun ++ [_]).map Call.number = List.range (l.engagement.calls.made + 1)
    rw [List.map_append, h.numbered, List.range_succ]
    rfl
  running := by
    intro call hcall
    obtain hcall | hcall := List.mem_append.1 hcall
    · exact List.mem_append_left _ (h.running call hcall)
    · exact List.mem_append_right _ hcall
  line := fun p hp => List.mem_append_left _ (h.line p hp)
  finished := h.finished
  owned := by
    intro m hm
    by_cases hn : m = n
    · -- The call that has just begun is the last one.
      refine ⟨_, if_pos hn, ?_, ?_⟩
      · rw [hn]
        exact List.mem_append_right _ (List.mem_singleton_self _)
      intro call hcall _
      obtain hcall | hcall := List.mem_append.1 hcall
      · exact Nat.le_of_lt (h.number_lt hcall)
      · exact Nat.le_of_eq (congrArg Call.number (List.mem_singleton.1 hcall))
    · -- Any other number stands for what it stood for before.
      have hold : l.session.tracker.isPending m = true :=
        ((Tracker.isPending_of_track htrack).1 (htracker ▸ hm)).resolve_right fun h => hn h.symm
      obtain ⟨k, hk, hbegun, hlast⟩ := h.owned m hold
      refine ⟨k, (if_neg hn).trans hk, List.mem_append_left _ hbegun, ?_⟩
      intro call hcall hsequence
      obtain hcall | hcall := List.mem_append.1 hcall
      · exact hlast call hcall hsequence
      · rw [List.mem_singleton.1 hcall] at hsequence
        exact absurd hsequence.symm hn
  unowned := by
    intro m hm
    have hfree : ¬ (l.session.tracker.isPending m = true ∨ n = m) := by
      rw [← Tracker.isPending_of_track htrack, ← htracker]
      exact Bool.eq_false_iff.1 hm
    rw [not_or] at hfree
    exact (if_neg fun h => hfree.2 h.symm).trans (h.unowned m (Bool.eq_false_iff.2 hfree.1))
  expired_begun := fun k hk => Nat.lt_succ_of_lt (h.expired_begun k hk)
  expired_lost := by
    intro k hk m hm
    rw [begin_owner] at hm
    split at hm
    · -- The new call is newer than every call that was given up.
      have hmade := h.expired_begun k hk
      rw [Option.some.inj hm] at hmade
      exact Nat.lt_irrefl k hmade
    · exact h.expired_lost k hk m hm

/-- The result of a call that runs gets in line. -/
theorem Kept.delivered (h : l.Kept) (number : Nat) (result : SubmitResult) :
    (l.deliver number result).Kept := by
  unfold Ledger.deliver Calls.deliver
  cases hfind : l.engagement.calls.running.find? (·.number == number) with
  | none =>
    rw [Option.map_none, Option.map_none, Option.toList_none, Option.toList_none, List.append_nil,
      List.append_nil]
    exact h
  | some call =>
    have hcall : call ∈ l.begun := h.running call (List.mem_of_find?_eq_some hfind)
    exact { h with
      line := by
        intro p hp
        obtain hp | hp := List.mem_append.1 hp
        · exact h.line p hp
        · rw [List.mem_singleton.1 hp]
          exact hcall
      finished := by
        dsimp only
        rw [h.finished, List.map_append]
        rfl }

/-- A call that is over runs no longer. -/
theorem Kept.left (h : l.Kept) (number : Nat) : (l.leave number).Kept :=
  { h with running := fun call hcall => h.running call (List.filter_sublist.subset hcall) }

/-- The backend answers a call, and the answer gets in line. -/
theorem Kept.answered (h : l.Kept) (number : Nat) (result : SubmitResult) :
    (l.step (.answer number result)).Kept := by
  change (l.answer number result).Kept
  rw [answer_eq]
  exact (h.delivered number result).left number

/-- A frame begins a call, or no number becomes pending. -/
theorem Kept.framed (h : l.Kept) (f : Frame) (now : Instant) (verdict : AuthResult)
    (decided : Instant) : (l.step (.frame f now verdict decided)).Kept := by
  have hdispatched :=
    Session.dispatched l.session now l.engagement.calls.inFlight f verdict decided
  have hsound := h.sound.dispatched hdispatched
  change (l.react f (l.engagement.dispatch now f verdict decided)).Kept
  rw [Engagement.dispatch_eq]
  change (l.react f (l.engagement.react
    (l.session.dispatch now l.engagement.calls.inFlight f verdict decided))).Kept
  generalize l.session.dispatch now l.engagement.calls.inFlight f verdict decided = x at *
  obtain ⟨s, a⟩ := x
  -- In all cases but one the numbers that are pending afterwards were pending before.
  cases hdispatched with
  | afterEnd hover => exact h.followedSession hsound fun n hn => hn
  | ignored hactive hstate htracker => exact h.followedSession hsound fun n hn => htracker ▸ hn
  | answered hactive hstate htracker => exact h.followedSession hsound fun n hn => htracker ▸ hn
  | taken htransmit hsubmit htrack hstate htracker =>
    cases Frame.sequence_of_isSubmit hsubmit
    exact h.began hsound htrack htracker
  | ended hactive hstate htracker =>
    refine h.followedSession hsound fun n hn => ?_
    dsimp only at hn htracker
    rw [htracker] at hn
    cases hn

/-- **Every step preserves what an account says.** -/
theorem Kept.step (h : l.Kept) (e : Event) : (l.step e).Kept := by
  cases e with
  | frame f now verdict decided => exact h.framed f now verdict decided
  | answer number result => exact h.answered number result
  | complete => exact h.completed
  | expire now => exact h.gaveUp now
  | keepalive now =>
    obtain ⟨probe, next, hframe⟩ := Session.keepalive_frame (s := l.session) now
    refine h.followedSession (h.sound.step (.keepalive now)) fun n hn => ?_
    rw [hframe] at hn
    exact hn
  | shutdown =>
    obtain ⟨next, hframe⟩ := Session.shutdownFrame_frame (s := l.session)
    refine h.followedSession (h.sound.step .shutdown) fun n hn => ?_
    rw [hframe] at hn
    exact hn
  | close => exact h.followedSession (h.sound.step .close) fun n hn => nomatch hn

/-- **What an account says holds after every run.** -/
theorem Kept.after (config : Config) (now : Instant) (events : List Event) :
    ((Ledger.start config now).after events).Kept := by
  -- On the events, for every account that the invariant holds of.
  have hrun : ∀ l : Ledger, l.Kept → (l.after events).Kept := by
    induction events with
    | nil => exact fun l h => h
    | cons e es ih => exact fun l h => ih _ (h.step e)
  exact hrun _ (Kept.start config now)

end Ledger

end Smpp
