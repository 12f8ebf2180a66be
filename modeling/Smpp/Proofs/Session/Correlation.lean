import Smpp.Proofs.Session.Ledger

/-!
# Whose result an answer carries

A client that gets the response to a submit takes what it says for the backend's answer to that
submit. It is, unless the number was used again: a call on which the session has given up keeps
running, its result comes under its number, and if a later submit is pending under that number by
then, the session takes the result for the later one's.

`correlated_iff_not_overtaken` says that this is the only way in which it can go wrong, and that it
always does: at every point of every run, the next result is taken for what it is exactly if it has
not been overtaken by a later call under its number that is still pending.
-/

namespace Smpp.Ledger

open Engagement (Event)

variable {l : Ledger}

/-- The next result is taken for what it is: if it is handed on to the client, then as the answer to
the call for which its number is pending; and if the session has given up on its call, it is
dropped and what is pending stays so. -/
def Correlated (l : Ledger) : Prop :=
  ∀ call result e c answer, l.line.head? = some (call, result) →
    l.engagement.completeNext = some (e, c, answer) →
      (∀ f, answer = some f →
        l.owner f.sequence = some call.number ∧ f = Completion.answer ⟨f.sequence, result⟩) ∧
      (call.number ∈ l.expired → answer = none ∧ e.session.tracker = l.session.tracker)

/-- The next result comes under a number that is pending, and a later call was begun under it. -/
def Overtaken (l : Ledger) : Prop :=
  ∃ call result, l.line.head? = some (call, result) ∧ l.session.state ≠ .closed ∧
    l.session.tracker.isPending call.sequence = true ∧
      ∃ later ∈ l.begun, later.sequence = call.sequence ∧ call.number < later.number

/-- The session takes the first result in line. -/
theorem Kept.completeNext_eq (h : l.Kept) {call : Call} {result : SubmitResult}
    (hhead : l.line.head? = some (call, result)) :
    ∃ calls, l.engagement.completeNext =
      some (⟨(l.session.complete ⟨call.sequence, result⟩).1, calls⟩, ⟨call.sequence, result⟩,
        (l.session.complete ⟨call.sequence, result⟩).2) := by
  obtain ⟨rest, hline⟩ : ∃ rest, l.line = (call, result) :: rest := by
    cases hl : l.line with
    | nil => rw [hl] at hhead; cases hhead
    | cons p ps =>
      rw [hl] at hhead
      cases hhead
      exact ⟨ps, rfl⟩
  have hfinished := h.finished
  rw [hline, List.map_cons] at hfinished
  unfold Engagement.completeNext Calls.take?
  rw [hfinished]
  exact ⟨_, rfl⟩

/-- A result that has been overtaken is taken for that of the later call. -/
theorem Kept.not_correlated (h : l.Kept) (hover : l.Overtaken) : ¬ l.Correlated := by
  obtain ⟨call, result, hhead, hactive, hpending, later, hlater, hsequence, hlt⟩ := hover
  intro hcorrelated
  obtain ⟨calls, hnext⟩ := h.completeNext_eq hhead
  have hanswer : (l.session.complete ⟨call.sequence, result⟩).2 =
      some (Completion.answer ⟨call.sequence, result⟩) := by
    rw [Session.complete_of_active hactive, if_pos hpending]
  obtain ⟨howner, -⟩ := (hcorrelated _ _ _ _ _ hhead hnext).1 _ hanswer
  rw [Completion.answer_sequence] at howner
  -- The number stands for the last call under it, and this one is not the last.
  obtain ⟨k, hk, -, hlast⟩ := h.owned call.sequence hpending
  rw [howner] at hk
  have hle := hlast later hlater hsequence
  rw [← Option.some.inj hk] at hle
  omega

/-- A result that has not been overtaken is that of the call for which its number is pending. -/
theorem Kept.owner_of_not_overtaken (h : l.Kept) (hover : ¬ l.Overtaken) {call : Call}
    {result : SubmitResult} (hhead : l.line.head? = some (call, result))
    (hactive : l.session.state ≠ .closed)
    (hpending : l.session.tracker.isPending call.sequence = true) :
    l.owner call.sequence = some call.number := by
  obtain ⟨k, hk, hbegun, hlast⟩ := h.owned call.sequence hpending
  -- The number stands for the last call under it; a later one than this would have overtaken it.
  have hcall : call ∈ l.begun := h.line _ (List.mem_of_mem_head? hhead)
  have hle : call.number ≤ k := hlast call hcall rfl
  have hge : ¬ call.number < k := fun hlt =>
    hover ⟨call, result, hhead, hactive, hpending, ⟨k, call.sequence⟩, hbegun, rfl, hlt⟩
  rw [hk, show k = call.number by omega]

/-- **A result is taken for what it is exactly if it has not been overtaken.** -/
theorem Kept.correlated_iff (h : l.Kept) : l.Correlated ↔ ¬ l.Overtaken := by
  refine ⟨?_, ?_⟩
  · exact fun hcorrelated hover => h.not_correlated hover hcorrelated
  intro hover call result e c answer hhead hnext
  obtain ⟨calls, hnext'⟩ := h.completeNext_eq hhead
  rw [hnext'] at hnext
  cases hnext
  -- After the end, and where the number is not pending, the result is dropped in any case.
  by_cases hactive : l.session.state = .closed
  · rw [Session.complete_of_closed hactive]
    exact ⟨fun f hf => (nomatch hf), fun _ => ⟨rfl, rfl⟩⟩
  rw [Session.complete_of_active hactive]
  by_cases hpending : l.session.tracker.isPending call.sequence = true
  · rw [if_pos hpending]
    have howner := h.owner_of_not_overtaken hover hhead hactive hpending
    refine ⟨?_, fun hexpired => absurd howner (h.expired_lost _ hexpired _)⟩
    rintro f hf
    cases hf
    rw [Completion.answer_sequence]
    exact ⟨howner, rfl⟩
  · rw [if_neg hpending]
    exact ⟨fun f hf => (nomatch hf), fun _ => ⟨rfl, rfl⟩⟩

/-- **When results and requests go together.** At every point of every run, the next result is taken
for what it is exactly if no later call was begun under its number that is still pending. -/
theorem correlated_iff_not_overtaken (config : Config) (begun : Instant) (events : List Event) :
    ((start config begun).after events).Correlated ↔
      ¬ ((start config begun).after events).Overtaken :=
  (Kept.after config begun events).correlated_iff

/-- A client submits a message, hears that it was given up, and submits the next one under the same
number; then the backend answers the first. -/
def reuse : List Event :=
  let bind : Bind := ⟨.transceiver, "esme", "", "", .v34, .unknown, .unknown, ""⟩
  let submit : Submit := {
    serviceType := "", source := ⟨.unknown, .unknown, "1"⟩,
    destination := ⟨.unknown, .unknown, "2"⟩, esmClass := 0, protocolId := 0, priority := .level0,
    scheduledTime := "", validityPeriod := "", registeredDelivery := 0, replaceIfPresent := 0,
    dataCoding := 0, defaultMessageId := 0, shortMessage := [104, 105], parameters := .empty }
  [.frame (.known .ok 1 (.bind bind)) 0 (.ok ()) 0,
   .frame (.known .ok 7 (.submit submit)) 0 (.ok ()) 0,
   .expire (Span.ofSeconds 5),
   .frame (.known .ok 7 (.submit submit)) (Span.ofSeconds 5) (.ok ()) (Span.ofSeconds 5),
   .answer 0 (.ok "first")]

/-- The session has given up on the first call and the backend is busy with the second, yet the
answer to the first is handed on as that to the second. -/
theorem not_correlated_after_reuse :
    ((start {} 0).after reuse).expired = [0] ∧ ((start {} 0).after reuse).owner 7 = some 1 ∧
      ((start {} 0).after reuse).engagement.calls.running = [⟨1, 7⟩] ∧
      (((start {} 0).after reuse).engagement.completeNext.map fun r => r.2.2) =
        some (some (.submitAccepted 7 "first")) ∧
      ¬ ((start {} 0).after reuse).Correlated := by
  refine ⟨by decide +kernel, by decide +kernel, by decide +kernel, by decide +kernel, ?_⟩
  refine (Kept.after {} 0 reuse).not_correlated ⟨⟨0, 7⟩, .ok "first", rfl, ?_, ?_, ⟨1, 7⟩, ?_⟩
  · decide +kernel
  · decide +kernel
  · decide +kernel

end Smpp.Ledger
