import Smpp.Proofs.Floor.Account

/-!
# A worker that is told to stop stops

A worker has stopped when it accepts no more and no session is left. Every session ends once it is
cancelled, save that one which waits for the answer to a bind waits on. But a backend is given only
so long to answer (`Config.backendCallTimeout`), so at every instant all binds that are waited for
are answered within that time (`Floor.Patient`). The clock stops at the end of the grace period, so
the last bind is asked about no later than then, and is answered no later than a call may take after
it: by that instant the worker has stopped (`Floor.StopsBy.over`).

`Floor.Ending` says by when everybody has left. It holds from the event that stops the worker on
(`Floor.Ending.of_stops`), and every event preserves it until the worker has stopped
(`Floor.StopsBy.step`). It rests on what one session is answered, and when
(`Station.AnsweredBy.play`).
-/

namespace Smpp

namespace Agenda

variable {α : Type}

/-- What is going to happen stands in the order in which it happens. -/
def InOrder (a : Agenda α) : Prop := a.entries.Pairwise fun e e' => e.1 ≤ e'.1

theorem mem_insert {a : Agenda α} {t : Instant} {thing : α} {e : Instant × α} :
    e ∈ (a.insert t thing).entries ↔ e = (t, thing) ∨ e ∈ a.entries := by
  have hparts := List.takeWhile_append_dropWhile (p := fun e : Instant × α => e.1 ≤ t)
    (l := a.entries)
  conv_rhs => rw [← hparts]
  unfold insert
  simp only [List.mem_append, List.mem_cons]
  exact or_left_comm

/-- Things that are entered are in order. -/
theorem InOrder.insert {a : Agenda α} (h : a.InOrder) (t : Instant) (thing : α) :
    (a.insert t thing).InOrder := by
  obtain ⟨entries⟩ := a
  unfold InOrder at h ⊢
  dsimp only at h
  -- On what is entered already: its first thing stays the first, or the new one comes before it.
  induction entries with
  | nil => exact List.pairwise_singleton _ _
  | cons e es ih =>
    rw [List.pairwise_cons] at h
    by_cases he : e.1 ≤ t
    · -- The thing comes somewhere behind the first one.
      have hbehind : ((⟨e :: es⟩ : Agenda α).insert t thing).entries =
          e :: ((⟨es⟩ : Agenda α).insert t thing).entries := by
        simp [Agenda.insert, he]
      rw [hbehind, List.pairwise_cons]
      refine ⟨fun e' he' => ?_, ih h.2⟩
      obtain rfl | he' := mem_insert.1 he'
      · exact he
      · exact h.1 e' he'
    · have hahead : ((⟨e :: es⟩ : Agenda α).insert t thing).entries = (t, thing) :: e :: es := by
        simp [Agenda.insert, he]
      have hlate : t ≤ e.1 := Nat.le_of_not_le he
      rw [hahead, List.pairwise_cons]
      refine ⟨fun e' he' => ?_, List.pairwise_cons.2 h⟩
      obtain rfl | he' := List.mem_cons.1 he'
      · exact hlate
      · exact Nat.le_trans hlate (h.1 e' he')

/-- What comes first comes no later than the rest. -/
theorem InOrder.next_le {a : Agenda α} (h : a.InOrder) {e : Instant × α} (he : e ∈ a.entries) :
    ∃ t ∈ a.next?, t ≤ e.1 := by
  obtain ⟨entries⟩ := a
  cases entries with
  | nil => cases he
  | cons e' es =>
    refine ⟨e'.1, rfl, ?_⟩
    obtain rfl | he := List.mem_cons.1 he
    · exact Nat.le_refl _
    · exact (List.pairwise_cons.1 h).1 e he

end Agenda

namespace Handler

/-- A handler that has heard about its bind waits no more. -/
theorem stage_authenticated (h : Handler) (now : Instant) (result : AuthResult) (n : UInt32)
    (b : Bind) : (h.authenticated now result).1.stage ≠ .authenticating n b := by
  let heard (h : Handler) : Prop := h.stage ≠ .authenticating n b
  have hfinish (h : Handler) (reason : CloseReason) (_ : heard h) : heard (h.finish reason).1 :=
    fun h => nomatch h
  unfold authenticated
  split
  · next n' b' hstage =>
    have hserves (engagement : Engagement) : heard { h with engagement, stage := .serving } :=
      fun h => nomatch h
    obtain ⟨f, hf⟩ := h.engagement.conclude_answers now n' b' result
    generalize h.engagement.conclude now n' b' result = concluded at hf
    obtain ⟨engagement, reaction⟩ := concluded
    obtain rfl | rfl := hf
    · exact keeps_send (p := heard) hfinish (hserves engagement) f
    · exact keeps_andThen (p := heard) (fun h => hfinish h _)
        (keeps_send (p := heard) hfinish (hserves engagement) f)
  · next hstage => rw [hstage]; exact fun h => nomatch h
  · next hstage => rw [hstage]; exact fun h => nomatch h

/-- A handler that is cancelled asks about no bind. -/
theorem stage_turn_of_cancelled {h : Handler} {now : Instant} {r : Handler × List Effect}
    (hcancelled : h.cancelled = true) (hturn : h.turn now = some r) (n : UInt32) (b : Bind) :
    r.1.stage ≠ .authenticating n b := by
  have hturned := turned h now
  rw [hturn] at hturned
  cases hturned with
  | obeys =>
    obtain ⟨fs, hends, -⟩ := unbindAndFinish_eq h .shutdown
    rw [hends]
    exact fun h => nomatch h
  | completes _ hfree => rw [hcancelled] at hfree; cases hfree
  | reads _ hfree => rw [hcancelled] at hfree; cases hfree

/-- A handler that neither serves its client nor waits for a bind has ended. -/
theorem ended_of_idle {h : Handler} (hserving : h.isServing = false)
    (hwaits : ∀ n b, h.stage ≠ .authenticating n b) : h.reason? ≠ none := by
  unfold reason?
  cases hstage : h.stage with
  | serving => exact absurd (isServing_iff.2 hstage) (Bool.eq_false_iff.1 hserving)
  | authenticating n b => exact absurd hstage (hwaits n b)
  | ended reason => exact fun h => nomatch h

end Handler

namespace Station

/-! ### Binds of one session -/

/-- If the session of a station waits for the answer to a bind, it has it by an instant. -/
structure AnsweredBy (limit : Instant) (s : Station) : Prop where
  inOrder : s.replies.InOrder
  answered : ∀ n b, s.handler.stage = .authenticating n b →
    ∃ t result, (t, .authenticated result) ∈ s.replies.entries ∧ t ≤ limit

section AnsweredBy

variable {now limit : Instant} {s : Station}

theorem AnsweredBy.mono {limit' : Instant} (h : s.AnsweredBy limit) (hlimit : limit ≤ limit') :
    s.AnsweredBy limit' := by
  refine ⟨h.inOrder, fun n b hstage => ?_⟩
  obtain ⟨t, result, hmem, ht⟩ := h.answered n b hstage
  exact ⟨t, result, hmem, Nat.le_trans ht hlimit⟩

/-- What the calls of a station will be answered stands in order. -/
theorem inOrder_foldl_perform (es : List Effect) {p : Station × Backend}
    (h : p.1.replies.InOrder) : (es.foldl (perform now) p).1.replies.InOrder := by
  induction es generalizing p with
  | nil => exact h
  | cons e es ih =>
    refine ih ?_
    obtain ⟨s, b⟩ := p
    cases e with
    | write | farewell | close => exact h
    | authenticate c => exact h.insert _ _
    | submit call submission =>
      dsimp only [perform]
      generalize (b.submit now submission).2.delay.instant? now = t
      cases t with
      | none => exact h
      | some t => exact h.insert t _

/-- Whatever a backend answers, an authentication is over when the limit for a call is. -/
theorem await_le (a : Answer AuthResult) (now : Instant) (span : Span) :
    (a.await now span).1 ≤ now + span := by
  unfold Answer.await
  split
  · split
    · assumption
    · exact Nat.le_refl _
  · exact Nat.le_refl _

/-- A bind that is asked about in a turn is answered within the time for a call. A session that is
cancelled asks about none. -/
theorem AnsweredBy.turn (b : Backend) {r : Handler × List Effect} (h : s.AnsweredBy limit)
    (hcalls : s.handler.cancelled = true ∨
      now + s.handler.engagement.session.config.backendCallTimeout ≤ limit)
    (hturn : s.handler.turn now = some r) : (s.performAll now b r).1.AnsweredBy limit := by
  refine ⟨inOrder_foldl_perform r.2 h.inOrder, fun n bind hstage => ?_⟩
  rw [handler_performAll] at hstage
  obtain hcancelled | hlimit := hcalls
  · exact absurd hstage (Handler.stage_turn_of_cancelled hcancelled hturn n bind)
  have hstepped := Handler.stepped s.handler (.turn now)
  have hresult : s.handler.step (.turn now) = r := congrArg (Option.getD · (s.handler, [])) hturn
  rw [hresult] at hstepped
  cases hstepped with
  | notes hkept => exact h.answered n bind (hkept.symm.trans hstage)
  | serves _ hserves => cases hserves.symm.trans hstage
  | ends _ hends => cases hends.symm.trans hstage
  | @asks h' n' bind' now' hserving hopened hwaits hsession =>
    -- The answer to what it asks is entered at once.
    refine ⟨_, _, Agenda.mem_insert.2 (.inl rfl), Nat.le_trans (await_le _ _ _) ?_⟩
    change now + h'.engagement.session.config.backendCallTimeout ≤ limit
    rw [hsession]
    exact hlimit

/-- What is heard first is the answer to the bind, or leaves it to come. -/
theorem AnsweredBy.hear (b : Backend) {t : Instant} {reply : Reply} {rest : List (Instant × Reply)}
    (h : s.AnsweredBy limit) (hentries : s.replies.entries = (t, reply) :: rest) :
    (({ s with replies := ⟨rest⟩ } : Station).hear now b reply).1.AnsweredBy limit := by
  have hrest : (⟨rest⟩ : Agenda Reply).InOrder := by
    have hinOrder := h.inOrder
    unfold Agenda.InOrder at hinOrder
    rw [hentries] at hinOrder
    exact (List.pairwise_cons.1 hinOrder).2
  cases reply with
  | submitted call result =>
    refine ⟨hrest, fun n bind hstage => ?_⟩
    obtain ⟨u, result', hmem, hu⟩ := h.answered n bind hstage
    rw [hentries] at hmem
    obtain hhead | hmem := List.mem_cons.1 hmem
    · cases hhead
    · exact ⟨u, result', hmem, hu⟩
  | authenticated result =>
    refine ⟨inOrder_foldl_perform _ hrest, fun n bind hstage => ?_⟩
    dsimp only [Station.hear] at hstage
    rw [handler_performAll] at hstage
    exact absurd hstage (Handler.stage_authenticated _ _ _ _ _)

/-- **What a station does at an instant** leaves a session that waits for a bind its answer. -/
theorem AnsweredBy.step {b : Backend} {p : Station × Backend} (h : s.AnsweredBy limit)
    (hcalls : s.handler.cancelled = true ∨
      now + s.handler.engagement.session.config.backendCallTimeout ≤ limit)
    (hstep : s.step now b = some p) : p.1.AnsweredBy limit := by
  obtain ⟨r, hturn, rfl⟩ | ⟨t, reply, rest, hentries, rfl⟩ := step_cases hstep
  · exact h.turn b hcalls hturn
  · exact h.hear b hentries

theorem AnsweredBy.settle {config : Config} (b : Backend) (h : s.AnsweredBy limit)
    (htimely : s.handler.engagement.session.Timely config now)
    (hcalls : s.handler.cancelled = true ∨ now + config.backendCallTimeout ≤ limit) :
    (s.settle now b).1.AnsweredBy limit := by
  -- On what the station has left to use up, as the settling itself.
  induction b, s using settle.induct now with
  | case1 b s hnone =>
    rw [settle_of_none hnone]
    exact h
  | case2 b s s' b' hsome ih =>
    rw [settle_of_some hsome]
    obtain ⟨e, he, -, htells⟩ := tells_of_step hsome
    have hruns := htells.runs he
    exact ih (h.step (htimely.settings ▸ hcalls) hsome) (hruns.timely htimely)
      (hruns.cancelled ▸ hcalls)

/-- **A station that plays** leaves a session that waits for a bind its answer. -/
theorem AnsweredBy.play {config : Config} (b : Backend) (h : s.AnsweredBy limit)
    (htimely : s.handler.engagement.session.Timely config now)
    (hcalls : s.handler.cancelled = true ∨ now + config.backendCallTimeout ≤ limit) :
    (s.play now b).1.AnsweredBy limit := by
  have hsettled := h.settle b htimely hcalls
  refine ⟨replies_play now b s ▸ hsettled.inOrder, fun n bind hstage => ?_⟩
  rw [(tells_play now b s).handler] at hstage
  rw [replies_play]
  -- The look at the timers asks the backend nothing.
  have hstepped := Handler.stepped (s.settle now b).1.handler (.tick now)
  have hquiet : ∀ e ∈ ((s.settle now b).1.handler.step (.tick now)).2, e.weight = 0 :=
    fun _ => Handler.weight_of_mem_tick
  generalize (s.settle now b).1.handler.step (.tick now) = r at hstepped hquiet hstage
  cases hstepped with
  | notes hkept => exact hsettled.answered n bind (hkept.symm.trans hstage)
  | serves _ hserves => cases hserves.symm.trans hstage
  | ends _ hends => cases hends.symm.trans hstage
  | asks => cases hquiet _ List.mem_cons_self

/-- A session whose answers have all come waits for none. -/
theorem AnsweredBy.stage_of_late (h : s.AnsweredBy limit) (hquiet : ∀ t ∈ s.replies.next?, now < t)
    (hlate : limit ≤ now) (n : UInt32) (b : Bind) : s.handler.stage ≠ .authenticating n b := by
  intro hstage
  obtain ⟨t, result, hmem, ht⟩ := h.answered n b hstage
  obtain ⟨u, hu, hut⟩ := h.inOrder.next_le hmem
  have hearly : now < t := Nat.lt_of_lt_of_le (hquiet u hu) hut
  exact Nat.not_le.2 hearly (Nat.le_trans ht hlate)

end AnsweredBy

end Station

namespace Floor

/-! ### Binds on a floor -/

/-- The binds that sessions wait for are answered by an instant. -/
def AnsweredBy (limit : Instant) (f : Floor) : Prop := ∀ s ∈ f.stations, s.AnsweredBy limit

section AnsweredBy

variable {limit : Instant} {f : Floor}

theorem AnsweredBy.mono {limit' : Instant} (h : f.AnsweredBy limit) (hlimit : limit ≤ limit') :
    f.AnsweredBy limit' :=
  fun s hs => (h s hs).mono hlimit

theorem AnsweredBy.play (h : f.AnsweredBy limit) (hkept : f.Kept)
    (hcalls : f.worker.isClosing = true ∨ f.now + f.config.backendCallTimeout ≤ limit) :
    f.play.AnsweredBy limit := by
  intro s' hs'
  obtain ⟨s, hs, b, rfl⟩ := exists_of_mem_play hs'
  obtain ⟨-, htimely, hcancelled⟩ := hkept.player hs
  refine Station.AnsweredBy.play b ?_ htimely (hcancelled ▸ hcalls)
  -- To be cancelled changes nothing about an answer.
  unfold players at hs
  split at hs
  · obtain ⟨s₀, hs₀, rfl⟩ := List.mem_map.1 hs
    exact ⟨(h s₀ hs₀).inOrder, (h s₀ hs₀).answered⟩
  · exact h s hs

/-- What is done at an instant leaves the answers to binds where they are, unless a bind is asked
about then; and nobody asks once the worker closes. -/
theorem AnsweredBy.settle (h : f.AnsweredBy limit) (hkept : f.Kept)
    (hcalls : f.worker.isClosing = true ∨ f.now + f.config.backendCallTimeout ≤ limit) :
    f.settle.AnsweredBy limit := by
  have hplayed : f.ticked.AnsweredBy limit := h.play hkept hcalls
  obtain ⟨hclosing, hsettle⟩ | ⟨-, hsettle⟩ := settle_cases f
  · rw [hsettle]
    exact hplayed.play hkept.ticked (.inl hclosing)
  · rw [hsettle]
    exact hplayed

/-- To be told something leaves the answers to binds where they are. -/
theorem AnsweredBy.told (h : f.AnsweredBy limit) (e : Event) : (f.told e).AnsweredBy limit := by
  have htell {client : Nat} {g : Handler → Handler} (hg : ∀ h, (g h).stage = h.stage) :
      (f.tell client g).AnsweredBy limit := by
    intro s' hs'
    obtain ⟨s, hs, rfl | rfl⟩ := exists_of_mem_tell hs'
    · exact h _ hs
    · exact ⟨(h s hs).inOrder, fun n b hstage => (h s hs).answered n b ((hg _).symm.trans hstage)⟩
  cases e with
  | send | endStream => exact htell fun _ => rfl
  | advance | drain | shutdown => exact h
  | connect =>
    dsimp only [Floor.told]
    split
    · intro s hs
      obtain hs | hs := List.mem_append.1 hs
      · exact h s hs
      · rw [List.mem_singleton.1 hs]
        exact ⟨List.Pairwise.nil, fun _ _ h => nomatch h⟩
    · exact h

/-- At every instant a bind that is waited for is answered within the time for a call. -/
def Patient (f : Floor) : Prop := f.AnsweredBy (f.now + f.config.backendCallTimeout)

theorem Patient.settle (h : f.Patient) (hkept : f.Kept) : f.settle.Patient := by
  unfold Patient
  rw [now_settle, config_settle]
  exact AnsweredBy.settle h hkept (.inr (Nat.le_refl _))

theorem Patient.later (h : f.Patient) {t : Instant} (ht : f.now ≤ t) :
    ({ f with now := t } : Floor).Patient :=
  AnsweredBy.mono h (Nat.add_le_add_right ht _)

theorem Patient.step (h : f.Patient) (hkept : f.Kept) (e : Event) : (f.step e).Patient := by
  obtain ⟨span, -, hstep⟩ | hstep | hstep := step_cases f e <;> rw [hstep]
  · refine advanceTo_induction (p := fun f => f.Kept ∧ f.Patient) (q := Patient) ⟨hkept, h⟩
      (Nat.le_add_right _ _) ?_ fun _ hf hnow _ => hf.2.later hnow
    intro g t hg hwakeup _
    have ht := Nat.le_of_lt (now_lt_of_wakeup hwakeup)
    exact ⟨(hg.1.later ht).settle.toKept, (hg.2.later ht).settle (hg.1.later ht)⟩
  · exact h
  · refine Patient.settle ?_ (hkept.told e)
    unfold Patient
    rw [now_told, config_told]
    exact AnsweredBy.told h e

end AnsweredBy

/-! ### A worker that stops -/

/-- A worker that was told to stop, and with it everybody, by an instant. -/
structure Ending (limit : Instant) (f : Floor) : Prop where
  stopped : f.worker.phase ≠ .accepting
  /-- The grace period ends early enough for what is asked at its end. -/
  graced : ∀ deadline, f.worker.phase = .draining deadline →
    deadline + f.config.backendCallTimeout ≤ limit
  answered : f.AnsweredBy limit

section Ending

variable {limit : Instant} {f : Floor}

theorem Ending.mono {limit' : Instant} (h : f.Ending limit) (hlimit : limit ≤ limit') :
    f.Ending limit' :=
  ⟨h.stopped, fun deadline hdraining => Nat.le_trans (h.graced deadline hdraining) hlimit,
    h.answered.mono hlimit⟩

/-- What is done at an instant lets the end be, unless a grace period has been forgotten. -/
theorem Ending.settle (h : f.Ending limit) (hkept : f.Kept)
    (hearly : ∀ deadline, f.worker.phase = .draining deadline → f.now ≤ deadline) :
    f.settle.Ending limit := by
  -- What is done at an instant leaves the phase to the clock, which begins no grace period.
  have hages := (worker_settle f).1
  refine ⟨hages.ne_accepting h.stopped, fun deadline hdraining => ?_,
    h.answered.settle hkept ?_⟩
  · rw [config_settle]
    obtain hsame | ⟨_, -, -, hclosing⟩ := hages
    · exact h.graced deadline (hsame.symm.trans hdraining)
    · cases hclosing.symm.trans hdraining
  · cases hphase : f.worker.phase with
    | accepting => exact absurd hphase h.stopped
    | closing => exact .inl (Worker.isClosing_iff.2 hphase)
    | draining deadline =>
      -- Whoever is asked about now is answered no later than at the end of a call from then on.
      have hcall := Nat.add_le_add_right (hearly deadline hphase) f.config.backendCallTimeout
      exact .inr (Nat.le_trans hcall (h.graced deadline hphase))

theorem Ending.later (h : f.Ending limit) (t : Instant) :
    ({ f with now := t } : Floor).Ending limit :=
  ⟨h.stopped, h.graced, h.answered⟩

/-- A worker that has stopped accepting goes on as it did, or closes. -/
theorem phase_told_of_stopped (hstopped : f.worker.phase ≠ .accepting) (e : Event) :
    (f.told e).worker.phase = f.worker.phase ∨ (f.told e).worker.phase = .closing := by
  by_cases hshutdown : e = .shutdown
  · subst hshutdown
    exact .inr rfl
  · exact .inl (phase_told hshutdown fun _ => hstopped)

theorem Ending.told (h : f.Ending limit) (e : Event) : (f.told e).Ending limit := by
  have hphase := phase_told_of_stopped h.stopped e
  refine ⟨?_, fun deadline hdraining => ?_, h.answered.told e⟩
  · obtain hsame | hclosing := hphase
    · rw [hsame]
      exact h.stopped
    · rw [hclosing]
      exact fun h => nomatch h
  · rw [config_told]
    obtain hsame | hclosing := hphase
    · exact h.graced deadline (hsame.symm.trans hdraining)
    · cases hclosing.symm.trans hdraining

/-- A worker that was told to shut down waits for nothing but the answers to binds. -/
theorem Ending.of_shutdown (hkept : f.Kept) (hpatient : f.Patient) :
    (f.step .shutdown).Ending (f.now + f.config.backendCallTimeout) := by
  have htold : (f.told .shutdown).Ending (f.now + f.config.backendCallTimeout) :=
    ⟨fun h => (nomatch h), fun _ h => (nomatch h), AnsweredBy.told hpatient .shutdown⟩
  exact htold.settle (hkept.told .shutdown) fun _ h => nomatch h

/-- A worker that was told to stop waits for the grace period at most, and then for the answers to
binds. -/
theorem Ending.of_stops {e : Event} (he : e.stops = true) (hopen : f.worker.phase = .accepting)
    (hkept : f.Kept) (hpatient : f.Patient) :
    (f.step e).Ending (f.now + f.worker.grace + f.config.backendCallTimeout) := by
  have hlimit : f.now + f.config.backendCallTimeout ≤
      f.now + f.worker.grace + f.config.backendCallTimeout :=
    Nat.add_le_add_right (Nat.le_add_right _ _) _
  cases e with
  | connect | send | endStream | advance => cases he
  | shutdown => exact (Ending.of_shutdown hkept hpatient).mono hlimit
  | drain =>
    -- The grace period has just begun.
    have hbegins {deadline : Instant}
        (hdraining : (f.told .drain).worker.phase = .draining deadline) :
        deadline = f.now + f.worker.grace := by
      rw [phase_told_drain hopen] at hdraining
      cases hdraining
      rfl
    have htold : (f.told .drain).Ending
        (f.now + f.worker.grace + f.config.backendCallTimeout) := by
      refine ⟨stopped_told he, fun deadline hdraining => ?_,
        (AnsweredBy.told hpatient _).mono hlimit⟩
      rw [hbegins hdraining]
      exact Nat.le_refl _
    refine htold.settle (hkept.told .drain) fun deadline hdraining => ?_
    rw [hbegins hdraining]
    exact Nat.le_add_right _ _

/-- A worker that was told to stop and has nobody left has stopped for good. -/
theorem Rested.over_of_empty (h : f.Rested) (hstopped : f.worker.phase ≠ .accepting)
    (hempty : f.worker.active = 0) : ∃ r, f.Over r :=
  ⟨_, report?_eq_some_iff.2 ⟨hstopped, hempty, rfl⟩, h.active_eq_zero_iff.1 hempty⟩

/-- As long as there is someone to wait for, the grace period is not over. -/
theorem Ending.over_or_early (h : f.Ending limit) (hrest : f.Rested) :
    (∃ r, f.Over r) ∨ f.worker.active ≠ 0 ∧
      ∀ deadline, f.worker.phase = .draining deadline → f.now < deadline := by
  by_cases hempty : f.worker.active = 0
  · exact .inl (hrest.over_of_empty h.stopped hempty)
  · exact .inr ⟨hempty, fun deadline hdraining =>
      (hrest.graced deadline hdraining).resolve_right hempty⟩

/-- A worker has stopped, or is going to by an instant. -/
def StopsBy (limit : Instant) (f : Floor) : Prop := (∃ r, f.Over r) ∨ f.Ending limit

theorem StopsBy.settle (h : f.StopsBy limit) (hrest : f.Rested) : f.settle.StopsBy limit := by
  obtain ⟨r, hover⟩ | hending := h
  · exact .inl ⟨r, hover.settle⟩
  obtain ⟨r, hover⟩ | ⟨-, hearly⟩ := hending.over_or_early hrest
  · exact .inl ⟨r, hover.settle⟩
  · exact .inr (hending.settle hrest.toKept fun deadline hdraining =>
      Nat.le_of_lt (hearly deadline hdraining))

/-- The clock stops at the end of the grace period. -/
theorem StopsBy.advanceTo {target : Instant} (h : f.StopsBy limit) (hrest : f.Rested)
    (hnow : f.now ≤ target) : (f.advanceTo target).StopsBy limit := by
  refine advanceTo_induction (p := fun f => f.Rested ∧ f.StopsBy limit)
    (q := StopsBy limit) ⟨hrest, h⟩ hnow ?_ fun g hg _ _ => ?_
  · rintro g t ⟨hrest, hstops⟩ hwakeup -
    have hlater := hrest.toKept.later (Nat.le_of_lt (now_lt_of_wakeup hwakeup))
    refine ⟨hlater.settle, ?_⟩
    obtain ⟨r, hover⟩ | hending := hstops
    · exact .inl ⟨r, (hover.later t).settle⟩
    obtain ⟨r, hover⟩ | ⟨hleft, hearly⟩ := hending.over_or_early hrest
    · exact .inl ⟨r, (hover.later t).settle⟩
    · refine .inr ((hending.later t).settle hlater fun deadline hdraining => ?_)
      -- The end of the grace period matters, so the clock does not pass it.
      obtain ⟨t', ht', hle⟩ := exists_wakeup (f := g)
        (deadline_mem_wakeups hdraining hleft) (hearly deadline hdraining)
      rw [hwakeup] at ht'
      cases ht'
      exact hle
  · obtain ⟨r, hover⟩ | hending := hg.2
    · exact .inl ⟨r, hover.later target⟩
    · exact .inr (hending.later target)

/-- **Whatever happens, a worker that was told to stop has stopped by then.** -/
theorem StopsBy.step (h : f.StopsBy limit) (hrest : f.Rested) (e : Event) :
    (f.step e).StopsBy limit := by
  obtain ⟨span, -, hstep⟩ | hstep | hstep := step_cases f e <;> rw [hstep]
  · exact h.advanceTo hrest (Nat.le_add_right _ _)
  · exact h
  · obtain ⟨r, hover⟩ | hending := h
    · exact .inl ⟨r, (hover.told e).settle⟩
    obtain ⟨r, hover⟩ | ⟨-, hearly⟩ := hending.over_or_early hrest
    · exact .inl ⟨r, (hover.told e).settle⟩
    · refine .inr ((hending.told e).settle (hrest.toKept.told e) fun deadline hdraining => ?_)
      rw [now_told]
      obtain hsame | hclosing := phase_told_of_stopped hending.stopped e
      · exact Nat.le_of_lt (hearly deadline (hsame.symm.trans hdraining))
      · cases hclosing.symm.trans hdraining

/-- **A worker that was told to stop has stopped** when everybody has left who had to. -/
theorem StopsBy.over (h : f.StopsBy limit) (hrest : f.Rested) (hlate : limit ≤ f.now) :
    ∃ r, f.Over r := by
  obtain hover | hending := h
  · exact hover
  obtain hover | ⟨hleft, hearly⟩ := hending.over_or_early hrest
  · exact hover
  have hclosing : f.worker.phase = .closing := by
    cases hphase : f.worker.phase with
    | accepting => exact absurd hphase hending.stopped
    | closing => rfl
    | draining deadline =>
      have hend := Nat.le_trans (Nat.le_add_right _ _) (hending.graced deadline hphase)
      exact absurd (Nat.le_trans hend hlate) (Nat.not_le.2 (hearly deadline hphase))
  -- Who is cancelled and waits for no bind has left.
  have hempty : none ∉ f.reasons := by
    intro hnone
    obtain ⟨s, hs, hactive⟩ := List.mem_map.1 hnone
    have hserving := (hrest.closed (Worker.isClosing_iff.2 hclosing) s hs).2
    have hwaits := (hending.answered s hs).stage_of_late (hrest.quiet s hs) hlate
    exact Handler.ended_of_idle hserving hwaits hactive
  exact absurd (hrest.active_eq_zero_iff.2 hempty) hleft

end Ending

end Floor

end Smpp
