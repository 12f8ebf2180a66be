import Smpp.Proofs.Floor.Account
import Smpp.Worker.Process

/-!
# What a worker process says, in whatever order it goes on

A worker process waits for three things at once: for its input, for a signal, and for its worker.
Which of them it sees first is not up to it. So a line may be read after another before any session
has noticed the first, and a worker may have stopped before its process says so. `Label` takes apart
what `WorkerProcess.step` does at once, and what is shown here holds of the labels in any order
(`run_eq_after` reads a run as one of these orders).

Whatever the order, a process says that it is ready, answers every probe that it hears before it is
over, and says its last word when it is over (`said_after`). What the process hears takes effect at
once, and its floor keeps what a floor keeps (`Floor.Goes`).
-/

namespace Smpp

/-! ### What a process hears -/

namespace WorkerInput

/-- What a process that hears this asks of its worker. -/
def event? : WorkerInput → Option Floor.Event
  | .line text =>
    match ControlMessage.read text with
    | .ok .drain => some .drain
    | .ok .shutdown => some .shutdown
    | .ok (.ping _) | .error _ => none
  | .endOfInput | .signal => some .drain

/-- The nonce that a process that hears this has to give back. -/
def nonce? : WorkerInput → Option UInt64
  | .line text =>
    match ControlMessage.read text with
    | .ok (.ping nonce) => some nonce
    | .ok .drain | .ok .shutdown | .error _ => none
  | .endOfInput | .signal => none

end WorkerInput

namespace Floor

/-- **What a process hears** stops its worker, or asks for an answer, or is nothing. -/
theorem hear_cases (f : Floor) (i : WorkerInput) :
    (∃ e, i.event? = some e ∧ e.stops = true ∧ i.nonce? = none ∧
        ({ f with worker := (f.worker.hear f.now i).1 } : Floor) = f.told e ∧
        (f.worker.hear f.now i).2 = none) ∨
      i.event? = none ∧ f.worker.hear f.now i = (f.worker,
        i.nonce?.map fun nonce => .pong nonce (UInt64.ofNat f.worker.active)) := by
  cases i with
  | endOfInput | signal => exact .inl ⟨.drain, rfl, rfl, rfl, rfl, rfl⟩
  | line text =>
    unfold WorkerInput.event? WorkerInput.nonce? Worker.hear
    dsimp only
    match ControlMessage.read text with
    | .ok .drain => exact .inl ⟨.drain, rfl, rfl, rfl, rfl, rfl⟩
    | .ok .shutdown => exact .inl ⟨.shutdown, rfl, rfl, rfl, rfl, rfl⟩
    | .ok (.ping nonce) => exact .inr ⟨rfl, rfl⟩
    | .error error => exact .inr ⟨rfl, rfl⟩

/-! ### What a floor does meanwhile -/

/-- What becomes of a floor that is told something, or that just goes on: it may do everything that
there is to do about it, or leave that for later. -/
inductive Goes (f : Floor) : Option Event → Floor → Prop where
  | hears (e : Event) : Goes f (some e) (f.told e)
  | steps (e : Event) : Goes f (some e) (f.step e)
  | settles : Goes f none f.settle
  | stays : Goes f none f

section Goes

variable {f f' : Floor} {e? : Option Event}

theorem Goes.kept (h : f.Goes e? f') (hkept : f.Kept) : f'.Kept := by
  cases h with
  | hears e => exact hkept.told e
  | steps e => exact hkept.step e
  | settles => exact hkept.settle.toKept
  | stays => exact hkept

theorem Goes.settings (h : f.Goes e? f') :
    f'.config = f.config ∧ f'.worker.grace = f.worker.grace := by
  cases h with
  | hears e => exact ⟨config_told f e, grace_told f e⟩
  | steps e => exact ⟨config_step f e, grace_step f e⟩
  | settles => exact ⟨config_settle f, (worker_settle f).2.1⟩
  | stays => exact ⟨rfl, rfl⟩

theorem Goes.now_le (h : f.Goes e? f') : f.now ≤ f'.now := by
  cases h with
  | hears e => exact Nat.le_of_eq (now_told f e).symm
  | steps e => exact now_le_step f e
  | settles => exact Nat.le_of_eq (now_settle f).symm
  | stays => exact Nat.le_refl _

/-- **The clock alone** decides how far a worker comes, unless it is told to stop. -/
theorem Goes.ages (h : f.Goes e? f') (hshutdown : e? ≠ some .shutdown)
    (hdrain : e? = some .drain → f.worker.phase ≠ .accepting) :
    f.worker.phase.Ages f'.now f'.worker.phase := by
  cases h with
  | hears e =>
    rw [phase_told (fun h => hshutdown (congrArg some h)) fun h => hdrain (congrArg some h)]
    exact .refl _ _
  | steps e =>
    exact ages_step (fun h => hshutdown (congrArg some h)) fun h => hdrain (congrArg some h)
  | settles =>
    rw [now_settle]
    exact (worker_settle f).1
  | stays => exact .refl _ _

/-- A worker that was told to stop has stopped. -/
theorem Goes.stopped_of_stops (h : f.Goes e? f') (he : ∃ e ∈ e?, e.stops = true) :
    f'.worker.phase ≠ .accepting := by
  obtain ⟨e, rfl, he⟩ := he
  cases h with
  | hears => exact stopped_told he
  | steps => exact Floor.stopped_of_stops he

theorem Goes.closing_of_shutdown (h : f.Goes (some .shutdown) f') :
    f'.worker.phase = .closing := by
  cases h with
  | hears => rfl
  | steps => exact Worker.isClosing_iff.1 (isClosing_settle (f := f.told .shutdown) rfl)

/-- The grace period begins when a worker that accepts is told to drain. -/
theorem Goes.ages_of_drain (h : f.Goes (some .drain) f') (hopen : f.worker.phase = .accepting) :
    (WorkerPhase.draining (f.now + f.worker.grace)).Ages f'.now f'.worker.phase := by
  cases h with
  | hears => exact .inl (phase_told_drain hopen)
  | steps => exact phase_after_drain hopen (List.forall_mem_nil _)

/-- A worker that closes does so for good. -/
theorem Goes.closing (h : f.Goes e? f') (hclosing : f.worker.phase = .closing) :
    f'.worker.phase = .closing := by
  by_cases hshutdown : e? = some .shutdown
  · subst hshutdown
    exact h.closing_of_shutdown
  · -- Neither the clock nor an order to drain opens a worker that closes.
    have hages := h.ages hshutdown fun _ hopen => nomatch hclosing.symm.trans hopen
    rw [hclosing] at hages
    exact hages.eq_closing

/-- A worker that has stopped accepting accepts no more. -/
theorem Goes.stopped (h : f.Goes e? f') (hstopped : f.worker.phase ≠ .accepting) :
    f'.worker.phase ≠ .accepting := by
  by_cases hshutdown : e? = some .shutdown
  · subst hshutdown
    rw [h.closing_of_shutdown]
    exact fun h => nomatch h
  · exact (h.ages hshutdown fun _ => hstopped).ne_accepting hstopped

/-- A worker that accepts does so until it is told to stop. -/
theorem Goes.accepting (h : f.Goes e? f') (hopen : f.worker.phase = .accepting)
    (he : ∀ e ∈ e?, e.stops = false) : f'.worker.phase = .accepting := by
  have hages : f.worker.phase.Ages f'.now f'.worker.phase :=
    h.ages (fun h => nomatch he _ h) fun h => nomatch he _ h
  rw [hopen] at hages
  exact hages.eq_accepting

end Goes

end Floor

namespace WorkerProcess

/-! ### Labels -/

/-- One thing that a process does. -/
inductive Label where
  /-- It hears something, and answers. -/
  | hears (input : WorkerInput)
  /-- Something happens to its worker. -/
  | happens (event : Floor.Event)
  /-- Its worker does all that there is to do. -/
  | settles
  /-- It says its last word if its worker has stopped. -/
  | concludes

/-- What a worker is told. -/
def Label.event? : Label → Option Floor.Event
  | .hears input => input.event?
  | .happens event => some event
  | .settles | .concludes => none

/-- The nonce that is to be given back. -/
def Label.nonce? : Label → Option UInt64
  | .hears input => input.nonce?
  | .happens _ | .settles | .concludes => none

/-- Whether a worker that is told so accepts no more. -/
def Label.Stops (l : Label) : Prop := ∃ e ∈ l.event?, e.stops = true

/-- What becomes of a process by one thing that it does; one that is over does nothing. -/
def act (p : WorkerProcess) (l : Label) : WorkerProcess :=
  if p.isOver then p
  else
    match l with
    | .hears input =>
      let (worker, answer) := p.floor.worker.hear p.floor.now input
      { p with floor := { p.floor with worker }, said := p.said ++ answer.toList }
    | .happens event => { p with floor := p.floor.step event }
    | .settles => { p with floor := p.floor.settle }
    | .concludes => p.conclude

/-- What becomes of a process by one thing after another. -/
def after (p : WorkerProcess) (labels : List Label) : WorkerProcess := labels.foldl act p

/-- What a process does when something happens to it, in the order in which it does so. -/
def Event.labels : Event → List Label
  | .input i => [.hears i, .settles, .concludes]
  | .happening e => [.happens e, .concludes]

/-- A process at one step of its way. -/
structure Move where
  before : WorkerProcess
  label : Label

/-- The steps of a process. -/
def history (p : WorkerProcess) : List Label → List Move
  | [] => []
  | l :: ls => ⟨p, l⟩ :: (p.act l).history ls

/-- The answer that a step has to give: to a probe, as long as the process is not over, the nonce of
the probe and the number of the sessions that have not ended. -/
def Move.pong? (m : Move) : Option WorkerStatus :=
  if m.before.isOver then none
  else m.label.nonce?.map fun nonce =>
    .pong nonce (UInt64.ofNat (m.before.floor.reasons.count none))

section Runs

variable {p : WorkerProcess}

@[simp] theorem after_cons (p : WorkerProcess) (l : Label) (ls : List Label) :
    p.after (l :: ls) = (p.act l).after ls := rfl

theorem after_append (p : WorkerProcess) (ls ls' : List Label) :
    p.after (ls ++ ls') = (p.after ls).after ls' :=
  List.foldl_append

/-- What is over stays as it is. -/
theorem act_of_over (hover : p.isOver = true) (l : Label) : p.act l = p := if_pos hover

theorem after_of_over (hover : p.isOver = true) (ls : List Label) : p.after ls = p := by
  induction ls with
  | nil => rfl
  | cons l ls ih => rw [after_cons, act_of_over hover, ih]

/-- What every step preserves a run preserves. -/
theorem after_of_act {P : WorkerProcess → Prop} {q : Label → Prop} {p : WorkerProcess} (hp : P p)
    (hact : ∀ p l, P p → q l → P (p.act l)) {ls : List Label} (hq : ∀ l ∈ ls, q l) :
    P (p.after ls) := by
  induction ls generalizing p with
  | nil => exact hp
  | cons l ls ih =>
    rw [List.forall_mem_cons] at hq
    exact ih (hact p l hp hq.1) hq.2

end Runs

/-- What one thing that it does makes of a process that is not over. -/
inductive Acted (p : WorkerProcess) : Label → WorkerProcess → Prop where
  /-- It says its last word. -/
  | ends {r : WorkerReport} (hreport : p.floor.worker.report? = some r) :
    Acted p .concludes
      { p with
        said := p.said ++ [.shutdownAck (UInt64.ofNat r.closedOnShutdown)]
        isOver := true }
  /-- It goes on, and answers a probe. -/
  | goes {l : Label} {f : Floor} (hfloor : p.floor.Goes l.event? f) :
    Acted p l
      { p with
        floor := f
        said := p.said ++ (l.nonce?.map fun nonce =>
          .pong nonce (UInt64.ofNat p.floor.worker.active)).toList }

theorem acted {p : WorkerProcess} (hgoes : p.isOver = false) (l : Label) : Acted p l (p.act l) := by
  -- Whatever answers no probe is something that the floor does, and no more.
  have hnothing {f : Floor} {l : Label} (hl : l.nonce? = none) (hfloor : p.floor.Goes l.event? f) :
      Acted p l { p with floor := f } := by
    have hacted := Acted.goes hfloor
    rw [hl] at hacted
    exact List.append_nil p.said ▸ hacted
  unfold act
  rw [if_neg (Bool.eq_false_iff.1 hgoes)]
  cases l with
  | happens e => exact hnothing rfl (.steps e)
  | settles => exact hnothing rfl .settles
  | concludes =>
    dsimp only [conclude]
    split
    · next hreport => exact .ends hreport
    · exact hnothing rfl .stays
  | hears i =>
    dsimp only
    obtain ⟨e, he, -, hnonce, hfloor, hanswer⟩ | ⟨he, hasked⟩ := p.floor.hear_cases i
    · have hheard : p.floor.Goes i.event? (p.floor.told e) := he ▸ .hears e
      rw [hfloor, hanswer, Option.toList_none, List.append_nil]
      exact hnothing (l := .hears i) hnonce hheard
    · have hheard : p.floor.Goes i.event? p.floor := he ▸ .stays
      rw [hasked]
      exact .goes (l := .hears i) hheard

/-- What holds of the floor whatever it does holds of it whatever its process does. -/
theorem floor_act {P : Floor → Prop} {p : WorkerProcess} (hp : P p.floor) (l : Label)
    (hgoes : p.isOver = false → ∀ f, p.floor.Goes l.event? f → P f) : P (p.act l).floor := by
  cases hover : p.isOver with
  | true =>
    rw [act_of_over hover]
    exact hp
  | false =>
    have hacted := acted hover l
    generalize p.act l = p' at hacted
    cases hacted with
    | ends => exact hp
    | goes hfloor => exact hgoes hover _ hfloor

/-! ### What a process says -/

/-- What holds of a process whatever it does. -/
structure Kept (p : WorkerProcess) : Prop where
  floor : p.floor.Kept
  /-- It is over only when its worker has stopped. -/
  reported : p.isOver = true → ∃ r, p.floor.worker.report? = some r

theorem Kept.start (pid : UInt32) (address : SocketAddress) (config : Config) (backend : Backend) :
    (start pid address (.start config backend)).Kept :=
  ⟨(Floor.Rested.start config backend).toKept, fun h => nomatch h⟩

theorem Kept.act {p : WorkerProcess} (h : p.Kept) (l : Label) : (p.act l).Kept := by
  refine ⟨floor_act h.floor l fun _ _ hgoes => hgoes.kept h.floor, ?_⟩
  cases hover : p.isOver with
  | true =>
    rw [act_of_over hover]
    exact h.reported
  | false =>
    have hacted := acted hover l
    generalize p.act l = p' at hacted
    cases hacted with
    | ends hreport => exact fun _ => ⟨_, hreport⟩
    | goes => exact fun h => nomatch hover.symm.trans h

theorem Kept.after {p : WorkerProcess} (h : p.Kept) (ls : List Label) : (p.after ls).Kept :=
  after_of_act (q := fun _ => True) h (fun _ l h _ => h.act l) fun _ _ => trivial

/-- What a process that is over has said last. -/
def lastWords (p : WorkerProcess) : List WorkerStatus :=
  if p.isOver then [.shutdownAck (UInt64.ofNat (p.floor.reasons.count (some .shutdown)))] else []

theorem history_of_over {p : WorkerProcess} (hover : p.isOver = true) (ls : List Label) :
    (p.history ls).filterMap Move.pong? = [] := by
  induction ls with
  | nil => rfl
  | cons l ls ih =>
    have hnothing : Move.pong? ⟨p, l⟩ = none := if_pos hover
    unfold history
    rw [act_of_over hover, List.filterMap_cons_none hnothing, ih]

/-- **What a process says**: an answer to every probe until it is over, and then its last word. -/
theorem said_after {p : WorkerProcess} (h : p.Kept) (hgoes : p.isOver = false) (ls : List Label) :
    (p.after ls).said =
      p.said ++ (p.history ls).filterMap Move.pong? ++ (p.after ls).lastWords := by
  -- On the labels, from the first on: behind the last word there is nothing left to say.
  induction ls generalizing p with
  | nil =>
    have hnothing : p.lastWords = [] := if_neg (Bool.eq_false_iff.1 hgoes)
    change p.said = p.said ++ [] ++ p.lastWords
    rw [hnothing, List.append_nil, List.append_nil]
  | cons l ls ih =>
    have hkept := h.act l
    have hacted := acted hgoes l
    have hpong : Move.pong? ⟨p, l⟩ = l.nonce?.map fun nonce =>
        .pong nonce (UInt64.ofNat p.floor.worker.active) := by
      rw [h.floor.account.active]
      exact if_neg (Bool.eq_false_iff.1 hgoes)
    unfold history
    rw [after_cons]
    generalize p.act l = p' at hkept hacted
    cases hacted with
    | @ends r hreport =>
      rw [after_of_over rfl, List.filterMap_cons_none hpong, history_of_over rfl, List.append_nil]
      have hforced : r.closedOnShutdown = p.floor.reasons.count (some .shutdown) := by
        rw [(Floor.report?_eq_some_iff.1 hreport).2.2]
        exact h.floor.account.forced
      change p.said ++ _ = p.said ++ [.shutdownAck _]
      rw [hforced]
    | goes hfloor =>
      -- What is said now comes before all that is said later.
      rw [ih hkept hgoes, List.filterMap_cons, hpong]
      dsimp only
      cases l.nonce? with
      | none => rw [Option.map_none, Option.toList_none, List.append_nil]
      | some nonce =>
        rw [Option.map_some, Option.toList_some]
        simp only [List.append_assoc, List.singleton_append]

/-- A line that is no message changes nothing. -/
theorem act_of_error (p : WorkerProcess) {text : String} {error : ControlError}
    (h : ControlMessage.read text = .error error) : p.act (.hears (.line text)) = p := by
  cases hover : p.isOver with
  | true => exact act_of_over hover _
  | false =>
    unfold act Worker.hear
    rw [if_neg (Bool.eq_false_iff.1 hover)]
    dsimp only
    rw [h, Option.toList_none, List.append_nil]

/-! ### How far a worker comes -/

section Phase

variable {p : WorkerProcess} {l : Label}

/-- Nothing that a process does changes its settings. -/
theorem settings_after (p : WorkerProcess) (ls : List Label) :
    (p.after ls).floor.config = p.floor.config ∧
      (p.after ls).floor.worker.grace = p.floor.worker.grace := by
  let same (f : Floor) : Prop := f.config = p.floor.config ∧ f.worker.grace = p.floor.worker.grace
  refine after_of_act (P := fun p => same p.floor) (q := fun _ => True) ⟨rfl, rfl⟩
    (fun p' l hsame _ => ?_) fun _ _ => trivial
  refine floor_act (P := same) hsame l fun _ _ hgoes => ?_
  obtain ⟨hconfig, hgrace⟩ := hgoes.settings
  exact ⟨hconfig.trans hsame.1, hgrace.trans hsame.2⟩

/-- A worker that has stopped accepting accepts no more. -/
theorem stopped_after (hstopped : p.floor.worker.phase ≠ .accepting) (ls : List Label) :
    (p.after ls).floor.worker.phase ≠ .accepting := by
  refine after_of_act (P := fun p => p.floor.worker.phase ≠ .accepting) (q := fun _ => True)
    hstopped (fun p l hstopped _ => ?_) fun _ _ => trivial
  exact floor_act (P := fun f => f.worker.phase ≠ .accepting) hstopped l
    fun _ _ hgoes => hgoes.stopped hstopped

/-- A process that is over accepts no more. -/
theorem Kept.stopped (h : p.Kept) (hover : p.isOver = true) :
    p.floor.worker.phase ≠ .accepting := by
  obtain ⟨r, hr⟩ := h.reported hover
  exact (Floor.report?_eq_some_iff.1 hr).1

/-- A process that accepts is not over. -/
theorem Kept.goes (h : p.Kept) (hopen : p.floor.worker.phase = .accepting) : p.isOver = false :=
  Bool.eq_false_iff.2 fun hover => h.stopped hover hopen

/-- What a process that is not over hears its worker is told. -/
theorem goes_act (hgoes : p.isOver = false) {e : Floor.Event} (hl : l.event? = some e) :
    p.floor.Goes (some e) (p.act l).floor := by
  have hacted := acted hgoes l
  generalize p.act l = p' at hacted
  cases hacted with
  | ends => cases hl
  | goes hfloor => exact hl ▸ hfloor

/-- **A worker accepts until its process hears that it is to stop**, be it by a line, by the end of
its input or by a signal. -/
theorem phase_after_iff (h : p.Kept) (hopen : p.floor.worker.phase = .accepting)
    (ls : List Label) :
    (p.after ls).floor.worker.phase = .accepting ↔ ∀ l ∈ ls, ¬ l.Stops := by
  refine ⟨fun hphase l hl hstops => ?_, fun hls => ?_⟩
  · -- From there on the worker would not accept.
    obtain ⟨earlier, later, rfl⟩ := List.append_of_mem hl
    rw [after_append, after_cons] at hphase
    refine stopped_after ?_ later hphase
    cases hover : (p.after earlier).isOver with
    | true =>
      rw [act_of_over hover]
      exact (h.after earlier).stopped hover
    | false =>
      obtain ⟨e, he, hstop⟩ := hstops
      exact (goes_act hover he).stopped_of_stops ⟨e, rfl, hstop⟩
  · refine after_of_act (P := fun p => p.floor.worker.phase = .accepting) (q := fun l => ¬ l.Stops)
      hopen (fun p l hopen hl => ?_) hls
    refine floor_act (P := fun f => f.worker.phase = .accepting) hopen l fun _ _ hgoes => ?_
    exact hgoes.accepting hopen fun e he => Bool.eq_false_iff.2 fun hstops => hl ⟨e, he, hstops⟩

/-- **The grace period** runs from the first time that a process hears that it is to drain, whatever
it hears later, short of an order to shut down. -/
theorem ages_after_drain (h : p.Kept) (hopen : p.floor.worker.phase = .accepting)
    (hl : l.event? = some .drain) {later : List Label}
    (hlater : ∀ l ∈ later, l.event? ≠ some .shutdown) :
    (WorkerPhase.draining (p.floor.now + p.floor.worker.grace)).Ages
      ((p.act l).after later).floor.now ((p.act l).after later).floor.worker.phase := by
  let limit := p.floor.now + p.floor.worker.grace
  refine after_of_act
    (P := fun p => (WorkerPhase.draining limit).Ages p.floor.now p.floor.worker.phase)
    ((goes_act (h.goes hopen) hl).ages_of_drain hopen) (fun p l hages hl => ?_) hlater
  refine floor_act (P := fun f => (WorkerPhase.draining limit).Ages f.now f.worker.phase) hages l
    fun f _ hgoes => ?_
  have hstopped : p.floor.worker.phase ≠ .accepting := hages.ne_accepting fun h => nomatch h
  exact (hages.mono hgoes.now_le).trans (hgoes.ages hl fun _ => hstopped)

/-- **The order to shut down** ends the grace period for good. -/
theorem closing_after_shutdown (hgoes : p.isOver = false) (hl : l.event? = some .shutdown)
    (later : List Label) : ((p.act l).after later).floor.worker.phase = .closing := by
  refine after_of_act (P := fun p => p.floor.worker.phase = .closing) (q := fun _ => True)
    (goes_act hgoes hl).closing_of_shutdown (fun p l hclosing _ => ?_) fun _ _ => trivial
  exact floor_act (P := fun f => f.worker.phase = .closing) hclosing l
    fun _ _ hgoes => hgoes.closing hclosing

end Phase

/-! ### Runs -/

theorem step_eq_after (p : WorkerProcess) (e : Event) : p.step e = p.after e.labels := by
  cases hover : p.isOver with
  | true =>
    rw [after_of_over hover]
    exact if_pos hover
  | false =>
    obtain ⟨floor, said, isOver⟩ := p
    dsimp only at hover
    subst hover
    cases e with
    | input i => rfl
    | happening e => rfl

/-- **A run is one order of the labels.** -/
theorem run_eq_after (p : WorkerProcess) (events : List Event) :
    p.run events = p.after (events.flatMap Event.labels) := by
  induction events generalizing p with
  | nil => rfl
  | cons e es ih =>
    rw [List.flatMap_cons, after_append, ← step_eq_after]
    exact ih (p.step e)

theorem run_of_over {p : WorkerProcess} (hover : p.isOver = true) (events : List Event) :
    p.run events = p := by
  rw [run_eq_after, after_of_over hover]

end WorkerProcess

end Smpp
