import Smpp.Coordinator
import Smpp.Timeline.Agenda
import Smpp.Timeline.StandIn

/-!
# A gateway in time

A fleet is a coordinator with its supervisors, a stand-in for every worker process, and a clock.
What passes between them takes no time. The clock moves only when an event says so, and stops at
every instant at which a supervisor or the coordinator has waited for it.
-/

namespace Smpp

/-- A supervisor and the process in its slot. -/
structure Slot where
  supervisor : Supervisor
  standIn : StandIn

namespace Slot

/-- Carries out orders. -/
def obeyAll (p : StandIn) : List Supervisor.Order → StandIn × List Supervisor.Event
  | [] => (p, [])
  | order :: orders =>
    let (p, events) := p.obey order
    let (p, more) := obeyAll p orders
    (p, events ++ more)

/-- The supervisor hears of an event that the process has caused. The process is not told anything
in return, except that it may have to end. -/
def hear (now : Instant) (l : Lifecycle) (s : Slot) (e : Supervisor.Event) : Slot :=
  let (supervisor, orders) := s.supervisor.step now l e
  { supervisor, standIn := (obeyAll s.standIn orders).1 }

/-- Something happens to the supervisor; what the process does because of it happens at once. -/
def handle (now : Instant) (l : Lifecycle) (s : Slot) (e : Supervisor.Event) : Slot :=
  let (supervisor, orders) := s.supervisor.step now l e
  let (standIn, events) := obeyAll s.standIn orders
  events.foldl (hear now l) { supervisor, standIn }

/-- A slot that is filled for the first time. -/
def start (config : Config) (now : Instant) (index : Nat) (launches : List Launch) : Slot :=
  let (supervisor, orders) := Supervisor.start config index now
  let (standIn, events) := obeyAll { launches } orders
  events.foldl (hear now {}) { supervisor, standIn }

/-- The supervisor looks how far the gateway has come with stopping. -/
def look (now : Instant) (l : Lifecycle) (s : Slot) : Slot :=
  [.seeKill, .seeShutdown, .seeDrain].foldl (handle now l) s

end Slot

/-- A coordinator with the slots of its workers. -/
structure Fleet where
  now : Instant := 0
  coordinator : Coordinator
  slots : List Slot

namespace Fleet

/-- The supervisors look how far the gateway has come with stopping. -/
def look (f : Fleet) : Fleet :=
  { f with slots := f.slots.map (Slot.look f.now f.coordinator.lifecycle) }

/-- Does all that there is to do at the present instant. -/
def settle (f : Fleet) : Fleet :=
  match _h : f.coordinator.next f.now (f.look.slots.map Slot.supervisor) with
  | some coordinator => { f.look with coordinator }.settle
  | none => f.look
  termination_by f.coordinator.stagesLeft
  decreasing_by exact Coordinator.stagesLeft_lt_of_next _h

/-- What is done at an instant takes no time. -/
@[simp] theorem now_settle (f : Fleet) : f.settle.now = f.now := by
  fun_induction settle f with
  | case1 f coordinator h ih => rw [ih]; rfl
  | case2 f h => rfl

/-- A fleet whose clock begins with the start of its workers, each with the launches of its slot. -/
def start (config : Config) (launches : Nat → List Launch) : Except GatewayError Fleet := do
  let coordinator ← Coordinator.start config
  let slots := (List.range config.workerCount).map fun index =>
    Slot.start config 0 index (launches index)
  return ({ coordinator, slots } : Fleet).settle

/-- The next instant at which the clock matters. -/
def wakeup? (f : Fleet) : Option Instant :=
  Instant.earliest
    ((f.coordinator.wakeup?.toList ++ f.slots.flatMap (·.supervisor.wakeup?.toList)).filter
      (f.now < ·))

/-- The clock shows a new instant. -/
def tick (f : Fleet) (now : Instant) : Fleet :=
  let slots := f.slots.map fun s => s.handle now f.coordinator.lifecycle .clock
  { f with now, slots }.settle

/-- Moves the clock forward to an instant, and plays what happens until then. -/
def advanceTo (f : Fleet) (target : Instant) : Fleet :=
  match _h : f.wakeup? with
  | some t => if _ht : t ≤ target then (f.tick t).advanceTo target else { f with now := target }
  | none => { f with now := target }
  termination_by target - f.now
  decreasing_by
    have : f.now < t := Instant.lt_of_earliest_filter _h
    rw [tick, now_settle]
    exact Nat.sub_lt_sub_left (Nat.lt_of_lt_of_le this _ht) this

/-! ### What happens from outside -/

/-- What happens to a gateway. -/
inductive Event where
  /-- Time passes. -/
  | advance (span : Span)
  /-- The process of a worker says lines. -/
  | say (worker : Nat) (lines : List String)
  /-- The process of a worker exits. -/
  | crash (worker : Nat)
  /-- The gateway is asked to stop. -/
  | stop

/-- Changes the slot of a worker. -/
def modify (f : Fleet) (worker : Nat) (g : Slot → Slot) : Fleet :=
  { f with slots := f.slots.modify worker g }.settle

/-- What becomes of a fleet by an event. -/
def step (f : Fleet) : Event → Fleet
  | .advance span => f.advanceTo (f.now + span)
  | .say worker lines =>
    f.modify worker fun s =>
      (s.standIn.say lines).foldl (Slot.hear f.now f.coordinator.lifecycle) s
  | .crash worker =>
    f.modify worker fun s =>
      let (standIn, events) := s.standIn.exit
      events.foldl (Slot.hear f.now f.coordinator.lifecycle) { s with standIn }
  | .stop => { f with coordinator := { f.coordinator with stopRequested := true } }.settle

/-- What becomes of a fleet by one event after another. -/
def run (f : Fleet) (events : List Event) : Fleet := events.foldl step f

/-- What is known of the workers. -/
def health (f : Fleet) : HealthSnapshot := ⟨f.slots.map (·.supervisor.health)⟩

end Fleet

end Smpp
