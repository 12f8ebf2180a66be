import Smpp.Handler

/-!
# A handler comes to rest

A handler that is told nothing new runs out of things to do. Its load counts what it has left to use
up, and what a turn does is paid for out of the load: a turn that calls the backend has used up the
octets of a frame (`charge_lt_of_turn`), and the answer to a call brings back less than the call has
cost (`charge_answer_le`, `charge_authenticated_le`). So a handler together with the answers that it
waits for gets lighter with everything that it does.
-/

namespace Smpp

namespace Frame

/-- A whole frame has a header. -/
theorem headerSize_le_of_check {largest length : Nat} {bs : Octets}
    (h : check largest bs = .ok length) : headerSize ≤ length :=
  (check_eq_ok_iff.1 h).2.1

/-- A whole frame is there. -/
theorem length_le_of_check {largest length : Nat} {bs : Octets}
    (h : check largest bs = .ok length) : length ≤ bs.length :=
  (check_eq_ok_iff.1 h).2.2.2

end Frame

namespace Connection

/-- Whether a result of reading leaves the handler of a connection with more to do. -/
def goesOn : ReadResult → Bool
  | .frame _ | .error (.malformed ..) => true
  | .closed | .pending | .error (.framing ..) | .error (.encode _) | .error .reset
  | .error (.io _) => false

/-- What is taken off the buffer makes it shorter, unless it is the end. -/
theorem size_of_take {c d : Connection} {r : ReadResult} (h : c.take = some (d, r)) :
    d.size ≤ c.size ∧ (goesOn r = true → d.size < c.size) := by
  unfold take at h
  split at h
  · cases h
  · cases h
    exact ⟨Nat.le_refl _, fun hr => by simp [goesOn] at hr⟩
  · rename_i length hl
    have hmin := Frame.headerSize_le_of_check hl
    have hmax := Frame.length_le_of_check hl
    -- A frame has a header at least, so what is taken off is never nothing.
    have hlt : (c.buffer.drop length).length < c.buffer.length := by
      rw [List.length_drop]
      unfold headerSize at hmin
      omega
    have key : ∀ d : Connection,
        d = { c with buffer := c.buffer.drop length } → d.size < c.size := by
      rintro d rfl
      simp only [size]
      omega
    dsimp only at h
    split at h
    · cases h
      exact ⟨Nat.le_of_lt (key _ rfl), fun _ => key _ rfl⟩
    · split at h
      · cases h
        exact ⟨Nat.le_of_lt (key _ rfl), fun _ => key _ rfl⟩
      · cases h
        exact ⟨Nat.le_of_lt (key _ rfl), fun _ => key _ rfl⟩

/-- Reading a frame uses up its octets. -/
theorem size_read (c : Connection) :
    c.read.1.size ≤ c.size ∧ (goesOn c.read.2 = true → c.read.1.size < c.size) := by
  unfold read
  split
  · rename_i r hr
    exact size_of_take hr
  · have hsize : { c with buffer := c.buffer ++ c.arrived, arrived := [] }.size = c.size := by
      simp [size]
    dsimp only
    split
    · rename_i r hr
      have := size_of_take hr
      rwa [hsize] at this
    · refine ⟨Nat.le_of_eq hsize, fun hr => ?_⟩
      unfold rest at hr
      repeat' split at hr
      all_goals simp [goesOn] at hr

end Connection

namespace Handler

/-- What a handler has left to use up. -/
def load (h : Handler) : Nat :=
  h.isServing.toNat + 2 * h.engagement.calls.finished.length + 4 * h.connection.size

end Handler

/-- The weight of an effect: what its answer may bring back. -/
def Effect.weight : Effect → Nat
  | submit .. | authenticate _ => 3
  | write _ | farewell _ | close => 0

/-- The weight of several effects. -/
def Effect.weights : List Effect → Nat
  | [] => 0
  | e :: es => e.weight + weights es

/-- The weights of two rows of effects add up. -/
theorem Effect.weights_append (es fs : List Effect) :
    weights (es ++ fs) = weights es + weights fs := by
  induction es with
  | nil => exact (Nat.zero_add _).symm
  | cons e es ih =>
    show e.weight + weights (es ++ fs) = e.weight + weights es + weights fs
    rw [ih, Nat.add_assoc]

namespace Handler

/-- What a handler is left with after a step, and what its effects may bring back. -/
def charge (r : Handler × List Effect) : Nat := r.1.load + Effect.weights r.2

@[simp] theorem isServing_finish (h : Handler) (reason : CloseReason) :
    (h.finish reason).1.isServing = false := rfl

theorem charge_finish (h : Handler) (reason : CloseReason) :
    charge (h.finish reason) =
      2 * h.engagement.calls.finished.length + 4 * h.connection.size := by
  show false.toNat + 2 * h.engagement.calls.finished.length + 4 * h.connection.size + 0 = _
  rw [Bool.toNat_false, Nat.zero_add, Nat.add_zero]

theorem charge_finish_le (h : Handler) (reason : CloseReason) :
    charge (h.finish reason) ≤ h.load := by
  rw [charge_finish, load]
  omega

theorem charge_finish_lt {h : Handler} (hs : h.isServing) (reason : CloseReason) :
    charge (h.finish reason) < h.load := by
  rw [charge_finish, load, hs, Bool.toNat_true]
  omega

theorem charge_send_le (h : Handler) (f : Frame) : charge (h.send f) ≤ h.load := by
  unfold send
  split
  · exact charge_finish_le h _
  · exact Nat.le_refl _

theorem charge_andThen_le {r : Handler × List Effect} {f : Handler → Handler × List Effect}
    (hf : ∀ h, charge (f h) ≤ h.load) : charge (andThen r f) ≤ charge r := by
  unfold andThen
  split
  · have := hf r.1
    simp only [charge, Effect.weights_append] at this ⊢
    omega
  · exact Nat.le_refl _

/-- A handler that goes on only to end is lighter afterwards. -/
theorem charge_andThen_finish_lt {h : Handler} (hs : h.isServing) (f : Frame)
    (reason : Handler → CloseReason) :
    charge (andThen (h.send f) fun h => h.finish (reason h)) < h.load := by
  by_cases hreset : (h.connection.ending == .reset) = true
  · have hsend : h.send f = h.finish .transportError := if_pos hreset
    rw [hsend]
    exact charge_finish_lt hs _
  · have hsend : h.send f = (h, [.write (octetsFor f)]) := if_neg hreset
    rw [hsend, andThen, if_pos hs]
    exact charge_finish_lt hs _

theorem charge_unbindAndFinish_lt {h : Handler} (hs : h.isServing) (reason : CloseReason) :
    charge (h.unbindAndFinish reason) < h.load := by
  have key (session : Session) :
      charge ({ h with engagement := { h.engagement with session } }.finish reason) < h.load :=
    charge_finish_lt (h := { h with engagement := { h.engagement with session } }) hs reason
  unfold unbindAndFinish
  dsimp only
  split
  · exact key _
  · split
    · exact key _
    · exact key _

/-- The load of a handler with another engagement. -/
theorem load_engagement (h : Handler) (engagement : Engagement) :
    ({ h with engagement } : Handler).load =
      h.isServing.toNat + 2 * engagement.calls.finished.length + 4 * h.connection.size := rfl

theorem charge_carryOut_le (h : Handler) (r : Reaction) : charge (h.carryOut r) ≤ h.load + 3 := by
  cases r with
  | reply f => exact Nat.le_trans (charge_send_le h f) (Nat.le_add_right _ _)
  | replyAndClose f =>
    exact Nat.le_trans (charge_andThen_le fun h => charge_finish_le h _)
      (Nat.le_trans (charge_send_le h f) (Nat.le_add_right _ _))
  | submit call submission => exact Nat.le_refl _
  | ignore => exact Nat.le_add_right _ _
  | authenticate n b =>
    have : ({ h with stage := .authenticating n b } : Handler).isServing.toNat = 0 := rfl
    simp only [charge, carryOut, load, this, Effect.weights, Effect.weight]
    omega

/-- What a handler reads makes it lighter, or ends it. -/
theorem charge_onRead_lt {h : Handler} {c : Connection} {now : Instant} {r : ReadResult}
    (hs : h.isServing) (hp : r ≠ .pending) (hle : c.size ≤ h.connection.size)
    (hlt : Connection.goesOn r = true → c.size < h.connection.size) :
    charge ({ h with connection := c }.onRead now r) < h.load := by
  have hs' : ({ h with connection := c } : Handler).isServing := hs
  -- A read never makes the connection larger, and one that goes on makes it smaller, by an octet
  -- that weighs four, while what it brings about costs three at the most.
  have hload : ({ h with connection := c } : Handler).load ≤ h.load := by
    simp only [load, hs, hs']
    omega
  have hload' (hg : Connection.goesOn r = true) :
      ({ h with connection := c } : Handler).load + 3 < h.load := by
    have := hlt hg
    simp only [load, hs, hs']
    omega
  match r, hp with
  | .pending, hp => exact absurd rfl hp
  | .closed, _ => exact Nat.lt_of_lt_of_le (charge_finish_lt hs' _) hload
  | .frame f, _ =>
    -- What the session makes of a frame leaves the line of results as long as it was.
    have hlength := congrArg List.length (Engagement.finished_receive h.engagement now f)
    generalize hreceive : h.engagement.receive now f = received at hlength
    obtain ⟨engagement, reaction⟩ := received
    have heq : ({ h with connection := c, engagement } : Handler).load =
        ({ h with connection := c } : Handler).load := by
      rw [load_engagement { h with connection := c } engagement, hlength]
      rfl
    have hresult : ({ h with connection := c } : Handler).onRead now (.frame f) =
        ({ h with connection := c, engagement } : Handler).carryOut reaction := by
      simp only [onRead, hreceive]
    rw [hresult]
    exact Nat.lt_of_le_of_lt (charge_carryOut_le _ _) (heq ▸ hload' rfl)
  | .error (.malformed _ n cause), _ =>
    exact Nat.lt_of_le_of_lt (charge_send_le _ _)
      (Nat.lt_of_le_of_lt (Nat.le_add_right _ 3) (hload' rfl))
  | .error (.framing (some n) cause), _ =>
    exact Nat.lt_of_lt_of_le (charge_andThen_finish_lt hs' _ _) hload
  | .error (.framing none _), _ => exact Nat.lt_of_lt_of_le (charge_finish_lt hs' _) hload
  | .error (.encode _), _ => exact Nat.lt_of_lt_of_le (charge_finish_lt hs' _) hload
  | .error .reset, _ => exact Nat.lt_of_lt_of_le (charge_finish_lt hs' _) hload
  | .error (.io _), _ => exact Nat.lt_of_lt_of_le (charge_finish_lt hs' _) hload

/-- **A turn makes a handler lighter**, by more than its effects may bring back. -/
theorem charge_lt_of_turn {h : Handler} {now : Instant} {r : Handler × List Effect}
    (ht : h.turn now = some r) : charge r < h.load := by
  unfold turn at ht
  split at ht
  · cases ht
  · cases ht
  · rename_i hstage
    have hs : h.isServing := by rw [isServing, hstage]; rfl
    -- A turn that is taken uses up one of these: the serving itself, a result in the line, or
    -- octets.
    split at ht
    · cases ht
      exact charge_unbindAndFinish_lt hs .shutdown
    · split at ht
      · rename_i engagement completion answer hnext
        have hlt : ({ h with engagement } : Handler).load < h.load := by
          have := Engagement.finished_of_completeNext hnext
          rw [load_engagement, load]
          omega
        cases ht
        cases answer with
        | none => exact hlt
        | some f =>
          exact Nat.lt_of_le_of_lt (charge_send_le ({ h with engagement } : Handler) f) hlt
      · split at ht
        · cases ht
        · rename_i connection result hp hread
          have hr := Connection.size_read h.connection
          rw [hread] at hr
          cases ht
          exact charge_onRead_lt hs hp hr.1 hr.2

/-- The answer to a call brings back less than the call has cost. -/
theorem charge_answer_le (h : Handler) (call : Nat) (result : SubmitResult) :
    (h.answer call result).load ≤ h.load + 2 := by
  have : (h.engagement.calls.finish call result).finished.length ≤
      h.engagement.calls.finished.length + 1 := by
    unfold Calls.finish
    split
    · exact Nat.le_succ _
    · exact Nat.le_of_eq (List.length_append)
  show h.isServing.toNat + 2 * (h.engagement.calls.finish call result).finished.length +
    4 * h.connection.size ≤ _
  rw [load]
  omega

/-- The answer to an authentication brings back less than asking for it has cost. -/
theorem charge_authenticated_le (h : Handler) (now : Instant) (result : AuthResult) :
    charge (h.authenticated now result) ≤ h.load + 1 := by
  unfold authenticated
  split
  · rename_i n b hstage
    have hserving : h.isServing.toNat = 0 := by rw [isServing, hstage]; rfl
    have hlength : (h.engagement.conclude now n b result).1.calls.finished.length =
        h.engagement.calls.finished.length :=
      congrArg List.length (Engagement.finished_react _ _)
    obtain ⟨f, hf⟩ := Engagement.conclude_answers h.engagement now n b result
    generalize h.engagement.conclude now n b result = concluded at hlength hf
    obtain ⟨engagement, reaction⟩ := concluded
    have hload : ({ h with engagement, stage := .serving } : Handler).load = h.load + 1 := by
      show true.toNat + 2 * engagement.calls.finished.length + 4 * h.connection.size = _
      rw [load, hserving, show engagement.calls.finished.length = _ from hlength, Bool.toNat_true]
      omega
    rw [← hload]
    rcases hf with rfl | rfl
    · exact charge_send_le _ _
    · exact Nat.le_trans (charge_andThen_le fun h => charge_finish_le h _) (charge_send_le _ _)
  · exact Nat.le_add_right _ _
  · exact Nat.le_add_right _ _

end Handler

end Smpp
