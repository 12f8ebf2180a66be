import Mathlib
import Smpp.Proofs.Supervisor.Supervision

/-!
# What a process is told

The supervisor of a process tells it things in order (`Orderly`), as long as it knows what it has
told it (`Watch.Agrees`): the next probe has the next nonce, it is not sent to a process that
drains, and the drain and the shutdown are said once.
-/

namespace Smpp

/-- A process is told probes with the nonces from one on, and one drain and one shutdown at most;
behind the drain there is no probe. -/
structure Orderly (told : List ControlMessage) : Prop where
  pings : told.filter ControlMessage.isPing =
    (List.range (told.countP ControlMessage.isPing)).map fun k => .ping (UInt64.ofNat (k + 1))
  drain : told.count .drain ≤ 1
  shutdown : told.count .shutdown ≤ 1
  quiet : told.Pairwise fun m n => m = .drain → n.isPing = false

/-- What a supervisor knows of the process agrees with what the process has been told. -/
structure Watch.Agrees (w : Watch) (told : List ControlMessage) : Prop where
  nonce : w.nonce = UInt64.ofNat (told.countP ControlMessage.isPing)
  drain : w.drainSent = true ↔ .drain ∈ told
  shutdown : w.shutdownSent = true ↔ .shutdown ∈ told

namespace Orderly

variable {told : List ControlMessage}

theorem nil : Orderly [] := by
  constructor
  · rfl
  · exact Nat.zero_le _
  · exact Nat.zero_le _
  · exact .nil

/-- What has not been said yet is not said twice. -/
theorem count_concat_le {m m' : ControlMessage} (h : told.count m' ≤ 1) (hm : m ∉ told) :
    (told ++ [m]).count m' ≤ 1 := by
  rw [List.count_append, List.count_singleton]
  split
  · next heq =>
    rw [← beq_iff_eq.1 heq, List.count_eq_zero.2 hm]
  · exact h

/-- The next probe of a process that does not drain. -/
theorem ping (h : Orderly told) (hdrain : .drain ∉ told) :
    Orderly (told ++ [.ping (UInt64.ofNat (told.countP ControlMessage.isPing + 1))]) where
  pings := by
    rw [List.filter_append, List.countP_append, h.pings, List.countP_singleton]
    exact (List.map_append.symm.trans (congrArg _ List.range_succ.symm) :)
  drain := by
    rw [List.count_append]
    exact h.drain
  shutdown := by
    rw [List.count_append]
    exact h.shutdown
  quiet := by
    refine List.pairwise_append.2 ⟨h.quiet, List.pairwise_singleton _ _, ?_⟩
    intro m hm n _ hmn
    exact absurd (hmn ▸ hm) hdrain

/-- The first drain, or the first shutdown. -/
theorem tell (h : Orderly told) {m : ControlMessage} (hping : m.isPing = false) (hm : m ∉ told) :
    Orderly (told ++ [m]) where
  pings := by
    have hfilter : [m].filter ControlMessage.isPing = [] := by
      rw [List.filter_singleton, hping]
      rfl
    have hcount : [m].countP ControlMessage.isPing = 0 := by
      rw [List.countP_singleton, hping]
      rfl
    rw [List.filter_append, List.countP_append, hfilter, hcount, List.append_nil]
    exact h.pings
  drain := count_concat_le h.drain hm
  shutdown := count_concat_le h.shutdown hm
  quiet := by
    refine List.pairwise_append.2 ⟨h.quiet, List.pairwise_singleton _ _, ?_⟩
    intro m' _ n hn _
    rw [List.mem_singleton.1 hn]
    exact hping

end Orderly

namespace Watch.Agrees

variable {w : Watch} {told : List ControlMessage}

theorem start (nextPing : Instant) : Watch.Agrees { nextPing } [] where
  nonce := rfl
  drain := by
    constructor
    · exact fun h => (Bool.false_ne_true h).elim
    · exact fun h => (List.not_mem_nil h).elim
  shutdown := by
    constructor
    · exact fun h => (Bool.false_ne_true h).elim
    · exact fun h => (List.not_mem_nil h).elim

/-- The nonce of a probe is the next one. -/
theorem nonce_succ (h : w.Agrees told) :
    w.nonce + 1 = UInt64.ofNat (told.countP ControlMessage.isPing + 1) := by
  rw [h.nonce, UInt64.ofNat_add]
  rfl

theorem drain_notMem (h : w.Agrees told) (hquiet : w.drainSent = false) : .drain ∉ told :=
  fun hmem => Bool.false_ne_true (hquiet.symm.trans (h.drain.2 hmem))

theorem shutdown_notMem (h : w.Agrees told) (hquiet : w.shutdownSent = false) :
    .shutdown ∉ told :=
  fun hmem => Bool.false_ne_true (hquiet.symm.trans (h.shutdown.2 hmem))

theorem ping (h : w.Agrees told) (nextPing : Instant) :
    Watch.Agrees { w with nextPing, nonce := w.nonce + 1, awaiting := some (w.nonce + 1) }
      (told ++ [.ping (w.nonce + 1)]) where
  nonce := by
    rw [List.countP_append]
    exact h.nonce_succ
  drain := by
    rw [List.mem_append, List.mem_singleton, or_iff_left ControlMessage.noConfusion]
    exact h.drain
  shutdown := by
    rw [List.mem_append, List.mem_singleton, or_iff_left ControlMessage.noConfusion]
    exact h.shutdown

theorem tellDrain (h : w.Agrees told) :
    Watch.Agrees { w with drainSent := true } (told ++ [.drain]) where
  nonce := by
    rw [List.countP_append]
    exact h.nonce
  drain := iff_of_true rfl (List.mem_append_right _ (List.mem_singleton_self _))
  shutdown := by
    rw [List.mem_append, List.mem_singleton, or_iff_left ControlMessage.noConfusion]
    exact h.shutdown

theorem tellShutdown (h : w.Agrees told) :
    Watch.Agrees { w with shutdownSent := true } (told ++ [.shutdown]) where
  nonce := by
    rw [List.countP_append]
    exact h.nonce
  drain := by
    rw [List.mem_append, List.mem_singleton, or_iff_left ControlMessage.noConfusion]
    exact h.drain
  shutdown := iff_of_true rfl (List.mem_append_right _ (List.mem_singleton_self _))

end Watch.Agrees

end Smpp
