import Mathlib
import Smpp.Tracker

/-!
# What is pending under a number

A request leaves a tracker in one of three ways, and in each it is taken out once. `Tracker.count`
is the number of requests under a number; under `Tracker.Distinct`, which every operation preserves,
it is one or zero (`count_eq`). Each operation comes with what it does to the count:

* `count_of_track`: a number that is made pending counts one more;
* `count_complete`: what is completed counts no more;
* `count_expire`: what expires and what stays are, between them, what there was.

Before the first deadline nothing is overdue, and from then on something is (`lt_nextDeadline_iff`).
-/

namespace Smpp.Tracker

/-- No number is pending twice. -/
def Distinct (t : Tracker) : Prop := (t.pending.map PendingRequest.sequence).Nodup

/-- The number of requests that are pending under a number. -/
def count (t : Tracker) (n : UInt32) : Nat := t.pending.countP (·.sequence == n)

variable {t : Tracker} {n m : UInt32}

/-! ### Looking up -/

theorem isPending_iff : t.isPending n = true ↔ ∃ r ∈ t.pending, r.sequence = n := by
  unfold isPending
  rw [List.any_eq_true]
  simp only [beq_iff_eq]

theorem isPending_eq_false_iff : t.isPending n = false ↔ ∀ r ∈ t.pending, r.sequence ≠ n := by
  unfold isPending
  rw [List.any_eq_false]
  simp only [beq_iff_eq, ne_eq]

theorem isPending_of_subset {t' : Tracker} (h : t'.pending ⊆ t.pending)
    (hn : t'.isPending n = true) : t.isPending n = true := by
  obtain ⟨r, hr, hrn⟩ := isPending_iff.1 hn
  exact isPending_iff.2 ⟨r, h hr, hrn⟩

theorem get?_eq_none_iff : t.get? n = none ↔ t.isPending n = false := by
  unfold get?
  rw [List.find?_eq_none, isPending_eq_false_iff]
  simp only [beq_iff_eq, ne_eq]

/-- What is found under a number is pending, and under that number. -/
theorem of_get?_eq_some {r : PendingRequest} (h : t.get? n = some r) :
    r ∈ t.pending ∧ r.sequence = n := by
  have hn : (r.sequence == n) = true :=
    List.find?_some (p := fun q : PendingRequest => q.sequence == n) h
  exact ⟨List.mem_of_find?_eq_some h, beq_iff_eq.1 hn⟩

theorem isPending_of_get? {r : PendingRequest} (h : t.get? n = some r) : t.isPending n = true := by
  obtain ⟨hr, hn⟩ := of_get?_eq_some h
  exact isPending_iff.2 ⟨r, hr, hn⟩

/-- **A number counts one while it is pending, and otherwise nothing.** -/
theorem Distinct.count_eq (h : t.Distinct) : t.count n = if t.isPending n then 1 else 0 := by
  have hmap : t.count n = (t.pending.map PendingRequest.sequence).count n := by
    rw [count, List.count, List.countP_map]
    rfl
  have hmem : n ∈ t.pending.map PendingRequest.sequence ↔ t.isPending n = true := by
    rw [List.mem_map, isPending_iff]
  rw [hmap, List.Nodup.count h]
  simp only [hmem]

/-! ### Making a request pending -/

theorem track_eq_some_iff {command : CommandId} {now : Instant} {t' : Tracker}
    {r : PendingRequest} :
    t.track n command now = some (t', r) ↔
      t.isPending n = false ∧ r = ⟨n, command, now, now + t.timeout⟩ ∧
        t' = { t with pending := t.pending ++ [r] } := by
  unfold track
  by_cases h : t.isPending n
  · simp [h]
  · simp only [h, Bool.false_eq_true, if_false, Option.some.injEq, Prod.mk.injEq, true_and]
    refine ⟨?_, ?_⟩
    · rintro ⟨rfl, rfl⟩
      exact ⟨rfl, rfl⟩
    · rintro ⟨rfl, rfl⟩
      exact ⟨rfl, rfl⟩

section Track

variable {command : CommandId} {now : Instant} {t' : Tracker} {r : PendingRequest}
  (h : t.track n command now = some (t', r))

include h

theorem Distinct.track (ht : t.Distinct) : t'.Distinct := by
  obtain ⟨hfree, rfl, rfl⟩ := track_eq_some_iff.1 h
  unfold Distinct
  rw [List.map_append, List.nodup_append]
  refine ⟨ht, by simp, ?_⟩
  intro a ha b hb
  rw [List.map_singleton, List.mem_singleton] at hb
  obtain ⟨q, hq, rfl⟩ := List.mem_map.1 ha
  rw [hb]
  exact isPending_eq_false_iff.1 hfree q hq

theorem count_of_track : t'.count m = t.count m + if n = m then 1 else 0 := by
  obtain ⟨-, rfl, rfl⟩ := track_eq_some_iff.1 h
  unfold count
  rw [List.countP_append, List.countP_singleton]
  simp only [beq_iff_eq]

theorem isPending_of_track : t'.isPending m = true ↔ t.isPending m = true ∨ n = m := by
  obtain ⟨-, rfl, rfl⟩ := track_eq_some_iff.1 h
  simp only [isPending, List.any_append, List.any_cons, List.any_nil, Bool.or_false,
    Bool.or_eq_true, beq_iff_eq]

end Track

/-! ### Taking requests out -/

theorem Distinct.of_sublist {t' : Tracker} (ht : t.Distinct)
    (h : t'.pending.Sublist t.pending) : t'.Distinct :=
  List.Nodup.sublist (h.map _) ht

theorem Distinct.complete (ht : t.Distinct) : (t.complete n).1.Distinct :=
  ht.of_sublist List.filter_sublist

theorem Distinct.expire {now : Instant} (ht : t.Distinct) : (t.expire now).1.Distinct :=
  ht.of_sublist List.filter_sublist

theorem Distinct.clear : t.clear.Distinct := List.nodup_nil

/-- What is completed is no longer pending, and nothing else changes. -/
theorem count_complete : (t.complete n).1.count m = if n = m then 0 else t.count m := by
  unfold complete count
  dsimp only
  rw [List.countP_filter]
  split
  · next h =>
    subst h
    rw [List.countP_eq_zero]
    intro r _
    simp
  · next h =>
    refine List.countP_congr fun r _ => ?_
    simp only [Bool.and_eq_true, beq_iff_eq, bne_iff_ne, and_iff_left_iff_imp]
    rintro rfl
    exact fun heq => h heq.symm

/-- What is completed is pending no more. -/
theorem isPending_complete : (t.complete n).1.isPending n = false := by
  rw [isPending_eq_false_iff]
  intro r hr
  exact bne_iff_ne.1 (List.mem_filter.1 hr).2

/-- **What expires and what stays are what there was.** -/
theorem count_expire (t : Tracker) (n : UInt32) (now : Instant) :
    t.count n = (t.expire now).1.count n + (t.expire now).2.countP (·.sequence == n) := by
  unfold expire count
  dsimp only
  rw [(List.mergeSort_perm _ _).countP_eq,
    List.countP_eq_countP_filter_add t.pending (·.sequence == n) (now < ·.deadline)]
  have hcompl : (fun r : PendingRequest => !decide (now < r.deadline)) =
      fun r => decide (r.deadline ≤ now) := by
    funext r
    rw [← decide_not]
    exact decide_eq_decide.2 Nat.not_lt
  rw [hcompl]

/-- What expires is pending no more. -/
theorem Distinct.isPending_of_expire {now : Instant} (ht : t.Distinct) {r : PendingRequest}
    (hr : r ∈ (t.expire now).2) : (t.expire now).1.isPending r.sequence = false := by
  have hsplit := count_expire t r.sequence now
  have hone : 0 < (t.expire now).2.countP (·.sequence == r.sequence) :=
    List.countP_pos_iff.2 ⟨r, hr, beq_self_eq_true r.sequence⟩
  rw [ht.count_eq, ht.expire.count_eq] at hsplit
  -- Both counts of the number are at most one, and the request that expires takes up one.
  cases hstays : (t.expire now).1.isPending r.sequence with
  | false => rfl
  | true =>
    rw [hstays, if_pos rfl] at hsplit
    split at hsplit
    · omega
    · omega

/-! ### The first deadline -/

section FirstDeadline

variable {now : Instant}

/-- Nothing is overdue before the first deadline, and something is from then on. -/
theorem lt_nextDeadline_iff :
    (∀ d, t.nextDeadline = some d → now < d) ↔ ∀ request ∈ t.pending, now < request.deadline := by
  constructor
  · intro hfirst request hrequest
    have hmem : request.deadline ∈ t.pending.map PendingRequest.deadline :=
      List.mem_map_of_mem hrequest
    cases hnext : t.nextDeadline with
    | none =>
      rw [List.min?_eq_none_iff.1 hnext] at hmem
      cases hmem
    | some d => exact Nat.lt_of_lt_of_le (hfirst d hnext) ((List.min?_eq_some_iff.1 hnext).2 _ hmem)
  · intro hall d hd
    obtain ⟨request, hrequest, rfl⟩ := List.mem_map.1 (List.min?_mem hd)
    exact hall request hrequest

/-- Nothing is given up exactly when nothing is overdue. -/
theorem expire_eq_nil_iff :
    (t.expire now).2 = [] ↔ ∀ request ∈ t.pending, now < request.deadline := by
  change (t.pending.filter (·.deadline ≤ now)).mergeSort expiresBefore = [] ↔ _
  rw [← List.length_eq_zero_iff, List.length_mergeSort, List.length_eq_zero_iff,
    List.filter_eq_nil_iff]
  simp only [decide_eq_true_eq, Nat.not_le]

/-- Where nothing is overdue, nothing is taken out. -/
theorem expire_of_lt (hall : ∀ request ∈ t.pending, now < request.deadline) :
    t.expire now = (t, []) := by
  refine Prod.ext ?_ (expire_eq_nil_iff.2 hall)
  have hkept : t.pending.filter (now < ·.deadline) = t.pending :=
    List.filter_eq_self.2 fun request hrequest => decide_eq_true (hall request hrequest)
  change ({ t with pending := _ } : Tracker) = t
  rw [hkept]

/-- What is left when the overdue has been given up is not overdue. -/
theorem lt_nextDeadline_expire {d : Instant} (h : (t.expire now).1.nextDeadline = some d) :
    now < d := by
  refine lt_nextDeadline_iff.2 (fun request hrequest => ?_) d h
  exact of_decide_eq_true (List.mem_filter.1 hrequest).2

end FirstDeadline

end Smpp.Tracker
