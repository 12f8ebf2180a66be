import Smpp.Proofs.Session.Pending

/-!
# What a tracker keeps is a table

A tracker keeps its requests in a list. Told from outside, it is a table of what is stored under
each number: `Table.act` says what an operation does to the table, `Keeps` how the answers of a
tracker are read off it, and `Tracker.keeps_after` that a tracker goes with its table through any
sequence of operations.

Two things cannot be read off the table. One is the order in which expired requests come that were
issued at the same instant. `Tracker.sweep` expires in two rounds and looks at the requests in any
order; it takes out the same requests, and they come in an order with the same instants
(`sweep_eq`). The other is what has been stored before. A request that entered the tracker either
left it once or is still there (`perm_entered`), and what leaves under a number of which something
has left already entered in between (`exists_entering_of_leaving`).
-/

namespace Smpp

/-- What is stored under each number. -/
abbrev Table := UInt32 → Option PendingRequest

namespace Tracker

/-! ### Operations -/

/-- What is asked of a tracker. -/
inductive Operation where
  | track (n : UInt32) (command : CommandId) (now : Instant)
  | complete (n : UInt32)
  | expire (now : Instant)
  | clear

/-- The tracker after an operation. A request that is refused leaves it as it was. -/
def act (t : Tracker) : Operation → Tracker
  | .track n command now =>
    match t.track n command now with
    | some (t', _) => t'
    | none => t
  | .complete n => (t.complete n).1
  | .expire now => (t.expire now).1
  | .clear => t.clear

/-- The requests that enter a tracker with an operation. -/
def entering (t : Tracker) : Operation → List PendingRequest
  | .track n command now => ((t.track n command now).map Prod.snd).toList
  | .complete _ | .expire _ | .clear => []

/-- The requests that leave a tracker with an operation. -/
def leaving (t : Tracker) : Operation → List PendingRequest
  | .track _ _ _ => []
  | .complete n => (t.complete n).2.toList
  | .expire now => (t.expire now).2
  | .clear => t.pending

/-- The requests that enter a tracker with some operations. -/
def entered (t : Tracker) : List Operation → List PendingRequest
  | [] => []
  | op :: ops => t.entering op ++ (t.act op).entered ops

/-- The requests that leave a tracker with some operations. -/
def left (t : Tracker) : List Operation → List PendingRequest
  | [] => []
  | op :: ops => t.leaving op ++ (t.act op).left ops

/-- The tracker after some operations, from the empty one. -/
def after (timeout : Span) (ops : List Operation) : Tracker := ops.foldl act { timeout }

end Tracker

/-- What an operation does to a table. -/
def Table.act (timeout : Span) (table : Table) : Tracker.Operation → Table
  | .track n command now =>
    if table n = none then Function.update table n (some ⟨n, command, now, now + timeout⟩)
    else table
  | .complete n => Function.update table n none
  | .expire now => fun n => (table n).filter (now < ·.deadline)
  | .clear => fun _ => none

/-- The table after some operations, from the empty one. -/
def Table.after (timeout : Span) (ops : List Tracker.Operation) : Table :=
  ops.foldl (Table.act timeout) fun _ => none

namespace Tracker

variable {t : Tracker} {n : UInt32} {r : PendingRequest} {now : Instant}

/-! ### The list and the table -/

/-- What a tracker is made up of when it is used as one: no number is pending twice, and a deadline
follows from the instant of issue. -/
structure Sound (t : Tracker) : Prop where
  distinct : t.Distinct
  deadline : ∀ r ∈ t.pending, r.deadline = r.issuedAt + t.timeout

/-- **Where no number is pending twice, exactly what is pending is found.** -/
theorem Distinct.get?_eq_some_iff (h : t.Distinct) :
    t.get? n = some r ↔ r ∈ t.pending ∧ r.sequence = n := by
  refine ⟨of_get?_eq_some, ?_⟩
  rintro ⟨hr, rfl⟩
  cases hfound : t.get? r.sequence with
  | none =>
    have hfree := isPending_eq_false_iff.1 (get?_eq_none_iff.1 hfound)
    exact absurd rfl (hfree r hr)
  | some q =>
    obtain ⟨hq, hsame⟩ := of_get?_eq_some hfound
    rw [List.inj_on_of_nodup_map h hq hr hsame]

/-- What is pending is found under its number. -/
theorem Distinct.mem_pending_iff (h : t.Distinct) : r ∈ t.pending ↔ t.get? r.sequence = some r := by
  rw [h.get?_eq_some_iff, and_iff_left rfl]

theorem Sound.act (h : t.Sound) (op : Operation) : (t.act op).Sound := by
  cases op with
  | track n command now =>
    unfold Tracker.act
    dsimp only
    split
    · next t' r htrack =>
      obtain ⟨-, rfl, rfl⟩ := track_eq_some_iff.1 htrack
      refine ⟨h.distinct.track htrack, ?_⟩
      intro q hq
      rcases List.mem_append.1 hq with hq | hq
      · exact h.deadline q hq
      · rw [List.mem_singleton.1 hq]
    · exact h
  | complete n => exact ⟨h.distinct.complete, fun r hr => h.deadline r (List.mem_of_mem_filter hr)⟩
  | expire now => exact ⟨h.distinct.expire, fun r hr => h.deadline r (List.mem_of_mem_filter hr)⟩
  | clear => exact ⟨Distinct.clear, fun r hr => absurd hr List.not_mem_nil⟩

theorem timeout_act (t : Tracker) (op : Operation) : (t.act op).timeout = t.timeout := by
  cases op with
  | track n command now =>
    unfold act
    dsimp only
    split
    · next t' r htrack =>
      obtain ⟨-, -, rfl⟩ := track_eq_some_iff.1 htrack
      rfl
    · rfl
  | _ => rfl

theorem track_eq_none_iff {command : CommandId} :
    t.track n command now = none ↔ t.get? n ≠ none := by
  rw [ne_eq, get?_eq_none_iff, Bool.not_eq_false, track]
  split
  · next h => exact iff_of_true rfl h
  · next h => exact iff_of_false (fun h => (nomatch h)) h

theorem track_of_get?_eq_none {command : CommandId} (h : t.get? n = none) :
    t.track n command now =
      some ({ t with pending := t.pending ++ [⟨n, command, now, now + t.timeout⟩] },
        ⟨n, command, now, now + t.timeout⟩) :=
  track_eq_some_iff.2 ⟨get?_eq_none_iff.1 h, rfl, rfl⟩

/-- **One operation**: the table goes with the tracker. -/
theorem Distinct.get?_act (h : t.Distinct) (op : Operation) :
    (t.act op).get? = Table.act t.timeout t.get? op := by
  funext m
  cases op with
  | track n command now =>
    by_cases hfree : t.get? n = none
    · simp only [Tracker.act, Table.act, track_of_get?_eq_none hfree, if_pos hfree]
      -- The new request is behind the others, so it is found only if none of them is.
      rw [get?, List.find?_append]
      by_cases hm : m = n
      · have hnone : t.pending.find? (·.sequence == m) = none := hm ▸ hfree
        rw [hnone, hm, Function.update_self]
        simp
      · rw [Function.update_of_ne hm, List.find?_cons_of_neg (by simpa using Ne.symm hm)]
        exact Option.or_none
    · simp only [Tracker.act, Table.act, track_eq_none_iff.2 hfree, if_neg hfree]
  | complete n =>
    ext r
    have hmem : r ∈ (t.complete n).1.pending ↔ r ∈ t.pending ∧ r.sequence ≠ n := by
      rw [Tracker.complete, List.mem_filter, bne_iff_ne]
    rw [Tracker.act, h.complete.get?_eq_some_iff, hmem, Table.act]
    by_cases hm : m = n
    · simp only [hm, Function.update_self, reduceCtorEq, iff_false]
      rintro ⟨⟨-, hne⟩, heq⟩
      exact hne heq
    · rw [Function.update_of_ne hm, h.get?_eq_some_iff, and_assoc, and_congr_right_iff]
      intro _
      exact ⟨And.right, fun heq => ⟨heq ▸ hm, heq⟩⟩
  | expire now =>
    ext r
    have hmem : r ∈ (t.expire now).1.pending ↔ r ∈ t.pending ∧ now < r.deadline := by
      rw [Tracker.expire, List.mem_filter, decide_eq_true_eq]
    rw [Tracker.act, h.expire.get?_eq_some_iff, hmem, Table.act, Option.filter_eq_some_iff,
      h.get?_eq_some_iff, decide_eq_true_eq]
    exact and_right_comm
  | clear => rfl

/-! ### Reading the answers off the table -/

theorem mem_expire_iff : r ∈ (t.expire now).2 ↔ r ∈ t.pending ∧ r.deadline ≤ now := by
  unfold expire
  rw [List.mem_mergeSort, List.mem_filter, decide_eq_true_eq]

theorem expiresBefore_iff {a b : PendingRequest} :
    expiresBefore a b = true ↔
      a.issuedAt < b.issuedAt ∨ (a.issuedAt = b.issuedAt ∧ a.sequence ≤ b.sequence) := by
  simp only [expiresBefore, Bool.or_eq_true, Bool.and_eq_true, decide_eq_true_eq, beq_iff_eq]

theorem expiresBefore_trans (a b c : PendingRequest) (hab : expiresBefore a b = true)
    (hbc : expiresBefore b c = true) : expiresBefore a c = true := by
  rw [expiresBefore_iff] at hab hbc ⊢
  rcases hab with hab | ⟨hab, hab'⟩
  · exact .inl (hbc.elim (Nat.lt_trans hab) fun hbc => hbc.1 ▸ hab)
  · rw [hab]
    exact hbc.imp_right fun hbc => ⟨hbc.1, UInt32.le_trans hab' hbc.2⟩

theorem expiresBefore_total (a b : PendingRequest) :
    (expiresBefore a b || expiresBefore b a) = true := by
  rw [Bool.or_eq_true, expiresBefore_iff, expiresBefore_iff]
  rcases Nat.lt_trichotomy a.issuedAt b.issuedAt with hlt | heq | hlt
  · exact .inl (.inl hlt)
  · exact (UInt32.le_total a.sequence b.sequence).imp (fun h => .inr ⟨heq, h⟩)
      fun h => .inr ⟨heq.symm, h⟩
  · exact .inr (.inl hlt)

theorem pairwise_expire (t : Tracker) (now : Instant) :
    (t.expire now).2.Pairwise fun a b => a.issuedAt ≤ b.issuedAt := by
  have hsorted : (t.expire now).2.Pairwise fun a b => expiresBefore a b = true :=
    List.pairwise_mergeSort expiresBefore_trans expiresBefore_total _
  refine hsorted.imp ?_
  intro a b hab
  exact (expiresBefore_iff.1 hab).elim Nat.le_of_lt fun hab => Nat.le_of_eq hab.1

/-- What expires comes once. -/
theorem Distinct.nodup_expire (h : t.Distinct) (now : Instant) :
    ((t.expire now).2.map PendingRequest.sequence).Nodup := by
  have hperm : ((t.expire now).2.map PendingRequest.sequence).Perm
      ((t.pending.filter (·.deadline ≤ now)).map PendingRequest.sequence) :=
    (List.mergeSort_perm _ _).map _
  exact hperm.nodup_iff.2 (h.sublist (List.filter_sublist.map _))

theorem nextDeadline_eq_none_iff : t.nextDeadline = none ↔ t.pending = [] := by
  rw [nextDeadline, List.min?_eq_none_iff, List.map_eq_nil_iff]

theorem nextDeadline_eq_some_iff {d : Instant} :
    t.nextDeadline = some d ↔
      (∃ r ∈ t.pending, r.deadline = d) ∧ ∀ r ∈ t.pending, d ≤ r.deadline := by
  rw [nextDeadline, List.min?_eq_some_iff]
  simp only [List.mem_map, forall_exists_index, and_imp, forall_apply_eq_imp_iff₂]

/-- What the answers of a tracker say of the table that it keeps. -/
structure Keeps (t : Tracker) (table : Table) : Prop where
  /-- What is stored under a number is found. -/
  get? : t.get? = table
  /-- A request is stored under its own number, with the deadline that follows from its issue. -/
  entry : ∀ n r, table n = some r → r.sequence = n ∧ r.deadline = r.issuedAt + t.timeout
  /-- A request is refused exactly if something is stored under its number. -/
  refused : ∀ n command now, t.track n command now = none ↔ table n ≠ none
  /-- Otherwise it is stored as it was issued. -/
  tracked : ∀ n command now, table n = none →
    (t.track n command now).map Prod.snd = some ⟨n, command, now, now + t.timeout⟩
  /-- What is completed is what is stored. -/
  completed : ∀ n, (t.complete n).2 = table n
  /-- Exactly what is overdue expires, each request once, -/
  expired : ∀ now r, r ∈ (t.expire now).2 ↔ table r.sequence = some r ∧ r.deadline ≤ now
  nodup : ∀ now, (t.expire now).2.Nodup
  /-- in the order of issue, and so in the order of the deadlines. -/
  order : ∀ now, (t.expire now).2.Pairwise fun a b =>
    a.issuedAt ≤ b.issuedAt ∧ a.deadline ≤ b.deadline
  /-- There is a next deadline exactly if something is stored, -/
  noDeadline : t.nextDeadline = none ↔ ∀ n, table n = none
  /-- it is the least one, -/
  deadline : ∀ d, t.nextDeadline = some d ↔
    (∃ n r, table n = some r ∧ r.deadline = d) ∧ ∀ n r, table n = some r → d ≤ r.deadline
  /-- and it is to come once what is overdue has expired. -/
  later : ∀ now d, (t.expire now).1.nextDeadline = some d → now < d

theorem Sound.keeps (h : t.Sound) : t.Keeps t.get? where
  -- That the numbers are distinct makes an entry of the table the same as one of the list.
  get? := rfl
  entry n r hr := by
    obtain ⟨hmem, hn⟩ := of_get?_eq_some hr
    exact ⟨hn, h.deadline r hmem⟩
  refused n command now := track_eq_none_iff
  tracked n command now hfree := by rw [track_of_get?_eq_none hfree, Option.map_some]
  completed n := rfl
  expired now r := by rw [mem_expire_iff, h.distinct.mem_pending_iff]
  nodup now := (h.distinct.nodup_expire now).of_map _
  order now := by
    -- The deadlines are the arrivals, all of them later by the same span.
    refine (t.pairwise_expire now).imp_of_mem ?_
    intro a b ha hb hab
    refine ⟨hab, ?_⟩
    rw [h.deadline a (mem_expire_iff.1 ha).1, h.deadline b (mem_expire_iff.1 hb).1]
    exact Nat.add_le_add_right hab _
  noDeadline := by
    simp only [nextDeadline_eq_none_iff, get?_eq_none_iff, isPending_eq_false_iff]
    refine ⟨fun hnil n r hr => ?_, fun hall => ?_⟩
    · rw [hnil] at hr
      exact absurd hr List.not_mem_nil
    · exact List.eq_nil_iff_forall_not_mem.2 fun r hr => hall r.sequence r hr rfl
  deadline d := by
    rw [nextDeadline_eq_some_iff]
    simp only [h.distinct.get?_eq_some_iff]
    refine and_congr ⟨?_, ?_⟩ ⟨?_, ?_⟩
    · rintro ⟨r, hr, hd⟩
      exact ⟨r.sequence, r, ⟨hr, rfl⟩, hd⟩
    · rintro ⟨n, r, ⟨hr, -⟩, hd⟩
      exact ⟨r, hr, hd⟩
    · exact fun hleast n r hr => hleast r hr.1
    · exact fun hleast r hr => hleast r.sequence r ⟨hr, rfl⟩
  later now d := lt_nextDeadline_expire

/-! ### Runs -/

theorem sound_empty (timeout : Span) : Sound { timeout } :=
  ⟨List.nodup_nil, fun _ hr => absurd hr List.not_mem_nil⟩

theorem after_append (timeout : Span) (ops more : List Operation) :
    after timeout (ops ++ more) = more.foldl act (after timeout ops) := List.foldl_append

theorem Sound.foldl_act (h : t.Sound) (ops : List Operation) : (ops.foldl Tracker.act t).Sound := by
  induction ops generalizing t with
  | nil => exact h
  | cons op ops ih => exact ih (h.act op)

theorem sound_after (timeout : Span) (ops : List Operation) : (after timeout ops).Sound :=
  (sound_empty timeout).foldl_act ops

theorem timeout_after (timeout : Span) (ops : List Operation) :
    (after timeout ops).timeout = timeout := by
  induction ops using List.reverseRecOn with
  | nil => rfl
  | append_singleton ops op ih =>
    rw [after_append]
    exact (timeout_act _ op).trans ih

/-- **A run**: the table goes with the tracker through any operations. -/
theorem get?_after (timeout : Span) (ops : List Operation) :
    (after timeout ops).get? = Table.after timeout ops := by
  induction ops using List.reverseRecOn with
  | nil => rfl
  | append_singleton ops op ih =>
    have hstep := (sound_after timeout ops).distinct.get?_act op
    rw [timeout_after, ih] at hstep
    rw [after_append, Table.after, List.foldl_append]
    exact hstep

/-! ### Expiry in any order -/

/-- Completes the requests under some numbers, one after another. -/
def completeAll (t : Tracker) : List UInt32 → Tracker × List PendingRequest
  | [] => (t, [])
  | n :: ns =>
    let (rest, taken) := (t.complete n).1.completeAll ns
    (rest, (t.complete n).2.toList ++ taken)

/-- Expiry in two rounds. The numbers of what is overdue are collected in the order in which the
requests are looked at; then they are completed one by one, and what comes of it is put in the order
of issue, and otherwise left in the order in which it was found. -/
def sweep (t : Tracker) (looked : List PendingRequest) (now : Instant) :
    Tracker × List PendingRequest :=
  let overdue := (looked.filter (·.deadline ≤ now)).map PendingRequest.sequence
  let (rest, taken) := t.completeAll overdue
  (rest, taken.mergeSort (·.issuedAt ≤ ·.issuedAt))

/-- Completing some of what is pending takes out just that. -/
theorem Distinct.completeAll_eq (h : t.Distinct) {rs : List PendingRequest}
    (hrs : (rs.map PendingRequest.sequence).Nodup) (hsub : rs ⊆ t.pending) :
    t.completeAll (rs.map PendingRequest.sequence) =
      ({ t with
        pending := t.pending.filter (·.sequence ∉ rs.map PendingRequest.sequence) }, rs) := by
  -- On the requests: the first is completed, and the others are completed from what it leaves.
  induction rs generalizing t with
  | nil => simp [completeAll]
  | cons r rs ih =>
    rw [List.map_cons, List.nodup_cons] at hrs
    have hr : r ∈ t.pending := hsub (List.mem_cons_self ..)
    have hfound : t.get? r.sequence = some r := h.mem_pending_iff.1 hr
    -- The others have other numbers, so they are still there.
    have hrest : rs ⊆ (t.complete r.sequence).1.pending := by
      intro q hq
      refine List.mem_filter.2 ⟨hsub (List.mem_cons_of_mem _ hq), bne_iff_ne.2 fun heq => ?_⟩
      exact hrs.1 (heq ▸ List.mem_map_of_mem hq)
    rw [List.map_cons, completeAll, ih h.complete hrs.2 hrest]
    simp only [Tracker.complete, hfound, Option.toList_some, List.singleton_append,
      List.filter_filter]
    congr 2
    refine List.filter_congr fun q _ => ?_
    rw [Bool.eq_iff_iff]
    simp [and_comm]

/-- Where the overdue are left out by their numbers, what is not overdue is left. -/
theorem Distinct.filter_notMem_overdue (h : t.Distinct) {overdue : List PendingRequest}
    (hoverdue : overdue.Perm (t.pending.filter (·.deadline ≤ now))) :
    t.pending.filter (·.sequence ∉ overdue.map PendingRequest.sequence) =
      t.pending.filter (now < ·.deadline) := by
  refine List.filter_congr fun r hr => ?_
  rw [decide_eq_decide, List.mem_map]
  refine ⟨fun hnot => ?_, ?_⟩
  · by_contra hdue
    refine hnot ⟨r, hoverdue.mem_iff.2 (List.mem_filter.2 ⟨hr, ?_⟩), rfl⟩
    exact decide_eq_true (Nat.not_lt.1 hdue)
  · rintro hlater ⟨q, hq, hsame⟩
    have hq := List.mem_filter.1 (hoverdue.subset hq)
    rw [List.inj_on_of_nodup_map h hq.1 hr hsame] at hq
    exact absurd (of_decide_eq_true hq.2) (Nat.not_le.2 hlater)

/-- In whatever order requests come, their instants come in one when they are put in the order of
issue. -/
theorem pairwise_mergeSort_issuedAt (rs : List PendingRequest) :
    ((rs.mergeSort (·.issuedAt ≤ ·.issuedAt)).map PendingRequest.issuedAt).Pairwise (· ≤ ·) := by
  rw [List.pairwise_map]
  refine (List.pairwise_mergeSort ?_ ?_ rs).imp of_decide_eq_true
  · intro a b c hab hbc
    exact decide_eq_true (Nat.le_trans (of_decide_eq_true hab) (of_decide_eq_true hbc))
  · intro a b
    simpa using Nat.le_total a.issuedAt b.issuedAt

/-- **The order in which the requests are looked at does not matter** to what expires, nor to the
instants at which what expires was issued. -/
theorem Distinct.sweep_eq (h : t.Distinct) {looked : List PendingRequest}
    (hlooked : looked.Perm t.pending) (now : Instant) :
    (t.sweep looked now).1 = (t.expire now).1 ∧
      (t.sweep looked now).2.Perm (t.expire now).2 ∧
      (t.sweep looked now).2.map PendingRequest.issuedAt =
        (t.expire now).2.map PendingRequest.issuedAt := by
  have hoverdue : (looked.filter (·.deadline ≤ now)).Perm
      (t.pending.filter (·.deadline ≤ now)) := hlooked.filter _
  have hnodup : ((looked.filter (·.deadline ≤ now)).map PendingRequest.sequence).Nodup :=
    (hoverdue.map _).nodup_iff.2 (h.sublist (List.filter_sublist.map _))
  have hsub : looked.filter (·.deadline ≤ now) ⊆ t.pending :=
    fun r hr => List.mem_of_mem_filter (hoverdue.subset hr)
  have hsweep : t.sweep looked now = ((t.expire now).1,
      (looked.filter (·.deadline ≤ now)).mergeSort (·.issuedAt ≤ ·.issuedAt)) := by
    simp only [sweep, h.completeAll_eq hnodup hsub, h.filter_notMem_overdue hoverdue]
    rfl
  have hperm : (t.sweep looked now).2.Perm (t.expire now).2 := by
    rw [hsweep]
    exact (List.mergeSort_perm _ _).trans (hoverdue.trans (List.mergeSort_perm _ _).symm)
  refine ⟨by rw [hsweep], hperm, ?_⟩
  -- Both come in the order of issue, and there is one such order of the same instants.
  have hsorted : ((t.sweep looked now).2.map PendingRequest.issuedAt).Pairwise (· ≤ ·) := by
    rw [hsweep]
    exact pairwise_mergeSort_issuedAt _
  have hsorted' : ((t.expire now).2.map PendingRequest.issuedAt).Pairwise (· ≤ ·) :=
    List.pairwise_map.2 (t.pairwise_expire now)
  exact (hperm.map _).eq_of_pairwise (fun a b _ _ => Nat.le_antisymm) hsorted hsorted'

/-! ### What enters and what leaves -/

/-- **One operation**: what enters and what was there is what leaves and what is there. -/
theorem Distinct.perm_entering (h : t.Distinct) (op : Operation) :
    (t.entering op ++ t.pending).Perm (t.leaving op ++ (t.act op).pending) := by
  cases op with
  | track n command now =>
    cases htrack : t.track n command now with
    | none => simp [entering, leaving, Tracker.act, htrack]
    | some result =>
      obtain ⟨t', r⟩ := result
      obtain ⟨-, -, rfl⟩ := track_eq_some_iff.1 htrack
      simp only [entering, leaving, Tracker.act, htrack, Option.map_some, Option.toList_some,
        List.nil_append]
      exact List.perm_append_comm
  | complete n =>
    -- What is under the number comes out, and the others stay.
    have htaken : (t.pending.filter (·.sequence == n)).Perm (t.get? n).toList := by
      have hnodup : (t.pending.filter (·.sequence == n)).Nodup := (List.Nodup.of_map _ h).filter _
      refine (List.perm_ext_iff_of_nodup hnodup (Option.toList_nodup _)).2 fun r => ?_
      rw [List.mem_filter, beq_iff_eq, Option.mem_toList, h.get?_eq_some_iff]
    exact (List.filter_append_perm (·.sequence == n) t.pending).symm.trans (htaken.append_right _)
  | expire now =>
    have hkept : t.pending.filter (fun r => !decide (r.deadline ≤ now)) =
        t.pending.filter (now < ·.deadline) := by
      refine List.filter_congr fun r _ => ?_
      rw [← decide_not]
      exact decide_eq_decide.2 Nat.not_le
    have hsplit := List.filter_append_perm (·.deadline ≤ now) t.pending
    rw [hkept] at hsplit
    exact hsplit.symm.trans ((List.mergeSort_perm _ _).symm.append_right _)
  | clear =>
    change t.pending.Perm (t.pending ++ [])
    rw [List.append_nil]

/-- **A run**: what entered left, or is there. -/
theorem Sound.perm_entered (h : t.Sound) (ops : List Operation) :
    (t.entered ops ++ t.pending).Perm (t.left ops ++ (ops.foldl Tracker.act t).pending) := by
  -- On the operations: what the first of them leaves is what the others start from.
  induction ops generalizing t with
  | nil => exact List.Perm.refl _
  | cons op ops ih =>
    calc t.entering op ++ (t.act op).entered ops ++ t.pending
        _ = t.entering op ++ ((t.act op).entered ops ++ t.pending) := List.append_assoc ..
        List.Perm _ ((t.act op).entered ops ++ (t.entering op ++ t.pending)) :=
          List.perm_append_comm_assoc ..
        List.Perm _ ((t.act op).entered ops ++ (t.leaving op ++ (t.act op).pending)) :=
          (h.distinct.perm_entering op).append_left _
        List.Perm _ (t.leaving op ++ ((t.act op).entered ops ++ (t.act op).pending)) :=
          List.perm_append_comm_assoc ..
        List.Perm _ (t.leaving op ++ ((t.act op).left ops ++ _)) := (ih (h.act op)).append_left _
        _ = t.leaving op ++ (t.act op).left ops ++ _ := (List.append_assoc ..).symm

theorem mem_pending_of_leaving {op : Operation} (hr : r ∈ t.leaving op) : r ∈ t.pending := by
  cases op with
  | track n command now => cases hr
  | complete n => exact (of_get?_eq_some (Option.mem_toList.1 hr)).1
  | expire now => exact (mem_expire_iff.1 hr).1
  | clear => exact hr

/-- What leaves is pending no more. -/
theorem Distinct.isPending_of_leaving (h : t.Distinct) {op : Operation} (hr : r ∈ t.leaving op) :
    (t.act op).isPending r.sequence = false := by
  cases op with
  | track n command now => cases hr
  | complete n =>
    obtain ⟨-, rfl⟩ := of_get?_eq_some (Option.mem_toList.1 hr)
    exact isPending_complete
  | expire now => exact h.isPending_of_expire hr
  | clear => rfl

/-- What is there after an operation was there before, or entered with it. -/
theorem mem_pending_act {op : Operation} (hr : r ∈ (t.act op).pending) :
    r ∈ t.pending ∨ r ∈ t.entering op := by
  cases op with
  | track n command now =>
    cases htrack : t.track n command now with
    | none =>
      simp only [act, htrack] at hr
      exact .inl hr
    | some result =>
      obtain ⟨t', q⟩ := result
      obtain ⟨-, -, rfl⟩ := track_eq_some_iff.1 htrack
      simp only [act, htrack] at hr
      refine (List.mem_append.1 hr).imp_right fun hr => ?_
      rw [entering, htrack]
      exact hr
  | complete n => exact .inl (List.mem_of_mem_filter hr)
  | expire now => exact .inl (List.mem_of_mem_filter hr)
  | clear => cases hr

/-- What is there after a run was there before, or entered in its course. -/
theorem exists_entering {ops : List Operation} (hr : r ∈ (ops.foldl act t).pending) :
    r ∈ t.pending ∨
      ∃ before op after, ops = before ++ op :: after ∧ r ∈ (before.foldl act t).entering op := by
  induction ops generalizing t with
  | nil => exact .inl hr
  | cons op ops ih =>
    rcases ih hr with hthere | ⟨before, op', after, rfl, hentering⟩
    · exact (mem_pending_act hthere).imp_right fun hentering => ⟨[], op, ops, rfl, hentering⟩
    · exact .inr ⟨op :: before, op', after, rfl, hentering⟩

/-- **What leaves under a number of which something has left already entered in between.** -/
theorem Distinct.exists_entering_of_leaving (h : t.Distinct) {op op' : Operation}
    {ops : List Operation} {r r' : PendingRequest} (hr : r ∈ t.leaving op)
    (hr' : r' ∈ (ops.foldl Tracker.act (t.act op)).leaving op')
    (hsame : r'.sequence = r.sequence) :
    ∃ before x after, ops = before ++ x :: after ∧
      r' ∈ (before.foldl Tracker.act (t.act op)).entering x := by
  refine (exists_entering (mem_pending_of_leaving hr')).resolve_left fun hstill => ?_
  -- Nothing is left under the number when the first of the two has gone.
  exact isPending_eq_false_iff.1 (h.isPending_of_leaving hr) r' hstill hsame

/-- **A tracker is a table of what waits.** Through any operations it goes with its table and
answers as the table says; requests that expire may be looked at in any order. What enters a tracker
leaves it once or is there, and between two requests that leave under one number the second
enters. -/
theorem keeps_after (timeout : Span) (ops : List Operation) :
    let t := after timeout ops
    t.timeout = timeout ∧ t.Keeps (Table.after timeout ops) ∧
      (∀ now looked, looked.Perm t.pending →
        (t.sweep looked now).1 = (t.expire now).1 ∧
          (t.sweep looked now).2.Perm (t.expire now).2 ∧
          (t.sweep looked now).2.map PendingRequest.issuedAt =
            (t.expire now).2.map PendingRequest.issuedAt) ∧
      (entered { timeout } ops).Perm (left { timeout } ops ++ t.pending) ∧
      (∀ op more op' r r', r ∈ t.leaving op →
        r' ∈ (more.foldl act (t.act op)).leaving op' → r'.sequence = r.sequence →
          ∃ before x after, more = before ++ x :: after ∧
            r' ∈ (before.foldl act (t.act op)).entering x) := by
  intro t
  have hsound : t.Sound := sound_after timeout ops
  refine ⟨timeout_after timeout ops, ?_, fun now looked hlooked => ?_, ?_, ?_⟩
  · rw [← get?_after]
    exact hsound.keeps
  · exact hsound.distinct.sweep_eq hlooked now
  · have hperm := (sound_empty timeout).perm_entered ops
    rwa [List.append_nil] at hperm
  · intro op more op' r r' hr hr' hsame
    exact hsound.distinct.exists_entering_of_leaving hr hr' hsame

end Tracker

end Smpp
