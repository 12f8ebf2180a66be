import Smpp.Proofs.Wire.Forms
import Smpp.Proofs.Wire.Lengths

/-!
# Where the parameters of a region end

A region is read parameter by parameter. What is read, and where the reading ends, can be said of
the octets by place and without a reader: `Parameter.StandsAt` says that a whole parameter stands at
a place, and `Parameters.Spans` follows the parameters from one place to the place behind them, each
to the next. A place that is reached from the front is a boundary, and the first boundary at which
no whole parameter stands is a gap.

There is one gap in any octets, and `read_ends_at_first_gap` says that it decides everything: if it
is the end of the octets they are read, and otherwise what is left there is the fault, one to three
octets or a value that is too short. Two things carry the proof. Taking a parameter off the front is
going from one boundary to the next (`Parameter.read_drop_of_standsAt`), and from the front the way
leads to the gap and to no other (`Spans.to_gap`).

That the reading ends is said of `readWithin`, which goes as many rounds as it is told to: a round
that goes on has taken at least four octets, so a quarter of them, rounded up, is enough.
-/

namespace Smpp

namespace Octets

/-- The 16-bit word at a place; octets that are not there count as zero. -/
def shortAt (bs : Octets) (place : Nat) : UInt16 :=
  word16 (bs.getD place 0) (bs.getD (place + 1) 0)

theorem shortAt_drop (bs : Octets) (n place : Nat) :
    shortAt (bs.drop n) place = shortAt bs (n + place) := by
  unfold shortAt
  rw [getD_drop, getD_drop]
  rfl

/-- Octets of which at least four are left start with four. -/
theorem exists_drop_eq_cons {bs : Octets} {place : Nat} (h : place + 4 ≤ bs.length) :
    ∃ t t' l l', bs.drop place = t :: t' :: l :: l' :: bs.drop (place + 4) := by
  have hlength : (bs.drop place).length = bs.length - place := List.length_drop
  have hdrop : bs.drop (place + 4) = (bs.drop place).drop 4 := List.drop_drop.symm
  rw [hdrop]
  generalize bs.drop place = left at hlength
  match left, hlength with
  | t :: t' :: l :: l' :: rest, _ => exact ⟨t, t', l, l', rfl⟩
  | [], hlength | [_], hlength | [_, _], hlength | [_, _, _], hlength =>
    simp only [List.length_cons, List.length_nil] at hlength
    omega

end Octets

/-! ### Parameters by place -/

namespace Parameter

/-- The number of octets that a value at a place has if a parameter stands there: what the third and
fourth octet state. -/
def statedAt (bs : Octets) (place : Nat) : Nat := (bs.shortAt (place + 2)).toNat

/-- The place behind a parameter at a place: behind its tag, its length and its value. -/
def behind (bs : Octets) (place : Nat) : Nat := place + 4 + statedAt bs place

/-- A whole parameter stands at a place. -/
def StandsAt (bs : Octets) (place : Nat) : Prop := behind bs place ≤ bs.length

instance (bs : Octets) (place : Nat) : Decidable (StandsAt bs place) :=
  inferInstanceAs (Decidable (_ ≤ _))

/-- The parameter at a place. -/
def atPlace (bs : Octets) (place : Nat) : Parameter :=
  ⟨bs.shortAt place, (bs.drop (place + 4)).take (statedAt bs place)⟩

section Read

variable {bs : Octets} {place : Nat}

/-- The octets from a place on where there are four: a tag, a length and what follows them. -/
theorem exists_tag_length (h : place + 4 ≤ bs.length) :
    ∃ t t' l l', bs.drop place = t :: t' :: l :: l' :: bs.drop (place + 4) ∧
      bs.shortAt place = Octets.word16 t t' ∧
        statedAt bs place = (Octets.word16 l l').toNat := by
  obtain ⟨t, t', l, l', hdrop⟩ := Octets.exists_drop_eq_cons h
  have htag := Octets.shortAt_drop bs place 0
  have hlength := Octets.shortAt_drop bs place 2
  rw [hdrop] at htag hlength
  exact ⟨t, t', l, l', hdrop, htag.symm, congrArg UInt16.toNat hlength.symm⟩

/-- **A whole parameter is taken off**, and what is left begins behind it. -/
theorem read_drop_of_standsAt (h : StandsAt bs place) :
    read (bs.drop place) = .ok (atPlace bs place) (bs.drop (behind bs place)) := by
  unfold StandsAt behind at h
  have hheader : place + 4 ≤ bs.length := by omega
  obtain ⟨t, t', l, l', hdrop, htag, hstated⟩ := exists_tag_length hheader
  have henough : ¬ ((bs.drop (place + 4)).take (statedAt bs place)).length <
      statedAt bs place := by
    rw [List.length_take, List.length_drop]
    omega
  rw [hdrop]
  simp only [read, ← hstated, if_neg henough, List.drop_drop]
  rw [atPlace, behind, htag]

/-- Where fewer than four octets are left, none is taken off. -/
theorem read_drop_of_truncated (h : bs.length < place + 4) :
    read (bs.drop place) = .error (.truncatedParameter (bs.length - place)) (bs.drop place) := by
  have hlength : (bs.drop place).length = bs.length - place := List.length_drop
  rw [← hlength]
  unfold read
  split
  · next hdrop =>
    rw [hdrop] at hlength
    simp only [List.length_cons] at hlength
    omega
  · rfl

/-- Where a value is too short, its tag and its length are taken off. -/
theorem read_drop_of_overflow (hheader : place + 4 ≤ bs.length) (h : ¬ StandsAt bs place) :
    read (bs.drop place) =
      .error (.parameterOverflow (bs.shortAt place) (statedAt bs place) (bs.length - (place + 4)))
        (bs.drop (place + 4)) := by
  unfold StandsAt behind at h
  obtain ⟨t, t', l, l', hdrop, htag, hstated⟩ := exists_tag_length hheader
  have hshort : ((bs.drop (place + 4)).take (statedAt bs place)).length < statedAt bs place := by
    rw [List.length_take, List.length_drop]
    omega
  rw [hdrop]
  simp only [read, ← hstated, if_pos hshort, List.length_drop]
  rw [htag]

end Read

end Parameter

namespace Parameters

open Parameter (StandsAt atPlace behind statedAt)

/-- From a place on, whole parameters stand one right behind the other: a row of them, and the place
behind the last. -/
inductive Spans (bs : Octets) : Nat → List Parameter → Nat → Prop where
  | nil (place : Nat) : Spans bs place [] place
  | cons {place stop : Nat} {row : List Parameter} (hstands : StandsAt bs place)
    (hrest : Spans bs (behind bs place) row stop) :
    Spans bs place (atPlace bs place :: row) stop

namespace Spans

variable {bs : Octets} {place stop : Nat} {row : List Parameter}

/-- Every parameter takes up at least the four octets of its tag and its length. -/
theorem four_mul_length_le (h : Spans bs place row stop) : place + 4 * row.length ≤ stop := by
  induction h with
  | nil place => exact Nat.le_refl _
  | @cons place stop row hstands hrest ih =>
    calc place + 4 * (row.length + 1) = place + 4 + 4 * row.length := by omega
      _ ≤ behind bs place + 4 * row.length := by unfold behind; omega
      _ ≤ stop := ih

theorem stop_le_length (h : Spans bs place row stop) (hplace : place ≤ bs.length) :
    stop ≤ bs.length := by
  induction h with
  | nil place => exact hplace
  | cons hstands hrest ih => exact ih hstands

/-- The octets between the two places are those of the row. -/
theorem drop_eq_region (h : Spans bs place row stop) :
    RowFits row ∧ bs.drop place = region row ++ bs.drop stop := by
  induction h with
  | nil place => exact ⟨fun _ hp => absurd hp List.not_mem_nil, rfl⟩
  | cons hstands hrest ih =>
    obtain ⟨hrow, hdrop⟩ := ih
    obtain ⟨hfits, hfirst⟩ := Parameter.read_eq_ok_iff.1 (Parameter.read_drop_of_standsAt hstands)
    refine ⟨rowFits_cons.2 ⟨hfits, hrow⟩, ?_⟩
    rw [hfirst, hdrop, region_cons, List.append_assoc]

/-- **From the front of the octets the reading gets to every boundary**, and has inserted the
parameters before it. -/
theorem readInto_eq (h : Spans bs place row stop) (m : Parameters) :
    readInto m (bs.drop place) = readInto (m.insertAll row) (bs.drop stop) := by
  induction h generalizing m with
  | nil place => rfl
  | cons hstands hrest ih =>
    rw [readInto_of_read (Parameter.read_drop_of_standsAt hstands), ih, insertAll_cons]

/-- **There is one way on**: what is reached from a place lies before the first gap behind the
place, or is that gap. -/
theorem to_gap (h : Spans bs place row stop) (hgap : ¬ StandsAt bs stop) {row' : List Parameter}
    {stop' : Nat} (h' : Spans bs place row' stop') :
    stop' ≤ stop ∧ (¬ StandsAt bs stop' → row' = row ∧ stop' = stop) := by
  -- On the way to the gap: where it has come to its end, a longer way would lead through the gap.
  induction h generalizing row' stop' with
  | nil place =>
    cases h' with
    | nil => exact ⟨Nat.le_refl _, fun _ => ⟨rfl, rfl⟩⟩
    | cons hstands hrest => exact absurd hstands hgap
  | @cons place stop row hstands hrest ih =>
    cases h' with
    | nil =>
      have hbehind : place ≤ behind bs place := by
        unfold behind
        omega
      have hstop := hrest.four_mul_length_le
      exact ⟨by omega, fun hgap' => absurd hstands hgap'⟩
    | cons hstands' hrest' =>
      obtain ⟨hle, hsame⟩ := ih hgap hrest'
      refine ⟨hle, fun hgap' => ?_⟩
      obtain ⟨rfl, rfl⟩ := hsame hgap'
      exact ⟨rfl, rfl⟩

end Spans

/-- From every place on there is a gap. -/
theorem exists_spans_to_gap (bs : Octets) (place : Nat) :
    ∃ row stop, Spans bs place row stop ∧ ¬ StandsAt bs stop := by
  -- On the octets that are left: every parameter leaves fewer of them.
  induction hleft : bs.length - place using Nat.strongRecOn generalizing place with
  | ind left ih =>
    by_cases hstands : StandsAt bs place
    · have hless : bs.length - behind bs place < left := by
        unfold StandsAt at hstands
        unfold behind at hstands ⊢
        omega
      obtain ⟨row, stop, hspans, hgap⟩ := ih _ hless (behind bs place) rfl
      exact ⟨_, stop, .cons hstands hspans, hgap⟩
    · exact ⟨[], place, .nil place, hstands⟩

/-! ### Rounds -/

/-- Reads parameters in at most so many rounds, of which each looks for one; `none` if something is
left to look at after the last round. -/
def readWithin (rounds : Nat) (m : Parameters) (bs : Octets) :
    Option (EStateM.Result WireError Octets Parameters) :=
  match rounds, bs with
  | _, [] => some (.ok m [])
  | 0, _ :: _ => none
  | rounds + 1, b :: bs =>
    match Parameter.read (b :: bs) with
    | .error e left => some (.error e left)
    | .ok p left => readWithin rounds (m.insert p.tag p.value) left

section Rounds

variable {m : Parameters} {bs left : Octets}

@[simp] theorem readWithin_nil (rounds : Nat) (m : Parameters) :
    readWithin rounds m [] = some (.ok m []) := by
  cases rounds <;> rfl

theorem readWithin_zero (h : bs ≠ []) : readWithin 0 m bs = none := by
  cases bs with
  | nil => exact absurd rfl h
  | cons b bs => rfl

theorem readWithin_of_read {p : Parameter} (h : Parameter.read bs = .ok p left) (rounds : Nat) :
    readWithin (rounds + 1) m bs = readWithin rounds (m.insert p.tag p.value) left := by
  cases bs with
  | nil => cases h
  | cons b bs =>
    rw [readWithin]
    simp only [h]

theorem readWithin_of_fault {e : WireError} (hmore : bs ≠ [])
    (h : Parameter.read bs = .error e left) (rounds : Nat) :
    readWithin (rounds + 1) m bs = some (.error e left) := by
  cases bs with
  | nil => exact absurd rfl hmore
  | cons b bs =>
    rw [readWithin]
    simp only [h]

/-- What is left and no parameter is the fault. -/
theorem readInto_of_fault {e : WireError} (hmore : bs ≠ [])
    (h : Parameter.read bs = .error e left) : readInto m bs = .error e left := by
  cases bs with
  | nil => exact absurd rfl hmore
  | cons b bs =>
    rw [readInto]
    split
    · next h' =>
      rw [h] at h'
      cases h'
      rfl
    · next h' =>
      rw [h] at h'
      cases h'

end Rounds

/-- The rounds that it takes to read up to a gap behind a row: one for each parameter, and one more
to find that the octets there are none. -/
def roundsTo (bs : Octets) (row : List Parameter) (gap : Nat) : Nat :=
  row.length + if gap = bs.length then 0 else 1

theorem ne_nil_of_standsAt {bs : Octets} {place : Nat} (h : StandsAt bs place) :
    bs.drop place ≠ [] := by
  intro hnil
  have hread := Parameter.read_drop_of_standsAt h
  rw [hnil] at hread
  cases hread

/-- At a gap that is not the end of the octets no parameter is read. -/
theorem exists_fault_of_gap {bs : Octets} {gap : Nat} (hgap : ¬ StandsAt bs gap) :
    ∃ e left, Parameter.read (bs.drop gap) = .error e left := by
  by_cases hheader : gap + 4 ≤ bs.length
  · exact ⟨_, _, Parameter.read_drop_of_overflow hheader hgap⟩
  · exact ⟨_, _, Parameter.read_drop_of_truncated (Nat.lt_of_not_le hheader)⟩

/-- **The reading takes as many rounds as there are parameters before the gap**, and one more unless
the gap is the end; with fewer it does not end, and more change nothing. -/
theorem Spans.readWithin_eq {bs : Octets} {place gap : Nat} {row : List Parameter}
    (h : Spans bs place row gap) (hgap : ¬ StandsAt bs gap) (hle : gap ≤ bs.length)
    (rounds : Nat) (m : Parameters) :
    readWithin rounds m (bs.drop place) =
      if roundsTo bs row gap ≤ rounds then some (readInto m (bs.drop place)) else none := by
  induction h generalizing rounds m with
  | nil place =>
    unfold roundsTo
    by_cases hend : place = bs.length
    · -- Nothing is left, which takes no round to see.
      have hnil : bs.drop place = [] := List.drop_eq_nil_of_le (Nat.le_of_eq hend.symm)
      rw [hnil, readWithin_nil, if_pos hend, readInto]
      exact (if_pos (Nat.zero_le rounds)).symm
    · have hmore : bs.drop place ≠ [] := mt List.drop_eq_nil_iff.1 (by omega)
      obtain ⟨e, left, hfault⟩ := exists_fault_of_gap hgap
      rw [if_neg hend, readInto_of_fault hmore hfault]
      cases rounds with
      | zero =>
        rw [readWithin_zero hmore]
        exact (if_neg (Nat.not_succ_le_zero 0)).symm
      | succ rounds =>
        rw [readWithin_of_fault hmore hfault]
        exact (if_pos (Nat.le_add_left 1 rounds)).symm
  | @cons place stop row hstands hrest ih =>
    have hread := Parameter.read_drop_of_standsAt hstands
    have hone : roundsTo bs (atPlace bs place :: row) stop = roundsTo bs row stop + 1 := by
      unfold roundsTo
      rw [List.length_cons]
      omega
    rw [hone, readInto_of_read hread]
    cases rounds with
    | zero =>
      rw [readWithin_zero (ne_nil_of_standsAt hstands), if_neg (Nat.not_succ_le_zero _)]
    | succ rounds =>
      rw [readWithin_of_read hread, ih hgap hle]
      simp only [Nat.succ_le_succ_iff]

/-! ### The end of the reading -/

/-- How the reading of octets ends, where `row` stands before the first gap. -/
structure EndsAt (bs : Octets) (row : List Parameter) (gap : Nat) : Prop where
  /-- The gap is a boundary, -/
  boundary : Spans bs 0 row gap
  /-- no whole parameter stands at it, -/
  stands : ¬ StandsAt bs gap
  /-- and it is the first such boundary and the only one; no boundary lies behind it. -/
  first : ∀ row' place, Spans bs 0 row' place →
    place ≤ gap ∧ (¬ StandsAt bs place → row' = row ∧ place = gap)
  /-- It lies within the octets, so what is left there is nothing, or one to three octets, or at
  least four: -/
  within : gap ≤ bs.length
  /-- if nothing, the parameters before it are read, in order, and everything is used up; -/
  whole : gap = bs.length → bs = region row ∧ read bs = .ok (ofList row) []
  /-- if fewer than four octets, their number is the fault; -/
  truncated : ∀ left, 0 < left → left < 4 → bs.length = gap + left →
    read bs = .error (.truncatedParameter left) (bs.drop gap)
  /-- if at least four, they state a length that the rest does not have. -/
  overflow : ∀ left, bs.length = gap + 4 + left →
    left < (bs.shortAt (gap + 2)).toNat ∧
      read bs = .error (.parameterOverflow (bs.shortAt gap) (bs.shortAt (gap + 2)).toNat left)
        (bs.drop (gap + 4))

/-- The reading comes to the gap, and ends with what is there. -/
theorem Spans.endsAt {bs : Octets} {row : List Parameter} {gap : Nat} (h : Spans bs 0 row gap)
    (hgap : ¬ StandsAt bs gap) : EndsAt bs row gap := by
  have hwithin : gap ≤ bs.length := h.stop_le_length (Nat.zero_le _)
  have hread : read bs = readInto (ofList row) (bs.drop gap) := h.readInto_eq empty
  -- What the read says depends on how many octets there are behind the gap: none, too few for a tag
  -- and a length, or fewer than the length states.
  refine ⟨h, hgap, fun row' place h' => h.to_gap hgap h', hwithin, ?_, ?_, ?_⟩
  · intro hend
    have hnil : bs.drop gap = [] := List.drop_eq_nil_of_le (Nat.le_of_eq hend.symm)
    have hregion := h.drop_eq_region.2
    rw [hnil, List.append_nil] at hregion
    refine ⟨hregion, ?_⟩
    rw [hread, hnil, readInto]
  · intro left hsome hshort hlength
    have hmore : bs.drop gap ≠ [] := mt List.drop_eq_nil_iff.1 (by omega)
    have hleft : bs.length - gap = left := by omega
    rw [hread, readInto_of_fault hmore (Parameter.read_drop_of_truncated (by omega)), hleft]
  · intro left hlength
    have hmore : bs.drop gap ≠ [] := mt List.drop_eq_nil_iff.1 (by omega)
    have hleft : bs.length - (gap + 4) = left := by omega
    refine ⟨?_, ?_⟩
    · unfold StandsAt behind statedAt at hgap
      omega
    · rw [hread, readInto_of_fault hmore (Parameter.read_drop_of_overflow (by omega) hgap), hleft]
      rfl

/-- **The parameters of a region are read up to the first gap, and the reading ends.** Octets are
read exactly if they are a row of parameters, to their end. In any octets there is one boundary at
which no whole parameter stands; it decides whether they are read, and if not, with which fault. The
reading ends after some number of rounds, and has looked at four octets in each but the last. -/
theorem read_ends_at_first_gap (bs : Octets) :
    ((∃ m left, read bs = .ok m left) ↔ ∃ row, RowFits row ∧ bs = region row) ∧
    (∀ m left, read bs = .ok m left → left = []) ∧
    (∃ row gap, EndsAt bs row gap) ∧
    ∃ needed, 4 * needed ≤ bs.length + 3 ∧ ∀ rounds,
      readWithin rounds empty bs = if needed ≤ rounds then some (read bs) else none := by
  obtain ⟨row, gap, hspans, hgap⟩ := exists_spans_to_gap bs 0
  have hends := hspans.endsAt hgap
  refine ⟨exists_read_eq_ok_iff bs, fun m left hread => (read_eq_ok_iff.1 hread).1,
    ⟨row, gap, hends⟩, roundsTo bs row gap, ?_,
    fun rounds => hspans.readWithin_eq hgap hends.within rounds empty⟩
  -- Each parameter has taken four octets; the last round is needed only where one is left.
  have hrow := hspans.four_mul_length_le
  have hwithin := hends.within
  unfold roundsTo
  split <;> omega

/-- A value of no octets and one that ends with the octets are whole; one octet less, and the place
of the second parameter is the gap. -/
example :
    read [0, 5, 0, 0, 2, 16, 0, 1, 52] = .ok (ofList [⟨5, []⟩, ⟨528, [52]⟩]) [] ∧
      read [0, 5, 0, 0, 2, 16, 0, 1] = .error (.parameterOverflow 528 1 0) [] ∧
      read [0, 5, 0, 0, 2, 16, 0] = .error (.truncatedParameter 3) [2, 16, 0] := by
  refine ⟨?_, ?_, ?_⟩ <;> cbv

end Parameters

end Smpp
