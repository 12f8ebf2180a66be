import Smpp.Proofs.Wire.Frames

/-!
# What a stated length decides

`Frame.check` judges octets by the length that they state and by how many of them there are.
`Frame.checked` lists its four verdicts, each with what it says of the octets. A length that has
once been stated is stated by all that goes on from there (`Frame.statedLength_append`), and a whole
frame is read from its own octets and from no others (`Frame.parse_take_of_ok`).

`Octets.wordAt` is the word at a place. The words of a header stand at the places 0, 4, 8 and 12,
and what follows the header or goes before it does not matter to them.
-/

namespace Smpp

namespace Octets

/-- An octet behind a place; octets that are not there count as zero. -/
theorem getD_drop (bs : Octets) (n i : Nat) : (bs.drop n).getD i 0 = bs.getD (n + i) 0 := by
  rw [List.getD_eq_getElem?_getD, List.getElem?_drop, List.getD_eq_getElem?_getD]

/-- The word at a place; octets that are not there count as zero. -/
def wordAt (bs : Octets) (place : Nat) : UInt32 :=
  word32 (bs.getD place 0) (bs.getD (place + 1) 0) (bs.getD (place + 2) 0) (bs.getD (place + 3) 0)

theorem wordAt_append {bs : Octets} {place : Nat} (h : place + 4 ≤ bs.length) (rest : Octets) :
    wordAt (bs ++ rest) place = wordAt bs place := by
  have hsame : ∀ i < bs.length, (bs ++ rest).getD i 0 = bs.getD i 0 :=
    fun i hi => List.getD_append bs rest 0 i hi
  unfold wordAt
  rw [hsame place (by omega), hsame (place + 1) (by omega), hsame (place + 2) (by omega),
    hsame (place + 3) (by omega)]

theorem wordAt_drop (bs : Octets) (n place : Nat) :
    wordAt (bs.drop n) place = wordAt bs (n + place) := by
  unfold wordAt
  rw [getD_drop, getD_drop, getD_drop, getD_drop]
  rfl

end Octets

namespace HeaderWords

theorem read_eq_none_iff {bs : Octets} : read bs = none ↔ bs.length < headerSize := by
  refine ⟨fun hnone => ?_, fun hshort => ?_⟩
  · by_contra hlong
    obtain ⟨w, body, hbs⟩ := exists_eq_encode_append (Nat.le_of_not_lt hlong)
    rw [hbs, read_encode_append] at hnone
    cases hnone
  · cases hread : read bs with
    | none => rfl
    | some r =>
      have hbs : bs = r.1.encode ++ r.2 := read_eq_some_iff.1 hread
      rw [hbs, List.length_append, length_encode] at hshort
      omega

theorem words_of_read {bs rest : Octets} {w : HeaderWords} (h : read bs = some (w, rest)) :
    w = ⟨bs.wordAt 0, bs.wordAt 4, bs.wordAt 8, bs.wordAt 12⟩ := by
  unfold read at h
  split at h
  · cases h
    rfl
  · cases h

end HeaderWords

/-- The sequence number is known as soon as the header is there. -/
theorem peekSequence_eq (bs : Octets) :
    peekSequence bs = if headerSize ≤ bs.length then some (bs.wordAt 12) else none := by
  unfold peekSequence
  cases hread : HeaderWords.read bs with
  | none =>
    have hshort := HeaderWords.read_eq_none_iff.1 hread
    rw [if_neg (by omega)]
    rfl
  | some r =>
    obtain ⟨w, rest⟩ := r
    have hlong : headerSize ≤ bs.length := by
      by_contra hshort
      rw [HeaderWords.read_eq_none_iff.2 (by omega)] at hread
      cases hread
    rw [if_pos hlong, HeaderWords.words_of_read hread]
    rfl

namespace Frame

theorem statedLength_eq_none_iff {bs : Octets} : statedLength bs = none ↔ bs.length < 4 := by
  match bs with
  | [] => simp [statedLength]
  | [_] => simp [statedLength]
  | [_, _] => simp [statedLength]
  | [_, _, _] => simp [statedLength]
  | _ :: _ :: _ :: _ :: _ => simp [statedLength]

theorem statedLength_append {bs : Octets} {n : Nat} (h : statedLength bs = some n)
    (rest : Octets) : statedLength (bs ++ rest) = some n := by
  unfold statedLength at h
  split at h
  · cases h
    rfl
  · cases h

/-- The verdicts on the length that octets state. -/
inductive Checked (largest : Nat) (bs : Octets) : Except WireError Nat → Prop where
  /-- No length is stated yet. -/
  | unstated (hstated : statedLength bs = none) : Checked largest bs (.error .incomplete)
  /-- The length cannot be. -/
  | impossible {n : Nat} (hstated : statedLength bs = some n)
    (hbounds : n < headerSize ∨ largest < n) :
    Checked largest bs (.error (.invalidLength n headerSize largest))
  /-- Octets of the frame are missing. -/
  | short {n : Nat} (hstated : statedLength bs = some n)
    (hbounds : ¬ (n < headerSize ∨ largest < n)) (hlength : bs.length < n) :
    Checked largest bs (.error .incomplete)
  /-- The frame is there. -/
  | whole {n : Nat} (hstated : statedLength bs = some n)
    (hbounds : ¬ (n < headerSize ∨ largest < n)) (hlength : n ≤ bs.length) :
    Checked largest bs (.ok n)

/-- **What the verdict on a length says of the octets.** -/
theorem checked (largest : Nat) (bs : Octets) : Checked largest bs (check largest bs) := by
  -- In the order of the checks: whether a length is stated, whether it is in bounds, and only then
  -- whether so many octets are there. An impossible length is not waited for.
  cases hstated : statedLength bs with
  | none =>
    have hverdict : check largest bs = .error .incomplete := by
      unfold check
      rw [hstated]
    rw [hverdict]
    exact .unstated hstated
  | some n =>
    by_cases hbounds : n < headerSize ∨ largest < n
    · have hverdict : check largest bs = .error (.invalidLength n headerSize largest) := by
        have houtside : ¬ (headerSize ≤ n ∧ n ≤ largest) := by omega
        unfold check checkLength
        rw [hstated]
        dsimp only
        rw [if_neg houtside]
        rfl
      rw [hverdict]
      exact .impossible hstated hbounds
    by_cases hlength : n ≤ bs.length
    · have hverdict : check largest bs = .ok n :=
        check_eq_ok_iff.2 ⟨hstated, by omega, by omega, hlength⟩
      rw [hverdict]
      exact .whole hstated hbounds hlength
    · have hverdict : check largest bs = .error .incomplete := by
        have hwithin : headerSize ≤ n ∧ n ≤ largest := by omega
        have hshort : (bs.take n).length < n := by
          rw [List.length_take]
          omega
        unfold check checkLength
        rw [hstated]
        dsimp only
        rw [if_pos hwithin, if_pos hshort]
        rfl
      rw [hverdict]
      exact .short hstated hbounds (Nat.lt_of_not_le hlength)

/-- A whole frame by itself is a whole frame. -/
theorem check_take_of_ok {largest n : Nat} {bs : Octets} (h : check largest bs = .ok n) :
    check largest (bs.take n) = .ok n := by
  obtain ⟨hstated, hmin, hmax, hlength⟩ := check_eq_ok_iff.1 h
  have htake : (bs.take n).length = n := by
    rw [List.length_take]
    omega
  have hstated' : statedLength (bs.take n) = some n := by
    cases hnone : statedLength (bs.take n) with
    | none =>
      have hshort := statedLength_eq_none_iff.1 hnone
      unfold headerSize at hmin
      omega
    | some m =>
      -- What a part states the whole states too.
      have happend := statedLength_append hnone (bs.drop n)
      rw [List.take_append_drop, hstated] at happend
      exact happend.symm
  exact check_eq_ok_iff.2 ⟨hstated', hmin, hmax, by omega⟩

/-- A whole frame is parsed from its own octets. -/
theorem parse_take_of_ok {largest n : Nat} {bs : Octets} (h : check largest bs = .ok n) :
    parse largest (bs.take n) = ofOctets largest (bs.take n) := by
  have htake : (bs.take n).take n = bs.take n := by rw [List.take_take, min_self]
  unfold parse decode
  rw [check_take_of_ok h]
  simp only [bind, Except.bind, pure, Except.pure, htake]
  cases ofOctets largest (bs.take n) <;> rfl

end Frame

end Smpp
