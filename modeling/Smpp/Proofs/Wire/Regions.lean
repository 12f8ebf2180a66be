import Smpp.Proofs.Wire.Fields
import Smpp.Pdu.Parameters

/-!
# Regions of optional parameters

A region is the written form of a row of parameters. `Parameters.read_eq_ok_iff` says that exactly
the regions can be read, and that the map that comes out is the one that inserting the row gives;
`Parameters.encode_eq_ok_iff` says that a map is written as the region of its entries.

Between the two lies what a map forgets. Inserting the entries of a map one by one gives the map
back (`ofList_entries`), so a map survives being written and read. A row survives being read and
written exactly if no tag comes twice in it (`region_entries_ofList_iff`), since rows with the same
region are the same row (`region_injective`).
-/

namespace Smpp

namespace Parameter

/-- A value whose length can be stated. -/
def Fits (p : Parameter) : Prop := p.value.length ≤ longestValue

/-- The octets of a parameter: tag, length, value. -/
def octets (p : Parameter) : Octets :=
  Octets.ofWord16 p.tag ++ Octets.ofWord16 (UInt16.ofNat p.value.length) ++ p.value

theorem encode_eq_ok_iff {p : Parameter} {bs : Octets} :
    p.encode = .ok bs ↔ p.Fits ∧ bs = p.octets := by
  unfold encode
  split
  · next h =>
    rw [Except.ok.injEq]
    exact ⟨fun he => ⟨h, he.symm⟩, fun he => he.2.symm⟩
  · next h => exact ⟨fun he => (nomatch he), fun he => absurd he.1 h⟩

/-- The octets of a parameter, one by one up to the value. -/
theorem octets_append (p : Parameter) (rest : Octets) :
    p.octets ++ rest =
      Octets.low (p.tag.toNat / 256) :: Octets.low p.tag.toNat ::
        Octets.low ((UInt16.ofNat p.value.length).toNat / 256) ::
          Octets.low (UInt16.ofNat p.value.length).toNat :: (p.value ++ rest) := by
  simp only [octets, Octets.ofWord16, List.cons_append, List.nil_append]

/-- A length that can be stated is stated as it is. -/
theorem Fits.toNat_length {p : Parameter} (h : p.Fits) :
    (UInt16.ofNat p.value.length).toNat = p.value.length := by
  unfold Fits longestValue at h
  rw [UInt16.toNat_ofNat']
  omega

/-- **Reading a parameter** takes off exactly the octets of one whose length can be stated. -/
theorem read_eq_ok_iff {p : Parameter} {bs left : Octets} :
    read bs = .ok p left ↔ p.Fits ∧ bs = p.octets ++ left := by
  refine ⟨?_, ?_⟩
  · intro h
    unfold read at h
    split at h
    · next t t' l l' rest =>
      dsimp only at h
      split at h
      · cases h
      next hlength =>
      cases h
      -- There were as many octets as the length says, so it is the length of what was taken.
      have hvalue : (rest.take (Octets.word16 l l').toNat).length = (Octets.word16 l l').toNat := by
        have := List.length_take_le (Octets.word16 l l').toNat rest
        omega
      have hbound := (Octets.word16 l l').toNat_lt
      refine ⟨?_, ?_⟩
      · change (rest.take _).length ≤ longestValue
        rw [hvalue, longestValue]
        omega
      · simp only [octets, hvalue, UInt16.ofNat_toNat, Octets.ofWord16_word16, List.cons_append,
          List.nil_append, List.take_append_drop]
    · cases h
  · rintro ⟨hfits, rfl⟩
    rw [octets_append]
    simp only [read, Octets.word16_octets]
    simp only [hfits.toNat_length, List.take_left, List.drop_left, Nat.lt_irrefl, if_false]

theorem octets_ne_nil (p : Parameter) : p.octets ≠ [] := List.cons_ne_nil _ _

end Parameter

namespace Parameters

/-! ### Rows and their regions -/

/-- Every value of a row has a length that can be stated. -/
def RowFits (ps : List Parameter) : Prop := ∀ p ∈ ps, p.Fits

/-- The octets of a row of parameters. -/
def region (ps : List Parameter) : Octets := ps.flatMap Parameter.octets

@[simp] theorem region_nil : region [] = [] := rfl

@[simp] theorem region_cons (p : Parameter) (ps : List Parameter) :
    region (p :: ps) = p.octets ++ region ps := rfl

theorem rowFits_cons {p : Parameter} {ps : List Parameter} :
    RowFits (p :: ps) ↔ p.Fits ∧ RowFits ps := List.forall_mem_cons

theorem region_cons_ne_nil (p : Parameter) (ps : List Parameter) : region (p :: ps) ≠ [] := by
  rw [region_cons]
  exact List.append_ne_nil_of_left_ne_nil p.octets_ne_nil _

/-- **Rows with the same region are the same row**: what is written can be read in one way only. -/
theorem region_injective {ps qs : List Parameter} (hp : RowFits ps) (hq : RowFits qs)
    (h : region ps = region qs) : ps = qs := by
  induction ps generalizing qs with
  | nil =>
    cases qs with
    | nil => rfl
    | cons q qs => exact absurd h.symm (region_cons_ne_nil q qs)
  | cons p ps ih =>
    cases qs with
    | nil => exact absurd h (region_cons_ne_nil p ps)
    | cons q qs =>
      obtain ⟨hp, hps⟩ := rowFits_cons.1 hp
      obtain ⟨hq, hqs⟩ := rowFits_cons.1 hq
      -- Reading one parameter off the common region gives both the first of one row and the
      -- first of the other.
      have hreadp := Parameter.read_eq_ok_iff.2 ⟨hp, Eq.refl (p.octets ++ region ps)⟩
      have hreadq := Parameter.read_eq_ok_iff.2 ⟨hq, Eq.refl (q.octets ++ region qs)⟩
      rw [region_cons, region_cons] at h
      rw [h, hreadq] at hreadp
      obtain ⟨rfl, hregion⟩ := EStateM.Result.ok.inj hreadp
      rw [ih hps hqs hregion.symm]

/-! ### The map of a row -/

/-- The map after a row was inserted. -/
def insertAll (m : Parameters) (ps : List Parameter) : Parameters :=
  ps.foldl (fun m p => m.insert p.tag p.value) m

@[simp] theorem insertAll_nil (m : Parameters) : m.insertAll [] = m := rfl

@[simp] theorem insertAll_cons (m : Parameters) (p : Parameter) (ps : List Parameter) :
    m.insertAll (p :: ps) = (m.insert p.tag p.value).insertAll ps := rfl

theorem ext_entries {m m' : Parameters} (h : m.entries = m'.entries) : m = m' := by
  cases m
  cases m'
  cases h
  rfl

/-- A tag that is new goes to the end. -/
theorem put_of_notMem {tag : UInt16} {value : Octets} {ps : List Parameter}
    (h : tag ∉ ps.map Parameter.tag) : put tag value ps = ps ++ [⟨tag, value⟩] := by
  induction ps with
  | nil => rfl
  | cons p ps ih =>
    rw [List.map_cons, List.mem_cons, not_or] at h
    rw [put, if_neg (Ne.symm h.1), ih h.2]
    rfl

/-- What a put leaves is what there was, or what was put. -/
theorem mem_put {tag : UInt16} {value : Octets} {ps : List Parameter} {q : Parameter}
    (h : q ∈ put tag value ps) : q ∈ ps ∨ q = ⟨tag, value⟩ := by
  induction ps with
  | nil => exact .inr (List.mem_singleton.1 h)
  | cons p ps ih =>
    unfold put at h
    split at h
    · exact (List.mem_cons.1 h).elim .inr fun h => .inl (List.mem_cons_of_mem _ h)
    · rcases List.mem_cons.1 h with rfl | h
      · exact .inl (List.mem_cons_self ..)
      · exact (ih h).imp_left (List.mem_cons_of_mem _)

/-- **A row without a repeated tag is kept as it came**, after the entries that were there. -/
theorem entries_insertAll {m : Parameters} {ps : List Parameter}
    (h : ((m.entries ++ ps).map Parameter.tag).Nodup) :
    (m.insertAll ps).entries = m.entries ++ ps := by
  -- On the row, for every map: the first parameter goes to the end of the entries, and the
  -- hypothesis says the same of the rest and the longer map.
  induction ps generalizing m with
  | nil => exact (List.append_nil _).symm
  | cons p ps ih =>
    have hnew : p.tag ∉ m.entries.map Parameter.tag := by
      rw [List.map_append, List.map_cons] at h
      intro hmem
      exact (List.nodup_append.1 h).2.2 _ hmem _ (List.mem_cons_self ..) rfl
    have hinsert : (m.insert p.tag p.value).entries = m.entries ++ [p] := put_of_notMem hnew
    have happend : m.entries ++ [p] ++ ps = m.entries ++ p :: ps := List.append_cons .. |>.symm
    rw [insertAll_cons, ih (by rw [hinsert, happend]; exact h), hinsert, happend]

/-- **Inserting the entries of a map gives the map.** -/
theorem ofList_entries (m : Parameters) : ofList m.entries = m :=
  ext_entries (entries_insertAll (m := empty) m.distinct)

/-- The entries of the map of a row are the row exactly if no tag comes twice in it. -/
theorem entries_ofList_iff {ps : List Parameter} :
    (ofList ps).entries = ps ↔ (ps.map Parameter.tag).Nodup := by
  refine ⟨?_, ?_⟩
  · intro h
    rw [← h]
    exact (ofList ps).distinct
  · intro h
    exact entries_insertAll (m := empty) h

theorem rowFits_insertAll {m : Parameters} {ps : List Parameter} (hm : RowFits m.entries)
    (h : RowFits ps) : RowFits (m.insertAll ps).entries := by
  induction ps generalizing m with
  | nil => exact hm
  | cons p ps ih =>
    obtain ⟨hp, hps⟩ := rowFits_cons.1 h
    refine ih (fun q hq => ?_) hps
    -- An entry of the longer map was there before, or is the parameter.
    rcases mem_put hq with hq | rfl
    · exact hm q hq
    · exact hp

theorem rowFits_ofList {ps : List Parameter} (h : RowFits ps) : RowFits (ofList ps).entries :=
  rowFits_insertAll (m := empty) (fun _ hp => absurd hp List.not_mem_nil) h

/-- **The map of a row is written as the row came exactly if no tag comes twice in it.** -/
theorem region_entries_ofList_iff {ps : List Parameter} (h : RowFits ps) :
    region (ofList ps).entries = region ps ↔ (ps.map Parameter.tag).Nodup := by
  rw [← entries_ofList_iff]
  exact ⟨region_injective (rowFits_ofList h) h, congrArg region⟩

/-! ### Writing and reading -/

theorem written_of_rowFits {ps : List Parameter} (h : RowFits ps) :
    written ps = (region ps, none) := by
  induction ps with
  | nil => rfl
  | cons p ps ih =>
    obtain ⟨hp, hps⟩ := rowFits_cons.1 h
    rw [written, Parameter.encode_eq_ok_iff.2 ⟨hp, rfl⟩, ih hps]
    rfl

theorem rowFits_of_written {ps : List Parameter} (h : (written ps).2 = none) : RowFits ps := by
  induction ps with
  | nil => exact fun _ hp => absurd hp List.not_mem_nil
  | cons p ps ih =>
    rw [written] at h
    cases hp : p.encode with
    | error e =>
      rw [hp] at h
      cases h
    | ok bs =>
      rw [hp] at h
      exact rowFits_cons.2 ⟨(Parameter.encode_eq_ok_iff.1 hp).1, ih h⟩

/-- **A map is written as the region of its entries**, if all their lengths can be stated. -/
theorem encode_eq_ok_iff {m : Parameters} {bs : Octets} :
    m.encode = .ok bs ↔ RowFits m.entries ∧ bs = region m.entries := by
  refine ⟨?_, ?_⟩
  · intro h
    -- Had a value been too long, writing would have stopped with an error.
    have hfits : RowFits m.entries := by
      refine rowFits_of_written ?_
      unfold encode at h
      split at h
      · next hw => rw [hw]
      · cases h
    rw [encode, written_of_rowFits hfits] at h
    cases h
    exact ⟨hfits, rfl⟩
  · rintro ⟨hfits, rfl⟩
    rw [encode, written_of_rowFits hfits]

/-- Reading goes on after a parameter. -/
theorem readInto_of_read {m : Parameters} {p : Parameter} {bs left : Octets}
    (h : Parameter.read bs = .ok p left) :
    readInto m bs = readInto (m.insert p.tag p.value) left := by
  cases bs with
  | nil => cases h
  | cons b bs =>
    rw [readInto]
    split
    · next h' =>
      rw [h] at h'
      cases h'
    · next h' =>
      rw [h] at h'
      cases h'
      rfl

/-- A region is read to its end. -/
theorem readInto_region {m : Parameters} {ps : List Parameter} (h : RowFits ps) :
    readInto m (region ps) = .ok (m.insertAll ps) [] := by
  induction ps generalizing m with
  | nil => rw [region_nil, readInto, insertAll_nil]
  | cons p ps ih =>
    obtain ⟨hp, hps⟩ := rowFits_cons.1 h
    rw [region_cons, readInto_of_read (Parameter.read_eq_ok_iff.2 ⟨hp, rfl⟩), ih hps,
      insertAll_cons]

/-- What is read to its end is a region. -/
theorem eq_region_of_readInto {m m' : Parameters} {bs left : Octets}
    (h : readInto m bs = .ok m' left) :
    left = [] ∧ ∃ ps, RowFits ps ∧ bs = region ps ∧ m' = m.insertAll ps := by
  -- Along the recursion of `readInto`: every round takes one parameter off.
  induction m, bs using readInto.induct with
  | case1 m =>
    rw [readInto] at h
    cases h
    exact ⟨rfl, [], fun _ hp => absurd hp List.not_mem_nil, rfl, rfl⟩
  | case2 m b bs e rest hread =>
    rw [readInto] at h
    split at h
    · cases h
    · next h' =>
      rw [hread] at h'
      cases h'
  | case3 m b bs p rest hread ih =>
    rw [readInto_of_read hread] at h
    obtain ⟨rfl, ps, hps, rfl, rfl⟩ := ih h
    obtain ⟨hp, hbs⟩ := Parameter.read_eq_ok_iff.1 hread
    exact ⟨rfl, p :: ps, rowFits_cons.2 ⟨hp, hps⟩, hbs, rfl⟩

/-- **Exactly the regions can be read**, to their ends, and come out as the maps of their rows. -/
theorem read_eq_ok_iff {m : Parameters} {bs left : Octets} :
    read bs = .ok m left ↔ left = [] ∧ ∃ ps, RowFits ps ∧ bs = region ps ∧ m = ofList ps := by
  refine ⟨?_, ?_⟩
  · exact eq_region_of_readInto
  · rintro ⟨rfl, ps, hps, rfl, rfl⟩
    exact readInto_region hps

/-- What is written of a map reads back as the map. -/
theorem read_of_encode {m : Parameters} {bs : Octets} (h : m.encode = .ok bs) :
    read bs = .ok m [] := by
  obtain ⟨hfits, rfl⟩ := encode_eq_ok_iff.1 h
  exact read_eq_ok_iff.2 ⟨rfl, m.entries, hfits, rfl, m.ofList_entries.symm⟩

end Parameters

end Smpp
