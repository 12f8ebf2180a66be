import Smpp.Proofs.Wire.Forms

/-!
# Texts at a cursor

A text on the wire ends with a zero octet. Read at a cursor, it is looked for in a window: what is
left, but no more of it than the limit of the field. The first zero in the window decides
(`FirstZero`). Where there is none, the field is absent if the end of what is left came first, and
too long if the limit did; where there is one, the octets before it are a text or they are not.

`Cursor.run` moves a cursor over what a reader takes off, whether or not the reader succeeds. A text
moves it behind its zero, and a fault leaves it where it was (`run_eq_error_iff`). `write_eq_ok_iff`
and `write_eq_error_iff` say the same of writing: a text that fits is put behind what is there, and
a fault leaves what is there as it was. The limit counts octets and not characters, and it counts
the zero.
-/

namespace Smpp

namespace Cursor

/-- The cursor so many octets further on. -/
def advance (c : Cursor) (n : Nat) : Cursor := { c with place := c.place + n }

/-- Reads on from the place of a cursor. The cursor moves over what is taken off. -/
def run {α : Type} (c : Cursor) (r : Reader α) : Except WireError α × Cursor :=
  match r c.rest with
  | .ok a left => (.ok a, c.advance (c.rest.length - left.length))
  | .error e left => (.error e, c.advance (c.rest.length - left.length))

variable {α : Type} {c c' : Cursor} {r : Reader α}

@[simp] theorem advance_zero (c : Cursor) : c.advance 0 = c := rfl

/-- What is behind the octets before a place. -/
theorem rest_append_left (before rest : Octets) :
    Cursor.rest ⟨before ++ rest, before.length⟩ = rest :=
  List.drop_left

/-- A reader succeeds at a cursor exactly if it does on what is left. -/
theorem run_eq_ok_iff {a : α} :
    c.run r = (.ok a, c') ↔
      ∃ left, r c.rest = .ok a left ∧ c' = c.advance (c.rest.length - left.length) := by
  unfold run
  constructor
  · intro h
    cases hread : r c.rest with
    | ok a' left =>
      rw [hread] at h
      cases h
      exact ⟨left, rfl, rfl⟩
    | error e left =>
      rw [hread] at h
      cases h
  · rintro ⟨left, hread, rfl⟩
    rw [hread]

/-- A reader that takes nothing off where it fails leaves a cursor where it was. -/
theorem run_eq_error_iff (hstays : ∀ {bs left : Octets} {e : WireError},
    r bs = .error e left → left = bs) {e : WireError} :
    c.run r = (.error e, c') ↔ r c.rest = .error e c.rest ∧ c' = c := by
  unfold run
  constructor
  · intro h
    cases hread : r c.rest with
    | ok a left =>
      rw [hread] at h
      cases h
    | error e' left =>
      obtain rfl := hstays hread
      rw [hread] at h
      cases h
      rw [Nat.sub_self]
      exact ⟨rfl, rfl⟩
  · rintro ⟨hread, rfl⟩
    rw [hread]
    dsimp only
    rw [Nat.sub_self, advance_zero]

end Cursor

namespace Field

/-! ### The first zero -/

/-- The first zero of octets stands behind so many others. -/
def FirstZero (bs : Octets) (k : Nat) : Prop := bs[k]? = some 0 ∧ 0 ∉ bs.take k

section FirstZero

variable {limit k : Nat} {field text : String} {bs left : Octets} {e : WireError}

/-- The octets before the first zero, and those behind it. -/
theorem FirstZero.eq_append (h : FirstZero bs k) : bs = bs.take k ++ 0 :: bs.drop (k + 1) := by
  obtain ⟨hk, hzero⟩ := List.getElem?_eq_some_iff.1 h.1
  calc bs = bs.take k ++ bs.drop k := (List.take_append_drop k bs).symm
    _ = bs.take k ++ 0 :: bs.drop (k + 1) := by rw [List.drop_eq_getElem_cons hk, hzero]

theorem FirstZero.length_take (h : FirstZero bs k) : (bs.take k).length = k := by
  obtain ⟨hk, -⟩ := List.getElem?_eq_some_iff.1 h.1
  exact List.length_take_of_le (Nat.le_of_lt hk)

theorem firstZero_append {content : Octets} (h : 0 ∉ content) (rest : Octets) :
    FirstZero (content ++ 0 :: rest) content.length := by
  refine ⟨?_, ?_⟩
  · rw [List.getElem?_append_right (Nat.le_refl _), Nat.sub_self]
    rfl
  · rwa [List.take_left]

/-- A window holds no zero exactly if none of its octets is one. -/
theorem zero_notMem_take_iff :
    0 ∉ bs.take limit ↔ ∀ k < min bs.length limit, bs[k]? ≠ some 0 := by
  constructor
  · intro h k hk hzero
    refine h (List.mem_of_getElem? (i := k) ?_)
    rw [List.getElem?_take_of_lt (by omega)]
    exact hzero
  · intro h hzero
    obtain ⟨k, hk, heq⟩ := List.mem_take_iff_getElem.1 hzero
    refine h k (by omega) ?_
    rw [List.getElem?_eq_getElem (by omega), heq]

/-! ### Reading -/

/-- **What is read as a text** is what comes before the first zero, if that is in the window. -/
theorem cstring_eq_ok_iff_firstZero :
    cstring limit field bs = .ok text left ↔
      (∃ k < min bs.length limit, FirstZero bs k ∧ bs.take k = Utf8.encode text) ∧
        left = bs.drop ((Utf8.encode text).length + 1) := by
  rw [cstring_eq_ok_iff]
  constructor
  · rintro ⟨hfits, rfl⟩
    -- The written form is cut open in front of its zero.
    have hsplit : terminated text ++ left = Utf8.encode text ++ 0 :: left := by
      rw [terminated, List.append_assoc, List.singleton_append]
    have hopen : 0 ∉ Utf8.encode text := forall_isText_iff.1 hfits.isText
    refine ⟨⟨(Utf8.encode text).length, ?_, ?_, ?_⟩, ?_⟩
    · have hlimit := hfits.length_lt
      rw [List.length_append, length_terminated]
      omega
    · rw [hsplit]
      exact firstZero_append hopen left
    · rw [hsplit, List.take_left]
    · rw [← length_terminated, List.drop_left]
  · rintro ⟨⟨k, hk, hzero, htext⟩, rfl⟩
    have hlength : (Utf8.encode text).length = k := by rw [← htext, hzero.length_take]
    refine ⟨⟨by omega, ?_⟩, ?_⟩
    · rw [← htext]
      exact forall_isText_iff.2 hzero.2
    · rw [terminated, List.append_assoc, List.singleton_append, hlength, ← htext]
      exact hzero.eq_append

/-- **Without a zero in the window** it depends on what ended the window whether the field is
absent or too long. -/
theorem cstring_of_no_zero (h : ∀ k < min bs.length limit, bs[k]? ≠ some 0) :
    cstring limit field bs =
      .error (if bs.length < limit then .missing field else .invalid field (.unterminated limit))
        bs := by
  have hopen : 0 ∉ bs.take limit := zero_notMem_take_iff.2 h
  refine cstring_of_refuses ?_
  split
  · next hshort =>
    rw [List.take_of_length_le (Nat.le_of_lt hshort)] at hopen
    exact .unfinished hopen hshort
  · next hlong => exact .unterminated hopen (Nat.le_of_not_lt hlong)

/-- **Where the octets before the zero are no text**, the fault is theirs. -/
theorem cstring_of_not_text (hk : k < min bs.length limit) (hzero : FirstZero bs k)
    (h : ∀ text, bs.take k ≠ Utf8.encode text) :
    ∃ fault, Utf8.decode (bs.take k) = .error fault ∧
      cstring limit field bs = .error (.notText field fault) bs := by
  cases hdecode : Utf8.decode (bs.take k) with
  | ok text => exact absurd (Utf8.decode_eq_ok_iff.1 hdecode) (h text)
  | error fault =>
    refine ⟨fault, rfl, cstring_of_refuses ?_⟩
    have hlength := hzero.length_take
    rw [hzero.eq_append]
    exact .notText (by omega) hzero.2 (not_isValidUTF8_of_decode hdecode) hdecode

end FirstZero

/-! ### Writing -/

section Write

variable {limit : Nat} {field text : String} {buffer written : Octets} {e : WireError} {u : Unit}

/-- **A text is written** exactly if it fits, and then behind what is there. -/
theorem write_eq_ok_iff :
    write limit field text buffer = .ok u written ↔
      Fits limit text ∧ written = buffer ++ terminated text := by
  unfold write Writer.attempt
  cases hfield : ofText limit field text with
  | ok bs =>
    obtain ⟨hfits, rfl⟩ := ofText_eq_ok_iff.1 hfield
    simp [hfits, eq_comm]
  | error e' =>
    refine iff_of_false (fun h => nomatch h) ?_
    rintro ⟨hfits, -⟩
    cases hfield.symm.trans (ofText_eq_ok_iff.2 ⟨hfits, rfl⟩)

/-- **A text is refused** for its length, or else for a zero in it, and nothing is written. -/
theorem write_eq_error_iff :
    write limit field text buffer = .error e written ↔
      written = buffer ∧
        (limit ≤ (Utf8.encode text).length ∧
            e = .invalid field (.tooLong (Utf8.encode text).length (limit - 1)) ∨
          (Utf8.encode text).length < limit ∧ '\x00' ∈ text.toList ∧
            e = .invalid field .embeddedNul) := by
  have hzero : (Utf8.encode text).contains 0 = true ↔ '\x00' ∈ text.toList := by
    rw [List.contains_iff_mem, Utf8.zero_mem_encode_iff]
  -- The length is looked at first, so a text that is too long as well as faulty is too long.
  unfold write Writer.attempt ofText
  dsimp only
  by_cases hlong : limit ≤ (Utf8.encode text).length
  · rw [if_pos hlong]
    constructor
    · rintro ⟨⟩
      exact ⟨rfl, .inl ⟨hlong, rfl⟩⟩
    · rintro ⟨rfl, ⟨-, rfl⟩ | ⟨hshort, -⟩⟩
      · rfl
      · exact absurd hlong (Nat.not_le.2 hshort)
  · rw [if_neg hlong]
    by_cases hin : '\x00' ∈ text.toList
    · rw [if_pos (hzero.2 hin)]
      constructor
      · rintro ⟨⟩
        exact ⟨rfl, .inr ⟨Nat.lt_of_not_le hlong, hin, rfl⟩⟩
      · rintro ⟨rfl, ⟨hlong', -⟩ | ⟨-, -, rfl⟩⟩
        · exact absurd hlong' hlong
        · rfl
    · rw [if_neg fun h => hin (hzero.1 h)]
      refine iff_of_false (fun h => nomatch h) ?_
      rintro ⟨-, ⟨hlong', -⟩ | ⟨-, hin', -⟩⟩
      · exact hlong hlong'
      · exact hin hin'

end Write

/-! ### At a cursor -/

section Run

variable {limit : Nat} {field text : String} {c c' : Cursor} {e : WireError}

/-- **A text read at a cursor** moves it behind the first zero. -/
theorem run_cstring_eq_ok_iff :
    c.run (cstring limit field) = (.ok text, c') ↔
      (∃ k < min c.rest.length limit, FirstZero c.rest k ∧ c.rest.take k = Utf8.encode text) ∧
        c' = c.advance ((Utf8.encode text).length + 1) := by
  rw [Cursor.run_eq_ok_iff]
  -- The place of the zero says how much is taken off.
  have htaken (h : ∃ k < min c.rest.length limit,
      FirstZero c.rest k ∧ c.rest.take k = Utf8.encode text) :
      c.rest.length - (c.rest.drop ((Utf8.encode text).length + 1)).length =
        (Utf8.encode text).length + 1 := by
    obtain ⟨k, hk, hzero, htext⟩ := h
    have hlength : (Utf8.encode text).length = k := by rw [← htext, hzero.length_take]
    rw [List.length_drop]
    omega
  constructor
  · rintro ⟨left, hread, rfl⟩
    obtain ⟨hfound, rfl⟩ := cstring_eq_ok_iff_firstZero.1 hread
    exact ⟨hfound, by rw [htaken hfound]⟩
  · rintro ⟨hfound, rfl⟩
    exact ⟨_, cstring_eq_ok_iff_firstZero.2 ⟨hfound, rfl⟩, by rw [htaken hfound]⟩

/-- **A fault leaves the cursor where it was.** -/
theorem run_cstring_eq_error_iff :
    c.run (cstring limit field) = (.error e, c') ↔
      cstring limit field c.rest = .error e c.rest ∧ c' = c :=
  Cursor.run_eq_error_iff fun h => (cstring_eq_error_iff.1 h).2

end Run

/-- **Texts on the wire**, for every field, every limit that has room for a zero, and every cursor,
wherever it stands:

* a text is read, and the cursor moves behind its zero, exactly if there is a zero in the window
  (what is left, up to the limit) and the octets before the first one are the text;
* without a zero in the window the field is absent if less is left than the limit, and too long
  otherwise;
* with one, octets that are no text are reported as such;
* whatever the fault, the cursor has not moved;
* a text is written exactly if it has fewer octets than the limit and no zero; otherwise nothing is
  written;
* what was written is read back from where it was written, whatever follows it, and the cursor then
  stands at what follows. -/
theorem texts_read_back (room : Nat) (field : String) (c : Cursor) :
    let limit := room + 1
    (∀ (c' : Cursor) (text : String),
      c.run (cstring limit field) = (.ok text, c') ↔
        (∃ k < min c.rest.length limit, FirstZero c.rest k ∧ c.rest.take k = Utf8.encode text) ∧
          c' = c.advance ((Utf8.encode text).length + 1)) ∧
    ((∀ k < min c.rest.length limit, c.rest[k]? ≠ some 0) →
      c.run (cstring limit field) =
        (.error (if c.rest.length < limit then .missing field
          else .invalid field (.unterminated limit)), c)) ∧
    (∀ k < min c.rest.length limit, FirstZero c.rest k →
      (∀ text, c.rest.take k ≠ Utf8.encode text) →
        ∃ fault, Utf8.decode (c.rest.take k) = .error fault ∧
          c.run (cstring limit field) = (.error (.notText field fault), c)) ∧
    (∀ (c' : Cursor) (e : WireError), c.run (cstring limit field) = (.error e, c') → c' = c) ∧
    (∀ (text : String) (buffer : Octets),
      ((∃ written, write limit field text buffer = .ok () written) ↔
        (Utf8.encode text).length < limit ∧ '\x00' ∉ text.toList) ∧
      (∀ e written, write limit field text buffer = .error e written →
        written = buffer ∧
          e = if (Utf8.encode text).length < limit then .invalid field .embeddedNul
            else .invalid field (.tooLong (Utf8.encode text).length room)) ∧
      (∀ written, write limit field text buffer = .ok () written →
        written = buffer ++ (Utf8.encode text ++ [0]) ∧
          ∀ rest, Cursor.run ⟨written ++ rest, buffer.length⟩ (cstring limit field) =
            (.ok text, ⟨written ++ rest, written.length⟩))) := by
  intro limit
  refine ⟨fun c' text => run_cstring_eq_ok_iff, fun h => ?_, fun k hk hzero h => ?_,
    fun c' e h => (run_cstring_eq_error_iff.1 h).2, fun text buffer => ⟨?_, ?_, ?_⟩⟩
  · exact run_cstring_eq_error_iff.2 ⟨cstring_of_no_zero h, rfl⟩
  · obtain ⟨fault, hfault, hread⟩ := cstring_of_not_text hk hzero h
    exact ⟨fault, hfault, run_cstring_eq_error_iff.2 ⟨hread, rfl⟩⟩
  · rw [← fits_iff]
    exact ⟨fun ⟨_, h⟩ => (write_eq_ok_iff.1 h).1, fun h => ⟨_, write_eq_ok_iff.2 ⟨h, rfl⟩⟩⟩
  · intro e written h
    obtain ⟨rfl, ⟨hlong, rfl⟩ | ⟨hshort, -, rfl⟩⟩ := write_eq_error_iff.1 h
    · exact ⟨rfl, (if_neg (Nat.not_lt.2 hlong)).symm⟩
    · exact ⟨rfl, (if_pos hshort).symm⟩
  · intro written h
    obtain ⟨hfits, rfl⟩ := write_eq_ok_iff.1 h
    refine ⟨rfl, fun rest => ?_⟩
    -- What is left at the place where the text was written is the text and what follows it.
    have hrest : Cursor.rest ⟨buffer ++ terminated text ++ rest, buffer.length⟩ =
        terminated text ++ rest := by
      rw [List.append_assoc, Cursor.rest_append_left]
    have hread : cstring limit field (terminated text ++ rest) = .ok text rest :=
      cstring_terminated_append hfits rest
    refine Cursor.run_eq_ok_iff.2 ⟨rest, ?_, ?_⟩
    · rw [hrest, hread]
    · rw [hrest, Cursor.advance, List.length_append, List.length_append, Nat.add_sub_cancel]

end Field

end Smpp
