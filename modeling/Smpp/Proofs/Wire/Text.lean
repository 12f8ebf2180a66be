import Mathlib
import Smpp.Text.Utf8

/-!
# Texts and their octets

`Utf8.encode` and `Utf8.decode` are inverse to each other: octets are read as a text exactly if they
are the text's written form (`decode_eq_ok_iff`). So a text has one written form, and octets stand
for at most one text.

The work is done for one character. `start_encodeChar` reads back what `encodeChar` wrote, whatever
follows; `eq_encodeChar_of_start` says that what `start` accepts was written by `encodeChar`. The
second of the two is where the narrowed second octets matter: without them an overlong form, a
surrogate or a number past the last character would be read as a character that is written
otherwise.

These octets are UTF-8 as the core library knows it: `encode_eq` says so of the octets of a text,
and `exists_eq_encode_iff` of the octets that are read as one.
-/

namespace Smpp.Utf8

/-! ### Characters and their numbers -/

/-- The number of a character is below the surrogates or above them. -/
theorem toNat_bounds (c : Char) :
    c.toNat < 0xD800 ∨ (0xDFFF < c.toNat ∧ c.toNat < 0x110000) := c.valid

/-- The character of a number that belongs to one has that number. -/
theorem toNat_ofNat {n : Nat} (h : n < 0xD800 ∨ (0xDFFF < n ∧ n < 0x110000)) :
    (Char.ofNat n).toNat = n := by
  have hvalid : n.isValidChar := h
  rw [Char.ofNat, dif_pos hvalid]
  rfl

theorem ofNat_eq {b : UInt8} {n : Nat} (h : b.toNat = n) : UInt8.ofNat n = b := by
  rw [← h, UInt8.ofNat_toNat]

/-! ### Octets that continue a character -/

theorem toNat_tail (n : Nat) : (tail n).toNat = 0x80 + n % 64 := by
  simp only [tail, UInt8.toNat_ofNat']
  omega

theorem tail_eq {b : UInt8} {n : Nat} (h : b.toNat = 0x80 + n % 64) : tail n = b := ofNat_eq h

theorem isTail_iff {b : UInt8} :
    isTail b = true ↔ b.toNat = 0x80 + tailBits b ∧ tailBits b < 64 := by
  simp only [isTail, Bool.and_eq_true, decide_eq_true_eq]
  unfold tailBits
  omega

@[simp] theorem isTail_tail (n : Nat) : isTail (tail n) = true := by
  simp only [isTail, toNat_tail, Bool.and_eq_true, decide_eq_true_eq]
  omega

@[simp] theorem tailBits_tail (n : Nat) : tailBits (tail n) = n % 64 := by
  unfold tailBits
  rw [toNat_tail]
  omega

/-! ### The four widths -/

section Widths

variable {n : Nat} {a b c d : UInt8}

theorem encodeChar_one (h : n < 0x80) (ha : a.toNat = n) : encodeChar (Char.ofNat n) = [a] := by
  have hnat := toNat_ofNat (n := n) (by omega)
  simp only [encodeChar, hnat, if_pos h, ofNat_eq ha]

theorem encodeChar_two (h₁ : 0x80 ≤ n) (h₂ : n < 0x800) (ha : a.toNat = 0xC0 + n / 64)
    (hb : b.toNat = 0x80 + n % 64) : encodeChar (Char.ofNat n) = [a, b] := by
  have hnat := toNat_ofNat (n := n) (by omega)
  simp only [encodeChar, hnat, if_neg (Nat.not_lt.2 h₁), if_pos h₂, ofNat_eq ha, tail_eq hb]

theorem encodeChar_three (h₁ : 0x800 ≤ n) (h₂ : n < 0x10000) (hvalid : n < 0xD800 ∨ 0xDFFF < n)
    (ha : a.toNat = 0xE0 + n / 4096) (hb : b.toNat = 0x80 + n / 64 % 64)
    (hc : c.toNat = 0x80 + n % 64) : encodeChar (Char.ofNat n) = [a, b, c] := by
  have hnat := toNat_ofNat (n := n) (by omega)
  have h : ¬ n < 0x80 := by omega
  simp only [encodeChar, hnat, if_neg h, if_neg (Nat.not_lt.2 h₁), if_pos h₂, ofNat_eq ha,
    tail_eq hb, tail_eq hc]

theorem encodeChar_four (h₁ : 0x10000 ≤ n) (h₂ : n < 0x110000) (ha : a.toNat = 0xF0 + n / 262144)
    (hb : b.toNat = 0x80 + n / 4096 % 64) (hc : c.toNat = 0x80 + n / 64 % 64)
    (hd : d.toNat = 0x80 + n % 64) : encodeChar (Char.ofNat n) = [a, b, c, d] := by
  have hnat := toNat_ofNat (n := n) (by omega)
  have h : ¬ n < 0x80 := by omega
  have h' : ¬ n < 0x800 := by omega
  simp only [encodeChar, hnat, if_neg h, if_neg h', if_neg (Nat.not_lt.2 h₁), ofNat_eq ha,
    tail_eq hb, tail_eq hc, tail_eq hd]

end Widths

/-! ### One character -/

/-- **A written character reads back as itself**, whatever follows it. -/
theorem start_encodeChar (c : Char) (rest : Octets) :
    ∃ lead octets, encodeChar c = lead :: octets ∧
      start lead (octets ++ rest) = .char c (encodeChar c).length rest := by
  -- By the number of octets that the scalar value takes. The lead says how many there are, and the
  -- bits of the lead and the tails put together are the value again; the conditions on the second
  -- octet of three and of four are what the bounds on a scalar value come to.
  have hbounds := toNat_bounds c
  rw [← Char.ofNat_toNat c]
  generalize c.toNat = n at hbounds
  by_cases h₁ : n < 0x80
  · have hlead : (UInt8.ofNat n).toNat = n := by
      rw [UInt8.toNat_ofNat']
      omega
    rw [encodeChar_one h₁ hlead]
    refine ⟨_, _, rfl, ?_⟩
    simp only [start, hlead, if_pos h₁, List.nil_append, List.length_singleton]
  by_cases h₂ : n < 0x800
  · have hlead : (UInt8.ofNat (0xC0 + n / 64)).toNat = 0xC0 + n / 64 := by
      rw [UInt8.toNat_ofNat']
      omega
    have hn : (0xC0 + n / 64 - 0xC0) * 64 + n % 64 = n := by omega
    rw [encodeChar_two (by omega) h₂ hlead (toNat_tail n)]
    refine ⟨_, _, rfl, ?_⟩
    simp only [start, hlead, List.cons_append, List.nil_append, isTail_tail, tailBits_tail, hn,
      if_true, List.length_cons, List.length_nil]
    rw [if_neg (by omega), if_neg (by omega), if_pos (by omega)]
  by_cases h₃ : n < 0x10000
  · have hlead : (UInt8.ofNat (0xE0 + n / 4096)).toNat = 0xE0 + n / 4096 := by
      rw [UInt8.toNat_ofNat']
      omega
    -- Not overlong, and no surrogate.
    have hsecond : isSecondOfThree (UInt8.ofNat (0xE0 + n / 4096)) (tail (n / 64)) = true := by
      simp only [isSecondOfThree, isTail_tail, hlead, toNat_tail, Bool.true_and, Bool.and_eq_true,
        Bool.or_eq_true, bne_iff_ne, decide_eq_true_eq]
      omega
    have hn : (0xE0 + n / 4096 - 0xE0) * 4096 + n / 64 % 64 * 64 + n % 64 = n := by omega
    rw [encodeChar_three (by omega) h₃ (by omega) hlead (toNat_tail _) (toNat_tail n)]
    refine ⟨_, _, rfl, ?_⟩
    simp only [start, hlead, List.cons_append, List.nil_append, hsecond, isTail_tail,
      tailBits_tail, hn, if_true, Bool.not_true, Bool.false_eq_true, if_false, List.length_cons,
      List.length_nil]
    rw [if_neg (by omega), if_neg (by omega), if_neg (by omega), if_pos (by omega)]
  · have hlead : (UInt8.ofNat (0xF0 + n / 262144)).toNat = 0xF0 + n / 262144 := by
      rw [UInt8.toNat_ofNat']
      omega
    -- Not overlong, and not past the last plane.
    have hsecond : isSecondOfFour (UInt8.ofNat (0xF0 + n / 262144)) (tail (n / 4096)) = true := by
      simp only [isSecondOfFour, isTail_tail, hlead, toNat_tail, Bool.true_and, Bool.and_eq_true,
        Bool.or_eq_true, bne_iff_ne, decide_eq_true_eq]
      omega
    have hn : (0xF0 + n / 262144 - 0xF0) * 262144 +
        (n / 4096 % 64 * 4096 + n / 64 % 64 * 64 + n % 64) = n := by omega
    rw [encodeChar_four (by omega) (by omega) hlead (toNat_tail _) (toNat_tail _) (toNat_tail n)]
    refine ⟨_, _, rfl, ?_⟩
    simp only [start, hlead, List.cons_append, List.nil_append, hsecond, isTail_tail,
      tailBits_tail, hn, if_true, Bool.not_true, Bool.false_eq_true, if_false, List.length_cons,
      List.length_nil]
    rw [if_neg (by omega), if_neg (by omega), if_neg (by omega), if_neg (by omega),
      if_pos (by omega)]

/-- **What is read as a character is its written form**: the octets that were read are those that
`encodeChar` writes, and as many. -/
theorem eq_encodeChar_of_start {lead : UInt8} {rest left : Octets} {c : Char} {size : Nat}
    (h : start lead rest = .char c size left) :
    lead :: rest = encodeChar c ++ left ∧ size = (encodeChar c).length := by
  simp only [start] at h
  split at h
  · next hlead =>
    simp only [Start.char.injEq] at h
    obtain ⟨rfl, rfl, rfl⟩ := h
    rw [encodeChar_one hlead rfl]
    exact ⟨rfl, rfl⟩
  split at h
  · cases h
  split at h
  · cases rest with
    | nil => cases h
    | cons b rest =>
      simp only at h
      split at h
      · next hb =>
        simp only [Start.char.injEq] at h
        obtain ⟨rfl, rfl, rfl⟩ := h
        obtain ⟨hb, hb'⟩ := isTail_iff.1 hb
        rw [encodeChar_two (a := lead) (b := b) (by omega) (by omega) (by omega) (by omega)]
        exact ⟨rfl, rfl⟩
      · cases h
  split at h
  · cases rest with
    | nil => cases h
    | cons b rest =>
      simp only at h
      split at h
      · cases h
      next hsecond =>
      -- After `E0` the second octet keeps the number above two octets' reach, and after `ED` it
      -- keeps it below the surrogates.
      simp only [isSecondOfThree, Bool.not_eq_true', Bool.not_eq_false, Bool.and_eq_true,
        Bool.or_eq_true, bne_iff_ne, decide_eq_true_eq] at hsecond
      obtain ⟨⟨hb, hE0⟩, hED⟩ := hsecond
      obtain ⟨hb, hb'⟩ := isTail_iff.1 hb
      cases rest with
      | nil => cases h
      | cons c rest =>
        simp only at h
        split at h
        · next hc =>
          simp only [Start.char.injEq] at h
          obtain ⟨rfl, rfl, rfl⟩ := h
          obtain ⟨hc, hc'⟩ := isTail_iff.1 hc
          rw [encodeChar_three (a := lead) (b := b) (c := c) (by omega) (by omega) (by omega)
            (by omega) (by omega) (by omega)]
          exact ⟨rfl, rfl⟩
        · cases h
  split at h
  · cases rest with
    | nil => cases h
    | cons b rest =>
      simp only at h
      split at h
      · cases h
      next hsecond =>
      -- After `F0` the number is above three octets' reach, and after `F4` no larger than the
      -- last character's.
      simp only [isSecondOfFour, Bool.not_eq_true', Bool.not_eq_false, Bool.and_eq_true,
        Bool.or_eq_true, bne_iff_ne, decide_eq_true_eq] at hsecond
      obtain ⟨⟨hb, hF0⟩, hF4⟩ := hsecond
      obtain ⟨hb, hb'⟩ := isTail_iff.1 hb
      cases rest with
      | nil => cases h
      | cons c rest =>
        simp only at h
        split at h
        · cases h
        next hc =>
        simp only [Bool.not_eq_true', Bool.not_eq_false] at hc
        obtain ⟨hc, hc'⟩ := isTail_iff.1 hc
        cases rest with
        | nil => cases h
        | cons d rest =>
          simp only at h
          split at h
          · next hd =>
            simp only [Start.char.injEq] at h
            obtain ⟨rfl, rfl, rfl⟩ := h
            obtain ⟨hd, hd'⟩ := isTail_iff.1 hd
            rw [encodeChar_four (a := lead) (b := b) (c := c) (d := d) (by omega) (by omega)
              (by omega) (by omega) (by omega) (by omega)]
            exact ⟨rfl, rfl⟩
          · cases h
  · cases h

/-! ### Whole texts -/

/-- Reading goes on after a character. -/
theorem decodeFrom_of_start {lead : UInt8} {rest left : Octets} {c : Char} {size : Nat}
    (h : start lead rest = .char c size left) (offset : Nat) :
    decodeFrom offset (lead :: rest) = (decodeFrom (offset + size) left).map (c :: ·) := by
  rw [decodeFrom]
  split
  · next h' =>
    rw [h] at h'
    cases h'
    cases decodeFrom (offset + size) left <;> rfl
  · next h' =>
    rw [h] at h'
    cases h'
  · next h' =>
    rw [h] at h'
    cases h'

/-- **Written characters read back as themselves**, wherever they start. -/
theorem decodeFrom_flatMap (cs : List Char) (offset : Nat) :
    decodeFrom offset (cs.flatMap encodeChar) = .ok cs := by
  induction cs generalizing offset with
  | nil => rw [List.flatMap_nil, decodeFrom]
  | cons c cs ih =>
    obtain ⟨lead, octets, hc, hstart⟩ := start_encodeChar c (cs.flatMap encodeChar)
    have h := decodeFrom_of_start hstart offset
    rw [List.flatMap_cons, hc, List.cons_append, h, ih]
    rfl

/-- **What is read as characters is their written form.** -/
theorem eq_flatMap_of_decodeFrom {offset : Nat} {bs : Octets} {cs : List Char}
    (h : decodeFrom offset bs = .ok cs) : bs = cs.flatMap encodeChar := by
  -- Along the recursion of `decodeFrom`; the three cases that end in a fault contradict `h`.
  induction offset, bs using decodeFrom.induct generalizing cs with
  | case1 offset =>
    rw [decodeFrom] at h
    cases h
    rfl
  | case2 offset lead rest c size left hstart cs' hcs ih =>
    rw [decodeFrom_of_start hstart, hcs] at h
    cases h
    rw [(eq_encodeChar_of_start hstart).1, List.flatMap_cons, ← ih hcs]
  | case3 offset lead rest c size left hstart fault hfault ih =>
    rw [decodeFrom_of_start hstart, hfault] at h
    cases h
  | case4 offset lead rest size hstart =>
    rw [decodeFrom] at h
    split at h
    · next h' =>
      rw [hstart] at h'
      cases h'
    · cases h
    · cases h
  | case5 offset lead rest hstart =>
    rw [decodeFrom] at h
    split at h
    · next h' =>
      rw [hstart] at h'
      cases h'
    · cases h
    · cases h

/-- **Octets are read as a text exactly if they are its written form.** -/
theorem decode_eq_ok_iff {bs : Octets} {s : String} : decode bs = .ok s ↔ bs = encode s := by
  refine ⟨?_, ?_⟩
  · intro h
    unfold decode at h
    cases hcs : decodeFrom 0 bs with
    | error fault =>
      rw [hcs] at h
      cases h
    | ok cs =>
      rw [hcs] at h
      cases h
      rw [encode, String.toList_ofList]
      exact eq_flatMap_of_decodeFrom hcs
  · rintro rfl
    rw [decode, encode, decodeFrom_flatMap]
    exact congrArg Except.ok String.ofList_toList

/-! ### Zeros -/

/-- Only one character is written with a zero. -/
theorem zero_mem_encodeChar_iff (c : Char) : 0 ∈ encodeChar c ↔ c = '\x00' := by
  have hbounds := toNat_bounds c
  have hzero (n : Nat) : (0 : UInt8) = UInt8.ofNat n ↔ n % 256 = 0 := by
    rw [← UInt8.toNat_inj, UInt8.toNat_ofNat', eq_comm]
    rfl
  have htail (n : Nat) : (0 : UInt8) ≠ tail n := by
    rw [ne_eq, ← UInt8.toNat_inj, toNat_tail]
    change ¬ 0 = _
    omega
  have hnumber : c = '\x00' ↔ c.toNat = 0 :=
    ⟨fun h => by rw [h]; rfl, fun h => Char.toNat_inj.1 (h.trans rfl)⟩
  -- The first octet of a longer form is far from zero, and so is every octet after it.
  rw [hnumber]
  unfold encodeChar
  dsimp only
  split
  · rw [List.mem_singleton, hzero]
    omega
  split
  · simp only [List.mem_cons, List.not_mem_nil, hzero, htail, or_false]
    omega
  split
  · simp only [List.mem_cons, List.not_mem_nil, hzero, htail, or_false]
    omega
  · simp only [List.mem_cons, List.not_mem_nil, hzero, htail, or_false]
    omega

/-- **A text is written with a zero exactly if it has the character for it.** -/
theorem zero_mem_encode_iff (s : String) : 0 ∈ encode s ↔ '\x00' ∈ s.toList := by
  unfold encode
  simp only [List.mem_flatMap, zero_mem_encodeChar_iff, exists_eq_right]

/-! ### The octets of the core library -/

/-- A character has the octets that the core library gives it. -/
theorem encodeChar_eq (c : Char) : encodeChar c = String.utf8EncodeChar c := by
  have hbounds := toNat_bounds c
  have hnat : c.val.toNat = c.toNat := rfl
  unfold encodeChar String.utf8EncodeChar tail
  dsimp only
  rw [hnat]
  generalize c.toNat = n at hbounds
  -- The bounds of the four widths are written differently, and so are the bits of the first octet.
  split
  · rw [if_pos (by omega)]
  split
  · rw [if_neg (by omega), if_pos (by omega), Nat.mod_eq_of_lt (by omega : n / 64 < 32),
      Nat.add_comm 0xC0, Nat.add_comm 0x80]
  split
  · rw [if_neg (by omega), if_neg (by omega), if_pos (by omega),
      Nat.mod_eq_of_lt (by omega : n / 4096 < 16), Nat.add_comm 0xE0, Nat.add_comm 0x80,
      Nat.add_comm 0x80]
  · rw [if_neg (by omega), if_neg (by omega), if_neg (by omega),
      Nat.mod_eq_of_lt (by omega : n / 262144 < 8), Nat.add_comm 0xF0, Nat.add_comm 0x80,
      Nat.add_comm 0x80, Nat.add_comm 0x80]

/-- **A text has the octets that the core library gives it.** -/
theorem encode_eq (s : String) : encode s = s.toByteArray.data.toList := by
  have hchars : s.toList.flatMap encodeChar = s.toList.flatMap String.utf8EncodeChar :=
    congrArg (List.flatMap · s.toList) (funext encodeChar_eq)
  rw [encode, hchars, ← String.ofList_toList (s := s), String.toByteArray_ofList,
    String.toList_ofList, List.utf8Encode, List.data_toByteArray]

theorem length_encode (s : String) : (encode s).length = s.utf8ByteSize := by
  rw [encode_eq]
  rfl

/-- **Octets are those of a text exactly if the core library takes them for one.** -/
theorem exists_eq_encode_iff {bs : Octets} :
    (∃ s : String, bs = encode s) ↔ bs.toByteArray.IsValidUTF8 := by
  constructor
  · rintro ⟨s, rfl⟩
    have hbytes : (encode s).toByteArray = s.toByteArray := by
      apply ByteArray.ext
      rw [List.data_toByteArray, encode_eq]
    rw [hbytes]
    exact s.isValidUTF8
  · intro h
    refine ⟨⟨bs.toByteArray, h⟩, ?_⟩
    rw [encode_eq, List.data_toByteArray]

end Smpp.Utf8
