import Mathlib
import Smpp.Text.Numeral

/-!
# Numerals read back

What the digits of a number say about it, by induction along `Numeral.digits`, which splits off the
last digit: they are digits of the radix (`mem_digits`), their value is the number
(`value_digits`), there are no more of them than a bound on the number admits
(`length_digits_le`), and none of them is a zero in front (`head?_digits_ne_zero`).

`read_decimal` is the first consequence: the decimal numeral of a number is read as that number, up
to the largest that fits.
-/

namespace Smpp.Numeral

variable {radix n : Nat}

/-! ### Digits -/

/-- The digit of a value is read as that value. -/
theorem digit?_digitChar {d : Nat} (hradix : radix ≤ 16) (h : d < radix) :
    digit? radix (digitChar d) = some d := by
  have hall : ∀ d < 16, digit? 16 (digitChar d) = some d := by decide
  have hsixteen := hall d (Nat.lt_of_lt_of_le h hradix)
  unfold digit? at hsixteen ⊢
  rw [Option.filter_eq_some_iff] at hsixteen ⊢
  exact ⟨hsixteen.1, decide_eq_true h⟩

/-- What is no digit in the largest radix is none in any. -/
theorem digit?_eq_none {c : Char} (hradix : radix ≤ 16) (h : digit? 16 c = none) :
    digit? radix c = none := by
  unfold digit? at h ⊢
  rw [Option.filter_eq_none_iff] at h ⊢
  intro d hd hlt
  have hsmall : d < radix := of_decide_eq_true hlt
  exact h d hd (decide_eq_true (Nat.lt_of_lt_of_le hsmall hradix))

/-- **The digits of a number** are one digit, or those of its quotient and one more. -/
theorem digits_cases (hradix : 2 ≤ radix) (n : Nat) :
    n < radix ∧ digits radix n = [digitChar n] ∨
      radix ≤ n ∧ digits radix n = digits radix (n / radix) ++ [digitChar (n % radix)] := by
  rw [digits]
  split
  · next h =>
    have hlt : n < radix := h.resolve_left (Nat.not_le.2 hradix)
    exact .inl ⟨hlt, rfl⟩
  · next h =>
    rw [not_or] at h
    exact .inr ⟨Nat.le_of_not_lt h.2, rfl⟩

/-- The induction along the digits of a number. -/
theorem digits_induction (hradix : 2 ≤ radix) {p : Nat → List Char → Prop}
    (hone : ∀ n < radix, p n [digitChar n])
    (hmore : ∀ n, radix ≤ n → p (n / radix) (digits radix (n / radix)) →
      p n (digits radix (n / radix) ++ [digitChar (n % radix)])) (n : Nat) :
    p n (digits radix n) := by
  induction n using Nat.strongRecOn with
  | ind n ih =>
    obtain ⟨hlt, heq⟩ | ⟨hle, heq⟩ := digits_cases hradix n
    · rw [heq]
      exact hone n hlt
    · rw [heq]
      exact hmore n hle (ih _ (Nat.div_lt_self (by omega) hradix))

theorem digits_ne_nil (hradix : 2 ≤ radix) (n : Nat) : digits radix n ≠ [] := by
  obtain ⟨-, heq⟩ | ⟨-, heq⟩ := digits_cases hradix n
  · rw [heq]
    exact List.cons_ne_nil _ _
  · rw [heq]
    exact List.append_ne_nil_of_right_ne_nil _ (List.cons_ne_nil _ _)

/-- The characters of a number are digits of its radix. -/
theorem mem_digits (hradix : 2 ≤ radix) {c : Char} (hc : c ∈ digits radix n) :
    ∃ d < radix, c = digitChar d := by
  refine digits_induction hradix (p := fun _ cs => ∀ c ∈ cs, ∃ d < radix, c = digitChar d)
    ?_ ?_ n c hc
  · exact fun n hn => List.forall_mem_singleton.2 ⟨n, hn, rfl⟩
  · intro n _ ih c hc
    obtain hc | hc := List.mem_append.1 hc
    · exact ih c hc
    · exact ⟨n % radix, Nat.mod_lt _ (by omega), List.mem_singleton.1 hc⟩

theorem isSome_digit?_of_mem (hradix : 2 ≤ radix) (hradix' : radix ≤ 16) {c : Char}
    (hc : c ∈ digits radix n) : (digit? radix c).isSome = true := by
  obtain ⟨d, hd, rfl⟩ := mem_digits hradix hc
  rw [digit?_digitChar hradix' hd]
  rfl

/-- The value of digits is the number that they are the digits of. -/
theorem value_digits (hradix : 2 ≤ radix) (hradix' : radix ≤ 16) (n : Nat) :
    (digits radix n).foldl (fun n c => n * radix + (digit? radix c).getD 0) 0 = n := by
  refine digits_induction hradix
    (p := fun n cs => cs.foldl (fun n c => n * radix + (digit? radix c).getD 0) 0 = n) ?_ ?_ n
  · intro n hn
    rw [List.foldl_cons, List.foldl_nil, digit?_digitChar hradix' hn, Option.getD_some,
      Nat.zero_mul, Nat.zero_add]
  · intro n _ ih
    have hlast : n % radix < radix := Nat.mod_lt _ (by omega)
    rw [List.foldl_append, ih, List.foldl_cons, List.foldl_nil, digit?_digitChar hradix' hlast,
      Option.getD_some, Nat.mul_comm, Nat.div_add_mod]

/-- A number below a power of the radix has no more digits than the power has factors. -/
theorem length_digits_le (hradix : 2 ≤ radix) {k : Nat} (hk : 0 < k) (h : n < radix ^ k) :
    (digits radix n).length ≤ k := by
  refine digits_induction hradix
    (p := fun n cs => ∀ k, 0 < k → n < radix ^ k → cs.length ≤ k) ?_ ?_ n k hk h
  · exact fun _ _ k hk _ => hk
  · intro n hn ih k hk hlt
    obtain ⟨k, rfl⟩ := Nat.exists_eq_add_of_lt hk
    rw [Nat.zero_add] at hlt ⊢
    -- The quotient lies below the power that has one factor less.
    have hquotient : n / radix < radix ^ k := by
      rw [Nat.div_lt_iff_lt_mul (by omega), ← Nat.pow_succ]
      exact hlt
    have hpos : 0 < k := by
      refine Nat.pos_of_ne_zero ?_
      rintro rfl
      rw [Nat.pow_zero, Nat.lt_one_iff] at hquotient
      have := Nat.div_pos hn (by omega)
      omega
    rw [List.length_append, List.length_singleton]
    exact Nat.succ_le_succ (ih k hpos hquotient)

/-- A number other than zero has no zero in front. -/
theorem head?_digits_ne_zero (hradix : 2 ≤ radix) (hradix' : radix ≤ 16) (hn : 0 < n) :
    (digits radix n).head? ≠ some '0' := by
  refine digits_induction hradix (p := fun n cs => 0 < n → cs.head? ≠ some '0') ?_ ?_ n hn
  · intro n hlt hpos hzero
    -- The digit would be read as zero as well.
    have hsame : digitChar n = digitChar 0 := Option.some.inj hzero
    have hread := digit?_digitChar hradix' hlt
    rw [hsame, digit?_digitChar hradix' (Nat.lt_of_lt_of_le Nat.two_pos hradix)] at hread
    exact absurd (Option.some.inj hread) (Nat.ne_of_lt hpos)
  · intro n hle ih _
    rw [List.head?_append_of_ne_nil _ (digits_ne_nil hradix _)]
    exact ih (Nat.div_pos hle (by omega))

/-! ### Reading -/

theorem readDigits_append (largest acc : Nat) (cs ds : List Char) :
    readDigits largest acc (cs ++ ds) =
      (readDigits largest acc cs).bind fun acc => readDigits largest acc ds := by
  induction cs generalizing acc with
  | nil => rfl
  | cons c cs ih =>
    rw [List.cons_append, readDigits, readDigits]
    split
    · rfl
    · split
      · exact ih _
      · rfl

/-- Digits are read as the number, if it is not too large. -/
theorem readDigits_digits {largest : Nat} (h : n ≤ largest) :
    readDigits largest 0 (digits 10 n) = .ok n := by
  have hlast {acc d : Nat} (hd : d < 10) (hfits : acc * 10 + d ≤ largest) :
      readDigits largest acc [digitChar d] = .ok (acc * 10 + d) := by
    rw [readDigits, digit?_digitChar (by decide) hd]
    exact if_pos hfits
  refine digits_induction (by decide)
    (p := fun n cs => n ≤ largest → readDigits largest 0 cs = .ok n) ?_ ?_ n h
  · intro n hn hle
    rw [hlast hn (by omega), Nat.zero_mul, Nat.zero_add]
  · intro n _ ih hle
    rw [readDigits_append, ih (by omega)]
    change readDigits largest (n / 10) [digitChar (n % 10)] = .ok n
    rw [hlast (Nat.mod_lt _ (by decide)) (by omega)]
    exact congrArg Except.ok (by omega)

/-- **A number is read as it was written**, if it is not too large. -/
theorem read_decimal {largest : Nat} (h : n ≤ largest) : read largest (decimal n) = .ok n := by
  have hread := readDigits_digits h
  have hplus : '+' ∉ digits 10 n := by
    intro hmem
    have hsome := isSome_digit?_of_mem (by decide) (by decide) hmem
    exact absurd hsome (by decide)
  unfold read decimal
  rw [String.toList_ofList]
  cases hdigits : digits 10 n with
  | nil => exact absurd hdigits (digits_ne_nil (by decide) n)
  | cons c cs =>
    rw [hdigits] at hread hplus
    -- The first digit is no sign.
    have hsign : c ≠ '+' := fun h => hplus (h ▸ List.mem_cons_self)
    split
    · next heq => cases heq
    · next heq => cases heq; exact absurd rfl hsign
    · next heq => cases heq; exact absurd rfl hsign
    · exact hread

end Smpp.Numeral
