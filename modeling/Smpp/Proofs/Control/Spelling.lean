import Mathlib
import Smpp.Proofs.Control.Lines

/-!
# How a line spells its words

Which words a line has can be said without the scanner that finds them. A line *spells* some words
if it is made of them in their order, with white space between any two of them and with any amount
of it in front and behind (`Spells`). Every line spells one list of words and no other, the one that
is read off it (`words_eq_iff`). So neither the amount nor the kind of white space matters, except
that some has to stand between two words (`words_append_white`).

A word that is to be a number is spelled in more than one way too: zeros may stand in front of it,
and one plus sign. `Numeral.Denotes` says which number a word is for, `Numeral.read_eq_ok_iff` that
it is read as that number and as nothing else.
-/

namespace Smpp

namespace Text

/-- All of some characters are white space. -/
def IsBlank (cs : List Char) : Prop := ∀ c ∈ cs, isWhiteSpace c = true

/-- **Characters spell words**: the words stand in their order, and a word goes on until white space
or the end. -/
inductive Spells : List (List Char) → List Char → Prop where
  /-- White space alone spells no word. -/
  | blank {white : List Char} (hwhite : IsBlank white) : Spells [] white
  /-- A word, behind any white space, and what is spelled behind it. -/
  | word {white word rest : List Char} {ws : List (List Char)} (hwhite : IsBlank white)
      (hplain : IsPlain word) (hne : word ≠ []) (hends : ∀ c ∈ rest.head?, isWhiteSpace c = true)
      (hrest : Spells ws rest) : Spells (word :: ws) (white ++ word ++ rest)

theorem IsBlank.cons {c : Char} {cs : List Char} (hc : isWhiteSpace c = true) (hcs : IsBlank cs) :
    IsBlank (c :: cs) :=
  List.forall_mem_cons.2 ⟨hc, hcs⟩

theorem isBlank_nil : IsBlank [] := fun _ hc => (List.not_mem_nil hc).elim

theorem isPlain_nil : IsPlain [] := fun _ hc => (List.not_mem_nil hc).elim

/-- White space in front of a line spells nothing. -/
theorem Spells.white {ws : List (List Char)} {c : Char} {cs : List Char}
    (hc : isWhiteSpace c = true) (h : Spells ws cs) : Spells ws (c :: cs) := by
  cases h with
  | blank hwhite => exact .blank (hwhite.cons hc)
  | word hwhite hplain hne hends hrest => exact .word (hwhite.cons hc) hplain hne hends hrest

/-! ### What the scanner finds -/

theorem wordsAfter_blank_append {white : List Char} (h : IsBlank white) (cs : List Char) :
    wordsAfter [] (white ++ cs) = wordsAfter [] cs := by
  induction white with
  | nil => rfl
  | cons c white ih =>
    obtain ⟨hc, hwhite⟩ := List.forall_mem_cons.1 h
    rw [List.cons_append, wordsAfter, if_pos hc]
    exact ih hwhite

/-- A word that has begun is over where white space or the end comes. -/
theorem wordsAfter_of_ends {word cs : List Char} (hne : word ≠ [])
    (hends : ∀ c ∈ cs.head?, isWhiteSpace c = true) :
    wordsAfter word cs = word.reverse :: wordsAfter [] cs := by
  have hempty : word.isEmpty = false := List.isEmpty_eq_false_iff.2 hne
  cases cs with
  | nil =>
    rw [wordsAfter, hempty]
    rfl
  | cons c cs =>
    have hc : isWhiteSpace c = true := hends c rfl
    rw [wordsAfter, wordsAfter, if_pos hc, if_pos hc, hempty]
    rfl

/-- What the scanner finds is spelled, the word that has begun included. -/
theorem spells_wordsAfter {word : List Char} (h : IsPlain word) (cs : List Char) :
    Spells (wordsAfter word cs) (word.reverse ++ cs) := by
  have hreverse {ds : List Char} (hds : IsPlain ds) : IsPlain ds.reverse :=
    fun c hc => hds c (List.mem_reverse.1 hc)
  induction cs generalizing word with
  | nil =>
    by_cases hne : word = []
    · subst hne
      exact .blank isBlank_nil
    · have hends : ∀ c ∈ ([] : List Char).head?, isWhiteSpace c = true := by
        rintro c ⟨⟩
      rw [wordsAfter_of_ends hne hends]
      exact .word isBlank_nil (hreverse h) (List.reverse_ne_nil_iff.2 hne) hends
        (.blank isBlank_nil)
  | cons c cs ih =>
    by_cases hc : isWhiteSpace c = true
    · have hlater : Spells (wordsAfter [] (c :: cs)) (c :: cs) := by
        rw [wordsAfter, if_pos hc]
        exact (ih isPlain_nil).white hc
      by_cases hne : word = []
      · subst hne
        exact hlater
      · have hends : ∀ d ∈ (c :: cs).head?, isWhiteSpace d = true := by
          rintro d ⟨⟩
          exact hc
        rw [wordsAfter_of_ends hne hends]
        exact .word isBlank_nil (hreverse h) (List.reverse_ne_nil_iff.2 hne) hends hlater
    · -- The character belongs to the word that has begun.
      have hplain : isWhiteSpace c = false := Bool.eq_false_of_not_eq_true hc
      have hword := ih (h.cons hplain)
      rw [List.reverse_cons, List.append_assoc] at hword
      rw [wordsAfter, if_neg hc]
      exact hword

/-- Whatever is spelled is found. -/
theorem Spells.wordsAfter_eq {ws : List (List Char)} {cs : List Char} (h : Spells ws cs) :
    wordsAfter [] cs = ws := by
  induction h with
  | blank hwhite =>
    have hnone := wordsAfter_blank_append hwhite []
    rw [List.append_nil] at hnone
    exact hnone
  | word hwhite hplain hne hends _ ih =>
    rw [List.append_assoc, wordsAfter_blank_append hwhite, wordsAfter_append hplain,
      List.append_nil, wordsAfter_of_ends (List.reverse_ne_nil_iff.2 hne) hends,
      List.reverse_reverse, ih]

/-- **The words of a line are those that it spells**, and it spells no others. -/
theorem words_eq_iff {line : String} {ws : List String} :
    words line = ws ↔ Spells (ws.map String.toList) line.toList := by
  have hback : (words line).map String.toList = wordsAfter [] line.toList := by
    rw [words, List.map_map]
    exact List.map_id'' (fun cs => String.toList_ofList) _
  constructor
  · rintro rfl
    rw [hback]
    exact spells_wordsAfter isPlain_nil line.toList
  · intro h
    rw [words, h.wordsAfter_eq, List.map_map]
    exact List.map_id'' (fun w => String.ofList_toList) ws

/-! ### White space -/

theorem wordsAfter_append_white_append {white : List Char} (h : IsBlank white) (hne : white ≠ [])
    (word cs ds : List Char) :
    wordsAfter word (cs ++ white ++ ds) = wordsAfter word cs ++ wordsAfter [] ds := by
  induction cs generalizing word with
  | nil =>
    -- The first character of the white space ends the word that has begun, as the end does.
    obtain ⟨c, white, rfl⟩ := List.exists_cons_of_ne_nil hne
    obtain ⟨hc, hwhite⟩ := List.forall_mem_cons.1 h
    rw [List.nil_append, List.cons_append, wordsAfter, wordsAfter, if_pos hc,
      wordsAfter_blank_append hwhite]
    split <;> rfl
  | cons c cs ih =>
    rw [List.cons_append, List.cons_append, wordsAfter, wordsAfter, ih, ih]
    split
    · split <;> rfl
    · rfl

/-- **Any white space separates words**: how much of it there is and of what kind makes no
difference. -/
theorem words_append_white {white : String} (h : IsBlank white.toList) (hne : white ≠ "")
    (a b : String) : words (a ++ white ++ b) = words a ++ words b := by
  have hchars : white.toList ≠ [] := fun hnil => hne (String.toList_eq_nil_iff.1 hnil)
  rw [words, String.toList_append, String.toList_append,
    wordsAfter_append_white_append h hchars, List.map_append]
  rfl

/-- **White space in front of a line and behind it makes no difference.** -/
theorem words_surrounded {front back : String} (hfront : IsBlank front.toList)
    (hback : IsBlank back.toList) (line : String) : words (front ++ line ++ back) = words line := by
  rw [words, String.toList_append, String.toList_append, wordsAfter_append_white [] _ hback,
    wordsAfter_blank_append hfront]
  rfl

end Text

namespace Numeral

/-- A digit of a decimal numeral. -/
def IsDigit (c : Char) : Prop := '0' ≤ c ∧ c ≤ '9'

instance (c : Char) : Decidable (IsDigit c) := inferInstanceAs (Decidable (_ ∧ _))

/-- The number that digits stand for behind those of another one. -/
def valueAfter (acc : Nat) (cs : List Char) : Nat :=
  cs.foldl (fun n c => n * 10 + (c.toNat - 48)) acc

/-- **Characters denote a number**: they are the digits of it, one or more, with a plus sign in
front or not. -/
def Denotes (cs : List Char) (n : Nat) : Prop :=
  ∃ ds : List Char, (cs = ds ∨ cs = '+' :: ds) ∧ ds ≠ [] ∧ (∀ c ∈ ds, IsDigit c) ∧
    valueAfter 0 ds = n

/-- Characters denote one number at most. -/
theorem Denotes.unique {cs : List Char} {m n : Nat} (hm : Denotes cs m) (hn : Denotes cs n) :
    m = n := by
  obtain ⟨ds, hds, -, hdigits, rfl⟩ := hm
  obtain ⟨es, hes, -, hdigits', rfl⟩ := hn
  have hplus : ¬ IsDigit '+' := by decide
  -- A plus sign is no digit, so both ways to read them agree.
  have heq : ds = es := by
    obtain rfl | rfl := hds
    · obtain rfl | rfl := hes
      · rfl
      · exact absurd (hdigits _ List.mem_cons_self) hplus
    · obtain rfl | hcons := hes
      · exact absurd (hdigits' _ List.mem_cons_self) hplus
      · exact (List.cons.inj hcons).2
  rw [heq]

theorem digit?_ten (c : Char) :
    digit? 10 c = if IsDigit c then some (c.toNat - 48) else none := by
  -- The letters stand for ten and more.
  have hlarge {n : Nat} (hn : 10 ≤ n) : (some n).filter (· < 10) = none :=
    if_neg (by rw [decide_eq_true_eq]; exact Nat.not_lt.2 hn)
  unfold digit?
  dsimp only
  by_cases hdigit : IsDigit c
  · have hle : c.toNat ≤ 57 := hdigit.2
    rw [if_pos hdigit, if_pos (show '0' ≤ c ∧ c ≤ '9' from hdigit)]
    exact if_pos (decide_eq_true (by omega))
  · rw [if_neg hdigit, if_neg (show ¬ ('0' ≤ c ∧ c ≤ '9') from hdigit)]
    split
    · next hlower =>
      have hle : 97 ≤ c.toNat := hlower.1
      exact hlarge (by omega)
    · split
      · next hupper =>
        have hle : 65 ≤ c.toNat := hupper.1
        exact hlarge (by omega)
      · rfl

theorem le_valueAfter (acc : Nat) (cs : List Char) : acc ≤ valueAfter acc cs := by
  induction cs generalizing acc with
  | nil => exact Nat.le_refl acc
  | cons c cs ih =>
    have hnext : acc * 10 + (c.toNat - 48) ≤ valueAfter acc (c :: cs) := ih _
    omega

/-- Digits are read as the number that they stand for, if it is not too large, and nothing else
is. -/
theorem readDigits_eq_ok_iff {largest acc n : Nat} (hacc : acc ≤ largest) {cs : List Char} :
    readDigits largest acc cs = .ok n ↔
      (∀ c ∈ cs, IsDigit c) ∧ valueAfter acc cs = n ∧ n ≤ largest := by
  induction cs generalizing acc with
  | nil =>
    rw [readDigits, Except.ok.injEq]
    constructor
    · rintro rfl
      exact ⟨fun c hc => (List.not_mem_nil hc).elim, rfl, hacc⟩
    · rintro ⟨-, hvalue, -⟩
      exact hvalue
  | cons c cs ih =>
    rw [readDigits, digit?_ten, List.forall_mem_cons]
    by_cases hc : IsDigit c
    · rw [if_pos hc]
      dsimp only
      by_cases hfits : acc * 10 + (c.toNat - 48) ≤ largest
      · rw [if_pos hfits, ih hfits]
        constructor
        · rintro ⟨hcs, hvalue⟩
          exact ⟨⟨hc, hcs⟩, hvalue⟩
        · rintro ⟨⟨-, hcs⟩, hvalue⟩
          exact ⟨hcs, hvalue⟩
      · -- What the first digits stand for is too large already.
        rw [if_neg hfits]
        refine iff_of_false (fun h => by cases h) ?_
        rintro ⟨-, hvalue, hle⟩
        have hgrows : acc * 10 + (c.toNat - 48) ≤ valueAfter acc (c :: cs) := le_valueAfter _ cs
        omega
    · rw [if_neg hc]
      refine iff_of_false (fun h => by cases h) ?_
      rintro ⟨⟨hdigit, -⟩, -⟩
      exact hc hdigit

/-- **A word is read as the number that it denotes**, if that is not too large, and as nothing
else. -/
theorem read_eq_ok_iff {largest n : Nat} {s : String} :
    read largest s = .ok n ↔ Denotes s.toList n ∧ n ≤ largest := by
  have hplus : ¬ IsDigit '+' := by decide
  unfold read Denotes
  split
  · next hnil =>
    refine iff_of_false (fun h => by cases h) ?_
    rw [hnil]
    rintro ⟨⟨ds, rfl | hcons, hne, -⟩, -⟩
    · exact hne rfl
    · cases hcons
  · next hsign =>
    refine iff_of_false (fun h => by cases h) ?_
    rw [hsign]
    rintro ⟨⟨ds, rfl | hcons, hne, hdigits, -⟩, -⟩
    · exact hplus (hdigits _ List.mem_cons_self)
    · exact hne (List.cons.inj hcons).2.symm
  · next c cs hsign =>
    rw [hsign, readDigits_eq_ok_iff (Nat.zero_le _)]
    constructor
    · rintro ⟨hdigits, hvalue, hle⟩
      exact ⟨⟨c :: cs, .inr rfl, List.cons_ne_nil c cs, hdigits, hvalue⟩, hle⟩
    · rintro ⟨⟨ds, rfl | hcons, hne, hdigits, hvalue⟩, hle⟩
      · exact absurd (hdigits _ List.mem_cons_self) hplus
      · obtain rfl := (List.cons.inj hcons).2
        exact ⟨hdigits, hvalue, hle⟩
  · next cs hne hsign hsigned =>
    rw [readDigits_eq_ok_iff (Nat.zero_le _)]
    constructor
    · rintro ⟨hdigits, hvalue, hle⟩
      exact ⟨⟨s.toList, .inl rfl, hne, hdigits, hvalue⟩, hle⟩
    · rintro ⟨⟨ds, rfl | hcons, hds, hdigits, hvalue⟩, hle⟩
      · exact ⟨hdigits, hvalue, hle⟩
      · -- There is no sign, since what stands behind one would be read as such.
        cases ds with
        | nil => exact absurd rfl hds
        | cons d ds => exact absurd hcons (hsigned d ds)

end Numeral

end Smpp
