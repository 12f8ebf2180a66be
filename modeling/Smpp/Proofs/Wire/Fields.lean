import Smpp.Pdu.Field
import Smpp.Proofs.Wire.Text

/-!
# What the readers of fields accept

Each reader of a mandatory field is characterised by one equivalence: it takes a value off the front
of octets exactly if they start with the value's written form and go on with what is left.

* `cstring_eq_ok_iff`: a text with its terminator, within its limit;
* `octet_eq_ok_iff`: any octet;
* `coded_eq_ok_iff`: the octet of a value of an enumeration.

`ofText_eq_ok_iff` says the same of writing a text. The two laws of sequencing, `Reader.bind_eq_ok`
and `Except.bind_eq_ok`, turn a reader or writer that is put together from these into one
conjunction, so that whole bodies are characterised without a look into any field.
-/

namespace Smpp

/-! ### Sequencing -/

/-- **A sequence of two readers succeeds exactly if both do**, the second on what the first left. -/
theorem Reader.bind_eq_ok {α β : Type} {x : Reader α} {f : α → Reader β} {bs left : Octets}
    {b : β} :
    (x >>= f) bs = .ok b left ↔ ∃ a rest, x bs = .ok a rest ∧ f a rest = .ok b left := by
  change EStateM.bind x f bs = _ ↔ _
  unfold EStateM.bind
  refine ⟨?_, ?_⟩
  · intro h
    split at h
    · next a rest hx => exact ⟨a, rest, hx, h⟩
    · cases h
  · rintro ⟨a, rest, hx, hf⟩
    rw [hx]
    exact hf

/-- **A sequence of two readers fails exactly if one of them does**, the second on what the first
left. -/
theorem Reader.bind_eq_error {α β : Type} {x : Reader α} {f : α → Reader β} {bs left : Octets}
    {e : WireError} :
    (x >>= f) bs = .error e left ↔
      x bs = .error e left ∨ ∃ a rest, x bs = .ok a rest ∧ f a rest = .error e left := by
  change EStateM.bind x f bs = _ ↔ _
  unfold EStateM.bind
  cases x bs with
  | ok a rest =>
    refine ⟨fun h => .inr ⟨a, rest, rfl, h⟩, ?_⟩
    rintro (h | ⟨a', rest', h, hf⟩)
    · cases h
    · cases h
      exact hf
  | error e' rest =>
    refine ⟨?_, ?_⟩
    · rintro ⟨⟩
      exact .inl rfl
    · rintro (⟨⟨⟩⟩ | ⟨a', rest', h, -⟩)
      · rfl
      · cases h

theorem Reader.pure_eq_ok {α : Type} {a b : α} {bs left : Octets} :
    (pure a : Reader α) bs = .ok b left ↔ a = b ∧ bs = left := by
  change EStateM.Result.ok a bs = .ok b left ↔ _
  rw [EStateM.Result.ok.injEq]

/-- **A sequence of two steps that may fail succeeds exactly if both do.** -/
theorem Except.bind_eq_ok {ε α β : Type} {x : Except ε α} {f : α → Except ε β} {b : β} :
    (x >>= f) = .ok b ↔ ∃ a, x = .ok a ∧ f a = .ok b := by
  cases x with
  | ok a =>
    refine ⟨fun h => ⟨a, rfl, h⟩, ?_⟩
    rintro ⟨_, h, hf⟩
    cases h
    exact hf
  | error e =>
    refine ⟨fun h => (nomatch h), ?_⟩
    rintro ⟨_, h, -⟩
    cases h

theorem Except.pure_eq_ok {ε α : Type} {a b : α} : (pure a : Except ε α) = .ok b ↔ a = b := by
  change Except.ok a = .ok b ↔ _
  rw [Except.ok.injEq]

namespace Field

/-! ### Texts -/

/-- The written form of a text with its terminator. -/
def terminated (text : String) : Octets := Utf8.encode text ++ [0]

theorem length_terminated (text : String) :
    (terminated text).length = (Utf8.encode text).length + 1 := by
  rw [terminated, List.length_append, List.length_singleton]

theorem terminated_append_ne_nil (text : String) (rest : Octets) :
    terminated text ++ rest ≠ [] := by
  unfold terminated
  exact List.append_ne_nil_of_left_ne_nil (List.append_ne_nil_of_right_ne_nil _ (by simp)) _

/-- A text ends within a limit, terminator included, and holds no octet that would end it early. -/
structure Fits (limit : Nat) (text : String) : Prop where
  length_lt : (Utf8.encode text).length < limit
  isText : ∀ b ∈ Utf8.encode text, isText b = true

theorem forall_isText_iff {octets : Octets} : (∀ b ∈ octets, isText b = true) ↔ 0 ∉ octets := by
  simp only [isText, bne_iff_ne]
  exact ⟨fun h hzero => h 0 hzero rfl, fun h b hb hzero => h (hzero ▸ hb)⟩

/-- A text fits if it is short and has no character that would end it early. -/
theorem fits_iff {limit : Nat} {text : String} :
    Fits limit text ↔ (Utf8.encode text).length < limit ∧ '\x00' ∉ text.toList := by
  rw [← Utf8.zero_mem_encode_iff, ← forall_isText_iff]
  exact ⟨fun h => ⟨h.length_lt, h.isText⟩, fun h => ⟨h.1, h.2⟩⟩

/-- Octets up to a terminator. -/
theorem takeWhile_terminated {octets : Octets} (h : ∀ b ∈ octets, isText b = true)
    (rest : Octets) : (octets ++ 0 :: rest).takeWhile isText = octets := by
  rw [List.takeWhile_append_of_pos h]
  exact List.append_nil octets

/-- Octets that hold a terminator start with those before it, and go on with the terminator. -/
theorem eq_append_zero_of_takeWhile_lt {octets : Octets}
    (h : (octets.takeWhile isText).length < octets.length) :
    ∃ rest, octets = octets.takeWhile isText ++ 0 :: rest := by
  induction octets with
  | nil => exact absurd h (Nat.lt_irrefl 0)
  | cons b octets ih =>
    by_cases hb : isText b = true
    · rw [List.takeWhile_cons_of_pos hb] at h ⊢
      obtain ⟨rest, hrest⟩ := ih (Nat.lt_of_succ_lt_succ h)
      exact ⟨rest, congrArg (b :: ·) hrest⟩
    · have hzero : b = 0 := by simpa [isText] using hb
      rw [List.takeWhile_cons_of_neg hb, hzero]
      exact ⟨octets, rfl⟩

section Cstring

variable {limit : Nat} {field text : String} {bs left : Octets}

/-- Octets with a terminator within a limit go on after it. -/
theorem exists_eq_append_zero_of_take
    (h : ((bs.take limit).takeWhile isText).length < (bs.take limit).length) :
    ∃ rest, bs = (bs.take limit).takeWhile isText ++ 0 :: rest := by
  obtain ⟨rest, hrest⟩ := eq_append_zero_of_takeWhile_lt h
  refine ⟨rest ++ bs.drop limit, ?_⟩
  calc bs = bs.take limit ++ bs.drop limit := (List.take_append_drop limit bs).symm
    _ = (bs.take limit).takeWhile isText ++ 0 :: rest ++ bs.drop limit := by rw [← hrest]
    _ = (bs.take limit).takeWhile isText ++ 0 :: (rest ++ bs.drop limit) := List.append_assoc ..

/-- What is looked at of octets whose terminator is within the limit ends with it or goes on after
it. -/
theorem exists_take_append_zero {content : Octets} (h : content.length < limit) (rest : Octets) :
    ∃ k, (content ++ 0 :: rest).take limit = content ++ 0 :: rest.take k := by
  obtain ⟨k, hk⟩ : ∃ k, limit = content.length + (k + 1) := ⟨limit - content.length - 1, by omega⟩
  refine ⟨k, ?_⟩
  rw [hk, List.take_length_add_append, List.take_succ_cons]

/-- What is read as a text starts with its written form, and the text ends within the limit. -/
theorem eq_terminated_append_of_cstring (h : cstring limit field bs = .ok text left) :
    Fits limit text ∧ bs = terminated text ++ left := by
  simp only [cstring] at h
  split at h
  · next hlt =>
    cases hdecode : Utf8.decode ((bs.take limit).takeWhile isText) with
    | error fault =>
      rw [hdecode] at h
      cases h
    | ok text' =>
      rw [hdecode] at h
      cases h
      -- The window holds a terminator, and up to it the octets are those of the text.
      have henc := Utf8.decode_eq_ok_iff.1 hdecode
      obtain ⟨rest, hrest⟩ := exists_eq_append_zero_of_take hlt
      rw [henc] at hlt hrest
      have hbs : bs = terminated text ++ rest := by
        rw [hrest, terminated, List.append_assoc, List.singleton_append]
      have hdrop : bs.drop (terminated text).length = rest := by
        rw [hbs, List.drop_left]
      refine ⟨⟨?_, ?_⟩, ?_⟩
      · rw [List.length_take] at hlt
        omega
      · rw [← henc]
        exact List.all_eq_true.1 List.all_takeWhile
      · rw [henc, ← length_terminated, hdrop]
        exact hbs
  · split at h <;> cases h

/-- The written form of a text that ends within the limit is read as the text. -/
theorem cstring_terminated_append (h : Fits limit text) (left : Octets) :
    cstring limit field (terminated text ++ left) = .ok text left := by
  obtain ⟨hlt, htext⟩ := h
  have hsplit : terminated text ++ left = Utf8.encode text ++ 0 :: left := by
    simp only [terminated, List.append_assoc, List.singleton_append]
  obtain ⟨k, hwindow⟩ := exists_take_append_zero hlt left
  rw [← hsplit] at hwindow
  have hdrop : (terminated text ++ left).drop ((Utf8.encode text).length + 1) = left := by
    rw [hsplit, List.drop_length_add_append]
    rfl
  have hdecode : Utf8.decode (Utf8.encode text) = .ok text := Utf8.decode_eq_ok_iff.2 rfl
  simp only [cstring, hwindow, takeWhile_terminated htext, hdrop, hdecode]
  rw [if_pos]
  simp only [List.length_append, List.length_cons]
  omega

/-- **Reading a text** takes off exactly its written form with the terminator. -/
theorem cstring_eq_ok_iff :
    cstring limit field bs = .ok text left ↔ Fits limit text ∧ bs = terminated text ++ left := by
  refine ⟨eq_terminated_append_of_cstring, ?_⟩
  rintro ⟨hfits, rfl⟩
  exact cstring_terminated_append hfits left

end Cstring

/-- **Writing a text** succeeds exactly if it ends within its limit. -/
theorem ofText_eq_ok_iff {limit : Nat} {field text : String} {bs : Octets} :
    ofText limit field text = .ok bs ↔ Fits limit text ∧ bs = terminated text := by
  simp only [ofText]
  -- A text is refused for its length first, and then for a zero in it.
  split
  · next hle =>
    refine ⟨fun h => (nomatch h), ?_⟩
    rintro ⟨⟨hlt, -⟩, -⟩
    omega
  · next hlt =>
    split
    · next hzero =>
      refine ⟨fun h => (nomatch h), ?_⟩
      rintro ⟨⟨-, htext⟩, -⟩
      exact absurd (htext 0 (List.contains_iff_mem.1 hzero)) (by decide)
    · next hzero =>
      rw [Except.ok.injEq]
      refine ⟨?_, ?_⟩
      · rintro rfl
        refine ⟨⟨by omega, fun b hb => ?_⟩, rfl⟩
        rw [isText, bne_iff_ne]
        rintro rfl
        exact hzero (List.contains_iff_mem.2 hb)
      · rintro ⟨-, rfl⟩
        rfl

/-! ### Octets -/

theorem octet_eq_ok_iff {field : String} {bs left : Octets} {b : UInt8} :
    octet field bs = .ok b left ↔ bs = b :: left := by
  cases bs with
  | nil => simp [octet]
  | cons c bs => simp [octet]

/-- **Reading an octet of an enumeration** takes off exactly the octet of a value. -/
theorem coded_eq_ok_iff {α : Type} [Coded α] {field : String} {bs left : Octets} {a : α} :
    coded α field bs = .ok a left ↔ bs = Coded.code a :: left := by
  cases bs with
  | nil => simp [coded, octet]
  | cons b bs =>
    simp only [coded, octet]
    refine ⟨?_, ?_⟩
    · intro h
      split at h
      · next hcode =>
        cases h
        rw [Coded.ofCode?_eq_some_iff.1 hcode]
      · cases h
    · intro h
      cases h
      rw [Coded.ofCode?_eq_some_iff.2 rfl]

end Field

end Smpp
