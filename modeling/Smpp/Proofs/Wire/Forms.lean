import Smpp.Proofs.Wire.Bodies

/-!
# The form of a body

A body is a row of mandatory fields and then an ending. `Shape` lists the shapes of fields, and
`Shape.Takes` says which octets have a shape: where a field ends follows from the field itself
(`Shape.Takes.unique`), so octets split into the fields of a row in one way at most
(`Body.Splits.unique`).

Where octets do not start with a field, `MandatoryField.Refuses` says what the fault is, and
`Body.Refused` says that of a row: the first field that is refused decides, whatever comes after it.
`Reader.Reads` ties the reader of a field to its form, with one lemma for each reader, and
`Reader.Accepts` the reader of a body to its form. One reads off the other, field by field
(`Reader.Accepts.cons`).
-/

namespace Smpp

/-! ### Forms -/

/-- The shape of a mandatory field. -/
inductive Shape where
  /-- A text and the zero octet that ends it, both within a limit. -/
  | text (limit : Nat)
  /-- Any octet. -/
  | octet
  /-- One octet of a few. -/
  | oneOf (codes : List UInt8)
  /-- An octet that states a length up to a limit, and as many octets. The octet goes by a name of
  its own. -/
  | counted (lengthName : String) (limit : Nat)

/-- A mandatory field of a body. -/
structure MandatoryField where
  name : String
  shape : Shape

/-- The octets that have a shape. -/
inductive Shape.Takes : Shape → Octets → Prop where
  | text {limit : Nat} {content : Octets} (hlimit : content.length < limit) (hopen : 0 ∉ content)
    (hvalid : content.toByteArray.IsValidUTF8) : Takes (.text limit) (content ++ [0])
  | octet (b : UInt8) : Takes .octet [b]
  | oneOf {codes : List UInt8} {b : UInt8} (hcode : b ∈ codes) : Takes (.oneOf codes) [b]
  | counted {lengthName : String} {limit : Nat} {n : UInt8} {content : Octets}
    (hlength : n.toNat = content.length) (hlimit : content.length ≤ limit) :
    Takes (.counted lengthName limit) (n :: content)

/-- What the fault is where octets do not start with a field. -/
inductive MandatoryField.Refuses : MandatoryField → Octets → WireError → Prop where
  /-- Nothing is left. -/
  | noOctet {name : String} : Refuses ⟨name, .octet⟩ [] (.missing name)
  | noCode {name : String} {codes : List UInt8} : Refuses ⟨name, .oneOf codes⟩ [] (.missing name)
  | noLength {name lengthName : String} {limit : Nat} :
    Refuses ⟨name, .counted lengthName limit⟩ [] (.missing lengthName)
  /-- Fewer octets than the limit of a text are left, and none of them ends it. -/
  | unfinished {name : String} {limit : Nat} {bs : Octets} (hopen : 0 ∉ bs)
    (hshort : bs.length < limit) : Refuses ⟨name, .text limit⟩ bs (.missing name)
  /-- No octet within its limit ends a text. -/
  | unterminated {name : String} {limit : Nat} {bs : Octets} (hopen : 0 ∉ bs.take limit)
    (hlong : limit ≤ bs.length) :
    Refuses ⟨name, .text limit⟩ bs (.invalid name (.unterminated limit))
  /-- What ends within its limit is no text. -/
  | notText {name : String} {limit : Nat} {content rest : Octets} {fault : Utf8.Fault}
    (hlimit : content.length < limit) (hopen : 0 ∉ content)
    (hinvalid : ¬ content.toByteArray.IsValidUTF8) (hfault : Utf8.decode content = .error fault) :
    Refuses ⟨name, .text limit⟩ (content ++ 0 :: rest) (.notText name fault)
  /-- An octet is none of those that it may be. -/
  | unsupported {name : String} {codes : List UInt8} {b : UInt8} {rest : Octets}
    (hcode : b ∉ codes) :
    Refuses ⟨name, .oneOf codes⟩ (b :: rest) (.invalid name (.unsupported b))
  /-- A length exceeds its limit, however many octets follow it. -/
  | overlong {name lengthName : String} {limit : Nat} {n : UInt8} {rest : Octets}
    (hlimit : limit < n.toNat) :
    Refuses ⟨name, .counted lengthName limit⟩ (n :: rest)
      (.invalid name (.messageLength n.toNat limit))
  /-- Fewer octets follow a length than it states. -/
  | cutOff {name lengthName : String} {limit : Nat} {n : UInt8} {rest : Octets}
    (hlimit : n.toNat ≤ limit) (hshort : rest.length < n.toNat) :
    Refuses ⟨name, .counted lengthName limit⟩ (n :: rest) (.missing name)

/-- What the fault is where octets do not start with a parameter. -/
inductive Parameter.Refuses : Octets → WireError → Prop where
  /-- Too little is left for a tag and a length. -/
  | truncated {bs : Octets} (hshort : bs.length < 4) : Refuses bs (.truncatedParameter bs.length)
  /-- Less is left than the length states. -/
  | overflow {t t' l l' : UInt8} {rest : Octets}
    (hshort : rest.length < (Octets.word16 l l').toNat) :
    Refuses (t :: t' :: l :: l' :: rest)
      (.parameterOverflow (Octets.word16 t t') (Octets.word16 l l').toNat rest.length)

/-- How a body goes on after its mandatory fields. -/
inductive Body.Ending where
  | parameters
  | nothing

/-- The octets that a body may end with. -/
def Body.Ending.Takes : Body.Ending → Octets → Prop
  | parameters, bs => ∃ row, Parameters.RowFits row ∧ bs = Parameters.region row
  | nothing, bs => bs = []

/-- What the fault is where a body does not end with what it may end with. -/
inductive Body.Ending.Refuses : Body.Ending → Octets → WireError → Prop where
  /-- Behind some parameters octets are left that are none. -/
  | parameters {row : List Parameter} {bs : Octets} {e : WireError} (hrow : Parameters.RowFits row)
    (hmore : bs ≠ []) (hparameter : Parameter.Refuses bs e) :
    Refuses .parameters (Parameters.region row ++ bs) e
  /-- Octets are left where nothing may be. -/
  | nothing {bs : Octets} (hmore : bs ≠ []) :
    Refuses .nothing bs (.invalid "body" (.afterAddressRange bs.length))

/-- A body is some components, one of the shape of each field in turn, and an ending. -/
structure Body.Splits (fields : List MandatoryField) (ending : Body.Ending) (body : Octets)
    (components : List Octets) (tail : Octets) : Prop where
  shapes : List.Forall₂ (fun f c => f.shape.Takes c) fields components
  ends : ending.Takes tail
  whole : body = components.flatten ++ tail

/-- What the fault of a body is: that of the first field in order that is refused, or of the ending
behind all of them. -/
inductive Body.Refused (ending : Body.Ending) :
    List MandatoryField → Octets → WireError → Prop where
  | here {f : MandatoryField} {fields : List MandatoryField} {bs : Octets} {e : WireError}
    (hrefuses : f.Refuses bs e) : Refused ending (f :: fields) bs e
  | later {f : MandatoryField} {fields : List MandatoryField} {component bs : Octets}
    {e : WireError} (htakes : f.shape.Takes component) (hrefused : Refused ending fields bs e) :
    Refused ending (f :: fields) (component ++ bs) e
  | ending {bs : Octets} {e : WireError} (hrefuses : ending.Refuses bs e) :
    Refused ending [] bs e

/-! ### Splitting in one way -/

/-- Octets start with one text at most. -/
theorem append_zero_inj {content content' rest rest' : Octets} (h : 0 ∉ content)
    (h' : 0 ∉ content') (heq : content ++ 0 :: rest = content' ++ 0 :: rest') :
    content = content' := by
  rw [← Field.takeWhile_terminated (Field.forall_isText_iff.2 h) rest, heq,
    Field.takeWhile_terminated (Field.forall_isText_iff.2 h')]

/-- **Octets start with one field of a shape at most.** -/
theorem Shape.Takes.unique {shape : Shape} {c c' rest rest' : Octets} (h : shape.Takes c)
    (h' : shape.Takes c') (heq : c ++ rest = c' ++ rest') : c = c' := by
  cases h with
  | text hlimit hopen hvalid =>
    cases h' with
    | text hlimit' hopen' hvalid' =>
      simp only [List.append_assoc, List.singleton_append] at heq
      rw [append_zero_inj hopen hopen' heq]
  | octet b =>
    cases h' with
    | octet b' => exact congrArg (fun b => [b]) (List.cons.inj heq).1
  | oneOf hcode =>
    cases h' with
    | oneOf hcode' => exact congrArg (fun b => [b]) (List.cons.inj heq).1
  | counted hlength hlimit =>
    cases h' with
    | counted hlength' hlimit' =>
      obtain ⟨rfl, hrest⟩ := List.cons.inj heq
      rw [(List.append_inj hrest (hlength.symm.trans hlength')).1]

/-- **A body splits in one way at most.** -/
theorem Body.Splits.unique {fields : List MandatoryField} {ending : Body.Ending} {body : Octets}
    {components components' : List Octets} {tail tail' : Octets}
    (h : Splits fields ending body components tail)
    (h' : Splits fields ending body components' tail') :
    components = components' ∧ tail = tail' := by
  -- On the fields: the first component of one splitting is that of the other, so the rest of the
  -- body is the same.
  obtain ⟨hcomponents, htail, rfl⟩ := h
  obtain ⟨hcomponents', htail', hbody⟩ := h'
  induction hcomponents generalizing components' with
  | nil =>
    cases hcomponents'
    exact ⟨rfl, hbody⟩
  | cons htakes _ ih =>
    cases hcomponents' with
    | cons htakes' hrest' =>
      simp only [List.flatten_cons, List.append_assoc] at hbody
      obtain rfl := htakes.unique htakes' hbody
      obtain ⟨rfl, htails⟩ := ih hrest' (List.append_cancel_left hbody)
      exact ⟨rfl, htails⟩

/-! ### Readers of fields -/

/-- A reader of a field takes off what has its shape, and otherwise its fault is what the field
refuses octets with. -/
structure Reader.Reads {α : Type} (x : Reader α) (f : MandatoryField) : Prop where
  ok : ∀ bs rest, (∃ a, x bs = .ok a rest) ↔ ∃ c, f.shape.Takes c ∧ bs = c ++ rest
  error : ∀ bs e, (∃ left, x bs = .error e left) ↔ f.Refuses bs e

namespace Field

/-- The written form of a text has the shape of a text exactly if the text fits. -/
theorem takes_terminated_iff {limit : Nat} {text : String} :
    (Shape.text limit).Takes (terminated text) ↔ Fits limit text := by
  refine ⟨fun h => ?_, fun h => ?_⟩
  · generalize hoctets : terminated text = octets at h
    cases h with
    | text hlimit hopen hvalid =>
      rw [terminated, List.append_cancel_right_eq] at hoctets
      exact ⟨hoctets ▸ hlimit, forall_isText_iff.2 (hoctets ▸ hopen)⟩
  · exact .text h.length_lt (forall_isText_iff.1 h.isText) (Utf8.exists_eq_encode_iff.1 ⟨text, rfl⟩)

/-- What has the shape of a text is the written form of one that fits. -/
theorem exists_of_takes_text {limit : Nat} {c : Octets} (h : (Shape.text limit).Takes c) :
    ∃ text, Fits limit text ∧ c = terminated text := by
  cases h with
  | text hlimit hopen hvalid =>
    obtain ⟨text, rfl⟩ := Utf8.exists_eq_encode_iff.2 hvalid
    exact ⟨text, takes_terminated_iff.1 (.text hlimit hopen hvalid), rfl⟩

theorem not_isValidUTF8_of_decode {octets : Octets} {fault : Utf8.Fault}
    (h : Utf8.decode octets = .error fault) : ¬ octets.toByteArray.IsValidUTF8 := by
  intro hvalid
  obtain ⟨text, htext⟩ := Utf8.exists_eq_encode_iff.2 hvalid
  rw [Utf8.decode_eq_ok_iff.2 htext] at h
  cases h

/-- Octets without a zero are what comes before their first zero. -/
theorem takeWhile_isText_of_notMem {octets : Octets} (h : 0 ∉ octets) :
    octets.takeWhile isText = octets :=
  List.takeWhile_eq_self_iff.2 (forall_isText_iff.2 h)

theorem zero_notMem_takeWhile_isText (octets : Octets) : 0 ∉ octets.takeWhile isText :=
  forall_isText_iff.1 (List.all_eq_true.1 List.all_takeWhile)

/-- Octets that are all before their first zero have none. -/
theorem zero_notMem_of_length_le {octets : Octets}
    (h : octets.length ≤ (octets.takeWhile isText).length) : 0 ∉ octets := by
  have hbefore : octets.takeWhile isText = octets :=
    (List.takeWhile_prefix isText).eq_of_length_le h
  rw [← hbefore]
  exact zero_notMem_takeWhile_isText octets

section Cstring

variable {limit : Nat} {name : String} {bs left : Octets} {e : WireError}

/-- What is no text is refused for one of three reasons, and nothing is taken off. -/
theorem refuses_of_cstring (h : cstring limit name bs = .error e left) :
    (⟨name, .text limit⟩ : MandatoryField).Refuses bs e ∧ left = bs := by
  simp only [cstring] at h
  split at h
  · next hlt =>
    -- The window holds a terminator, so only what is before it can be at fault.
    obtain ⟨rest, hrest⟩ := exists_eq_append_zero_of_take hlt
    have hopen := zero_notMem_takeWhile_isText (bs.take limit)
    have hlimit : ((bs.take limit).takeWhile isText).length < limit := by
      rw [List.length_take] at hlt
      omega
    generalize (bs.take limit).takeWhile isText = content at h hrest hopen hlimit
    cases hdecode : Utf8.decode content with
    | ok text =>
      rw [hdecode] at h
      cases h
    | error fault =>
      rw [hdecode] at h
      cases h
      rw [hrest]
      exact ⟨.notText hlimit hopen (not_isValidUTF8_of_decode hdecode) hdecode, rfl⟩
  next hlt =>
  have hopen : 0 ∉ bs.take limit := zero_notMem_of_length_le (Nat.le_of_not_lt hlt)
  split at h
  · next hshort =>
    cases h
    rw [List.length_take] at hshort
    have hwhole : bs.take limit = bs := List.take_of_length_le (by omega)
    exact ⟨.unfinished (hwhole ▸ hopen) (by omega), rfl⟩
  · next hlong =>
    cases h
    rw [List.length_take] at hlong
    exact ⟨.unterminated hopen (by omega), rfl⟩

/-- What a text is refused with is the fault of its reader. -/
theorem cstring_of_refuses (h : (⟨name, .text limit⟩ : MandatoryField).Refuses bs e) :
    cstring limit name bs = .error e bs := by
  cases h with
  | unfinished hopen hshort =>
    have hwhole : bs.take limit = bs := List.take_of_length_le (by omega)
    simp only [cstring, hwhole, takeWhile_isText_of_notMem hopen, Nat.lt_irrefl, if_false,
      if_pos hshort]
  | unterminated hopen hlong =>
    have hlength : (bs.take limit).length = limit := by
      rw [List.length_take]
      omega
    simp only [cstring, takeWhile_isText_of_notMem hopen, hlength, Nat.lt_irrefl, if_false]
  | @notText _ _ content rest fault hlimit hopen hinvalid hfault =>
    obtain ⟨k, hwindow⟩ := exists_take_append_zero hlimit rest
    simp only [cstring, hwindow, takeWhile_terminated (forall_isText_iff.2 hopen), hfault]
    rw [if_pos]
    simp only [List.length_append, List.length_cons]
    omega

/-- **A text is refused** for one of three reasons, and nothing is taken off. -/
theorem cstring_eq_error_iff :
    cstring limit name bs = .error e left ↔
      (⟨name, .text limit⟩ : MandatoryField).Refuses bs e ∧ left = bs := by
  refine ⟨refuses_of_cstring, ?_⟩
  rintro ⟨hrefuses, rfl⟩
  exact cstring_of_refuses hrefuses

end Cstring

theorem reads_cstring (limit : Nat) (name : String) :
    (cstring limit name).Reads ⟨name, .text limit⟩ where
  ok bs rest := by
    simp only [cstring_eq_ok_iff]
    refine ⟨?_, ?_⟩
    · rintro ⟨text, hfits, rfl⟩
      exact ⟨_, takes_terminated_iff.2 hfits, rfl⟩
    · rintro ⟨c, htakes, rfl⟩
      obtain ⟨text, hfits, rfl⟩ := exists_of_takes_text htakes
      exact ⟨text, hfits, rfl⟩
  error bs e := by simp only [cstring_eq_error_iff, exists_and_left, exists_eq, and_true]

theorem reads_octet (name : String) : (octet name).Reads ⟨name, .octet⟩ where
  ok bs rest := by
    simp only [octet_eq_ok_iff]
    refine ⟨?_, ?_⟩
    · rintro ⟨b, rfl⟩
      exact ⟨[b], .octet b, rfl⟩
    · rintro ⟨c, htakes, rfl⟩
      cases htakes with
      | octet b => exact ⟨b, rfl⟩
  error bs e := by
    cases bs with
    | nil =>
      refine ⟨?_, ?_⟩
      · rintro ⟨left, ⟨⟩⟩
        exact .noOctet
      · rintro ⟨⟩
        exact ⟨[], rfl⟩
    | cons b bs => exact iff_of_false (fun ⟨_, h⟩ => (nomatch h)) fun h => (nomatch h)

/-- The octet of an enumeration is read if it is among the octets of the values. -/
theorem reads_coded {α : Type} [Coded α] {codes : List UInt8}
    (hcodes : ∀ b, b ∈ codes ↔ ∃ a : α, Coded.code a = b) (name : String) :
    (coded α name).Reads ⟨name, .oneOf codes⟩ where
  -- The list has the octets of the values and no others, so that an octet is in it says the same as
  -- that it stands for a value.
  ok bs rest := by
    simp only [coded_eq_ok_iff]
    refine ⟨?_, ?_⟩
    · rintro ⟨a, rfl⟩
      exact ⟨[Coded.code a], .oneOf ((hcodes _).2 ⟨a, rfl⟩), rfl⟩
    · rintro ⟨c, htakes, rfl⟩
      cases htakes with
      | oneOf hcode =>
        obtain ⟨a, rfl⟩ := (hcodes _).1 hcode
        exact ⟨a, rfl⟩
  error bs e := by
    cases bs with
    | nil =>
      refine ⟨?_, ?_⟩
      · rintro ⟨left, ⟨⟩⟩
        exact .noCode
      · rintro ⟨⟩
        exact ⟨[], rfl⟩
    | cons b bs =>
      simp only [coded, octet]
      refine ⟨?_, ?_⟩
      · rintro ⟨left, h⟩
        split at h
        · cases h
        · next hnone =>
          cases h
          -- An octet of the list would have been read.
          refine .unsupported fun hcode => ?_
          obtain ⟨a, ha⟩ := (hcodes b).1 hcode
          rw [Coded.ofCode?_eq_some_iff.2 ha] at hnone
          cases hnone
      · rintro (_ | _ | _ | _ | _ | _ | hcode)
        split
        · next a ha => exact absurd ((hcodes b).2 ⟨a, Coded.ofCode?_eq_some_iff.1 ha⟩) hcode
        · exact ⟨bs, rfl⟩

end Field

namespace Submit

theorem reads_readMessage :
    readMessage.Reads ⟨"short_message", .counted "sm_length" 254⟩ where
  ok bs rest := by
    simp only [readMessage_eq_ok_iff]
    refine ⟨?_, ?_⟩
    · rintro ⟨text, hlimit, rfl⟩
      exact ⟨_, .counted (toNat_low_length hlimit) hlimit, rfl⟩
    · rintro ⟨c, htakes, rfl⟩
      cases htakes with
      | @counted _ _ n content hlength hlimit =>
        refine ⟨content, hlimit, ?_⟩
        rw [Octets.low, ← hlength, UInt8.ofNat_toNat]
        rfl
  error bs e := by
    cases bs with
    | nil =>
      refine ⟨?_, ?_⟩
      · rintro ⟨left, ⟨⟩⟩
        exact .noLength
      · rintro ⟨⟩
        exact ⟨[], rfl⟩
    | cons n bs =>
      -- The length is judged before the octets that follow it.
      simp only [readMessage, Field.octet]
      by_cases hlimit : longestShortMessage < n.toNat
      · rw [if_pos hlimit]
        refine ⟨?_, ?_⟩
        · rintro ⟨left, ⟨⟩⟩
          exact .overlong hlimit
        · intro h
          cases h with
          | overlong hover => exact ⟨bs, rfl⟩
          | cutOff hle hshort => exact absurd hlimit (Nat.not_lt.2 hle)
      · rw [if_neg hlimit, List.length_take]
        by_cases hshort : bs.length < n.toNat
        · rw [if_pos (by omega)]
          refine ⟨?_, ?_⟩
          · rintro ⟨left, ⟨⟩⟩
            exact .cutOff (Nat.not_lt.1 hlimit) hshort
          · intro h
            cases h with
            | overlong hover => exact absurd hover hlimit
            | cutOff hle hshort => exact ⟨bs, rfl⟩
        · rw [if_neg (by omega)]
          refine ⟨?_, fun h => ?_⟩
          · rintro ⟨left, ⟨⟩⟩
          · cases h with
            | overlong hover => exact absurd hover hlimit
            | cutOff hle hshort' => exact absurd hshort' hshort

end Submit

/-! ### Readers of endings -/

theorem Parameter.read_eq_error_iff {bs : Octets} {e : WireError} :
    (∃ left, read bs = .error e left) ↔ Refuses bs e := by
  refine ⟨?_, ?_⟩
  · rintro ⟨left, h⟩
    unfold read at h
    split at h
    · dsimp only at h
      split at h
      · next hshort =>
        cases h
        rw [List.length_take] at hshort
        exact .overflow (by omega)
      · cases h
    · next hnone =>
      cases h
      refine .truncated (Nat.lt_of_not_le fun hlong => ?_)
      -- Four octets would have been read as a tag and a length.
      match bs, hlong with
      | t :: t' :: l :: l' :: rest, _ => exact hnone t t' l l' rest rfl
  · intro h
    cases h with
    | truncated hshort =>
      unfold read
      split
      · simp only [List.length_cons] at hshort
        omega
      · exact ⟨bs, rfl⟩
    | @overflow t t' l l' rest hshort =>
      have htake : (rest.take (Octets.word16 l l').toNat).length < (Octets.word16 l l').toNat := by
        rw [List.length_take]
        omega
      exact ⟨rest, if_pos htake⟩

namespace Parameters

theorem refused_of_readInto {m : Parameters} {bs left : Octets} {e : WireError}
    (h : readInto m bs = .error e left) : Body.Ending.parameters.Refuses bs e := by
  -- Along the recursion of `readInto`: the parameters read so far are a row before the fault.
  induction m, bs using readInto.induct with
  | case1 m =>
    rw [readInto] at h
    cases h
  | case2 m b bs e' rest hread =>
    rw [readInto] at h
    split at h
    · next h' =>
      cases h
      have hnone : RowFits [] := fun _ hp => absurd hp List.not_mem_nil
      exact .parameters hnone (List.cons_ne_nil _ _) (Parameter.read_eq_error_iff.1 ⟨_, h'⟩)
    · next h' =>
      rw [hread] at h'
      cases h'
  | case3 m b bs p rest hread ih =>
    rw [readInto_of_read hread] at h
    obtain ⟨hp, hbs⟩ := Parameter.read_eq_ok_iff.1 hread
    cases ih h with
    | @parameters row bad _ hrow hmore hparameter =>
      rw [hbs, ← List.append_assoc]
      exact .parameters (rowFits_cons.2 ⟨hp, hrow⟩) hmore hparameter

theorem exists_readInto_of_refuses {m : Parameters} {row : List Parameter} {bs : Octets}
    {e : WireError} (hrow : RowFits row) (hmore : bs ≠ []) (hrefuses : Parameter.Refuses bs e) :
    ∃ left, readInto m (region row ++ bs) = .error e left := by
  -- On the row: its parameters are inserted one by one, and then the fault is met.
  induction row generalizing m with
  | nil =>
    obtain ⟨left, hread⟩ := Parameter.read_eq_error_iff.2 hrefuses
    cases bs with
    | nil => exact absurd rfl hmore
    | cons b bs =>
      refine ⟨left, ?_⟩
      rw [region_nil, List.nil_append, readInto]
      split
      · next h' =>
        rw [hread] at h'
        cases h'
        rfl
      · next h' =>
        rw [hread] at h'
        cases h'
  | cons p row ih =>
    obtain ⟨hp, hrow⟩ := rowFits_cons.1 hrow
    obtain ⟨left, hread⟩ := ih (m := m.insert p.tag p.value) hrow
    refine ⟨left, ?_⟩
    rw [region_cons, List.append_assoc, readInto_of_read (Parameter.read_eq_ok_iff.2 ⟨hp, rfl⟩)]
    exact hread

theorem exists_read_eq_ok_iff (bs : Octets) :
    (∃ m left, read bs = .ok m left) ↔ Body.Ending.parameters.Takes bs := by
  simp only [read_eq_ok_iff]
  refine ⟨?_, ?_⟩
  · rintro ⟨m, left, -, row, hrow, hbs, -⟩
    exact ⟨row, hrow, hbs⟩
  · rintro ⟨row, hrow, hbs⟩
    exact ⟨_, [], rfl, row, hrow, hbs, rfl⟩

/-- **A region is refused** where behind some parameters octets are left that are none. -/
theorem read_eq_error_iff {bs : Octets} {e : WireError} :
    (∃ left, read bs = .error e left) ↔ Body.Ending.parameters.Refuses bs e := by
  refine ⟨fun ⟨left, h⟩ => refused_of_readInto h, fun h => ?_⟩
  cases h with
  | parameters hrow hmore hparameter => exact exists_readInto_of_refuses hrow hmore hparameter

end Parameters

theorem Bind.exists_nothingAfter_eq_ok_iff (bs : Octets) :
    (∃ u left, nothingAfter bs = .ok u left) ↔ Body.Ending.nothing.Takes bs := by
  simp only [nothingAfter_eq_ok_iff, exists_const, exists_eq_right, Body.Ending.Takes]

theorem Bind.nothingAfter_eq_error_iff {bs : Octets} {e : WireError} :
    (∃ left, nothingAfter bs = .error e left) ↔ Body.Ending.nothing.Refuses bs e := by
  cases bs with
  | nil =>
    refine iff_of_false (fun ⟨_, h⟩ => (nomatch h)) fun h => ?_
    cases h with
    | nothing hmore => exact hmore rfl
  | cons b bs =>
    refine ⟨?_, ?_⟩
    · rintro ⟨left, ⟨⟩⟩
      exact .nothing (List.cons_ne_nil _ _)
    · intro h
      cases h with
      | nothing hmore => exact ⟨b :: bs, rfl⟩

/-! ### Readers of bodies -/

/-- A reader of a body takes what splits into its fields and its ending, and otherwise its fault is
the first that there is. -/
structure Reader.Accepts {α : Type} (x : Reader α) (fields : List MandatoryField)
    (ending : Body.Ending) : Prop where
  ok : ∀ body, (∃ a left, x body = .ok a left) ↔
    ∃ components tail, Body.Splits fields ending body components tail
  error : ∀ body e, (∃ left, x body = .error e left) ↔ Body.Refused ending fields body e

section Accepts

variable {α β : Type} {fields : List MandatoryField} {f : MandatoryField} {ending : Body.Ending}

theorem Body.splits_cons_iff {body tail : Octets} {components : List Octets} :
    Splits (f :: fields) ending body components tail ↔
      ∃ c cs rest, components = c :: cs ∧ f.shape.Takes c ∧ body = c ++ rest ∧
        Splits fields ending rest cs tail := by
  refine ⟨?_, ?_⟩
  · rintro ⟨hshapes, hends, rfl⟩
    cases hshapes with
    | @cons _ c _ cs htakes hrest =>
      refine ⟨c, cs, cs.flatten ++ tail, rfl, htakes, ?_, hrest, hends, rfl⟩
      rw [List.flatten_cons, List.append_assoc]
  · rintro ⟨c, cs, rest, rfl, htakes, rfl, hshapes, hends, rfl⟩
    refine ⟨.cons htakes hshapes, hends, ?_⟩
    rw [List.flatten_cons, List.append_assoc]

theorem Body.refused_cons_iff {body : Octets} {e : WireError} :
    Refused ending (f :: fields) body e ↔
      f.Refuses body e ∨
        ∃ c rest, f.shape.Takes c ∧ body = c ++ rest ∧ Refused ending fields rest e := by
  refine ⟨?_, ?_⟩
  · intro h
    cases h with
    | here hrefuses => exact .inl hrefuses
    | later htakes hrefused => exact .inr ⟨_, _, htakes, rfl, hrefused⟩
  · rintro (hrefuses | ⟨c, rest, htakes, rfl, hrefused⟩)
    · exact .here hrefuses
    · exact .later htakes hrefused

/-- **One field after another**: a field is read off the front, and the others from the rest. -/
theorem Reader.Accepts.cons {x : Reader α} {k : α → Reader β} (hx : x.Reads f)
    (hk : ∀ a, (k a).Accepts fields ending) : (x >>= k).Accepts (f :: fields) ending where
  ok body := by
    refine ⟨?_, ?_⟩
    · rintro ⟨b, left, h⟩
      obtain ⟨a, rest, hread, hrest⟩ := Reader.bind_eq_ok.1 h
      obtain ⟨c, htakes, rfl⟩ := (hx.ok body rest).1 ⟨a, hread⟩
      obtain ⟨cs, tail, hsplits⟩ := ((hk a).ok rest).1 ⟨b, left, hrest⟩
      exact ⟨c :: cs, tail, Body.splits_cons_iff.2 ⟨c, cs, rest, rfl, htakes, rfl, hsplits⟩⟩
    · rintro ⟨components, tail, hsplits⟩
      obtain ⟨c, cs, rest, -, htakes, hbody, hsplits⟩ := Body.splits_cons_iff.1 hsplits
      obtain ⟨a, hread⟩ := (hx.ok body rest).2 ⟨c, htakes, hbody⟩
      obtain ⟨b, left, hrest⟩ := ((hk a).ok rest).2 ⟨cs, tail, hsplits⟩
      exact ⟨b, left, Reader.bind_eq_ok.2 ⟨a, rest, hread, hrest⟩⟩
  error body e := by
    -- Either the field is refused, or it is read and the fault is one of the others.
    rw [Body.refused_cons_iff, ← hx.error body e]
    simp only [Reader.bind_eq_error, exists_or]
    refine or_congr Iff.rfl ⟨?_, ?_⟩
    · rintro ⟨left, a, rest, hread, hrest⟩
      obtain ⟨c, htakes, hbody⟩ := (hx.ok body rest).1 ⟨a, hread⟩
      exact ⟨c, rest, htakes, hbody, ((hk a).error rest e).1 ⟨left, hrest⟩⟩
    · rintro ⟨c, rest, htakes, hbody, hrefused⟩
      obtain ⟨a, hread⟩ := (hx.ok body rest).2 ⟨c, htakes, hbody⟩
      obtain ⟨left, hrest⟩ := ((hk a).error rest e).2 hrefused
      exact ⟨left, a, rest, hread, hrest⟩

/-- What is made of an ending does not matter to whether it is read. -/
theorem Reader.accepts_ending {x : Reader α} (g : α → β)
    (hok : ∀ bs, (∃ a left, x bs = .ok a left) ↔ ending.Takes bs)
    (herror : ∀ bs e, (∃ left, x bs = .error e left) ↔ ending.Refuses bs e) :
    (do return g (← x) : Reader β).Accepts [] ending where
  ok body := by
    refine ⟨?_, ?_⟩
    · rintro ⟨b, left, h⟩
      obtain ⟨a, rest, hread, -⟩ := Reader.bind_eq_ok.1 h
      exact ⟨[], body, .nil, (hok body).1 ⟨a, rest, hread⟩, rfl⟩
    · rintro ⟨components, tail, hshapes, hends, rfl⟩
      cases hshapes
      obtain ⟨a, left, hread⟩ := (hok tail).2 hends
      exact ⟨g a, left, Reader.bind_eq_ok.2 ⟨a, left, hread, rfl⟩⟩
  error body e := by
    simp only [Reader.bind_eq_error]
    refine ⟨?_, ?_⟩
    · rintro ⟨left, hread | ⟨a, rest, -, hpure⟩⟩
      · exact .ending ((herror body e).1 ⟨left, hread⟩)
      · cases hpure
    · rintro ⟨⟩
      next hrefuses =>
      obtain ⟨left, hread⟩ := (herror body e).2 hrefuses
      exact ⟨left, .inl hread⟩

end Accepts

end Smpp
