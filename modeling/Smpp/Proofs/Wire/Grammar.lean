import Smpp.Proofs.Wire.Forms

/-!
# The grammar of submits and binds

The fields of a submit and of a bind are listed in wire order (`Submit.fields`, `Bind.fields`), each
with its name and its shape. The readers accept exactly what splits into these fields and an ending,
and refuse everything else for the first field that is not there (`Submit.accepts_read`,
`Bind.accepts_read`). What is read says of each field what stands in it: `Submit.components` and
`Bind.components` are the octets of the fields in wire order, and a value is read from a body
exactly if the body splits into its components (`Grammar.value`).
-/

namespace Smpp

open Smpp.Field (terminated)

/-- The octets that stand for a type of number. -/
def TypeOfNumber.codes : List UInt8 := [0, 1, 2, 3, 4, 5, 6]

/-- The octets that stand for a numbering plan. -/
def NumberingPlan.codes : List UInt8 := [0, 1, 3, 4, 6, 8, 9, 10, 14, 18]

/-- The octets that stand for a priority. -/
def Priority.codes : List UInt8 := [0, 1, 2, 3]

/-- Where all values are listed, the octets of the list are those of the values. -/
theorem Coded.mem_map_code_iff {α : Type} [Coded α] (values : List α) (hall : ∀ a, a ∈ values)
    (b : UInt8) : b ∈ values.map Coded.code ↔ ∃ a : α, Coded.code a = b := by
  rw [List.mem_map]
  exact exists_congr fun a => and_iff_right (hall a)

theorem TypeOfNumber.mem_codes_iff (b : UInt8) :
    b ∈ codes ↔ ∃ a : TypeOfNumber, Coded.code a = b :=
  Coded.mem_map_code_iff [unknown, international, national, networkSpecific, subscriberNumber,
    alphanumeric, abbreviated] (fun a => by cases a <;> decide) b

theorem NumberingPlan.mem_codes_iff (b : UInt8) :
    b ∈ codes ↔ ∃ a : NumberingPlan, Coded.code a = b :=
  Coded.mem_map_code_iff [unknown, isdn, data, telex, landMobile, national, privatePlan, ermes,
    internet, wapClientId] (fun a => by cases a <;> decide) b

theorem Priority.mem_codes_iff (b : UInt8) :
    b ∈ codes ↔ ∃ a : Priority, Coded.code a = b :=
  Coded.mem_map_code_iff [level0, level1, level2, level3] (fun a => by cases a <;> decide) b

theorem Shape.takes_octet (b : UInt8) : Shape.octet.Takes [b] := .octet b

/-- What is read as a value of an enumeration is one of its octets. -/
theorem Shape.takes_code {α : Type} [Coded α] {codes : List UInt8}
    (hcodes : ∀ b, b ∈ codes ↔ ∃ a : α, Coded.code a = b) (a : α) :
    (Shape.oneOf codes).Takes [Coded.code a] :=
  .oneOf ((hcodes _).2 ⟨a, rfl⟩)

/-! ### Bodies and what they say -/

/-- What the form of a body says of its reader. What a value says is a relation between the value
and what stands in the fields and in the ending. -/
structure Grammar {α : Type} (x : Reader α) (fields : List MandatoryField) (ending : Body.Ending)
    (Says : α → List Octets → Octets → Prop) : Prop where
  /-- A body is accepted exactly if it splits into the fields and the ending, -/
  accepted : ∀ body, (∃ a left, x body = .ok a left) ↔
    ∃ components tail, Body.Splits fields ending body components tail
  /-- and it does so in one way. -/
  unique : ∀ body components tail components' tail',
    Body.Splits fields ending body components tail →
      Body.Splits fields ending body components' tail' → components = components' ∧ tail = tail'
  /-- What is read is what stands in the fields and in the ending, and nothing is left. -/
  value : ∀ body a left, x body = .ok a left ↔
    left = [] ∧ ∃ components tail, Body.Splits fields ending body components tail ∧
      Says a components tail
  /-- The fault is that of the first field that is refused, or of the ending behind all of them. -/
  refused : ∀ body e, (∃ left, x body = .error e left) ↔ Body.Refused ending fields body e

/-! ### Submits -/

namespace Submit

/-- The mandatory fields of a submit, in wire order. -/
def fields : List MandatoryField :=
  [⟨"service_type", .text 6⟩,
    ⟨"source_addr_ton", .oneOf TypeOfNumber.codes⟩,
    ⟨"source_addr_npi", .oneOf NumberingPlan.codes⟩, ⟨"source_addr", .text 21⟩,
    ⟨"dest_addr_ton", .oneOf TypeOfNumber.codes⟩, ⟨"dest_addr_npi", .oneOf NumberingPlan.codes⟩,
    ⟨"destination_addr", .text 21⟩,
    ⟨"esm_class", .octet⟩, ⟨"protocol_id", .octet⟩, ⟨"priority_flag", .oneOf Priority.codes⟩,
    ⟨"schedule_delivery_time", .text 17⟩, ⟨"validity_period", .text 17⟩,
    ⟨"registered_delivery", .octet⟩, ⟨"replace_if_present_flag", .octet⟩, ⟨"data_coding", .octet⟩,
    ⟨"sm_default_msg_id", .octet⟩, ⟨"short_message", .counted "sm_length" 254⟩]

/-- What stands in the mandatory fields of a submit, in wire order. -/
def components (s : Submit) : List Octets :=
  [terminated s.serviceType,
    [Coded.code s.source.typeOfNumber], [Coded.code s.source.numberingPlan],
    terminated s.source.text,
    [Coded.code s.destination.typeOfNumber], [Coded.code s.destination.numberingPlan],
    terminated s.destination.text,
    [s.esmClass], [s.protocolId], [Coded.code s.priority],
    terminated s.scheduledTime, terminated s.validityPeriod,
    [s.registeredDelivery], [s.replaceIfPresent], [s.dataCoding], [s.defaultMessageId],
    Octets.low s.shortMessage.length :: s.shortMessage]

theorem octets_eq (s : Submit) (region : Octets) :
    s.octets region = s.components.flatten ++ region := by
  simp only [octets, components, List.flatten_cons, List.flatten_nil, List.append_assoc,
    List.cons_append, List.nil_append]

theorem takes_message_iff {text : Octets} :
    (Shape.counted "sm_length" 254).Takes (Octets.low text.length :: text) ↔
      text.length ≤ longestShortMessage := by
  refine ⟨fun h => ?_, fun h => .counted (toNat_low_length h) h⟩
  cases h with
  | counted hlength hlimit => exact hlimit

/-- The components of a submit have the shapes of its fields exactly if it fits. -/
theorem forall₂_takes_components_iff {s : Submit} :
    List.Forall₂ (fun f c => f.shape.Takes c) fields s.components ↔ s.Fits := by
  have hton := Shape.takes_code TypeOfNumber.mem_codes_iff
  have hnpi := Shape.takes_code NumberingPlan.mem_codes_iff
  have hpriority := Shape.takes_code Priority.mem_codes_iff
  simp only [fields, components, List.forall₂_cons, List.forall₂_nil_left_iff, true_and, and_true,
    Field.takes_terminated_iff, takes_message_iff, Shape.takes_octet, hton, hnpi, hpriority]
  refine ⟨?_, ?_⟩
  · rintro ⟨hservice, hsource, hdestination, hscheduled, hvalidity, hmessage⟩
    exact ⟨hmessage, hservice, hsource, hdestination, hscheduled, hvalidity⟩
  · rintro ⟨hmessage, hservice, hsource, hdestination, hscheduled, hvalidity⟩
    exact ⟨hservice, hsource, hdestination, hscheduled, hvalidity, hmessage⟩

/-- A submit says what stands in its fields, and its parameters come of inserting those of its
ending one by one. -/
def Says (s : Submit) (components : List Octets) (tail : Octets) : Prop :=
  components = s.components ∧
    ∃ row, Parameters.RowFits row ∧ tail = Parameters.region row ∧ s.parameters = .ofList row

theorem read_eq_ok_iff_splits {body left : Octets} {s : Submit} :
    read body = .ok s left ↔
      left = [] ∧ ∃ components tail, Body.Splits fields .parameters body components tail ∧
        s.Says components tail := by
  simp only [read_eq_ok_iff, Parameters.read_eq_ok_iff, octets_eq]
  refine ⟨?_, ?_⟩
  · rintro ⟨hfits, _, ⟨rfl, row, hrow, rfl, hparameters⟩, rfl⟩
    refine ⟨rfl, s.components, _, ⟨forall₂_takes_components_iff.2 hfits, ⟨row, hrow, rfl⟩, rfl⟩,
      rfl, row, hrow, rfl, hparameters⟩
  · rintro ⟨rfl, _, tail, ⟨hshapes, -, rfl⟩, rfl, row, hrow, rfl, hparameters⟩
    exact ⟨forall₂_takes_components_iff.1 hshapes, _, ⟨rfl, row, hrow, rfl, hparameters⟩, rfl⟩

/-- **A submit is read by its form.** -/
theorem accepts_read : read.Accepts fields .parameters := by
  have hton := @Field.reads_coded TypeOfNumber _ _ TypeOfNumber.mem_codes_iff
  have hnpi := @Field.reads_coded NumberingPlan _ _ NumberingPlan.mem_codes_iff
  have hpriority := @Field.reads_coded Priority _ _ Priority.mem_codes_iff
  -- The parts of an address are fields of the body like all others.
  simp only [read, readAddress, bind_assoc, pure_bind]
  refine .cons (Field.reads_cstring _ _) fun _ => ?_
  refine .cons (hton _) fun _ => .cons (hnpi _) fun _ => .cons (Field.reads_cstring _ _) fun _ => ?_
  refine .cons (hton _) fun _ => .cons (hnpi _) fun _ => .cons (Field.reads_cstring _ _) fun _ => ?_
  refine .cons (Field.reads_octet _) fun _ => .cons (Field.reads_octet _) fun _ => ?_
  refine .cons (hpriority _) fun _ => ?_
  refine .cons (Field.reads_cstring _ _) fun _ => .cons (Field.reads_cstring _ _) fun _ => ?_
  refine .cons (Field.reads_octet _) fun _ => .cons (Field.reads_octet _) fun _ => ?_
  refine .cons (Field.reads_octet _) fun _ => .cons (Field.reads_octet _) fun _ => ?_
  refine .cons reads_readMessage fun _ => ?_
  exact Reader.accepts_ending _ Parameters.exists_read_eq_ok_iff fun _ _ =>
    Parameters.read_eq_error_iff

end Submit

/-! ### Binds -/

namespace Bind

/-- The mandatory fields of a bind, in wire order. -/
def fields : List MandatoryField :=
  [⟨"system_id", .text 16⟩, ⟨"password", .text 9⟩, ⟨"system_type", .text 13⟩,
    ⟨"interface_version", .octet⟩, ⟨"addr_ton", .oneOf TypeOfNumber.codes⟩,
    ⟨"addr_npi", .oneOf NumberingPlan.codes⟩, ⟨"address_range", .text 41⟩]

/-- What stands in the mandatory fields of a bind, in wire order. An octet that means the version
stands for it. -/
def components (b : Bind) (version : UInt8) : List Octets :=
  [terminated b.systemId, terminated b.password, terminated b.systemType, [version],
    [Coded.code b.typeOfNumber], [Coded.code b.numberingPlan], terminated b.addressRange]

theorem octets_eq (b : Bind) (version : UInt8) :
    b.octets version = (b.components version).flatten := by
  simp only [octets, components, List.flatten_cons, List.flatten_nil, List.append_nil,
    List.cons_append, List.nil_append]

/-- The components of a bind have the shapes of its fields exactly if it fits. -/
theorem forall₂_takes_components_iff {b : Bind} {version : UInt8} :
    List.Forall₂ (fun f c => f.shape.Takes c) fields (b.components version) ↔ b.Fits := by
  have hton := Shape.takes_code TypeOfNumber.mem_codes_iff
  have hnpi := Shape.takes_code NumberingPlan.mem_codes_iff
  simp only [fields, components, List.forall₂_cons, List.forall₂_nil_left_iff, true_and, and_true,
    Field.takes_terminated_iff, Shape.takes_octet, hton, hnpi]
  refine ⟨?_, ?_⟩
  · rintro ⟨hsystem, hpassword, htype, hrange⟩
    exact ⟨hsystem, hpassword, htype, hrange⟩
  · rintro ⟨hsystem, hpassword, htype, hrange⟩
    exact ⟨hsystem, hpassword, htype, hrange⟩

/-- A bind of a role says what stands in its fields, and its version is what the octet of the
version means. -/
def Says (role : BindRole) (b : Bind) (components : List Octets) (_tail : Octets) : Prop :=
  b.role = role ∧ ∃ version, b.version = .ofOctet version ∧ components = b.components version

theorem read_eq_ok_iff_splits {role : BindRole} {body left : Octets} {b : Bind} :
    read role body = .ok b left ↔
      left = [] ∧ ∃ components tail, Body.Splits fields .nothing body components tail ∧
        b.Says role components tail := by
  simp only [read_eq_ok_iff, octets_eq]
  refine ⟨?_, ?_⟩
  · rintro ⟨rfl, hrole, hfits, version, hversion, rfl⟩
    exact ⟨rfl, _, [], ⟨forall₂_takes_components_iff.2 hfits, rfl, (List.append_nil _).symm⟩, hrole,
      version, hversion, rfl⟩
  · rintro ⟨rfl, _, _, ⟨hshapes, rfl, rfl⟩, hrole, version, hversion, rfl⟩
    exact ⟨rfl, hrole, forall₂_takes_components_iff.1 hshapes, version, hversion,
      List.append_nil _⟩

/-- **A bind is read by its form.** -/
theorem accepts_read (role : BindRole) : (read role).Accepts fields .nothing := by
  have hton := @Field.reads_coded TypeOfNumber _ _ TypeOfNumber.mem_codes_iff
  have hnpi := @Field.reads_coded NumberingPlan _ _ NumberingPlan.mem_codes_iff
  unfold read
  refine .cons (Field.reads_cstring _ _) fun _ => .cons (Field.reads_cstring _ _) fun _ => ?_
  refine .cons (Field.reads_cstring _ _) fun _ => .cons (Field.reads_octet _) fun _ => ?_
  refine .cons (hton _) fun _ => .cons (hnpi _) fun _ => .cons (Field.reads_cstring _ _) fun _ => ?_
  exact Reader.accepts_ending _ exists_nothingAfter_eq_ok_iff fun _ _ => nothingAfter_eq_error_iff

end Bind

/-- **Submits and binds are accepted exactly by their grammars**, and refused for the first field in
wire order that is not there. -/
theorem bodies_accepted_by_grammar :
    Grammar Submit.read Submit.fields .parameters Submit.Says ∧
      ∀ role, Grammar (Bind.read role) Bind.fields .nothing (Bind.Says role) := by
  refine ⟨⟨Submit.accepts_read.ok, fun _ _ _ _ _ h h' => h.unique h',
    fun _ _ _ => Submit.read_eq_ok_iff_splits, Submit.accepts_read.error⟩, fun role => ?_⟩
  exact ⟨(Bind.accepts_read role).ok, fun _ _ _ _ _ h h' => h.unique h',
    fun _ _ _ => Bind.read_eq_ok_iff_splits, (Bind.accepts_read role).error⟩

end Smpp
