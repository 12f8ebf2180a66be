import Smpp.Proofs.Wire.Regions
import Smpp.Pdu.Bind
import Smpp.Pdu.Submit

/-!
# What the readers of bodies accept

For each of the four bodies with fields: its octets in wire order as a function of what the body
says, what it takes for every field to fit, and two equivalences. `encode_eq_ok_iff` says which
octets are written, `read_eq_ok_iff` from which octets a body is read.

The two sides differ in what the octets hold besides the fields of the body, and nowhere else:

* a bind is written with its version's octet and read with any octet that means the version;
* the parameters of a submit or of a bind response are written as the region of their map, and read
  from any region whose map they are;
* a bind response and a submit response are read from an empty body too, and a submit response
  passes over what follows its identifier.
-/

namespace Smpp

open Smpp.Field (terminated)

/-! ### Binds -/

namespace Bind

/-- Every text of a bind ends within its limit. -/
structure Fits (b : Bind) : Prop where
  systemId : Field.Fits systemIdLimit b.systemId
  password : Field.Fits passwordLimit b.password
  systemType : Field.Fits systemTypeLimit b.systemType
  addressRange : Field.Fits addressRangeLimit b.addressRange

/-- The octets of the seven fields, with some octet for the version. -/
def octets (b : Bind) (version : UInt8) : Octets :=
  terminated b.systemId ++ (terminated b.password ++ (terminated b.systemType ++
    version :: Coded.code b.typeOfNumber :: Coded.code b.numberingPlan ::
      terminated b.addressRange))

/-- **A bind is written with the octet of its version.** -/
theorem encode_eq_ok_iff {b : Bind} {bs : Octets} :
    b.encode = .ok bs ↔ b.Fits ∧ bs = b.octets b.version.octet := by
  unfold encode
  simp only [Except.bind_eq_ok, Except.pure_eq_ok, Field.ofText_eq_ok_iff]
  refine ⟨?_, ?_⟩
  · rintro ⟨_, ⟨h₁, rfl⟩, _, ⟨h₂, rfl⟩, _, ⟨h₃, rfl⟩, _, ⟨h₄, rfl⟩, rfl⟩
    refine ⟨⟨h₁, h₂, h₃, h₄⟩, ?_⟩
    simp only [octets, List.append_assoc, List.cons_append, List.nil_append]
  · rintro ⟨⟨h₁, h₂, h₃, h₄⟩, rfl⟩
    refine ⟨_, ⟨h₁, rfl⟩, _, ⟨h₂, rfl⟩, _, ⟨h₃, rfl⟩, _, ⟨h₄, rfl⟩, ?_⟩
    simp only [octets, List.append_assoc, List.cons_append, List.nil_append]

theorem nothingAfter_eq_ok_iff {u : Unit} {bs left : Octets} :
    nothingAfter bs = .ok u left ↔ bs = [] ∧ left = [] := by
  cases bs with
  | nil =>
    change EStateM.Result.ok () [] = .ok u left ↔ _
    rw [EStateM.Result.ok.injEq]
    exact ⟨fun h => ⟨rfl, h.2.symm⟩, fun h => ⟨rfl, h.2.symm⟩⟩
  | cons b bs => exact ⟨fun h => (nomatch h), fun h => (nomatch h.1)⟩

/-- **A bind is read from its seven fields and nothing more**, the version from any octet that means
it. -/
theorem read_eq_ok_iff {role : BindRole} {b : Bind} {bs left : Octets} :
    read role bs = .ok b left ↔
      left = [] ∧ b.role = role ∧ b.Fits ∧
        ∃ version, b.version = .ofOctet version ∧ bs = b.octets version := by
  unfold read
  -- Field by field: each reader says what the octets start with and what it leaves to the next.
  simp only [Reader.bind_eq_ok, Reader.pure_eq_ok, Field.cstring_eq_ok_iff, Field.octet_eq_ok_iff,
    Field.coded_eq_ok_iff, nothingAfter_eq_ok_iff]
  refine ⟨?_, ?_⟩
  · rintro ⟨_, _, ⟨h₁, rfl⟩, _, _, ⟨h₂, rfl⟩, _, _, ⟨h₃, rfl⟩, version, _, rfl, _, _, rfl, _, _,
      rfl, _, _, ⟨h₄, rfl⟩, _, _, ⟨rfl, rfl⟩, rfl, rfl⟩
    refine ⟨rfl, rfl, ⟨h₁, h₂, h₃, h₄⟩, version, rfl, ?_⟩
    simp only [octets, List.append_nil]
  · rintro ⟨rfl, rfl, ⟨h₁, h₂, h₃, h₄⟩, version, hversion, rfl⟩
    refine ⟨_, _, ⟨h₁, rfl⟩, _, _, ⟨h₂, rfl⟩, _, _, ⟨h₃, rfl⟩, version, _, rfl, _, _, rfl, _, _,
      rfl, _, _, ⟨h₄, (List.append_nil _).symm⟩, (), [], ⟨rfl, rfl⟩, ?_, rfl⟩
    rw [← hversion]

end Bind

/-! ### Bind responses -/

namespace BindResponse

/-- The octets of the server's name and the parameters. -/
def octets (systemId : String) (region : Octets) : Octets := terminated systemId ++ region

theorem encode_eq_ok_iff {r : BindResponse} {bs : Octets} :
    r.encode = .ok bs ↔
      Field.Fits systemIdLimit r.systemId ∧
        ∃ region, r.parameters.encode = .ok region ∧ bs = octets r.systemId region := by
  unfold encode
  simp only [Except.bind_eq_ok, Except.pure_eq_ok, Field.ofText_eq_ok_iff]
  refine ⟨?_, ?_⟩
  · rintro ⟨_, ⟨h, rfl⟩, region, hregion, rfl⟩
    exact ⟨h, region, hregion, rfl⟩
  · rintro ⟨h, region, hregion, rfl⟩
    exact ⟨_, ⟨h, rfl⟩, region, hregion, rfl⟩

theorem readBody_eq_ok_iff {role : BindRole} {r : BindResponse} {bs left : Octets} :
    readBody role bs = .ok r left ↔
      r.role = role ∧ Field.Fits systemIdLimit r.systemId ∧
        ∃ region, Parameters.read region = .ok r.parameters left ∧
          bs = octets r.systemId region := by
  unfold readBody
  simp only [Reader.bind_eq_ok, Reader.pure_eq_ok, Field.cstring_eq_ok_iff]
  refine ⟨?_, ?_⟩
  · rintro ⟨_, region, ⟨h, rfl⟩, _, _, hregion, rfl, rfl⟩
    exact ⟨rfl, h, region, hregion, rfl⟩
  · rintro ⟨rfl, h, region, hregion, rfl⟩
    exact ⟨_, region, ⟨h, rfl⟩, _, _, hregion, rfl, rfl⟩

/-- **A bind response is read from the empty body, or from its fields and nothing more.** -/
theorem read_eq_ok_iff {role : BindRole} {r : BindResponse} {bs left : Octets} :
    read role bs = .ok r left ↔
      (bs = [] ∧ r = refused role ∧ left = []) ∨
        (r.role = role ∧ Field.Fits systemIdLimit r.systemId ∧
          ∃ region, Parameters.read region = .ok r.parameters left ∧
            bs = octets r.systemId region) := by
  -- The empty body is the only one that is not read field by field.
  cases bs with
  | nil =>
    change EStateM.Result.ok (refused role) [] = .ok r left ↔ _
    rw [EStateM.Result.ok.injEq]
    refine ⟨?_, ?_⟩
    · rintro ⟨rfl, rfl⟩
      exact .inl ⟨rfl, rfl, rfl⟩
    · rintro (⟨-, rfl, rfl⟩ | ⟨-, -, region, -, h⟩)
      · exact ⟨rfl, rfl⟩
      · exact absurd h.symm (Field.terminated_append_ne_nil _ _)
  | cons b bs =>
    change readBody role (b :: bs) = _ ↔ _
    rw [readBody_eq_ok_iff]
    refine ⟨?_, ?_⟩
    · exact .inr
    · rintro (⟨h, -⟩ | h)
      · cases h
      · exact h

end BindResponse

/-! ### Submits -/

namespace Submit

/-- Every text of a submit ends within its limit, and the message fits its mandatory field. -/
structure Fits (s : Submit) : Prop where
  shortMessage : s.shortMessage.length ≤ longestShortMessage
  serviceType : Field.Fits serviceTypeLimit s.serviceType
  source : Field.Fits addressLimit s.source.text
  destination : Field.Fits addressLimit s.destination.text
  scheduledTime : Field.Fits timeLimit s.scheduledTime
  validityPeriod : Field.Fits timeLimit s.validityPeriod

/-- The octets of the mandatory fields, followed by some region of parameters. -/
def octets (s : Submit) (region : Octets) : Octets :=
  terminated s.serviceType ++ (
    Coded.code s.source.typeOfNumber :: Coded.code s.source.numberingPlan ::
      (terminated s.source.text ++ (
    Coded.code s.destination.typeOfNumber :: Coded.code s.destination.numberingPlan ::
      (terminated s.destination.text ++ (
    s.esmClass :: s.protocolId :: Coded.code s.priority ::
      (terminated s.scheduledTime ++ (terminated s.validityPeriod ++ (
    s.registeredDelivery :: s.replaceIfPresent :: s.dataCoding :: s.defaultMessageId ::
      Octets.low s.shortMessage.length :: (s.shortMessage ++ region)))))))))

/-- **A submit is written as its mandatory fields, followed by the region of its parameters.** -/
theorem encode_eq_ok_iff {s : Submit} {bs : Octets} :
    s.encode = .ok bs ↔
      s.Fits ∧ ∃ region, s.parameters.encode = .ok region ∧ bs = s.octets region := by
  unfold encode
  -- The message is looked at before any field is written.
  split
  · next h =>
    refine ⟨fun h' => (nomatch h'), ?_⟩
    rintro ⟨hfits, -⟩
    exact absurd hfits.shortMessage (by omega)
  next h =>
  simp only [Except.bind_eq_ok, Except.pure_eq_ok, Field.ofText_eq_ok_iff]
  refine ⟨?_, ?_⟩
  · rintro ⟨_, ⟨h₁, rfl⟩, _, ⟨h₂, rfl⟩, _, ⟨h₃, rfl⟩, _, ⟨h₄, rfl⟩, _, ⟨h₅, rfl⟩, region, hregion,
      rfl⟩
    refine ⟨⟨by omega, h₁, h₂, h₃, h₄, h₅⟩, region, hregion, ?_⟩
    simp only [octets, List.append_assoc, List.cons_append, List.nil_append]
  · rintro ⟨⟨-, h₁, h₂, h₃, h₄, h₅⟩, region, hregion, rfl⟩
    refine ⟨_, ⟨h₁, rfl⟩, _, ⟨h₂, rfl⟩, _, ⟨h₃, rfl⟩, _, ⟨h₄, rfl⟩, _, ⟨h₅, rfl⟩, region, hregion,
      ?_⟩
    simp only [octets, List.append_assoc, List.cons_append, List.nil_append]

/-- The octet that states the length of a message that fits. -/
theorem toNat_low_length {text : Octets} (h : text.length ≤ longestShortMessage) :
    (Octets.low text.length).toNat = text.length := by
  unfold longestShortMessage at h
  rw [Octets.low, UInt8.toNat_ofNat']
  omega

/-- **A message is read from its length and as many octets**, and its length is at most 254. -/
theorem readMessage_eq_ok_iff {text bs left : Octets} :
    readMessage bs = .ok text left ↔
      text.length ≤ longestShortMessage ∧ bs = Octets.low text.length :: (text ++ left) := by
  cases bs with
  | nil => simp [readMessage, Field.octet]
  | cons n bs =>
    simp only [readMessage, Field.octet]
    refine ⟨?_, ?_⟩
    · intro h
      split at h
      · cases h
      next hlimit =>
      split at h
      · cases h
      next hlength =>
      cases h
      -- As many octets were there as the length said.
      have htake : (bs.take n.toNat).length = n.toNat := by
        have := List.length_take_le n.toNat bs
        omega
      refine ⟨by omega, ?_⟩
      rw [htake, Octets.low, UInt8.ofNat_toNat, List.take_append_drop]
    · rintro ⟨hlimit, h⟩
      cases h
      rw [toNat_low_length hlimit, List.take_left, List.drop_left, if_neg (by omega),
        if_neg (Nat.lt_irrefl _)]

theorem readAddress_eq_ok_iff {ton npi name : String} {a : Address} {bs left : Octets} :
    readAddress ton npi name bs = .ok a left ↔
      Field.Fits addressLimit a.text ∧
        bs = Coded.code a.typeOfNumber :: Coded.code a.numberingPlan ::
          (terminated a.text ++ left) := by
  unfold readAddress
  simp only [Reader.bind_eq_ok, Reader.pure_eq_ok, Field.cstring_eq_ok_iff, Field.coded_eq_ok_iff]
  refine ⟨?_, ?_⟩
  · rintro ⟨_, _, rfl, _, _, rfl, _, _, ⟨h, rfl⟩, rfl, rfl⟩
    exact ⟨h, rfl⟩
  · rintro ⟨h, rfl⟩
    exact ⟨_, _, rfl, _, _, rfl, _, _, ⟨h, rfl⟩, rfl, rfl⟩

/-- **A submit is read from its mandatory fields, followed by a region of parameters.** -/
theorem read_eq_ok_iff {s : Submit} {bs left : Octets} :
    read bs = .ok s left ↔
      s.Fits ∧ ∃ region, Parameters.read region = .ok s.parameters left ∧ bs = s.octets region := by
  unfold read
  simp only [Reader.bind_eq_ok, Reader.pure_eq_ok, Field.cstring_eq_ok_iff, Field.octet_eq_ok_iff,
    Field.coded_eq_ok_iff, readAddress_eq_ok_iff, readMessage_eq_ok_iff]
  refine ⟨?_, ?_⟩
  · rintro ⟨_, _, ⟨h₁, rfl⟩, _, _, ⟨h₂, rfl⟩, _, _, ⟨h₃, rfl⟩, _, _, rfl, _, _, rfl, _, _, rfl,
      _, _, ⟨h₄, rfl⟩, _, _, ⟨h₅, rfl⟩, _, _, rfl, _, _, rfl, _, _, rfl, _, _, rfl,
      _, region, ⟨h₆, rfl⟩, _, _, hregion, rfl, rfl⟩
    exact ⟨⟨h₆, h₁, h₂, h₃, h₄, h₅⟩, region, hregion, rfl⟩
  · rintro ⟨⟨h₆, h₁, h₂, h₃, h₄, h₅⟩, region, hregion, rfl⟩
    exact ⟨_, _, ⟨h₁, rfl⟩, _, _, ⟨h₂, rfl⟩, _, _, ⟨h₃, rfl⟩, _, _, rfl, _, _, rfl, _, _, rfl,
      _, _, ⟨h₄, rfl⟩, _, _, ⟨h₅, rfl⟩, _, _, rfl, _, _, rfl, _, _, rfl, _, _, rfl,
      _, region, ⟨h₆, rfl⟩, _, _, hregion, rfl, rfl⟩

end Submit

/-! ### Submit responses -/

namespace SubmitResponse

theorem encode_eq_ok_iff {messageId : String} {bs : Octets} :
    encode messageId = .ok bs ↔
      Field.Fits messageIdLimit messageId ∧ bs = terminated messageId :=
  Field.ofText_eq_ok_iff

/-- **A submit response is read from the empty body, or from its identifier and whatever
follows.** -/
theorem read_eq_ok_iff {messageId : String} {bs left : Octets} :
    read bs = .ok messageId left ↔
      (bs = [] ∧ messageId = "" ∧ left = []) ∨
        (Field.Fits messageIdLimit messageId ∧ bs = terminated messageId ++ left) := by
  cases bs with
  | nil =>
    change EStateM.Result.ok "" [] = .ok messageId left ↔ _
    rw [EStateM.Result.ok.injEq]
    refine ⟨?_, ?_⟩
    · rintro ⟨rfl, rfl⟩
      exact .inl ⟨rfl, rfl, rfl⟩
    · rintro (⟨-, rfl, rfl⟩ | ⟨-, h⟩)
      · exact ⟨rfl, rfl⟩
      · exact absurd h.symm (Field.terminated_append_ne_nil _ _)
  | cons b bs =>
    change Field.cstring _ _ (b :: bs) = _ ↔ _
    rw [Field.cstring_eq_ok_iff]
    refine ⟨?_, ?_⟩
    · exact .inr
    · rintro (⟨h, -⟩ | h)
      · cases h
      · exact h

end SubmitResponse

end Smpp
