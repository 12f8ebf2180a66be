/-!
# Enumerated octets

Some fields are one octet of which only a few values have a meaning. `Coded` says that a type is
such an enumeration: each value has an octet, and an octet is read as a value exactly if it is that
value's octet. The protocol version is no such field: every octet is read as one of its versions, so
a version reads back as itself while an octet need not (`ProtocolVersion.ofOctet_octet`).
-/

namespace Smpp

/-- An enumeration that is written as one octet. -/
class Coded (α : Type) where
  /-- The octet of a value. -/
  code : α → UInt8
  /-- The value of an octet. -/
  ofCode? : UInt8 → Option α
  /-- An octet is read as a value exactly if it is the value's octet. -/
  ofCode?_eq_some_iff : ∀ {b : UInt8} {a : α}, ofCode? b = some a ↔ code a = b

/-- What kind of number an address is. -/
inductive TypeOfNumber where
  | unknown
  | international
  | national
  | networkSpecific
  | subscriberNumber
  | alphanumeric
  | abbreviated
  deriving DecidableEq, Repr

namespace TypeOfNumber

/-- The octet of a type of number. -/
def code : TypeOfNumber → UInt8
  | unknown => 0
  | international => 1
  | national => 2
  | networkSpecific => 3
  | subscriberNumber => 4
  | alphanumeric => 5
  | abbreviated => 6

/-- The type of number of an octet. -/
def ofCode? : UInt8 → Option TypeOfNumber
  | 0 => some unknown
  | 1 => some international
  | 2 => some national
  | 3 => some networkSpecific
  | 4 => some subscriberNumber
  | 5 => some alphanumeric
  | 6 => some abbreviated
  | _ => none

/-- The name of a type of number. -/
def name : TypeOfNumber → String
  | unknown => "Unknown"
  | international => "International"
  | national => "National"
  | networkSpecific => "NetworkSpecific"
  | subscriberNumber => "SubscriberNumber"
  | alphanumeric => "Alphanumeric"
  | abbreviated => "Abbreviated"

instance : Coded TypeOfNumber where
  code := code
  ofCode? := ofCode?
  ofCode?_eq_some_iff := by
    intro b a
    constructor
    · intro h
      unfold ofCode? at h
      split at h <;> first | (cases h; rfl) | exact absurd h (by simp)
    · rintro rfl
      cases a <;> rfl

end TypeOfNumber

/-- The numbering plan that an address belongs to. -/
inductive NumberingPlan where
  | unknown
  | isdn
  | data
  | telex
  | landMobile
  | national
  | privatePlan
  | ermes
  | internet
  | wapClientId
  deriving DecidableEq, Repr

namespace NumberingPlan

/-- The octet of a numbering plan. -/
def code : NumberingPlan → UInt8
  | unknown => 0
  | isdn => 1
  | data => 3
  | telex => 4
  | landMobile => 6
  | national => 8
  | privatePlan => 9
  | ermes => 10
  | internet => 14
  | wapClientId => 18

/-- The numbering plan of an octet. -/
def ofCode? : UInt8 → Option NumberingPlan
  | 0 => some unknown
  | 1 => some isdn
  | 3 => some data
  | 4 => some telex
  | 6 => some landMobile
  | 8 => some national
  | 9 => some privatePlan
  | 10 => some ermes
  | 14 => some internet
  | 18 => some wapClientId
  | _ => none

/-- The name of a numbering plan. -/
def name : NumberingPlan → String
  | unknown => "Unknown"
  | isdn => "Isdn"
  | data => "Data"
  | telex => "Telex"
  | landMobile => "LandMobile"
  | national => "National"
  | privatePlan => "Private"
  | ermes => "Ermes"
  | internet => "Internet"
  | wapClientId => "WapClientId"

instance : Coded NumberingPlan where
  code := code
  ofCode? := ofCode?
  ofCode?_eq_some_iff := by
    intro b a
    constructor
    · intro h
      unfold ofCode? at h
      split at h <;> first | (cases h; rfl) | exact absurd h (by simp)
    · rintro rfl
      cases a <;> rfl

end NumberingPlan

/-- How urgent a message is, from the lowest level up. -/
inductive Priority where
  | level0
  | level1
  | level2
  | level3
  deriving DecidableEq, Repr

namespace Priority

/-- The octet of a priority. -/
def code : Priority → UInt8
  | level0 => 0
  | level1 => 1
  | level2 => 2
  | level3 => 3

/-- The priority of an octet. -/
def ofCode? : UInt8 → Option Priority
  | 0 => some level0
  | 1 => some level1
  | 2 => some level2
  | 3 => some level3
  | _ => none

/-- The name of a priority. -/
def name : Priority → String
  | level0 => "Level0"
  | level1 => "Level1"
  | level2 => "Level2"
  | level3 => "Level3"

instance : Coded Priority where
  code := code
  ofCode? := ofCode?
  ofCode?_eq_some_iff := by
    intro b a
    constructor
    · intro h
      unfold ofCode? at h
      split at h <;> first | (cases h; rfl) | exact absurd h (by simp)
    · rintro rfl
      cases a <;> rfl

end Priority

/-- The version of the protocol that a client speaks. -/
inductive ProtocolVersion where
  /-- Version 3.3 or an earlier one. -/
  | v33
  | v34
  | v50
  deriving DecidableEq, Repr

namespace ProtocolVersion

/-- The octet that is written for a version. -/
def octet : ProtocolVersion → UInt8
  | v33 => 0x33
  | v34 => 0x34
  | v50 => 0x50

/-- The version that an octet is read as: up to `33` the oldest, from `50` on the newest. -/
def ofOctet (b : UInt8) : ProtocolVersion :=
  if b.toNat ≤ 0x33 then v33 else if b.toNat ≤ 0x4F then v34 else v50

/-- The name of a version. -/
def name : ProtocolVersion → String
  | v33 => "SmppV33"
  | v34 => "SmppV34"
  | v50 => "SmppV50"

@[simp] theorem ofOctet_octet (v : ProtocolVersion) : ofOctet v.octet = v := by
  cases v <;> rfl

end ProtocolVersion

end Smpp
