import Smpp.Pdu.Parameters

/-!
# Binding a session

A bind request names the client, its password and the addresses that it serves; its body is exactly
seven mandatory fields. The response to a bind that succeeded names the server and may carry
optional parameters, and any other response has no body.
-/

namespace Smpp

/-- The body of a bind request. -/
structure Bind where
  role : BindRole
  systemId : String
  password : String
  systemType : String
  version : ProtocolVersion
  typeOfNumber : TypeOfNumber
  numberingPlan : NumberingPlan
  addressRange : String
  deriving DecidableEq, Repr

/-- The body of a bind response. -/
structure BindResponse where
  role : BindRole
  systemId : String
  parameters : Parameters
  deriving DecidableEq, Repr

/-! The lengths within which the texts have to end. -/

/-- The name of a client or a server ends within 16 octets. -/
def systemIdLimit : Nat := 16
/-- A password ends within nine octets. -/
def passwordLimit : Nat := 9
/-- The kind of a client ends within 13 octets. -/
def systemTypeLimit : Nat := 13
/-- A range of addresses ends within 41 octets. -/
def addressRangeLimit : Nat := 41

namespace Bind

/-- The written form of the seven fields. -/
def encode (b : Bind) : Except WireError Octets := do
  let systemId ← Field.ofText systemIdLimit "system_id" b.systemId
  let password ← Field.ofText passwordLimit "password" b.password
  let systemType ← Field.ofText systemTypeLimit "system_type" b.systemType
  let addressRange ← Field.ofText addressRangeLimit "address_range" b.addressRange
  return systemId ++ password ++ systemType ++
    [b.version.octet, Coded.code b.typeOfNumber, Coded.code b.numberingPlan] ++ addressRange

/-- Writes the seven fields. -/
def write (b : Bind) : Writer Unit := do
  Field.write systemIdLimit "system_id" b.systemId
  Field.write passwordLimit "password" b.password
  Field.write systemTypeLimit "system_type" b.systemType
  Writer.put [b.version.octet]
  Writer.put [Coded.code b.typeOfNumber]
  Writer.put [Coded.code b.numberingPlan]
  Field.write addressRangeLimit "address_range" b.addressRange

/-- Nothing may follow the last field. -/
def nothingAfter : Reader Unit
  | [] => .ok () []
  | b :: bs => .error (.invalid "body" (.afterAddressRange (bs.length + 1))) (b :: bs)

/-- Reads the seven fields. -/
def read (role : BindRole) : Reader Bind := do
  let systemId ← Field.cstring systemIdLimit "system_id"
  let password ← Field.cstring passwordLimit "password"
  let systemType ← Field.cstring systemTypeLimit "system_type"
  let version ← Field.octet "interface_version"
  let typeOfNumber ← Field.coded TypeOfNumber "addr_ton"
  let numberingPlan ← Field.coded NumberingPlan "addr_npi"
  let addressRange ← Field.cstring addressRangeLimit "address_range"
  nothingAfter
  return { role, systemId, password, systemType, version := .ofOctet version, typeOfNumber,
           numberingPlan, addressRange }

end Bind

namespace BindResponse

/-- The response to a bind that succeeded: it names the server and states the version of the
protocol that the server speaks. -/
def accepted (role : BindRole) (systemId : String) : BindResponse :=
  ⟨role, systemId,
    Parameters.empty.insertOctet Parameters.scInterfaceVersionTag ProtocolVersion.v34.octet⟩

/-- The response to a bind that failed. -/
def refused (role : BindRole) : BindResponse := ⟨role, "", .empty⟩

/-- The written form of a body. -/
def encode (r : BindResponse) : Except WireError Octets := do
  let systemId ← Field.ofText systemIdLimit "system_id" r.systemId
  let parameters ← r.parameters.encode
  return systemId ++ parameters

/-- Writes a body. -/
def write (r : BindResponse) : Writer Unit := do
  Field.write systemIdLimit "system_id" r.systemId
  r.parameters.write

/-- Reads a body that is not empty. -/
def readBody (role : BindRole) : Reader BindResponse := do
  let systemId ← Field.cstring systemIdLimit "system_id"
  let parameters ← Parameters.read
  return ⟨role, systemId, parameters⟩

/-- Reads a body; the empty one names no server. -/
def read (role : BindRole) : Reader BindResponse
  | [] => .ok (refused role) []
  | b :: bs => readBody role (b :: bs)

end BindResponse

end Smpp
