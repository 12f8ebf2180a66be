import Smpp.Pdu.Parameters

/-!
# Submitting a message

The body of a submit request is sixteen mandatory fields, the message text with its length in front,
and optional parameters. A message that does not fit the mandatory text travels in an optional
parameter, and the text is then empty. The response to a submit that was accepted is the identifier
that the message got; any other response has no body.
-/

namespace Smpp

/-- Where a message comes from or goes to. -/
structure Address where
  typeOfNumber : TypeOfNumber
  numberingPlan : NumberingPlan
  text : String
  deriving DecidableEq, Repr

/-- The body of a submit request. -/
structure Submit where
  serviceType : String
  source : Address
  destination : Address
  esmClass : UInt8
  protocolId : UInt8
  priority : Priority
  scheduledTime : String
  validityPeriod : String
  registeredDelivery : UInt8
  replaceIfPresent : UInt8
  dataCoding : UInt8
  defaultMessageId : UInt8
  shortMessage : Octets
  parameters : Parameters
  deriving DecidableEq, Repr

/-! The lengths within which the texts have to end. -/

/-- The name of a service ends within six octets. -/
def serviceTypeLimit : Nat := 6
/-- An address ends within 21 octets. -/
def addressLimit : Nat := 21
/-- A time ends within 17 octets. -/
def timeLimit : Nat := 17
/-- The identifier of a message ends within 65 octets. -/
def messageIdLimit : Nat := 65

/-- The most octets of a message in its mandatory field. -/
def longestShortMessage : Nat := 254

namespace Submit

/-- The text to deliver: the mandatory one, or the optional one where the mandatory one is empty. -/
def message (s : Submit) : Octets :=
  if s.shortMessage.isEmpty then s.parameters.messagePayload?.getD [] else s.shortMessage

/-- The written form of a body. The length of the message is judged before any field. -/
def encode (s : Submit) : Except WireError Octets :=
  if longestShortMessage < s.shortMessage.length then
    .error (.invalid "short_message" (.tooLong s.shortMessage.length longestShortMessage))
  else do
    let serviceType ← Field.ofText serviceTypeLimit "service_type" s.serviceType
    let source ← Field.ofText addressLimit "source_addr" s.source.text
    let destination ← Field.ofText addressLimit "destination_addr" s.destination.text
    let scheduledTime ← Field.ofText timeLimit "schedule_delivery_time" s.scheduledTime
    let validityPeriod ← Field.ofText timeLimit "validity_period" s.validityPeriod
    let parameters ← s.parameters.encode
    return serviceType ++
      [Coded.code s.source.typeOfNumber, Coded.code s.source.numberingPlan] ++ source ++
      [Coded.code s.destination.typeOfNumber, Coded.code s.destination.numberingPlan] ++
      destination ++
      [s.esmClass, s.protocolId, Coded.code s.priority] ++ scheduledTime ++ validityPeriod ++
      [s.registeredDelivery, s.replaceIfPresent, s.dataCoding, s.defaultMessageId,
        Octets.low s.shortMessage.length] ++ s.shortMessage ++ parameters

/-- Writes a body field by field. The length of the message is judged before any field. -/
def write (s : Submit) : Writer Unit := do
  Writer.require (s.shortMessage.length ≤ longestShortMessage)
    (.invalid "short_message" (.tooLong s.shortMessage.length longestShortMessage))
  Field.write serviceTypeLimit "service_type" s.serviceType
  Writer.put [Coded.code s.source.typeOfNumber]
  Writer.put [Coded.code s.source.numberingPlan]
  Field.write addressLimit "source_addr" s.source.text
  Writer.put [Coded.code s.destination.typeOfNumber]
  Writer.put [Coded.code s.destination.numberingPlan]
  Field.write addressLimit "destination_addr" s.destination.text
  Writer.put [s.esmClass]
  Writer.put [s.protocolId]
  Writer.put [Coded.code s.priority]
  Field.write timeLimit "schedule_delivery_time" s.scheduledTime
  Field.write timeLimit "validity_period" s.validityPeriod
  Writer.put [s.registeredDelivery]
  Writer.put [s.replaceIfPresent]
  Writer.put [s.dataCoding]
  Writer.put [s.defaultMessageId]
  Writer.put [Octets.low s.shortMessage.length]
  Writer.put s.shortMessage
  s.parameters.write

/-- Reads the message text after its length. -/
def readMessage : Reader Octets := fun bs =>
  match Field.octet "sm_length" bs with
  | .error e left => .error e left
  | .ok n left =>
    let text := left.take n.toNat
    if longestShortMessage < n.toNat then
      .error (.invalid "short_message" (.messageLength n.toNat longestShortMessage)) left
    else if text.length < n.toNat then .error (.missing "short_message") left
    else .ok text (left.drop n.toNat)

/-- Reads an address, whose parts go by the given names. -/
def readAddress (ton npi text : String) : Reader Address := do
  let typeOfNumber ← Field.coded TypeOfNumber ton
  let numberingPlan ← Field.coded NumberingPlan npi
  let text ← Field.cstring addressLimit text
  return { typeOfNumber, numberingPlan, text }

/-- Reads a body. -/
def read : Reader Submit := do
  let serviceType ← Field.cstring serviceTypeLimit "service_type"
  let source ← readAddress "source_addr_ton" "source_addr_npi" "source_addr"
  let destination ← readAddress "dest_addr_ton" "dest_addr_npi" "destination_addr"
  let esmClass ← Field.octet "esm_class"
  let protocolId ← Field.octet "protocol_id"
  let priority ← Field.coded Priority "priority_flag"
  let scheduledTime ← Field.cstring timeLimit "schedule_delivery_time"
  let validityPeriod ← Field.cstring timeLimit "validity_period"
  let registeredDelivery ← Field.octet "registered_delivery"
  let replaceIfPresent ← Field.octet "replace_if_present_flag"
  let dataCoding ← Field.octet "data_coding"
  let defaultMessageId ← Field.octet "sm_default_msg_id"
  let shortMessage ← readMessage
  let parameters ← Parameters.read
  return { serviceType, source, destination, esmClass, protocolId, priority, scheduledTime,
           validityPeriod, registeredDelivery, replaceIfPresent, dataCoding, defaultMessageId,
           shortMessage, parameters }

end Submit

namespace SubmitResponse

/-- The written form of a body: the identifier of the message. -/
def encode (messageId : String) : Except WireError Octets :=
  Field.ofText messageIdLimit "message_id" messageId

/-- Writes a body. -/
def write (messageId : String) : Writer Unit :=
  Field.write messageIdLimit "message_id" messageId

/-- Reads a body; the empty one has no identifier. Octets after the identifier are passed over. -/
def read : Reader String
  | [] => .ok "" []
  | b :: bs => Field.cstring messageIdLimit "message_id" (b :: bs)

end SubmitResponse

end Smpp
