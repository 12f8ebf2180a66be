import Smpp.Pdu.Command
import Smpp.Pdu.Status
import Smpp.Text.Numeral
import Smpp.Text.Utf8

/-!
# Faults of the wire format

Why octets are no frame, and why a frame has no octets. A fault is a cause; `WireError.message` puts
it into words and `WireError.status` says with which status it is reported to the other side.

A field is known by its name in the protocol. The status of a field that is malformed depends on
the field, that of one that is absent only on whether it is the message text.
-/

namespace Smpp

/-- What is wrong with the value of a field. -/
inductive Reason where
  /-- The field has more octets than its limit. -/
  | tooLong (octets limit : Nat)
  /-- The text holds the octet that would end it. -/
  | embeddedNul
  /-- The text does not end within its limit. -/
  | unterminated (limit : Nat)
  /-- The octet stands for no value of the field. -/
  | unsupported (value : UInt8)
  /-- The stated length of the message exceeds its limit. -/
  | messageLength (stated limit : Nat)
  /-- Octets follow the last field of a bind. -/
  | afterAddressRange (octets : Nat)
  /-- A command without a body has one. -/
  | unexpectedBody (command : String) (octets : Nat)
  /-- The value of an optional parameter has more octets than its length can state. -/
  | parameterTooLong (tag : UInt16) (octets limit : Nat)
  /-- A reason in words of its own. -/
  | other (text : String)
  deriving DecidableEq, Repr

/-- The words for what is wrong with a field. -/
def Reason.message : Reason → String
  | .tooLong octets limit =>
    Numeral.decimal octets ++ " octets, limit is " ++ Numeral.decimal limit
  | .embeddedNul => "embedded NUL"
  | .unterminated limit => "not terminated within " ++ Numeral.decimal limit ++ " octets"
  | .unsupported value => "unsupported value " ++ Numeral.hex 2 value.toNat
  | .messageLength stated limit =>
    "sm_length " ++ Numeral.decimal stated ++ " exceeds " ++ Numeral.decimal limit
  | .afterAddressRange octets => Numeral.decimal octets ++ " octets after address_range"
  | .unexpectedBody command octets =>
    command ++ " carries " ++ Numeral.decimal octets ++ " unexpected body octets"
  | .parameterTooLong tag octets limit =>
    "value of tag " ++ Numeral.hex 4 tag.toNat ++ " is " ++ Numeral.decimal octets ++
      " octets, limit is " ++ Numeral.decimal limit
  | .other text => text

/-- A fault of the wire format. -/
inductive WireError where
  /-- The octets are the start of a frame, and more are needed. -/
  | incomplete
  /-- The stated length of a frame is outside its bounds. -/
  | invalidLength (length least most : Nat)
  /-- The word stands for no command. -/
  | unknownCommand (id : UInt32)
  /-- The command is not of the kind that was asked for. -/
  | unexpectedCommand (expected : String) (actual : CommandId)
  /-- The word stands for no status. -/
  | invalidStatus (word : UInt32)
  /-- An optional parameter states a longer value than is there. -/
  | parameterOverflow (tag : UInt16) (length remaining : Nat)
  /-- Too few octets are left for the tag and the length of an optional parameter. -/
  | truncatedParameter (remaining : Nat)
  /-- A field is absent. -/
  | missing (field : String)
  /-- The value of a field is refused. -/
  | invalid (field : String) (reason : Reason)
  /-- A field is no text. -/
  | notText (field : String) (fault : Utf8.Fault)
  deriving DecidableEq, Repr

namespace WireError

/-- The name of a kind of fault. -/
def name : WireError → String
  | incomplete => "Incomplete"
  | invalidLength .. => "InvalidLength"
  | unknownCommand _ => "UnknownCommandId"
  | unexpectedCommand .. => "UnexpectedCommandId"
  | invalidStatus _ => "InvalidCommandStatus"
  | parameterOverflow .. => "TlvLengthOverflow"
  | truncatedParameter _ => "TruncatedTlv"
  | missing _ => "MissingMandatoryField"
  | invalid .. => "FieldValidation"
  | notText .. => "Utf8Error"

/-- The words for a fault. -/
def message : WireError → String
  | incomplete => "Incomplete PDU: need more data"
  | invalidLength length least most =>
    "Invalid PDU length: " ++ Numeral.decimal length ++ ", must be " ++ Numeral.decimal least ++
      "-" ++ Numeral.decimal most
  | unknownCommand id => "Unknown command_id: " ++ Numeral.hex 8 id.toNat
  | unexpectedCommand expected actual =>
    "Unexpected command_id " ++ actual.name ++ " for " ++ expected ++ " PDU"
  | invalidStatus word => "Invalid command_status: " ++ Numeral.hex 1 word.toNat
  | parameterOverflow tag length remaining =>
    "TLV " ++ Numeral.hex 4 tag.toNat ++ " declares " ++ Numeral.decimal length ++
      " octets but only " ++ Numeral.decimal remaining ++ " remain"
  | truncatedParameter remaining =>
    "Truncated TLV header: " ++ Numeral.decimal remaining ++ " octets left in PDU"
  | missing field => "Missing mandatory field '" ++ field ++ "'"
  | invalid field reason => "Field '" ++ field ++ "' validation failed: " ++ reason.message
  | notText field fault => "UTF-8 decoding error in field '" ++ field ++ "': " ++ fault.message

/-- The status that reports a refused value of a field. -/
def fieldStatus (field : String) : CommandStatus :=
  match field with
  | "system_id" => .invalidSystemId
  | "password" => .invalidPassword
  | "system_type" => .invalidSystemType
  | "service_type" => .invalidServiceType
  | "source_addr" => .invalidSourceAddress
  | "source_addr_ton" => .invalidSourceAddressTon
  | "source_addr_npi" => .invalidSourceAddressNpi
  | "destination_addr" => .invalidDestinationAddress
  | "dest_addr_ton" => .invalidDestinationAddressTon
  | "dest_addr_npi" => .invalidDestinationAddressNpi
  | "priority_flag" => .invalidPriorityFlag
  | "schedule_delivery_time" => .invalidScheduledDeliveryTime
  | "validity_period" => .invalidExpiryTime
  | "short_message" => .invalidMsgLength
  | "tlv" => .invalidOptionalParameterValue
  | "body" => .invalidCommandLength
  | _ => .systemError

/-- The status that reports a fault. -/
def status : WireError → CommandStatus
  | invalidLength .. => .invalidCommandLength
  | missing field => if field = "short_message" then .invalidMsgLength else .invalidCommandLength
  | unknownCommand _ | unexpectedCommand .. => .invalidCommandId
  | parameterOverflow .. | truncatedParameter _ => .invalidParameterLength
  | invalid field _ => fieldStatus field
  | incomplete | invalidStatus _ | notText .. => .systemError

end WireError

end Smpp
