/-!
# Command status

The status words of the protocol. A request carries `ok`, and a response says with its status
whether the request was carried out and, if not, what was wrong with it. Words outside the table
stand for no status: `CommandStatus.ofCode?` is the inverse of `CommandStatus.code` on the table
(`ofCode?_eq_some_iff`) and `none` elsewhere.
-/

namespace Smpp

/-- The outcomes that a response can report. -/
inductive CommandStatus where
  | ok
  | invalidMsgLength
  | invalidCommandLength
  | invalidCommandId
  | invalidBindStatus
  | alreadyBound
  | invalidPriorityFlag
  | invalidRegisteredDeliveryFlag
  | systemError
  | invalidSourceAddress
  | invalidDestinationAddress
  | invalidMessageId
  | bindFailed
  | invalidPassword
  | invalidSystemId
  | messageQueueFull
  | invalidServiceType
  | invalidEsmClass
  | submitFailed
  | invalidSourceAddressTon
  | invalidSourceAddressNpi
  | invalidDestinationAddressTon
  | invalidDestinationAddressNpi
  | invalidSystemType
  | throttled
  | invalidScheduledDeliveryTime
  | invalidExpiryTime
  | invalidOptionalParameterStream
  | optionalParameterNotAllowed
  | invalidParameterLength
  | missingOptionalParameter
  | invalidOptionalParameterValue
  | deliveryFailed
  | unknownError
  deriving DecidableEq, Repr

namespace CommandStatus

/-- Every status, by ascending code. -/
def all : List CommandStatus :=
  [ok, invalidMsgLength, invalidCommandLength, invalidCommandId, invalidBindStatus,
    alreadyBound, invalidPriorityFlag, invalidRegisteredDeliveryFlag, systemError,
    invalidSourceAddress, invalidDestinationAddress, invalidMessageId, bindFailed,
    invalidPassword, invalidSystemId, messageQueueFull, invalidServiceType, invalidEsmClass,
    submitFailed, invalidSourceAddressTon, invalidSourceAddressNpi,
    invalidDestinationAddressTon, invalidDestinationAddressNpi, invalidSystemType,
    throttled, invalidScheduledDeliveryTime, invalidExpiryTime,
    invalidOptionalParameterStream, optionalParameterNotAllowed, invalidParameterLength,
    missingOptionalParameter, invalidOptionalParameterValue, deliveryFailed, unknownError]

/-- The word that stands for a status in a header. -/
def code : CommandStatus → UInt32
  | ok => 0x00000000
  | invalidMsgLength => 0x00000001
  | invalidCommandLength => 0x00000002
  | invalidCommandId => 0x00000003
  | invalidBindStatus => 0x00000004
  | alreadyBound => 0x00000005
  | invalidPriorityFlag => 0x00000006
  | invalidRegisteredDeliveryFlag => 0x00000007
  | systemError => 0x00000008
  | invalidSourceAddress => 0x0000000A
  | invalidDestinationAddress => 0x0000000B
  | invalidMessageId => 0x0000000C
  | bindFailed => 0x0000000D
  | invalidPassword => 0x0000000E
  | invalidSystemId => 0x0000000F
  | messageQueueFull => 0x00000014
  | invalidServiceType => 0x00000015
  | invalidEsmClass => 0x00000043
  | submitFailed => 0x00000045
  | invalidSourceAddressTon => 0x00000048
  | invalidSourceAddressNpi => 0x00000049
  | invalidDestinationAddressTon => 0x00000050
  | invalidDestinationAddressNpi => 0x00000051
  | invalidSystemType => 0x00000053
  | throttled => 0x00000058
  | invalidScheduledDeliveryTime => 0x00000061
  | invalidExpiryTime => 0x00000062
  | invalidOptionalParameterStream => 0x000000C0
  | optionalParameterNotAllowed => 0x000000C1
  | invalidParameterLength => 0x000000C2
  | missingOptionalParameter => 0x000000C3
  | invalidOptionalParameterValue => 0x000000C4
  | deliveryFailed => 0x000000FE
  | unknownError => 0x000000FF

/-- The status that a word stands for. -/
def ofCode? (w : UInt32) : Option CommandStatus := all.find? (·.code == w)

/-- The name of a status. -/
def name : CommandStatus → String
  | ok => "Ok"
  | invalidMsgLength => "InvalidMsgLength"
  | invalidCommandLength => "InvalidCommandLength"
  | invalidCommandId => "InvalidCommandId"
  | invalidBindStatus => "InvalidBindStatus"
  | alreadyBound => "AlreadyBound"
  | invalidPriorityFlag => "InvalidPriorityFlag"
  | invalidRegisteredDeliveryFlag => "InvalidRegisteredDeliveryFlag"
  | systemError => "SystemError"
  | invalidSourceAddress => "InvalidSourceAddress"
  | invalidDestinationAddress => "InvalidDestinationAddress"
  | invalidMessageId => "InvalidMessageId"
  | bindFailed => "BindFailed"
  | invalidPassword => "InvalidPassword"
  | invalidSystemId => "InvalidSystemId"
  | messageQueueFull => "MessageQueueFull"
  | invalidServiceType => "InvalidServiceType"
  | invalidEsmClass => "InvalidEsmClass"
  | submitFailed => "SubmitFailed"
  | invalidSourceAddressTon => "InvalidSourceAddressTon"
  | invalidSourceAddressNpi => "InvalidSourceAddressNpi"
  | invalidDestinationAddressTon => "InvalidDestinationAddressTon"
  | invalidDestinationAddressNpi => "InvalidDestinationAddressNpi"
  | invalidSystemType => "InvalidSystemType"
  | throttled => "Throttled"
  | invalidScheduledDeliveryTime => "InvalidScheduledDeliveryTime"
  | invalidExpiryTime => "InvalidExpiryTime"
  | invalidOptionalParameterStream => "InvalidOptionalParameterStream"
  | optionalParameterNotAllowed => "OptionalParameterNotAllowed"
  | invalidParameterLength => "InvalidParameterLength"
  | missingOptionalParameter => "MissingOptionalParameter"
  | invalidOptionalParameterValue => "InvalidOptionalParameterValue"
  | deliveryFailed => "DeliveryFailed"
  | unknownError => "UnknownError"

/-- Whether a request was carried out. -/
def isOk (s : CommandStatus) : Bool := s == ok

@[simp] theorem isOk_iff {s : CommandStatus} : s.isOk = true ↔ s = ok := beq_iff_eq

@[simp] theorem ofCode?_code (s : CommandStatus) : ofCode? s.code = some s := by
  cases s <;> decide

/-- **A word stands for a status exactly if it is the status's code.** -/
theorem ofCode?_eq_some_iff {w : UInt32} {s : CommandStatus} : ofCode? w = some s ↔ s.code = w := by
  constructor
  · intro h
    simpa using List.find?_some h
  · rintro rfl
    exact ofCode?_code s

end CommandStatus

end Smpp
