/-!
# Commands

The command identifiers that the protocol gives a meaning to here. Each has a code, the word that
stands for it in a header; the highest bit of a code marks a response. `CommandId.ofCode?` is the
inverse of `CommandId.code` on the codes that have a meaning (`ofCode?_eq_some_iff`). A response's
code is its request's with the highest bit set, so requests and responses come in pairs; the
negative acknowledgement has no request of its own.
-/

namespace Smpp

/-- The commands that have a meaning. Delivery towards a client is reserved: its identifiers are
known and its bodies are not read. -/
inductive CommandId where
  | genericNack
  | bindReceiver
  | bindReceiverResp
  | bindTransmitter
  | bindTransmitterResp
  | submitSm
  | submitSmResp
  | deliverSm
  | deliverSmResp
  | unbind
  | unbindResp
  | bindTransceiver
  | bindTransceiverResp
  | enquireLink
  | enquireLinkResp
  deriving DecidableEq, Repr

/-- Whether a code has the bit that marks a response. -/
def isResponseCode (code : UInt32) : Bool := 2147483648 ≤ code.toNat

namespace CommandId

/-- Every command, by ascending code. -/
def all : List CommandId :=
  [bindReceiver, bindTransmitter, submitSm, deliverSm, unbind, bindTransceiver, enquireLink,
    genericNack, bindReceiverResp, bindTransmitterResp, submitSmResp, deliverSmResp, unbindResp,
    bindTransceiverResp, enquireLinkResp]

/-- The word that stands for a command in a header. -/
def code : CommandId → UInt32
  | genericNack => 0x80000000
  | bindReceiver => 0x00000001
  | bindReceiverResp => 0x80000001
  | bindTransmitter => 0x00000002
  | bindTransmitterResp => 0x80000002
  | submitSm => 0x00000004
  | submitSmResp => 0x80000004
  | deliverSm => 0x00000005
  | deliverSmResp => 0x80000005
  | unbind => 0x00000006
  | unbindResp => 0x80000006
  | bindTransceiver => 0x00000009
  | bindTransceiverResp => 0x80000009
  | enquireLink => 0x00000015
  | enquireLinkResp => 0x80000015

/-- The command that a word stands for. -/
def ofCode? (w : UInt32) : Option CommandId := all.find? (·.code == w)

/-- The name of a command in a message. -/
def name : CommandId → String
  | genericNack => "GenericNack"
  | bindReceiver => "BindReceiver"
  | bindReceiverResp => "BindReceiverResp"
  | bindTransmitter => "BindTransmitter"
  | bindTransmitterResp => "BindTransmitterResp"
  | submitSm => "SubmitSm"
  | submitSmResp => "SubmitSmResp"
  | deliverSm => "DeliverSm"
  | deliverSmResp => "DeliverSmResp"
  | unbind => "Unbind"
  | unbindResp => "UnbindResp"
  | bindTransceiver => "BindTransceiver"
  | bindTransceiverResp => "BindTransceiverResp"
  | enquireLink => "EnquireLink"
  | enquireLinkResp => "EnquireLinkResp"

/-- Whether a command answers another. -/
def isResponse (c : CommandId) : Bool := isResponseCode c.code

/-- The command that answers a request. -/
def response? (c : CommandId) : Option CommandId :=
  if c.isResponse then none else ofCode? (c.code + 2147483648)

@[simp] theorem ofCode?_code (c : CommandId) : ofCode? c.code = some c := by
  cases c <;> decide

/-- **A word stands for a command exactly if it is the command's code.** -/
theorem ofCode?_eq_some_iff {w : UInt32} {c : CommandId} : ofCode? w = some c ↔ c.code = w := by
  constructor
  · intro h
    simpa using List.find?_some h
  · rintro rfl
    exact ofCode?_code c

end CommandId

/-- What a client asks to be bound as. -/
inductive BindRole where
  | transmitter
  | receiver
  | transceiver
  deriving DecidableEq, Repr

namespace BindRole

/-- The name of a role. -/
def name : BindRole → String
  | transmitter => "Transmitter"
  | receiver => "Receiver"
  | transceiver => "Transceiver"

/-- The command that asks for a role. -/
def request : BindRole → CommandId
  | transmitter => .bindTransmitter
  | receiver => .bindReceiver
  | transceiver => .bindTransceiver

/-- The command that answers the request for a role. -/
def response : BindRole → CommandId
  | transmitter => .bindTransmitterResp
  | receiver => .bindReceiverResp
  | transceiver => .bindTransceiverResp

/-- The role that a request asks for. -/
def ofRequest? : CommandId → Option BindRole
  | .bindTransmitter => some transmitter
  | .bindReceiver => some receiver
  | .bindTransceiver => some transceiver
  | _ => none

/-- The role that a response is about. -/
def ofResponse? : CommandId → Option BindRole
  | .bindTransmitterResp => some transmitter
  | .bindReceiverResp => some receiver
  | .bindTransceiverResp => some transceiver
  | _ => none

/-- The role that a command is about, be it a request or a response. -/
def ofCommand? (c : CommandId) : Option BindRole := (ofRequest? c).or (ofResponse? c)

/-- Whether the role allows a client to submit messages. -/
def canTransmit : BindRole → Bool
  | transmitter => true
  | receiver => false
  | transceiver => true

/-- The protocol's name of the request for a role. -/
def requestName : BindRole → String
  | transmitter => "bind_transmitter"
  | receiver => "bind_receiver"
  | transceiver => "bind_transceiver"

/-- The protocol's name of the response about a role. -/
def responseName (r : BindRole) : String := r.requestName ++ "_resp"

theorem ofRequest?_eq_some_iff {c : CommandId} {r : BindRole} :
    ofRequest? c = some r ↔ r.request = c := by
  cases c <;> cases r <;> decide

theorem ofResponse?_eq_some_iff {c : CommandId} {r : BindRole} :
    ofResponse? c = some r ↔ r.response = c := by
  cases c <;> cases r <;> decide

end BindRole

end Smpp
