import Smpp.Pdu.Bind
import Smpp.Pdu.Submit

/-!
# Messages

A message is what a frame says apart from the status and the sequence number that every frame has.
There are nine kinds. `Message.Kind.read` reads the body of a kind, and refuses a command that is of
another kind; `Message.encode` writes a body. Five kinds have no body, and a negative response to a
bind or a submit has none either, whatever it holds.
-/

namespace Smpp

/-- What a frame says. -/
inductive Message where
  | bind (body : Bind)
  | bindResp (body : BindResponse)
  | unbind
  | unbindResp
  | submit (body : Submit)
  | submitResp (messageId : String)
  | enquireLink
  | enquireLinkResp
  | genericNack
  deriving DecidableEq, Repr

namespace Message

/-- The command of a message. -/
def command : Message → CommandId
  | bind b => b.role.request
  | bindResp r => r.role.response
  | unbind => .unbind
  | unbindResp => .unbindResp
  | submit _ => .submitSm
  | submitResp _ => .submitSmResp
  | enquireLink => .enquireLink
  | enquireLinkResp => .enquireLinkResp
  | genericNack => .genericNack

/-- The protocol's name of a message. -/
def name : Message → String
  | bind b => b.role.requestName
  | bindResp r => r.role.responseName
  | unbind => "unbind"
  | unbindResp => "unbind_resp"
  | submit _ => "submit_sm"
  | submitResp _ => "submit_sm_resp"
  | enquireLink => "enquire_link"
  | enquireLinkResp => "enquire_link_resp"
  | genericNack => "generic_nack"

/-- The written form of a body. A negative response has none, so nothing in it is looked at. -/
def encode (status : CommandStatus) : Message → Except WireError Octets
  | bind b => b.encode
  | bindResp r => if status.isOk then r.encode else .ok []
  | submit s => s.encode
  | submitResp messageId => if status.isOk then SubmitResponse.encode messageId else .ok []
  | unbind | unbindResp | enquireLink | enquireLinkResp | genericNack => .ok []

/-- Writes a body. A negative response has none. -/
def write (status : CommandStatus) : Message → Writer Unit
  | bind b => b.write
  | bindResp r => if status.isOk then r.write else pure ()
  | submit s => s.write
  | submitResp messageId => if status.isOk then SubmitResponse.write messageId else pure ()
  | unbind | unbindResp | enquireLink | enquireLinkResp | genericNack => pure ()

/-- The kinds of messages. -/
inductive Kind where
  | bind
  | bindResp
  | unbind
  | unbindResp
  | submit
  | submitResp
  | enquireLink
  | enquireLinkResp
  | genericNack
  deriving DecidableEq, Repr

namespace Kind

/-- The kind of the messages of a command; reserved commands have none. -/
def ofCommand? : CommandId → Option Kind
  | .bindTransmitter | .bindReceiver | .bindTransceiver => some bind
  | .bindTransmitterResp | .bindReceiverResp | .bindTransceiverResp => some bindResp
  | .unbind => some unbind
  | .unbindResp => some unbindResp
  | .submitSm => some submit
  | .submitSmResp => some submitResp
  | .enquireLink => some enquireLink
  | .enquireLinkResp => some enquireLinkResp
  | .genericNack => some genericNack
  | .deliverSm | .deliverSmResp => none

/-- The name by which a fault calls a kind. -/
def label : Kind → String
  | bind => "bind"
  | bindResp => "bind_resp"
  | unbind => "Unbind"
  | unbindResp => "UnbindResponse"
  | submit => "submit_sm"
  | submitResp => "submit_sm_resp"
  | enquireLink => "EnquireLink"
  | enquireLinkResp => "EnquireLinkResponse"
  | genericNack => "GenericNack"

/-- Reads the body of a kind that has none. -/
def readNothing (k : Kind) (m : Message) : Reader Message
  | [] => .ok m []
  | b :: bs => .error (.invalid "body" (.unexpectedBody k.label (bs.length + 1))) (b :: bs)

/-- Reads a body whose command is known to be of the kind. -/
def readBody (c : CommandId) : Kind → Reader Message
  | bind => do return .bind (← Bind.read ((BindRole.ofRequest? c).getD .transmitter))
  | bindResp => do
    return .bindResp (← BindResponse.read ((BindRole.ofResponse? c).getD .transmitter))
  | unbind => readNothing unbind .unbind
  | unbindResp => readNothing unbindResp .unbindResp
  | submit => do return .submit (← Submit.read)
  | submitResp => do return .submitResp (← SubmitResponse.read)
  | enquireLink => readNothing enquireLink .enquireLink
  | enquireLinkResp => readNothing enquireLinkResp .enquireLinkResp
  | genericNack => readNothing genericNack .genericNack

/-- Reads the body of a message of a kind. A command of another kind is refused. -/
def read (k : Kind) (c : CommandId) : Reader Message :=
  if ofCommand? c = some k then readBody c k else throw (.unexpectedCommand k.label c)

end Kind

end Message

end Smpp
