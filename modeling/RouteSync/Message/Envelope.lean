import RouteSync.Message.Json
import RouteSync.Packet.Basic

/-!
# Messages in packets

Messages travel as the data of packets to two fixed destinations.  The packets move no money: their
condition is one that everybody can fulfill.  The form of the data is up to a codec.
-/

namespace RouteSync

/-- Where control requests are sent to. -/
def controlDestination : Address :=
  ⟨"peer.route.control".toList, by decide⟩

/-- Where update requests are sent to. -/
def updateDestination : Address :=
  ⟨"peer.route.update".toList, by decide⟩

/-- The fulfillment of every packet with a message. -/
def peerFulfillment : Bytes32 :=
  Bytes32.replicate 0

/-- The condition of every packet with a message, the digest of its fulfillment. -/
def peerCondition : Bytes32 :=
  ⟨[0x66, 0x68, 0x7a, 0xad, 0xf8, 0x62, 0xbd, 0x77, 0x6c, 0x8f, 0xc1, 0x8b, 0x8e, 0x9f, 0x8e, 0x20,
    0x08, 0x97, 0x14, 0x85, 0x6e, 0xe2, 0x33, 0xb3, 0x90, 0x2a, 0x59, 0x1d, 0x0d, 0x5f, 0x29, 0x25],
    rfl⟩

/-- The answer to a message that was taken in. -/
def accepted : Fulfill :=
  ⟨peerFulfillment, []⟩

/-- The packet that carries a message. -/
def messagePacket (destination : Address) (data : Bytes) (expiresAt : Timestamp) : Prepare :=
  ⟨destination, 0, expiresAt, peerCondition, data⟩

/-- What can be wrong with the packet around a message. -/
inductive EnvelopeError where
  | expired
  | wrongCondition (condition : Bytes32)
  deriving DecidableEq

/-- The wording of an `EnvelopeError`. -/
def EnvelopeError.message : EnvelopeError → String
  | .expired => "invalid CCP packet: packet expired"
  | .wrongCondition condition => "invalid CCP packet: wrong condition: " ++ condition.hex

/-- Look at the packet around a message before the message is read. -/
def checkEnvelope (packet : Prepare) (now : Timestamp) : Except EnvelopeError Unit :=
  if packet.expiresAt < now then .error .expired
  else if packet.condition ≠ peerCondition then .error (.wrongCondition packet.condition)
  else .ok ()

/-- A message could not be written. -/
structure EncodeError where
  reason : String
  deriving DecidableEq, Repr

/-- The wording of an `EncodeError`. -/
def EncodeError.message (e : EncodeError) : String :=
  "could not encode CCP message: " ++ e.reason

/-- How messages are turned into data and back.  Routing never looks at the data. -/
structure Codec where
  encodeControl : ControlRequest → Except EncodeError Bytes
  decodeControl : Bytes → Decoded ControlRequest
  encodeUpdate : UpdateRequest → Except EncodeError Bytes
  decodeUpdate : Bytes → Decoded UpdateRequest

namespace Codec

/-- Messages as JSON. -/
def json : Codec where
  encodeControl r := .ok r.toTree.write
  decodeControl := Json.Tree.decode ControlRequest.ofTree
  encodeUpdate r := .ok r.toTree.write
  decodeUpdate := Json.Tree.decode UpdateRequest.ofTree

/-- The same codec, but nothing can be written. -/
def failing (c : Codec) (reason : String) : Codec :=
  { c with
    encodeControl := fun _ => .error ⟨reason⟩
    encodeUpdate := fun _ => .error ⟨reason⟩ }

end Codec

end RouteSync
