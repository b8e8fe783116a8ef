import RouteSync.Address.Basic
import RouteSync.Digest.Basic
import RouteSync.Packet.Timestamp

/-!
# Packets

A `Prepare` asks for something, a `Fulfill` grants it and a `Reject` refuses it.  A reject carries a
code of three bytes whose first letter tells how final the refusal is.
-/

namespace RouteSync

/-- How final a refusal is. -/
inductive ErrorClass where
  | final
  | temporary
  | relative
  | unknown
  deriving DecidableEq, Repr

/-- The code of a refusal. -/
structure ErrorCode where
  b0 : UInt8
  b1 : UInt8
  b2 : UInt8
  deriving DecidableEq, Repr

namespace ErrorCode

/-- The bytes of a code. -/
def bytes (c : ErrorCode) : Bytes :=
  [c.b0, c.b1, c.b2]

/-- The class that the first letter of a code announces. -/
def errorClass (c : ErrorCode) : ErrorClass :=
  if c.b0 = 70 then .final
  else if c.b0 = 84 then .temporary
  else if c.b0 = 82 then .relative
  else .unknown

/-- The code as text; a code that is no text shows as question marks. -/
def text (c : ErrorCode) : String :=
  (Text.ofUtf8? c.bytes).getD "???"

/-- F00, a request that makes no sense. -/
def badRequest : ErrorCode := ⟨70, 48, 48⟩
/-- F01, a packet that cannot be read. -/
def invalidPacket : ErrorCode := ⟨70, 48, 49⟩
/-- F02, a destination that cannot be reached. -/
def unreachable : ErrorCode := ⟨70, 48, 50⟩
/-- F99, a final failure of the application. -/
def applicationError : ErrorCode := ⟨70, 57, 57⟩
/-- T00, a failure inside the node. -/
def internalError : ErrorCode := ⟨84, 48, 48⟩
/-- T01, a peer that cannot be reached for now. -/
def peerUnreachable : ErrorCode := ⟨84, 48, 49⟩
/-- T02, a peer that is busy. -/
def peerBusy : ErrorCode := ⟨84, 48, 50⟩
/-- T99, a temporary failure of the application. -/
def temporaryApplicationError : ErrorCode := ⟨84, 57, 57⟩
/-- R00, a transfer that ran out of time. -/
def transferTimedOut : ErrorCode := ⟨82, 48, 48⟩
/-- R99, a relative failure of the application. -/
def relativeApplicationError : ErrorCode := ⟨82, 57, 57⟩

/-- All codes with a name. -/
def named : List ErrorCode :=
  [badRequest, invalidPacket, unreachable, applicationError, internalError, peerUnreachable,
    peerBusy, temporaryApplicationError, transferTimedOut, relativeApplicationError]

end ErrorCode

/-- A request on its way to a destination. -/
structure Prepare where
  destination : Address
  amount : UInt64
  expiresAt : Timestamp
  condition : Bytes32
  data : Bytes
  deriving DecidableEq

/-- The answer that grants a request. -/
structure Fulfill where
  fulfillment : Bytes32
  data : Bytes
  deriving DecidableEq

/-- The answer that refuses a request. -/
structure Reject where
  code : ErrorCode
  message : Bytes
  triggeredBy : Option Address
  data : Bytes
  deriving DecidableEq

/-- The answer to a request. -/
abbrev Reply := Except Reject Fulfill

/-- A refusal with a message, without data. -/
def Reject.because (code : ErrorCode) (message : String) (triggeredBy : Address) : Reject :=
  ⟨code, Text.utf8Bytes message, some triggeredBy, []⟩

end RouteSync
