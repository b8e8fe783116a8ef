import RouteSync.Account.Directory

/-!
# Links

A link carries packets to the owner of an account and tells its listeners when it comes up or goes
down.
-/

namespace RouteSync

/-- What happened to a link. -/
inductive LinkChange where
  | connected
  | disconnected
  | failed (message : String)
  deriving DecidableEq, Repr

/-- A change of the link of an account. -/
structure LinkEvent where
  account : AccountId
  change : LinkChange
  deriving DecidableEq

/-- Why a packet was not granted. -/
inductive LinkError where
  /-- The peer refused it. -/
  | rejected (reject : Reject)
  /-- It could not be delivered. -/
  | unreachable (message : String)
  /-- Anything else. -/
  | other (message : String)
  deriving DecidableEq

/-- The wording of a `LinkError`. -/
def LinkError.message : LinkError → String
  | .rejected reject => "packet rejected by peer: " ++ reject.described
  | .unreachable message => "peer unreachable: " ++ message
  | .other message => message

/-- What a link has to say to a packet in the end. -/
abbrev LinkAnswer := Except LinkError Fulfill

/-- The reject that tells the sender of a packet what went wrong on the link.  A reject by the peer
is passed on as it is. -/
def LinkError.toReject (operator : Address) : LinkError → Reject
  | .rejected reject => reject
  | .unreachable message => .because .peerUnreachable message operator
  | .other message => .because .applicationError message operator

/-- A subscription to the events of a link. -/
structure ListenerId where
  index : Nat
  deriving DecidableEq

/-- A link as the node sees it. -/
structure Link where
  account : AccountId
  connected : Bool := true
  listeners : List ListenerId := []
  deriving DecidableEq

namespace Link

def addListener (l : Link) (id : ListenerId) : Link :=
  { l with listeners := l.listeners ++ [id] }

def removeListener (l : Link) (id : ListenerId) : Link :=
  { l with listeners := l.listeners.filter (· != id) }

end Link

end RouteSync
