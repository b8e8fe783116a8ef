import RouteSync.Node.Tracking

/-!
# Messages from peers

Packets with messages are answered at once; what they ask for beyond that is left as tasks.  Routes
that are none of the peer's business are dropped before the receiver sees them: those outside of the
global prefix or for the whole of it, those at or below the node's own address, and those that went
through the node before.
-/

namespace RouteSync

/-- Whether a route from a peer is let in. -/
def Settings.admits (s : Settings) (r : AdvertisedRoute) : Bool :=
  r.target.root == s.globalPrefix && r.target != s.globalPrefix &&
    !r.target.startsWith s.operatorPrefix && !r.path.contains s.operator

/-- An update without the routes that are not let in.  Withdrawals stay. -/
def UpdateRequest.admitted (u : UpdateRequest) (s : Settings) : UpdateRequest :=
  { u with newRoutes := u.newRoutes.filter s.admits }

/-- Why a packet of a peer is refused. -/
inductive Refusal where
  | notTracked
  | noMessage
  | badEnvelope (e : EnvelopeError)
  | notSentRoutes
  | badControl
  | routesNotAccepted
  | badUpdate
  | gap (expected found : Nat)
  | notProcessed

namespace Refusal

/-- The code of a refusal. -/
def code : Refusal → ErrorCode
  | .noMessage => .unreachable
  | .notProcessed => .internalError
  | _ => .badRequest

/-- The wording of a refusal. -/
def message : Refusal → String
  | .notTracked => "Account is not tracked for routing"
  | .noMessage => "Packet is not a CCP message"
  | .badEnvelope e => e.message
  | .notSentRoutes => "We are not configured to send routes to you, sorry"
  | .badControl => "Invalid route control request"
  | .routesNotAccepted => "Your route broadcasts are not accepted here"
  | .badUpdate => "Invalid route update request"
  | .gap expected found =>
    "Gap in routing table. Expected epoch: " ++ toString expected ++ ", got from_epoch: " ++
      toString found
  | .notProcessed => "Error processing route update"

/-- The packet that refuses. -/
def toReject (operator : Address) (r : Refusal) : Reject :=
  .because r.code r.message operator

end Refusal

/-- A node after a packet, whether the packet was refused, and the work that is left. -/
structure Handled where
  node : Node
  refusal : Option Refusal := none
  tasks : List Task := []

namespace Node

/-- A control request of the peer of a session. -/
def handleControl (n : Node) (s : SessionId) (session : Session) (data : Bytes) : Handled :=
  if !session.account.sendsRoutes then ⟨n, some .notSentRoutes, []⟩
  else
    match n.codec.decodeControl data with
    | .error _ => ⟨n, some .badControl, []⟩
    | .ok request =>
      let n := n.modifySession s fun session =>
        { session with sender := session.sender.control n.outgoing request }
      ⟨n, none, if request.mode = .sync then [.sendUpdate s] else []⟩

/-- Choose again for the prefixes that an update changed. -/
def integrate (n : Node) (changed : List Prefix) : Handled :=
  match n.recomputeAll changed with
  | (n, .ok ()) => ⟨n, none, []⟩
  | (n, .error _) => ⟨n, some .notProcessed, []⟩

/-- An update of the peer of a session. -/
def handleUpdate (n : Node) (now : Timestamp) (s : SessionId) (session : Session) (data : Bytes) :
    Handled :=
  if !session.account.receivesRoutes then ⟨n, some .routesNotAccepted, []⟩
  else
    match n.codec.decodeUpdate data with
    | .error _ => ⟨n, some .badUpdate, []⟩
    | .ok update =>
      let (receiver, outcome) := session.receiver.apply now (update.admitted n.settings)
      let n := n.modifySession s fun session => { session with receiver := receiver }
      match outcome with
      | .invalid => ⟨n, some .badUpdate, []⟩
      | .gap expected => ⟨n, some (.gap expected update.fromEpoch), [.requestRoutes s]⟩
      | .applied changed => n.integrate changed
      | .heartbeat => n.integrate []
      | .stale => n.integrate []

/-- A packet from the owner of an account. -/
def handlePacket (n : Node) (now : Timestamp) (account : AccountId) (packet : Prepare) : Handled :=
  match n.trackedSession? account with
  | none => ⟨n, some .notTracked, []⟩
  | some s =>
    match n.session? s with
    | none => ⟨n, some .notTracked, []⟩
    | some session =>
      if packet.destination ≠ controlDestination ∧ packet.destination ≠ updateDestination then
        ⟨n, some .noMessage, []⟩
      else
        match checkEnvelope packet now with
        | .error e => ⟨n, some (.badEnvelope e), []⟩
        | .ok () =>
          if packet.destination = controlDestination then n.handleControl s session packet.data
          else n.handleUpdate now s session packet.data

/-- The answer to a packet from the owner of an account. -/
def handlePrepare (n : Node) (now : Timestamp) (account : AccountId) (packet : Prepare) :
    Node × Reply × List Task :=
  let handled := n.handlePacket now account packet
  let reply : Reply :=
    match handled.refusal with
    | none => .ok accepted
    | some refusal => .error (refusal.toReject n.settings.operator)
  (handled.node, reply, handled.tasks)

end Node

end RouteSync
