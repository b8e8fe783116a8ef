import RouteSync.Node.Reload

/-!
# Work that a node has to do

What a node does in answer to an event is a list of tasks, each of which sends at most one packet.
While a task waits for the answer to its packet, the node may change; the task goes on with the node
as it then is.
-/

namespace RouteSync

/-- A piece of work for a session. -/
inductive Task where
  /-- Ask the peer for routes. -/
  | requestRoutes (s : SessionId)
  /-- Send the peer what it has not seen yet. -/
  | sendUpdate (s : SessionId)
  /-- Make the node's own routes anew and start sending updates. -/
  | finishConnect (s : SessionId)
  /-- Forget what the peer advertised. -/
  | expire (s : SessionId)
  deriving DecidableEq

/-- A packet of a session that waits for its answer. -/
structure Outbound where
  session : SessionId
  link : LinkId
  /-- The address that the node had when the packet went out. -/
  operator : Address
  packet : Prepare
  /-- What the peer knows once it accepted the packet. -/
  upTo : Option Nat

/-- What became of a task: it is over, with an answer if it is one that sends, or it has a packet
under way. -/
inductive Progress where
  | done (reply : Option Reply)
  | waiting (outbound : Outbound)

namespace Node

/-- Start the sending of updates: the first one goes out after the interval. -/
def startBroadcast (n : Node) (clock : Nat) (s : SessionId) : Node :=
  { n with loops := n.loops ++ [⟨s, some (clock + n.settings.broadcastIntervalMs)⟩] }

/-- The last step of connecting: the node's own routes are made anew, and if that went well and the
account is sent routes, the sending of updates starts. -/
def finishConnect (n : Node) (clock : Nat) (s : SessionId) : Node :=
  match n.reload with
  | (n, .error _) => n
  | (n, .ok ()) =>
    if (n.session? s).any (·.account.sendsRoutes) then n.startBroadcast clock s else n

/-- Forget what the peer of a session advertised and choose again for every prefix of it. -/
def expireSession (n : Node) (s : SessionId) : Node :=
  match n.session? s with
  | none => n
  | some session =>
    let (receiver, gone) := session.receiver.clear
    (n.modifySession s fun session => { session with receiver := receiver }).recomputeEach gone

/-- The packet of an offer on the link of a session. -/
def dispatch (n : Node) (s : SessionId) (session : Session) : Offer → Progress
  | .answered reply => .done (some reply)
  | .packet packet upTo => .waiting ⟨s, session.link, n.settings.operator, packet, upTo⟩

/-- Begin a task. -/
def begin (n : Node) (now : Timestamp) (clock : Nat) : Task → Node × Progress
  | .requestRoutes s =>
    match n.session? s with
    | none => (n, .done none)
    | some session => (n, n.dispatch s session (session.receiver.offer n.codec n.settings now))
  | .sendUpdate s =>
    match n.session? s with
    | none => (n, .done none)
    | some session =>
      (n, n.dispatch s session (session.sender.offer n.codec n.settings n.outgoing now))
  | .finishConnect s => (n.finishConnect clock s, .done none)
  | .expire s => (n.expireSession s, .done none)

/-- End a task with the answer to its packet. -/
def settle (n : Node) (o : Outbound) (answer : LinkAnswer) : Node × Reply :=
  match n.session? o.session with
  | none => (n, answer.mapError (LinkError.toReject o.operator))
  | some session =>
    let (sender, reply) := session.sender.settle o.operator o.upTo answer
    (n.modifySession o.session fun session => { session with sender := sender }, reply)

end Node

end RouteSync
