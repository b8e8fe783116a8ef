import RouteSync.Node.Basic

/-!
# Choosing the route for a prefix

A static route comes first, then a route that the node makes itself, then the best of the routes
that the peers advertise.  `recompute` makes the choice anew for one prefix and passes a change of
the next hop on to the outgoing table.
-/

namespace RouteSync

/-- The static route for a prefix.  Only the first one for the prefix counts, and only if its
account exists. -/
def Settings.staticRoute? (s : Settings) (d : Directory) (p : Prefix) : Option Route :=
  match s.staticRoutes.find? (·.target == p) with
  | some r => if d.knows r.peer then some (Route.originated p r.peer s.routingSecret) else none
  | none => none

namespace Node

/-- What the tracked peers advertise for a prefix. -/
def peerRoutes (n : Node) (p : Prefix) : List (Option IncomingRoute) :=
  n.openSessions.map (·.receiver.route? p)

/-- The best route that a peer advertises for a prefix. -/
def bestPeerRoute (n : Node) (p : Prefix) : Except RoutingError (Option IncomingRoute) :=
  (n.directory.bestRoute (n.peerRoutes p)).mapError fun e => .accountNotFound e.account

/-- The route for a prefix, given the best one of the peers. -/
def select (n : Node) (p : Prefix) (peerRoute : Option IncomingRoute) : Option Route :=
  ((n.settings.staticRoute? n.directory p).or (n.originated.get? p)).or
    (peerRoute.map IncomingRoute.toRoute)

/-- The best route for a prefix. -/
def bestRoute (n : Node) (p : Prefix) : Except RoutingError (Option Route) :=
  (n.bestPeerRoute p).map (n.select p)

/-- Note the best peer route for a prefix. -/
def noteIncoming (n : Node) (p : Prefix) (peerRoute : Option IncomingRoute) : Node :=
  { n with incoming := n.incoming.set p peerRoute }

/-- Use another route for a prefix and pass that on.  Nothing happens while the next hop stays the
same. -/
def adopt (n : Node) (p : Prefix) (route : Option Route) : Node :=
  if (n.localTable.get? p).map Route.nextHop = route.map Route.nextHop then n
  else
    let routes := n.localTable.set p route
    { n with
      localTable := routes
      outgoing := n.outgoing.refresh n.exportPolicy routes p }

/-- Choose the route for a prefix anew.  On an error nothing has changed. -/
def recompute (n : Node) (p : Prefix) : Except RoutingError Node := do
  let peerRoute ← n.bestPeerRoute p
  let n := n.noteIncoming p peerRoute
  return n.adopt p (n.select p peerRoute)

/-- Choose the routes for several prefixes anew, up to the first error. -/
def recomputeAll (n : Node) : List Prefix → Node × Except RoutingError Unit
  | [] => (n, .ok ())
  | p :: ps =>
    match n.recompute p with
    | .ok n => n.recomputeAll ps
    | .error e => (n, .error e)

/-- Choose the routes for several prefixes anew, passing over those with an error. -/
def recomputeEach (n : Node) (ps : List Prefix) : Node :=
  ps.foldl (fun n p => (n.recompute p).toOption.getD n) n

/-- Where packets for an address go. -/
def findRoute (n : Node) (destination : Address) : Option Route :=
  n.localTable.lookup destination

end Node

end RouteSync
