import RouteSync.Node.Export
import RouteSync.Ranking
import RouteSync.Sender

/-!
# The state of a node

A node keeps four tables: the routes that it makes itself, the best peer route for each prefix, the
routes that it uses, and what it advertises.  For every account that it exchanges routes with it
keeps a session: a sender and a receiver on the account's link.  Sessions are numbered in the order
in which they were opened and stay on record after they were closed, because work that was started
for them may still be under way.
-/

namespace RouteSync

/-- Errors of routing. -/
inductive RoutingError where
  | missingParentAccount
  | missingDefaultRouteAccount (configured : Option AccountId)
  | invalidChildAddress (e : AddressError)
  | accountAlreadyTracked (account : AccountId)
  | accountNotFound (account : AccountId)
  | linkNotFound (account : AccountId)
  deriving DecidableEq

/-- The wording of a `RoutingError`. -/
def RoutingError.message : RoutingError → String
  | .missingParentAccount =>
    "node is configured to use its parent for the default route, but no parent account exists"
  | .missingDefaultRouteAccount configured =>
    "no account exists for the configured default route: " ++
      optional (configured.map AccountId.described)
  | .invalidChildAddress e => "could not derive a child address: " ++ e.message
  | .accountAlreadyTracked account =>
    "account " ++ account.text ++ " is already tracked for routing"
  | .accountNotFound account => "account " ++ account.text ++ " was not found"
  | .linkNotFound account => "no link is available for account " ++ account.text

/-- The number of a session. -/
structure SessionId where
  index : Nat
  deriving DecidableEq

/-- The exchange of routes with one account, from the moment on when the account was tracked. -/
structure Session where
  account : Account
  link : LinkId
  sender : Sender
  receiver : Receiver

/-- A subscription of the node to the link that an account had at the time. -/
structure Subscription where
  account : AccountId
  link : LinkId
  listener : ListenerId
  deriving DecidableEq

/-- The sending of updates to a peer again and again.  A loop that has ended has no deadline. -/
structure BroadcastLoop where
  session : SessionId
  deadline : Option Nat
  deriving DecidableEq

/-- The state of a node, its surroundings included. -/
structure Node where
  settings : Settings
  directory : Directory
  codec : Codec
  /-- The routes that are held back, if the node has a filter. -/
  filter : Option (Prefix → Route → Bool) := none
  /-- The routes that the node makes itself: its own address, the default route and its children. -/
  originated : RouteTable Route := RouteTable.empty
  /-- The best peer route for each prefix. -/
  incoming : RouteTable IncomingRoute := RouteTable.empty
  /-- The routes that the node uses. -/
  localTable : RouteTable Route := RouteTable.empty
  /-- What the node advertises. -/
  outgoing : LoggedTable
  links : List Link := []
  sessions : List Session := []
  /-- The accounts with an open session. -/
  tracked : List (AccountId × SessionId) := []
  subscriptions : List Subscription := []
  nextListener : Nat := 0
  /-- Link events that were not looked at yet. -/
  events : List LinkEvent := []
  /-- Whether somebody looks at them. -/
  listening : Bool := false
  loops : List BroadcastLoop := []

namespace Node

/-- A session by its number. -/
def session? (n : Node) (s : SessionId) : Option Session :=
  n.sessions[s.index]?

/-- Change a session. -/
def modifySession (n : Node) (s : SessionId) (f : Session → Session) : Node :=
  { n with sessions := n.sessions.modify s.index f }

/-- The open session of an account. -/
def trackedSession? (n : Node) (account : AccountId) : Option SessionId :=
  n.tracked.lookup account

/-- The open sessions. -/
def openSessions (n : Node) : List Session :=
  n.tracked.filterMap fun t => n.session? t.2

/-- A link by its number. -/
def link? (n : Node) (l : LinkId) : Option Link :=
  n.links[l.index]?

/-- Change a link. -/
def modifyLink (n : Node) (l : LinkId) (f : Link → Link) : Node :=
  { n with links := n.links.modify l.index f }

/-- The link of an account, as the directory knows it. -/
def linkOf? (n : Node) (account : AccountId) : Option (LinkId × Link) := do
  let l ← n.directory.link? account
  return (l, ← n.link? l)

/-- The rules that decide what the node advertises. -/
def exportPolicy (n : Node) : ExportPolicy where
  operator := n.settings.operator
  globalPrefix := n.settings.globalPrefix
  suppresses p r := n.filter.any fun suppresses => suppresses p r
  maxLogLength := n.settings.maxLogLength

end Node

end RouteSync
