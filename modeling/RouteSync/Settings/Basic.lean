import RouteSync.Account.Basic

/-!
# Settings of a node

What the owner of a node decides: its address, the part of the address space it routes in, where
everything goes that no better route is known for, and how updates are kept and sent.
-/

namespace RouteSync

/-- A route that holds whatever the peers advertise. -/
structure StaticRoute where
  target : Prefix
  peer : AccountId
  deriving DecidableEq

/-- The settings of a node. -/
structure Settings where
  /-- The address of the node. -/
  operator : Address
  /-- The key of the tags on the routes that the node makes itself. -/
  routingSecret : Bytes32
  /-- Routes outside of this prefix are neither accepted nor advertised. -/
  globalPrefix : Prefix := Prefix.global
  /-- Send what no better route is known for to the parent. -/
  useParentForDefaultRoute : Bool := false
  /-- The account that gets what no better route is known for, if it is not the parent. -/
  defaultRoute : Option AccountId := none
  staticRoutes : List StaticRoute := []
  /-- For how many milliseconds peers may keep routes without a further update. -/
  routeExpiryMs : Nat := 30000
  /-- How many milliseconds pass between updates. -/
  broadcastIntervalMs : Nat := 30000
  /-- How many epochs of updates are kept for peers that fall behind. -/
  maxLogLength : Nat := 10000
  deriving DecidableEq

/-- The address of the node as a prefix. -/
def Settings.operatorPrefix (s : Settings) : Prefix :=
  s.operator.toPrefix

end RouteSync
