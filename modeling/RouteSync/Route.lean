import RouteSync.Account.Basic
import RouteSync.Digest.Sha256

/-!
# Routes

A route says through which account the addresses below a prefix are reached.  It carries the list of
nodes that it was advertised through and a tag that only its origin can make: the keyed hash of the
prefix, hashed once more by every node that passes the route on.
-/

namespace RouteSync

/-- Entries of a routing table: each is about one prefix and leads through one account, or through
none if it takes a route back. -/
class RouteEntry (R : Type) where
  target : R → Prefix
  nextHop? : R → Option AccountId

/-- To reach `target`, forward to `nextHop`. -/
structure Route where
  target : Prefix
  nextHop : AccountId
  /-- The nodes that the route was advertised through, latest first. -/
  path : List Address
  auth : Bytes32
  deriving DecidableEq

/-- A route as it stands in an update.  The next hop is whoever sent the update. -/
structure AdvertisedRoute where
  target : Prefix
  path : List Address
  auth : Bytes32
  deriving DecidableEq

/-- A route just as a peer advertised it. -/
structure IncomingRoute where
  peer : AccountId
  target : Prefix
  path : List Address
  auth : Bytes32
  deriving DecidableEq

/-- What is advertised for a prefix since an epoch; no route means that it was taken back. -/
structure RouteUpdate where
  target : Prefix
  route : Option Route
  epoch : Nat
  deriving DecidableEq

instance : RouteEntry Route where
  target r := r.target
  nextHop? r := some r.nextHop

instance : RouteEntry IncomingRoute where
  target r := r.target
  nextHop? r := some r.peer

instance : RouteEntry RouteUpdate where
  target u := u.target
  nextHop? u := u.route.map Route.nextHop

/-- The tag that the owner of a secret gives to a prefix. -/
def originTag (secret : Bytes32) (target : Prefix) : Bytes32 :=
  Digest.hmacSha256 secret (Text.utf8Bytes target.text)

/-- The tag of a route that was passed on once more. -/
def nextTag (auth : Bytes32) : Bytes32 :=
  Digest.sha256 auth.bytes

namespace Route

/-- A route that the node makes itself. -/
def originated (target : Prefix) (nextHop : AccountId) (secret : Bytes32) : Route :=
  ⟨target, nextHop, [], originTag secret target⟩

/-- The route as the node passes it on: its own address in front, the tag hashed once more. -/
def forwarded (r : Route) (operator : Address) : Route :=
  { r with path := operator :: r.path, auth := nextTag r.auth }

/-- The route as it stands in an update. -/
def advertised (r : Route) : AdvertisedRoute :=
  ⟨r.target, r.path, r.auth⟩

end Route

/-- An advertised route together with the peer that sent it. -/
def AdvertisedRoute.fromPeer (r : AdvertisedRoute) (peer : AccountId) : IncomingRoute :=
  ⟨peer, r.target, r.path, r.auth⟩

/-- The route through the peer that advertised it. -/
def IncomingRoute.toRoute (r : IncomingRoute) : Route :=
  ⟨r.target, r.peer, r.path, r.auth⟩

end RouteSync
