import RouteSync.Route
import RouteSync.Table.Id

/-!
# Messages between peers

A peer that wants routes asks for them with a control request; the node answers with update
requests, each of which leads from one epoch of its table to a later one.
-/

namespace RouteSync

/-- Whether a peer wants to be sent updates. -/
inductive Mode where
  | idle
  | sync
  deriving DecidableEq, Repr

/-- The word for a mode. -/
def Mode.name : Mode → String
  | .idle => "idle"
  | .sync => "sync"

/-- Ask a peer to start or stop sending updates. -/
structure ControlRequest where
  mode : Mode
  /-- The table that the asking node knows, if it knows one. -/
  tableId : Option TableId
  /-- The epoch up to which it knows the table. -/
  epoch : Nat
  features : List String
  deriving DecidableEq

/-- What changed in the sender's table after epoch `fromEpoch` up to epoch `toEpoch`. -/
structure UpdateRequest where
  tableId : TableId
  currentEpoch : Nat
  fromEpoch : Nat
  toEpoch : Nat
  /-- For how many milliseconds the routes may be kept without a further update. -/
  holdDownTime : Nat
  speaker : Address
  newRoutes : List AdvertisedRoute
  withdrawn : List Prefix
  deriving DecidableEq

/-- An update without routes only shows that the sender is still there. -/
def UpdateRequest.isHeartbeat (u : UpdateRequest) : Bool :=
  u.newRoutes.isEmpty && u.withdrawn.isEmpty

end RouteSync
