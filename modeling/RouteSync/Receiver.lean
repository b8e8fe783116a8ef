import RouteSync.Message.Basic
import RouteSync.Packet.Timestamp
import RouteSync.Table.Basic

/-!
# What a peer advertised to the node

A receiver holds the routes of one peer and the epoch of the peer's table that they belong to.  An
update is taken in if it begins at or before that epoch and does not end before it; an update of
another table begins again from epoch zero.
-/

namespace RouteSync

/-- The routes that one peer advertised. -/
structure Receiver where
  peer : AccountId
  /-- The peer's table, once an update was seen. -/
  tableId : Option TableId := none
  /-- The epoch of the peer's table up to which updates were taken in. -/
  epoch : Nat := 0
  /-- When the routes lapse. -/
  expiry : Timestamp := Timestamp.origin
  routes : RouteTable IncomingRoute := RouteTable.empty

/-- What an update did. -/
inductive UpdateOutcome where
  /-- It was taken in; these are the prefixes whose routes may have changed. -/
  | applied (changed : List Prefix)
  /-- It held no routes but brought a newer epoch. -/
  | heartbeat
  /-- It begins after the epoch that is known. -/
  | gap (expected : Nat)
  /-- Everything in it was taken in before. -/
  | stale
  /-- It ends before it begins. -/
  | invalid
  deriving DecidableEq

/-- The prefixes that an outcome asks to look at again. -/
def UpdateOutcome.changed : UpdateOutcome → List Prefix
  | .applied changed => changed
  | _ => []

namespace Receiver

/-- Put routes in one after the other, noting the prefixes whose entry became another one. -/
def insertAll (routes : RouteTable IncomingRoute) :
    List IncomingRoute → RouteTable IncomingRoute × List Prefix
  | [] => (routes, [])
  | r :: rs =>
    let (after, changed) := insertAll (routes.insert r) rs
    (after, if routes.get? r.target = some r then changed else r.target :: changed)

/-- Note that an update arrived: the routes may be kept for its hold-down time, and another table
than the known one starts over from epoch zero. -/
def greet (r : Receiver) (now : Timestamp) (u : UpdateRequest) : Receiver :=
  let r := { r with expiry := r.expiry.later (now.addMillis u.holdDownTime) }
  if r.tableId = some u.tableId then r else { r with tableId := some u.tableId, epoch := 0 }

/-- Take the routes of an update out and in, withdrawn ones first. -/
def applyRoutes (r : Receiver) (u : UpdateRequest) : Receiver × List Prefix :=
  let remaining := u.withdrawn.foldl RouteTable.erase r.routes
  let (routes, changed) := insertAll remaining (u.newRoutes.map (·.fromPeer r.peer))
  ({ r with routes := routes, epoch := u.toEpoch }, u.withdrawn ++ changed)

/-- Take an update in. -/
def apply (r : Receiver) (now : Timestamp) (u : UpdateRequest) : Receiver × UpdateOutcome :=
  let r := r.greet now u
  if u.toEpoch < u.fromEpoch then (r, .invalid)
  else if r.epoch < u.fromEpoch then (r, .gap r.epoch)
  else if u.toEpoch < r.epoch then (r, .stale)
  else if u.isHeartbeat then ({ r with epoch := u.toEpoch }, .heartbeat)
  else
    let (r, changed) := r.applyRoutes u
    (r, .applied changed)

/-- The request for everything after the known epoch. -/
def controlRequest (r : Receiver) : ControlRequest :=
  ⟨.sync, r.tableId, r.epoch, []⟩

/-- Whether the peer let its routes lapse: it advertised some table once, but nothing within the
hold-down time. -/
def isExpired (r : Receiver) (now : Timestamp) : Bool :=
  r.tableId.isSome && decide (r.expiry < now)

/-- Forget everything that the peer advertised.  The prefixes that had a route are given back. -/
def clear (r : Receiver) : Receiver × List Prefix :=
  ({ r with tableId := none, epoch := 0, routes := RouteTable.empty }, r.routes.keys)

/-- The route that the peer advertised for a prefix. -/
def route? (r : Receiver) (p : Prefix) : Option IncomingRoute :=
  r.routes.get? p

end Receiver

end RouteSync
