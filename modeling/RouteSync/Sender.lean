import RouteSync.Link
import RouteSync.Message.Envelope
import RouteSync.Settings.Basic
import RouteSync.Receiver
import RouteSync.Table.Logged

/-!
# What the node advertises to a peer

A sender remembers how much of the node's table one peer knows.  It says nothing until the peer asks
for routes, and never again once it was stopped.  Sending has two halves: `Offer` is what goes out,
and the answer to it decides what the peer knows afterwards.
-/

namespace RouteSync

/-- How far one peer follows the node's table. -/
structure Sender where
  peer : AccountId
  /-- The epoch of the node's table that the peer is known to have taken in. -/
  lastKnownEpoch : Nat := 0
  mode : Mode := .idle
  broadcasting : Bool := true
  deriving DecidableEq

namespace Sender

/-- A request of the peer: stop, or go on from the epoch that it knows.  Epochs of another table
count as none, and nobody knows more than the present epoch. -/
def control (s : Sender) (table : LoggedTable) (r : ControlRequest) : Sender :=
  match r.mode with
  | .idle => { s with mode := .idle }
  | .sync =>
    { s with
      mode := .sync
      lastKnownEpoch := if r.tableId = some table.id then min r.epoch table.epoch else 0 }

/-- Say nothing any more. -/
def stop (s : Sender) : Sender :=
  { s with broadcasting := false }

/-- The epoch from which the next update leads, and what it has to tell.  Where the log does not
reach back far enough, the whole table is told from epoch zero, withdrawals included. -/
def pending (s : Sender) (table : LoggedTable) : Nat × List RouteUpdate :=
  match table.updatesSince s.lastKnownEpoch with
  | .ok updates => (s.lastKnownEpoch, updates)
  | .error _ => (0, table.currentRoutes ++ table.currentWithdrawals)

/-- The hold-down time that goes out, at most what fits into a message. -/
def holdDownTime (settings : Settings) : Nat :=
  min settings.routeExpiryMs (wordLimit - 1)

/-- Everything that the peer has not seen yet. -/
def updateRequest (s : Sender) (settings : Settings) (table : LoggedTable) : UpdateRequest :=
  let (known, updates) := s.pending table
  { tableId := table.id
    currentEpoch := table.epoch
    fromEpoch := known
    toEpoch := table.epoch
    holdDownTime := holdDownTime settings
    speaker := settings.operator
    newRoutes := updates.filterMap fun u => u.route.map Route.advertised
    withdrawn := (updates.filter (·.route.isNone)).map (·.target) }

/-- Whether the sender has anything to say at all. -/
def isQuiet (s : Sender) : Bool :=
  !s.broadcasting || s.mode == .idle

end Sender

/-- The packet to be sent, or the answer if nothing is sent. -/
inductive Offer where
  | answered (reply : Reply)
  /-- Once the peer has accepted the packet, it knows the table up to `upTo`. -/
  | packet (packet : Prepare) (upTo : Option Nat)

/-- What a codec error means to whoever wanted to send. -/
def EncodeError.toReject (operator : Address) (e : EncodeError) : Reject :=
  .because .applicationError e.message operator

/-- The next update of a sender.  A quiet sender counts as having been answered. -/
def Sender.offer (s : Sender) (codec : Codec) (settings : Settings) (table : LoggedTable)
    (now : Timestamp) : Offer :=
  if s.isQuiet then .answered (.ok accepted)
  else
    let request := s.updateRequest settings table
    match codec.encodeUpdate request with
    | .error e => .answered (.error (e.toReject settings.operator))
    | .ok data =>
      .packet (messagePacket updateDestination data (now.addMillis settings.routeExpiryMs))
        (some request.toEpoch)

/-- The control request of a receiver. -/
def Receiver.offer (r : Receiver) (codec : Codec) (settings : Settings) (now : Timestamp) : Offer :=
  match codec.encodeControl r.controlRequest with
  | .error e => .answered (.error (e.toReject settings.operator))
  | .ok data =>
    .packet (messagePacket controlDestination data (now.addMillis settings.routeExpiryMs)) none

/-- Take in the answer to a packet.  If the peer accepted it, the peer knows the table up to the
epoch that the packet led to. -/
def Sender.settle (s : Sender) (operator : Address) (upTo : Option Nat) (answer : LinkAnswer) :
    Sender × Reply :=
  match answer with
  | .ok fulfill => ({ s with lastKnownEpoch := upTo.getD s.lastKnownEpoch }, .ok fulfill)
  | .error e => (s, .error (e.toReject operator))

end RouteSync
