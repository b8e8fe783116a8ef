import RouteSync.Node.Import

/-!
# Nodes that are linked to each other

A network is a number of named nodes and, for each of their links, what the link does with packets:
it gives prepared answers, or hands packets to another node, or else accepts them.  Tasks that a
node leaves while it answers a packet are done later, first come first served.

Time has two clocks.  The wall clock `now` stands still; the timer `clock`, in milliseconds, moves
only by `advance` and drives the sending of updates.
-/

namespace RouteSync

/-- The name of a node within a network. -/
abbrev NodeName := String

/-- The other end of a link: a node, and the account that the link belongs to there. -/
structure RemoteEnd where
  node : NodeName
  account : AccountId
  deriving DecidableEq

/-- What a link does with packets. -/
structure Wire where
  node : NodeName
  link : LinkId
  /-- Answers to the next packets. -/
  prepared : List LinkAnswer := []
  remote : Option RemoteEnd := none

/-- A packet that went out on a link. -/
structure SentPacket where
  node : NodeName
  link : LinkId
  packet : Prepare

/-- Linked nodes. -/
structure Network where
  nodes : List (NodeName × Node) := []
  wires : List Wire := []
  now : Timestamp
  clock : Nat := 0
  /-- Tasks for later, in the order in which they came up. -/
  pending : List (NodeName × Task) := []
  /-- Every packet that went out, in order. -/
  sent : List SentPacket := []

namespace Network

/-- A node by its name. -/
def node? (w : Network) (name : NodeName) : Option Node :=
  w.nodes.lookup name

/-- Put a node in the place of the one with its name. -/
def setNode (w : Network) (name : NodeName) (n : Node) : Network :=
  { w with nodes := w.nodes.map fun x => if x.1 = name then (name, n) else x }

/-- The wire of a link. -/
def wire? (w : Network) (name : NodeName) (link : LinkId) : Option Wire :=
  w.wires.find? fun x => x.node = name ∧ x.link = link

/-- Change the wire of a link. -/
def modifyWire (w : Network) (name : NodeName) (link : LinkId) (f : Wire → Wire) : Network :=
  { w with wires := w.wires.map fun x => if x.node = name ∧ x.link = link then f x else x }

/-- Prepare the answer to a further packet on a link. -/
def prepareAnswer (w : Network) (name : NodeName) (link : LinkId) (answer : LinkAnswer) : Network :=
  w.modifyWire name link fun x => { x with prepared := x.prepared ++ [answer] }

/-- Hand a packet to a node.  The tasks that it leaves are for later. -/
def deliver (w : Network) (name : NodeName) (account : AccountId) (packet : Prepare) :
    Network × Option Reply :=
  match w.node? name with
  | none => (w, none)
  | some n =>
    let (n, reply, tasks) := n.handlePrepare w.now account packet
    let w := w.setNode name n
    ({ w with pending := w.pending ++ tasks.map (name, ·) }, some reply)

/-- Send a packet on a link and wait for the answer. -/
def send (w : Network) (name : NodeName) (o : Outbound) : Network × LinkAnswer :=
  let w := { w with sent := w.sent ++ [SentPacket.mk name o.link o.packet] }
  match w.wire? name o.link with
  | none => (w, .ok accepted)
  | some wire =>
    match wire.prepared with
    | answer :: rest => (w.modifyWire name o.link fun x => { x with prepared := rest }, answer)
    | [] =>
      match wire.remote with
      | none => (w, .ok accepted)
      | some remote =>
        match w.deliver remote.node remote.account o.packet with
        | (w, none) => (w, .ok accepted)
        | (w, some reply) => (w, reply.mapError LinkError.rejected)

/-- Do a task of a node.  Tasks that send have an answer. -/
def perform (w : Network) (name : NodeName) (task : Task) : Network × Option Reply :=
  match w.node? name with
  | none => (w, none)
  | some n =>
    let (n, progress) := n.begin w.now w.clock task
    let w := w.setNode name n
    match progress with
    | .done reply => (w, reply)
    | .waiting o =>
      let (w, answer) := w.send name o
      match w.node? name with
      | none => (w, none)
      | some n =>
        let (n, reply) := n.settle o answer
        (w.setNode name n, some reply)

/-- Do several tasks of a node one after the other. -/
def performAll (w : Network) (name : NodeName) (tasks : List Task) : Network :=
  tasks.foldl (fun w task => (w.perform name task).1) w

/-- Let a node deal with an event. -/
def handleEvent (w : Network) (name : NodeName) (event : LinkEvent) : Network :=
  match w.node? name with
  | none => w
  | some n =>
    let (n, tasks) := n.handleEvent event
    (w.setNode name n).performAll name tasks

/-- Deal with the events that wait at a node, as many as the first argument says. -/
def handleEvents : Nat → Network → NodeName → Network
  | 0, w, _ => w
  | fuel + 1, w, name =>
    match (w.node? name).map Node.nextEvent with
    | some (n, some event) => handleEvents fuel ((w.setNode name n).handleEvent name event) name
    | _ => w

/-- Do the tasks that were left for later, as many as the first argument says, together with those
that come up meanwhile. -/
def drain : Nat → Network → Network
  | 0, w => w
  | fuel + 1, w =>
    match w.pending with
    | [] => w
    | (name, task) :: rest => drain fuel ({ w with pending := rest }.perform name task).1

/-- How many tasks are done before a network counts as one that never comes to rest. -/
def patience : Nat := 100000

/-- Deal with all waiting events and do all tasks that are left. -/
def comeToRest (w : Network) : Network :=
  let w := w.nodes.foldl
    (fun w x => handleEvents ((w.node? x.1).elim 0 (·.events.length)) w x.1) w
  drain patience w

/-- The loops of a node whose deadline has come, by their place in the list of loops. -/
def dueLoops (w : Network) (n : Node) : List (Nat × BroadcastLoop) :=
  (n.loops.zipIdx.filter fun x => x.1.deadline.any (· ≤ w.clock)).map fun x => (x.2, x.1)

/-- Set the deadline of a loop. -/
def setDeadline (w : Network) (name : NodeName) (index : Nat) (deadline : Option Nat) : Network :=
  match w.node? name with
  | none => w
  | some n =>
    w.setNode name { n with loops := n.loops.modify index fun l => { l with deadline := deadline } }

/-- One round of a loop: the loop of a stopped sender ends; otherwise an update is sent and the next
round is due after the interval that is configured by then. -/
def round (w : Network) (name : NodeName) (index : Nat) (loop : BroadcastLoop) : Network :=
  match w.node? name with
  | none => w
  | some n =>
    if (n.session? loop.session).any (·.sender.broadcasting) then
      let w := (w.perform name (.sendUpdate loop.session)).1
      match w.node? name with
      | none => w
      | some n => w.setDeadline name index (some (w.clock + n.settings.broadcastIntervalMs))
    else w.setDeadline name index none

/-- Move the timer.  Every loop whose deadline has come runs one round, however late it is. -/
def advance (w : Network) (ms : Nat) : Network :=
  let w := { w with clock := w.clock + ms }
  let due := w.nodes.flatMap fun x => (w.dueLoops x.2).map fun l => (x.1, l)
  let ordered := due.mergeSort fun a b => a.2.2.deadline.getD 0 ≤ b.2.2.deadline.getD 0
  ordered.foldl (fun w x => w.round x.1 x.2.1 x.2.2) w

end Network

end RouteSync
