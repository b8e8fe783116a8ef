import RouteSync.Proofs.Chronicle

/-!
# Two nodes stay in step

A sender tells a peer about a table, and the peer's receiver takes in what arrives.  Every update
that was ever made stays on record, and any of them may arrive at any time: updates may be lost,
repeated, delayed and overtaken by others (`Move.deliver`).  Requests and answers that reach the
sender may be any, late ones included.

The sender may therefore believe what it likes about the receiver.  What counts is that the updates
on record lead between versions of the table (`Chronicle.Carries`), and that the receiver holds one
of these versions: that of the epoch that it knows, or nothing if it knows no table
(`Exchange.InStep`).  A delivery keeps this because a receiver takes in only updates whose range
holds its epoch (`InStep.deliver`).
-/

namespace RouteSync

/-- A table with all its versions, the sender that tells about it, the receiver at the other end,
and all updates that were ever made. -/
structure Exchange where
  chronicle : Chronicle
  sender : Sender
  receiver : Receiver
  updates : List UpdateRequest := []

namespace Exchange

/-- A new table and a new receiver.  The two ends know each other under an account each. -/
def start (id : TableId) (listener speaker : AccountId) : Exchange where
  chronicle := .start id
  sender := { peer := listener }
  receiver := { peer := speaker }

/-- One thing that happens between the two ends. -/
inductive Move where
  /-- The advertisement of a prefix is brought up to date, those below it included. -/
  | change (policy : ExportPolicy) (routes : RouteTable Route) (p : Prefix)
  /-- The advertisement of one prefix alone is brought up to date: a change of several prefixes that
  other moves come in between of. -/
  | changeOne (policy : ExportPolicy) (routes : RouteTable Route) (p : Prefix)
  /-- The sender makes an update. -/
  | create (settings : Settings)
  /-- The update with the given number arrives, if there is one. -/
  | deliver (now : Timestamp) (number : Nat)
  /-- A request arrives at the sender. -/
  | request (r : ControlRequest)
  /-- The answer to an update arrives at the sender. -/
  | answer (operator : Address) (upTo : Option Nat) (answer : LinkAnswer)
  /-- The receiver forgets everything. -/
  | clear

/-- What a move does. -/
def move (x : Exchange) : Move → Exchange
  | .change policy routes p => { x with chronicle := x.chronicle.refresh policy routes p }
  | .changeOne policy routes p => { x with chronicle := x.chronicle.refreshOne policy routes p }
  | .create settings =>
    { x with updates := x.updates ++ [x.sender.updateRequest settings x.chronicle.table] }
  | .deliver now number =>
    match x.updates[number]? with
    | some u => { x with receiver := (x.receiver.apply now u).1 }
    | none => x
  | .request r => { x with sender := x.sender.control x.chronicle.table r }
  | .answer operator upTo answer => { x with sender := (x.sender.settle operator upTo answer).1 }
  | .clear => { x with receiver := x.receiver.clear.1 }

/-- The exchange after several moves. -/
def run (x : Exchange) (moves : List Move) : Exchange :=
  moves.foldl move x

/-- The receiver holds the version of the epoch that it knows. -/
structure Follows (c : Chronicle) (r : Receiver) : Prop where
  tableId : r.tableId = none ∨ r.tableId = some c.table.id
  route?_none : r.tableId = none → ∀ p, r.route? p = none
  epoch_le : r.tableId = some c.table.id → r.epoch ≤ c.table.epoch
  route?_eq : r.tableId = some c.table.id →
    ∀ p, r.route? p = (c.advertisedAt r.epoch p).map (·.fromPeer r.peer)

/-- Everything that keeps the two ends in step. -/
structure InStep (id : TableId) (x : Exchange) : Prop where
  id_eq : x.chronicle.table.id = id
  faithful : x.chronicle.Faithful
  carries : ∀ u ∈ x.updates, x.chronicle.Carries u
  follows : Follows x.chronicle x.receiver

theorem inStep_start (id : TableId) (listener speaker : AccountId) :
    (start id listener speaker).InStep id where
  id_eq := rfl
  faithful := Chronicle.faithful_start id
  carries u hu := by cases hu
  follows := ⟨.inl rfl, fun _ _ => rfl, fun h => (by cases h), fun h => (by cases h)⟩

/-! ### Changes of the table -/

/-- A receiver that follows a chronicle follows it while it grows. -/
theorem Follows.grow {c c' : Chronicle} {r : Receiver} (h : Follows c r)
    (hid : c'.table.id = c.table.id) (hepoch : c.table.epoch ≤ c'.table.epoch)
    (hold : ∀ e p, e ≤ c.table.epoch → c'.advertisedAt e p = c.advertisedAt e p) :
    Follows c' r where
  tableId := hid ▸ h.tableId
  route?_none := h.route?_none
  epoch_le hr := Nat.le_trans (h.epoch_le (hid ▸ hr)) hepoch
  route?_eq hr p := by
    rw [hid] at hr
    rw [hold _ p (h.epoch_le hr)]
    exact h.route?_eq hr p

theorem InStep.log {id : TableId} {x : Exchange} (h : x.InStep id) (limit : Nat) {p : Prefix}
    {route : Option Route} (hroute : ∀ r, route = some r → r.target = p) :
    InStep id { x with chronicle := x.chronicle.log limit p route } where
  id_eq := (LoggedTable.record_id x.chronicle.table p route).trans h.id_eq
  faithful := h.faithful.log limit hroute
  carries u hu := (h.carries u hu).log h.faithful limit p route
  follows := h.follows.grow (LoggedTable.record_id x.chronicle.table p route) (Nat.le_succ _)
    fun _ q he => Chronicle.advertisedAt_log h.faithful limit p route he q

theorem InStep.changeOne {id : TableId} {x : Exchange} (h : x.InStep id) (policy : ExportPolicy)
    (routes : RouteTable Route) (p : Prefix) :
    InStep id { x with chronicle := x.chronicle.refreshOne policy routes p } := by
  unfold Chronicle.refreshOne
  dsimp only
  split
  · exact h
  · exact h.log _ fun _ => Chronicle.target_of_advertised

theorem InStep.change {id : TableId} {x : Exchange} (h : x.InStep id) (policy : ExportPolicy)
    (routes : RouteTable Route) (p : Prefix) :
    InStep id { x with chronicle := x.chronicle.refresh policy routes p } :=
  Chronicle.refresh_induction (motive := fun c => InStep id { x with chronicle := c })
    (fun _ _ hc => hc.log _ fun _ => Chronicle.target_of_advertised) x.chronicle p h

/-! ### Updates -/

theorem InStep.create {id : TableId} {x : Exchange} (h : x.InStep id) (settings : Settings) :
    InStep id
      { x with updates := x.updates ++ [x.sender.updateRequest settings x.chronicle.table] } where
  id_eq := h.id_eq
  faithful := h.faithful
  carries u hu := by
    rcases List.mem_append.1 hu with hu | hu
    · exact h.carries u hu
    · rw [List.mem_singleton.1 hu]
      exact h.faithful.carries_updateRequest x.sender settings
  follows := h.follows

/-- A receiver that was told of a table holds the version of the epoch that it goes on from, which
is the empty one if the table is new to it. -/
theorem Follows.greet {c : Chronicle} {r : Receiver} (h : Follows c r) (hc : c.Faithful)
    {u : UpdateRequest} (hid : u.tableId = c.table.id) (now : Timestamp) :
    (r.greet now u).epoch ≤ c.table.epoch ∧
      ∀ p, r.route? p = (c.advertisedAt (r.greet now u).epoch p).map (·.fromPeer r.peer) := by
  rw [Receiver.greet_epoch, hid]
  split
  · rename_i hknown
    exact ⟨h.epoch_le hknown, h.route?_eq hknown⟩
  · rename_i hknown
    refine ⟨Nat.zero_le _, fun p => ?_⟩
    rw [h.route?_none (h.tableId.resolve_right hknown), hc.advertisedAt_zero]
    rfl

/-- Whichever update arrives, the receiver holds a version afterwards. -/
theorem Follows.apply {c : Chronicle} {r : Receiver} (h : Follows c r) (hc : c.Faithful)
    {u : UpdateRequest} (hu : c.Carries u) (now : Timestamp) : Follows c (r.apply now u).1 := by
  obtain ⟨hepoch, hroutes⟩ := h.greet hc hu.id_eq now
  have hid := (Receiver.apply_tableId r now u).trans (congrArg some hu.id_eq)
  have hpeer := Receiver.apply_peer r now u
  have hversion : (r.apply now u).1.epoch ≤ c.table.epoch ∧
      ∀ p, (r.apply now u).1.route? p =
        (c.advertisedAt (r.apply now u).1.epoch p).map (·.fromPeer r.peer) := by
    rcases Receiver.apply_cases r now u with ⟨hsame, hkept⟩ | ⟨hfrom, hto, hlast, htaken⟩
    · rw [hsame]
      exact ⟨hepoch, fun p => (hkept p).trans (hroutes p)⟩
    · rw [hlast]
      refine ⟨hu.to_le, fun p => ?_⟩
      rw [htaken, hroutes]
      exact hu.leads r.peer _ p hfrom hto
  refine ⟨.inr hid, fun hnone => ?_, fun _ => hversion.1, fun _ => ?_⟩
  · rw [hid] at hnone
    cases hnone
  · rw [hpeer]
    exact hversion.2

theorem InStep.deliver {id : TableId} {x : Exchange} (h : x.InStep id) (now : Timestamp)
    {u : UpdateRequest} (hu : u ∈ x.updates) :
    InStep id { x with receiver := (x.receiver.apply now u).1 } where
  id_eq := h.id_eq
  faithful := h.faithful
  carries := h.carries
  follows := h.follows.apply h.faithful (h.carries u hu) now

theorem follows_clear (c : Chronicle) (r : Receiver) : Follows c r.clear.1 where
  tableId := .inl rfl
  route?_none _ _ := rfl
  epoch_le h := by cases h
  route?_eq h := by cases h

theorem InStep.move {id : TableId} {x : Exchange} (h : x.InStep id) (m : Move) :
    (x.move m).InStep id := by
  cases m with
  | change policy routes p => exact h.change policy routes p
  | changeOne policy routes p => exact h.changeOne policy routes p
  | create settings => exact h.create settings
  | deliver now number =>
    show InStep id (match x.updates[number]? with | some u => _ | none => x)
    split
    · rename_i u hu
      exact h.deliver now (List.mem_of_getElem? hu)
    · exact h
  | request r => exact ⟨h.id_eq, h.faithful, h.carries, h.follows⟩
  | answer operator upTo answer => exact ⟨h.id_eq, h.faithful, h.carries, h.follows⟩
  | clear => exact ⟨h.id_eq, h.faithful, h.carries, follows_clear _ _⟩

/-- Whatever happens between the two ends, a receiver that knows the table holds what was advertised
right after the update of the epoch that it knows, and a receiver that knows no table holds nothing.
The versions of the table are counted by its epochs, and the last one is what stands in it. -/
theorem synchronised_of_run (id : TableId) (listener speaker : AccountId) (moves : List Move) :
    let x := (start id listener speaker).run moves
    x.chronicle.table.id = id ∧ x.chronicle.versions.length = x.chronicle.table.epoch + 1 ∧
      x.chronicle.versions[x.chronicle.table.epoch]? = some x.chronicle.table.routes ∧
      (x.receiver.tableId = none ∨ x.receiver.tableId = some id) ∧
      (x.receiver.tableId = none → ∀ p, x.receiver.route? p = none) ∧
      (x.receiver.tableId = some id → x.receiver.epoch ≤ x.chronicle.table.epoch ∧
        ∀ p, x.receiver.route? p =
          (x.chronicle.advertisedAt x.receiver.epoch p).map (·.fromPeer x.receiver.peer)) := by
  intro x
  have hx : x.InStep id :=
    List.foldlRecOn moves _ (inStep_start id listener speaker) fun _ h m _ => h.move m
  have hid := hx.id_eq
  have hfollows := hx.follows
  refine ⟨hid, hx.faithful.versions_length, hx.faithful.last, hid ▸ hfollows.tableId,
    hfollows.route?_none, ?_⟩
  intro hknown
  rw [← hid] at hknown
  exact ⟨hfollows.epoch_le hknown, hfollows.route?_eq hknown⟩

end Exchange

end RouteSync
