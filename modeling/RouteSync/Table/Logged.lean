import RouteSync.Table.Basic
import RouteSync.Table.Id

/-!
# Tables with a log of their changes

What a node advertises changes one prefix at a time, and every change gets the next epoch.  Beside
the entries the table keeps the updates of the latest epochs, each in the slot of its epoch, so that
a peer can be sent just what happened since the epoch that it knows.  A slot whose update was
superseded is empty, and the oldest slots may be dropped.
-/

namespace RouteSync

/-- The updates of the latest epochs; the first slot is that of epoch `first`. -/
structure EpochLog where
  first : Nat := 1
  slots : List (Option RouteUpdate) := []
  deriving DecidableEq

namespace EpochLog

/-- The update in the slot of an epoch. -/
def get? (log : EpochLog) (epoch : Nat) : Option RouteUpdate :=
  if epoch < log.first then none else log.slots[epoch - log.first]?.join

/-- Write the slot of an epoch, adding empty slots up to it.  A dropped slot stays dropped. -/
def set (log : EpochLog) (epoch : Nat) (update : RouteUpdate) : EpochLog :=
  if epoch < log.first then log
  else
    let index := epoch - log.first
    let padded := log.slots ++ List.replicate (index + 1 - log.slots.length) none
    { log with slots := padded.set index (some update) }

/-- Empty the slot of an epoch. -/
def clear (log : EpochLog) (epoch : Nat) : EpochLog :=
  if epoch < log.first then log
  else { log with slots := log.slots.set (epoch - log.first) none }

/-- Drop the oldest slots until at most `limit` remain. -/
def prune (log : EpochLog) (limit : Nat) : EpochLog :=
  let excess := log.slots.length - limit
  ⟨log.first + excess, log.slots.drop excess⟩

/-- The updates of the epochs after `known` up to `current`, oldest first. -/
def between (log : EpochLog) (known current : Nat) : List RouteUpdate :=
  ((log.slots.drop (known + 1 - log.first)).take (current - known)).filterMap id

end EpochLog

/-- The epoch asked for is not covered by the log. -/
structure EpochGap where
  requested : Nat
  oldest : Nat
  current : Nat
  deriving DecidableEq, Repr

/-- The wording of an `EpochGap`. -/
def EpochGap.message (gap : EpochGap) : String :=
  "epoch " ++ toString gap.requested ++ " is outside the retained log (oldest: " ++
    toString gap.oldest ++ ", current: " ++ toString gap.current ++ ")"

/-- What a node advertises, with the log of how it came about. -/
structure LoggedTable where
  id : TableId
  routes : RouteTable RouteUpdate := RouteTable.empty
  epoch : Nat := 0
  log : EpochLog := {}

namespace LoggedTable

/-- The latest update for a prefix. -/
def get? (t : LoggedTable) (p : Prefix) : Option RouteUpdate :=
  t.routes.get? p

/-- Move the epoch from an expected value to another one, if it has the expected value. -/
def compareAndSetEpoch (t : LoggedTable) (expected next : Nat) : LoggedTable × Bool :=
  if t.epoch = expected then ({ t with epoch := next }, true) else (t, false)

/-- Write the slot of an epoch. -/
def setSlot (t : LoggedTable) (epoch : Nat) (update : RouteUpdate) : LoggedTable :=
  { t with log := t.log.set epoch update }

/-- Empty the slot of an epoch. -/
def clearSlot (t : LoggedTable) (epoch : Nat) : LoggedTable :=
  { t with log := t.log.clear epoch }

/-- Drop the oldest slots until at most `limit` remain. -/
def prune (t : LoggedTable) (limit : Nat) : LoggedTable :=
  { t with log := t.log.prune limit }

/-- Put an entry in without logging it. -/
def insert (t : LoggedTable) (update : RouteUpdate) : LoggedTable :=
  { t with routes := t.routes.insert update }

/-- Take an entry out without logging it. -/
def erase (t : LoggedTable) (p : Prefix) : LoggedTable :=
  { t with routes := t.routes.erase p }

/-- The oldest epoch that still has a slot. -/
def oldestEpoch (t : LoggedTable) : Nat :=
  t.log.first

/-- Every update after an epoch, oldest first, or the gap if the epoch lies ahead or slots that are
needed have been dropped. -/
def updatesSince (t : LoggedTable) (known : Nat) : Except EpochGap (List RouteUpdate) :=
  if t.epoch < known ∨ known + 1 < t.log.first then .error ⟨known, t.log.first, t.epoch⟩
  else .ok (t.log.between known t.epoch)

/-- Empty the slot of the entry that an update is about to replace. -/
def supersede (t : LoggedTable) (p : Prefix) : LoggedTable :=
  match t.get? p with
  | some previous => t.clearSlot previous.epoch
  | none => t

/-- Give a change the next epoch: it replaces the entry for its prefix and takes the slot of the
epoch, and the slot of the replaced entry becomes empty. -/
def record (t : LoggedTable) (p : Prefix) (route : Option Route) : LoggedTable :=
  let epoch := t.epoch + 1
  let update : RouteUpdate := ⟨p, route, epoch⟩
  { ((t.supersede p).insert update).setSlot epoch update with epoch := epoch }

/-- The entries in the order of their epochs. -/
def byEpoch (updates : List RouteUpdate) : List RouteUpdate :=
  updates.mergeSort fun u v => u.epoch ≤ v.epoch

/-- The routes that are advertised now, in the order of their epochs. -/
def currentRoutes (t : LoggedTable) : List RouteUpdate :=
  byEpoch (t.routes.entries.filter (·.route.isSome))

/-- The routes that were taken back and not advertised again, in the order of their epochs. -/
def currentWithdrawals (t : LoggedTable) : List RouteUpdate :=
  byEpoch (t.routes.entries.filter (·.route.isNone))

end LoggedTable

end RouteSync
