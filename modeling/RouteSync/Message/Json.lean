import RouteSync.Json.Decode
import RouteSync.Json.Writer
import RouteSync.Message.Basic

/-!
# Messages as JSON

Every message is an object whose fields are written in a fixed order.  Reading accepts the fields in
any order, each once, and skips fields that it does not know.
-/

namespace RouteSync

open Json

/-- The words for the modes. -/
def Mode.words : List (String × Mode) :=
  [("idle", .idle), ("sync", .sync)]

/-! ### Control requests -/

namespace ControlRequest

def toTree (r : ControlRequest) : Tree :=
  .fields
    [("mode", .text (some r.mode.name)),
      ("last_known_routing_table_id",
        match r.tableId with
        | some id => .text (some id.text)
        | none => .null),
      ("last_known_epoch", .number (.ofNat r.epoch)),
      ("features", .array (r.features.map fun f => .text (some f)))]

/-- The fields of a control request read so far. -/
structure Draft where
  mode : Option Mode := none
  tableId : Option (Option TableId) := none
  epoch : Option Nat := none
  features : Option (List String) := none

/-- Take one field of an object in. -/
def Draft.field (d : Draft) (name : String) (t : Tree) : Decoded Draft := do
  match name with
  | "mode" =>
    return { d with mode := ← Decoded.once name d.mode fun _ => t.asVariant Mode.words }
  | "last_known_routing_table_id" =>
    return { d with tableId := ← Decoded.once name d.tableId fun _ => t.asOptional Tree.asTableId }
  | "last_known_epoch" =>
    return { d with epoch := ← Decoded.once name d.epoch fun _ => t.asWord }
  | "features" =>
    return { d with features := ← Decoded.once name d.features fun _ => t.asList Tree.asText }
  | _ =>
    t.skip
    return d

/-- The request, if all fields are there that have to be. -/
def Draft.finish (d : Draft) : Decoded ControlRequest := do
  let mode ← Decoded.required "mode" d.mode
  let epoch ← Decoded.required "last_known_epoch" d.epoch
  return ⟨mode, d.tableId.getD none, epoch, d.features.getD []⟩

/-- Read a request; as an array it may leave the features out. -/
def ofTree : Tree → Decoded ControlRequest
  | .object fields => do
    let draft ← Tree.fillFrom Draft.field {} fields
    draft.finish
  | .array items => do
    let (mode, items) ← Tree.next (Tree.asVariant Mode.words) items
    let (tableId, items) ← Tree.next (Tree.asOptional Tree.asTableId) items
    let (epoch, items) ← Tree.next Tree.asWord items
    let (features, items) ← Tree.nextOr [] (Tree.asList Tree.asText) items
    Tree.noMore items
    return ⟨mode, tableId, epoch, features⟩
  | _ => .error .malformed

end ControlRequest

/-! ### Advertised routes -/

namespace AdvertisedRoute

def toTree (r : AdvertisedRoute) : Tree :=
  .fields
    [("prefix", .text (some r.target.text)),
      ("path", .array (r.path.map fun a => .text (some a.text))),
      ("auth", .text (some r.auth.hex))]

/-- The fields of an advertised route read so far. -/
structure Draft where
  target : Option Prefix := none
  path : Option (List Address) := none
  auth : Option Bytes32 := none

/-- Take one field of an object in. -/
def Draft.field (d : Draft) (name : String) (t : Tree) : Decoded Draft := do
  match name with
  | "prefix" =>
    return { d with target := ← Decoded.once name d.target fun _ => t.asPrefix }
  | "path" =>
    return { d with path := ← Decoded.once name d.path fun _ => t.asList Tree.asAddress }
  | "auth" =>
    return { d with auth := ← Decoded.once name d.auth fun _ => t.asBytes32 }
  | _ =>
    t.skip
    return d

/-- The route, if all fields are there. -/
def Draft.finish (d : Draft) : Decoded AdvertisedRoute := do
  let target ← Decoded.required "prefix" d.target
  let path ← Decoded.required "path" d.path
  let auth ← Decoded.required "auth" d.auth
  return ⟨target, path, auth⟩

/-- Read a route. -/
def ofTree : Tree → Decoded AdvertisedRoute
  | .object fields => do
    let draft ← Tree.fillFrom Draft.field {} fields
    draft.finish
  | .array items => do
    let (target, items) ← Tree.next Tree.asPrefix items
    let (path, items) ← Tree.next (Tree.asList Tree.asAddress) items
    let (auth, items) ← Tree.next Tree.asBytes32 items
    Tree.noMore items
    return ⟨target, path, auth⟩
  | _ => .error .malformed

end AdvertisedRoute

/-! ### Update requests -/

namespace UpdateRequest

def toTree (r : UpdateRequest) : Tree :=
  .fields
    [("routing_table_id", .text (some r.tableId.text)),
      ("current_epoch_index", .number (.ofNat r.currentEpoch)),
      ("from_epoch_index", .number (.ofNat r.fromEpoch)),
      ("to_epoch_index", .number (.ofNat r.toEpoch)),
      ("hold_down_time", .number (.ofNat r.holdDownTime)),
      ("speaker", .text (some r.speaker.text)),
      ("new_routes", .array (r.newRoutes.map AdvertisedRoute.toTree)),
      ("withdrawn_routes", .array (r.withdrawn.map fun p => .text (some p.text)))]

/-- The fields of an update request read so far. -/
structure Draft where
  tableId : Option TableId := none
  currentEpoch : Option Nat := none
  fromEpoch : Option Nat := none
  toEpoch : Option Nat := none
  holdDownTime : Option Nat := none
  speaker : Option Address := none
  newRoutes : Option (List AdvertisedRoute) := none
  withdrawn : Option (List Prefix) := none

/-- Take one field of an object in. -/
def Draft.field (d : Draft) (name : String) (t : Tree) : Decoded Draft := do
  match name with
  | "routing_table_id" =>
    return { d with tableId := ← Decoded.once name d.tableId fun _ => t.asTableId }
  | "current_epoch_index" =>
    return { d with currentEpoch := ← Decoded.once name d.currentEpoch fun _ => t.asWord }
  | "from_epoch_index" =>
    return { d with fromEpoch := ← Decoded.once name d.fromEpoch fun _ => t.asWord }
  | "to_epoch_index" =>
    return { d with toEpoch := ← Decoded.once name d.toEpoch fun _ => t.asWord }
  | "hold_down_time" =>
    return { d with holdDownTime := ← Decoded.once name d.holdDownTime fun _ => t.asWord }
  | "speaker" =>
    return { d with speaker := ← Decoded.once name d.speaker fun _ => t.asAddress }
  | "new_routes" =>
    return { d with
      newRoutes := ← Decoded.once name d.newRoutes fun _ => t.asList AdvertisedRoute.ofTree }
  | "withdrawn_routes" =>
    return { d with withdrawn := ← Decoded.once name d.withdrawn fun _ => t.asList Tree.asPrefix }
  | _ =>
    t.skip
    return d

/-- The request, if all fields are there. -/
def Draft.finish (d : Draft) : Decoded UpdateRequest := do
  let tableId ← Decoded.required "routing_table_id" d.tableId
  let currentEpoch ← Decoded.required "current_epoch_index" d.currentEpoch
  let fromEpoch ← Decoded.required "from_epoch_index" d.fromEpoch
  let toEpoch ← Decoded.required "to_epoch_index" d.toEpoch
  let holdDownTime ← Decoded.required "hold_down_time" d.holdDownTime
  let speaker ← Decoded.required "speaker" d.speaker
  let newRoutes ← Decoded.required "new_routes" d.newRoutes
  let withdrawn ← Decoded.required "withdrawn_routes" d.withdrawn
  return ⟨tableId, currentEpoch, fromEpoch, toEpoch, holdDownTime, speaker, newRoutes, withdrawn⟩

/-- Read a request. -/
def ofTree : Tree → Decoded UpdateRequest
  | .object fields => do
    let draft ← Tree.fillFrom Draft.field {} fields
    draft.finish
  | .array items => do
    let (tableId, items) ← Tree.next Tree.asTableId items
    let (currentEpoch, items) ← Tree.next Tree.asWord items
    let (fromEpoch, items) ← Tree.next Tree.asWord items
    let (toEpoch, items) ← Tree.next Tree.asWord items
    let (holdDownTime, items) ← Tree.next Tree.asWord items
    let (speaker, items) ← Tree.next Tree.asAddress items
    let (newRoutes, items) ← Tree.next (Tree.asList AdvertisedRoute.ofTree) items
    let (withdrawn, items) ← Tree.next (Tree.asList Tree.asPrefix) items
    Tree.noMore items
    return ⟨tableId, currentEpoch, fromEpoch, toEpoch, holdDownTime, speaker, newRoutes, withdrawn⟩
  | _ => .error .malformed

end UpdateRequest

end RouteSync
