import RouteSync.Document.Basic
import RouteSync.Settings.Basic

/-!
# Settings in a document

The settings of a node are a table with its address and a table about routing.  Fields that are not
known are passed over.  What a field holds is looked at before it is asked which fields are missing.
-/

namespace RouteSync

open Document

namespace StaticRoute

def fieldNames : List String := ["target_prefix", "peer_account_id"]

def ofDocument (d : Document) : Decoded StaticRoute := do
  let fs ← fieldsOf fieldNames d
  let target ← fs.optional "target_prefix" asPrefix
  let peer ← fs.optional "peer_account_id" asAccountId
  return ⟨← fs.demand "target_prefix" target, ← fs.demand "peer_account_id" peer⟩

end StaticRoute

namespace Settings

def routingFieldNames : List String :=
  ["global_prefix", "routing_secret", "use_parent_for_default_route", "default_route",
    "static_routes", "route_expiry_ms", "route_broadcast_interval_ms", "max_epoch_log_len"]

/-- The settings of a node with the given address.  Whether there is an address is asked last, so
the rest comes as a function of it. -/
def ofRouting (d : Document) : Decoded (Address → Settings) := do
  let fs ← fieldsOf routingFieldNames d
  let globalPrefix ← fs.withDefault "global_prefix" Prefix.global asPrefix
  let secret ← fs.optional "routing_secret" asBytes32
  let useParent ← fs.withDefault "use_parent_for_default_route" false asBool
  let defaultRoute ← fs.withDefault "default_route" none (asOptional asAccountId)
  let staticRoutes ← fs.withDefault "static_routes" [] (asList StaticRoute.ofDocument)
  let routeExpiryMs ← fs.withDefault "route_expiry_ms" 30000 asCount
  let broadcastIntervalMs ← fs.withDefault "route_broadcast_interval_ms" 30000 asCount
  let maxLogLength ← fs.withDefault "max_epoch_log_len" 10000 asCount
  let secret ← fs.demand "routing_secret" secret
  return fun operator => {
    operator := operator
    routingSecret := secret
    globalPrefix := globalPrefix
    useParentForDefaultRoute := useParent
    defaultRoute := defaultRoute
    staticRoutes := staticRoutes
    routeExpiryMs := routeExpiryMs
    broadcastIntervalMs := broadcastIntervalMs
    maxLogLength := maxLogLength }

/-- The settings that a document holds. -/
def ofDocument (d : Document) : Decoded Settings := do
  let fs ← fieldsOf ["operator_address", "global_routing_settings"] d
  let operator ← fs.optional "operator_address" asAddress
  let routing ← fs.optional "global_routing_settings" ofRouting
  let operator ← fs.demand "operator_address" operator
  let routing ← fs.demand "global_routing_settings" routing
  return routing operator

end Settings

end RouteSync
