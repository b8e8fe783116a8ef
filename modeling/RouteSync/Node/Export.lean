import RouteSync.Settings.Basic
import RouteSync.Table.Logged

/-!
# What is advertised

The node advertises the routes that it uses itself, with its own address in front of the path, but
only those inside of the global prefix, without the default route, without the routes to its own
customers, and without those that a filter holds back.

`refresh` brings one prefix of the outgoing table up to date and, if that changed it, everything
below.  It terminates because prefixes below another one are longer and no prefix is longer than the
limit on texts.
-/

namespace RouteSync

open RouteEntry

/-- The rules that decide what is advertised. -/
structure ExportPolicy where
  operator : Address
  globalPrefix : Prefix
  /-- The routes that are held back because a shorter prefix covers them. -/
  suppresses : Prefix → Route → Bool
  maxLogLength : Nat

namespace ExportPolicy

/-- Whether a prefix is that of one of the node's own customers: strictly below the node's address,
with nobody but the node on the path. -/
def isCustomerRoute (policy : ExportPolicy) (p : Prefix) (r : Route) : Bool :=
  p != policy.operator.toPrefix && p.startsWith policy.operator.toPrefix && r.path.length == 1

/-- Whether a route that was made ready to be passed on may be advertised. -/
def allows (policy : ExportPolicy) (p : Prefix) (r : Route) : Bool :=
  p.root == policy.globalPrefix && p != policy.globalPrefix && !policy.isCustomerRoute p r &&
    !policy.suppresses p r

/-- What is advertised for a prefix, given the route that the node itself uses. -/
def advertised (policy : ExportPolicy) (p : Prefix) (route : Option Route) : Option Route :=
  (route.map (·.forwarded policy.operator)).filter (policy.allows p)

end ExportPolicy

/-- A prefix that is stored at or below another one and differs from it is longer. -/
theorem RouteTable.length_lt_of_mem_keysUnder {R : Type} [RouteEntry R] {t : RouteTable R}
    {p q : Prefix} (h : q ∈ (t.keysUnder p).filter (· != p)) : p.chars.length < q.chars.length := by
  simp only [keysUnder, List.mem_filter, bne_iff_ne, ne_eq] at h
  exact Prefix.length_lt_of_startsWith h.1.2 h.2

/-- Bring the advertisement of a prefix up to date with the routes that the node uses.  Nothing
happens unless the next hop changed; otherwise the change is logged and everything stored below the
prefix is looked at as well. -/
def LoggedTable.refresh (policy : ExportPolicy) (routes : RouteTable Route) (t : LoggedTable)
    (p : Prefix) : LoggedTable :=
  let route := policy.advertised p (routes.get? p)
  if (t.get? p).bind nextHop? = route.map Route.nextHop then t
  else
    let t := (t.record p route).prune policy.maxLogLength
    ((t.routes.keysUnder p).filter (· != p)).attach.foldl
      (fun t q => LoggedTable.refresh policy routes t q.1) t
termination_by maxTextBytes - p.chars.length
decreasing_by
  have hlt := RouteTable.length_lt_of_mem_keysUnder q.2
  have hle := q.1.length_le
  omega

end RouteSync
