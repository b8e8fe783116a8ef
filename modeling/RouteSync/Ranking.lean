import RouteSync.Account.Directory
import RouteSync.Route

/-!
# Choosing among the routes of several peers

The route of the peer with the greatest weight is best; among equal weights the one with the
shortest path, and among those the one of the peer whose id comes first.  Absent routes come last.
-/

namespace RouteSync

/-- A peer's route with the weight of the peer. -/
structure RankedRoute where
  weight : Nat
  route : IncomingRoute
  deriving DecidableEq

/-- The order in which the best route comes first. -/
def compareRanked : Option RankedRoute → Option RankedRoute → Ordering
  | none, none => .eq
  | none, some _ => .gt
  | some _, none => .lt
  | some a, some b =>
    (compare b.weight a.weight).then
      ((compare a.route.path.length b.route.path.length).then (compare a.route.peer b.route.peer))

/-- A peer whose routes are to be ranked is in no directory. -/
structure UnknownPeer where
  account : AccountId
  deriving DecidableEq

namespace Directory

/-- Look up the weight of the peer that advertised a route. -/
def rank (d : Directory) (r : IncomingRoute) : Except UnknownPeer RankedRoute :=
  match d.routeWeight? r.peer with
  | some weight => .ok ⟨weight, r⟩
  | none => .error ⟨r.peer⟩

/-- Rank a route if there is one. -/
def rankOptional (d : Directory) : Option IncomingRoute → Except UnknownPeer (Option RankedRoute)
  | none => .ok none
  | some r => (d.rank r).map some

/-- The best of several routes for one prefix.  Every peer among them has to be known. -/
def bestRoute (d : Directory) (candidates : List (Option IncomingRoute)) :
    Except UnknownPeer (Option IncomingRoute) := do
  let ranked ← candidates.mapM d.rankOptional
  let sorted := ranked.mergeSort fun a b => (compareRanked a b).isLE
  return sorted.head?.join.map RankedRoute.route

end Directory

end RouteSync
