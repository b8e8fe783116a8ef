import RouteSync.Proofs.Node.Admission

/-!
# Which route comes first

For a prefix there may be a static route whose account exists, a route that the node makes itself,
and routes of peers.  They should come in this order (`preferred`), the first of several static
routes and the best of several peer routes.

Only the first static route for a prefix is looked at.  If its account is missing, the choice goes
on with the routes of the node itself, although a later static route for the prefix may have an
account (`Settings.Overlooks`).  Apart from this the order is kept (`bestRoute_eq_preferred_iff`).
-/

namespace RouteSync

namespace Settings

variable {s : Settings} {d : Directory} {p : Prefix}

/-- The first static route for a prefix of those whose account exists. -/
def usableStatic? (s : Settings) (d : Directory) (p : Prefix) : Option StaticRoute :=
  s.staticRoutes.find? fun r => r.target == p && d.knows r.peer

/-- The first static route with an account is not the first one for the prefix. -/
structure Overlooks (s : Settings) (d : Directory) (p : Prefix) (r : StaticRoute) : Prop where
  usable : s.usableStatic? d p = some r
  behind : s.staticRoutes.find? (·.target == p) ≠ some r

theorem knows_of_usableStatic? {r : StaticRoute} (h : s.usableStatic? d p = some r) :
    r.target = p ∧ d.knows r.peer = true := by
  have hboth := List.find?_some h
  rw [Bool.and_eq_true, beq_iff_eq] at hboth
  exact hboth

/-- A static route that comes first for the prefix, and has an account, is the one to be used. -/
theorem usableStatic?_of_first {r : StaticRoute}
    (h : s.staticRoutes.find? (·.target == p) = some r) (hknows : d.knows r.peer = true) :
    s.usableStatic? d p = some r := by
  obtain ⟨htarget, before, after, hsplit, hothers⟩ := List.find?_eq_some_iff_append.1 h
  refine List.find?_eq_some_iff_append.2 ⟨?_, before, after, hsplit, fun q hq => ?_⟩
  · rw [htarget, hknows]
    rfl
  · have hother := hothers q hq
    rw [Bool.not_eq_true'] at hother
    rw [hother]
    rfl

/-- An overlooked static route is not used, nor is any other one. -/
theorem Overlooks.staticRoute?_eq_none {r : StaticRoute} (h : s.Overlooks d p r) :
    s.staticRoute? d p = none := by
  cases hfirst : s.staticRoutes.find? (·.target == p) with
  | none => rw [staticRoute?, hfirst]
  | some q =>
    have hmissing : d.knows q.peer ≠ true := by
      intro hknows
      have hsame := (usableStatic?_of_first hfirst hknows).symm.trans h.usable
      exact h.behind (hfirst.trans hsame)
    rw [staticRoute?, hfirst]
    exact if_neg hmissing

/-- If none is overlooked, the static route that is used is the first one with an account. -/
theorem staticRoute?_of_not_overlooks (h : ∀ r, ¬s.Overlooks d p r) :
    s.staticRoute? d p =
      (s.usableStatic? d p).map fun r => Route.originated p r.peer s.routingSecret := by
  cases husable : s.usableStatic? d p with
  | some r =>
    have hfirst : s.staticRoutes.find? (·.target == p) = some r :=
      Decidable.byContradiction fun hbehind => h r ⟨husable, hbehind⟩
    rw [staticRoute?, hfirst]
    exact if_pos (knows_of_usableStatic? husable).2
  | none =>
    cases hfirst : s.staticRoutes.find? (·.target == p) with
    | none => rw [staticRoute?, hfirst, Option.map_none]
    | some q =>
      have hmissing : d.knows q.peer ≠ true := by
        intro hknows
        rw [usableStatic?_of_first hfirst hknows] at husable
        cases husable
      rw [staticRoute?, hfirst]
      exact if_neg hmissing

end Settings

namespace Node

variable {n : Node} {p : Prefix}

/-- The route for a prefix without static routes: one that the node makes itself, or else that of a
peer. -/
def fallback (n : Node) (p : Prefix) (peerRoute : Option IncomingRoute) : Option Route :=
  (n.originated.get? p).or (peerRoute.map IncomingRoute.toRoute)

/-- The route that should be chosen: that of the first static route whose account exists, or else
one that the node makes itself, or else that of a peer. -/
def preferred (n : Node) (p : Prefix) (peerRoute : Option IncomingRoute) : Option Route :=
  ((n.settings.usableStatic? n.directory p).map fun r =>
    Route.originated p r.peer n.settings.routingSecret).or (n.fallback p peerRoute)

theorem select_eq_or_fallback (n : Node) (p : Prefix) (peerRoute : Option IncomingRoute) :
    n.select p peerRoute =
      (n.settings.staticRoute? n.directory p).or (n.fallback p peerRoute) := by
  rw [select, fallback, Option.or_assoc]

/-- The best peer route is one that no route of a peer is preferred to, if there is any. -/
theorem exists_bestPeerRoute
    (hknown : ∀ r, some r ∈ n.peerRoutes p → n.directory.knows r.peer = true) :
    ∃ best, n.bestPeerRoute p = .ok best ∧
      (∀ r, best = some r → some r ∈ n.peerRoutes p ∧
        ∀ other, some other ∈ n.peerRoutes p → ¬n.directory.Beats other r) ∧
      (best = none ↔ ∀ r, some r ∉ n.peerRoutes p) := by
  have hbest := Directory.bestRoute_of_knows hknown
  generalize ((n.directory.firstRanked (n.peerRoutes p)).join.map RankedRoute.route) = best at hbest
  refine ⟨best, ?_, fun r hr => ?_, fun hnone => ?_, fun habsent => ?_⟩
  · rw [bestPeerRoute, hbest]
    rfl
  · rw [hr] at hbest
    exact Directory.unbeaten_of_bestRoute hbest
  · rw [hnone] at hbest
    exact Directory.absent_of_bestRoute hbest
  · rw [Option.eq_none_iff_forall_ne_some]
    intro r hr
    rw [hr] at hbest
    exact habsent r (Directory.mem_of_bestRoute hbest)

/-- **The order in which routes are preferred.**  Let all tracked peers with a route for a prefix be
known.  Then there is a best one among their routes, if there is any, and the best route for the
prefix is the preferred one, unless a static route is overlooked.  In that case the static routes
are passed over, so the best route is the preferred one just if the fallback happens to be the same
route. -/
theorem bestRoute_eq_preferred_iff
    (hknown : ∀ r, some r ∈ n.peerRoutes p → n.directory.knows r.peer = true) :
    ∃ best, n.bestPeerRoute p = .ok best ∧
      (∀ r, best = some r → some r ∈ n.peerRoutes p ∧
        ∀ other, some other ∈ n.peerRoutes p → ¬n.directory.Beats other r) ∧
      (best = none ↔ ∀ r, some r ∉ n.peerRoutes p) ∧
      ((∀ r, ¬n.settings.Overlooks n.directory p r) →
        n.bestRoute p = .ok (n.preferred p best)) ∧
      ∀ r, n.settings.Overlooks n.directory p r →
        n.bestRoute p = .ok (n.fallback p best) ∧
          (n.bestRoute p = .ok (n.preferred p best) ↔
            n.fallback p best = some (Route.originated p r.peer n.settings.routingSecret)) := by
  obtain ⟨best, hbest, hunbeaten, hnone⟩ := exists_bestPeerRoute hknown
  have hchosen : n.bestRoute p =
      .ok ((n.settings.staticRoute? n.directory p).or (n.fallback p best)) := by
    rw [bestRoute, hbest, ← select_eq_or_fallback]
    rfl
  refine ⟨best, hbest, hunbeaten, hnone, fun hseen => ?_, fun r hoverlooked => ?_⟩
  · rw [hchosen, preferred, Settings.staticRoute?_of_not_overlooks hseen]
  · rw [hoverlooked.staticRoute?_eq_none, Option.none_or] at hchosen
    have hpreferred : n.preferred p best =
        some (Route.originated p r.peer n.settings.routingSecret) := by
      rw [preferred, hoverlooked.usable]
      rfl
    refine ⟨hchosen, ?_⟩
    rw [hchosen, hpreferred, Except.ok.injEq]

/-- The small node with two static routes for the prefix that its peer advertises. -/
def smallWithStatics (first second : AccountId) : Node :=
  fresh { smallSettings with staticRoutes := [⟨remote, first⟩, ⟨remote, second⟩] } smallDirectory
    .json none small.outgoing.id [{ account := smallPeer.id }]

/-- The first static route has an account and the second has none, and the peer has a route as well.
-/
theorem bestRoute_eq_preferred_of_tracked :
    let n := (smallWithStatics smallPeer.id friend.id).run
      [.event ⟨smallPeer.id, .connected⟩, (routeThrough [] 0).move smallPeer.id]
    n.peerRoutes remote ≠ [none] ∧ n.directory.knows friend.id = false ∧
      (∀ r, some r ∈ n.peerRoutes remote → n.directory.knows r.peer = true) ∧
      ∃ best, n.bestPeerRoute remote = .ok best ∧
        n.bestRoute remote = .ok (n.preferred remote best) := by
  intro n
  obtain ⟨hroutes, hmissing, hall⟩ : n.peerRoutes remote ≠ [none] ∧
      n.directory.knows friend.id = false ∧
      ∀ r ∈ (n.peerRoutes remote).filterMap id, n.directory.knows r.peer = true := by
    decide +kernel
  have hknown : ∀ r, some r ∈ n.peerRoutes remote → n.directory.knows r.peer = true :=
    fun r hr => hall r (Directory.mem_filterMap_id.2 hr)
  obtain ⟨best, hbest, -, -, hseen, -⟩ := bestRoute_eq_preferred_iff hknown
  refine ⟨hroutes, hmissing, hknown, best, hbest, hseen fun r hoverlooked => ?_⟩
  have husable : n.settings.usableStatic? n.directory remote = some ⟨remote, smallPeer.id⟩ := by
    decide +kernel
  have hr : some r = some ⟨remote, smallPeer.id⟩ := hoverlooked.usable.symm.trans husable
  exact hoverlooked.behind (hr ▸ by decide +kernel)

/-- The first static route has no account, and the second, which has one, is not used.  There is no
other route. -/
theorem bestRoute_of_overlooked :
    let n := smallWithStatics friend.id smallPeer.id
    n.peerRoutes remote = [] ∧
      n.settings.usableStatic? n.directory remote = some ⟨remote, smallPeer.id⟩ ∧
      n.preferred remote none =
        some (Route.originated remote smallPeer.id n.settings.routingSecret) ∧
      n.bestRoute remote = .ok none :=
  ⟨rfl, by decide +kernel, by decide +kernel, eq_ok_of_toOption (by decide +kernel)⟩

end Node

end RouteSync
