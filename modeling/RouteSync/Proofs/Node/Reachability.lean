import RouteSync.Proofs.Node.Admission
import RouteSync.Proofs.Node.OwnRoutes

/-!
# The default route is never lost

A node that has a route of its own for its global prefix, and uses some route for it, is `Anchored`
there.  The first reload that succeeds anchors a node, in whatever state it is
(`anchored_of_reload`).  Choosing anew keeps a node anchored, since there is its own route to choose
if there is no better one (`Anchored.recompute`).  A later reload that fails early changes nothing,
and one that fails half-way has put new routes of the node in place, of which one is for the global
prefix again (`Anchored.change`).  So a node stays anchored as long as its global prefix stays
(`Anchored.move`), and finds a route for each address there (`findRoute_of_reloaded`).
-/

namespace RouteSync.Node

/-- There is a route of the node itself for its global prefix, and some route is in use for it. -/
structure Anchored (root : Prefix) (n : Node) : Prop where
  globalPrefix_eq : n.settings.globalPrefix = root
  own : (n.originated.get? root).isSome = true
  used : (n.localTable.get? root).isSome = true

variable {n n' : Node} {p root : Prefix}

/-- The lookup of an address below the global prefix ends there at the latest. -/
theorem Anchored.findRoute (h : n.Anchored root) {destination : Address}
    (hdestination : root.isPrefixOf destination = true) :
    ∃ r, n.findRoute destination = some r ∧ r.target.startsWith root = true := by
  obtain ⟨q, r, hbelow, hr, hfound, -⟩ :=
    RouteTable.lookup_eq_of_isPrefixOf hdestination h.used fun _ _ => rfl
  have htarget : r.target = q := RouteTable.target_of_get? hr
  exact ⟨r, hfound, htarget ▸ hbelow⟩

/-! ### Choosing anew -/

/-- Where the node has a route of its own, choosing anew puts a route into use. -/
theorem isSome_get?_of_recompute (h : n.recompute p = .ok n')
    (hown : (n.originated.get? p).isSome = true) : (n'.localTable.get? p).isSome = true := by
  obtain ⟨best, -, -, hnextHop, -⟩ := get?_of_recompute h
  have hchosen : (n.select p best).isSome = true := by
    rw [select, Option.isSome_or, Option.isSome_or, hown, Bool.or_true, Bool.true_or]
  have hisSome := congrArg Option.isSome hnextHop
  rw [Option.isSome_map, Option.isSome_map, hchosen] at hisSome
  exact hisSome

/-- Choosing anew puts no route out of use where the node has one of its own. -/
theorem isSome_get?_recompute {q : Prefix} (h : n.recompute p = .ok n')
    (hown : (n.originated.get? q).isSome = true) (hused : (n.localTable.get? q).isSome = true) :
    (n'.localTable.get? q).isSome = true := by
  by_cases hqp : q = p
  · rw [hqp] at hown ⊢
    exact isSome_get?_of_recompute h hown
  · obtain ⟨best, -, -, -, hothers⟩ := get?_of_recompute h
    rw [hothers q hqp]
    exact hused

theorem Anchored.recompute (hn : n.Anchored root) (h : n.recompute p = .ok n') :
    n'.Anchored root where
  globalPrefix_eq := by
    rw [recompute_retabled h]
    exact hn.globalPrefix_eq
  own := by
    rw [(recompute_retabled h).originated]
    exact hn.own
  used := isSome_get?_recompute h hn.own hn.used

/-- If no error stopped the choice, there was a best peer route for each of the prefixes. -/
theorem exists_bestPeerRoute_of_recomputeAll {ps : List Prefix}
    (h : (n.recomputeAll ps).2 = .ok ()) : ∀ p ∈ ps, ∃ best, n.bestPeerRoute p = .ok best := by
  induction ps generalizing n with
  | nil => exact fun p hp => absurd hp List.not_mem_nil
  | cons q qs ih =>
    rw [recomputeAll] at h
    cases hq : n.recompute q with
    | error e =>
      rw [hq] at h
      cases h
    | ok n' =>
      rw [hq] at h
      intro p hp
      rcases List.mem_cons.1 hp with rfl | hp
      · obtain ⟨best, hbest, -⟩ := recompute_eq_ok.1 hq
        exact ⟨best, hbest⟩
      · rw [← (recompute_retabled hq).bestPeerRoute p]
        exact ih h p hp

/-- Choosing anew for several prefixes puts routes into use wherever the node has routes of its own,
if no error stops it. -/
theorem isSome_get?_recomputeAll {ps : List Prefix} (h : (n.recomputeAll ps).2 = .ok ())
    (hp : p ∈ ps) (hown : (n.originated.get? p).isSome = true) :
    ((n.recomputeAll ps).1.localTable.get? p).isSome = true := by
  have hsettled := recomputeAll_settles
    (Q := fun n p => (n.originated.get? p).isSome = true → (n.localTable.get? p).isSome = true)
    (fun n q n' hok hown => ?_) (fun n q n' p hok hused hown => ?_)
    (exists_bestPeerRoute_of_recomputeAll h)
  · refine hsettled.2 p (.inl hp) ?_
    rw [(recomputeAll_retabled n ps).originated]
    exact hown
  · rw [(recompute_retabled hok).originated] at hown
    exact isSome_get?_of_recompute hok hown
  · rw [(recompute_retabled hok).originated] at hown
    exact isSome_get?_recompute hok hown (hused hown)

/-! ### Reloads -/

/-- There is always a route for the global prefix among the node's own. -/
theorem globalPrefix_mem_ownRoutes {routes : List Route} (h : n.ownRoutes = .ok routes) :
    n.settings.globalPrefix ∈ routes.map (·.target) := by
  obtain ⟨account, children, -, -, rfl⟩ := ownRoutes_eq_ok h
  exact List.mem_cons_of_mem _ List.mem_cons_self

theorem isSome_get?_ownTable_globalPrefix {routes : List Route} (h : n.ownRoutes = .ok routes) :
    ((ownTable routes).get? n.settings.globalPrefix).isSome = true := by
  obtain ⟨r, hr, htarget⟩ := List.mem_map.1 (globalPrefix_mem_ownRoutes h)
  rw [← htarget]
  exact isSome_get?_ownTable hr

/-- A reload that succeeds anchors the node. -/
theorem anchored_of_reload (h : n.reload.2 = .ok ()) :
    n.reload.1.Anchored n.settings.globalPrefix := by
  obtain ⟨routes, hroutes, horiginated⟩ := reload_originated h
  have hown := isSome_get?_ownTable_globalPrefix hroutes
  refine ⟨by rw [(reload_keeps n).settings], by rw [horiginated]; exact hown, ?_⟩
  unfold Node.reload at h ⊢
  rw [hroutes] at h ⊢
  refine isSome_get?_recomputeAll h ?_ hown
  rw [List.mem_eraseDups]
  exact List.mem_append_left _ (List.mem_append_left _ (globalPrefix_mem_ownRoutes hroutes))

/-! ### Moves -/

/-- A change touches no route in use, and the node's own routes are only replaced by new ones. -/
theorem Anchored.change {intake : Intake} {stale : List Prefix} (hn : n.Anchored root)
    (h : Change intake stale n n') : n'.Anchored root where
  globalPrefix_eq := by
    rw [h.unsettles.settings]
    exact hn.globalPrefix_eq
  own := by
    rcases h.originated_cases with hsame | ⟨routes, hroutes, hmade⟩
    · rw [hsame]
      exact hn.own
    · rw [hmade, ← hn.globalPrefix_eq]
      exact isSome_get?_ownTable_globalPrefix hroutes
  used := by
    rw [h.unsettles.localTable]
    exact hn.used

theorem Anchored.steps (hn : n.Anchored root) (h : Steps n n') : n'.Anchored root :=
  h.induction (fun _ _ _ hchange hn => hn.change hchange) (fun _ _ _ hok hn => hn.recompute hok) hn

/-- Nothing but another global prefix takes a node off its anchor. -/
theorem Anchored.move (hn : n.Anchored root) {m : Move}
    (hm : ∀ settings, m = .configure settings → settings.globalPrefix = root) :
    (n.move m).Anchored root := by
  cases m with
  | configure settings => exact ⟨hm settings rfl, hn.own, hn.used⟩
  | filter filter => exact ⟨hn.globalPrefix_eq, hn.own, hn.used⟩
  | direct directory => exact ⟨hn.globalPrefix_eq, hn.own, hn.used⟩
  | useSession s use => exact ⟨hn.globalPrefix_eq, hn.own, hn.used⟩
  | track session =>
    obtain ⟨sessions, tracked, hmove⟩ := move_track n session
    rw [hmove]
    exact ⟨hn.globalPrefix_eq, hn.own, hn.used⟩
  | _ => exact hn.steps (move_steps n trivial)

theorem Anchored.run {moves : List Move} (hn : n.Anchored root)
    (hmoves : ∀ settings, .configure settings ∈ moves → settings.globalPrefix = root) :
    (n.run moves).Anchored root :=
  run_induction (fun _ _ hm hn => hn.move fun settings hsettings =>
    hmoves settings (hsettings ▸ hm)) hn

/-- The moves that reload the routes of the node itself. -/
def Move.Reloads : Move → Prop
  | .reload | .start | .begin _ _ (.finishConnect _) => True
  | _ => False

/-- What follows on the reload in such a move touches no routes. -/
theorem Move.Reloads.sameRouting {m : Move} (hm : m.Reloads) (n : Node) :
    SameRouting n.reload.1 (n.move m) := by
  cases m with
  | reload => exact .refl n.reload.1
  | start => exact (start_aside n).sameRouting
  | begin now clock task =>
    cases task with
    | finishConnect s =>
      rcases finishConnect_cases n clock s with hstarted | hunstarted
      · show SameRouting _ (n.finishConnect clock s)
        rw [hstarted]
        exact startBroadcast_sameRouting n.reload.1 clock s
      · show SameRouting _ (n.finishConnect clock s)
        rw [hunstarted]
        exact .refl n.reload.1
    | _ => exact hm.elim
  | _ => exact hm.elim

/-- **Every address has a route.**  Let a node, whatever happened to it before, reload its own
routes without an error.  Whatever happens then, as long as the global prefix stays the same, a
route at or below this prefix is found for each address there. -/
theorem findRoute_of_reloaded {first : Move} (hfirst : first.Reloads)
    (hreload : n.reload.2 = .ok ()) {moves : List Move}
    (hmoves : ∀ settings, .configure settings ∈ moves →
      settings.globalPrefix = n.settings.globalPrefix)
    {destination : Address}
    (hdestination : n.settings.globalPrefix.isPrefixOf destination = true) :
    ∃ r, ((n.move first).run moves).findRoute destination = some r ∧
      r.target.startsWith n.settings.globalPrefix = true := by
  have hreloaded := anchored_of_reload hreload
  have hsame := hfirst.sameRouting n
  have hanchored : (n.move first).Anchored n.settings.globalPrefix :=
    ⟨by rw [hsame.settings]; exact hreloaded.globalPrefix_eq,
      by rw [hsame.originated]; exact hreloaded.own, by rw [hsame.localTable]; exact hreloaded.used⟩
  exact (hanchored.run hmoves).findRoute hdestination

/-! ### A peer that takes everything back -/

/-- An update that takes the global prefix and the route to the remote nodes back. -/
def takenBack (epoch : Nat) : Delivery :=
  let update : UpdateRequest :=
    { (routeThrough [] epoch).update with newRoutes := [], withdrawn := [Prefix.global, remote] }
  { now := .origin
    update := update
    packet := messagePacket updateDestination update.toTree.write .origin }

/-- The peer of the small node advertises a route and takes back more than that.  Then all accounts
are deleted, so that reloads fail from then on, and the peer is disconnected.  An address far away
still has a route. -/
theorem findRoute_of_deserted :
    let moves := [.event ⟨smallPeer.id, .connected⟩, (routeThrough [] 0).move smallPeer.id,
      (takenBack 1).move smallPeer.id, .direct {}, .begin .origin 0 (.finishConnect ⟨0⟩), .reload,
      .event ⟨smallPeer.id, .disconnected⟩]
    let destination : Address := ⟨"g.far.away.alice".toList, by decide⟩
    Move.start.Reloads ∧ small.reload.2 = .ok () ∧
      (∀ settings, Move.configure settings ∈ moves →
        settings.globalPrefix = small.settings.globalPrefix) ∧
      small.settings.globalPrefix.isPrefixOf destination = true ∧
      ((small.move .start).run moves).reload.2.toOption = none ∧
      ∃ r, ((small.move .start).run moves).findRoute destination = some r ∧
        r.target.startsWith small.settings.globalPrefix = true := by
  intro moves destination
  have hstart : Move.start.Reloads := trivial
  have hreload : small.reload.2 = .ok () := reload_eq_ok (tidy_fresh ..) rfl
  have hmoves : ∀ settings, Move.configure settings ∈ moves →
      settings.globalPrefix = small.settings.globalPrefix := by
    simp [moves, Delivery.move]
  have hdestination : small.settings.globalPrefix.isPrefixOf destination = true := by
    decide +kernel
  exact ⟨hstart, hreload, hmoves, hdestination, by decide +kernel,
    findRoute_of_reloaded hstart hreload hmoves hdestination⟩

end RouteSync.Node
