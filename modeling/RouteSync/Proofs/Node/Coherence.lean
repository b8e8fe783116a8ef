import RouteSync.Proofs.Node.Admission
import RouteSync.Proofs.Node.Tidy

/-!
# The tables of a node fit together

The table of incoming routes and the table of routes in use are made from static routes, the node's
own routes and what the peers advertise.  At a prefix they are coherent (`CoherentAt`) if choosing
its route anew would change nothing that counts.  Choosing anew makes a prefix coherent and leaves
the others as they were.

Every move changes what the choice depends on for some prefixes only (`Unsettles`), and then chooses
anew for these: the prefixes that an update changed, those that a closed or expired session held a
route for, and those of the node's own and of the static routes on a reload.  `Keeps` says this for
one move: the prefixes that were coherent remain so, apart from stale ones, and choosing anew for
these leaves none (`Keeps.rechosen`).  What a node without tables gets wrong, the static routes, is
put right by the first reload that succeeds (`coherentAt_of_reload`).
-/

namespace RouteSync.Node

open RouteEntry

/-- At a prefix the table of incoming routes holds the best peer route, and the next hop of the
route in use is that of the route that would be chosen. -/
structure CoherentAt (n : Node) (p : Prefix) : Prop where
  incoming : n.bestPeerRoute p = .ok (n.incoming.get? p)
  nextHop : (n.localTable.get? p).map Route.nextHop =
    (n.select p (n.incoming.get? p)).map Route.nextHop

/-- Coherence at a prefix hangs on what the choice for it reads, and on what the tables hold for it.
-/
theorem CoherentAt.congr {n n' : Node} {p : Prefix} (h : n.CoherentAt p)
    (hsettings : n'.settings = n.settings) (hdirectory : n'.directory = n.directory)
    (hbest : n'.bestPeerRoute p = n.bestPeerRoute p)
    (horiginated : n'.originated.get? p = n.originated.get? p)
    (hincoming : n'.incoming.get? p = n.incoming.get? p)
    (hlocal : n'.localTable.get? p = n.localTable.get? p) : n'.CoherentAt p where
  incoming := by
    rw [hbest, hincoming]
    exact h.incoming
  nextHop := by
    rw [hlocal, hincoming, select, hsettings, hdirectory, horiginated]
    exact h.nextHop

/-! ### Choosing anew -/

theorem nextHop_adopt {n : Node} {p : Prefix} {route : Option Route}
    (h : ∀ r, route = some r → r.target = p) :
    ((n.adopt p route).localTable.get? p).map Route.nextHop = route.map Route.nextHop := by
  unfold adopt
  split
  · assumption
  · rw [RouteTable.get?_set _ h, if_pos rfl]

theorem get?_localTable_adopt {n : Node} {p q : Prefix} {route : Option Route}
    (h : ∀ r, route = some r → r.target = p) (hq : q ≠ p) :
    (n.adopt p route).localTable.get? q = n.localTable.get? q := by
  unfold adopt
  split
  · rfl
  · rw [RouteTable.get?_set _ h, if_neg hq]

theorem adopt_incoming (n : Node) (p : Prefix) (route : Option Route) :
    (n.adopt p route).incoming = n.incoming := by
  unfold adopt
  split <;> rfl

/-- What the tables hold after the route for a prefix was chosen anew. -/
theorem get?_of_recompute {n n' : Node} {p : Prefix} (h : n.recompute p = .ok n') :
    ∃ best, n.bestPeerRoute p = .ok best ∧
      (∀ q, n'.incoming.get? q = if q = p then best else n.incoming.get? q) ∧
      (n'.localTable.get? p).map Route.nextHop = (n.select p best).map Route.nextHop ∧
      ∀ q, q ≠ p → n'.localTable.get? q = n.localTable.get? q := by
  obtain ⟨best, hbest, rfl⟩ := recompute_eq_ok.1 h
  have hpeer : ∀ r, best = some r → r.target = p := fun r hr => target_of_bestPeerRoute (hr ▸ hbest)
  have hroute : ∀ r, n.select p best = some r → r.target = p := fun r => target_of_select hpeer
  refine ⟨best, hbest, fun q => ?_, nextHop_adopt hroute, fun q hq => ?_⟩
  · rw [adopt_incoming, noteIncoming, RouteTable.get?_set _ hpeer]
  · rw [get?_localTable_adopt hroute hq]
    rfl

theorem coherentAt_of_recompute {n n' : Node} {p : Prefix} (h : n.recompute p = .ok n') :
    n'.CoherentAt p := by
  have hretabled := recompute_retabled h
  obtain ⟨best, hbest, hincoming, hnextHop, -⟩ := get?_of_recompute h
  have hp : n'.incoming.get? p = best := (hincoming p).trans (if_pos rfl)
  refine ⟨?_, ?_⟩
  · rw [hretabled.bestPeerRoute, hp]
    exact hbest
  · rw [hp, hnextHop, hretabled]
    rfl

theorem CoherentAt.recompute {n n' : Node} {p q : Prefix} (hq : n.CoherentAt q)
    (h : n.recompute p = .ok n') : n'.CoherentAt q := by
  by_cases hqp : q = p
  · rw [hqp]
    exact coherentAt_of_recompute h
  · have hretabled := recompute_retabled h
    obtain ⟨best, -, hincoming, -, hlocal⟩ := get?_of_recompute h
    refine hq.congr ?_ ?_ (hretabled.bestPeerRoute q) ?_ ?_ (hlocal q hqp)
    · rw [hretabled]
    · rw [hretabled]
    · rw [hretabled]
    · rw [hincoming, if_neg hqp]

/-- Choosing anew for other prefixes leaves an entry alone. -/
theorem get?_localTable_recomputeAll {ps : List Prefix} {p : Prefix} (hp : p ∉ ps) (n : Node) :
    (n.recomputeAll ps).1.localTable.get? p = n.localTable.get? p := by
  induction ps generalizing n with
  | nil => rfl
  | cons q qs ih =>
    rw [List.mem_cons, not_or] at hp
    rw [recomputeAll]
    cases hq : n.recompute q with
    | error e => rfl
    | ok n' =>
      obtain ⟨best, -, -, -, hothers⟩ := get?_of_recompute hq
      exact (ih hp.2 n').trans (hothers p hp.1)

/-- With sessions in order choosing anew cannot fail. -/
theorem Tidy.recompute {n : Node} (h : n.Tidy) (p : Prefix) : ∃ n', n.recompute p = .ok n' := by
  obtain ⟨best, hbest, -⟩ := h.bestPeerRoute p
  exact ⟨_, recompute_eq_ok.2 ⟨best, hbest, rfl⟩⟩

/-- Choosing anew for several prefixes makes these coherent and keeps the others so. -/
theorem Tidy.recomputeAll {n : Node} (h : n.Tidy) (ps : List Prefix) :
    (n.recomputeAll ps).2 = .ok () ∧
      ∀ q, q ∈ ps ∨ n.CoherentAt q → (n.recomputeAll ps).1.CoherentAt q := by
  refine recomputeAll_settles (fun _ _ _ => coherentAt_of_recompute)
    (fun _ _ _ _ hok hq => hq.recompute hok) fun p _ => ?_
  obtain ⟨best, hbest, -⟩ := h.bestPeerRoute p
  exact ⟨best, hbest⟩

/-- Unless an error stops it, choosing anew goes on with further prefixes. -/
theorem recomputeAll_append {n : Node} {ps qs : List Prefix} (h : (n.recomputeAll ps).2 = .ok ()) :
    (n.recomputeAll (ps ++ qs)).1 = ((n.recomputeAll ps).1.recomputeAll qs).1 := by
  induction ps generalizing n with
  | nil => rfl
  | cons p ps ih =>
    rw [List.cons_append, Node.recomputeAll, Node.recomputeAll]
    rw [Node.recomputeAll] at h
    cases hp : n.recompute p with
    | error e =>
      rw [hp] at h
      cases h
    | ok n' =>
      rw [hp] at h
      exact ih h

/-- With sessions in order there are no errors to pass over. -/
theorem Tidy.recomputeEach_eq {n : Node} (h : n.Tidy) (ps : List Prefix) :
    n.recomputeEach ps = (n.recomputeAll ps).1 := by
  induction ps generalizing n with
  | nil => rfl
  | cons p ps ih =>
    obtain ⟨n', hn'⟩ := h.recompute p
    rw [Node.recomputeAll, recomputeEach, List.foldl_cons, hn']
    exact ih ((recompute_retabled hn').tidy h)

/-- With sessions in order no error stops the choice. -/
theorem Rechosen.eq_recomputeAll {stale : List Prefix} {n n' : Node} (h : Rechosen stale n n')
    (hn : n.Tidy) : ∃ ps, stale ⊆ ps ∧ n' = (n.recomputeAll ps).1 := by
  cases h with
  | @all ps rest hps =>
    exact ⟨ps ++ rest, fun p hp => List.mem_append_left rest (hps hp),
      (recomputeAll_append (hn.recomputeAll ps).1).symm⟩
  | @each ps hps => exact ⟨ps, hps, hn.recomputeEach_eq ps⟩

/-! ### Moves -/

/-- From `n` to `n'` settings and directory stay, sessions in order stay in order, and the tables
stay coherent at all prefixes but the stale ones. -/
structure Keeps (stale : List Prefix) (n n' : Node) : Prop where
  settings : n'.settings = n.settings
  directory : n'.directory = n.directory
  tidy : n.Tidy → n'.Tidy
  coherent : n.Tidy → ∀ p, p ∉ stale → n.CoherentAt p → n'.CoherentAt p

theorem Keeps.refl (n : Node) : Keeps [] n n :=
  ⟨rfl, rfl, id, fun _ _ _ => id⟩

theorem Keeps.trans {n n' n'' : Node} (h : Keeps [] n n') (h' : Keeps [] n' n'') :
    Keeps [] n n'' where
  settings := h'.settings.trans h.settings
  directory := h'.directory.trans h.directory
  tidy hn := h'.tidy (h.tidy hn)
  coherent hn p hp hc := h'.coherent (h.tidy hn) p hp (h.coherent hn p hp hc)

/-- What happens to the tables afterwards does not matter as long as it ends in coherence. -/
theorem Keeps.retabled {stale : List Prefix} {n n' n'' : Node} (h : Keeps stale n n')
    (hretabled : Retabled n' n'')
    (hcoherent : n.Tidy → ∀ p, n.CoherentAt p → n''.CoherentAt p) : Keeps [] n n'' where
  settings := by
    rw [hretabled]
    exact h.settings
  directory := by
    rw [hretabled]
    exact h.directory
  tidy hn := hretabled.tidy (h.tidy hn)
  coherent hn p _ hp := hcoherent hn p hp

/-- What a change leaves settled stays coherent. -/
theorem Unsettles.keeps {stale : List Prefix} {n n' : Node} (h : Unsettles stale n n') :
    Keeps stale n n' where
  settings := h.settings
  directory := h.directory
  tidy := h.tidy
  coherent hn p hp hc :=
    hc.congr h.settings h.directory
      (hn.bestPeerRoute_congr h.directory (h.peerRoutes hn.toOrderly p hp)) (h.originated p hp)
      (by rw [h.incoming]) (by rw [h.localTable])

theorem Keeps.rechosen {stale : List Prefix} {n n' n'' : Node} (h : Keeps stale n n')
    (hchosen : Rechosen stale n' n'') : Keeps [] n n'' := by
  refine h.retabled hchosen.retabled fun hn p hp => ?_
  obtain ⟨ps, hps, rfl⟩ := hchosen.eq_recomputeAll (h.tidy hn)
  refine ((h.tidy hn).recomputeAll ps).2 p ?_
  by_cases hstale : p ∈ stale
  · exact .inl (hps hstale)
  · exact .inr (h.coherent hn p hstale hp)

theorem StepsWith.keeps {intake : Intake} {n n' : Node} (h : StepsWith intake n n') :
    Keeps [] n n' := by
  induction h with
  | refl => exact .refl n
  | tail _ hstep ih =>
    obtain ⟨stale, changed, hchange, hchosen⟩ := hstep
    exact ih.trans (hchange.unsettles.keeps.rechosen hchosen)

theorem reload_keeps (n : Node) : Keeps [] n n.reload.1 := by
  have hsteps : Steps n n.reload.1 := reload_steps n
  exact hsteps.keeps

theorem move_keeps (n : Node) {m : Move} (hm : m.IsRoutine) : Keeps [] n (n.move m) :=
  (move_steps n hm).keeps

theorem run_keeps {n : Node} {moves : List Move} (hmoves : ∀ m ∈ moves, m.IsRoutine) :
    Keeps [] n (n.run moves) :=
  (run_steps hmoves).keeps

/-! ### Runs -/

/-- A node that was just built uses no static route yet, and there is nothing else that it could
use. -/
theorem coherentAt_fresh {settings : Settings} {directory : Directory} {codec : Codec}
    {filter : Option (Prefix → Route → Bool)} {id : TableId} {links : List Link} {p : Prefix}
    (hp : p ∉ settings.staticRoutes.map (·.target)) :
    (fresh settings directory codec filter id links).CoherentAt p where
  incoming := by
    have htidy := tidy_fresh settings directory codec filter id links
    obtain ⟨best, hbest, -, hnone⟩ := htidy.bestPeerRoute p
    rw [hbest, hnone.2 rfl]
    rfl
  nextHop := by
    show _ = Option.map _ (((settings.staticRoute? directory p).or none).or none)
    rw [staticRoute?_eq_none hp]
    rfl

/-- Whether a reload chooses anew for a prefix. -/
def Touches (n : Node) (p : Prefix) : Prop :=
  p ∈ n.originated.keys ∨ p ∈ staticTargets n.settings ∨
    ∃ routes, n.ownRoutes = .ok routes ∧ p ∈ routes.map (·.target)

/-- A reload that succeeds makes the tables fit together wherever it chooses anew. -/
theorem Tidy.coherentAt_of_touches {n : Node} (h : n.Tidy) (hreload : n.reload.2 = .ok ())
    {p : Prefix} (hp : n.Touches p) : n.reload.1.CoherentAt p := by
  unfold Node.reload at hreload ⊢
  split
  · rename_i hroutes
    rw [hroutes] at hreload
    cases hreload
  · rename_i routes hroutes
    refine (((originate_unsettles n routes).tidy h).recomputeAll _).2 p (.inl ?_)
    rw [List.mem_eraseDups, List.mem_append, List.mem_append]
    rcases hp with hold | hstatic | ⟨routes', hroutes', hnew⟩
    · exact .inl (.inr hold)
    · exact .inr hstatic
    · rw [hroutes] at hroutes'
      cases hroutes'
      exact .inl (.inl hnew)

/-- A reload that succeeds chooses anew for the static routes. -/
theorem coherentAt_of_reload {n : Node} (h : n.Tidy) (hreload : n.reload.2 = .ok ()) {p : Prefix}
    (hp : p ∈ n.settings.staticRoutes.map (·.target)) : n.reload.1.CoherentAt p :=
  h.coherentAt_of_touches hreload (.inr (.inl hp))

/-- Static routes are put into use by the first reload that succeeds; everything else fits together
from the start. -/
theorem Keeps.coherent_reload {settings : Settings} {directory : Directory} {codec : Codec}
    {filter : Option (Prefix → Route → Bool)} {id : TableId} {links : List Link} {n : Node}
    (h : Keeps [] (fresh settings directory codec filter id links) n)
    (hreload : n.reload.2 = .ok ()) : n.reload.1.Tidy ∧ ∀ p, n.reload.1.CoherentAt p := by
  have hstart := tidy_fresh settings directory codec filter id links
  have hafter := h.trans (reload_keeps n)
  refine ⟨hafter.tidy hstart, fun p => ?_⟩
  by_cases hp : p ∈ settings.staticRoutes.map (·.target)
  · exact coherentAt_of_reload (h.tidy hstart) hreload (h.settings ▸ hp)
  · exact hafter.coherent hstart p List.not_mem_nil (coherentAt_fresh hp)

/-- With sessions in order a reload fails only where the node's own routes cannot be made. -/
theorem reload_eq_ok {n : Node} (h : n.Tidy) {routes : List Route}
    (hroutes : n.ownRoutes = .ok routes) : n.reload.2 = .ok () := by
  have hown := (originate_unsettles n routes).tidy h
  rw [Node.reload, hroutes]
  exact (hown.recomputeAll _).1

/-- After a reload that succeeded, whatever else happens under the same settings and the same
directory, the tables fit together at every prefix: the route in use has the next hop of the best
route, and the table of incoming routes holds just the best of the routes that the peers advertise.
-/
theorem coherent_of_run {settings : Settings} {directory : Directory} {codec : Codec}
    {filter : Option (Prefix → Route → Bool)} {tableId : TableId} {links : List Link}
    {before after : List Move} (hbefore : ∀ m ∈ before, m.IsRoutine)
    (hreload : ((fresh settings directory codec filter tableId links).run before).reload.2 = .ok ())
    (hafter : ∀ m ∈ after, m.IsRoutine) (p : Prefix) :
    let reloaded := ((fresh settings directory codec filter tableId links).run before).move .reload
    let n := reloaded.run after
    let held := (n.peerRoutes p).filterMap id
    (∃ best, n.bestRoute p = .ok best ∧
      (n.localTable.get? p).map Route.nextHop = best.map Route.nextHop) ∧
    (∀ r, n.incoming.get? p = some r ↔ directory.IsBest held r) ∧
    (n.incoming.get? p = none ↔ held = []) := by
  intro reloaded n held
  have hstart := tidy_fresh settings directory codec filter tableId links
  have hkeeps := run_keeps (n := fresh settings directory codec filter tableId links) hbefore
  have htidy := hkeeps.tidy hstart
  have hcoherent : reloaded.CoherentAt p := by
    by_cases hp : p ∈ settings.staticRoutes.map (·.target)
    · exact coherentAt_of_reload htidy hreload (hkeeps.settings ▸ hp)
    · have hbuilt := hkeeps.coherent hstart p List.not_mem_nil (coherentAt_fresh hp)
      exact (reload_keeps _).coherent htidy p List.not_mem_nil hbuilt
  have hrest := (hkeeps.trans (reload_keeps _)).trans (run_keeps (n := reloaded) hafter)
  have hn : n.CoherentAt p :=
    (run_keeps hafter).coherent ((reload_keeps _).tidy htidy) p List.not_mem_nil hcoherent
  obtain ⟨best, hbest, hisBest, hnone⟩ := (hrest.tidy hstart).bestPeerRoute p
  have hincoming : n.incoming.get? p = best := Except.ok.inj (hn.incoming.symm.trans hbest)
  have hdirectory : n.directory = directory := hrest.directory
  refine ⟨⟨n.select p best, ?_, ?_⟩, ?_, ?_⟩
  · rw [bestRoute, hbest]
    rfl
  · rw [← hincoming]
    exact hn.nextHop
  · rw [hincoming, ← hdirectory]
    exact hisBest
  · rw [hincoming]
    exact hnone

/-- The peer of the small node comes with a route, which is the best one and in use, and goes again,
after which nobody holds a route for that prefix.  The static route is in use all the time. -/
theorem coherent_of_visited :
    let before : List Move := [.listen, .register smallPeer.id]
    let comes : List Move :=
      [.event ⟨smallPeer.id, .connected⟩, .begin .origin 0 (.requestRoutes ⟨0⟩),
        (routeThrough [] 0).move smallPeer.id]
    let goes : List Move := comes ++ [.reload, .event ⟨smallPeer.id, .disconnected⟩]
    let reloaded := (small.run before).move .reload
    let n := reloaded.run comes
    let n' := reloaded.run goes
    (∀ m ∈ before, m.IsRoutine) ∧ (small.run before).reload.2 = .ok () ∧
      (∀ m ∈ comes, m.IsRoutine) ∧ (∀ m ∈ goes, m.IsRoutine) ∧
      (∃ best, n.bestRoute remote = .ok best ∧
        (n.localTable.get? remote).map Route.nextHop = best.map Route.nextHop ∧
        best.map Route.nextHop = some smallPeer.id) ∧
      (∃ r, n.incoming.get? remote = some r ∧ r.peer = smallPeer.id ∧
        smallDirectory.IsBest ((n.peerRoutes remote).filterMap id) r) ∧
      (n.peerRoutes remote).filterMap id ≠ [] ∧
      n'.incoming.get? remote = none ∧ (n'.peerRoutes remote).filterMap id = [] ∧
      ∃ best, n'.bestRoute smallTarget = .ok best ∧
        (n'.localTable.get? smallTarget).map Route.nextHop = best.map Route.nextHop ∧
        best.map Route.nextHop = some smallPeer.id := by
  intro before comes goes reloaded n n'
  have hbefore : ∀ m ∈ before, m.IsRoutine := by simp [before, Move.IsRoutine]
  have hcomes : ∀ m ∈ comes, m.IsRoutine := by simp [comes, Move.IsRoutine, Delivery.move]
  have hgoes : ∀ m ∈ goes, m.IsRoutine := by simp [goes, comes, Move.IsRoutine, Delivery.move]
  have hreload : (small.run before).reload.2 = .ok () :=
    reload_eq_ok ((run_keeps hbefore).tidy (tidy_fresh ..)) rfl
  obtain ⟨⟨best, hbest, hused⟩, hincoming, hnone⟩ :=
    coherent_of_run hbefore hreload hcomes remote
  obtain ⟨⟨best', hbest', hused'⟩, -, -⟩ := coherent_of_run hbefore hreload hgoes smallTarget
  obtain ⟨-, -, hgone⟩ := coherent_of_run hbefore hreload hgoes remote
  obtain ⟨hremote, hheard, hstatic, hempty⟩ :
      (n.localTable.get? remote).map Route.nextHop = some smallPeer.id ∧
        (n.incoming.get? remote).map (·.peer) = some smallPeer.id ∧
        (n'.localTable.get? smallTarget).map Route.nextHop = some smallPeer.id ∧
        n'.incoming.get? remote = none := by
    decide +kernel
  obtain ⟨r, hr, hpeer⟩ := Option.map_eq_some_iff.1 hheard
  have hheld : (n.peerRoutes remote).filterMap id ≠ [] := by
    intro hheld
    cases hr.symm.trans (hnone.2 hheld)
  exact ⟨hbefore, hreload, hcomes, hgoes, ⟨best, hbest, hused, hused.symm.trans hremote⟩,
    ⟨r, hr, hpeer, (hincoming r).1 hr⟩, hheld, hempty, hgone.1 hempty,
    ⟨best', hbest', hused', hused'.symm.trans hstatic⟩⟩

end RouteSync.Node
