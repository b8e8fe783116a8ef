import Mathlib.Data.List.Induction
import RouteSync.Proofs.Node.OwnRoutes
import RouteSync.Proofs.Node.Withdrawal

/-!
# Routes in use that were learned from peers

Where neither a static route nor a route of the node's own is in the way, packets go to the peer
whose route is the best one.  But the route in use is not always the one that this peer advertises
now: a route is replaced only when the next hop changes, so a peer that advertises another path to
the same prefix changes the table of incoming routes alone (`path_of_readvertised`).

What the route in use says is what the table of incoming routes said when it was put into use
(`localTable_of_run`).  Within one move that holds because updates come in only before any route is
chosen (`Intake.once`): afterwards no peer advertises anything else (`Change.peerRoutes_subset`), so
the route of a peer that was put into use is the only one of this peer for the rest of the move
(`SoleAt`).
-/

namespace RouteSync.Node

open RouteEntry

/-- Whether a move leaves settings and directory as they are. -/
def Move.KeepsConfiguration : Move → Prop
  | .configure _ | .direct _ => False
  | _ => True

/-- The table of the node's own routes is empty, or it was made from settings and directory as they
are. -/
def OwnTableFits (n : Node) : Prop :=
  n.originated = RouteTable.empty ∨
    ∃ routes, n.ownRoutes = .ok routes ∧ n.originated = ownTable routes

/-- The route in use for a prefix is the best route of the peers. -/
def AgreesAt (n : Node) (p : Prefix) : Prop :=
  n.localTable.get? p = (n.incoming.get? p).map IncomingRoute.toRoute

/-- The peer whose route the table of incoming routes shows advertises no other one. -/
def SoleAt (n : Node) (p : Prefix) : Prop :=
  ∀ r r', n.incoming.get? p = some r → some r' ∈ n.peerRoutes p → r'.peer = r.peer → r' = r

/-- Updates may only come in at a given node. -/
def Intake.once (n : Node) : Intake where
  update n' _ _ := n' = n
  codec _ := True

/-- What a node `n` that developed from `n₀` within one move has in use for a prefix: it leads to
the peer that the table of incoming routes shows, and if it was put into use since then, it is the
route of this peer. -/
structure Mirrors (n n₀ : Node) (p : Prefix) : Prop where
  nextHop : (n.localTable.get? p).map Route.nextHop = (n.incoming.get? p).map IncomingRoute.peer
  content : n.localTable.get? p = n₀.localTable.get? p ∨ n.AgreesAt p ∧ n.SoleAt p

/-- Sessions are in order, and no static route is in use for a prefix. -/
structure Ready (n : Node) (p : Prefix) : Prop where
  orderly : n.Orderly
  static : n.settings.staticRoute? n.directory p = none
  own : n.OwnTableFits

variable {n₀ n n' : Node} {p : Prefix}

/-! ### What changes leave -/

/-- A receiver that forgets something or is left alone adds nothing to choose from. -/
theorem peerRoutes_modifySession_subset {s : SessionId} {f : Session → Session}
    (hf : ∀ session, n.session? s = some session → ∀ r,
      (f session).receiver.route? p = some r → session.receiver.route? p = some r)
    {r : IncomingRoute} (hr : some r ∈ (n.modifySession s f).peerRoutes p) :
    some r ∈ n.peerRoutes p := by
  obtain ⟨a, t, session', hmem, hsession', hroute⟩ := mem_peerRoutes.1 hr
  rcases session?_modifySession_cases hsession' with ⟨session, rfl, hsession, rfl⟩ | hsame
  · exact mem_peerRoutes.2 ⟨a, t, session, hmem, hsession, hf session hsession r hroute⟩
  · exact mem_peerRoutes.2 ⟨a, t, session', hmem, hsame, hroute⟩

/-- Unless an update comes in, a change brings no new route to choose from. -/
theorem Change.peerRoutes_subset {stale : List Prefix} (h : Change (.once n₀) stale n n')
    (hn : n.Orderly) :
    n = n₀ ∨ ∀ r, some r ∈ n'.peerRoutes p → some r ∈ n.peerRoutes p := by
  cases h with
  | aside hsame =>
    have hpeers : n'.peerRoutes p = n.peerRoutes p :=
      peerRoutes_congr hsame.tracked fun s => by rw [session?, session?, hsame.sessions]
    exact .inr fun r hr => hpeers ▸ hr
  | codec => exact .inr fun _ hr => hr
  | originate => exact .inr fun _ hr => hr
  | track _ htrack => exact .inr fun r => (hn.mem_peerRoutes_track htrack rfl).1
  | detach => exact .inr fun r hr => ((hn.mem_peerRoutes_detach_iff _ _).1 hr).1
  | receive now u _ hupdate => exact .inl hupdate
  | clear =>
    exact .inr fun r hr => peerRoutes_modifySession_subset (fun _ _ _ h => by cases h) hr
  | sender =>
    exact .inr fun r hr => peerRoutes_modifySession_subset (by exact fun _ _ _ h => h) hr

theorem Ready.change {intake : Intake} {stale : List Prefix} (h : n.Ready p)
    (hchange : Change intake stale n n') : n'.Ready p where
  orderly := hchange.unsettles.orderly h.orderly
  static := by
    rw [hchange.unsettles.settings, hchange.unsettles.directory]
    exact h.static
  own := by
    have hsame := ownRoutes_congr hchange.unsettles.settings hchange.unsettles.directory
    rcases hchange.originated_cases with hkept | ⟨routes, hroutes, hmade⟩
    · rw [OwnTableFits, hsame, hkept]
      exact h.own
    · exact .inr ⟨routes, hsame.trans hroutes, hmade⟩

theorem Ready.retabled (h : n.Ready p) (hretabled : Retabled n n') : n'.Ready p := by
  rw [hretabled]
  exact ⟨h.orderly.congr rfl rfl, h.static, h.own⟩

/-- Once there is an own route for a prefix, it stays. -/
theorem Ready.originated_of_change {intake : Intake} {stale : List Prefix} (h : n.Ready p)
    (hchange : Change intake stale n n') (hown : n'.originated.get? p = none) :
    n.originated.get? p = none := by
  rcases h.own with hempty | ⟨routes, hroutes, hmade⟩
  · rw [hempty]
    rfl
  · rcases hchange.originated_cases with hkept | ⟨routes', hroutes', hmade'⟩
    · rw [← hkept]
      exact hown
    · rw [hroutes] at hroutes'
      cases hroutes'
      rw [hmade, ← hmade']
      exact hown

/-! ### What choosing anew leaves -/

theorem Ready.select_eq (h : n.Ready p) (hown : n.originated.get? p = none)
    (best : Option IncomingRoute) : n.select p best = best.map IncomingRoute.toRoute := by
  rw [select, h.static, hown]
  rfl

/-- A choice either leaves the route in use or puts the chosen one into use. -/
theorem get?_localTable_of_recompute {best : Option IncomingRoute}
    (h : n.recompute p = .ok n') (hbest : n.bestPeerRoute p = .ok best) :
    n'.localTable.get? p = n.localTable.get? p ∨ n'.localTable.get? p = n.select p best := by
  obtain ⟨best', hbest', rfl⟩ := recompute_eq_ok.1 h
  rw [hbest] at hbest'
  cases hbest'
  have hpeer : ∀ r, best = some r → r.target = p := fun r hr => target_of_bestPeerRoute (hr ▸ hbest)
  unfold adopt
  split
  · exact .inl rfl
  · exact .inr ((RouteTable.get?_set _ (fun r => target_of_select hpeer) p).trans (if_pos rfl))

theorem AgreesAt.nextHop (h : n.AgreesAt p) :
    (n.localTable.get? p).map Route.nextHop = (n.incoming.get? p).map IncomingRoute.peer := by
  rw [h, Option.map_map]
  rfl

/-- If the best route is one of the same peer, it is the same route. -/
theorem SoleAt.eq_of_peer (h : n.SoleAt p) {best : Option IncomingRoute}
    (hbest : n.bestPeerRoute p = .ok best)
    (hpeer : best.map IncomingRoute.peer = (n.incoming.get? p).map IncomingRoute.peer) :
    best = n.incoming.get? p := by
  cases hold : n.incoming.get? p with
  | none =>
    rw [hold, Option.map_none, Option.map_eq_none_iff] at hpeer
    exact hpeer
  | some r =>
    rw [hold, Option.map_some, Option.map_eq_some_iff] at hpeer
    obtain ⟨r', rfl, hpeer⟩ := hpeer
    exact congrArg some (h r r' hold (mem_peerRoutes_of_bestPeerRoute hbest) hpeer)

/-- After the choice for a prefix the table of incoming routes shows a route that its peer
advertises, and no peer advertises two. -/
theorem Orderly.soleAt_of_recompute (h : n.Orderly) (hok : n.recompute p = .ok n') :
    n'.SoleAt p := by
  obtain ⟨best, hbest, hincoming, -⟩ := get?_of_recompute hok
  intro r r' hr hr' hpeer
  rw [hincoming, if_pos rfl] at hr
  rw [(recompute_retabled hok).peerRoutes] at hr'
  exact h.eq_of_mem_peerRoutes hr' (mem_peerRoutes_of_bestPeerRoute (hr ▸ hbest)) hpeer

theorem Mirrors.recompute {q : Prefix} (h : n.Mirrors n₀ p) (hn : n.Ready p)
    (hown : n.originated.get? p = none) (hok : n.recompute q = .ok n') : n'.Mirrors n₀ p := by
  obtain ⟨best, hbest, hincoming, hnextHop, hlocal⟩ := get?_of_recompute hok
  have hpeers : n'.peerRoutes p = n.peerRoutes p := (recompute_retabled hok).peerRoutes p
  by_cases hq : p = q
  · subst hq
    have hincoming : n'.incoming.get? p = best := (hincoming p).trans (if_pos rfl)
    have hsole : n'.SoleAt p := hn.orderly.soleAt_of_recompute hok
    rw [hn.select_eq hown, Option.map_map] at hnextHop
    refine ⟨by rw [hincoming]; exact hnextHop, ?_⟩
    rcases get?_localTable_of_recompute hok hbest with hkept | hchosen
    · refine h.content.imp hkept.trans fun ⟨hagrees, hsole₀⟩ => ⟨?_, hsole⟩
      -- The route in use stays because the best route is still one of the same peer.
      have hpeer : best.map IncomingRoute.peer = (n.incoming.get? p).map IncomingRoute.peer := by
        rw [← hagrees.nextHop, ← hkept]
        exact hnextHop.symm
      rw [AgreesAt, hkept, hincoming, hsole₀.eq_of_peer hbest hpeer]
      exact hagrees
    · rw [hn.select_eq hown] at hchosen
      exact .inr ⟨by rw [AgreesAt, hincoming]; exact hchosen, hsole⟩
  · -- The choice for another prefix changes nothing here.
    have hincoming : n'.incoming.get? p = n.incoming.get? p := by rw [hincoming, if_neg hq]
    refine ⟨?_, ?_⟩
    · rw [hlocal p hq, hincoming]
      exact h.nextHop
    · rw [AgreesAt, SoleAt, hlocal p hq, hincoming, hpeers]
      exact h.content

theorem Mirrors.change {stale : List Prefix} (h : n.Mirrors n₀ p) (hn : n.Orderly)
    (hchange : Change (.once n₀) stale n n') : n'.Mirrors n₀ p := by
  have htables := hchange.unsettles
  refine ⟨?_, ?_⟩
  · rw [htables.localTable, htables.incoming]
    exact h.nextHop
  · rw [AgreesAt, htables.localTable, htables.incoming]
    rcases hchange.peerRoutes_subset hn with rfl | hsubset
    · exact .inl rfl
    · refine h.content.imp_right fun ⟨hagrees, hsole⟩ => ⟨hagrees, fun r r' hr hr' => ?_⟩
      rw [htables.incoming] at hr
      exact hsole r r' hr (hsubset r' hr')

/-! ### Moves -/

/-- A node that developed from `n₀` within one move. -/
theorem StepsWith.mirrors (h : StepsWith (.once n₀) n₀ n) (hn₀ : n₀.Ready p)
    (hnextHop : n₀.originated.get? p = none → (n₀.localTable.get? p).map Route.nextHop =
      (n₀.incoming.get? p).map IncomingRoute.peer) :
    n.Ready p ∧ (n.originated.get? p = none →
      n₀.originated.get? p = none ∧ n.Mirrors n₀ p) := by
  refine h.induction (motive := fun n => n.Ready p ∧ (n.originated.get? p = none →
    n₀.originated.get? p = none ∧ n.Mirrors n₀ p)) ?_ ?_
    ⟨hn₀, fun hown => ⟨hown, hnextHop hown, .inl rfl⟩⟩
  · rintro stale n₁ n₂ hchange ⟨hready, hmirrors⟩
    refine ⟨hready.change hchange, fun hown => ?_⟩
    exact (hmirrors (hready.originated_of_change hchange hown)).imp_right fun h =>
      h.change hready.orderly hchange
  · rintro n₁ q n₂ hok ⟨hready, hmirrors⟩
    have hretabled := recompute_retabled hok
    refine ⟨hready.retabled hretabled, fun hown => ?_⟩
    rw [hretabled.originated] at hown
    exact (hmirrors hown).imp_right fun h => h.recompute hready hown hok

theorem Ready.move {m : Move} (h : n.Ready p) (hm : m.KeepsOrder n) (hfixed : m.KeepsConfiguration)
    (hnextHop : n.originated.get? p = none → (n.localTable.get? p).map Route.nextHop =
      (n.incoming.get? p).map IncomingRoute.peer) :
    (n.move m).Ready p ∧ ((n.move m).originated.get? p = none →
      n.originated.get? p = none ∧ (n.move m).Mirrors n p) := by
  have horderly := h.orderly.move_of_keepsOrder hm
  have hroutine : m.IsRoutine → StepsWith (.once n) n (n.move m) := by
    intro hm
    refine move_stepsWith hm ?_
    cases m <;> simp only [Move.Brings, Intake.once, implies_true]
  cases m with
  | configure settings => exact hfixed.elim
  | direct directory => exact hfixed.elim
  | filter filter =>
    exact ⟨⟨horderly, h.static, h.own⟩, fun hown => ⟨hown, hnextHop hown, .inl rfl⟩⟩
  | useSession s use =>
    exact ⟨⟨horderly, h.static, h.own⟩, fun hown => ⟨hown, hnextHop hown, .inl rfl⟩⟩
  | track session =>
    obtain ⟨sessions, tracked, htrack⟩ := move_track n session
    rw [htrack] at horderly ⊢
    exact ⟨⟨horderly, h.static, h.own⟩, fun hown => ⟨hown, hnextHop hown, .inl rfl⟩⟩
  | _ => exact (hroutine trivial).mirrors h hnextHop

/-! ### Runs -/

/-- The route in use at the end of a run for a prefix was the best peer route at some moment of the
run, and it has not changed since. -/
def DatesBack (n : Node) (moves : List Move) (p : Prefix) : Prop :=
  ∃ earlier later, moves = earlier ++ later ∧ (n.run earlier).AgreesAt p ∧
    ∀ mid, mid <+: later →
      (n.run (earlier ++ mid)).localTable.get? p = (n.run moves).localTable.get? p

/-- A route that a move puts into use dates back to its end, any other one as far as before. -/
theorem DatesBack.move {moves : List Move} {m : Move} (h : n.DatesBack moves p)
    (hmove : ((n.run moves).move m).Mirrors (n.run moves) p) : n.DatesBack (moves ++ [m]) p := by
  rcases hmove.content with hkept | ⟨hagrees, -⟩
  · obtain ⟨earlier, later, hmoves, hagrees, hsame⟩ := h
    refine ⟨earlier, later ++ [m], by rw [hmoves, List.append_assoc], hagrees, fun mid hmid => ?_⟩
    rw [run_concat, hkept]
    rcases List.prefix_concat_iff.1 hmid with rfl | hmid
    · rw [← List.append_assoc, ← hmoves, run_concat]
      exact hkept
    · exact hsame mid hmid
  · refine ⟨moves ++ [m], [], (List.append_nil _).symm, ?_, fun mid hmid => ?_⟩
    · rw [run_concat]
      exact hagrees
    · rw [List.prefix_nil.1 hmid, List.append_nil]

theorem Ready.run {moves : List Move} (h : n.Ready p) (hagrees : n.AgreesAt p)
    (hmoves : Along (fun n m => m.KeepsOrder n) n moves)
    (hfixed : ∀ m ∈ moves, m.KeepsConfiguration) :
    (n.run moves).Ready p ∧ ((n.run moves).originated.get? p = none →
      ((n.run moves).localTable.get? p).map Route.nextHop =
        ((n.run moves).incoming.get? p).map IncomingRoute.peer ∧ n.DatesBack moves p) := by
  induction moves using List.reverseRecOn with
  | nil =>
    refine ⟨h, fun _ => ⟨hagrees.nextHop, [], [], rfl, hagrees, fun mid hmid => ?_⟩⟩
    rw [List.prefix_nil.1 hmid]
    rfl
  | append_singleton moves m ih =>
    obtain ⟨hmoves, hm⟩ := along_concat.1 hmoves
    obtain ⟨hready, hbefore⟩ :=
      ih hmoves fun m' hm' => hfixed m' (List.mem_append_left [m] hm')
    obtain ⟨hready', hafter⟩ := hready.move hm (hfixed m (List.mem_append_right _ (by simp)))
      fun hown => (hbefore hown).1
    rw [run_concat]
    refine ⟨hready', fun hown => ?_⟩
    obtain ⟨hown', hmirrors⟩ := hafter hown
    exact ⟨hmirrors.nextHop, (hbefore hown').2.move hmirrors⟩

/-- With settings and directory fixed, whatever else happens and whoever opens or uses sessions in
order: where there is no static route to an account of the directory and no route of the node's own,
the route in use leads to the peer that the table of incoming routes shows, and there is none just
if that table shows none.  Path and proof are those that the table of incoming routes showed at some
moment of the run, since which the route in use has not changed. -/
theorem localTable_of_run {settings : Settings} {directory : Directory} {codec : Codec}
    {filter : Option (Prefix → Route → Bool)} {id : TableId} {links : List Link} {moves : List Move}
    (hmoves : Along (fun n m => m.KeepsOrder n) (fresh settings directory codec filter id links)
      moves)
    (hfixed : ∀ m ∈ moves, m.KeepsConfiguration) {p : Prefix}
    (hstatic : settings.staticRoute? directory p = none)
    (hown : ((fresh settings directory codec filter id links).run moves).originated.get? p = none) :
    let start := fresh settings directory codec filter id links
    let n := start.run moves
    (n.localTable.get? p).map Route.nextHop = (n.incoming.get? p).map IncomingRoute.peer ∧
    (n.localTable.get? p = none ↔ n.incoming.get? p = none) ∧
    ∃ earlier later, moves = earlier ++ later ∧
      (start.run earlier).localTable.get? p =
        ((start.run earlier).incoming.get? p).map IncomingRoute.toRoute ∧
      ∀ mid, mid <+: later →
        (start.run (earlier ++ mid)).localTable.get? p = n.localTable.get? p := by
  intro start n
  have hready : start.Ready p := ⟨(tidy_fresh ..).toOrderly, hstatic, .inl rfl⟩
  obtain ⟨hnextHop, hdates⟩ := (hready.run rfl hmoves hfixed).2 hown
  refine ⟨hnextHop, ?_, hdates⟩
  rw [← Option.map_eq_none_iff (f := Route.nextHop), hnextHop, Option.map_eq_none_iff]

/-- The peer of the small node advertises a route and then a longer one for the same prefix. -/
def readvertised : List Move :=
  [.reload, .event ⟨smallPeer.id, .connected⟩, (routeThrough [] 0).move smallPeer.id,
    (routeThrough [peerAddress] 1).move smallPeer.id]

theorem localTable_of_readvertised :
    let n := small.run readvertised
    Along (fun n m => m.KeepsOrder n) small readvertised ∧
      (∀ m ∈ readvertised, m.KeepsConfiguration) ∧
      smallSettings.staticRoute? smallDirectory remote = none ∧
      n.originated.get? remote = none ∧
      (n.incoming.get? remote).map IncomingRoute.peer = some smallPeer.id ∧
      (n.localTable.get? remote).map Route.nextHop = some smallPeer.id ∧
      ∃ earlier later, readvertised = earlier ++ later ∧
        (small.run earlier).localTable.get? remote =
          ((small.run earlier).incoming.get? remote).map IncomingRoute.toRoute ∧
        ∀ mid, mid <+: later →
          (small.run (earlier ++ mid)).localTable.get? remote = n.localTable.get? remote := by
  intro n
  have horder : Along (fun n m => m.KeepsOrder n) small readvertised :=
    ⟨trivial, trivial, trivial, trivial, trivial⟩
  have hfixed : ∀ m ∈ readvertised, m.KeepsConfiguration := by
    simp [readvertised, Move.KeepsConfiguration, Delivery.move]
  have hstatic : smallSettings.staticRoute? smallDirectory remote = none := by decide +kernel
  obtain ⟨hown, hpeer⟩ : n.originated.get? remote = none ∧
      (n.incoming.get? remote).map IncomingRoute.peer = some smallPeer.id := by
    decide +kernel
  obtain ⟨hnextHop, -, hdates⟩ := localTable_of_run horder hfixed hstatic hown
  exact ⟨horder, hfixed, hstatic, hown, hpeer, hnextHop.trans hpeer, hdates⟩

/-- The route in use keeps the shorter path, although no peer advertises it any more. -/
theorem path_of_readvertised :
    let n := small.run readvertised
    small.reload.2 = .ok () ∧ (∀ m ∈ readvertised, m.IsRoutine) ∧
      smallSettings.staticRoute? smallDirectory remote = none ∧
      n.originated.get? remote = none ∧
      (n.localTable.get? remote).map Route.path = some [] ∧
      (n.incoming.get? remote).map IncomingRoute.path = some [peerAddress] ∧
      n.localTable.get? remote ≠ (n.incoming.get? remote).map IncomingRoute.toRoute := by
  intro n
  have hroutine : ∀ m ∈ readvertised, m.IsRoutine := by
    simp [readvertised, Move.IsRoutine, Delivery.move]
  exact ⟨eq_ok_of_toOption (by decide +kernel), hroutine, by decide +kernel⟩

end RouteSync.Node
