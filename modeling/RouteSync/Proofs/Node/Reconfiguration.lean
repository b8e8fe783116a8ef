import RouteSync.Proofs.Node.Coherence
import RouteSync.Proofs.Node.Outgoing

/-!
# Reloading after the configuration was edited

Settings and directory may be edited while a node runs.  The tables follow on the next reload, which
chooses anew for the prefixes of the node's own routes, as they were and as they are now, and for
those of the static routes (`Touches`).  A reload that succeeds makes these fit the edited
configuration, whatever was edited (`Tidy.coherentAt_of_touches`).

Every other prefix keeps its entry.  That does no harm where there never was a static route, since
the choice for such a prefix hangs on the peers alone (`CoherentAt.move`).  But a reload does not
touch the prefix of a static route that was removed, unlike the prefix of an own route that is made
no more.  There the removed route stays in use (`nextHop_of_removed_static_route`).
-/

namespace RouteSync.Node

/-- Whether a move leaves every peer with an open session in the directory with its weight, and
nobody but the node opens or uses sessions.  Everything else may be edited. -/
def Move.KeepsPeers (n : Node) : Move → Prop
  | .direct directory => ∀ a s, (a, s) ∈ n.tracked →
      directory.routeWeight? a = n.directory.routeWeight? a
  | .track _ | .useSession _ _ => False
  | _ => True

/-! ### What edits leave alone -/

theorem Tidy.direct {n : Node} (h : n.Tidy) {directory : Directory}
    (hweights : (Move.direct directory).KeepsPeers n) : (n.move (.direct directory)).Tidy := by
  refine ⟨h.toOrderly.congr rfl rfl, fun a s hmem => ?_⟩
  have hknows := h.knows a s hmem
  rw [← Directory.isSome_routeWeight?] at hknows
  show directory.knows a = true
  rw [← Directory.isSome_routeWeight?, hweights a s hmem]
  exact hknows

theorem Tidy.move {n : Node} (h : n.Tidy) {m : Move} (hm : m.KeepsPeers n) : (n.move m).Tidy := by
  have hroutine : m.IsRoutine → (n.move m).Tidy := fun hm => (move_keeps n hm).tidy h
  cases m with
  | direct directory => exact h.direct hm
  | filter filter => exact ⟨h.toOrderly.congr rfl rfl, h.knows⟩
  | configure settings => exact ⟨h.toOrderly.congr rfl rfl, h.knows⟩
  | track session => exact hm.elim
  | useSession s use => exact hm.elim
  | _ => exact hroutine trivial

/-- Another directory with the same weights for the peers prefers the same routes. -/
theorem Orderly.bestPeerRoute_direct {n : Node} (h : n.Orderly) {directory : Directory}
    (hweights : (Move.direct directory).KeepsPeers n) (p : Prefix) :
    (n.move (.direct directory)).bestPeerRoute p = n.bestPeerRoute p := by
  have hsame : directory.bestRoute (n.peerRoutes p) = n.directory.bestRoute (n.peerRoutes p) := by
    refine Directory.bestRoute_eq_of_weights fun r hr => ?_
    obtain ⟨s, -, hmem, -⟩ := h.mem_peerRoutes_iff.1 hr
    exact hweights r.peer s hmem
  show Except.mapError _ (directory.bestRoute (n.peerRoutes p)) = _
  rw [hsame]
  rfl

/-- Without static routes, settings and directory have a say only through the weights of peers. -/
theorem CoherentAt.edit {n n' : Node} {p : Prefix} (h : n.CoherentAt p)
    (hstatic : p ∉ staticTargets n.settings) (hstatic' : p ∉ staticTargets n'.settings)
    (hbest : n'.bestPeerRoute p = n.bestPeerRoute p) (horiginated : n'.originated = n.originated)
    (hincoming : n'.incoming = n.incoming) (hlocal : n'.localTable = n.localTable) :
    n'.CoherentAt p where
  incoming := by
    rw [hbest, hincoming]
    exact h.incoming
  nextHop := by
    have hselect : n'.select p (n'.incoming.get? p) = n.select p (n.incoming.get? p) := by
      rw [select, select, staticRoute?_eq_none hstatic, staticRoute?_eq_none hstatic', horiginated,
        hincoming]
    rw [hselect, hlocal]
    exact h.nextHop

/-- At a prefix without static routes, before and after, tables that fit together do so after any
edit and any other move of the node. -/
theorem CoherentAt.move {n : Node} {p : Prefix} (h : n.CoherentAt p) (hn : n.Tidy) {m : Move}
    (hm : m.KeepsPeers n) (hstatic : p ∉ staticTargets n.settings)
    (hstatic' : p ∉ staticTargets (n.move m).settings) : (n.move m).CoherentAt p := by
  have hroutine : m.IsRoutine → (n.move m).CoherentAt p := fun hm =>
    (move_keeps n hm).coherent hn p List.not_mem_nil h
  cases m with
  | direct directory =>
    exact h.edit hstatic hstatic' (hn.bestPeerRoute_direct hm p) rfl rfl rfl
  | filter filter => exact h.edit hstatic hstatic' rfl rfl rfl rfl
  | configure settings => exact h.edit hstatic hstatic' rfl rfl rfl rfl
  | track session => exact hm.elim
  | useSession s use => exact hm.elim
  | _ => exact hroutine trivial

/-- Only an edit of the settings changes them. -/
theorem staticTargets_move {n : Node} {m : Move} {p : Prefix} (h : p ∉ staticTargets n.settings)
    (hedit : ∀ s, m = .configure s → p ∉ staticTargets s) :
    p ∉ staticTargets (n.move m).settings := by
  have hsame : m.KeepsPolicy → p ∉ staticTargets (n.move m).settings := fun hm => by
    rw [(move_turns n hm).settings_eq]
    exact h
  cases m with
  | configure settings => exact hedit settings rfl
  | filter filter => exact h
  | _ => exact hsame trivial

/-! ### What a reload does -/

/-- A reload leaves every entry alone that it does not touch. -/
theorem get?_localTable_reload {n : Node} {p : Prefix} (hp : ¬n.Touches p) :
    n.reload.1.localTable.get? p = n.localTable.get? p := by
  unfold reload
  split
  · rfl
  · rename_i routes hroutes
    refine get?_localTable_recomputeAll (fun hmem => hp ?_) _
    rw [List.mem_eraseDups, List.mem_append, List.mem_append] at hmem
    rcases hmem with (hnew | hold) | hstatic
    · exact .inr (.inr ⟨routes, hroutes, hnew⟩)
    · exact .inl hold
    · exact .inr (.inl hstatic)

/-! ### Runs with edits -/

theorem tidy_of_edited {settings : Settings} {directory : Directory} {codec : Codec}
    {filter : Option (Prefix → Route → Bool)} {id : TableId} {links : List Link} {moves : List Move}
    (hmoves : Along (fun n m => m.KeepsPeers n) (fresh settings directory codec filter id links)
      moves) : ((fresh settings directory codec filter id links).run moves).Tidy :=
  hmoves.induction (fun _ _ _ hm h => h.move hm) (tidy_fresh ..)

/-- At a prefix that none of the settings of a run has a static route for, the tables fit together
all along. -/
theorem coherentAt_of_edited {settings : Settings} {directory : Directory} {codec : Codec}
    {filter : Option (Prefix → Route → Bool)} {id : TableId} {links : List Link} {moves : List Move}
    (hmoves : Along (fun n m => m.KeepsPeers n) (fresh settings directory codec filter id links)
      moves)
    {p : Prefix} (hp : p ∉ staticTargets settings)
    (hedits : ∀ s, Move.configure s ∈ moves → p ∉ staticTargets s) :
    ((fresh settings directory codec filter id links).run moves).CoherentAt p := by
  have hall := hmoves.induction
    (motive := fun n => n.Tidy ∧ p ∉ staticTargets n.settings ∧ n.CoherentAt p) ?_
    ⟨tidy_fresh .., hp, coherentAt_fresh hp⟩
  · exact hall.2.2
  · rintro n m hmem hm ⟨htidy, hstatic, hcoherent⟩
    have hstatic' : p ∉ staticTargets (n.move m).settings :=
      staticTargets_move hstatic fun s hs => hedits s (hs ▸ hmem)
    exact ⟨htidy.move hm, hstatic', hcoherent.move htidy hm hstatic hstatic'⟩

/-- After a run with edits, a reload that succeeds makes the route in use for a prefix lead where
the best route leads under the edited settings and directory, if it touches the prefix or there
never was a static route for it.  It leaves the routes for all prefixes alone that it does not
touch. -/
theorem reload_agrees_of_edited {settings : Settings} {directory : Directory} {codec : Codec}
    {filter : Option (Prefix → Route → Bool)} {id : TableId} {links : List Link} {moves : List Move}
    (hmoves : Along (fun n m => m.KeepsPeers n) (fresh settings directory codec filter id links)
      moves)
    (hreload : ((fresh settings directory codec filter id links).run moves).reload.2 = .ok ())
    (p : Prefix) :
    let n := (fresh settings directory codec filter id links).run moves
    let reloaded := n.move .reload
    (∃ best, reloaded.bestRoute p = .ok best ∧
      (n.Touches p ∨ (p ∉ staticTargets settings ∧
          ∀ s, Move.configure s ∈ moves → p ∉ staticTargets s) →
        (reloaded.localTable.get? p).map Route.nextHop = best.map Route.nextHop)) ∧
    (¬n.Touches p → reloaded.localTable.get? p = n.localTable.get? p) := by
  intro n reloaded
  have htidy : n.Tidy := tidy_of_edited hmoves
  have hkeeps : Keeps [] n reloaded := reload_keeps n
  obtain ⟨best, hbest, -⟩ := (hkeeps.tidy htidy).bestPeerRoute p
  refine ⟨⟨reloaded.select p best, ?_, fun hcovered => ?_⟩, get?_localTable_reload⟩
  · rw [bestRoute, hbest]
    rfl
  · have hcoherent : reloaded.CoherentAt p := by
      rcases hcovered with htouched | ⟨hp, hedits⟩
      · exact htidy.coherentAt_of_touches hreload htouched
      · exact hkeeps.coherent htidy p List.not_mem_nil (coherentAt_of_edited hmoves hp hedits)
    have hincoming : reloaded.incoming.get? p = best :=
      Except.ok.inj (hcoherent.incoming.symm.trans hbest)
    rw [← hincoming]
    exact hcoherent.nextHop

/-- The small node gets another static route and a new child account. -/
theorem reload_agrees_of_extended :
    let away : Prefix := ⟨"g.away".toList, by decide⟩
    let child : Account := { id := ⟨"child".toList, by decide⟩, relationship := .child }
    let moves : List Move :=
      [.reload, .event ⟨smallPeer.id, .connected⟩,
        .configure { smallSettings with
          staticRoutes := ⟨away, smallPeer.id⟩ :: smallSettings.staticRoutes },
        .direct (smallDirectory.addAccount child)]
    let n := small.run moves
    Along (fun n m => m.KeepsPeers n) small moves ∧ n.reload.2 = .ok () ∧ n.Touches away ∧
      ∃ best, (n.move .reload).bestRoute away = .ok best ∧
        ((n.move .reload).localTable.get? away).map Route.nextHop = best.map Route.nextHop := by
  intro away child moves n
  have hmoves : Along (fun n m => m.KeepsPeers n) small moves := by
    refine ⟨trivial, trivial, trivial, fun a s hmem => ?_, trivial⟩
    have htracked : (small.run (moves.take 3)).tracked = [(smallPeer.id, ⟨0⟩)] := by
      decide +kernel
    have hmem : (a, s) ∈ (small.run (moves.take 3)).tracked := hmem
    rw [htracked, List.mem_singleton, Prod.mk.injEq] at hmem
    obtain ⟨rfl, -⟩ := hmem
    rfl
  have hreload : n.reload.2 = .ok () := eq_ok_of_toOption (by decide +kernel)
  have htouches : n.Touches away := .inr (.inl List.mem_cons_self)
  obtain ⟨⟨best, hbest, hagrees⟩, -⟩ := @reload_agrees_of_edited smallSettings smallDirectory .json
    none ⟨List.replicate 16 1, by decide⟩ [{ account := smallPeer.id }] moves hmoves hreload away
  exact ⟨hmoves, hreload, htouches, best, hbest, hagrees (.inl htouches)⟩

/-- The static route of the small node is removed.  The reload succeeds, and packets still go to the
peer although there is no route. -/
theorem nextHop_of_removed_static_route :
    let moves : List Move := [.reload, .configure { smallSettings with staticRoutes := [] }]
    let n := small.run moves
    let reloaded := n.move .reload
    Along (fun n m => m.KeepsPeers n) small moves ∧ n.reload.2 = .ok () ∧
      reloaded.bestRoute smallTarget = .ok none ∧
      (reloaded.localTable.get? smallTarget).map Route.nextHop = some smallPeer.id := by
  intro moves n reloaded
  have hmoves : Along (fun n m => m.KeepsPeers n) small moves := ⟨trivial, trivial, trivial⟩
  refine ⟨hmoves, ?_, ?_, ?_⟩
  · exact reload_eq_ok (tidy_of_edited hmoves) rfl
  · exact eq_ok_of_toOption (by decide +kernel)
  · decide +kernel

end RouteSync.Node
