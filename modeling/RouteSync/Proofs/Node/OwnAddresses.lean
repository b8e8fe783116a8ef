import RouteSync.Proofs.Node.OwnRoutes

/-!
# The node's own part of the address space

At and below its own address a node uses static routes and routes that it makes itself, whatever its
peers send (`SelfReliant`).  Routes of peers for these prefixes are not let in, so no receiver holds
one, and withdrawals take away only what a receiver holds.

Together with coherence this determines what the table of routes in use holds there
(`SelfReliant.get?_localTable`), so two runs under the same settings and the same directory agree on
where packets for these addresses go (`findRoute_eq_of_runs`).
-/

namespace RouteSync

open RouteEntry

/-- What a node lets in has no route for a prefix at or below its own address. -/
theorem UpdateRequest.latest?_admitted {s : Settings} {p : Prefix}
    (hp : p.startsWith s.operatorPrefix = true) (u : UpdateRequest) :
    (u.admitted s).latest? p = none := by
  rw [latest?, List.getLast?_eq_none_iff, List.filter_eq_nil_iff]
  intro r hr htarget
  have hadmits := (List.mem_filter.1 hr).2
  rw [beq_iff_eq] at htarget
  simp [Settings.admits, htarget, hp] at hadmits

/-- A receiver gets no route for a prefix that an update brings none for. -/
theorem Receiver.route?_apply_eq_none {r : Receiver} {u : UpdateRequest} {p : Prefix}
    (hr : r.route? p = none) (hu : u.latest? p = none) (now : Timestamp) :
    (r.apply now u).1.route? p = none := by
  rcases apply_cases r now u with ⟨-, hkept⟩ | ⟨-, -, -, htaken⟩
  · exact (hkept p).trans hr
  · rw [htaken, UpdateRequest.outcome?, hu, hr, Option.map_none, Option.none_or, ite_self]

namespace Node

/-- At and below its own address the node uses self-made routes only, and no receiver holds any. -/
structure SelfReliant (n : Node) : Prop where
  route?_eq_none : ∀ s session p, n.session? s = some session →
    p.startsWith n.settings.operatorPrefix = true → session.receiver.route? p = none
  originated : ∀ p r, n.originated.get? p = some r → r.IsSelfMade n.settings.routingSecret
  localTable : ∀ p r, p.startsWith n.settings.operatorPrefix = true →
    n.localTable.get? p = some r → r.IsSelfMade n.settings.routingSecret

theorem selfReliant_fresh (settings : Settings) (directory : Directory) (codec : Codec)
    (filter : Option (Prefix → Route → Bool)) (id : TableId) (links : List Link) :
    (fresh settings directory codec filter id links).SelfReliant where
  route?_eq_none s session p h := by cases h
  originated p r h := by cases h
  localTable p r _ h := by cases h

/-! ### Choosing anew -/

/-- There is no peer route to choose. -/
theorem SelfReliant.bestPeerRoute_eq_none {n : Node} (h : n.SelfReliant) {p : Prefix}
    (hp : p.startsWith n.settings.operatorPrefix = true) {best : Option IncomingRoute}
    (hbest : n.bestPeerRoute p = .ok best) : best = none := by
  cases best with
  | none => rfl
  | some r =>
    obtain ⟨a, s, session, -, hsession, hroute⟩ :=
      mem_peerRoutes.1 (mem_peerRoutes_of_bestPeerRoute hbest)
    rw [h.route?_eq_none s session p hsession hp] at hroute
    cases hroute

/-- Without a route of the peers a static route is chosen or one that the node makes itself. -/
theorem select_none_cases {n : Node} {p : Prefix} {r : Route} (h : n.select p none = some r) :
    n.settings.staticRoute? n.directory p = some r ∨ n.originated.get? p = some r := by
  rw [select, Option.map_none, Option.or_none, Option.or_eq_some_iff] at h
  exact h.imp_right And.right

theorem staticRoute?_isSelfMade {s : Settings} {d : Directory} {p : Prefix} {r : Route}
    (h : s.staticRoute? d p = some r) : r.IsSelfMade s.routingSecret := by
  unfold Settings.staticRoute? at h
  split at h
  · split at h
    · cases h
      exact Route.originated_isSelfMade _ _ _
    · cases h
  · cases h

theorem SelfReliant.isSelfMade_of_select {n : Node} (h : n.SelfReliant) {p : Prefix} {r : Route}
    (hr : n.select p none = some r) : r.IsSelfMade n.settings.routingSecret := by
  rcases select_none_cases hr with hstatic | hown
  · exact staticRoute?_isSelfMade hstatic
  · exact h.originated p r hown

theorem localTable_adopt_cases {n : Node} {p : Prefix} {route : Option Route}
    (h : ∀ r, route = some r → r.target = p) (q : Prefix) :
    (n.adopt p route).localTable.get? q = n.localTable.get? q ∨
      q = p ∧ (n.adopt p route).localTable.get? q = route := by
  by_cases hq : q = p
  · unfold adopt
    split
    · exact .inl rfl
    · rw [RouteTable.get?_set _ h, if_pos hq]
      exact .inr ⟨hq, rfl⟩
  · exact .inl (get?_localTable_adopt h hq)

theorem SelfReliant.recompute {n n' : Node} {p : Prefix} (h : n.SelfReliant)
    (hok : n.recompute p = .ok n') : n'.SelfReliant := by
  have hretabled := recompute_retabled hok
  refine ⟨?_, ?_, fun q r hq hr => ?_⟩
  · rw [hretabled]
    exact h.route?_eq_none
  · rw [hretabled]
    exact h.originated
  · have hsettings : n'.settings = n.settings := by rw [hretabled]
    rw [hsettings] at hq ⊢
    obtain ⟨best, hbest, rfl⟩ := recompute_eq_ok.1 hok
    have htarget : ∀ r, n.select p best = some r → r.target = p := fun r =>
      target_of_select fun i hi => target_of_bestPeerRoute (hi ▸ hbest)
    rcases localTable_adopt_cases (n := n.noteIncoming p best) htarget q with hsame | ⟨rfl, hnew⟩
    · exact h.localTable q r hq (hsame ▸ hr)
    · rw [h.bestPeerRoute_eq_none hq hbest] at hnew hr
      exact h.isSelfMade_of_select (hnew.symm.trans hr)

/-! ### Steps -/

/-- Sessions may come and receivers may change, as long as none of them holds a route there. -/
theorem SelfReliant.congr {n n' : Node} (h : n.SelfReliant) (hsettings : n'.settings = n.settings)
    (horiginated : n'.originated = n.originated) (hlocal : n'.localTable = n.localTable)
    (hsessions : ∀ s session p, n'.session? s = some session →
      p.startsWith n.settings.operatorPrefix = true → session.receiver.route? p = none) :
    n'.SelfReliant where
  route?_eq_none := by
    rw [hsettings]
    exact hsessions
  originated := by
    rw [hsettings, horiginated]
    exact h.originated
  localTable := by
    rw [hsettings, hlocal]
    exact h.localTable

theorem SelfReliant.modifySession {n : Node} (h : n.SelfReliant) {s : SessionId}
    {f : Session → Session}
    (hf : ∀ session p, n.session? s = some session →
      p.startsWith n.settings.operatorPrefix = true → session.receiver.route? p = none →
      (f session).receiver.route? p = none) :
    (n.modifySession s f).SelfReliant := by
  refine h.congr rfl rfl rfl fun t session' p hsession' hp => ?_
  rcases session?_modifySession_cases hsession' with ⟨session, -, hsession, rfl⟩ | hsame
  · exact hf session p hsession hp (h.route?_eq_none s session p hsession hp)
  · exact h.route?_eq_none t session' p hsame hp

theorem Change.selfReliant {intake : Intake} {stale : List Prefix} {n n' : Node}
    (h : Change intake stale n n') (hn : n.SelfReliant) : n'.SelfReliant := by
  cases h with
  | aside hsame =>
    refine hn.congr hsame.settings hsame.originated hsame.localTable fun s session p hsession => ?_
    rw [session?, hsame.sessions] at hsession
    exact hn.route?_eq_none s session p hsession
  | codec => exact hn.congr rfl rfl rfl hn.route?_eq_none
  | originate hroutes =>
    exact ⟨hn.route?_eq_none,
      fun _ _ hr => ownRoutes_isSelfMade hroutes (mem_of_get?_ownTable hr), hn.localTable⟩
  | track _ htrack =>
    have hsession? := session?_track htrack
    obtain ⟨-, -, rfl⟩ := track_eq_ok htrack
    refine hn.congr rfl rfl rfl fun t session p hsession hp => ?_
    rw [hsession?] at hsession
    split at hsession
    · cases hsession
      rfl
    · exact hn.route?_eq_none t session p hsession hp
  | @detach _ account s held hs hheld =>
    have huntracked : SelfReliant { n with tracked := n.tracked.filter (·.1 != account) } :=
      hn.congr rfl rfl rfl hn.route?_eq_none
    exact huntracked.modifySession fun _ _ _ _ hnone => hnone
  | @receive _ s session now u hsession =>
    refine hn.modifySession fun _ p _ hp _ => ?_
    exact Receiver.route?_apply_eq_none (hn.route?_eq_none s session p hsession hp)
      (UpdateRequest.latest?_admitted hp u) now
  | clear hsession => exact hn.modifySession fun _ _ _ _ _ => rfl
  | sender s change => exact hn.modifySession fun _ _ _ _ hnone => hnone

theorem StepsWith.selfReliant {intake : Intake} {n n' : Node}
    (h : StepsWith intake n n') (hn : n.SelfReliant) : n'.SelfReliant :=
  h.induction (fun _ _ _ hchange => hchange.selfReliant) (fun _ _ _ hok hn => hn.recompute hok) hn

theorem SelfReliant.reload {n : Node} (h : n.SelfReliant) : n.reload.1.SelfReliant := by
  have hsteps : Steps n n.reload.1 := reload_steps n
  exact hsteps.selfReliant h

/-! ### The routes in use -/

/-- Where the tables fit together, the route in use at or below the node's address is the static
route or else the one that the node makes itself, path and tag included. -/
theorem SelfReliant.get?_localTable {n : Node} (h : n.SelfReliant) {p : Prefix}
    (hp : p.startsWith n.settings.operatorPrefix = true) (hcoherent : n.CoherentAt p) :
    n.localTable.get? p = n.select p none := by
  have hnextHop := hcoherent.nextHop
  rw [h.bestPeerRoute_eq_none hp hcoherent.incoming] at hnextHop
  cases hlocal : n.localTable.get? p with
  | none =>
    rw [hlocal, Option.map_none, eq_comm, Option.map_eq_none_iff] at hnextHop
    exact hnextHop.symm
  | some r =>
    rw [hlocal, Option.map_some, eq_comm, Option.map_eq_some_iff] at hnextHop
    obtain ⟨s, hs, hsame⟩ := hnextHop
    have hr : r.target = p := RouteTable.target_of_get? hlocal
    have htarget : s.target = p := target_of_select (fun i hi => by cases hi) hs
    rw [hs, (h.localTable p r hp hlocal).eq (h.isSelfMade_of_select hs) (hr.trans htarget.symm)
      hsame.symm]

/-- At and below its address, settings, directory and own routes determine what a settled node
uses. -/
theorem Settled.get?_localTable_eq {settings : Settings} {directory : Directory}
    {routes : List Route} {n n' : Node} (h : n.Settled settings directory routes)
    (hn : n.SelfReliant) (h' : n'.Settled settings directory routes) (hn' : n'.SelfReliant)
    {p : Prefix} (hp : p.startsWith settings.operatorPrefix = true) :
    n'.localTable.get? p = n.localTable.get? p := by
  rw [hn.get?_localTable (h.settings_eq.symm ▸ hp) (h.coherentAt p),
    hn'.get?_localTable (h'.settings_eq.symm ▸ hp) (h'.coherentAt p), select, select,
    h.settings_eq, h'.settings_eq, h.directory_eq, h'.directory_eq, h.originated_eq,
    h'.originated_eq]

/-- A settled node finds a route for every address at or below its own, and which one it is hangs
on its settings, its directory and the routes that it makes itself. -/
theorem Settled.findRoute_eq {settings : Settings} {directory : Directory} {routes : List Route}
    {n n' : Node} (h : n.Settled settings directory routes) (hn : n.SelfReliant)
    (h' : n'.Settled settings directory routes) (hn' : n'.SelfReliant) {destination : Address}
    (hdestination : settings.operatorPrefix.isPrefixOf destination = true) :
    ∃ r, r.target.startsWith settings.operatorPrefix = true ∧
      n.findRoute destination = some r ∧ n'.findRoute destination = some r ∧
      (settings.staticRoute? directory r.target = some r ∨
        (ownTable routes).get? r.target = some r) := by
  have hlocal : ∀ p, p.startsWith settings.operatorPrefix = true →
      n.localTable.get? p = n.select p none := fun p hp =>
    hn.get?_localTable (h.settings_eq.symm ▸ hp) (h.coherentAt p)
  have hown : (n.localTable.get? settings.operatorPrefix).isSome = true := by
    have hmade := isSome_get?_ownTable_operatorPrefix h.ownRoutes_eq
    rw [h.settings_eq] at hmade
    rw [hlocal _ (Prefix.startsWith_refl _), select, h.originated_eq, Option.map_none,
      Option.or_none, Option.isSome_or, hmade, Bool.or_true]
  obtain ⟨p, r, hp, hr, hfound, hfound'⟩ :=
    RouteTable.lookup_eq_of_isPrefixOf hdestination hown
      fun _ hp => h.get?_localTable_eq hn h' hn' hp
  have htarget : r.target = p := RouteTable.target_of_get? hr
  rw [hlocal p hp] at hr
  have hchosen := select_none_cases hr
  rw [h.settings_eq, h.directory_eq, h.originated_eq] at hchosen
  rw [← htarget] at hp hchosen
  exact ⟨r, hp, hfound, hfound', hchosen⟩

/-- After a reload that succeeded, under the same settings and the same directory, peers cannot
redirect packets for the node's own part of the address space: two runs from the same state,
whatever packets, link events, expirations and answers they are made of, lead to the same route for
every address at or below the node's own, and that is a static route or one that the node makes
itself. -/
theorem findRoute_eq_of_runs {settings : Settings} {directory : Directory} {codec : Codec}
    {filter : Option (Prefix → Route → Bool)} {tableId : TableId} {links : List Link}
    {before between left right : List Move} (hbefore : ∀ m ∈ before, m.IsRoutine)
    (hreload : ((fresh settings directory codec filter tableId links).run before).reload.2 = .ok ())
    (hbetween : ∀ m ∈ between, m.IsRoutine) (hleft : ∀ m ∈ left, m.IsRoutine)
    (hright : ∀ m ∈ right, m.IsRoutine) {destination : Address}
    (hdestination : settings.operatorPrefix.isPrefixOf destination = true) :
    let reloaded := ((fresh settings directory codec filter tableId links).run before).move .reload
    let n := reloaded.run between
    ∃ r, r.target.startsWith settings.operatorPrefix = true ∧
      (n.run left).findRoute destination = some r ∧
      (n.run right).findRoute destination = some r ∧
      (settings.staticRoute? directory r.target = some r ∨
        (n.run left).originated.get? r.target = some r ∧
          (n.run right).originated.get? r.target = some r) := by
  intro reloaded n
  obtain ⟨routes, hsettled⟩ := settled_of_reload hbefore hreload
  have hreliant : reloaded.SelfReliant :=
    ((run_steps hbefore).selfReliant (selfReliant_fresh ..)).reload
  have hend : ∀ moves : List Move, (∀ m ∈ moves, m.IsRoutine) →
      (n.run moves).Settled settings directory routes ∧ (n.run moves).SelfReliant := by
    intro moves hmoves
    have hsteps : Steps reloaded (n.run moves) := (run_steps hbetween).trans (run_steps hmoves)
    exact ⟨hsettled.steps hsteps, hsteps.selfReliant hreliant⟩
  obtain ⟨hleftSettled, hleftReliant⟩ := hend left hleft
  obtain ⟨hrightSettled, hrightReliant⟩ := hend right hright
  obtain ⟨r, hr, hfound, hfound', hchosen⟩ :=
    hleftSettled.findRoute_eq hleftReliant hrightSettled hrightReliant hdestination
  refine ⟨r, hr, hfound, hfound', hchosen.imp_right fun hmade => ?_⟩
  rw [hleftSettled.originated_eq, hrightSettled.originated_eq]
  exact ⟨hmade, hmade⟩

/-- The peer of the small node offers a way into the node's own part of the address space in one
run, and goes away in the other. -/
theorem findRoute_eq_of_trespass :
    let inside : Address := ⟨"g.near.inside".toList, by decide⟩
    let offer : UpdateRequest :=
      { tableId := ⟨List.replicate 16 2, by decide⟩, currentEpoch := 1, fromEpoch := 0, toEpoch := 1
        holdDownTime := 30000, speaker := ⟨"g.far".toList, by decide⟩
        newRoutes := [⟨inside.toPrefix, [], .replicate 3⟩], withdrawn := [] }
    let before : List Move := [.listen, .register smallPeer.id]
    let between : List Move := [.event ⟨smallPeer.id, .connected⟩]
    let left : List Move :=
      [.packet .origin smallPeer.id (messagePacket updateDestination offer.toTree.write .origin)]
    let right : List Move := [.event ⟨smallPeer.id, .disconnected⟩]
    let n := ((small.run before).move .reload).run between
    (∀ m ∈ before, m.IsRoutine) ∧ (small.run before).reload.2 = .ok () ∧
      (∀ m ∈ between, m.IsRoutine) ∧ (∀ m ∈ left, m.IsRoutine) ∧ (∀ m ∈ right, m.IsRoutine) ∧
      smallSettings.operatorPrefix.isPrefixOf inside = true ∧
      ∃ r, r.target.startsWith smallSettings.operatorPrefix = true ∧
        (n.run left).findRoute inside = some r ∧ (n.run right).findRoute inside = some r ∧
        (smallSettings.staticRoute? smallDirectory r.target = some r ∨
          (n.run left).originated.get? r.target = some r ∧
            (n.run right).originated.get? r.target = some r) := by
  intro inside offer before between left right n
  have hbefore : ∀ m ∈ before, m.IsRoutine := by simp [before, Move.IsRoutine]
  have hbetween : ∀ m ∈ between, m.IsRoutine := by simp [between, Move.IsRoutine]
  have hleft : ∀ m ∈ left, m.IsRoutine := by simp [left, Move.IsRoutine]
  have hright : ∀ m ∈ right, m.IsRoutine := by simp [right, Move.IsRoutine]
  have hreload : (small.run before).reload.2 = .ok () :=
    reload_eq_ok ((run_keeps hbefore).tidy (tidy_fresh ..)) rfl
  have hinside : smallSettings.operatorPrefix.isPrefixOf inside = true := by decide
  exact ⟨hbefore, hreload, hbetween, hleft, hright, hinside,
    findRoute_eq_of_runs hbefore hreload hbetween hleft hright hinside⟩

end Node

end RouteSync
