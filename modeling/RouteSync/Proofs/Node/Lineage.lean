import RouteSync.Proofs.Node.Outgoing
import RouteSync.Proofs.Node.OwnAddresses

/-!
# Where the routes of a node come from

A node uses routes that it makes itself and routes that its receivers hold, and it advertises routes
that it used, passed on once more.  The table of routes in use may keep a route that no receiver
holds any more, and the outgoing table one that is used no more, but both once came in this way.

So whatever holds of the routes that a node makes and of those that come in holds of all its routes,
as long as it hangs on one route at a time.  Such a property is a `RouteLaw`.  A node obeys the law
if all its routes do (`Obeys`).  Changes and choices keep this, and so do the moves that respect the
law (`Obeys.move`): those by which other routes come in than updates that the law lets pass, or by
which other settings are used, are the only ones that may break it.
-/

namespace RouteSync

open RouteEntry

/-- A property of the routes that receivers hold, together with one of the routes that a node uses
under settings of some kind.  The routes that a node makes itself have the latter, and so have those
that it learns from its peers. -/
structure RouteLaw where
  settings : Settings → Prop
  held : IncomingRoute → Prop
  used : Route → Prop
  selfMade : ∀ s, settings s → ∀ r : Route, r.IsSelfMade s.routingSecret → used r
  learned : ∀ r, held r → used r.toRoute

namespace RouteLaw

/-- Whether a route is advertised for a prefix, by whatever rules, because a node used a route that
the law allows. -/
def Exports (law : RouteLaw) (p : Prefix) (r : Route) : Prop :=
  ∃ (s : Settings) (policy : ExportPolicy) (own : Route), law.settings s ∧
    policy.operator = s.operator ∧ policy.globalPrefix = s.globalPrefix ∧ law.used own ∧
    own.target = p ∧ policy.advertised p (some own) = some r

/-- Whether all routes of an update that a node would let in are such as receivers may hold. -/
def Passes (law : RouteLaw) (n : Node) (session : Session) (u : UpdateRequest) : Prop :=
  ∀ r ∈ (u.admitted n.settings).newRoutes, law.held (r.fromPeer session.receiver.peer)

/-- The updates that a law lets pass may come in, by any codec. -/
def intake (law : RouteLaw) : Node.Intake where
  update := law.Passes
  codec _ := True

/-- Whether all routes of a receiver are such as the law allows. -/
def Fills (law : RouteLaw) (r : Receiver) : Prop :=
  ∀ p i, r.route? p = some i → law.held i

theorem Fills.apply {law : RouteLaw} {r : Receiver} (h : law.Fills r) {u : UpdateRequest}
    (hu : ∀ a ∈ u.newRoutes, law.held (a.fromPeer r.peer)) (now : Timestamp) :
    law.Fills (r.apply now u).1 := by
  intro p i hi
  rcases Receiver.route?_apply_eq_some hi with hold | ⟨a, ha, rfl⟩
  · exact h p i hold
  · exact hu a ha

end RouteLaw

namespace Node

/-- A refresh leaves the advertisement for a prefix alone or makes it from the route in use. -/
theorem advertisedRoute?_refresh_cases (policy : ExportPolicy) (routes : RouteTable Route)
    (t : LoggedTable) (p q : Prefix) :
    advertisedRoute? (t.refresh policy routes p) q = advertisedRoute? t q ∨
      advertisedRoute? (t.refresh policy routes p) q = policy.advertised q (routes.get? q) := by
  refine LoggedTable.refresh_induction (motive := fun t' => advertisedRoute? t' q =
    advertisedRoute? t q ∨ advertisedRoute? t' q = policy.advertised q (routes.get? q)) ?_ t p
    (.inl rfl)
  intro t' p' _ ht'
  rw [advertisedRoute?_record_prune]
  split
  · rename_i hq
    rw [hq]
    exact .inr rfl
  · exact ht'

/-- All settings and routes of a node are such as the law allows. -/
structure Obeys (law : RouteLaw) (n : Node) : Prop where
  settings : law.settings n.settings
  receivers : ∀ s session, n.session? s = some session → law.Fills session.receiver
  originated : ∀ p r, n.originated.get? p = some r → law.used r
  localTable : ∀ p r, n.localTable.get? p = some r → law.used r
  outgoing : ∀ p r, advertisedRoute? n.outgoing p = some r → law.Exports p r

variable {law : RouteLaw}

theorem obeys_fresh {settings : Settings} (h : law.settings settings) (directory : Directory)
    (codec : Codec) (filter : Option (Prefix → Route → Bool)) (id : TableId) (links : List Link) :
    (fresh settings directory codec filter id links).Obeys law where
  settings := h
  receivers s session hsession := by cases hsession
  originated p r hr := by cases hr
  localTable p r hr := by cases hr
  outgoing p r hr := by cases hr

/-! ### Choosing anew -/

/-- What is chosen is a static route, one that the node makes itself, or one that a receiver holds.
-/
theorem Obeys.used_of_select {n : Node} (h : n.Obeys law) {p : Prefix}
    {best : Option IncomingRoute} (hbest : n.bestPeerRoute p = .ok best) {r : Route}
    (hr : n.select p best = some r) : law.used r := by
  rw [select, Option.or_eq_some_iff, Option.or_eq_some_iff] at hr
  rcases hr with (hstatic | ⟨-, hown⟩) | ⟨-, hpeer⟩
  · exact law.selfMade n.settings h.settings r (staticRoute?_isSelfMade hstatic)
  · exact h.originated p r hown
  · rw [Option.map_eq_some_iff] at hpeer
    obtain ⟨i, rfl, rfl⟩ := hpeer
    obtain ⟨a, s, session, -, hsession, hroute⟩ :=
      mem_peerRoutes.1 (mem_peerRoutes_of_bestPeerRoute hbest)
    exact law.learned i (h.receivers s session hsession p i hroute)

theorem Obeys.noteIncoming {n : Node} (h : n.Obeys law) (p : Prefix)
    (best : Option IncomingRoute) : (n.noteIncoming p best).Obeys law :=
  ⟨h.settings, h.receivers, h.originated, h.localTable, h.outgoing⟩

/-- A route that the law allows may be adopted and so be passed on. -/
theorem Obeys.adopt {n : Node} (h : n.Obeys law) {p : Prefix} {route : Option Route}
    (htarget : ∀ r, route = some r → r.target = p) (hused : ∀ r, route = some r → law.used r) :
    (n.adopt p route).Obeys law := by
  unfold Node.adopt
  split
  · exact h
  · have hlocal : ∀ q r, (n.localTable.set p route).get? q = some r → law.used r := by
      intro q r hr
      rw [RouteTable.get?_set _ htarget] at hr
      split at hr
      · exact hused r hr
      · exact h.localTable q r hr
    refine ⟨h.settings, h.receivers, h.originated, hlocal, fun q r hr => ?_⟩
    rcases advertisedRoute?_refresh_cases n.exportPolicy (n.localTable.set p route) n.outgoing p q
      with hold | hnew
    · exact h.outgoing q r (hold ▸ hr)
    · have hadvertised := hnew.symm.trans hr
      obtain ⟨own, hown, -⟩ := ExportPolicy.forwarded_of_advertised hadvertised
      rw [hown] at hadvertised
      exact ⟨n.settings, n.exportPolicy, own, h.settings, rfl, rfl, hlocal q own hown,
        RouteTable.target_of_get? hown, hadvertised⟩

theorem Obeys.recompute {n n' : Node} {p : Prefix} (h : n.Obeys law)
    (hok : n.recompute p = .ok n') : n'.Obeys law := by
  obtain ⟨best, hbest, rfl⟩ := recompute_eq_ok.1 hok
  have htarget : ∀ r, n.select p best = some r → r.target = p := fun r =>
    target_of_select fun i hi => target_of_bestPeerRoute (hi ▸ hbest)
  exact (h.noteIncoming p best).adopt htarget fun r hr => h.used_of_select hbest hr

/-! ### Changes and moves -/

/-- Settings may change to others that the law allows, and so may receivers. -/
theorem Obeys.congr {n n' : Node} (h : n.Obeys law) (hsettings : law.settings n'.settings)
    (horiginated : n'.originated = n.originated) (hlocal : n'.localTable = n.localTable)
    (houtgoing : n'.outgoing = n.outgoing)
    (hreceivers : ∀ s session, n'.session? s = some session → law.Fills session.receiver) :
    n'.Obeys law where
  settings := hsettings
  receivers := hreceivers
  originated := by
    rw [horiginated]
    exact h.originated
  localTable := by
    rw [hlocal]
    exact h.localTable
  outgoing := by
    rw [houtgoing]
    exact h.outgoing

theorem Obeys.modifySession {n : Node} (h : n.Obeys law) {s : SessionId} {f : Session → Session}
    (hf : ∀ session, n.session? s = some session → law.Fills session.receiver →
      law.Fills (f session).receiver) : (n.modifySession s f).Obeys law := by
  refine h.congr h.settings rfl rfl rfl fun t session' hsession' => ?_
  rcases session?_modifySession_cases hsession' with ⟨session, -, hsession, rfl⟩ | hsame
  · exact hf session hsession (h.receivers s session hsession)
  · exact h.receivers t session' hsame

theorem Obeys.track {n n' : Node} (h : n.Obeys law) {session : Session} {s : SessionId}
    (htrack : n.track session = .ok (n', s)) (hfills : law.Fills session.receiver) :
    n'.Obeys law := by
  have hsession? := session?_track htrack
  obtain ⟨-, -, rfl⟩ := track_eq_ok htrack
  refine h.congr h.settings rfl rfl rfl fun t session' hsession' => ?_
  rw [hsession?] at hsession'
  split at hsession'
  · cases hsession'
    exact hfills
  · exact h.receivers t session' hsession'

theorem Change.obeys {stale : List Prefix} {n n' : Node} (h : Change law.intake stale n n')
    (hn : n.Obeys law) : n'.Obeys law := by
  cases h with
  | aside hsame =>
    refine hn.congr ?_ hsame.originated hsame.localTable hsame.outgoing fun s session hsession => ?_
    · rw [hsame.settings]
      exact hn.settings
    · rw [session?, hsame.sessions] at hsession
      exact hn.receivers s session hsession
  | codec => exact hn.congr hn.settings rfl rfl rfl hn.receivers
  | originate hroutes =>
    refine ⟨hn.settings, hn.receivers, fun p r hr => ?_, hn.localTable, hn.outgoing⟩
    exact law.selfMade n.settings hn.settings r
      (ownRoutes_isSelfMade hroutes (mem_of_get?_ownTable hr))
  | track _ htrack => exact hn.track htrack fun p i hi => by cases hi
  | @detach _ account s held hs hheld =>
    have huntracked : Obeys law { n with tracked := n.tracked.filter (·.1 != account) } :=
      hn.congr hn.settings rfl rfl rfl hn.receivers
    exact huntracked.modifySession fun _ _ hfills => hfills
  | @receive _ s session now u hsession hpasses =>
    refine hn.modifySession fun _ _ _ => ?_
    exact (hn.receivers s session hsession).apply hpasses now
  | clear hsession =>
    refine hn.modifySession fun _ _ _ p i hi => ?_
    cases hi
  | sender s change => exact hn.modifySession fun _ _ hfills => hfills

theorem StepsWith.obeys {n n' : Node} (h : StepsWith law.intake n n') (hn : n.Obeys law) :
    n'.Obeys law :=
  h.induction (fun _ _ _ hchange => hchange.obeys) (fun _ _ _ hok hn => hn.recompute hok) hn

/-- Whether a move brings in only settings and routes that the law allows. -/
def Move.Respects (law : RouteLaw) (n : Node) : Move → Prop
  | .configure settings => law.settings settings
  | .filter _ | .direct _ => True
  | .track session => law.Fills session.receiver
  | .useSession _ use => ∀ session, law.Fills session.receiver → law.Fills (use session).receiver
  | m => m.Brings law.intake n

theorem Obeys.move {n : Node} (h : n.Obeys law) {m : Move} (hm : m.Respects law n) :
    (n.move m).Obeys law := by
  cases m with
  | configure settings => exact h.congr hm rfl rfl rfl h.receivers
  | filter filter => exact h.congr h.settings rfl rfl rfl h.receivers
  | direct directory => exact h.congr h.settings rfl rfl rfl h.receivers
  | track session =>
    show Obeys law (((n.track session).map Prod.fst).toOption.getD n)
    cases htrack : n.track session with
    | error e => exact h
    | ok result => exact h.track htrack hm
  | useSession s use => exact h.modifySession fun session _ => hm session
  | _ => exact StepsWith.obeys (move_stepsWith trivial hm) h

end Node

end RouteSync
