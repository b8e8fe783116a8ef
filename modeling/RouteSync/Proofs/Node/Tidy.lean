import RouteSync.Proofs.Node.Run
import RouteSync.Proofs.Receiver

/-!
# Sessions in order

The peers among which the best route is chosen are those of the open sessions.  They are in order
(`Tidy`) if no account has two of them, every session is with a known account, and a receiver holds
just routes of its own peer.  Then the routes for a prefix come from different known peers, so one
of them is best (`Tidy.bestPeerRoute`).

The order depends on directory and sessions alone.  It is kept when an account is tracked for which
the directory vouches, when one is untracked, and when a receiver takes in an update or forgets what
it holds.
-/

namespace RouteSync

theorem Receiver.peer_of_route?_apply {r : Receiver} {now : Timestamp} {u : UpdateRequest}
    (h : ∀ p i, r.route? p = some i → i.peer = r.peer) {p : Prefix} {i : IncomingRoute}
    (hi : (r.apply now u).1.route? p = some i) : i.peer = r.peer := by
  rcases route?_apply_eq_some hi with hold | ⟨a, -, rfl⟩
  · exact h p i hold
  · rfl

namespace Node

/-! ### The routes of the peers -/

/-- The routes of the peers, read off the numbers of the open sessions. -/
theorem peerRoutes_eq (n : Node) (p : Prefix) :
    n.peerRoutes p =
      n.tracked.filterMap fun t => (n.session? t.2).map (·.receiver.route? p) := by
  rw [peerRoutes, openSessions, List.map_filterMap]

theorem peerRoutes_congr {n n' : Node} {p : Prefix} (htracked : n'.tracked = n.tracked)
    (hroute : ∀ s, (n'.session? s).map (·.receiver.route? p) =
      (n.session? s).map (·.receiver.route? p)) :
    n'.peerRoutes p = n.peerRoutes p := by
  rw [peerRoutes_eq, peerRoutes_eq, htracked]
  exact congrArg (n.tracked.filterMap ·) (funext fun t => hroute t.2)

theorem mem_peerRoutes {n : Node} {p : Prefix} {route : Option IncomingRoute} :
    route ∈ n.peerRoutes p ↔ ∃ a s session, (a, s) ∈ n.tracked ∧ n.session? s = some session ∧
      session.receiver.route? p = route := by
  rw [peerRoutes_eq, List.mem_filterMap]
  constructor
  · rintro ⟨⟨a, s⟩, hmem, hroute⟩
    rw [Option.map_eq_some_iff] at hroute
    obtain ⟨session, hsession, hroute⟩ := hroute
    exact ⟨a, s, session, hmem, hsession, hroute⟩
  · rintro ⟨a, s, session, hmem, hsession, hroute⟩
    exact ⟨(a, s), hmem, by rw [hsession, ← hroute]; rfl⟩

/-! ### Order -/

/-- No account has two open sessions, and all receivers hold routes of the peer that they are for.
-/
structure Orderly (n : Node) : Prop where
  session_unique : ∀ a s s', (a, s) ∈ n.tracked → (a, s') ∈ n.tracked → s = s'
  session_of_tracked : ∀ a s, (a, s) ∈ n.tracked →
    ∃ session, n.session? s = some session ∧ session.receiver.peer = a
  peer_of_route? : ∀ s session p r, n.session? s = some session →
    session.receiver.route? p = some r → r.peer = session.receiver.peer

/-- All accounts with an open session are in the directory. -/
def KnowsTracked (n : Node) : Prop :=
  ∀ a s, (a, s) ∈ n.tracked → n.directory.knows a = true

/-- The sessions are in order, and all peers are known. -/
structure Tidy (n : Node) : Prop extends Orderly n where
  knows : n.KnowsTracked

theorem Orderly.congr {n n' : Node} (h : n.Orderly) (hsessions : n'.sessions = n.sessions)
    (htracked : n'.tracked = n.tracked) : n'.Orderly where
  session_unique := htracked ▸ h.session_unique
  session_of_tracked a s hmem := by
    rw [htracked] at hmem
    rw [session?, hsessions]
    exact h.session_of_tracked a s hmem
  peer_of_route? s session p r hsession := by
    rw [session?, hsessions] at hsession
    exact h.peer_of_route? s session p r hsession

theorem KnowsTracked.congr {n n' : Node} (h : n.KnowsTracked)
    (hdirectory : n'.directory = n.directory) (htracked : n'.tracked = n.tracked) :
    n'.KnowsTracked := by
  rw [KnowsTracked, hdirectory, htracked]
  exact h

theorem Orderly.peer_of_tracked {n : Node} (h : n.Orderly) {a : AccountId} {s : SessionId}
    {session : Session} (hmem : (a, s) ∈ n.tracked) (hsession : n.session? s = some session) :
    session.receiver.peer = a := by
  obtain ⟨session', hsession', hpeer⟩ := h.session_of_tracked a s hmem
  rw [hsession] at hsession'
  cases hsession'
  exact hpeer

/-- The routes to choose from are those that the receivers of tracked accounts hold. -/
theorem Orderly.mem_peerRoutes_iff {n : Node} (h : n.Orderly) {p : Prefix} {r : IncomingRoute} :
    some r ∈ n.peerRoutes p ↔ ∃ s session, (r.peer, s) ∈ n.tracked ∧
      n.session? s = some session ∧ session.receiver.route? p = some r := by
  rw [mem_peerRoutes]
  constructor
  · rintro ⟨a, s, session, hmem, hsession, hroute⟩
    have hpeer := h.peer_of_route? s session p r hsession hroute
    rw [h.peer_of_tracked hmem hsession] at hpeer
    exact ⟨s, session, hpeer ▸ hmem, hsession, hroute⟩
  · rintro ⟨s, session, hmem, hsession, hroute⟩
    exact ⟨r.peer, s, session, hmem, hsession, hroute⟩

/-- Every peer has at most one route for a prefix. -/
theorem Orderly.eq_of_mem_peerRoutes {n : Node} (h : n.Orderly) {p : Prefix}
    {r r' : IncomingRoute} (hr : some r ∈ n.peerRoutes p) (hr' : some r' ∈ n.peerRoutes p)
    (hpeer : r.peer = r'.peer) : r = r' := by
  obtain ⟨s, session, hmem, hsession, hroute⟩ := h.mem_peerRoutes_iff.1 hr
  obtain ⟨s', session', hmem', hsession', hroute'⟩ := h.mem_peerRoutes_iff.1 hr'
  rw [h.session_unique _ s s' hmem (hpeer ▸ hmem'), hsession'] at hsession
  cases hsession
  exact Option.some.inj (hroute.symm.trans hroute')

/-- Only routes that a known peer advertises are there to choose from, at most one of each peer. -/
theorem Tidy.peerRoutes {n : Node} (h : n.Tidy) (p : Prefix) :
    (∀ r, some r ∈ n.peerRoutes p → n.directory.knows r.peer = true) ∧
      ∀ r r', some r ∈ n.peerRoutes p → some r' ∈ n.peerRoutes p → r.peer = r'.peer → r = r' := by
  refine ⟨fun r hr => ?_, fun r r' => h.eq_of_mem_peerRoutes⟩
  obtain ⟨s, -, hmem, -⟩ := h.mem_peerRoutes_iff.1 hr
  exact h.knows r.peer s hmem

/-- Among the routes of the peers the best one is found. -/
theorem Tidy.bestPeerRoute {n : Node} (h : n.Tidy) (p : Prefix) :
    ∃ best, n.bestPeerRoute p = .ok best ∧
      (∀ r, best = some r ↔ n.directory.IsBest ((n.peerRoutes p).filterMap id) r) ∧
      (best = none ↔ (n.peerRoutes p).filterMap id = []) := by
  obtain ⟨hknows, hpeers⟩ := h.peerRoutes p
  obtain ⟨best, hbest, hisBest⟩ := Directory.isBest_of_bestRoute hknows hpeers
  refine ⟨best, ?_, hisBest⟩
  rw [Node.bestPeerRoute, hbest]
  rfl

/-- The best peer route depends on which routes the peers advertise, not on the sessions that
advertise none. -/
theorem Tidy.bestPeerRoute_congr {n n' : Node} (h : n.Tidy) {p : Prefix}
    (hdirectory : n'.directory = n.directory)
    (hsame : ∀ r, some r ∈ n'.peerRoutes p ↔ some r ∈ n.peerRoutes p) :
    n'.bestPeerRoute p = n.bestPeerRoute p := by
  obtain ⟨hknows, hpeers⟩ := h.peerRoutes p
  rw [Node.bestPeerRoute, Node.bestPeerRoute, hdirectory,
    Directory.bestRoute_congr (fun r => (hsame r).symm) hknows hpeers]

/-! ### What keeps the order -/

theorem Orderly.modifySession {n : Node} (h : n.Orderly) {s : SessionId} {f : Session → Session}
    (hf : ∀ session, n.session? s = some session →
      (f session).receiver.peer = session.receiver.peer ∧
        ∀ p r, (f session).receiver.route? p = some r → r.peer = session.receiver.peer) :
    (n.modifySession s f).Orderly := by
  refine ⟨h.session_unique, fun a t hmem => ?_, fun t session' p r hsession' hr => ?_⟩
  · obtain ⟨session, hsession, hpeer⟩ := h.session_of_tracked a t hmem
    rw [session?_modifySession]
    split
    · rename_i hts
      rw [hsession]
      exact ⟨f session, rfl, (hf session (hts ▸ hsession)).1.trans hpeer⟩
    · exact ⟨session, hsession, hpeer⟩
  · rcases session?_modifySession_cases hsession' with ⟨session, -, hsession, rfl⟩ | hsame
    · obtain ⟨hpeer, hroutes⟩ := hf session hsession
      exact (hroutes p r hr).trans hpeer.symm
    · exact h.peer_of_route? t session' p r hsame hr

/-- The session that is opened is found under the number that it gets. -/
theorem session?_track {n n' : Node} {session : Session} {s : SessionId}
    (h : n.track session = .ok (n', s)) (t : SessionId) :
    n'.session? t = if t = s then some session else n.session? t := by
  obtain ⟨-, rfl, rfl⟩ := track_eq_ok h
  show (n.sessions ++ [session])[t.index]? = _
  split
  · rename_i hts
    rw [hts]
    exact List.getElem?_concat_length
  · rename_i hts
    have hne : t.index ≠ n.sessions.length := fun h => hts (by rw [← h])
    rw [List.getElem?_append]
    split
    · rfl
    · rw [session?, List.getElem?_eq_none (by simp; omega), List.getElem?_eq_none (by omega)]

theorem mem_tracked_track {n n' : Node} {session : Session} {s : SessionId}
    (h : n.track session = .ok (n', s)) (a : AccountId) (t : SessionId) :
    (a, t) ∈ n'.tracked ↔ (a, t) ∈ n.tracked ∨ a = session.account.id ∧ t = s := by
  obtain ⟨-, -, rfl⟩ := track_eq_ok h
  rw [List.mem_append, List.mem_singleton, Prod.mk.injEq]

/-- A new session gets a number that no session had before. -/
theorem session?_eq_none_of_track {n n' : Node} {session : Session} {s : SessionId}
    (h : n.track session = .ok (n', s)) : n.session? s = none := by
  obtain ⟨-, rfl, -⟩ := track_eq_ok h
  exact List.getElem?_eq_none (Nat.le_refl _)

theorem Orderly.not_mem_tracked {n n' : Node} (h : n.Orderly) {session : Session} {s : SessionId}
    (htrack : n.track session = .ok (n', s)) (a : AccountId) : (a, s) ∉ n.tracked := by
  intro hmem
  obtain ⟨session', hsession', -⟩ := h.session_of_tracked a s hmem
  rw [session?_eq_none_of_track htrack] at hsession'
  cases hsession'

/-- A session that is opened with a receiver of its account. -/
theorem Orderly.track {n n' : Node} (h : n.Orderly) {session : Session} {s : SessionId}
    (htrack : n.track session = .ok (n', s)) (hpeer : session.receiver.peer = session.account.id)
    (hroutes : ∀ p r, session.receiver.route? p = some r → r.peer = session.receiver.peer) :
    n'.Orderly := by
  have hsession? := session?_track htrack
  have htracked := mem_tracked_track htrack
  have hunused := h.not_mem_tracked htrack
  obtain ⟨hnone, -, -⟩ := track_eq_ok htrack
  have hnew : ∀ t, (session.account.id, t) ∉ n.tracked := fun t hmem => by
    simpa using List.lookup_eq_none_iff.1 hnone _ hmem
  refine ⟨fun a t t' ht ht' => ?_, fun a t ht => ?_, fun t session' p r ht hr => ?_⟩
  · rw [htracked] at ht ht'
    rcases ht with ht | ⟨rfl, rfl⟩ <;> rcases ht' with ht' | ⟨ha, rfl⟩
    · exact h.session_unique a t t' ht ht'
    · exact absurd (ha ▸ ht) (hnew t)
    · exact absurd ht' (hnew t')
    · rfl
  · rw [hsession?]
    rcases (htracked a t).1 ht with ht | ⟨rfl, rfl⟩
    · have hts : t ≠ s := fun hts => hunused a (hts ▸ ht)
      rw [if_neg hts]
      exact h.session_of_tracked a t ht
    · exact ⟨session, if_pos rfl, hpeer⟩
  · rw [hsession?] at ht
    split at ht
    · cases ht
      exact hroutes p r hr
    · exact h.peer_of_route? t session' p r ht hr

/-- A session without routes adds nothing to choose from. -/
theorem Orderly.mem_peerRoutes_track {n n' : Node} (h : n.Orderly) {session : Session}
    {s : SessionId} (htrack : n.track session = .ok (n', s)) {p : Prefix}
    (hempty : session.receiver.route? p = none) {r : IncomingRoute} :
    some r ∈ n'.peerRoutes p ↔ some r ∈ n.peerRoutes p := by
  have hsession? := session?_track htrack
  rw [mem_peerRoutes, mem_peerRoutes]
  constructor
  · rintro ⟨a, t, session', hmem, ht, hroute⟩
    rw [hsession?] at ht
    split at ht
    · cases ht
      rw [hempty] at hroute
      cases hroute
    · rename_i hts
      refine ⟨a, t, session', ?_, ht, hroute⟩
      exact ((mem_tracked_track htrack a t).1 hmem).resolve_right fun hnew => hts hnew.2
  · rintro ⟨a, t, session', hmem, ht, hroute⟩
    have hts : t ≠ s := fun hts => h.not_mem_tracked htrack a (hts ▸ hmem)
    refine ⟨a, t, session', (mem_tracked_track htrack a t).2 (.inl hmem), ?_, hroute⟩
    rw [hsession?, if_neg hts]
    exact ht

/-- Closing a session changes no receiver. -/
theorem Orderly.detach {n : Node} (h : n.Orderly) (account : AccountId) (s : SessionId) :
    (n.detach account s).Orderly := by
  have hfilter : Orderly { n with tracked := n.tracked.filter (·.1 != account) } :=
    ⟨fun a s s' hs hs' =>
        h.session_unique a s s' (List.mem_filter.1 hs).1 (List.mem_filter.1 hs').1,
      fun a s hmem => h.session_of_tracked a s (List.mem_filter.1 hmem).1, h.peer_of_route?⟩
  exact hfilter.modifySession fun session hsession =>
    ⟨rfl, fun p r => h.peer_of_route? s session p r hsession⟩

theorem mem_tracked_of_trackedSession? {n : Node} {account : AccountId} {s : SessionId}
    (h : n.trackedSession? account = some s) : (account, s) ∈ n.tracked := by
  obtain ⟨before, after, htracked, -⟩ := List.lookup_eq_some_iff.1 h
  rw [htracked]
  exact List.mem_append_right before List.mem_cons_self

/-- Closing a session takes away the routes of its account and no others. -/
theorem Orderly.mem_peerRoutes_detach_iff {n : Node} (h : n.Orderly) (account : AccountId)
    (s : SessionId) {p : Prefix} {r : IncomingRoute} :
    some r ∈ (n.detach account s).peerRoutes p ↔ some r ∈ n.peerRoutes p ∧ r.peer ≠ account := by
  have hreceiver : ∀ t, ((n.detach account s).session? t).map (·.receiver) =
      (n.session? t).map (·.receiver) :=
    map_session?_modifySession _ fun _ _ => rfl
  rw [(h.detach account s).mem_peerRoutes_iff, h.mem_peerRoutes_iff]
  constructor
  · rintro ⟨t, session, hmem, hsession, hroute⟩
    obtain ⟨hmem, hne⟩ := List.mem_filter.1 hmem
    have hbefore := hreceiver t
    rw [hsession, Option.map_some, eq_comm, Option.map_eq_some_iff] at hbefore
    obtain ⟨session', hsession', hsame⟩ := hbefore
    exact ⟨⟨t, session', hmem, hsession', hsame ▸ hroute⟩, bne_iff_ne.1 hne⟩
  · rintro ⟨⟨t, session, hmem, hsession, hroute⟩, hne⟩
    have hafter := hreceiver t
    rw [hsession, Option.map_some, Option.map_eq_some_iff] at hafter
    obtain ⟨session', hsession', hsame⟩ := hafter
    exact ⟨t, session', List.mem_filter.2 ⟨hmem, bne_iff_ne.2 hne⟩, hsession', hsame ▸ hroute⟩

/-- For a prefix that its receiver holds nothing for, a closed session is not missed. -/
theorem Orderly.mem_peerRoutes_detach {n : Node} (h : n.Orderly) {account : AccountId}
    {s : SessionId} (hs : n.trackedSession? account = some s) {p : Prefix}
    (hnone : ∀ session, n.session? s = some session → session.receiver.route? p = none)
    {r : IncomingRoute} :
    some r ∈ (n.detach account s).peerRoutes p ↔ some r ∈ n.peerRoutes p := by
  rw [h.mem_peerRoutes_detach_iff, and_iff_left_iff_imp]
  rintro hr rfl
  obtain ⟨t, session, hmem, hsession, hroute⟩ := h.mem_peerRoutes_iff.1 hr
  have hts : t = s := h.session_unique _ t s hmem (mem_tracked_of_trackedSession? hs)
  rw [hnone session (hts ▸ hsession)] at hroute
  cases hroute

/-! ### What a change leaves settled -/

/-- From `n` to `n'` the choice can turn out otherwise for stale prefixes only: settings, directory
and tables stay, sessions in order stay in order, and the peers advertise the same for all other
prefixes. -/
structure Unsettles (stale : List Prefix) (n n' : Node) : Prop where
  settings : n'.settings = n.settings
  directory : n'.directory = n.directory
  incoming : n'.incoming = n.incoming
  localTable : n'.localTable = n.localTable
  originated : ∀ p, p ∉ stale → n'.originated.get? p = n.originated.get? p
  orderly : n.Orderly → n'.Orderly
  knows : n.KnowsTracked → n'.KnowsTracked
  peerRoutes : n.Orderly → ∀ p, p ∉ stale → ∀ r,
    some r ∈ n'.peerRoutes p ↔ some r ∈ n.peerRoutes p

theorem Unsettles.tidy {stale : List Prefix} {n n' : Node} (h : Unsettles stale n n')
    (hn : n.Tidy) : n'.Tidy :=
  ⟨h.orderly hn.toOrderly, h.knows hn.knows⟩

/-- As long as nobody opens or closes a session, order and directory concern the receivers only. -/
theorem Unsettles.of_receivers {stale : List Prefix} {n n' : Node}
    (hsettings : n'.settings = n.settings) (hdirectory : n'.directory = n.directory)
    (hincoming : n'.incoming = n.incoming) (hlocal : n'.localTable = n.localTable)
    (horiginated : n'.originated = n.originated) (htracked : n'.tracked = n.tracked)
    (horderly : n.Orderly → n'.Orderly)
    (hpeers : ∀ p, p ∉ stale → n'.peerRoutes p = n.peerRoutes p) : Unsettles stale n n' where
  settings := hsettings
  directory := hdirectory
  incoming := hincoming
  localTable := hlocal
  originated p _ := by rw [horiginated]
  orderly := horderly
  knows hn := hn.congr hdirectory htracked
  peerRoutes _ p hp r := by rw [hpeers p hp]

theorem SameRouting.unsettles {n n' : Node} (h : SameRouting n n') : Unsettles [] n n' :=
  .of_receivers h.settings h.directory h.incoming h.localTable h.originated h.tracked
    (fun hn => hn.congr h.sessions h.tracked)
    fun p _ => peerRoutes_congr h.tracked fun s => by rw [session?, session?, h.sessions]

/-- A session whose receiver changes for some prefixes only. -/
theorem modifySession_unsettles {n : Node} {s : SessionId} {f : Session → Session}
    {stale : List Prefix}
    (hpeer : ∀ session, n.session? s = some session →
      (f session).receiver.peer = session.receiver.peer)
    (hroutes : ∀ session, n.session? s = some session →
      (∀ p r, session.receiver.route? p = some r → r.peer = session.receiver.peer) →
      ∀ p r, (f session).receiver.route? p = some r → r.peer = session.receiver.peer)
    (hothers : ∀ session, n.session? s = some session → ∀ p, p ∉ stale →
      (f session).receiver.route? p = session.receiver.route? p) :
    Unsettles stale n (n.modifySession s f) := by
  refine .of_receivers rfl rfl rfl rfl rfl rfl (fun hn => ?_) fun p hp => ?_
  · exact hn.modifySession fun session hsession => ⟨hpeer session hsession,
      hroutes session hsession fun p r => hn.peer_of_route? s session p r hsession⟩
  · exact peerRoutes_congr rfl
      (map_session?_modifySession _ fun session hsession => hothers session hsession p hp)

/-- Another receiver of the same peer, which holds something else for some prefixes only. -/
theorem setReceiver_unsettles {n : Node} {s : SessionId} {session : Session} {receiver : Receiver}
    {stale : List Prefix} (hsession : n.session? s = some session)
    (hpeer : receiver.peer = session.receiver.peer)
    (hroutes : (∀ p r, session.receiver.route? p = some r → r.peer = session.receiver.peer) →
      ∀ p r, receiver.route? p = some r → r.peer = session.receiver.peer)
    (hothers : ∀ p, p ∉ stale → receiver.route? p = session.receiver.route? p) :
    Unsettles stale n (n.setReceiver s receiver) := by
  have hsame : ∀ session', n.session? s = some session' → session' = session := fun session' h =>
    Option.some.inj (h.symm.trans hsession)
  refine modifySession_unsettles (fun session' h => ?_) (fun session' h => ?_) fun session' h => ?_
  · rw [hsame session' h]
    exact hpeer
  · rw [hsame session' h]
    exact hroutes
  · rw [hsame session' h]
    exact hothers

/-- Making the node's own routes anew touches the prefixes of the old and of the new ones. -/
theorem originate_unsettles (n : Node) (routes : List Route) :
    Unsettles (routes.map (·.target) ++ n.originated.keys) n
      { n with originated := routes.foldl RouteTable.insert RouteTable.empty } where
  settings := rfl
  directory := rfl
  incoming := rfl
  localTable := rfl
  originated p hp := by
    rw [List.mem_append, not_or] at hp
    obtain ⟨hnew, hold⟩ := hp
    show (routes.foldl RouteTable.insert RouteTable.empty).get? p = _
    rw [(RouteTable.not_mem_keys_iff _ p).1 hold]
    refine List.foldlRecOn (motive := fun t : RouteTable Route => t.get? p = none) routes _ rfl ?_
    intro t ht r hr
    rw [RouteTable.get?_insert, if_neg ?_]
    · exact ht
    · rintro rfl
      exact hnew (List.mem_map_of_mem hr)
  orderly hn := hn.congr rfl rfl
  knows hn := hn.congr rfl rfl
  peerRoutes _ _ _ _ := Iff.rfl

theorem id_of_account? {directory : Directory} {id : AccountId} {account : Account}
    (h : directory.account? id = some account) : account.id = id := by
  rw [Directory.account?] at h
  have hid := List.find?_some h
  exact beq_iff_eq.1 hid

theorem track_unsettles {n n' : Node} {id : AccountId} {account : Account} {link : LinkId}
    {s : SessionId} (haccount : n.directory.account? id = some account)
    (htrack : n.track (newSession account link) = .ok (n', s)) : Unsettles [] n n' := by
  have hknows : n.directory.knows account.id = true := by
    rw [Directory.knows, id_of_account? haccount, haccount]
    rfl
  have hmem := mem_tracked_track htrack
  have hpeers : n.Orderly → ∀ p r, some r ∈ n'.peerRoutes p ↔ some r ∈ n.peerRoutes p :=
    fun hn p r => hn.mem_peerRoutes_track htrack rfl
  have horderly : n.Orderly → n'.Orderly := fun hn =>
    hn.track htrack rfl fun p r hr => by cases hr
  obtain ⟨-, -, rfl⟩ := track_eq_ok htrack
  refine ⟨rfl, rfl, rfl, rfl, fun _ _ => rfl, horderly, fun hn a t ht => ?_,
    fun hn p _ => hpeers hn p⟩
  rcases (hmem a t).1 ht with ht | ⟨rfl, -⟩
  · exact hn a t ht
  · exact hknows

/-- Without the session of an account the routes are missing that its receiver holds. -/
theorem detach_unsettles {n : Node} {account : AccountId} {s : SessionId} {held : List Prefix}
    (hs : n.trackedSession? account = some s)
    (hheld : ∀ session, n.session? s = some session → session.receiver.routes.keys = held) :
    Unsettles held n (n.detach account s) := by
  refine ⟨rfl, rfl, rfl, rfl, fun _ _ => rfl, fun hn => hn.detach account s, fun hn a t ht => ?_,
    fun hn p hp r => hn.mem_peerRoutes_detach hs fun session hsession => ?_⟩
  · exact hn a t (List.mem_filter.1 ht).1
  · rw [← hheld session hsession, RouteTable.not_mem_keys_iff] at hp
    exact hp

theorem Change.unsettles {intake : Intake} {stale : List Prefix} {n n' : Node}
    (h : Change intake stale n n') : Unsettles stale n n' := by
  cases h with
  | aside hsame => exact hsame.unsettles
  | codec =>
    exact .of_receivers rfl rfl rfl rfl rfl rfl (fun hn => hn.congr rfl rfl) fun _ _ => rfl
  | originate hroutes => exact originate_unsettles n _
  | track haccount htrack => exact track_unsettles haccount htrack
  | detach hs hheld => exact detach_unsettles hs hheld
  | receive now u hsession =>
    exact setReceiver_unsettles hsession (Receiver.apply_peer _ now _)
      (fun hown _ _ => Receiver.peer_of_route?_apply hown)
      fun _ => Receiver.route?_apply_of_not_changed
  | clear hsession =>
    refine setReceiver_unsettles hsession rfl (fun _ p r hr => by cases hr) fun p hp => ?_
    rw [RouteTable.not_mem_keys_iff] at hp
    exact hp.symm
  | sender s change =>
    exact modifySession_unsettles (fun _ _ => rfl) (fun _ _ h => h) fun _ _ _ _ => rfl

/-! ### Order in every run -/

theorem Retabled.orderly {n n' : Node} (h : Retabled n n') (hn : n.Orderly) : n'.Orderly := by
  rw [h]
  exact hn.congr rfl rfl

theorem Retabled.tidy {n n' : Node} (h : Retabled n n') (hn : n.Tidy) : n'.Tidy := by
  refine ⟨h.orderly hn.toOrderly, ?_⟩
  rw [h]
  exact hn.knows

theorem StepsWith.orderly {intake : Intake} {n n' : Node} (h : StepsWith intake n n')
    (hn : n.Orderly) : n'.Orderly :=
  h.induction (fun _ _ _ hchange => hchange.unsettles.orderly)
    (fun _ _ _ hok => (recompute_retabled hok).orderly) hn

/-- Whether a move leaves settings and filter as they are, and nobody but the node opens or uses
sessions. -/
def Move.KeepsSettings : Move → Prop
  | .filter _ | .configure _ | .track _ | .useSession _ _ => False
  | _ => True

/-- Whether whoever else opens or uses a session leaves the sessions in order: its receiver is one
of the account that it is with, and holds routes of this account alone. -/
def Move.KeepsOrder (n : Node) : Move → Prop
  | .track session => session.receiver.peer = session.account.id ∧
      ∀ p r, session.receiver.route? p = some r → r.peer = session.receiver.peer
  | .useSession s use => ∀ session, n.session? s = some session →
      (use session).receiver.peer = session.receiver.peer ∧
        ∀ p r, (use session).receiver.route? p = some r → r.peer = session.receiver.peer
  | _ => True

theorem Orderly.move_of_keepsOrder {n : Node} (h : n.Orderly) {m : Move} (hm : m.KeepsOrder n) :
    (n.move m).Orderly := by
  have hroutine : m.IsRoutine → (n.move m).Orderly := fun hm => (move_steps n hm).orderly h
  cases m with
  | direct directory => exact h.congr rfl rfl
  | filter filter => exact h.congr rfl rfl
  | configure settings => exact h.congr rfl rfl
  | track session =>
    show (((n.track session).map Prod.fst).toOption.getD n).Orderly
    cases htrack : n.track session with
    | error e => exact h
    | ok result => exact h.track htrack hm.1 hm.2
  | useSession s use => exact h.modifySession hm
  | _ => exact hroutine trivial

theorem Move.KeepsSettings.keepsOrder {m : Move} (h : m.KeepsSettings) (n : Node) :
    m.KeepsOrder n := by
  cases m with
  | track session => exact h.elim
  | useSession s use => exact h.elim
  | _ => trivial

theorem Orderly.move {n : Node} (h : n.Orderly) {m : Move} (hm : m.KeepsSettings) :
    (n.move m).Orderly :=
  h.move_of_keepsOrder (hm.keepsOrder n)

theorem tidy_fresh (settings : Settings) (directory : Directory) (codec : Codec)
    (filter : Option (Prefix → Route → Bool)) (id : TableId) (links : List Link) :
    (fresh settings directory codec filter id links).Tidy where
  session_unique a s s' h := by cases h
  session_of_tracked a s h := by cases h
  peer_of_route? s session p r h := by cases h
  knows a s h := by cases h

end Node

end RouteSync
