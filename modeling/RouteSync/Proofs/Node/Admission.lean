import RouteSync.Proofs.Node.Run
import RouteSync.Proofs.Succession

/-!
# What a node holds of what a peer advertises

Routes that are not let in are dropped from an update before the receiver sees it, and the update
counts as taken in all the same.  For the receiver this is as if the notices about these routes had
never been given (`history_admitted`).  So a route that was let in is still held after the peer
replaced it by one that is not, and only then is something else held than the last notice of the
peer asks for (`route?_eq_iff_of_deliveries`).
-/

namespace RouteSync

/-! ### Notices about routes that are not let in -/

theorem UpdateRequest.notices_admitted (u : UpdateRequest) (s : Settings) (p : Prefix) :
    (u.admitted s).notices p = (u.notices p).filter (·.all s.admits) := by
  have hwithdrawn : (if p ∈ u.withdrawn then [none] else []).filter (·.all s.admits) =
      if p ∈ u.withdrawn then [none] else [] := by
    split <;> rfl
  have hroutes : (u.newRoutes.filter s.admits).filter (·.target == p) =
      (u.newRoutes.filter (·.target == p)).filter s.admits := by
    simp only [List.filter_filter, Bool.and_comm]
  rw [notices, notices, List.filter_append, hwithdrawn, List.filter_map]
  exact congrArg _ (congrArg _ hroutes)

/-- Dropping routes leaves the other notices in place, withdrawals among them. -/
theorem history_admitted (us : List UpdateRequest) (s : Settings) (p : Prefix) :
    history (us.map (·.admitted s)) p = (history us p).filter (·.all s.admits) := by
  rw [history, history, List.flatMap_map, List.filter_flatMap]
  exact congrArg (List.flatMap · us) (funext fun u => u.notices_admitted s p)

theorem Successive.admitted {id : TableId} {e e' : Nat} {us : List UpdateRequest}
    (h : Successive id e us e') (s : Settings) : Successive id e (us.map (·.admitted s)) e' := by
  induction h with
  | nil e => exact .nil e
  | cons hid hfrom hordered hrest ih => exact .cons hid hfrom hordered ih

section Notices

variable {admits : AdvertisedRoute → Bool} {notices : List (Option AdvertisedRoute)}

/-- The route that the last notice asks for, unless it is refused. -/
def wantedRoute? (admits : AdvertisedRoute → Bool) (notices : List (Option AdvertisedRoute)) :
    Option AdvertisedRoute :=
  notices.getLast?.join.filter admits

/-- The route that is left if notices about refused routes are passed over. -/
def effectiveRoute? (admits : AdvertisedRoute → Bool) (notices : List (Option AdvertisedRoute)) :
    Option AdvertisedRoute :=
  (notices.filter (·.all admits)).getLast?.join

/-- A route that was let in was not taken back, but replaced by refused ones. -/
def Displaced (admits : AdvertisedRoute → Bool) (notices : List (Option AdvertisedRoute)) : Prop :=
  ∃ before accepted refused, notices = before ++ some accepted :: refused ∧
    admits accepted = true ∧ refused ≠ [] ∧ ∀ notice ∈ refused, notice.all admits = false

/-- Notices about refused routes at the end ask for nothing. -/
theorem wantedRoute?_append_refused (before : List (Option AdvertisedRoute))
    {refused : List (Option AdvertisedRoute)} (hne : refused ≠ [])
    (hrefused : ∀ notice ∈ refused, notice.all admits = false) :
    wantedRoute? admits (before ++ refused) = none := by
  have hlast := hrefused _ (List.getLast_mem hne)
  rw [wantedRoute?, List.getLast?_append, List.getLast?_eq_some_getLast hne, Option.some_or,
    Option.join_some]
  cases hnotice : refused.getLast hne with
  | none => rfl
  | some r =>
    rw [hnotice] at hlast
    exact Option.filter_eq_none_iff.2 fun s hs => by
      cases hs
      simpa using hlast

theorem effectiveRoute?_append_refused (before : List (Option AdvertisedRoute))
    {notice : Option AdvertisedRoute} {refused : List (Option AdvertisedRoute)}
    (hnotice : notice.all admits = true)
    (hrefused : ∀ notice ∈ refused, notice.all admits = false) :
    effectiveRoute? admits (before ++ notice :: refused) = notice := by
  have hdropped : refused.filter (·.all admits) = [] :=
    List.filter_eq_nil_iff.2 fun x hx => by simp [hrefused x hx]
  rw [effectiveRoute?, List.filter_append, List.filter_cons_of_pos hnotice, hdropped,
    List.getLast?_concat, Option.join_some]

/-- Behind the last notice that is not about a refused route there are only such ones. -/
theorem exists_last_admitted {notice : Option AdvertisedRoute}
    (h : (notices.filter (·.all admits)).getLast? = some notice) :
    notice.all admits = true ∧ ∃ before refused, notices = before ++ notice :: refused ∧
      ∀ notice ∈ refused, notice.all admits = false := by
  rw [List.getLast?_filter, List.find?_eq_some_iff_append] at h
  obtain ⟨hnotice, after, before, hsplit, hafter⟩ := h
  refine ⟨hnotice, before.reverse, after.reverse, ?_, fun x hx => ?_⟩
  · rw [← List.reverse_reverse notices, hsplit]
    simp
  · simpa using hafter x (List.mem_reverse.1 hx)

/-- No route of a peer is displaced as long as all of them are let in. -/
theorem not_displaced_of_admitted (h : ∀ notice ∈ notices, notice.all admits = true) :
    ¬Displaced admits notices := by
  rintro ⟨before, accepted, refused, rfl, -, hne, hrefused⟩
  have hlast := List.getLast_mem hne
  have hadmitted := h _ (List.mem_append_right before (List.mem_cons_of_mem (some accepted) hlast))
  rw [hrefused _ hlast] at hadmitted
  cases hadmitted

theorem Displaced.routes (h : Displaced admits notices) :
    ∃ r, effectiveRoute? admits notices = some r ∧ wantedRoute? admits notices = none := by
  obtain ⟨before, accepted, refused, rfl, haccepted, hne, hrefused⟩ := h
  refine ⟨accepted, effectiveRoute?_append_refused before haccepted hrefused, ?_⟩
  rw [List.append_cons]
  exact wantedRoute?_append_refused _ hne hrefused

theorem effectiveRoute?_eq_of_not_displaced (h : ¬Displaced admits notices) :
    effectiveRoute? admits notices = wantedRoute? admits notices := by
  cases hlast : (notices.filter (·.all admits)).getLast? with
  | none =>
    have hrefused : ∀ notice ∈ notices, notice.all admits = false := fun x hx => by
      simpa using List.filter_eq_nil_iff.1 (List.getLast?_eq_none_iff.1 hlast) x hx
    rw [effectiveRoute?, hlast]
    by_cases hne : notices = []
    · rw [hne]
      rfl
    · exact (wantedRoute?_append_refused [] hne hrefused).symm
  | some notice =>
    obtain ⟨hnotice, before, refused, rfl, hrefused⟩ := exists_last_admitted hlast
    rw [effectiveRoute?_append_refused before hnotice hrefused]
    by_cases hne : refused = []
    · -- The last notice counts, and it is not about a refused route.
      rw [hne, wantedRoute?, List.getLast?_concat, Option.join_some]
      cases notice with
      | none => rfl
      | some r =>
        have hr : admits r = true := hnotice
        exact (Option.filter_some_pos hr).symm
    · rw [List.append_cons, wantedRoute?_append_refused _ hne hrefused]
      cases notice with
      | none => rfl
      | some r => exact (h ⟨before, r, refused, rfl, hnotice, hne, hrefused⟩).elim

end Notices

/-! ### Packets that arrive one after the other -/

namespace Node

/-- A packet with an update and the time at which it arrives. -/
structure Delivery extends Arrival where
  packet : Prepare

namespace Delivery

/-- The packet is in order, and the update is what the codec finds in it. -/
structure Readable (codec : Codec) (d : Delivery) : Prop where
  destination_eq : d.packet.destination = updateDestination
  checkEnvelope_eq : checkEnvelope d.packet d.now = .ok ()
  decodeUpdate_eq : codec.decodeUpdate d.packet.data = .ok d.update

/-- The owner of an account sends the packet. -/
def move (account : AccountId) (d : Delivery) : Move :=
  .packet d.now account d.packet

/-- What the receiver sees. -/
def admitted (s : Settings) (d : Delivery) : Arrival :=
  ⟨d.now, d.update.admitted s⟩

end Delivery

/-- A node with an open session for an account whose routes are accepted. -/
structure ListensTo (n : Node) (account : AccountId) (s : SessionId) (session : Session) : Prop where
  trackedSession?_eq : n.trackedSession? account = some s
  session?_eq : n.session? s = some session
  receivesRoutes : session.account.receivesRoutes = true

/-- Such a packet is looked at as an update of the peer. -/
theorem ListensTo.handlePacket_eq {n : Node} {account : AccountId} {s : SessionId}
    {session : Session} (h : n.ListensTo account s session) {d : Delivery}
    (hd : d.Readable n.codec) :
    n.handlePacket d.now account d.packet = n.handleUpdate d.now s session d.packet.data := by
  have hother : updateDestination ≠ controlDestination := by decide
  simp only [handlePacket, h.trackedSession?_eq, h.session?_eq, hd.destination_eq,
    hd.checkEnvelope_eq, hother, ne_eq, not_true_eq_false, and_false, if_false]

/-- What such a packet does to the node. -/
theorem ListensTo.move_eq {n : Node} {account : AccountId} {s : SessionId} {session : Session}
    (h : n.ListensTo account s session) {d : Delivery} (hd : d.Readable n.codec) :
    n.move (d.move account) = n.receive s session.receiver d.now (d.update.admitted n.settings) := by
  show (n.handlePacket d.now account d.packet).node = _
  rw [h.handlePacket_eq hd]
  exact handleUpdate_node h.receivesRoutes hd.decodeUpdate_eq d.now s

/-- Apart from the tables that are made from them, such a packet changes only the receiver. -/
theorem ListensTo.retabled {n : Node} {account : AccountId} {s : SessionId} {session : Session}
    (h : n.ListensTo account s session) {d : Delivery} (hd : d.Readable n.codec) :
    Retabled (n.setReceiver s (session.receiver.apply d.now (d.update.admitted n.settings)).1)
      (n.move (d.move account)) := by
  rw [h.move_eq hd]
  exact receive_retabled ..

/-- An update changes the receiver; session, settings and codec stay what they are. -/
theorem ListensTo.receive {n : Node} {account : AccountId} {s : SessionId} {session : Session}
    (h : n.ListensTo account s session) (now : Timestamp) (u : UpdateRequest) :
    let n' := n.receive s session.receiver now u
    n'.ListensTo account s { session with receiver := (session.receiver.apply now u).1 } ∧
      n'.settings = n.settings ∧ n'.codec = n.codec := by
  intro n'
  have hretabled := recomputeAll_retabled
    (n.modifySession s fun session' =>
      { session' with receiver := (session.receiver.apply now u).1 })
    (session.receiver.apply now u).2.changed
  have hn' : n' = _ := hretabled
  rw [hn']
  refine ⟨⟨h.trackedSession?_eq, ?_, h.receivesRoutes⟩, rfl, rfl⟩
  have hsession := session?_modifySession n s
    (fun session' => { session' with receiver := (session.receiver.apply now u).1 }) s
  rw [if_pos rfl, h.session?_eq] at hsession
  exact hsession

/-- The receiver of the session gets what is let in of the updates in the packets. -/
theorem ListensTo.run {n : Node} {account : AccountId} {s : SessionId} {session : Session}
    (h : n.ListensTo account s session) {ds : List Delivery} (hds : ∀ d ∈ ds, d.Readable n.codec) :
    (n.run (ds.map (·.move account))).ListensTo account s
      { session with
        receiver := session.receiver.applyAll (ds.map (·.admitted n.settings)) } := by
  induction ds generalizing n session with
  | nil => exact h
  | cons d ds ih =>
    obtain ⟨hstep, hsettings, hcodec⟩ := h.receive d.now (d.update.admitted n.settings)
    rw [← h.move_eq (hds d List.mem_cons_self)] at hstep hsettings hcodec
    have hrest := ih hstep fun d' hd' => hcodec ▸ hds d' (List.mem_cons_of_mem d hd')
    rw [hsettings] at hrest
    exact hrest

/-- The peer of a session that holds no route sends successive updates of one table.  Then for every
prefix the route is held that is left if notices about refused routes are passed over.  This is the
route that the last notice of the peer asks for if and only if no route that was let in was replaced
by refused ones. -/
theorem route?_eq_iff_of_deliveries {n : Node} {account : AccountId} {s : SessionId}
    {session : Session} {ds : List Delivery} {id : TableId} {e : Nat}
    (htracked : n.trackedSession? account = some s) (hsession : n.session? s = some session)
    (hreceives : session.account.receivesRoutes = true)
    (hempty : ∀ p, session.receiver.route? p = none) (hds : ∀ d ∈ ds, d.Readable n.codec)
    (hsucc : Successive id (session.receiver.knownEpoch id) (ds.map (·.update)) e) :
    let peer := session.receiver.peer
    let admits := n.settings.admits
    let notices := history (ds.map (·.update))
    ∃ receiver, (n.run (ds.map (·.move account))).session? s =
        some { session with receiver := receiver } ∧
      receiver.knownEpoch id = e ∧
      ∀ p, receiver.route? p = (effectiveRoute? admits (notices p)).map (·.fromPeer peer) ∧
        (receiver.route? p = (wantedRoute? admits (notices p)).map (·.fromPeer peer) ↔
          ¬Displaced admits (notices p)) := by
  intro peer admits notices
  have hlistens : n.ListensTo account s session := ⟨htracked, hsession, hreceives⟩
  have hupdates : (ds.map (·.admitted n.settings)).map (·.update) =
      (ds.map (·.update)).map (·.admitted n.settings) := by
    rw [List.map_map, List.map_map]
    rfl
  have hadmitted := hsucc.admitted n.settings
  rw [← hupdates] at hadmitted
  obtain ⟨hepoch, -, hroutes⟩ := Receiver.applyAll_of_successive session.receiver hadmitted
  refine ⟨_, (hlistens.run hds).session?_eq, hepoch, fun p => ?_⟩
  have heffective : (session.receiver.applyAll (ds.map (·.admitted n.settings))).route? p =
      (effectiveRoute? admits (notices p)).map (·.fromPeer peer) := by
    rw [hroutes p, hupdates, history_admitted, hempty p, heldAfter_none]
    rfl
  refine ⟨heffective, fun hwanted hdisplaced => ?_, fun hkept => ?_⟩
  · obtain ⟨r, hr, hnone⟩ := hdisplaced.routes
    rw [heffective, hr, hnone] at hwanted
    cases hwanted
  · rw [heffective, effectiveRoute?_eq_of_not_displaced hkept]

/-! ### A peer whose route comes to lead through the node -/

/-- What the peer of the small node has a route to. -/
def remote : Prefix :=
  ⟨"g.far.away".toList, by decide⟩

/-- The peer's update after an epoch, with a route that goes through the given nodes. -/
def routeThrough (path : List Address) (epoch : Nat) : Delivery :=
  let update : UpdateRequest :=
    { tableId := ⟨List.replicate 16 2, List.length_replicate⟩
      currentEpoch := epoch + 1
      fromEpoch := epoch
      toEpoch := epoch + 1
      holdDownTime := 30000
      speaker := ⟨"g.far".toList, by decide⟩
      newRoutes := [⟨remote, path, .replicate 3⟩]
      withdrawn := [] }
  { now := .origin
    update := update
    packet := messagePacket updateDestination update.toTree.write .origin }

/-- The address of the peer. -/
def peerAddress : Address :=
  (routeThrough [] 0).update.speaker

/-- The small node once the link of its peer came up. -/
def connected : Node :=
  small.move (.event ⟨smallPeer.id, .connected⟩)

/-- The peer replaces its route by a longer one, which is let in as well. -/
theorem route?_eq_of_lengthened :
    let ds := [routeThrough [] 0, routeThrough [⟨"g.far".toList, by decide⟩] 1]
    let id := (routeThrough [] 0).update.tableId
    let session := newSession smallPeer ⟨0⟩
    let admits := connected.settings.admits
    let notices := history (ds.map (·.update)) remote
    connected.trackedSession? smallPeer.id = some ⟨0⟩ ∧ connected.session? ⟨0⟩ = some session ∧
      session.account.receivesRoutes = true ∧ (∀ p, session.receiver.route? p = none) ∧
      (∀ d ∈ ds, d.Readable connected.codec) ∧
      Successive id (session.receiver.knownEpoch id) (ds.map (·.update)) 2 ∧
      ∃ receiver, (connected.run (ds.map (·.move smallPeer.id))).session? ⟨0⟩ =
          some { session with receiver := receiver } ∧
        receiver.route? remote =
          (wantedRoute? admits notices).map (·.fromPeer session.receiver.peer) := by
  intro ds id session admits notices
  have htracked : connected.trackedSession? smallPeer.id = some ⟨0⟩ := by decide +kernel
  have hsession : connected.session? ⟨0⟩ = some session := rfl
  have hempty : ∀ p, session.receiver.route? p = none := RouteTable.get?_empty
  have hds : ∀ d ∈ ds, d.Readable connected.codec := by
    intro d hd
    rw [List.mem_cons, List.mem_singleton] at hd
    rcases hd with rfl | rfl
    · exact ⟨rfl, rfl, eq_ok_of_toOption (by decide +kernel)⟩
    · exact ⟨rfl, rfl, eq_ok_of_toOption (by decide +kernel)⟩
  have hsucc : Successive id (session.receiver.knownEpoch id) (ds.map (·.update)) 2 :=
    .cons rfl rfl (Nat.le_succ 0) (.cons rfl rfl (Nat.le_succ 1) (.nil 2))
  obtain ⟨receiver, hafter, -, hroutes⟩ :=
    route?_eq_iff_of_deliveries htracked hsession rfl hempty hds hsucc
  exact ⟨htracked, hsession, rfl, hempty, hds, hsucc, receiver, hafter,
    (hroutes remote).2.2 (not_displaced_of_admitted (by decide))⟩

/-- The peer replaces its route by one that goes through the node.  Both updates are accepted, and
the route from before is still held. -/
theorem route?_of_displaced :
    let first := routeThrough [] 0
    let second := routeThrough [smallSettings.operator] 1
    let n := connected.move (first.move smallPeer.id)
    let n' := n.move (second.move smallPeer.id)
    let notices := history [first.update, second.update] remote
    Successive first.update.tableId 0 [first.update, second.update] 2 ∧
      (connected.handlePrepare first.now smallPeer.id first.packet).2.1 = .ok accepted ∧
      (n.handlePrepare second.now smallPeer.id second.packet).2.1 = .ok accepted ∧
      ((n'.session? ⟨0⟩).map fun session => session.receiver.epoch) = some 2 ∧
      wantedRoute? smallSettings.admits notices = none ∧
      ((n'.session? ⟨0⟩).bind fun session => session.receiver.route? remote) =
        some (AdvertisedRoute.fromPeer ⟨remote, [], .replicate 3⟩ smallPeer.id) := by
  intro first second n n' notices
  exact ⟨.cons rfl rfl (Nat.le_succ 0) (.cons rfl rfl (Nat.le_succ 1) (.nil 2)),
    eq_ok_of_toOption (by decide +kernel), eq_ok_of_toOption (by decide +kernel),
    by decide +kernel, by decide +kernel, by decide +kernel⟩

end Node

end RouteSync
