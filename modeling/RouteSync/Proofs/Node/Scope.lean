import RouteSync.Proofs.Node.Coherence
import RouteSync.Proofs.Node.Admission
import RouteSync.Proofs.Node.Outgoing
import RouteSync.Proofs.Succession

/-!
# How far an update of a peer reaches

The update of a peer names prefixes: those that it withdraws and those of its new routes that are
let in.  At all other prefixes the tables stay as they are, epochs included, and no session changes
but that of the peer (`kept_of_update`).

Choosing the route for one prefix anew also looks at what is advertised below it.  That nothing
changes there follows from an invariant: what is advertised for these prefixes is up to date before
the choice (`Agrees`), and the choice for another prefix does not make it outdated (`get?_refresh`).
-/

namespace RouteSync

/-- A receiver reports only prefixes that the update names. -/
theorem Receiver.names_of_changed {r : Receiver} {now : Timestamp} {u : UpdateRequest} {p : Prefix}
    (h : p ∈ (r.apply now u).2.changed) : u.Names p := by
  revert h
  simp only [apply]
  split
  · exact fun h => absurd h List.not_mem_nil
  · split
    · exact fun h => absurd h List.not_mem_nil
    · split
      · exact fun h => absurd h List.not_mem_nil
      · split
        · exact fun h => absurd h List.not_mem_nil
        · show p ∈ u.withdrawn ++ (insertAll _ _).2 → _
          rw [List.mem_append, mem_insertAll_iff]
          rintro (hgone | ⟨i, hi, rfl, -⟩)
          · exact .inl hgone
          · obtain ⟨a, ha, rfl⟩ := List.mem_map.1 hi
            exact .inr ⟨a, ha, rfl⟩

namespace Node

variable {n n' : Node} {p q : Prefix}

/-! ### One prefix of the tables -/

/-- Two nodes with the same entries for a prefix. -/
structure SameAt (p : Prefix) (n n' : Node) : Prop where
  localTable : n'.localTable.get? p = n.localTable.get? p
  incoming : n'.incoming.get? p = n.incoming.get? p
  outgoing : n'.outgoing.get? p = n.outgoing.get? p

theorem SameAt.refl (p : Prefix) (n : Node) : SameAt p n n :=
  ⟨rfl, rfl, rfl⟩

theorem SameAt.trans {n'' : Node} (h : SameAt p n n') (h' : SameAt p n' n'') : SameAt p n n'' :=
  ⟨h'.localTable.trans h.localTable, h'.incoming.trans h.incoming, h'.outgoing.trans h.outgoing⟩

/-- A route that is adopted for one prefix leaves the advertisements for all others alone. -/
theorem Agrees.get?_outgoing_adopt (h : n.Agrees) {route : Option Route}
    (htarget : ∀ r, route = some r → r.target = q) (hp : p ≠ q) :
    (n.adopt q route).outgoing.get? p = n.outgoing.get? p := by
  unfold adopt
  split
  · rfl
  · refine get?_refresh (fun p' hp' => ?_) hp
    rw [RouteTable.get?_set _ htarget, if_neg hp']
    exact h p'

theorem Agrees.sameAt_recompute (h : n.Agrees) (hok : n.recompute q = .ok n') (hp : p ≠ q) :
    SameAt p n n' := by
  obtain ⟨_, -, hincoming, -, hlocal⟩ := get?_of_recompute hok
  refine ⟨hlocal p hp, (hincoming p).trans (if_neg hp), ?_⟩
  obtain ⟨best, hbest, rfl⟩ := recompute_eq_ok.1 hok
  have hnote : (n.noteIncoming q best).Agrees := h
  exact hnote.get?_outgoing_adopt
    (fun r => target_of_select fun i hi => target_of_bestPeerRoute (hi ▸ hbest)) hp

theorem Agrees.sameAt_recomputeAll (h : n.Agrees) {ps : List Prefix} (hp : p ∉ ps) :
    SameAt p n (n.recomputeAll ps).1 := by
  induction ps generalizing n with
  | nil => exact .refl p n
  | cons q qs ih =>
    rw [List.mem_cons, not_or] at hp
    rw [recomputeAll]
    cases hq : n.recompute q with
    | error e => exact .refl p n
    | ok n' => exact (h.sameAt_recompute hq hp.1).trans (ih ((recompute_turns hq).agrees h) hp.2)

theorem Agrees.sameAt_receive (h : n.Agrees) (s : SessionId) (r : Receiver) (now : Timestamp)
    {u : UpdateRequest} (hp : ¬u.Names p) : SameAt p n (n.receive s r now u) := by
  have hset : (n.setReceiver s (r.apply now u).1).Agrees := h
  have hunchanged : p ∉ (r.apply now u).2.changed := fun h => hp (Receiver.names_of_changed h)
  have hchosen := hset.sameAt_recomputeAll hunchanged
  exact ⟨hchosen.localTable, hchosen.incoming, hchosen.outgoing⟩

/-! ### The packet of an update -/

/-- The packet of an update does nothing, or what is let in of the update reaches the receiver of
the account that sent it. -/
theorem move_of_update (n : Node) (now : Timestamp) (account : AccountId) {packet : Prepare}
    (hupdate : packet.destination = updateDestination) :
    n.move (.packet now account packet) = n ∨
      ∃ s session u, n.trackedSession? account = some s ∧ n.session? s = some session ∧
        n.codec.decodeUpdate packet.data = .ok u ∧
        n.move (.packet now account packet) =
          n.receive s session.receiver now (u.admitted n.settings) := by
  show (n.handlePacket now account packet).node = n ∨ ∃ s session u, _ ∧ _ ∧ _ ∧
    (n.handlePacket now account packet).node = _
  rcases handlePacket_node_cases n now account packet with
    hsame | ⟨s, session, hs, hsession, -, ⟨hcontrol, -⟩ | ⟨-, -, u, hdecode, hnode⟩⟩
  · exact .inl hsame
  · exact absurd (hcontrol.symm.trans hupdate) (by decide)
  · exact .inr ⟨s, session, u, hs, hsession, hdecode, hnode⟩

/-- After every run under which the rules of the node stay and sessions stay in order, the packet of
an update changes neither the node's own routes nor a sender nor a session with another account.  At
a prefix that the update neither withdraws nor brings a route for that is let in, the route in use,
the incoming route and the advertisement stay, the epoch of the advertisement included. -/
theorem kept_of_update {settings : Settings} {directory : Directory} {codec : Codec}
    {filter : Option (Prefix → Route → Bool)} {id : TableId} {links : List Link} {moves : List Move}
    (hmoves : Along (fun n m => m.KeepsRules settings ∧ m.KeepsOrder n)
      (fresh settings directory codec filter id links) moves)
    (now : Timestamp) (account : AccountId) {packet : Prepare}
    (hupdate : packet.destination = updateDestination) :
    let n := (fresh settings directory codec filter id links).run moves
    let n' := n.move (.packet now account packet)
    n'.originated = n.originated ∧ n'.tracked = n.tracked ∧
      (∀ s, (n'.session? s).map (·.sender) = (n.session? s).map (·.sender)) ∧
      (∀ other s, (other, s) ∈ n.tracked → other ≠ account → n'.session? s = n.session? s) ∧
      ∀ p, (∀ u, n.codec.decodeUpdate packet.data = .ok u → ¬(u.admitted n.settings).Names p) →
        n'.localTable.get? p = n.localTable.get? p ∧
        n'.incoming.get? p = n.incoming.get? p ∧
        n'.outgoing.get? p = n.outgoing.get? p := by
  intro n n'
  have hn : n.Governed settings filter ∧ n.Orderly :=
    hmoves.induction (motive := fun n => n.Governed settings filter ∧ n.Orderly)
      (fun _ _ _ hm h => ⟨h.1.move hm.1, h.2.move_of_keepsOrder hm.2⟩)
      ⟨⟨rfl, rfl, rfl, fun _ => rfl⟩, (tidy_fresh ..).toOrderly⟩
  rcases move_of_update n now account hupdate with hsame | ⟨s, session, u, hs, hsession, hu, hnode⟩
  · have hsame : n' = n := hsame
    rw [hsame]
    exact ⟨rfl, rfl, fun _ => rfl, fun _ _ _ _ => rfl, fun _ _ => ⟨rfl, rfl, rfl⟩⟩
  · have hnode : n' = n.receive s session.receiver now (u.admitted n.settings) := hnode
    rw [hnode]
    refine ⟨by rw [receive_retabled]; rfl, by rw [receive_retabled]; rfl, fun t => ?_,
      fun other t ht hne => ?_, fun p hp => ?_⟩
    · rw [session?_receive]
      refine map_session?_modifySession _ ?_ t
      exact fun _ _ => rfl
    · -- The accounts of two open sessions with one number are the same.
      rw [session?_receive, setReceiver, session?_modifySession, if_neg]
      rintro rfl
      have hother := hn.2.peer_of_tracked ht hsession
      exact hne (hother.symm.trans
        (hn.2.peer_of_tracked (mem_tracked_of_trackedSession? hs) hsession))
    · have hat := hn.1.agrees.sameAt_receive s session.receiver now (hp u hu)
      exact ⟨hat.localTable, hat.incoming, hat.outgoing⟩

/-- A prefix below the one that the peer has a route to. -/
def innermost : Prefix :=
  ⟨"g.far.away.inside".toList, by decide⟩

/-- What the peer advertises first. -/
def innermostFirst : Delivery :=
  let update : UpdateRequest :=
    { (routeThrough [] 0).update with newRoutes := [⟨innermost, [], .replicate 3⟩] }
  { now := .origin
    update := update
    packet := messagePacket updateDestination update.toTree.write .origin }

/-- The peer of the small node brings a route between two that are advertised, the static route
above it and one of its own below.  Both advertisements stay, although the one below is looked at
again. -/
theorem kept_of_route_below :
    let moves : List Move :=
      [.reload, .event ⟨smallPeer.id, .connected⟩, innermostFirst.move smallPeer.id]
    let n := small.run moves
    let d := routeThrough [] 1
    let n' := n.move (d.move smallPeer.id)
    Along (fun n m => m.KeepsRules smallSettings ∧ m.KeepsOrder n) small moves ∧
      d.packet.destination = updateDestination ∧ remote.startsWith smallTarget = true ∧
      innermost.startsWith remote = true ∧
      n.outgoing.get? remote = none ∧ (n'.outgoing.get? remote).isSome = true ∧
      ∀ p, p = smallTarget ∨ p = innermost →
        (n.outgoing.get? p).isSome = true ∧ n'.outgoing.get? p = n.outgoing.get? p ∧
          n'.localTable.get? p = n.localTable.get? p ∧ n'.incoming.get? p = n.incoming.get? p := by
  intro moves n d n'
  have hmoves : Along (fun n m => m.KeepsRules smallSettings ∧ m.KeepsOrder n) small moves :=
    ⟨⟨trivial, trivial⟩, ⟨trivial, trivial⟩, ⟨trivial, trivial⟩, trivial⟩
  have hupdate : d.packet.destination = updateDestination := rfl
  have hdecode : n.codec.decodeUpdate d.packet.data = .ok d.update :=
    eq_ok_of_toOption (by decide +kernel)
  have hunnamed : ∀ (settings : Settings) (p : Prefix), p ≠ remote →
      ¬(d.update.admitted settings).Names p := by
    rintro settings p hp (hgone | ⟨a, ha, htarget⟩)
    · cases hgone
    · have hbrought : a ∈ d.update.newRoutes := (List.mem_filter.1 ha).1
      rw [List.mem_singleton.1 hbrought] at htarget
      exact hp htarget.symm
  obtain ⟨habove, hbelow, hnew, hbrought, hstatic, hinnermost⟩ :
      remote.startsWith smallTarget = true ∧ innermost.startsWith remote = true ∧
        n.outgoing.get? remote = none ∧ (n'.outgoing.get? remote).isSome = true ∧
        (n.outgoing.get? smallTarget).isSome = true ∧
        (n.outgoing.get? innermost).isSome = true := by
    decide +kernel
  obtain ⟨-, -, -, -, hkept⟩ := @kept_of_update smallSettings smallDirectory .json none
    ⟨List.replicate 16 1, by decide⟩ [{ account := smallPeer.id }] moves hmoves d.now smallPeer.id
    d.packet hupdate
  have hn : (fresh smallSettings smallDirectory .json none ⟨List.replicate 16 1, by decide⟩
    [{ account := smallPeer.id }]).run moves = n := rfl
  rw [hn] at hkept
  have hstays : ∀ p, p ≠ remote → n'.localTable.get? p = n.localTable.get? p ∧
      n'.incoming.get? p = n.incoming.get? p ∧ n'.outgoing.get? p = n.outgoing.get? p := by
    intro p hp
    refine hkept p fun u hu => ?_
    rw [Except.ok.inj (hu.symm.trans hdecode)]
    exact hunnamed _ p hp
  refine ⟨hmoves, hupdate, habove, hbelow, hnew, hbrought, ?_⟩
  rintro p (rfl | rfl)
  · obtain ⟨hlocal, hincoming, houtgoing⟩ := hstays smallTarget (by decide)
    exact ⟨hstatic, houtgoing, hlocal, hincoming⟩
  · obtain ⟨hlocal, hincoming, houtgoing⟩ := hstays innermost (by decide)
    exact ⟨hinnermost, houtgoing, hlocal, hincoming⟩

end Node

end RouteSync
