import Mathlib.Data.List.Basic
import RouteSync.Proofs.Node.Withdrawal

/-!
# Updates that are delivered again

An update is answered with an internal error if a route cannot be chosen for one of the prefixes
that it changed, because the directory misses a peer that advertises one.  By then the receiver has
taken the update in (`listensTo_of_handlePacket`), so a second delivery finds the routes in place
(`Receiver.apply_again`).  It is accepted, but the receiver reports only the prefixes that the
update withdraws or brings different routes for (`UpdateRequest.ReportsAgain`).

So the second delivery does not make up for what the first one left undone.  For all other prefixes
the route in use leads where it led before (`leadsBest_iff_of_retry`), and a route that a peer came
to advertise with the first delivery does not come into use (`nextHop_of_retry`).
-/

namespace RouteSync

open RouteEntry

/-- Whether a receiver that took an update in before reports a prefix when the update comes again:
the update withdraws the prefix, or it brings a route for it that is not the last one. -/
def UpdateRequest.ReportsAgain (u : UpdateRequest) (p : Prefix) : Prop :=
  p ∈ u.withdrawn ∨ ∃ a ∈ u.newRoutes, a.target = p ∧ u.latest? p ≠ some a

theorem AdvertisedRoute.fromPeer_inj {a b : AdvertisedRoute} {peer : AccountId} :
    a.fromPeer peer = b.fromPeer peer ↔ a = b := by
  constructor
  · intro h
    cases a
    cases b
    cases h
    rfl
  · rintro rfl
    rfl

/-- Some route for a prefix is the last one. -/
theorem UpdateRequest.exists_latest? {u : UpdateRequest} {a : AdvertisedRoute}
    (h : a ∈ u.newRoutes) : ∃ last, u.latest? a.target = some last := by
  have hmem : a ∈ u.newRoutes.filter (·.target == a.target) :=
    List.mem_filter.2 ⟨h, beq_self_eq_true _⟩
  exact ⟨_, List.getLast?_eq_some_getLast (List.ne_nil_of_mem hmem)⟩

/-- Taking an update in twice is like taking it in once. -/
theorem UpdateRequest.outcome?_outcome? (u : UpdateRequest) (peer : AccountId) (p : Prefix)
    (before : Option IncomingRoute) :
    u.outcome? peer p (u.outcome? peer p before) = u.outcome? peer p before := by
  unfold outcome?
  cases u.latest? p with
  | some a => rfl
  | none => split <;> rfl

namespace Receiver

variable {r : Receiver} {now : Timestamp} {u : UpdateRequest} {changed : List Prefix}

/-- What is reported of an update by a receiver that holds what the update leaves. -/
theorem mem_applyRoutes_iff {before : Prefix → Option IncomingRoute}
    (h : ∀ p, r.route? p = u.outcome? r.peer p (before p)) (p : Prefix) :
    p ∈ (r.applyRoutes u).2 ↔ u.ReportsAgain p := by
  show p ∈ u.withdrawn ++ (insertAll _ _).2 ↔ _
  rw [List.mem_append, mem_insertAll_iff, RouteTable.get?_foldl_erase]
  by_cases hp : p ∈ u.withdrawn
  · exact iff_of_true (.inl hp) (.inl hp)
  refine or_congr_right ?_
  -- A prefix that is not withdrawn has the last route for it.
  have hheld : ∀ a ∈ u.newRoutes, a.target = p →
      (r.routes.get? p ≠ some (a.fromPeer r.peer) ↔ u.latest? p ≠ some a) := by
    rintro a ha rfl
    obtain ⟨last, hlast⟩ := UpdateRequest.exists_latest? ha
    have hroute : r.routes.get? a.target = some (last.fromPeer r.peer) := by
      refine (h a.target).trans ?_
      rw [UpdateRequest.outcome?, hlast]
      rfl
    rw [hroute, hlast, ne_eq, ne_eq, Option.some.injEq, Option.some.injEq,
      AdvertisedRoute.fromPeer_inj]
  rw [if_neg hp]
  constructor
  · rintro ⟨i, hi, htarget, hne⟩
    obtain ⟨a, ha, rfl⟩ := List.mem_map.1 hi
    exact ⟨a, ha, htarget, (hheld a ha htarget).1 hne⟩
  · rintro ⟨a, ha, htarget, hne⟩
    exact ⟨a.fromPeer r.peer, List.mem_map_of_mem ha, htarget, (hheld a ha htarget).2 hne⟩

/-- An update that was taken in with its routes is taken in again.  The routes stay as they are, and
a prefix is reported only if it is withdrawn or has different routes in the update. -/
theorem apply_again (h : (r.apply now u).2 = .applied changed) (now' : Timestamp) :
    ∃ changed', ((r.apply now u).1.apply now' u).2 = .applied changed' ∧
      (∀ p, ((r.apply now u).1.apply now' u).1.route? p = (r.apply now u).1.route? p) ∧
      ∀ p, p ∈ changed' ↔ u.ReportsAgain p := by
  obtain ⟨hfrom, hto, hbeat⟩ := covers_of_apply_eq_applied h
  have hroutes := (apply_of_covers hfrom hto).2.2
  have hpeer : ((r.apply now u).1.greet now' u).peer = r.peer :=
    (greet_peer ..).trans (apply_peer ..)
  have hheld : ∀ p, ((r.apply now u).1.greet now' u).route? p =
      u.outcome? ((r.apply now u).1.greet now' u).peer p (r.route? p) := fun p => by
    rw [route?_greet, hroutes, hpeer]
  -- The second time the known epoch is the one with which the update ends.
  have hepoch : ((r.apply now u).1.greet now' u).epoch = u.toEpoch := by
    rw [greet_epoch, if_pos (apply_tableId r now u)]
    exact (apply_of_covers hfrom hto).2.1
  have hagain := @apply_eq_applyRoutes (r.apply now u).1 now' u
    (hepoch ▸ Nat.le_trans hfrom hto) (Nat.le_of_eq hepoch) hbeat
  rw [hagain]
  refine ⟨_, rfl, fun p => ?_, mem_applyRoutes_iff hheld⟩
  rw [route?_applyRoutes, hheld, UpdateRequest.outcome?_outcome?, hpeer, hroutes]

end Receiver

namespace Node

variable {n : Node} {account : AccountId} {s : SessionId} {session : Session}

/-- What the owner of an account gets back for a packet. -/
def answer (n : Node) (now : Timestamp) (account : AccountId) (packet : Prepare) : Reply :=
  (n.handlePrepare now account packet).2.1

/-- The route in use for a prefix leads where its best route leads, which is known. -/
def LeadsBest (n : Node) (p : Prefix) : Prop :=
  ∃ best, n.bestRoute p = .ok best ∧
    (n.localTable.get? p).map Route.nextHop = best.map Route.nextHop

theorem CoherentAt.leadsBest {p : Prefix} (h : n.CoherentAt p) : n.LeadsBest p :=
  ⟨n.select p (n.incoming.get? p), by rw [bestRoute, h.incoming]; rfl, h.nextHop⟩

theorem leadsBest_congr {n' : Node} {p : Prefix} (hsettings : n'.settings = n.settings)
    (hdirectory : n'.directory = n.directory) (hbest : n'.bestPeerRoute p = n.bestPeerRoute p)
    (horiginated : n'.originated.get? p = n.originated.get? p)
    (hlocal : n'.localTable.get? p = n.localTable.get? p) : n'.LeadsBest p ↔ n.LeadsBest p := by
  have hselect : n'.select p = n.select p := by
    funext peerRoute
    rw [select, select, hsettings, hdirectory, horiginated]
  rw [LeadsBest, LeadsBest, bestRoute, bestRoute, hbest, hselect, hlocal]

/-! ### Updates that cannot be processed -/

theorem handleUpdate_of_applied {now : Timestamp} {data : Bytes} {u : UpdateRequest}
    {changed : List Prefix} (hreceives : session.account.receivesRoutes = true)
    (hdecode : n.codec.decodeUpdate data = .ok u)
    (happlied : (session.receiver.apply now (u.admitted n.settings)).2 = .applied changed) :
    n.handleUpdate now s session data =
      (n.setReceiver s (session.receiver.apply now (u.admitted n.settings)).1).integrate
        changed := by
  simp only [handleUpdate, hreceives, hdecode, Bool.not_true, Bool.false_eq_true, if_false,
    happlied]
  rfl

theorem integrate_of_ok {changed : List Prefix} (h : (n.recomputeAll changed).2 = .ok ()) :
    (n.integrate changed).refusal = none := by
  unfold integrate
  split
  · rfl
  · rename_i hrecompute
    rw [hrecompute] at h
    cases h

/-- An update is given up only after the receiver took it in with its routes. -/
theorem applied_of_handleUpdate {now : Timestamp} {data : Bytes} {u : UpdateRequest}
    (hreceives : session.account.receivesRoutes = true)
    (hdecode : n.codec.decodeUpdate data = .ok u)
    (h : (n.handleUpdate now s session data).refusal = some .notProcessed) :
    ∃ changed, (session.receiver.apply now (u.admitted n.settings)).2 = .applied changed := by
  simp only [handleUpdate, hreceives, hdecode, Bool.not_true, Bool.false_eq_true, if_false] at h
  split at h
  · cases h
  · cases h
  · rename_i changed happlied
    exact ⟨changed, happlied⟩
  · cases h
  · cases h

theorem listensTo_of_handlePacket {now : Timestamp} {packet : Prepare}
    (h : (n.handlePacket now account packet).refusal = some .notProcessed) :
    ∃ s session u changed, n.ListensTo account s session ∧
      Delivery.Readable n.codec ⟨⟨now, u⟩, packet⟩ ∧
      (session.receiver.apply now (u.admitted n.settings)).2 = .applied changed := by
  rcases handlePacket_cases n now account packet with
    haway | ⟨s, session, hs, hsession, henvelope, ⟨-, hhandled⟩ | ⟨hupdate, hhandled⟩⟩
  · exact absurd h haway.refusal_ne
  · -- No control request is given up in this way.
    rw [hhandled] at h
    rcases handleControl_cases n s session packet.data with haway | ⟨request, -, -, hcontrol⟩
    · exact absurd h haway.refusal_ne
    · rw [hcontrol] at h
      cases h
  · rw [hhandled] at h
    rcases handleUpdate_cases n now s session packet.data with haway | ⟨hreceives, u, hdecode⟩
    · exact absurd h haway.refusal_ne
    · obtain ⟨changed, happlied⟩ := applied_of_handleUpdate hreceives hdecode h
      exact ⟨s, session, u, changed, ⟨hs, hsession, hreceives⟩, ⟨hupdate, henvelope, hdecode⟩,
        happlied⟩

theorem answer_of_refusal {now : Timestamp} {packet : Prepare} {refusal : Refusal}
    (h : (n.handlePacket now account packet).refusal = some refusal) :
    n.answer now account packet = .error (refusal.toReject n.settings.operator) := by
  dsimp only [answer, handlePrepare]
  rw [h]

/-- Packets are rejected only if they are refused. -/
theorem exists_refusal_of_answer {now : Timestamp} {packet : Prepare} {reject : Reject}
    (h : n.answer now account packet = .error reject) :
    ∃ refusal, (n.handlePacket now account packet).refusal = some refusal ∧
      refusal.code = reject.code := by
  dsimp only [answer, handlePrepare] at h
  cases hrefusal : (n.handlePacket now account packet).refusal with
  | none =>
    rw [hrefusal] at h
    cases h
  | some refusal =>
    rw [hrefusal] at h
    cases h
    exact ⟨refusal, rfl, rfl⟩

/-- Only an update that cannot be processed is answered with an internal error. -/
theorem refusal_of_internalError {now : Timestamp} {packet : Prepare} {reject : Reject}
    (h : n.answer now account packet = .error reject) (hcode : reject.code = .internalError) :
    (n.handlePacket now account packet).refusal = some .notProcessed := by
  obtain ⟨refusal, hrefusal, hsame⟩ := exists_refusal_of_answer h
  rw [hrefusal]
  rw [hcode] at hsame
  cases refusal <;> first | rfl | cases hsame

theorem exists_reject_of_code {now : Timestamp} {packet : Prepare} {code : ErrorCode}
    (h : (n.handlePacket now account packet).refusal.map Refusal.code = some code) :
    ∃ reject, n.answer now account packet = .error reject ∧ reject.code = code := by
  obtain ⟨refusal, hrefusal, rfl⟩ := Option.map_eq_some_iff.1 h
  exact ⟨_, answer_of_refusal hrefusal, rfl⟩

/-! ### The second delivery -/

/-- A node takes in an update that leaves the routes of the receiver as they are.  It chooses anew
for the prefixes that are reported, and for all others everything stays. -/
theorem Tidy.leadsBest_of_again (h : n.Tidy) (hlistens : n.ListensTo account s session)
    {d : Delivery} (hd : d.Readable n.codec) {changed : List Prefix}
    (happlied : (session.receiver.apply d.now (d.update.admitted n.settings)).2 = .applied changed)
    (hroutes : ∀ p, (session.receiver.apply d.now (d.update.admitted n.settings)).1.route? p =
      session.receiver.route? p) :
    n.answer d.now account d.packet = .ok accepted ∧
      ∀ p, (n.move (d.move account)).LeadsBest p ↔ p ∈ changed ∨ n.LeadsBest p := by
  let m := n.setReceiver s (session.receiver.apply d.now (d.update.admitted n.settings)).1
  have hunsettles : Unsettles [] n m :=
    setReceiver_unsettles hlistens.session?_eq (Receiver.apply_peer ..)
      (fun hown p r hr => hown p r (hroutes p ▸ hr)) fun p _ => hroutes p
  have htidy : m.Tidy := hunsettles.tidy h
  have hhandled : n.handlePacket d.now account d.packet = m.integrate changed :=
    (hlistens.handlePacket_eq hd).trans
      (handleUpdate_of_applied hlistens.receivesRoutes hd.decodeUpdate_eq happlied)
  obtain ⟨hok, hcoherent⟩ := htidy.recomputeAll changed
  refine ⟨?_, fun p => ?_⟩
  · dsimp only [answer, handlePrepare]
    rw [hhandled, integrate_of_ok hok]
  · have hmove : n.move (d.move account) = (m.recomputeAll changed).1 := by
      show (n.handlePacket d.now account d.packet).node = _
      rw [hhandled, integrate_node]
    rw [hmove]
    by_cases hp : p ∈ changed
    · exact iff_of_true (hcoherent p (.inl hp)).leadsBest (.inl hp)
    · have hretabled := recomputeAll_retabled m changed
      have hsame : (m.recomputeAll changed).1.LeadsBest p ↔ m.LeadsBest p :=
        leadsBest_congr (by rw [hretabled]) (by rw [hretabled]) (hretabled.bestPeerRoute p)
          (by rw [hretabled]) (get?_localTable_recomputeAll hp m)
      have hbefore : m.LeadsBest p ↔ n.LeadsBest p :=
        leadsBest_congr rfl rfl
          (h.bestPeerRoute_congr rfl (hunsettles.peerRoutes h.toOrderly p List.not_mem_nil)) rfl rfl
      rw [hsame, hbefore]
      exact ⟨.inr, fun hmem => hmem.resolve_left hp⟩

/-- An update of a tracked account is answered with an internal error; then the directory comes to
know every account with an open session, and the same update is delivered again.  Now it is
accepted.  Afterwards the route in use for a prefix leads where the best route leads, if and only if
the update withdraws the prefix or brings different routes for it, or this was so already before the
second delivery. -/
theorem leadsBest_iff_of_retry {settings : Settings} {directory : Directory} {codec : Codec}
    {filter : Option (Prefix → Route → Bool)} {id : TableId} {links : List Link} {moves : List Move}
    (hmoves : Along (fun n m => m.KeepsOrder n) (fresh settings directory codec filter id links)
      moves)
    {now : Timestamp} {account : AccountId} {packet : Prepare} {reject : Reject}
    (hfailed : ((fresh settings directory codec filter id links).run moves).answer now account
      packet = .error reject)
    (hcode : reject.code = .internalError) {repairedDirectory : Directory}
    (hknows : ∀ a s, (a, s) ∈ ((fresh settings directory codec filter id links).run moves).tracked →
      repairedDirectory.knows a = true)
    {now' : Timestamp} {packet' : Prepare} (henvelope : checkEnvelope packet' now' = .ok ())
    (hdestination : packet'.destination = packet.destination)
    (hdata : packet'.data = packet.data) :
    let n := (fresh settings directory codec filter id links).run moves
    let repaired := (n.move (.packet now account packet)).move (.direct repairedDirectory)
    let retried := repaired.move (.packet now' account packet')
    ∃ u, n.codec.decodeUpdate packet.data = .ok u ∧
      repaired.answer now' account packet' = .ok accepted ∧
      ∀ p, retried.LeadsBest p ↔ (u.admitted n.settings).ReportsAgain p ∨ repaired.LeadsBest p := by
  intro n repaired retried
  have horderly : n.Orderly :=
    hmoves.induction (fun _ m _ hm h => h.move_of_keepsOrder hm) (tidy_fresh ..).toOrderly
  obtain ⟨s, session, u, changed, hlistens, hreadable, happlied⟩ :=
    listensTo_of_handlePacket (refusal_of_internalError hfailed hcode)
  refine ⟨u, hreadable.decodeUpdate_eq, ?_⟩
  -- The receiver has taken the update in, whatever became of the choices.
  have hfirst : n.move (.packet now account packet) =
      n.receive s session.receiver now (u.admitted n.settings) := hlistens.move_eq hreadable
  obtain ⟨hlistens', hsettings, hcodec⟩ := hlistens.receive now (u.admitted n.settings)
  rw [← hfirst] at hlistens' hsettings hcodec
  have htidy : repaired.Tidy := by
    refine ⟨(horderly.move_of_keepsOrder (m := .packet now account packet) trivial).congr rfl rfl,
      fun a t hmem => hknows a t ?_⟩
    have htracked : (n.move (.packet now account packet)).tracked = n.tracked := by
      rw [hfirst, receive, recomputeAll_retabled]
      rfl
    exact htracked ▸ hmem
  have hlistens'' : repaired.ListensTo account s
      { session with receiver := (session.receiver.apply now (u.admitted n.settings)).1 } :=
    ⟨hlistens'.trackedSession?_eq, hlistens'.session?_eq, hlistens'.receivesRoutes⟩
  have hreadable' : Delivery.Readable repaired.codec ⟨⟨now', u⟩, packet'⟩ := by
    refine ⟨hdestination.trans hreadable.destination_eq, henvelope, ?_⟩
    show (n.move (.packet now account packet)).codec.decodeUpdate packet'.data = .ok u
    rw [hcodec, hdata]
    exact hreadable.decodeUpdate_eq
  have hsettings' : repaired.settings = n.settings := hsettings
  obtain ⟨changed', happlied', hroutes, hreports⟩ := Receiver.apply_again happlied now'
  obtain ⟨haccepted, hleads⟩ := htidy.leadsBest_of_again hlistens'' hreadable'
    (by rw [hsettings']; exact happlied') (by rw [hsettings']; exact hroutes)
  refine ⟨haccepted, fun p => ?_⟩
  rw [← hreports]
  exact hleads p

/-! ### A peer that is missing from the directory for a while -/

/-- The peer of the small node is connected and then deleted from the directory. -/
def peerDeleted : List Move :=
  [.event ⟨smallPeer.id, .connected⟩, .direct (smallDirectory.removeAccount smallPeer.id)]

/-- The peer's first update brings two routes for the same prefix. -/
def doubled : Delivery :=
  let first : AdvertisedRoute := ⟨remote, [peerAddress], .replicate 3⟩
  let update := { (routeThrough [] 0).update with
    newRoutes := first :: (routeThrough [] 0).update.newRoutes }
  { now := .origin
    update := update
    packet := messagePacket updateDestination update.toTree.write .origin }

theorem leadsBest_of_doubled :
    let n := small.run peerDeleted
    let again : Move := .packet doubled.now smallPeer.id doubled.packet
    let repaired := (n.move again).move (.direct smallDirectory)
    Along (fun n m => m.KeepsOrder n) small peerDeleted ∧
      (∃ reject, n.answer doubled.now smallPeer.id doubled.packet = .error reject ∧
        reject.code = .internalError) ∧
      (∀ a s, (a, s) ∈ n.tracked → smallDirectory.knows a = true) ∧
      checkEnvelope doubled.packet doubled.now = .ok () ∧
      repaired.answer doubled.now smallPeer.id doubled.packet = .ok accepted ∧
      (repaired.move again).LeadsBest remote := by
  have horder : Along (fun n m => m.KeepsOrder n) small peerDeleted := ⟨trivial, trivial, trivial⟩
  have hknows : ∀ a s, (a, s) ∈ (small.run peerDeleted).tracked →
      smallDirectory.knows a = true := by
    have htracked : (small.run peerDeleted).tracked = [(smallPeer.id, ⟨0⟩)] := by decide +kernel
    intro a s hmem
    rw [htracked, List.mem_singleton] at hmem
    cases hmem
    decide
  have henvelope : checkEnvelope doubled.packet doubled.now = .ok () := by decide +kernel
  obtain ⟨reject, hreject, hcode⟩ : ∃ reject,
      (small.run peerDeleted).answer doubled.now smallPeer.id doubled.packet = .error reject ∧
        reject.code = .internalError := exists_reject_of_code (by decide +kernel)
  obtain ⟨u, hu, haccepted, hleads⟩ :=
    leadsBest_iff_of_retry horder hreject hcode hknows henvelope rfl rfl
  have hdoubled : u = doubled.update := by
    have hdecode : (small.run peerDeleted).codec.decodeUpdate doubled.packet.data =
        .ok doubled.update := by decide +kernel
    exact Except.ok.inj (hu.symm.trans hdecode)
  have hreports : (u.admitted (small.run peerDeleted).settings).ReportsAgain remote := by
    rw [hdoubled]
    exact .inr ⟨⟨remote, [peerAddress], .replicate 3⟩, by decide +kernel⟩
  exact ⟨horder, ⟨reject, hreject, hcode⟩, hknows, henvelope, haccepted,
    (hleads remote).2 (.inl hreports)⟩

/-- The peer's first update brings one route.  The second delivery is accepted, but the route does
not come into use. -/
theorem nextHop_of_retry :
    let n := small.run peerDeleted
    let d := routeThrough [] 0
    let repaired := (n.move (d.move smallPeer.id)).move (.direct smallDirectory)
    let retried := repaired.move (d.move smallPeer.id)
    (∃ reject, n.answer d.now smallPeer.id d.packet = .error reject ∧
        reject.code = .internalError) ∧
      (∀ t ∈ n.tracked, smallDirectory.knows t.1 = true) ∧
      repaired.answer d.now smallPeer.id d.packet = .ok accepted ∧
      remote ∈ d.update.newRoutes.map (·.target) ∧
      (retried.bestRoute remote).toOption.join.map Route.nextHop = some smallPeer.id ∧
      retried.localTable.get? remote = none ∧ ¬retried.LeadsBest remote := by
  intro n d repaired retried
  obtain ⟨hknows, haccepted, hnamed, hbest, hlocal⟩ :
      (∀ t ∈ n.tracked, smallDirectory.knows t.1 = true) ∧
      repaired.answer d.now smallPeer.id d.packet = .ok accepted ∧
      remote ∈ d.update.newRoutes.map (·.target) ∧
      (retried.bestRoute remote).toOption.join.map Route.nextHop = some smallPeer.id ∧
      retried.localTable.get? remote = none := by
    decide +kernel
  refine ⟨exists_reject_of_code (by decide +kernel), hknows, haccepted, hnamed, hbest, hlocal, ?_⟩
  rintro ⟨best, hok, hleads⟩
  rw [hok] at hbest
  rw [hlocal] at hleads
  cases hleads.trans hbest

end Node

end RouteSync
