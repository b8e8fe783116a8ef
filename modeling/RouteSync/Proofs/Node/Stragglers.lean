import RouteSync.Proofs.Node.Listeners

/-!
# Events that come too late

The node learns of its links from events that wait in a queue (`Move.ViaQueue`).  An account that is
unregistered has no listener any more, so that no event of its link gets into the queue
(`Wired.not_emitted`).  But what was in the queue before is still there.  If a link that came up is
among that, the account is tracked once more when the event is dealt with (`isSome_of_waiting`), and
with no listener left it will not be known when the link goes down.

This is the only way.  Without such an event in the queue the account is `Forgotten`, and it stays
so until it is registered again (`Forgotten.run`).
-/

namespace RouteSync.Node

variable {n n' : Node} {a : AccountId} {m : Move}

/-! ### Who is tracked -/

/-- The moves that track and untrack nobody. -/
def Move.SparesTracked : Move → Prop
  | .shutdown | .unregister _ | .nextEvent | .event _ | .track _ => False
  | _ => True

theorem move_tracked (n : Node) (hm : m.SparesTracked) : (n.move m).tracked = n.tracked := by
  cases m with
  | start => exact ((start_aside n).sameSenders.tracked).trans (reload_sameSenders n).tracked
  | register account => exact (register_aside n account).sameSenders.tracked
  | reload => exact (reload_sameSenders n).tracked
  | updatePrefix p =>
    show ((n.recompute p).toOption.getD n).tracked = n.tracked
    cases hp : n.recompute p with
    | error e => rfl
    | ok n' => exact (recompute_retabled hp).sameSenders.tracked
  | listen => exact (listen_aside n).sameSenders.tracked
  | emit link event => exact (emit_aside n link event).sameSenders.tracked
  | packet now account packet =>
    show (n.handlePacket now account packet).node.tracked = n.tracked
    rcases handlePacket_node_cases n now account packet with
      hsame | ⟨s, session, -, -, -, ⟨-, request, hnode⟩ | ⟨-, -, u, -, hnode⟩⟩
    · rw [hsame]
    · rw [hnode]
      rfl
    · rw [hnode]
      exact (receive_sameSenders n s _ now _).tracked
  | begin now clock task =>
    cases task with
    | requestRoutes s => rw [move, begin_requestRoutes]
    | sendUpdate s => rw [move, begin_sendUpdate]
    | finishConnect s => exact (finishConnect_sender? n clock s).1
    | expire s => exact (expireSession_sameSenders n s).tracked
  | settle outbound answer =>
    show (n.settle outbound answer).1.tracked = n.tracked
    rw [settle_node]
    rfl
  | setConnected link connected => rfl
  | setDeadline loop deadline => rfl
  | codec codec => rfl
  | addLink link => rfl
  | filter filter => rfl
  | configure settings => rfl
  | direct directory => rfl
  | useSession s use => rfl
  | _ => exact hm.elim

/-- An event tracks no account but that of a link that came up. -/
theorem trackedSession?_handleEvent {event : LinkEvent} (ha : n.trackedSession? a = none)
    (hevent : event ≠ ⟨a, .connected⟩) : (n.handleEvent event).1.trackedSession? a = none := by
  obtain ⟨account, change⟩ := event
  cases change with
  | connected =>
    have hne : a ≠ account := fun h => hevent (by rw [h])
    simp only [handleEvent]
    cases hconnect : n.connect account with
    | error e => exact ha
    | ok result =>
      obtain ⟨n', tasks⟩ := result
      rcases connect_eq_ok hconnect with ⟨rfl, -⟩ | ⟨known, link, s, hknown, htrack, -⟩
      · exact ha
      · have hid : known.id = account := id_of_account? hknown
        show n'.trackedSession? a = none
        rw [trackedSession?_track htrack]
        exact (if_neg fun h => hne (h.trans hid)).trans ha
  | disconnected =>
    show (n.untrack account).1.trackedSession? a = none
    rw [trackedSession?_untrack, ha, ite_self]
  | failed message => exact ha

/-! ### Events that wait -/

/-- The moves in which the node learns of its links through its queue alone: from a link come events
of the account whose link it is, and nobody else opens sessions. -/
def Move.ViaQueue (n : Node) : Move → Prop
  | .event _ | .track _ => False
  | .emit link happened => ∀ owner, n.linkOwner? link = some owner → happened.account = owner
  | .addLink link => link.listeners = []
  | .direct directory => n.OffersFit Eq directory
  | _ => True

theorem Move.ViaQueue.wires (hm : m.ViaQueue n) : m.Wires Eq n := by
  cases m with
  | addLink link => exact hm
  | direct directory => exact hm
  | _ => trivial

theorem events_register (n : Node) (account : AccountId) :
    (n.register account).1.events = n.events := by
  rcases n.register_cases account with ⟨-, heq⟩ | ⟨-, -, e, heq⟩ | ⟨l, -, -, -, heq⟩
  · rw [heq]
  · rw [heq]
  · rw [heq]
    rfl

theorem events_unregister (n : Node) (account : AccountId) :
    (n.unregister account).1.events = n.events := by
  rw [unregister, (untrack_sameLinks _ account).events]
  rcases n.unsubscribe_cases account with ⟨-, heq⟩ | ⟨s, -, heq⟩
  · rw [heq]
  · rw [heq]
    rfl

theorem events_shutdown (n : Node) : n.shutdown.events = n.events :=
  List.foldlRecOn (motive := fun n' : Node => n'.events = n.events) _ _ rfl
    fun n' h account _ => (events_unregister n' account).trans h

theorem events_start (n : Node) : n.start.1.events = n.events := by
  have hreload := (reload_sameLinks n).events
  rcases n.start_cases with ⟨-, -, heq⟩ | ⟨-, heq⟩
  · rw [heq]
    exact hreload
  · rw [heq]
    exact List.foldlRecOn (motive := fun n' : Node => n'.events = n.events) _ _ hreload
      fun n' h account _ => (events_register n' account.id).trans h

/-- Events get into the queue from links only. -/
theorem mem_events_move {event : LinkEvent} (h : event ∈ (n.move m).events) :
    event ∈ n.events ∨
      ∃ l link, m = .emit l event ∧ n.link? l = some link ∧ link.listeners ≠ [] := by
  by_cases hspares : m.SparesLinks
  · exact .inl ((move_sameLinks n hspares).events ▸ h)
  cases m with
  | start => exact .inl (events_start n ▸ h)
  | shutdown => exact .inl (events_shutdown n ▸ h)
  | register account => exact .inl (events_register n account ▸ h)
  | unregister account => exact .inl (events_unregister n account ▸ h)
  | setConnected link connected => exact .inl h
  | addLink link => exact .inl h
  | direct directory => exact .inl h
  | listen =>
    rw [move_listen] at h
    exact .inl h
  | nextEvent =>
    rcases n.move_nextEvent_cases with heq | ⟨first, rest, -, hevents, heq⟩
    · rw [heq] at h
      exact .inl h
    · rw [heq, (handleEvent_sameLinks _ first).events] at h
      rw [hevents]
      exact .inl (List.mem_cons_of_mem first h)
  | emit l emitted =>
    rcases n.move_emit_cases l emitted with heq | ⟨link, hlink, heq⟩
    · rw [heq] at h
      exact .inl h
    · rw [heq] at h
      rcases List.mem_append.1 h with hold | hnew
      · exact .inl hold
      · obtain ⟨id, hid, rfl⟩ := List.mem_map.1 hnew
        exact .inr ⟨l, link, rfl, hlink, List.ne_nil_of_mem hid⟩
  | _ => exact absurd trivial hspares

/-- From the link of an account that is not registered no events get into the queue. -/
theorem Wired.not_emitted (h : n.Wired Eq) (ha : n.linkFor? a = none) {l : LinkId} {link : Link}
    (hlink : n.link? l = some link) (hlisteners : link.listeners ≠ []) : link.account ≠ a := by
  rintro rfl
  obtain ⟨id, hid⟩ := List.exists_mem_of_ne_nil _ hlisteners
  rw [h.listeners_eq l link hlink, List.mem_map] at hid
  obtain ⟨s, hs, -⟩ := hid
  obtain ⟨hs, hsl⟩ := List.mem_filter.1 hs
  obtain ⟨owner, howner, hfit⟩ := h.linked s hs
  rw [beq_iff_eq.1 hsl, linkOwner?, hlink] at howner
  cases howner
  have hregistered := isSome_linkFor?_iff.2 (List.mem_map.2 ⟨s, hs, hfit⟩)
  rw [ha] at hregistered
  cases hregistered

/-! ### Accounts that are forgotten -/

/-- The account is not tracked, and no event waits that would track it. -/
structure Forgotten (a : AccountId) (n : Node) : Prop where
  untracked : n.trackedSession? a = none
  none_waiting : ⟨a, .connected⟩ ∉ n.events

theorem Forgotten.move (h : n.Forgotten a) (hwired : n.Wired Eq) (ha : n.linkFor? a = none)
    (hm : m.ViaQueue n) : (n.move m).Forgotten a := by
  refine ⟨?_, fun hwaiting => ?_⟩
  · cases m with
    | shutdown =>
      show n.shutdown.trackedSession? a = none
      rw [shutdown, trackedSession?_unregisterAll, h.untracked, ite_self]
    | unregister account =>
      show (n.unregister account).1.trackedSession? a = none
      rw [trackedSession?_unregister, h.untracked, ite_self]
    | nextEvent =>
      rcases n.move_nextEvent_cases with heq | ⟨first, rest, -, hevents, heq⟩
      · rw [heq]
        exact h.untracked
      · have hfirst : first ≠ ⟨a, .connected⟩ := by
          rintro rfl
          exact h.none_waiting (hevents ▸ List.mem_cons_self)
        rw [heq]
        exact trackedSession?_handleEvent (n := { n with events := rest }) h.untracked hfirst
    | event event => exact hm.elim
    | track session => exact hm.elim
    | _ =>
      rw [trackedSession?, move_tracked n (by trivial)]
      exact h.untracked
  · rcases mem_events_move hwaiting with hold | ⟨l, link, rfl, hlink, hlisteners⟩
    · exact h.none_waiting hold
    · refine hwired.not_emitted ha hlink hlisteners ?_
      exact (hm link.account (by rw [linkOwner?, hlink]; rfl)).symm

/-- As long as it is not registered again, a forgotten account stays so. -/
theorem Forgotten.run {moves : List Move} (h : n.Forgotten a) (hwired : n.Wired Eq)
    (hmoves : Along (fun n m => m.ViaQueue n ∧ n.linkFor? a = none) n moves) :
    (n.run moves).Forgotten a := by
  have hboth := hmoves.induction (motive := fun n => n.Wired Eq ∧ n.Forgotten a)
    (fun n m _ hm hn => ⟨hn.1.move hm.1.wires, hn.2.move hn.1 hm.2 hm.1⟩) ⟨hwired, h⟩
  exact hboth.2

/-! ### Accounts that are tracked once more -/

/-- The account is one that routes are exchanged with, and its link is up. -/
def Connectable (a : AccountId) (n : Node) : Prop :=
  ∃ account link l, n.directory.account? a = some account ∧
    (account.sendsRoutes = true ∨ account.receivesRoutes = true) ∧
    n.directory.link? a = some l ∧ n.link? l = some link ∧ link.connected = true

theorem Connectable.congr (h : n.Connectable a) (hsame : SameLinks n n') : n'.Connectable a := by
  rw [Connectable, hsame.directory]
  simp only [link?, hsame.links]
  exact h

/-- When the link of such an account comes up, the account is tracked. -/
theorem Connectable.connect (h : n.Connectable a) :
    ∃ result, n.connect a = .ok result ∧ (result.1.trackedSession? a).isSome = true := by
  obtain ⟨account, link, l, haccount, hexchanges, hl, hlink, hup⟩ := h
  cases htracked : n.trackedSession? a with
  | some s =>
    refine ⟨(n, if (n.session? s).any (·.account.receivesRoutes) then [.requestRoutes s] else []),
      ?_, by rw [htracked]; rfl⟩
    simp only [Node.connect, hl, hlink, Option.any_some, hup, htracked]
    rfl
  | none =>
    have hid := id_of_account? haccount
    obtain ⟨⟨n', s⟩, htrack⟩ : ∃ result, n.track (newSession account l) = .ok result := by
      simp only [track, newSession, hid, htracked]
      exact ⟨_, rfl⟩
    have hexchanges : (!account.sendsRoutes && !account.receivesRoutes) = false := by
      rcases hexchanges with hsends | hreceives
      · rw [hsends]
        rfl
      · rw [hreceives, Bool.not_true, Bool.and_false]
    refine ⟨(n', (if account.receivesRoutes then [.requestRoutes s] else []) ++
      [.finishConnect s]), ?_, ?_⟩
    · simp only [Node.connect, hl, hlink, Option.any_some, hup, htracked, haccount, hexchanges,
        htrack]
      rfl
    · rw [trackedSession?_track htrack]
      exact congrArg Option.isSome (if_pos hid.symm)

theorem Connectable.handleEvent (h : n.Connectable a) :
    ((n.handleEvent ⟨a, .connected⟩).1.trackedSession? a).isSome = true := by
  obtain ⟨result, hconnect, htracked⟩ := h.connect
  simp only [Node.handleEvent, hconnect]
  exact htracked

/-- If a link that came up is among what waits, its account is tracked when that is dealt with. -/
theorem isSome_of_waiting {before after : List LinkEvent} (ha : n.Connectable a)
    (hlistening : n.listening = true) (hevents : n.events = before ++ ⟨a, .connected⟩ :: after) :
    ((n.run (List.replicate (before.length + 1) .nextEvent)).trackedSession? a).isSome = true := by
  induction before generalizing n with
  | nil =>
    show ((n.move .nextEvent).trackedSession? a).isSome = true
    rw [move_nextEvent_eq hlistening hevents]
    exact Connectable.handleEvent (n := { n with events := after }) ha
  | cons first before ih =>
    show (((n.move .nextEvent).run _).trackedSession? a).isSome = true
    rw [move_nextEvent_eq hlistening hevents]
    let popped : Node := { n with events := before ++ ⟨a, .connected⟩ :: after }
    have hpopped : popped.Connectable a := ha
    have hsame := handleEvent_sameLinks popped first
    exact ih (hpopped.congr hsame) (hsame.listening.trans hlistening) hsame.events

/-! ### After an account was unregistered -/

/-- **Accounts that are unregistered stay untracked, but for stragglers.**  Link events reach the
node through its queue alone.  Let an account be unregistered, or the node be shut down.

Then the account is not tracked, unless it was tracked without being registered when the node was
shut down.  If no event is left in the queue that says that its link came up, it remains untracked
until it is registered again, whatever happens.  But if there is one, and the link is still up, the
account is tracked again once somebody has looked at what is in the queue. -/
theorem untracked_of_unregistered {settings : Settings} {directory : Directory} {codec : Codec}
    {filter : Option (Prefix → Route → Bool)} {id : TableId} {links : List Link}
    {moves : List Move} (hlinks : ∀ link ∈ links, link.listeners = [])
    (hdirectory : (fresh settings directory codec filter id links).OffersFit Eq directory)
    (hmoves : Along Move.ViaQueue (fresh settings directory codec filter id links) moves)
    {last : Move} (hlast : last = .unregister a ∨ last = .shutdown) :
    let n := (fresh settings directory codec filter id links).run moves
    let n' := n.move last
    (n'.trackedSession? a = none ↔
        last = .unregister a ∨ (n.linkFor? a).isSome = true ∨ n.trackedSession? a = none) ∧
      (n'.trackedSession? a = none → ⟨a, .connected⟩ ∉ n.events →
        ∀ after, Along (fun n m => m.ViaQueue n ∧ n.linkFor? a = none) n' after →
          (n'.run after).trackedSession? a = none) ∧
      ∀ earlier later, n.events = earlier ++ ⟨a, .connected⟩ :: later → n'.Connectable a →
        ((n'.run (.listen :: List.replicate (earlier.length + 1) .nextEvent)).trackedSession?
          a).isSome = true := by
  intro n n'
  have hwired : n.Wired Eq :=
    hmoves.induction (fun _ _ _ hm h => h.move hm.wires) (wired_fresh hlinks hdirectory)
  have hlastQueue : last.ViaQueue n := by
    rcases hlast with rfl | rfl <;> trivial
  have hevents : n'.events = n.events := by
    rcases hlast with rfl | rfl
    · exact events_unregister n a
    · exact events_shutdown n
  refine ⟨?_, fun huntracked hnone after hafter => ?_,
    fun earlier later hsplit hconnectable => ?_⟩
  · rcases hlast with rfl | rfl
    · exact iff_of_true ((trackedSession?_unregister n a a).trans (if_pos rfl)) (.inl rfl)
    · show n.shutdown.trackedSession? a = none ↔ _
      rw [shutdown, trackedSession?_unregisterAll, isSome_linkFor?_iff]
      split
      · rename_i hregistered
        exact iff_of_true rfl (.inr (.inl hregistered))
      · rename_i hunregistered
        rw [or_iff_right Move.noConfusion, or_iff_right hunregistered]
  · have hforgotten : n'.Forgotten a := ⟨huntracked, hevents ▸ hnone⟩
    exact (hforgotten.run (hwired.move hlastQueue.wires) hafter).untracked
  · show (((n'.move .listen).run _).trackedSession? a).isSome = true
    rw [move_listen]
    exact isSome_of_waiting (n := { n' with listening := true }) hconnectable rfl
      (hevents.trans hsplit)

/-- The peer of the small node is tracked when its link comes up, and unregistered when the link has
gone down again, before the node has seen that. -/
theorem untracked_of_visitor :
    let moves := [.listen, .register smallPeer.id, .emit ⟨0⟩ ⟨smallPeer.id, .connected⟩, .nextEvent,
      .emit ⟨0⟩ ⟨smallPeer.id, .disconnected⟩]
    let n := small.run moves
    let n' := n.move (.unregister smallPeer.id)
    (∀ link ∈ small.links, link.listeners = []) ∧ small.OffersFit Eq smallDirectory ∧
      Along Move.ViaQueue small moves ∧ n.trackedSession? smallPeer.id = some ⟨0⟩ ∧
      n.events = [⟨smallPeer.id, .disconnected⟩] ∧
      ∀ after, Along (fun n m => m.ViaQueue n ∧ n.linkFor? smallPeer.id = none) n' after →
        (n'.run after).trackedSession? smallPeer.id = none := by
  intro moves n n'
  have hlinks : ∀ link ∈ small.links, link.listeners = [] := by decide +kernel
  have hdirectory : small.OffersFit Eq smallDirectory := offersFit_of_all (by decide +kernel)
  have hmoves : Along Move.ViaQueue small moves := by
    refine ⟨trivial, trivial, ?_, trivial, ?_, trivial⟩
    all_goals exact fun owner howner => Option.some.inj howner
  have hlast : Move.unregister smallPeer.id = .unregister smallPeer.id ∨
      Move.unregister smallPeer.id = .shutdown := .inl rfl
  obtain ⟨huntracked, hforgotten, -⟩ :=
    untracked_of_unregistered hlinks hdirectory hmoves hlast
  have hevents : n.events = [⟨smallPeer.id, .disconnected⟩] := by decide +kernel
  refine ⟨hlinks, hdirectory, hmoves, by decide +kernel, hevents, ?_⟩
  refine hforgotten (huntracked.2 (.inl rfl)) ?_
  show ⟨smallPeer.id, .connected⟩ ∉ n.events
  rw [hevents]
  decide

/-- The peer of the small node is unregistered while the event that its link came up waits.  It is
tracked afterwards, and nothing tells the node when the link goes down. -/
theorem trackedSession?_of_straggler :
    let n := small.run [.register smallPeer.id, .emit ⟨0⟩ ⟨smallPeer.id, .connected⟩,
      .unregister smallPeer.id]
    let n' := n.run [.listen, .nextEvent]
    n.trackedSession? smallPeer.id = none ∧ n.linkFor? smallPeer.id = none ∧
      n'.trackedSession? smallPeer.id = some ⟨0⟩ ∧ n'.linkFor? smallPeer.id = none ∧
      (n'.emit ⟨0⟩ ⟨smallPeer.id, .disconnected⟩).events = [] := by
  decide +kernel

end RouteSync.Node
