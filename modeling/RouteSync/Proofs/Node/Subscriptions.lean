import RouteSync.Proofs.Node.Run

/-!
# Registered accounts

An account is registered on the link that the directory has for it at that moment.  It stays
registered there, whatever becomes of the directory, until it is unregistered or the node is shut
down (`register_cases`, `unsubscribe_cases`).  So the links on which accounts are registered can be
read off the calls and their success (`enrolments`, `linkFor?_run`).

Most moves have nothing to do with that.  They leave links, subscriptions, waiting events and the
directory alone (`move_sameLinks`).
-/

namespace RouteSync.Node

variable {n n' n'' : Node}

/-! ### Links -/

theorem link?_modifyLink (n : Node) (l : LinkId) (f : Link → Link) (l' : LinkId) :
    (n.modifyLink l f).link? l' = if l' = l then (n.link? l').map f else n.link? l' := by
  show (n.links.modify l.index f)[l'.index]? = _
  rw [List.getElem?_modify]
  by_cases hl : l' = l
  · rw [if_pos hl, hl]
    simp [link?]
  · have hindex : l.index ≠ l'.index := fun h => hl (by cases l; cases l'; simpa using h.symm)
    rw [if_neg hl]
    simp [link?, hindex]

/-- A link after a change of some link was there before. -/
theorem link?_of_modifyLink {l l' : LinkId} {f : Link → Link} {link' : Link}
    (h : (n.modifyLink l f).link? l' = some link') :
    ∃ link, n.link? l' = some link ∧ link' = if l' = l then f link else link := by
  rw [link?_modifyLink] at h
  split at h
  · rename_i hl
    obtain ⟨link, hlink, hchanged⟩ := Option.map_eq_some_iff.1 h
    exact ⟨link, hlink, by rw [if_pos hl, hchanged]⟩
  · rename_i hl
    exact ⟨link', h, by rw [if_neg hl]⟩

/-- Two nodes that agree on the links, on what the directory says about them, on the subscriptions
and on the events that wait. -/
structure SameLinks (n n' : Node) : Prop where
  directory : n'.directory = n.directory
  links : n'.links = n.links
  subscriptions : n'.subscriptions = n.subscriptions
  nextListener : n'.nextListener = n.nextListener
  events : n'.events = n.events
  listening : n'.listening = n.listening

theorem SameLinks.refl (n : Node) : SameLinks n n :=
  ⟨rfl, rfl, rfl, rfl, rfl, rfl⟩

theorem SameLinks.trans (h : SameLinks n n') (h' : SameLinks n' n'') : SameLinks n n'' where
  directory := h'.directory.trans h.directory
  links := h'.links.trans h.links
  subscriptions := h'.subscriptions.trans h.subscriptions
  nextListener := h'.nextListener.trans h.nextListener
  events := h'.events.trans h.events
  listening := h'.listening.trans h.listening

theorem Retabled.sameLinks (h : Retabled n n') : SameLinks n n' := by
  rw [h]
  exact ⟨rfl, rfl, rfl, rfl, rfl, rfl⟩

theorem modifySession_sameLinks (n : Node) (s : SessionId) (f : Session → Session) :
    SameLinks n (n.modifySession s f) :=
  ⟨rfl, rfl, rfl, rfl, rfl, rfl⟩

theorem track_sameLinks {session : Session} {s : SessionId} (h : n.track session = .ok (n', s)) :
    SameLinks n n' := by
  obtain ⟨-, -, rfl⟩ := track_eq_ok h
  exact ⟨rfl, rfl, rfl, rfl, rfl, rfl⟩

theorem reload_sameLinks (n : Node) : SameLinks n n.reload.1 := by
  unfold reload
  split
  · exact .refl n
  · rename_i routes hroutes
    have horiginated : SameLinks n
        { n with originated := routes.foldl RouteTable.insert RouteTable.empty } :=
      ⟨rfl, rfl, rfl, rfl, rfl, rfl⟩
    exact horiginated.trans (recomputeAll_retabled _ _).sameLinks

theorem untrack_sameLinks (n : Node) (account : AccountId) :
    SameLinks n (n.untrack account).1 := by
  cases hs : n.trackedSession? account with
  | none =>
    rw [untrack, hs]
    exact .refl n
  | some s =>
    have hdetach : SameLinks n (n.detach account s) := ⟨rfl, rfl, rfl, rfl, rfl, rfl⟩
    exact hdetach.trans (untrack_retabled hs).sameLinks

theorem handleEvent_sameLinks (n : Node) (event : LinkEvent) :
    SameLinks n (n.handleEvent event).1 := by
  unfold handleEvent
  split
  · split
    · rename_i hconnect
      rcases connect_eq_ok hconnect with ⟨rfl, -⟩ | ⟨a, link, s, -, htrack, -⟩
      · exact .refl _
      · exact track_sameLinks htrack
    · exact .refl n
  · exact untrack_sameLinks n event.account
  · exact .refl n

theorem handlePacket_sameLinks (n : Node) (now : Timestamp) (account : AccountId)
    (packet : Prepare) : SameLinks n (n.handlePacket now account packet).node := by
  rcases handlePacket_node_cases n now account packet with
    hsame | ⟨s, session, -, -, -, ⟨-, request, hnode⟩ | ⟨-, -, u, -, hnode⟩⟩
  · rw [hsame]
    exact .refl n
  · rw [hnode]
    exact modifySession_sameLinks n s _
  · rw [hnode]
    exact (modifySession_sameLinks n s _).trans (receive_retabled n s _ now _).sameLinks

theorem begin_sameLinks (n : Node) (now : Timestamp) (clock : Nat) (task : Task) :
    SameLinks n (n.begin now clock task).1 := by
  cases task with
  | requestRoutes s =>
    rw [begin_requestRoutes]
    exact .refl n
  | sendUpdate s =>
    rw [begin_sendUpdate]
    exact .refl n
  | finishConnect s =>
    show SameLinks n (n.finishConnect clock s)
    have hreload := reload_sameLinks n
    rcases finishConnect_cases n clock s with hstarted | hunstarted
    · rw [hstarted]
      exact hreload.trans ⟨rfl, rfl, rfl, rfl, rfl, rfl⟩
    · rw [hunstarted]
      exact hreload
  | expire s =>
    show SameLinks n (n.expireSession s)
    unfold expireSession
    split
    · exact .refl n
    · exact (modifySession_sameLinks n s _).trans (recomputeEach_retabled _ _).sameLinks

/-- The moves that do nothing to links, subscriptions, waiting events and directory. -/
def Move.SparesLinks : Move → Prop
  | .start | .shutdown | .register _ | .unregister _ | .listen | .nextEvent | .emit _ _
  | .setConnected _ _ | .addLink _ | .direct _ => False
  | _ => True

theorem move_sameLinks (n : Node) {m : Move} (hm : m.SparesLinks) : SameLinks n (n.move m) := by
  cases m with
  | reload => exact reload_sameLinks n
  | updatePrefix p =>
    show SameLinks n ((n.recompute p).toOption.getD n)
    cases hp : n.recompute p with
    | error e => exact .refl n
    | ok n' => exact (recompute_retabled hp).sameLinks
  | event event => exact handleEvent_sameLinks n event
  | packet now account packet => exact handlePacket_sameLinks n now account packet
  | begin now clock task => exact begin_sameLinks n now clock task
  | settle outbound answer =>
    show SameLinks n (n.settle outbound answer).1
    rw [settle_node]
    exact modifySession_sameLinks n outbound.session _
  | setDeadline loop deadline => exact ⟨rfl, rfl, rfl, rfl, rfl, rfl⟩
  | codec codec => exact ⟨rfl, rfl, rfl, rfl, rfl, rfl⟩
  | filter filter => exact ⟨rfl, rfl, rfl, rfl, rfl, rfl⟩
  | configure settings => exact ⟨rfl, rfl, rfl, rfl, rfl, rfl⟩
  | track session =>
    obtain ⟨sessions, tracked, hmove⟩ := move_track n session
    rw [hmove]
    exact ⟨rfl, rfl, rfl, rfl, rfl, rfl⟩
  | useSession s use => exact modifySession_sameLinks n s use
  | _ => exact hm.elim

theorem move_listen (n : Node) : n.move .listen = { n with listening := true } := by
  show n.listen.1 = _
  unfold listen
  split
  · rename_i hlistening
    rw [← hlistening]
  · rfl

/-- Each listener of the link puts the event into the queue. -/
theorem move_emit_cases (n : Node) (l : LinkId) (event : LinkEvent) :
    n.move (.emit l event) = n ∨ ∃ link, n.link? l = some link ∧
      n.move (.emit l event) =
        { n with events := n.events ++ link.listeners.map fun _ => event } := by
  cases hlink : n.link? l with
  | none =>
    refine .inl ?_
    simp only [move, emit, hlink]
  | some link =>
    refine .inr ⟨link, rfl, ?_⟩
    simp only [move, emit, hlink]

theorem move_nextEvent_eq {event : LinkEvent} {rest : List LinkEvent}
    (hlistening : n.listening = true) (hevents : n.events = event :: rest) :
    n.move .nextEvent = ({ n with events := rest }.handleEvent event).1 := by
  simp only [move, nextEvent, hlistening, hevents, if_true]

/-- Nothing happens unless somebody looks at events and there is one. -/
theorem move_nextEvent_cases (n : Node) :
    n.move .nextEvent = n ∨ ∃ event rest, n.listening = true ∧ n.events = event :: rest ∧
      n.move .nextEvent = ({ n with events := rest }.handleEvent event).1 := by
  by_cases hlistening : n.listening = true
  · cases hevents : n.events with
    | nil =>
      refine .inl ?_
      simp only [move, nextEvent, hlistening, hevents, if_true]
    | cons event rest =>
      exact .inr ⟨event, rest, hlistening, rfl, move_nextEvent_eq hlistening hevents⟩
  · refine .inl ?_
    simp only [move, nextEvent, hlistening, Bool.false_eq_true, if_false]

/-! ### Registered accounts -/

/-- The subscription for an account. -/
def subscription? (n : Node) (a : AccountId) : Option Subscription :=
  n.subscriptions.find? (·.account == a)

/-- The link that an account is registered on. -/
def linkFor? (n : Node) (a : AccountId) : Option LinkId :=
  (n.subscription? a).map (·.link)

/-- The listener for an account. -/
def listenerFor? (n : Node) (a : AccountId) : Option ListenerId :=
  (n.subscription? a).map (·.listener)

/-- The link that the directory has for an account that it knows. -/
def offeredLink? (n : Node) (a : AccountId) : Option LinkId :=
  if n.directory.knows a then n.directory.link? a else none

/-- The node with a subscription of an account to a link. -/
def subscribe (n : Node) (account : AccountId) (link : LinkId) : Node :=
  { n.modifyLink link (·.addListener ⟨n.nextListener⟩) with
    subscriptions := n.subscriptions ++ [⟨account, link, ⟨n.nextListener⟩⟩]
    nextListener := n.nextListener + 1 }

/-- The node without a subscription. -/
def cancel (n : Node) (s : Subscription) : Node :=
  { n.modifyLink s.link (·.removeListener s.listener) with
    subscriptions := n.subscriptions.filter (·.account != s.account) }

theorem subscription?_eq_none_iff {a : AccountId} :
    n.subscription? a = none ↔ n.linkFor? a = none :=
  Option.map_eq_none_iff.symm

theorem mem_of_subscription? {a : AccountId} {s : Subscription} (h : n.subscription? a = some s) :
    s ∈ n.subscriptions ∧ s.account = a := by
  rw [subscription?] at h
  have ha := List.find?_some h
  exact ⟨List.mem_of_find?_eq_some h, beq_iff_eq.1 ha⟩

theorem isSome_linkFor?_iff {a : AccountId} :
    (n.linkFor? a).isSome = true ↔ a ∈ n.subscriptions.map (·.account) := by
  rw [linkFor?, Option.isSome_map, subscription?, List.find?_isSome, List.mem_map]
  simp only [beq_iff_eq]

/-- Starting registers the accounts of the directory, unless the reload fails. -/
theorem start_cases (n : Node) :
    (∃ e, n.reload.2 = .error e ∧ n.start.1 = n.reload.1) ∨
      n.reload.2 = .ok () ∧ n.start.1 = n.reload.1.directory.accounts.foldl
        (fun n account => (n.register account.id).1) n.reload.1 := by
  unfold start
  split
  · rename_i e hreload
    exact .inl ⟨e, by rw [hreload], by rw [hreload]⟩
  · rename_i hreload
    exact .inr ⟨by rw [hreload], by rw [hreload]⟩

/-- Registering leaves an account that is registered, and fails without a link. -/
theorem register_cases (n : Node) (a : AccountId) :
    (n.linkFor? a).isSome = true ∧ n.register a = (n, .ok ()) ∨
      n.linkFor? a = none ∧ n.offeredLink? a = none ∧ (∃ e, n.register a = (n, .error e)) ∨
      ∃ l, n.linkFor? a = none ∧ n.offeredLink? a = some l ∧ n.directory.link? a = some l ∧
        n.register a = (n.subscribe a l, .ok ()) := by
  unfold register offeredLink?
  split
  · rename_i hany
    refine .inl ⟨?_, rfl⟩
    rw [linkFor?, Option.isSome_map, subscription?, List.find?_isSome]
    exact List.any_eq_true.1 hany
  · rename_i hany
    have hnone : n.linkFor? a = none := by
      rw [← subscription?_eq_none_iff, subscription?, List.find?_eq_none]
      exact fun s hs hsame => hany (List.any_eq_true.2 ⟨s, hs, hsame⟩)
    split
    · rename_i hunknown
      rw [Bool.not_eq_true'] at hunknown
      exact .inr (.inl ⟨hnone, by rw [hunknown]; rfl, _, rfl⟩)
    · rename_i hknown
      rw [Bool.not_eq_true', Bool.not_eq_false] at hknown
      rw [hknown, if_pos rfl]
      split
      · rename_i hlink
        exact .inr (.inl ⟨hnone, hlink, _, rfl⟩)
      · rename_i l hlink
        exact .inr (.inr ⟨l, hnone, hlink, hlink, rfl⟩)

theorem unsubscribe_cases (n : Node) (a : AccountId) :
    n.subscription? a = none ∧ n.unsubscribe a = n ∨
      ∃ s, n.subscription? a = some s ∧ n.unsubscribe a = n.cancel s := by
  unfold unsubscribe
  cases hs : n.subscription? a with
  | none =>
    rw [subscription?] at hs
    rw [hs]
    exact .inl ⟨rfl, rfl⟩
  | some s =>
    refine .inr ⟨s, rfl, ?_⟩
    obtain ⟨-, rfl⟩ := mem_of_subscription? hs
    rw [subscription?] at hs
    rw [hs]
    rfl

/-! ### The links of registered accounts -/

theorem SameLinks.linkFor? (h : SameLinks n n') : n'.linkFor? = n.linkFor? := by
  funext a
  rw [Node.linkFor?, subscription?, h.subscriptions]
  rfl

theorem SameLinks.offeredLink? (h : SameLinks n n') : n'.offeredLink? = n.offeredLink? := by
  funext a
  rw [Node.offeredLink?, h.directory]
  rfl

theorem linkFor?_subscribe {a : AccountId} (h : n.linkFor? a = none) (l : LinkId)
    (b : AccountId) : (n.subscribe a l).linkFor? b = if b = a then some l else n.linkFor? b := by
  show ((n.subscriptions ++ [(⟨a, l, ⟨n.nextListener⟩⟩ : Subscription)]).find?
    (·.account == b)).map (·.link) = _
  rw [List.find?_append, List.find?_singleton]
  by_cases hb : b = a
  · rw [← subscription?_eq_none_iff, subscription?] at h
    rw [hb, h, if_pos rfl, beq_self_eq_true, if_pos rfl]
    rfl
  · rw [if_neg hb, beq_false_of_ne (Ne.symm hb), if_neg Bool.false_ne_true, Option.or_none]
    rfl

theorem linkFor?_cancel (n : Node) (s : Subscription) (b : AccountId) :
    (n.cancel s).linkFor? b = if b = s.account then none else n.linkFor? b := by
  show ((n.subscriptions.filter (·.account != s.account)).find? (·.account == b)).map (·.link) = _
  rw [List.find?_filter]
  by_cases hb : b = s.account
  · rw [if_pos hb, Option.map_eq_none_iff, List.find?_eq_none]
    simp [hb]
  · have hsame : ∀ t : Subscription,
        decide ((t.account != s.account) = true ∧ (t.account == b) = true) = (t.account == b) := by
      intro t
      by_cases ht : t.account = b
      · simp [ht, hb]
      · simp [ht]
    rw [if_neg hb]
    simp only [hsame]
    rfl

theorem linkFor?_register (n : Node) (a b : AccountId) :
    (n.register a).1.linkFor? b =
      if b = a then (n.linkFor? b).or (n.offeredLink? b) else n.linkFor? b := by
  rcases n.register_cases a with
    ⟨hsome, heq⟩ | ⟨hnone, hoffer, e, heq⟩ | ⟨l, hnone, hoffer, -, heq⟩
  · rw [heq]
    split
    · rename_i hb
      obtain ⟨l, hl⟩ := Option.isSome_iff_exists.1 hsome
      rw [hb, hl, Option.some_or]
    · rfl
  · rw [heq]
    split
    · rename_i hb
      rw [hb, hnone, hoffer, Option.none_or]
    · rfl
  · rw [heq, linkFor?_subscribe hnone]
    split
    · rename_i hb
      rw [hb, hnone, hoffer, Option.none_or]
    · rfl

theorem linkFor?_unsubscribe (n : Node) (a b : AccountId) :
    (n.unsubscribe a).linkFor? b = if b = a then none else n.linkFor? b := by
  rcases n.unsubscribe_cases a with ⟨hnone, heq⟩ | ⟨s, hs, heq⟩
  · rw [heq]
    split
    · rename_i hb
      rw [hb, ← subscription?_eq_none_iff, hnone]
    · rfl
  · obtain ⟨-, hs⟩ := mem_of_subscription? hs
    rw [heq, linkFor?_cancel, hs]

theorem linkFor?_unregister (n : Node) (a b : AccountId) :
    (n.unregister a).1.linkFor? b = if b = a then none else n.linkFor? b := by
  rw [unregister, (untrack_sameLinks _ a).linkFor?, linkFor?_unsubscribe]

/-- Registering several accounts, those are registered that the directory has links for. -/
theorem linkFor?_registerAll (accounts : List Account) (n : Node) (b : AccountId) :
    (accounts.foldl (fun n account => (n.register account.id).1) n).linkFor? b =
      if b ∈ accounts.map (·.id) then (n.linkFor? b).or (n.offeredLink? b) else n.linkFor? b := by
  induction accounts generalizing n with
  | nil => rfl
  | cons account accounts ih =>
    have hoffer : (n.register account.id).1.offeredLink? b = n.offeredLink? b := by
      rw [offeredLink?, (register_aside n account.id).sameRouting.directory]
      rfl
    rw [List.foldl_cons, ih, hoffer, linkFor?_register, List.map_cons]
    by_cases hb : b = account.id
    · rw [if_pos hb, if_pos (List.mem_cons.2 (.inl hb)), Option.or_assoc, Option.or_self, ite_self]
    · simp only [hb, if_false, List.mem_cons, false_or]

theorem linkFor?_unregisterAll (accounts : List AccountId) (n : Node) (b : AccountId) :
    (accounts.foldl (fun n account => (n.unregister account).1) n).linkFor? b =
      if b ∈ accounts then none else n.linkFor? b := by
  induction accounts generalizing n with
  | nil => rfl
  | cons account accounts ih =>
    rw [List.foldl_cons, ih, linkFor?_unregister]
    by_cases hb : b = account
    · rw [if_pos hb, ite_self, if_pos (List.mem_cons.2 (.inl hb))]
    · simp only [hb, if_false, List.mem_cons, false_or]

theorem linkFor?_shutdown (n : Node) (b : AccountId) : n.shutdown.linkFor? b = none := by
  rw [shutdown, linkFor?_unregisterAll]
  split
  · rfl
  · rename_i hb
    rwa [← isSome_linkFor?_iff, Option.not_isSome_iff_eq_none] at hb

/-- The links that accounts are registered on after a move, by its success: a registered account
keeps its link, and another one gets the link that the directory has for it. -/
def Move.enrols (n : Node) (enrolled : AccountId → Option LinkId) : Move → AccountId → Option LinkId
  | .register account =>
    match (n.register account).2 with
    | .ok () => fun a =>
      if a = account then (enrolled a).or (n.directory.link? a) else enrolled a
    | .error _ => enrolled
  | .start =>
    match n.reload.2 with
    | .ok () => fun a =>
      if n.directory.knows a then (enrolled a).or (n.directory.link? a) else enrolled a
    | .error _ => enrolled
  | .unregister account => fun a => if a = account then none else enrolled a
  | .shutdown => fun _ => none
  | _ => enrolled

/-- The links that accounts are registered on after several moves. -/
def enrolments (n : Node) (enrolled : AccountId → Option LinkId) :
    List Move → AccountId → Option LinkId
  | [] => enrolled
  | m :: moves => (n.move m).enrolments (m.enrols n enrolled) moves

theorem linkFor?_start (n : Node) :
    (n.move .start).linkFor? = Move.start.enrols n n.linkFor? := by
  funext b
  show n.start.1.linkFor? b = _
  have hlinks := reload_sameLinks n
  rcases n.start_cases with ⟨e, hreload, heq⟩ | ⟨hreload, heq⟩
  · rw [heq, Move.enrols, hreload]
    exact congrFun hlinks.linkFor? b
  · have hknows : b ∈ n.reload.1.directory.accounts.map (·.id) ↔ n.directory.knows b = true := by
      rw [hlinks.directory, Directory.knows, Directory.account?, List.find?_isSome, List.mem_map]
      simp only [beq_iff_eq]
    rw [heq, Move.enrols, hreload, linkFor?_registerAll, hlinks.linkFor?, hlinks.offeredLink?]
    refine ite_congr (propext hknows) (fun hb => ?_) fun _ => rfl
    rw [offeredLink?, if_pos hb]

/-- After each move the accounts are registered on the links that its success tells. -/
theorem linkFor?_move (n : Node) (m : Move) : (n.move m).linkFor? = m.enrols n n.linkFor? := by
  funext b
  cases m with
  | start => exact congrFun (linkFor?_start n) b
  | shutdown => exact linkFor?_shutdown n b
  | register account =>
    show (n.register account).1.linkFor? b = _
    rw [linkFor?_register, Move.enrols]
    rcases n.register_cases account with
      ⟨hsome, heq⟩ | ⟨-, hoffer, e, heq⟩ | ⟨l, -, hoffer, hlink, heq⟩
    · obtain ⟨l, hl⟩ := Option.isSome_iff_exists.1 hsome
      rw [heq]
      refine ite_congr rfl (fun hb => ?_) fun _ => rfl
      rw [hb, hl, Option.some_or, Option.some_or]
    · rw [heq]
      refine ite_eq_right_iff.2 fun hb => ?_
      rw [hb, hoffer, Option.or_none]
    · rw [heq]
      refine ite_congr rfl (fun hb => ?_) fun _ => rfl
      rw [hb, hoffer, hlink]
  | unregister account => exact linkFor?_unregister n account b
  | listen =>
    rw [move_listen]
    rfl
  | nextEvent =>
    show (n.move .nextEvent).linkFor? b = n.linkFor? b
    rcases n.move_nextEvent_cases with heq | ⟨event, rest, -, -, heq⟩
    · rw [heq]
    · rw [heq, (handleEvent_sameLinks _ event).linkFor?]
      rfl
  | emit l event =>
    show (n.move (.emit l event)).linkFor? b = n.linkFor? b
    rcases n.move_emit_cases l event with heq | ⟨link, -, heq⟩
    · rw [heq]
    · rw [heq]
      rfl
  | setConnected link connected => rfl
  | addLink link => rfl
  | direct directory => rfl
  | _ => exact congrFun (move_sameLinks n (by trivial)).linkFor? b

theorem linkFor?_run (n : Node) (moves : List Move) :
    (n.run moves).linkFor? = n.enrolments n.linkFor? moves := by
  induction moves generalizing n with
  | nil => rfl
  | cons m moves ih =>
    rw [enrolments, ← linkFor?_move]
    exact ih (n.move m)

end RouteSync.Node
