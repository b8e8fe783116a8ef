import RouteSync.Proofs.Node.Silence
import RouteSync.Proofs.Node.Subscriptions
import RouteSync.Proofs.Node.Withdrawal

/-!
# Listeners

The node has a listener on a link for each account that is registered there.  Subscriptions and
listeners are `Wired` to each other: the listeners of a link are just those of the subscriptions to
it, and no account and no listener occurs in two subscriptions.  What is cancelled is therefore what
was subscribed to, although the directory may have another link by then (`Wired.cancel`).  So the
registered accounts and the listeners correspond to each other (`ListensFor`), in every run.

The links that the directory has for accounts should exist.  It may be asked as well that each of
them is a link of the account that the directory has it for (`OffersFit`).
-/

namespace RouteSync.Node

variable {n n' : Node} {fits : AccountId → AccountId → Prop}

/-! ### Wiring -/

/-- The account whose link it is. -/
def linkOwner? (n : Node) (l : LinkId) : Option AccountId :=
  (n.link? l).map (·.account)

/-- The links that the directory has for accounts exist, and each is fit for the account that it is
had for. -/
def OffersFit (fits : AccountId → AccountId → Prop) (n : Node) (directory : Directory) : Prop :=
  ∀ a l, directory.link? a = some l → ∃ owner, n.linkOwner? l = some owner ∧ fits a owner

/-- Subscriptions and listeners fit together, and the links that are subscribed to, or could be, are
fit for the accounts. -/
structure Wired (fits : AccountId → AccountId → Prop) (n : Node) : Prop where
  nodup_accounts : (n.subscriptions.map (·.account)).Nodup
  nodup_listeners : (n.subscriptions.map (·.listener)).Nodup
  issued : ∀ s ∈ n.subscriptions, s.listener.index < n.nextListener
  linked : ∀ s ∈ n.subscriptions, ∃ owner, n.linkOwner? s.link = some owner ∧ fits s.account owner
  offersFit : n.OffersFit fits n.directory
  listeners_eq : ∀ l link, n.link? l = some link →
    link.listeners = (n.subscriptions.filter (·.link == l)).map (·.listener)

/-- Whether links that appear, or that the directory has from now on, are in order. -/
def Move.Wires (fits : AccountId → AccountId → Prop) (n : Node) : Move → Prop
  | .addLink link => link.listeners = []
  | .direct directory => n.OffersFit fits directory
  | _ => True

theorem linkOwner?_modifyLink (n : Node) (l : LinkId) {f : Link → Link}
    (hf : ∀ link, (f link).account = link.account) (l' : LinkId) :
    (n.modifyLink l f).linkOwner? l' = n.linkOwner? l' := by
  rw [linkOwner?, link?_modifyLink]
  split
  · rw [Option.map_map, linkOwner?]
    exact congrArg (Option.map · (n.link? l')) (funext hf)
  · rfl

theorem wired_fresh {settings : Settings} {directory : Directory} {codec : Codec}
    {filter : Option (Prefix → Route → Bool)} {id : TableId} {links : List Link}
    (hlinks : ∀ link ∈ links, link.listeners = [])
    (hdirectory : (fresh settings directory codec filter id links).OffersFit fits directory) :
    (fresh settings directory codec filter id links).Wired fits where
  nodup_accounts := List.nodup_nil
  nodup_listeners := List.nodup_nil
  issued _ hs := absurd hs List.not_mem_nil
  linked _ hs := absurd hs List.not_mem_nil
  offersFit := hdirectory
  listeners_eq _ link hlink := hlinks link (List.mem_of_getElem? hlink)

theorem Wired.congr (h : n.Wired fits) (hsame : SameLinks n n') : n'.Wired fits := by
  have hlink? : n'.link? = n.link? := by
    funext l
    rw [link?, hsame.links]
    rfl
  have howner? : n'.linkOwner? = n.linkOwner? := by
    funext l
    rw [linkOwner?, hlink?]
    rfl
  refine ⟨?_, ?_, ?_, ?_, ?_, ?_⟩
  · rw [hsame.subscriptions]
    exact h.nodup_accounts
  · rw [hsame.subscriptions]
    exact h.nodup_listeners
  · rw [hsame.subscriptions, hsame.nextListener]
    exact h.issued
  · rw [hsame.subscriptions, howner?]
    exact h.linked
  · rw [OffersFit, hsame.directory, howner?]
    exact h.offersFit
  · rw [hsame.subscriptions, hlink?]
    exact h.listeners_eq

theorem Wired.subscribe (h : n.Wired fits) {a : AccountId} {l : LinkId}
    (hnone : n.linkFor? a = none) (hl : n.directory.link? a = some l) :
    (n.subscribe a l).Wired fits := by
  have howner : ∀ l', (n.subscribe a l).linkOwner? l' = n.linkOwner? l' :=
    linkOwner?_modifyLink n l fun _ => rfl
  have hsubscriptions : (n.subscribe a l).subscriptions =
      n.subscriptions ++ [⟨a, l, ⟨n.nextListener⟩⟩] := rfl
  refine ⟨?_, ?_, fun s hs => ?_, fun s hs => ?_, fun b l' hb => ?_, fun l' link' hlink' => ?_⟩
  · have hnew : a ∉ n.subscriptions.map (·.account) := by
      rw [← isSome_linkFor?_iff, hnone]
      exact Bool.false_ne_true
    rw [hsubscriptions, List.map_append]
    exact List.nodup_append_comm.1 (List.nodup_cons.2 ⟨hnew, h.nodup_accounts⟩)
  · have hnew : ⟨n.nextListener⟩ ∉ n.subscriptions.map (·.listener) := by
      rintro hmem
      obtain ⟨s, hs, hlistener⟩ := List.mem_map.1 hmem
      have hissued := h.issued s hs
      rw [hlistener] at hissued
      exact Nat.lt_irrefl _ hissued
    rw [hsubscriptions, List.map_append]
    exact List.nodup_append_comm.1 (List.nodup_cons.2 ⟨hnew, h.nodup_listeners⟩)
  · rw [hsubscriptions, List.mem_append, List.mem_singleton] at hs
    rcases hs with hs | rfl
    · exact Nat.lt_succ_of_lt (h.issued s hs)
    · exact Nat.lt_succ_self _
  · rw [howner]
    rw [hsubscriptions, List.mem_append, List.mem_singleton] at hs
    rcases hs with hs | rfl
    · exact h.linked s hs
    · exact h.offersFit a l hl
  · rw [howner]
    exact h.offersFit b l' hb
  · obtain ⟨link, hlink, rfl⟩ := link?_of_modifyLink (n := n) hlink'
    rw [hsubscriptions, List.filter_append, List.map_append, ← h.listeners_eq l' link hlink]
    by_cases hl' : l' = l
    · rw [if_pos hl', hl', List.filter_singleton, beq_self_eq_true]
      rfl
    · rw [if_neg hl', List.filter_singleton, beq_false_of_ne (Ne.symm hl')]
      exact (List.append_nil _).symm

/-- A subscription is known by its account as well as by its listener. -/
theorem Wired.account_bne_eq (h : n.Wired fits) {s t : Subscription} (hs : s ∈ n.subscriptions)
    (ht : t ∈ n.subscriptions) : (t.account != s.account) = (t.listener != s.listener) := by
  rw [Bool.eq_iff_iff, bne_iff_ne, bne_iff_ne, not_iff_not]
  constructor
  · intro haccount
    rw [List.inj_on_of_nodup_map h.nodup_accounts ht hs haccount]
  · intro hlistener
    rw [List.inj_on_of_nodup_map h.nodup_listeners ht hs hlistener]

theorem Wired.cancel (h : n.Wired fits) {s : Subscription} (hs : s ∈ n.subscriptions) :
    (n.cancel s).Wired fits := by
  have howner : ∀ l, (n.cancel s).linkOwner? l = n.linkOwner? l :=
    linkOwner?_modifyLink n s.link fun _ => rfl
  have hsublist : ((n.cancel s).subscriptions).Sublist n.subscriptions := List.filter_sublist
  refine ⟨h.nodup_accounts.sublist (hsublist.map _), h.nodup_listeners.sublist (hsublist.map _),
    fun t ht => h.issued t (hsublist.subset ht), fun t ht => ?_, fun b l hb => ?_,
    fun l link' hlink' => ?_⟩
  · rw [howner]
    exact h.linked t (hsublist.subset ht)
  · rw [howner]
    exact h.offersFit b l hb
  · obtain ⟨link, hlink, rfl⟩ := link?_of_modifyLink (n := n) hlink'
    have hlisteners := h.listeners_eq l link hlink
    -- What is taken away from the subscriptions is what is taken away from the listeners.
    have hfilter : (n.subscriptions.filter (·.account != s.account)).filter (·.link == l) =
        (n.subscriptions.filter (·.link == l)).filter (·.listener != s.listener) := by
      rw [List.filter_filter, List.filter_filter]
      refine List.filter_congr fun t ht => ?_
      rw [h.account_bne_eq hs ht, Bool.and_comm]
    show _ = (((n.subscriptions.filter (·.account != s.account)).filter (·.link == l)).map
      (·.listener))
    rw [hfilter]
    split
    · show link.listeners.filter (· != s.listener) = _
      rw [hlisteners, List.filter_map]
      rfl
    · rename_i hl
      have hothers : (n.subscriptions.filter (·.link == l)).filter (·.listener != s.listener) =
          n.subscriptions.filter (·.link == l) := by
        refine List.filter_eq_self.2 fun t ht => bne_iff_ne.2 fun hlistener => hl ?_
        obtain ⟨ht, htl⟩ := List.mem_filter.1 ht
        rw [← beq_iff_eq.1 htl, List.inj_on_of_nodup_map h.nodup_listeners ht hs hlistener]
      rw [hothers, hlisteners]

theorem Wired.register (h : n.Wired fits) (a : AccountId) : (n.register a).1.Wired fits := by
  rcases n.register_cases a with ⟨-, heq⟩ | ⟨-, -, e, heq⟩ | ⟨l, hnone, -, hl, heq⟩
  · rw [heq]
    exact h
  · rw [heq]
    exact h
  · rw [heq]
    exact h.subscribe hnone hl

theorem Wired.unregister (h : n.Wired fits) (a : AccountId) : (n.unregister a).1.Wired fits := by
  refine Wired.congr ?_ (untrack_sameLinks (n.unsubscribe a) a)
  rcases n.unsubscribe_cases a with ⟨-, heq⟩ | ⟨s, hs, heq⟩
  · rw [heq]
    exact h
  · rw [heq]
    exact h.cancel (mem_of_subscription? hs).1

theorem Wired.start (h : n.Wired fits) : n.start.1.Wired fits := by
  have hreload := h.congr (reload_sameLinks n)
  rcases n.start_cases with ⟨-, -, heq⟩ | ⟨-, heq⟩
  · rw [heq]
    exact hreload
  · rw [heq]
    exact List.foldlRecOn _ _ hreload fun _ hn' account _ => hn'.register account.id

theorem Wired.shutdown (h : n.Wired fits) : n.shutdown.Wired fits :=
  List.foldlRecOn _ _ h fun _ hn' account _ => hn'.unregister account

theorem Wired.setConnected (h : n.Wired fits) (l : LinkId) (connected : Bool) :
    (n.modifyLink l fun link => { link with connected := connected }).Wired fits := by
  have howner := fun l' => linkOwner?_modifyLink n l
    (f := fun link => { link with connected := connected }) (fun _ => rfl) l'
  refine ⟨h.nodup_accounts, h.nodup_listeners, h.issued, fun s hs => ?_, fun a l' ha => ?_,
    fun l' link' hlink' => ?_⟩
  · rw [howner]
    exact h.linked s hs
  · rw [howner]
    exact h.offersFit a l' ha
  · obtain ⟨link, hlink, rfl⟩ := link?_of_modifyLink hlink'
    split
    · exact h.listeners_eq l' link hlink
    · exact h.listeners_eq l' link hlink

theorem Wired.addLink (h : n.Wired fits) {link : Link} (hlink : link.listeners = []) :
    Wired fits { n with links := n.links ++ [link] } := by
  -- The links that were there before stay where they are.
  have hbefore : ∀ l : LinkId, l.index < n.links.length →
      Node.link? { n with links := n.links ++ [link] } l = n.link? l :=
    fun l hl => List.getElem?_append_left hl
  have howner : ∀ l owner, n.linkOwner? l = some owner →
      Node.linkOwner? { n with links := n.links ++ [link] } l = some owner := by
    intro l owner hl
    obtain ⟨link', hlink', -⟩ := Option.map_eq_some_iff.1 hl
    rw [linkOwner?, hbefore l (List.getElem?_eq_some_iff.1 hlink').1]
    exact hl
  refine ⟨h.nodup_accounts, h.nodup_listeners, h.issued, fun s hs => ?_, fun a l ha => ?_,
    fun l link' hlink' => ?_⟩
  · obtain ⟨owner, hl, hfits⟩ := h.linked s hs
    exact ⟨owner, howner s.link owner hl, hfits⟩
  · obtain ⟨owner, hl, hfits⟩ := h.offersFit a l ha
    exact ⟨owner, howner l owner hl, hfits⟩
  · by_cases hl : l.index < n.links.length
    · exact h.listeners_eq l link' ((hbefore l hl).symm.trans hlink')
    · have hnobody : n.subscriptions.filter (·.link == l) = [] := by
        refine List.filter_eq_nil_iff.2 fun s hs hsl => hl ?_
        obtain ⟨owner, howner, -⟩ := h.linked s hs
        obtain ⟨link', hlink', -⟩ := Option.map_eq_some_iff.1 howner
        rw [← beq_iff_eq.1 hsl]
        exact (List.getElem?_eq_some_iff.1 hlink').1
      have hnew : (n.links ++ [link])[l.index]? = some link' := hlink'
      rw [List.getElem?_append_right (Nat.le_of_not_lt hl)] at hnew
      have hmem := List.mem_of_getElem? hnew
      rw [List.mem_singleton] at hmem
      show link'.listeners = (n.subscriptions.filter (·.link == l)).map (·.listener)
      rw [hmem, hlink, hnobody]
      rfl

theorem Wired.move (h : n.Wired fits) {m : Move} (hm : m.Wires fits n) :
    (n.move m).Wired fits := by
  cases m with
  | start => exact h.start
  | shutdown => exact h.shutdown
  | register account => exact h.register account
  | unregister account => exact h.unregister account
  | setConnected link connected => exact h.setConnected link connected
  | addLink link => exact h.addLink hm
  | direct directory => exact { h with offersFit := hm }
  | listen =>
    rw [move_listen]
    exact { h with }
  | emit l event =>
    rcases n.move_emit_cases l event with heq | ⟨link, -, heq⟩
    · rw [heq]
      exact h
    · rw [heq]
      exact { h with }
  | nextEvent =>
    rcases n.move_nextEvent_cases with heq | ⟨event, rest, -, -, heq⟩
    · rw [heq]
      exact h
    · rw [heq]
      have hpopped : Wired fits { n with events := rest } := { h with }
      exact hpopped.congr (handleEvent_sameLinks _ event)
  | _ => exact h.congr (move_sameLinks n (by trivial))

theorem Wired.run {moves : List Move} (h : n.Wired fits)
    (hmoves : Along (Move.Wires fits) n moves) : (n.run moves).Wired fits :=
  hmoves.induction (fun _ _ _ hm h => h.move hm) h

/-! ### The correspondence -/

/-- Each registered account has one listener, on its link, and the links carry no others. -/
structure ListensFor (enrolled : AccountId → Option LinkId) (n : Node) : Prop where
  isSome_listenerFor? : ∀ a, (n.listenerFor? a).isSome = (enrolled a).isSome
  eq_of_listenerFor? : ∀ a b id, n.listenerFor? a = some id → n.listenerFor? b = some id → a = b
  isSome_link? : ∀ a l, enrolled a = some l → (n.link? l).isSome = true
  nodup_listeners : ∀ l link, n.link? l = some link → link.listeners.Nodup
  mem_listeners_iff : ∀ l link id, n.link? l = some link →
    (id ∈ link.listeners ↔ ∃ a, enrolled a = some l ∧ n.listenerFor? a = some id)

theorem Wired.subscription?_eq_some_iff (h : n.Wired fits) {a : AccountId} {s : Subscription} :
    n.subscription? a = some s ↔ s ∈ n.subscriptions ∧ s.account = a := by
  refine ⟨mem_of_subscription?, fun ⟨hs, ha⟩ => ?_⟩
  have hsome : (n.linkFor? a).isSome = true :=
    isSome_linkFor?_iff.2 (List.mem_map.2 ⟨s, hs, ha⟩)
  rw [linkFor?, Option.isSome_map] at hsome
  obtain ⟨t, ht⟩ := Option.isSome_iff_exists.1 hsome
  obtain ⟨htmem, hta⟩ := mem_of_subscription? ht
  rw [ht, List.inj_on_of_nodup_map h.nodup_accounts htmem hs (hta.trans ha.symm)]

theorem Wired.listensFor (h : n.Wired fits) : n.ListensFor n.linkFor? where
  isSome_listenerFor? a := by
    rw [listenerFor?, linkFor?, Option.isSome_map, Option.isSome_map]
  eq_of_listenerFor? a b id ha hb := by
    obtain ⟨s, hs, hsid⟩ := Option.map_eq_some_iff.1 ha
    obtain ⟨t, ht, htid⟩ := Option.map_eq_some_iff.1 hb
    obtain ⟨hsmem, rfl⟩ := mem_of_subscription? hs
    obtain ⟨htmem, rfl⟩ := mem_of_subscription? ht
    rw [List.inj_on_of_nodup_map h.nodup_listeners hsmem htmem (hsid.trans htid.symm)]
  isSome_link? a l ha := by
    obtain ⟨s, hs, rfl⟩ := Option.map_eq_some_iff.1 ha
    obtain ⟨owner, howner, -⟩ := h.linked s (mem_of_subscription? hs).1
    obtain ⟨link, hlink, -⟩ := Option.map_eq_some_iff.1 howner
    rw [hlink]
    rfl
  nodup_listeners l link hlink := by
    rw [h.listeners_eq l link hlink]
    exact h.nodup_listeners.sublist (List.filter_sublist.map _)
  mem_listeners_iff l link id hlink := by
    rw [h.listeners_eq l link hlink, List.mem_map]
    constructor
    · rintro ⟨s, hs, rfl⟩
      obtain ⟨hs, hsl⟩ := List.mem_filter.1 hs
      have hsubscription := h.subscription?_eq_some_iff.2 ⟨hs, rfl⟩
      refine ⟨s.account, ?_, ?_⟩
      · rw [linkFor?, hsubscription, ← beq_iff_eq.1 hsl]
        rfl
      · rw [listenerFor?, hsubscription]
        rfl
    · rintro ⟨a, hl, hid⟩
      obtain ⟨s, hs, rfl⟩ := Option.map_eq_some_iff.1 hl
      rw [listenerFor?, hs] at hid
      cases hid
      exact ⟨s, List.mem_filter.2 ⟨(mem_of_subscription? hs).1, beq_self_eq_true _⟩, rfl⟩

/-- **One listener for each registered account.**  Accounts are registered and unregistered, the
node is started and shut down, and anything else may happen to it and to its directory.  As long as
links exist before the directory has them, and carry no listeners when they appear, each account
that is registered according to the calls has exactly one listener, on the link that the directory
had for it when it was registered, and there are no other listeners.  After a shutdown there are
none at all, and no account that was registered is tracked. -/
theorem listensFor_of_run {settings : Settings} {directory : Directory} {codec : Codec}
    {filter : Option (Prefix → Route → Bool)} {id : TableId} {links : List Link}
    {moves : List Move} (hlinks : ∀ link ∈ links, link.listeners = [])
    (hdirectory : (fresh settings directory codec filter id links).OffersFit
      (fun _ _ => True) directory)
    (hmoves : Along (Move.Wires fun _ _ => True)
      (fresh settings directory codec filter id links) moves) :
    let start := fresh settings directory codec filter id links
    let n := start.run moves
    let enrolled := start.enrolments (fun _ => none) moves
    n.ListensFor enrolled ∧
      (∀ l link, (n.move .shutdown).link? l = some link → link.listeners = []) ∧
      ∀ a, (enrolled a).isSome = true → (n.move .shutdown).trackedSession? a = none := by
  intro start n enrolled
  have hwired : n.Wired (fun _ _ => True) := (wired_fresh hlinks hdirectory).run hmoves
  have henrolled : enrolled = n.linkFor? := (linkFor?_run _ moves).symm
  rw [henrolled]
  refine ⟨hwired.listensFor, fun l link hlink => ?_, fun a ha => ?_⟩
  · rw [List.eq_nil_iff_forall_not_mem]
    intro id hid
    obtain ⟨a, hl, -⟩ := (hwired.shutdown.listensFor.mem_listeners_iff l link id hlink).1 hid
    rw [linkFor?_shutdown] at hl
    cases hl
  · have hcloses : Move.shutdown.Closes n a := isSome_linkFor?_iff.1 ha
    exact hcloses.trackedSession?_eq_none

/-- The directory has the links of both peers the wrong way round. -/
def exchanged : Directory :=
  { twoPeers with links := [(smallPeer.id, ⟨1⟩), (friend.id, ⟨0⟩)] }

theorem offersFit_of_all [DecidableRel fits] {directory : Directory}
    (h : directory.links.all
      (fun e => (n.linkOwner? e.2).any fun owner => decide (fits e.1 owner)) = true) :
    n.OffersFit fits directory := by
  intro a l hl
  obtain ⟨before, after, hlinks, -⟩ := List.lookup_eq_some_iff.1 hl
  have hmem : (a, l) ∈ directory.links := by
    rw [hlinks]
    exact List.mem_append_right before List.mem_cons_self
  obtain ⟨owner, howner, hfits⟩ :=
    (Option.any_eq_true _ _).1 (List.all_eq_true.1 h _ hmem)
  exact ⟨owner, howner, of_decide_eq_true hfits⟩

/-- A peer is registered twice.  Then the links are exchanged, so that the other peer, registered
when the node is started, gets the same link. -/
theorem listensFor_of_exchanged :
    let moves := [.register smallPeer.id, .register smallPeer.id, .direct exchanged, .start]
    let n := smallWithFriend.run moves
    let enrolled := smallWithFriend.enrolments (fun _ => none) moves
    (∀ link ∈ smallWithFriend.links, link.listeners = []) ∧
      smallWithFriend.OffersFit (fun _ _ => True) twoPeers ∧
      Along (Move.Wires fun _ _ => True) smallWithFriend moves ∧
      enrolled smallPeer.id = some ⟨0⟩ ∧ enrolled friend.id = some ⟨0⟩ ∧
      (n.link? ⟨0⟩).map (·.listeners) = some [⟨0⟩, ⟨1⟩] ∧ n.ListensFor enrolled ∧
      (∀ l link, (n.move .shutdown).link? l = some link → link.listeners = []) ∧
      ∀ a, (enrolled a).isSome = true → (n.move .shutdown).trackedSession? a = none := by
  intro moves n enrolled
  have hlinks : ∀ link ∈ smallWithFriend.links, link.listeners = [] := by decide +kernel
  have hdirectory : smallWithFriend.OffersFit (fun _ _ => True) twoPeers :=
    offersFit_of_all (by decide +kernel)
  have hmoves : Along (Move.Wires fun _ _ => True) smallWithFriend moves :=
    ⟨trivial, trivial, offersFit_of_all (by decide +kernel), trivial, trivial⟩
  exact ⟨hlinks, hdirectory, hmoves, by decide +kernel, by decide +kernel, by decide +kernel,
    listensFor_of_run hlinks hdirectory hmoves⟩

end RouteSync.Node
