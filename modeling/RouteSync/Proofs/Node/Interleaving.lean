import RouteSync.Proofs.Node.OwnAddresses
import RouteSync.Proofs.Node.Scope
import RouteSync.Proofs.Node.Withdrawal

/-!
# The order in which packets of different peers arrive

After a reload that succeeded, with settings and directory fixed and nothing held back by the
filter, it makes no difference how the packets of several peers are interleaved
(`sameRoutes_of_interleaved`).  Each receiver takes in what its own peer sends, in the order in
which it is sent (`Orderly.listener?_run`).  The tables are coherent after each run, and so they
hold what the receivers make of them (`sameRoutesAt_of_heardSame`), the open sessions being looked
at in any order.

The path of a route in use does depend on the order, since a route is replaced only when the next
hop changes.  But paths decide about advertisements only below the address of the node, and there
the node uses routes that it makes itself.
-/

namespace RouteSync

open RouteEntry

/-! ### Without a clock -/

/-- A receiver without the time until which it keeps its routes. -/
def Receiver.timeless (r : Receiver) : Receiver :=
  { r with expiry := .origin }

/-- When an update arrives decides only about how long routes are kept. -/
theorem Receiver.timeless_apply (r : Receiver) (now now' : Timestamp) (u : UpdateRequest) :
    (r.apply now u).1.timeless = (r.timeless.apply now' u).1.timeless := by
  have hgreet : r.timeless.greet now' u =
      { r.greet now u with expiry := (r.timeless.greet now' u).expiry } := by
    by_cases hid : r.tableId = some u.tableId
    · simp only [greet, timeless, hid, if_true]
    · simp only [greet, timeless, hid, if_false]
  simp only [apply]
  rw [hgreet]
  generalize r.greet now u = greeted
  generalize (r.timeless.greet now' u).expiry = expiry
  dsimp only
  split
  · rfl
  · split
    · rfl
    · split
      · rfl
      · split <;> rfl

/-- What the update in a packet of an account is to the node, if there is one. -/
def heard? (codec : Codec) (settings : Settings) (account : Account) (packet : Prepare) :
    Option UpdateRequest :=
  if packet.destination = updateDestination ∧ packet.condition = peerCondition ∧
      account.receivesRoutes = true then
    (codec.decodeUpdate packet.data).toOption.map (·.admitted settings)
  else none

/-- What a packet of its account makes of a receiver, the clock aside. -/
def Receiver.hear (codec : Codec) (settings : Settings) (account : Account) (r : Receiver)
    (packet : Prepare) : Receiver :=
  match heard? codec settings account packet with
  | some u => (r.apply .origin u).1.timeless
  | none => r

namespace Node

/-- Whether a move belongs to the exchange of packets: a packet comes in before it expires, one is
sent, or one is answered. -/
def Move.IsTraffic : Move → Prop
  | .packet now _ prepare => ¬prepare.expiresAt < now
  | .begin _ _ (.requestRoutes _) | .begin _ _ (.sendUpdate _) => True
  | .settle _ _ | .setDeadline _ _ => True
  | _ => False

/-- The packet that comes in from an account. -/
def Move.packetFrom? (account : AccountId) : Move → Option Prepare
  | .packet _ a prepare => if a = account then some prepare else none
  | _ => none

/-- All packets that come in from an account. -/
def packetsFrom (account : AccountId) (moves : List Move) : List Prepare :=
  moves.filterMap (·.packetFrom? account)

/-- The account that a session is with, and its receiver without a clock. -/
def listener? (n : Node) (s : SessionId) : Option (Account × Receiver) :=
  (n.session? s).map fun session => (session.account, session.receiver.timeless)

variable {n n' : Node} {m : Move} {s : SessionId} {p : Prefix}

theorem Move.IsTraffic.isRoutine (hm : m.IsTraffic) : m.IsRoutine := by
  cases m <;> trivial

theorem Move.IsTraffic.keepsOrder (hm : m.IsTraffic) (n : Node) : m.KeepsOrder n := by
  cases m <;> trivial

/-! ### One move of the traffic -/

theorem heard?_eq_some_iff {codec : Codec} {settings : Settings} {account : Account}
    {packet : Prepare} {u : UpdateRequest} :
    heard? codec settings account packet = some u ↔
      packet.destination = updateDestination ∧ packet.condition = peerCondition ∧
        account.receivesRoutes = true ∧
        ∃ sent, codec.decodeUpdate packet.data = .ok sent ∧ sent.admitted settings = u := by
  unfold heard?
  split
  · rename_i h
    cases hdecode : codec.decodeUpdate packet.data with
    | error e => simp [Except.toOption, h]
    | ok sent => simp [Except.toOption, h]
  · rename_i h
    constructor
    · intro hsome
      cases hsome
    · rintro ⟨hdestination, hcondition, hreceives, -⟩
      exact absurd ⟨hdestination, hcondition, hreceives⟩ h

/-- A change of one sender or of the loops, or of neither. -/
def SendsOnly (n n' : Node) : Prop :=
  ∃ (s : SessionId) (change : Session → Sender) (loops : List BroadcastLoop), n' =
    { n.modifySession s fun session => { session with sender := change session } with
      loops := loops }

theorem SendsOnly.refl (n : Node) : n.SendsOnly n := by
  refine ⟨⟨0⟩, fun session => session.sender, n.loops, ?_⟩
  show n = { n with sessions := n.sessions.modify 0 id }
  rw [List.modify_id]

theorem settle_sendsOnly (n : Node) (o : Outbound) (answer : LinkAnswer) :
    n.SendsOnly (n.settle o answer).1 := by
  rw [settle_node]
  exact ⟨o.session, _, n.loops, rfl⟩

/-- A packet that did not expire changes a sender at most, or it holds an update which reaches the
receiver of its account. -/
theorem move_packet_cases (n : Node) {now : Timestamp} {account : AccountId} {packet : Prepare}
    (hexpiry : ¬packet.expiresAt < now) :
    (∃ s session u, n.trackedSession? account = some s ∧ n.session? s = some session ∧
        heard? n.codec n.settings session.account packet = some u ∧
        n.move (.packet now account packet) = n.receive s session.receiver now u) ∨
      (∀ s session, n.trackedSession? account = some s → n.session? s = some session →
        heard? n.codec n.settings session.account packet = none) ∧
      n.SendsOnly (n.move (.packet now account packet)) := by
  by_cases hheard : ∃ s session u, n.trackedSession? account = some s ∧
      n.session? s = some session ∧ heard? n.codec n.settings session.account packet = some u
  · obtain ⟨s, session, u, hs, hsession, hu⟩ := hheard
    obtain ⟨hdestination, hcondition, hreceives, sent, hsent, rfl⟩ := heard?_eq_some_iff.1 hu
    have hlistens : n.ListensTo account s session := ⟨hs, hsession, hreceives⟩
    have henvelope : checkEnvelope packet now = .ok () := by
      rw [checkEnvelope, if_neg hexpiry, if_neg (not_not_intro hcondition)]
    exact .inl ⟨s, session, _, hs, hsession, hu,
      hlistens.move_eq (d := ⟨⟨now, sent⟩, packet⟩) ⟨hdestination, henvelope, hsent⟩⟩
  · refine .inr ⟨fun s session hs hsession => ?_, ?_⟩
    · rw [Option.eq_none_iff_forall_ne_some]
      exact fun u hu => hheard ⟨s, session, u, hs, hsession, hu⟩
    · show n.SendsOnly (n.handlePacket now account packet).node
      rcases handlePacket_node_cases n now account packet with
        hsame | ⟨s, session, hs, hsession, henvelope, ⟨-, request, hnode⟩ |
          ⟨hupdate, hreceives, u, hdecode, -⟩⟩
      · rw [hsame]
        exact .refl n
      · rw [hnode]
        exact ⟨s, _, n.loops, rfl⟩
      · -- An update that can be read would have been heard.
        have hcondition : packet.condition = peerCondition := by
          rw [checkEnvelope, if_neg hexpiry] at henvelope
          split at henvelope
          · cases henvelope
          · rename_i hcondition
            exact not_not.1 hcondition
        exact absurd ⟨s, session, _, hs, hsession,
          heard?_eq_some_iff.2 ⟨hupdate, hcondition, hreceives, u, hdecode, rfl⟩⟩ hheard

/-- A move of the traffic changes senders and loops at most, or it is a packet with an update which
reaches the receiver of its account. -/
theorem Move.IsTraffic.cases (hm : m.IsTraffic) (n : Node) :
    (∃ now account packet s session u, m = .packet now account packet ∧
        n.trackedSession? account = some s ∧ n.session? s = some session ∧
        heard? n.codec n.settings session.account packet = some u ∧
        n.move m = n.receive s session.receiver now u) ∨
      (∀ account packet s session, m.packetFrom? account = some packet →
        n.trackedSession? account = some s → n.session? s = some session →
        heard? n.codec n.settings session.account packet = none) ∧ n.SendsOnly (n.move m) := by
  cases m with
  | packet now account packet =>
    rcases move_packet_cases n hm with ⟨s, session, u, h⟩ | ⟨hnone, hsends⟩
    · exact .inl ⟨now, account, packet, s, session, u, rfl, h⟩
    · refine .inr ⟨fun account' packet' s session hfrom hs => ?_, hsends⟩
      simp only [Move.packetFrom?] at hfrom
      split at hfrom
      · rename_i haccount
        cases hfrom
        exact hnone s session (haccount ▸ hs)
      · cases hfrom
  | begin now clock task =>
    cases task with
    | requestRoutes s =>
      refine .inr ⟨fun _ _ _ _ h => (by cases h), ?_⟩
      rw [move, begin_requestRoutes]
      exact .refl n
    | sendUpdate s =>
      refine .inr ⟨fun _ _ _ _ h => (by cases h), ?_⟩
      rw [move, begin_sendUpdate]
      exact .refl n
    | finishConnect s => exact hm.elim
    | expire s => exact hm.elim
  | settle o answer => exact .inr ⟨fun _ _ _ _ h => (by cases h), settle_sendsOnly n o answer⟩
  | setDeadline loop deadline =>
    refine .inr ⟨fun _ _ _ _ h => (by cases h), ?_⟩
    obtain ⟨s, change, loops, hsame⟩ := SendsOnly.refl n
    refine ⟨s, change, n.loops.modify loop fun l => { l with deadline := deadline }, ?_⟩
    exact congrArg (fun n' : Node =>
      { n' with loops := n.loops.modify loop fun l => { l with deadline := deadline } }) hsame
  | _ => exact hm.elim

theorem Move.IsTraffic.frame (hm : m.IsTraffic) (n : Node) :
    (n.move m).tracked = n.tracked ∧ (n.move m).settings = n.settings ∧
      (n.move m).codec = n.codec := by
  rcases hm.cases n with ⟨now, account, packet, s, session, u, -, -, -, -, hnode⟩ |
    ⟨-, s, change, loops, hnode⟩
  · rw [hnode, receive_retabled]
    exact ⟨rfl, rfl, rfl⟩
  · rw [hnode]
    exact ⟨rfl, rfl, rfl⟩

theorem listener?_receive (n : Node) (s : SessionId) (r : Receiver) (now : Timestamp)
    (u : UpdateRequest) (t : SessionId) :
    (n.receive s r now u).listener? t =
      if t = s then (n.listener? t).map fun l => (l.1, (r.apply now u).1.timeless)
      else n.listener? t := by
  rw [listener?, session?_receive, setReceiver, session?_modifySession, listener?]
  split
  · rw [Option.map_map, Option.map_map]
    rfl
  · rfl

theorem SendsOnly.listener? (h : n.SendsOnly n') (t : SessionId) :
    n'.listener? t = n.listener? t := by
  obtain ⟨s, change, loops, rfl⟩ := h
  refine map_session?_modifySession _ ?_ t
  exact fun _ _ => rfl

/-- No account has a session with the number of another one's. -/
theorem Orderly.eq_of_trackedSession? (h : n.Orderly) {a b : AccountId}
    (ha : n.trackedSession? a = some s) (hb : n.trackedSession? b = some s) : a = b := by
  obtain ⟨session, hsession, hpeer⟩ :=
    h.session_of_tracked a s (mem_tracked_of_trackedSession? ha)
  rw [← hpeer]
  exact h.peer_of_tracked (mem_tracked_of_trackedSession? hb) hsession

/-- The receiver of an account with an open session hears what comes from the account. -/
theorem Orderly.listener?_move (h : n.Orderly) (hm : m.IsTraffic) {a : AccountId}
    (ha : n.trackedSession? a = some s) :
    (n.move m).listener? s = (n.listener? s).map fun l =>
      (l.1, ((m.packetFrom? a).toList).foldl (Receiver.hear n.codec n.settings l.1) l.2) := by
  rcases hm.cases n with ⟨now, account, packet, t, session, u, rfl, ht, hsession, hu, hnode⟩ |
    ⟨hnone, hsends⟩
  · rw [hnode, listener?_receive]
    simp only [Move.packetFrom?]
    by_cases haccount : account = a
    · subst haccount
      obtain rfl : t = s := Option.some.inj (ht.symm.trans ha)
      have hlistener : n.listener? t = some (session.account, session.receiver.timeless) := by
        rw [listener?, hsession]
        rfl
      rw [if_pos rfl, if_pos rfl, hlistener]
      simp only [Option.map_some, Option.toList_some, List.foldl_cons, List.foldl_nil,
        Receiver.hear, hu]
      rw [session.receiver.timeless_apply now .origin]
    · have hts : s ≠ t := by
        rintro rfl
        exact haccount (h.eq_of_trackedSession? ht ha)
      rw [if_neg hts, if_neg haccount]
      cases n.listener? s <;> rfl
  · rw [hsends.listener?]
    cases hsession : n.session? s with
    | none =>
      rw [listener?, hsession]
      rfl
    | some session =>
      rw [listener?, hsession]
      cases hfrom : m.packetFrom? a with
      | none => rfl
      | some packet =>
        simp only [Option.map_some, Option.toList_some, List.foldl_cons, List.foldl_nil,
          Receiver.hear, hnone a packet s session hfrom ha hsession]

/-- Other receivers hear nothing. -/
theorem Move.IsTraffic.listener?_eq (hm : m.IsTraffic) (hs : ∀ a, n.trackedSession? a ≠ some s) :
    (n.move m).listener? s = n.listener? s := by
  rcases hm.cases n with ⟨now, account, packet, t, session, u, -, ht, -, -, hnode⟩ | ⟨-, hsends⟩
  · have hts : s ≠ t := by
      rintro rfl
      exact hs account ht
    rw [hnode, listener?_receive, if_neg hts]
  · exact hsends.listener? s

/-! ### Runs of traffic -/

theorem packetsFrom_cons (a : AccountId) (m : Move) (moves : List Move) :
    packetsFrom a (m :: moves) = (m.packetFrom? a).toList ++ packetsFrom a moves := by
  rw [packetsFrom, packetsFrom, List.filterMap_cons]
  cases m.packetFrom? a <;> rfl

theorem tracked_run {moves : List Move} (hmoves : ∀ m ∈ moves, m.IsTraffic) :
    (n.run moves).tracked = n.tracked :=
  run_induction (motive := fun n' => n'.tracked = n.tracked)
    (fun n' m hm h => ((hmoves m hm).frame n').1.trans h) rfl

/-- The receiver of an account with an open session hears the packets of the account in order, and
no others. -/
theorem Orderly.listener?_run {moves : List Move} (h : n.Orderly)
    (hmoves : ∀ m ∈ moves, m.IsTraffic) {a : AccountId} (ha : n.trackedSession? a = some s) :
    (n.run moves).listener? s = (n.listener? s).map fun l =>
      (l.1, (packetsFrom a moves).foldl (Receiver.hear n.codec n.settings l.1) l.2) := by
  induction moves generalizing n with
  | nil =>
    show n.listener? s = _
    cases n.listener? s <;> rfl
  | cons m moves ih =>
    have hm : m.IsTraffic := hmoves m List.mem_cons_self
    obtain ⟨htracked, hsettings, hcodec⟩ := hm.frame n
    have hnext : (n.move m).Orderly := h.move_of_keepsOrder (hm.keepsOrder n)
    have hsession : (n.move m).trackedSession? a = some s := by
      rw [trackedSession?, htracked]
      exact ha
    refine (ih hnext (fun m' hm' => hmoves m' (List.mem_cons_of_mem m hm')) hsession).trans ?_
    rw [h.listener?_move hm ha, Option.map_map, hsettings, hcodec, packetsFrom_cons]
    simp only [List.foldl_append]
    rfl

theorem listener?_run_eq {moves : List Move} (hmoves : ∀ m ∈ moves, m.IsTraffic)
    (hs : ∀ a, n.trackedSession? a ≠ some s) : (n.run moves).listener? s = n.listener? s := by
  have hkept : (n.run moves).tracked = n.tracked ∧ (n.run moves).listener? s = n.listener? s := by
    refine run_induction (motive := fun n' => n'.tracked = n.tracked ∧
      n'.listener? s = n.listener? s) (fun n' m hm h => ?_) ⟨rfl, rfl⟩
    refine ⟨((hmoves m hm).frame n').1.trans h.1, ?_⟩
    refine ((hmoves m hm).listener?_eq fun a => ?_).trans h.2
    rw [trackedSession?, h.1]
    exact hs a
  exact hkept.2

/-! ### Two nodes that heard the same -/

/-- Two nodes with the same open sessions, in whatever order, and with the same receivers. -/
structure HeardSame (n n' : Node) : Prop where
  tracked : n'.tracked.Perm n.tracked
  listener : ∀ s, n'.listener? s = n.listener? s

/-- With sessions in order, accounts are looked up whatever the order of the list is. -/
theorem Orderly.trackedSession?_eq_some_iff (h : n.Orderly) {a : AccountId} :
    n.trackedSession? a = some s ↔ (a, s) ∈ n.tracked := by
  refine ⟨mem_tracked_of_trackedSession?, fun hmem => ?_⟩
  cases hfound : n.trackedSession? a with
  | none => exact absurd (List.lookup_eq_none_iff.1 hfound _ hmem) (by simp)
  | some t =>
    exact congrArg some (h.session_unique a t s (mem_tracked_of_trackedSession? hfound) hmem)

/-- Nodes that heard the same hear the same if the packets of every account come in in the same
order. -/
theorem HeardSame.run {left right : List Move} (h : n.HeardSame n') (hn : n.Orderly)
    (hn' : n'.Orderly) (hsettings : n'.settings = n.settings) (hcodec : n'.codec = n.codec)
    (hleft : ∀ m ∈ left, m.IsTraffic) (hright : ∀ m ∈ right, m.IsTraffic)
    (hpackets : ∀ a s, (a, s) ∈ n.tracked → packetsFrom a left = packetsFrom a right) :
    (n.run left).HeardSame (n'.run right) := by
  have hsession : ∀ a s, n'.trackedSession? a = some s ↔ n.trackedSession? a = some s := fun a s =>
    by rw [hn'.trackedSession?_eq_some_iff, hn.trackedSession?_eq_some_iff, h.tracked.mem_iff]
  refine ⟨?_, fun s => ?_⟩
  · rw [tracked_run hleft, tracked_run hright]
    exact h.tracked
  · by_cases howner : ∃ a, n.trackedSession? a = some s
    · obtain ⟨a, ha⟩ := howner
      rw [hn.listener?_run hleft ha, hn'.listener?_run hright ((hsession a s).2 ha), h.listener,
        hsettings, hcodec, hpackets a s (mem_tracked_of_trackedSession? ha)]
    · have hnone : ∀ a, n.trackedSession? a ≠ some s := fun a ha => howner ⟨a, ha⟩
      have hnone' : ∀ a, n'.trackedSession? a ≠ some s := fun a ha => hnone a ((hsession a s).1 ha)
      rw [listener?_run_eq hleft hnone, listener?_run_eq hright hnone', h.listener]

theorem mem_peerRoutes_iff_listener? {route : Option IncomingRoute} :
    route ∈ n.peerRoutes p ↔
      ∃ a s l, (a, s) ∈ n.tracked ∧ n.listener? s = some l ∧ l.2.route? p = route := by
  rw [mem_peerRoutes]
  constructor
  · rintro ⟨a, s, session, hmem, hsession, hroute⟩
    exact ⟨a, s, _, hmem, congrArg (Option.map _) hsession, hroute⟩
  · rintro ⟨a, s, l, hmem, hlistener, hroute⟩
    obtain ⟨session, hsession, rfl⟩ := Option.map_eq_some_iff.1 hlistener
    exact ⟨a, s, session, hmem, hsession, hroute⟩

theorem HeardSame.bestPeerRoute (h : n.HeardSame n') (hn : n.Tidy)
    (hdirectory : n'.directory = n.directory) (p : Prefix) :
    n'.bestPeerRoute p = n.bestPeerRoute p := by
  refine hn.bestPeerRoute_congr hdirectory fun r => ?_
  simp only [mem_peerRoutes_iff_listener?, h.tracked.mem_iff, h.listener]

/-! ### Nodes whose tables fit together -/

/-- A node some time after a reload that succeeded. -/
structure Established (settings : Settings) (directory : Directory)
    (filter : Option (Prefix → Route → Bool)) (routes : List Route) (n : Node) : Prop extends
    Settled settings directory routes n where
  selfReliant : n.SelfReliant
  agrees : n.Agrees
  filter_eq : n.filter = filter

variable {settings : Settings} {directory : Directory} {filter : Option (Prefix → Route → Bool)}
  {routes : List Route}

theorem Established.steps (h : n.Established settings directory filter routes)
    (hsteps : Steps n n') : n'.Established settings directory filter routes where
  toSettled := h.toSettled.steps hsteps
  selfReliant := hsteps.selfReliant h.selfReliant
  agrees := hsteps.turns.agrees h.agrees
  filter_eq := hsteps.turns.filter_eq.trans h.filter_eq

/-- In which order the open sessions are looked at makes no difference. -/
theorem Established.reorder (h : n.Established settings directory filter routes)
    {order : List (AccountId × SessionId)} (horder : order.Perm n.tracked) :
    { n with tracked := order }.Established settings directory filter routes := by
  have hheard : n.HeardSame { n with tracked := order } := ⟨horder, fun _ => rfl⟩
  have htidy : Tidy { n with tracked := order } := {
    session_unique := fun a s s' hs hs' =>
      h.tidy.session_unique a s s' (horder.mem_iff.1 hs) (horder.mem_iff.1 hs')
    session_of_tracked := fun a s hs => h.tidy.session_of_tracked a s (horder.mem_iff.1 hs)
    peer_of_route? := h.tidy.peer_of_route?
    knows := fun a s hs => h.tidy.knows a s (horder.mem_iff.1 hs) }
  exact {
    settings_eq := h.settings_eq
    directory_eq := h.directory_eq
    ownRoutes_eq := h.ownRoutes_eq
    originated_eq := h.originated_eq
    tidy := htidy
    coherentAt := fun p =>
      (h.coherentAt p).congr rfl rfl (hheard.bestPeerRoute h.tidy rfl p) rfl rfl rfl
    selfReliant := h.selfReliant.congr rfl rfl rfl h.selfReliant.route?_eq_none
    agrees := h.agrees
    filter_eq := h.filter_eq }

theorem established_of_reload {codec : Codec} {id : TableId} {links : List Link}
    {moves : List Move} (hmoves : ∀ m ∈ moves, m.IsRoutine)
    (hreload : ((fresh settings directory codec filter id links).run moves).reload.2 = .ok ()) :
    ∃ routes, (((fresh settings directory codec filter id links).run moves).move
      .reload).Established settings directory filter routes := by
  obtain ⟨routes, hsettled⟩ := settled_of_reload hmoves hreload
  have hsteps : Steps (fresh settings directory codec filter id links)
      (((fresh settings directory codec filter id links).run moves).move .reload) :=
    (run_steps hmoves).trans (move_steps _ trivial)
  exact ⟨routes, hsettled, hsteps.selfReliant (selfReliant_fresh ..),
    hsteps.turns.agrees fun _ => rfl, hsteps.turns.filter_eq⟩

/-- Outside of the node's own part of the address space, the next hop of an advertisement hangs on
that of the route in use. -/
theorem map_nextHop_advertised {policy : ExportPolicy} {p : Prefix}
    (hp : p.startsWith policy.operator.toPrefix = false)
    (hpasses : ∀ r, policy.suppresses p r = false) (route : Option Route) :
    (policy.advertised p route).map Route.nextHop =
      (route.map Route.nextHop).filter fun _ =>
        p.root == policy.globalPrefix && p != policy.globalPrefix := by
  cases route with
  | none => rfl
  | some r =>
    simp only [ExportPolicy.advertised, ExportPolicy.allows, ExportPolicy.isCustomerRoute, hp,
      hpasses, Option.map_some, Option.filter_some, Bool.and_false, Bool.false_and, Bool.not_false,
      Bool.and_true]
    split <;> rfl

/-- What two nodes have in common that heard the same: the incoming route for a prefix, the next hop
of the route in use, and that of the advertisement. -/
structure SameRoutesAt (p : Prefix) (n n' : Node) : Prop where
  incoming : n'.incoming.get? p = n.incoming.get? p
  nextHop : (n'.localTable.get? p).map Route.nextHop = (n.localTable.get? p).map Route.nextHop
  advertised : (n'.outgoing.get? p).bind nextHop? = (n.outgoing.get? p).bind nextHop?

/-- Outside of the node's own part of the address space, the next hop that is advertised is the one
in use, wherever routes are advertised at all. -/
theorem Established.nextHop_advertised (h : n.Established settings directory filter routes)
    (hfilter : ∀ suppresses, filter = some suppresses → ∀ p r, suppresses p r = false)
    (hp : p.startsWith settings.operatorPrefix = false) :
    (n.outgoing.get? p).bind nextHop? = ((n.localTable.get? p).map Route.nextHop).filter fun _ =>
      p.root == settings.globalPrefix && p != settings.globalPrefix := by
  have hforeign : p.startsWith n.exportPolicy.operator.toPrefix = false := by
    rw [exportPolicy, h.settings_eq]
    exact hp
  have hpasses : ∀ r, n.exportPolicy.suppresses p r = false := by
    intro r
    simp only [exportPolicy, h.filter_eq]
    cases hsuppresses : filter with
    | none => rfl
    | some suppresses => exact hfilter suppresses hsuppresses p r
  rw [← map_nextHop_advertisedRoute?, h.agrees p, map_nextHop_advertised hforeign hpasses,
    exportPolicy, h.settings_eq]

theorem HeardSame.sameRoutesAt (h : n.HeardSame n')
    (hn : n.Established settings directory filter routes)
    (hn' : n'.Established settings directory filter routes)
    (hfilter : ∀ suppresses, filter = some suppresses → ∀ p r, suppresses p r = false)
    (p : Prefix) : SameRoutesAt p n n' := by
  have hdirectory : n'.directory = n.directory := hn'.directory_eq.trans hn.directory_eq.symm
  have hincoming : n'.incoming.get? p = n.incoming.get? p := by
    have hbest := h.bestPeerRoute hn.tidy hdirectory p
    rw [(hn.coherentAt p).incoming, (hn'.coherentAt p).incoming] at hbest
    exact Except.ok.inj hbest
  have hnextHop : (n'.localTable.get? p).map Route.nextHop =
      (n.localTable.get? p).map Route.nextHop := by
    rw [(hn.coherentAt p).nextHop, (hn'.coherentAt p).nextHop, hincoming, select, select,
      hn.settings_eq, hn'.settings_eq, hdirectory, hn.originated_eq, hn'.originated_eq]
  refine ⟨hincoming, hnextHop, ?_⟩
  cases hp : p.startsWith settings.operatorPrefix with
  | true =>
    have hpolicy : n'.exportPolicy = n.exportPolicy := by
      rw [exportPolicy, exportPolicy, hn.settings_eq, hn'.settings_eq, hn.filter_eq, hn'.filter_eq]
    rw [← map_nextHop_advertisedRoute?, ← map_nextHop_advertisedRoute?, hn.agrees p, hn'.agrees p,
      hpolicy, hn.get?_localTable_eq hn.selfReliant hn'.toSettled hn'.selfReliant hp]
  | false => rw [hn.nextHop_advertised hfilter hp, hn'.nextHop_advertised hfilter hp, hnextHop]

/-- If a peer advertises a route for a prefix, then the prefix is not left without a route. -/
theorem Established.exists_nextHop (h : n.Established settings directory filter routes)
    {a : AccountId} (hmem : (a, s) ∈ n.tracked)
    (hroute : ((n.listener? s).bind (·.2.route? p)).isSome = true) :
    (∃ r, n.incoming.get? p = some r) ∧
      ∃ hop, (n.localTable.get? p).map Route.nextHop = some hop := by
  obtain ⟨route, hroute⟩ := Option.isSome_iff_exists.1 hroute
  obtain ⟨l, hl, hroute⟩ := Option.bind_eq_some_iff.1 hroute
  have hheld : route ∈ (n.peerRoutes p).filterMap id :=
    Directory.mem_filterMap_id.2 (mem_peerRoutes_iff_listener?.2 ⟨a, s, l, hmem, hl, hroute⟩)
  obtain ⟨best, hbest, -, hnone⟩ := h.tidy.bestPeerRoute p
  have hincoming : n.incoming.get? p = best :=
    Except.ok.inj ((h.coherentAt p).incoming.symm.trans hbest)
  rw [(h.coherentAt p).nextHop, hincoming]
  cases best with
  | none => rw [hnone.1 rfl] at hheld; cases hheld
  | some r =>
    refine ⟨⟨r, rfl⟩, ?_⟩
    rw [select, Option.map_some, Option.or_some]
    exact ⟨_, rfl⟩

/-- Settings and directory are fixed, a reload succeeded, and the filter holds nothing back.  Two
runs start from the same state, whatever the order in which the open sessions are looked at.  Every
tracked account sends the same packets in the same order, none of which expires; how the packets of
different accounts are interleaved is open, as is what the node sends meanwhile.  Then at the end
all receivers are the same, apart from the time until which they keep their routes.  So are the
incoming routes, the next hops of the routes in use, and the next hops that are advertised. -/
theorem sameRoutes_of_interleaved {codec : Codec} {id : TableId} {links : List Link}
    {before after left right : List Move} (hbefore : ∀ m ∈ before, m.IsRoutine)
    (hreload : ((fresh settings directory codec filter id links).run before).reload.2 = .ok ())
    (hafter : ∀ m ∈ after, m.IsRoutine)
    (hfilter : ∀ suppresses, filter = some suppresses → ∀ p r, suppresses p r = false)
    (hleft : ∀ m ∈ left, m.IsTraffic) (hright : ∀ m ∈ right, m.IsTraffic) :
    let n := (((fresh settings directory codec filter id links).run before).move .reload).run after
    (∀ a s, (a, s) ∈ n.tracked → packetsFrom a left = packetsFrom a right) →
    ∀ leftOrder rightOrder, leftOrder.Perm n.tracked → rightOrder.Perm n.tracked →
      let n₁ := { n with tracked := leftOrder }.run left
      let n₂ := { n with tracked := rightOrder }.run right
      (∀ s, (n₂.session? s).map (·.receiver.timeless) =
        (n₁.session? s).map (·.receiver.timeless)) ∧
      ∀ p, n₂.incoming.get? p = n₁.incoming.get? p ∧
        (n₂.localTable.get? p).map Route.nextHop = (n₁.localTable.get? p).map Route.nextHop ∧
        (n₂.outgoing.get? p).bind nextHop? = (n₁.outgoing.get? p).bind nextHop? := by
  intro n hpackets leftOrder rightOrder hleftOrder hrightOrder n₁ n₂
  obtain ⟨routes, hreloaded⟩ := established_of_reload hbefore hreload
  have hn : n.Established settings directory filter routes := hreloaded.steps (run_steps hafter)
  have hstart₁ := hn.reorder hleftOrder
  have hstart₂ := hn.reorder hrightOrder
  have hn₁ : n₁.Established settings directory filter routes :=
    hstart₁.steps (run_steps fun m hm => (hleft m hm).isRoutine)
  have hn₂ : n₂.Established settings directory filter routes :=
    hstart₂.steps (run_steps fun m hm => (hright m hm).isRoutine)
  have hheard : n₁.HeardSame n₂ := by
    have hstart : HeardSame { n with tracked := leftOrder } { n with tracked := rightOrder } :=
      ⟨hrightOrder.trans hleftOrder.symm, fun _ => rfl⟩
    exact hstart.run hstart₁.tidy.toOrderly hstart₂.tidy.toOrderly rfl rfl hleft hright
      fun a s hs => hpackets a s (hleftOrder.mem_iff.1 hs)
  refine ⟨fun s => ?_, fun p => ?_⟩
  · have hreceiver := congrArg (Option.map Prod.snd) (hheard.listener s)
    rw [listener?, listener?, Option.map_map, Option.map_map] at hreceiver
    exact hreceiver
  · have hsame := hheard.sameRoutesAt hn₁ hn₂ hfilter p
    exact ⟨hsame.incoming, hsame.nextHop, hsame.advertised⟩

/-- Two peers are connected. -/
def bothConnected : List Move :=
  [.event ⟨smallPeer.id, .connected⟩, .event ⟨friend.id, .connected⟩]

/-- The peer advertises a route first and then the friend does, or the other way round.  Either way
the same route comes in, and the same next hop is in use and advertised. -/
theorem sameRoutes_of_swapped :
    let left : List Move :=
      [(routeThrough [] 0).move smallPeer.id, (routeThrough [] 0).move friend.id]
    let n := ((smallWithFriend.run []).move .reload).run bothConnected
    let n₁ := { n with tracked := n.tracked }.run left
    let n₂ := { n with tracked := n.tracked.reverse }.run left.reverse
    (∀ m ∈ bothConnected, m.IsRoutine) ∧ (smallWithFriend.run []).reload.2 = .ok () ∧
      (∀ m ∈ left, m.IsTraffic) ∧ (∀ m ∈ left.reverse, m.IsTraffic) ∧
      (∀ a s, (a, s) ∈ n.tracked → packetsFrom a left = packetsFrom a left.reverse) ∧
      n.tracked = [(smallPeer.id, ⟨0⟩), (friend.id, ⟨1⟩)] ∧ n.tracked.reverse.Perm n.tracked ∧
      (∃ r, n₁.incoming.get? remote = some r ∧ n₂.incoming.get? remote = some r) ∧
      ∃ hop, (n₁.localTable.get? remote).map Route.nextHop = some hop ∧
        (n₂.localTable.get? remote).map Route.nextHop = some hop ∧
        (n₁.outgoing.get? remote).bind nextHop? = some hop ∧
        (n₂.outgoing.get? remote).bind nextHop? = some hop := by
  intro left n n₁ n₂
  have hafter : ∀ m ∈ bothConnected, m.IsRoutine := by simp [bothConnected, Move.IsRoutine]
  have hreload : (smallWithFriend.run []).reload.2 = .ok () := reload_eq_ok (tidy_fresh ..) rfl
  have hleft : ∀ m ∈ left, m.IsTraffic := by
    have hexpiry : ¬(routeThrough [] 0).packet.expiresAt < (routeThrough [] 0).now := by decide
    simp [left, Delivery.move, Move.IsTraffic, hexpiry]
  have hright : ∀ m ∈ left.reverse, m.IsTraffic := fun m hm => hleft m (List.mem_reverse.1 hm)
  have hpackets : ∀ a s, (a, s) ∈ n.tracked → packetsFrom a left = packetsFrom a left.reverse := by
    -- Both packets are the same, so only their number counts.
    intro a s _
    by_cases hpeer : smallPeer.id = a <;> by_cases hfriend : friend.id = a <;>
      simp [left, packetsFrom, Delivery.move, Move.packetFrom?, hpeer, hfriend]
  have htracked : n.tracked = [(smallPeer.id, ⟨0⟩), (friend.id, ⟨1⟩)] := by decide +kernel
  have hfilter : ∀ suppresses : Prefix → Route → Bool, none = some suppresses →
      ∀ p r, suppresses p r = false := fun _ h => by cases h
  obtain ⟨hincoming, hused, hadvertised⟩ := (@sameRoutes_of_interleaved smallSettings twoPeers none
    .json small.outgoing.id [{ account := smallPeer.id }, { account := friend.id }] []
    bothConnected left left.reverse (fun _ hm => absurd hm List.not_mem_nil) hreload hafter hfilter
    hleft hright hpackets n.tracked n.tracked.reverse (List.Perm.refl _)
    (List.reverse_perm _)).2 remote
  -- The peer's receiver holds a route, whichever packet came first.
  obtain ⟨routes, hreloaded⟩ :=
    established_of_reload (fun _ hm => absurd hm List.not_mem_nil) hreload
  have hn : n.Established smallSettings twoPeers none routes := hreloaded.steps (run_steps hafter)
  have hn₁ : n₁.Established smallSettings twoPeers none routes :=
    hn.steps (run_steps fun m hm => (hleft m hm).isRoutine)
  have hopen : (smallPeer.id, ⟨0⟩) ∈ n₁.tracked := by
    rw [tracked_run hleft, htracked]
    exact List.mem_cons_self
  have hheard : ((n₁.listener? ⟨0⟩).bind (·.2.route? remote)).isSome = true := by
    rw [hn.tidy.toOrderly.listener?_run hleft (a := smallPeer.id) (by decide +kernel)]
    decide +kernel
  obtain ⟨⟨r, hr⟩, hop, hhop⟩ := hn₁.exists_nextHop hopen hheard
  have hshown : (n₁.outgoing.get? remote).bind nextHop? = some hop := by
    rw [hn₁.nextHop_advertised hfilter (by decide), hhop, Option.filter_some_pos (by decide)]
  exact ⟨hafter, hreload, hleft, hright, hpackets, htracked, List.reverse_perm _,
    ⟨r, hr, hincoming.trans hr⟩, hop, hhop, hused.trans hhop, hshown, hadvertised.trans hshown⟩

end Node

end RouteSync
