import RouteSync.Proofs.Node.Deadlines

/-!
# Routes that lapse

The routes of a peer lapse when its receiver's deadlines are over.  To purge lapsed routes at some
time, every receiver whose routes have lapsed by then forgets them, routes are chosen anew for their
prefixes, and the peer is asked for fresh ones (`Node.purge`).

Whatever happened since a reload that succeeded, settings and directory being fixed, this reaches
the receivers with lapsed routes and no others, and then no table shows any of these routes
(`purged_of_run`).  A receiver that knows no table is passed over, which is no harm because it holds
no routes (`Took.route?_eq_none`).  Several receivers may hold a route for one prefix, and when
routes are chosen anew for it, some of them may have lapsed without being forgotten yet.  What is
chosen then does not stay, since the prefix is also one of those that the later receiver gives back:
the tables fit together after each task, as after every move.

While the tasks of a purge are done, answers to packets may come in (`Serves`).  Packets that the
node handles between two tasks of one purge are outside of this: which receivers forget their routes
is settled when the purge begins, and so a peer that is heard again in the middle of it loses what
it has just advertised, although that has not lapsed.
-/

namespace RouteSync.Node

/-! ### Moves under one configuration -/

/-- Whether a move is the node's own, or the filter comes to decide differently.  Settings and
directory stay, and nobody else opens or uses sessions. -/
def Move.IsOrdinary : Move → Prop
  | .filter _ => True
  | m => m.IsRoutine

theorem Move.IsOrdinary.onRecord {m : Move} (hm : m.IsOrdinary)
    (record : Node → Move → List Arrival) (n : Node) : m.OnRecord record n := by
  cases m with
  | track session => exact hm.elim
  | useSession s use => exact hm.elim
  | _ => trivial

/-- The filter has no say in which routes are used. -/
theorem filter_keeps (n : Node) (filter : Option (Prefix → Route → Bool)) :
    Keeps [] n (n.move (.filter filter)) where
  settings := rfl
  directory := rfl
  tidy hn := ⟨hn.toOrderly.congr rfl rfl, hn.knows⟩
  coherent _ _ _ hp := hp.congr rfl rfl rfl rfl rfl rfl

theorem Move.IsOrdinary.keeps {m : Move} (hm : m.IsOrdinary) (n : Node) :
    Keeps [] n (n.move m) := by
  cases m with
  | filter filter => exact filter_keeps n filter
  | _ => exact move_keeps n hm

theorem keeps_of_run {n : Node} {moves : List Move} (hmoves : ∀ m ∈ moves, m.IsOrdinary) :
    Keeps [] n (n.run moves) :=
  run_induction (fun n' m hm h => h.trans ((hmoves m hm).keeps n')) (.refl n)

theorem onRecord_of_run {moves : List Move} (hmoves : ∀ m ∈ moves, m.IsOrdinary)
    (record : Node → Move → List Arrival) (n : Node) :
    Along (fun n m => m.OnRecord record n) n moves := by
  induction moves generalizing n with
  | nil => trivial
  | cons m moves ih =>
    exact ⟨(hmoves m List.mem_cons_self).onRecord record n,
      ih (fun m' hm' => hmoves m' (List.mem_cons_of_mem m hm')) (n.move m)⟩

/-! ### Tasks that are done in order -/

/-- Tasks are begun one after the other.  Meanwhile packets of the node may be answered, these or
earlier ones, but it handles none itself. -/
inductive Serves : List Task → List Move → Prop where
  | nil : Serves [] []
  | begin {tasks : List Task} {moves : List Move} (now : Timestamp) (clock : Nat) (task : Task) :
      Serves tasks moves → Serves (task :: tasks) (.begin now clock task :: moves)
  | settle {tasks : List Task} {moves : List Move} (o : Outbound) (answer : LinkAnswer) :
      Serves tasks moves → Serves tasks (.settle o answer :: moves)

/-- The tasks may be done without any packet being answered. -/
theorem serves_map_begin (now : Timestamp) (clock : Nat) (tasks : List Task) :
    Serves tasks (tasks.map (.begin now clock)) := by
  induction tasks with
  | nil => exact .nil
  | cons task tasks ih => exact ih.begin now clock task

theorem Serves.isOrdinary {tasks : List Task} {moves : List Move} (h : Serves tasks moves) :
    ∀ m ∈ moves, m.IsOrdinary := by
  induction h with
  | nil => exact fun m hm => absurd hm List.not_mem_nil
  | begin now clock task _ ih =>
    rintro m (_ | ⟨_, hm⟩)
    · trivial
    · exact ih m hm
  | settle o answer _ ih =>
    rintro m (_ | ⟨_, hm⟩)
    · trivial
    · exact ih m hm

/-- The receiver of a session. -/
def receiver? (n : Node) (s : SessionId) : Option Receiver :=
  (n.session? s).map (·.receiver)

/-- The receiver of the session forgets its routes, and no other one does. -/
theorem expireSession_receivers (n : Node) (s : SessionId) :
    (n.expireSession s).tracked = n.tracked ∧ ∀ t, (n.expireSession s).receiver? t =
      (n.receiver? t).map fun r => if t = s then r.clear.1 else r := by
  cases hsession : n.session? s with
  | none =>
    have hsame : n.expireSession s = n := by rw [expireSession, hsession]
    rw [hsame]
    refine ⟨rfl, fun t => ?_⟩
    rw [receiver?]
    split
    · rename_i hts
      rw [hts, hsession]
      rfl
    · cases n.session? t <;> rfl
  | some session =>
    have hretabled : Retabled (n.setReceiver s session.receiver.clear.1) (n.expireSession s) := by
      rw [expireSession, hsession]
      exact recomputeEach_retabled _ _
    rw [hretabled]
    refine ⟨rfl, fun t => ?_⟩
    show ((n.setReceiver s session.receiver.clear.1).session? t).map (·.receiver) = _
    rw [setReceiver, session?_modifySession, receiver?]
    split
    · rename_i hts
      rw [hts, hsession]
      rfl
    · cases n.session? t <;> rfl

theorem Retabled.receiver? {n n' : Node} (h : Retabled n n') (t : SessionId) :
    n'.receiver? t = n.receiver? t := by
  rw [h]
  rfl

theorem SendsOnly.receiver? {n n' : Node} (h : n.SendsOnly n') (t : SessionId) :
    n'.receiver? t = n.receiver? t := by
  obtain ⟨s, change, loops, rfl⟩ := h
  refine map_session?_modifySession _ ?_ t
  exact fun _ _ => rfl

/-- Asking for routes and forgetting lapsed ones reaches the receivers that are to forget. -/
theorem Serves.receivers {tasks : List Task} {moves : List Move} (h : Serves tasks moves)
    (htasks : ∀ task ∈ tasks, ∃ s, task = .expire s ∨ task = .requestRoutes s) (n : Node) :
    (n.run moves).tracked = n.tracked ∧ ∀ t, (n.run moves).receiver? t =
      (n.receiver? t).map fun r => if .expire t ∈ tasks then r.clear.1 else r := by
  induction h generalizing n with
  | nil =>
    refine ⟨rfl, fun t => ?_⟩
    simp only [List.not_mem_nil, if_false, Option.map_id']
    rfl
  | @begin tasks moves now clock task _ ih =>
    obtain ⟨htracked, hreceivers⟩ :=
      ih (fun task' h => htasks task' (List.mem_cons_of_mem task h)) (n.begin now clock task).1
    obtain ⟨s, rfl | rfl⟩ := htasks task List.mem_cons_self
    · obtain ⟨htracked', hreceivers'⟩ := expireSession_receivers n s
      refine ⟨htracked.trans htracked', fun t => (hreceivers t).trans ?_⟩
      show ((n.expireSession s).receiver? t).map _ = _
      rw [hreceivers', Option.map_map]
      refine congrArg (n.receiver? t |>.map ·) (funext fun r => ?_)
      by_cases hts : t = s <;> by_cases hmem : Task.expire t ∈ tasks <;>
        simp [hts, hmem, Receiver.clear]
    · refine ⟨htracked.trans (by rw [begin_requestRoutes]), fun t => (hreceivers t).trans ?_⟩
      rw [begin_requestRoutes]
      simp only [List.mem_cons, reduceCtorEq, false_or]
  | settle o answer _ ih =>
    have hsends := settle_sendsOnly n o answer
    obtain ⟨htracked, hreceivers⟩ := ih htasks (n.settle o answer).1
    refine ⟨htracked.trans ?_, fun t => (hreceivers t).trans ?_⟩
    · obtain ⟨s, change, loops, hnode⟩ := hsends
      rw [hnode]
      rfl
    · rw [hsends.receiver?]

/-! ### Purging -/

theorem Retabled.purge {n n' : Node} (h : Retabled n n') (now : Timestamp) :
    n'.purge now = n.purge now := by
  rw [h]
  rfl

theorem exists_of_mem_purge {n : Node} {now : Timestamp} {task : Task} (h : task ∈ n.purge now) :
    ∃ s, task = .expire s ∨ task = .requestRoutes s := by
  obtain ⟨t, -, htask⟩ := List.mem_flatMap.1 h
  simp only [List.mem_cons, List.not_mem_nil, or_false] at htask
  exact ⟨t.2, htask⟩

/-- The receivers of open sessions are to forget what has lapsed. -/
theorem expire_mem_purge_iff {n : Node} {now : Timestamp} {s : SessionId} :
    .expire s ∈ n.purge now ↔
      ∃ a, (a, s) ∈ n.tracked ∧ ∃ r, n.receiver? s = some r ∧ r.isExpired now = true := by
  simp only [purge, List.mem_flatMap, List.mem_filter, List.mem_cons, Task.expire.injEq,
    reduceCtorEq, List.not_mem_nil, or_false, receiver?, Option.map_eq_some_iff, Option.any_eq_true]
  constructor
  · rintro ⟨⟨a, t⟩, ⟨hmem, session, hsession, hexpired⟩, rfl⟩
    exact ⟨a, hmem, _, ⟨session, hsession, rfl⟩, hexpired⟩
  · rintro ⟨a, hmem, _, ⟨session, hsession, rfl⟩, hexpired⟩
    exact ⟨(a, s), ⟨hmem, session, hsession, hexpired⟩, rfl⟩

/-- A purge makes a receiver as good as new if it knows a table but its deadlines are over, and
leaves it alone otherwise. -/
theorem Serves.receiver_of_purge {n : Node} {now : Timestamp} {moves : List Move}
    (h : Serves (n.purge now) moves) (hn : n.Orderly) {a : AccountId} {s : SessionId}
    (hmem : (a, s) ∈ n.tracked) : ∃ r, n.receiver? s = some r ∧ (n.run moves).receiver? s = some
      (if r.tableId.isSome ∧ r.expiry < now then
        { r with tableId := none, epoch := 0, routes := RouteTable.empty } else r) := by
  obtain ⟨session, hsession, -⟩ := hn.session_of_tracked a s hmem
  have hr : n.receiver? s = some session.receiver := by rw [receiver?, hsession]; rfl
  have hexpired : .expire s ∈ n.purge now ↔
      session.receiver.tableId.isSome ∧ session.receiver.expiry < now := by
    simp only [expire_mem_purge_iff, hr, Receiver.isExpired, Option.some.injEq,
      exists_eq_left', Bool.and_eq_true, decide_eq_true_eq]
    exact ⟨fun ⟨_, _, hlapsed⟩ => hlapsed, fun hlapsed => ⟨a, hmem, hlapsed⟩⟩
  refine ⟨session.receiver, hr, ?_⟩
  rw [(h.receivers (fun _ => exists_of_mem_purge) n).2, hr]
  simp only [Option.map_some, hexpired]
  rfl

/-- What becomes of a node when lapsed routes are purged at some time. -/
structure Purged (now : Timestamp) (n n' : Node) : Prop where
  tracked : n'.tracked = n.tracked
  /-- A receiver that knows a table, but whose deadlines are over, is as good as new; all others
  stay as they were. -/
  receiver : ∀ a s, (a, s) ∈ n.tracked → ∃ r, n.receiver? s = some r ∧ n'.receiver? s = some
    (if r.tableId.isSome ∧ r.expiry < now then
      { r with tableId := none, epoch := 0, routes := RouteTable.empty } else r)
  /-- No route is held any longer than it should be. -/
  held : ∀ a s r p i, (a, s) ∈ n'.tracked → n'.receiver? s = some r → r.route? p = some i →
    ¬r.expiry < now
  /-- No account is named whose routes have lapsed. -/
  incoming : ∀ a s r p i, (a, s) ∈ n.tracked → n.receiver? s = some r → r.tableId.isSome →
    r.expiry < now → n'.incoming.get? p = some i → i.peer ≠ a
  /-- The next hops are those of the best routes that are left. -/
  nextHop : ∀ p, ∃ best, n'.bestRoute p = .ok best ∧
    (n'.localTable.get? p).map Route.nextHop = best.map Route.nextHop

/-- Where sessions are in order and tables fit together, purging does what it should, provided that
no receiver holds routes without knowing a table. -/
theorem Serves.purged {n : Node} {now : Timestamp} {moves : List Move}
    (h : Serves (n.purge now) moves) (htidy : n.Tidy) (hcoherent : ∀ p, n.CoherentAt p)
    (hholds : ∀ s r p, n.receiver? s = some r → r.tableId = none → r.route? p = none) :
    Purged now n (n.run moves) := by
  have hkeeps : Keeps [] n (n.run moves) := keeps_of_run h.isOrdinary
  have htidy' := hkeeps.tidy htidy
  have htracked := (h.receivers (fun _ => exists_of_mem_purge) n).1
  refine ⟨htracked, fun a s hmem => h.receiver_of_purge htidy.toOrderly hmem,
    fun a s r p i hmem hr hroute hexpiry => ?_,
    fun a s r p i hmem hr hid hexpiry hi hpeer => ?_, fun p => ?_⟩
  · obtain ⟨before, hbefore, hafter⟩ := h.receiver_of_purge htidy.toOrderly (htracked ▸ hmem)
    rw [hr, Option.some.injEq] at hafter
    rw [hafter] at hroute hexpiry
    split at hroute
    · cases hroute
    · rename_i hkept
      rw [if_neg hkept] at hexpiry
      -- Without a table it would have been passed over, but then it holds no route either.
      have hid : before.tableId = none :=
        Option.not_isSome_iff_eq_none.1 fun hid => hkept ⟨hid, hexpiry⟩
      rw [hholds s before p hbefore hid] at hroute
      cases hroute
  · -- Whoever is named still holds a route, and the receiver of the account holds none.
    have hbest := (hkeeps.coherent htidy p List.not_mem_nil (hcoherent p)).incoming
    rw [hi] at hbest
    obtain ⟨t, session, ht, hsession, hroute⟩ :=
      htidy'.mem_peerRoutes_iff.1 (mem_peerRoutes_of_bestPeerRoute hbest)
    have hts : t = s := htidy'.session_unique a t s (hpeer ▸ ht) (htracked ▸ hmem)
    obtain ⟨before, hbefore, hafter⟩ := h.receiver_of_purge htidy.toOrderly hmem
    rw [hr, Option.some.injEq] at hbefore
    rw [← hbefore, if_pos ⟨hid, hexpiry⟩, receiver?, ← hts, hsession] at hafter
    have hcleared : session.receiver =
        { r with tableId := none, epoch := 0, routes := RouteTable.empty } :=
      Option.some.inj hafter
    rw [hcleared] at hroute
    cases hroute
  · have hp := hkeeps.coherent htidy p List.not_mem_nil (hcoherent p)
    refine ⟨_, ?_, hp.nextHop⟩
    rw [bestRoute, hp.incoming]
    rfl

/-! ### Runs -/

/-- Settings and directory are fixed, and a reload succeeded some time.  Whatever else happened
before and since, purging lapsed routes at any time does what it should: it makes the receivers
forget everything whose deadlines are over, and no others, and the tables follow.  In every run, and
whatever else somebody does with receivers, the time at which the routes of a receiver lapse is the
latest of the beginning of time and the deadlines of all updates that ever reached it. -/
theorem purged_of_run {settings : Settings} {directory : Directory} {codec : Codec}
    {filter : Option (Prefix → Route → Bool)} {id : TableId} {links : List Link}
    {before after : List Move} (hbefore : ∀ m ∈ before, m.IsOrdinary)
    (hreload : ((fresh settings directory codec filter id links).run before).reload.2 = .ok ())
    (hafter : ∀ m ∈ after, m.IsOrdinary) (now : Timestamp) :
    let built := fresh settings directory codec filter id links
    let n := ((built.run before).move .reload).run after
    (∀ moves, Serves (n.purge now) moves → Purged now n (n.run moves)) ∧
      ∀ (record : Node → Move → List Arrival) (moves : List Move),
        Along (fun n m => m.OnRecord record n) built moves →
        ∀ s r, (built.run moves).receiver? s = some r →
          let reached := arrivals record s built moves
          r.Took reached ∧ r.expiry.IsLatest (.origin :: reached.map (·.deadline)) := by
  intro built n
  have hbuilt : Keeps [] built (built.run before) := keeps_of_run hbefore
  obtain ⟨htidy, hcoherent⟩ := hbuilt.coherent_reload hreload
  have hkeeps : Keeps [] (built.run before).reload.1 n := keeps_of_run hafter
  have htook : ∀ record moves, Along (fun n m => m.OnRecord record n) built moves →
      ∀ s r, (built.run moves).receiver? s = some r →
        r.Took (arrivals record s built moves) := by
    intro record moves hmoves s r hr
    obtain ⟨session, hsession, rfl⟩ := Option.map_eq_some_iff.1 hr
    exact took_of_run hmoves hsession
  refine ⟨fun moves hserves => ?_, fun record moves hmoves s r hr => ?_⟩
  · refine hserves.purged (hkeeps.tidy htidy)
      (fun p => hkeeps.coherent htidy p List.not_mem_nil (hcoherent p)) fun s r p hr hid => ?_
    have hrun : n = built.run (before ++ .reload :: after) := by
      rw [run_append]
      rfl
    have hall : ∀ m ∈ before ++ .reload :: after, m.IsOrdinary := by
      intro m hm
      rcases List.mem_append.1 hm with hm | _ | ⟨_, hm⟩
      · exact hbefore m hm
      · trivial
      · exact hafter m hm
    exact (htook (fun _ _ => []) _ (onRecord_of_run hall _ built) s r (hrun ▸ hr)).route?_eq_none
      hid p
  · have hreached := htook record moves hmoves s r hr
    exact ⟨hreached, hreached.isLatest_expiry⟩

/-! ### Two peers that fall silent -/

/-- The peer is connected and advertises a route, to be kept for thirty seconds, and then the friend
is connected. -/
def peerAdvertises : List Move :=
  [.event ⟨smallPeer.id, .connected⟩, (routeThrough [] 0).move smallPeer.id,
    .event ⟨friend.id, .connected⟩]

/-- The node then. -/
def awaiting : Node :=
  ((smallWithFriend.run []).move .reload).run peerAdvertises

theorem isSome_friendSession : (awaiting.session? ⟨1⟩).isSome = true := by
  decide +kernel

/-- The friend's session. -/
def friendSession : Session :=
  (awaiting.session? ⟨1⟩).get isSome_friendSession

/-- The friend's receiver takes the same route in. -/
def bothHeard : Node :=
  awaiting.setReceiver ⟨1⟩ (friendSession.receiver.apply .origin
    ((routeThrough [] 0).update.admitted awaiting.settings)).1

theorem retabled_bothHeard :
    Retabled bothHeard (awaiting.move ((routeThrough [] 0).move friend.id)) := by
  obtain ⟨htracked, hreceives, hdecode⟩ : awaiting.trackedSession? friend.id = some ⟨1⟩ ∧
      friendSession.account.receivesRoutes = true ∧
      (awaiting.codec.decodeUpdate (routeThrough [] 0).packet.data).toOption =
        some (routeThrough [] 0).update := by
    decide +kernel
  have hlistens : awaiting.ListensTo friend.id ⟨1⟩ friendSession :=
    ⟨htracked, (Option.some_get _).symm, hreceives⟩
  exact hlistens.retabled ⟨rfl, rfl, eq_ok_of_toOption hdecode⟩

/-- The peer and the friend advertise a route for the same prefix and then fall silent.  Their
routes are kept as long as they asked for, and no longer. -/
theorem purged_of_silence :
    let now : Timestamp := ⟨30000000001⟩
    let moves := peerAdvertises ++ [(routeThrough [] 0).move friend.id]
    let n := ((smallWithFriend.run []).move .reload).run moves
    let purging : List Move := (n.purge now).map (.begin now 0)
    let n' := n.run purging
    let reached := fun s => arrivals (fun _ _ => []) s smallWithFriend (.reload :: moves)
    (∀ m ∈ moves, m.IsOrdinary) ∧ (smallWithFriend.run []).reload.2 = .ok () ∧
      n.purge ⟨30000000000⟩ = [] ∧
      n.purge now = [.expire ⟨0⟩, .requestRoutes ⟨0⟩, .expire ⟨1⟩, .requestRoutes ⟨1⟩] ∧
      Serves (n.purge now) purging ∧ Purged now n n' ∧
      n.tracked = [(smallPeer.id, ⟨0⟩), (friend.id, ⟨1⟩)] ∧
      ∀ a s, (a, s) ∈ n.tracked →
        ∃ r r', n.receiver? s = some r ∧ (r.route? remote).isSome = true ∧
          n'.receiver? s = some r' ∧ r'.route? remote = none ∧
          (∀ i, n'.incoming.get? remote = some i → i.peer ≠ a) ∧
          r.Took (reached s) ∧ (reached s).map (·.deadline) = [⟨30000000000⟩] ∧
          r.expiry.IsLatest [.origin, ⟨30000000000⟩] := by
  intro now moves n purging n' reached
  have hbefore : ∀ m ∈ ([] : List Move), m.IsOrdinary :=
    fun m hm => absurd hm List.not_mem_nil
  have hafter : ∀ m ∈ moves, m.IsOrdinary := by
    simp [moves, peerAdvertises, Delivery.move, Move.IsOrdinary, Move.IsRoutine]
  have hreload : (smallWithFriend.run []).reload.2 = .ok () := reload_eq_ok (tidy_fresh ..) rfl
  have hserves : Serves (n.purge now) purging := serves_map_begin now 0 _
  have hheard : Retabled bothHeard n := retabled_bothHeard
  have hsame : n.tracked = bothHeard.tracked := by rw [hheard]
  obtain ⟨htracked, hkept, hpurge, hlapsed⟩ :
      bothHeard.tracked = [(smallPeer.id, ⟨0⟩), (friend.id, ⟨1⟩)] ∧
        bothHeard.purge ⟨30000000000⟩ = [] ∧
        bothHeard.purge now =
          [.expire ⟨0⟩, .requestRoutes ⟨0⟩, .expire ⟨1⟩, .requestRoutes ⟨1⟩] ∧
        ∀ t ∈ bothHeard.tracked, ((bothHeard.receiver? t.2).any fun r =>
            (r.route? remote).isSome && r.isExpired now) = true ∧
          (reached t.2).map (·.deadline) = [⟨30000000000⟩] := by
    decide +kernel
  rw [← hsame] at htracked hlapsed
  rw [← hheard.purge] at hkept hpurge
  obtain ⟨hpurged, hexpiry⟩ := purged_of_run hbefore hreload hafter now
  have hpurged : Purged now n n' := hpurged purging hserves
  refine ⟨hafter, hreload, hkept, hpurge, hserves, hpurged, htracked, fun a s hmem => ?_⟩
  obtain ⟨hany, hdeadlines⟩ := hlapsed (a, s) hmem
  obtain ⟨r, hr, hr'⟩ := hpurged.receiver a s hmem
  rw [← hheard.receiver?, hr, Option.any_some, Bool.and_eq_true] at hany
  obtain ⟨hroute, hexpired⟩ := hany
  rw [Receiver.isExpired, Bool.and_eq_true, decide_eq_true_eq] at hexpired
  rw [if_pos hexpired] at hr'
  have hordinary : ∀ m ∈ .reload :: moves, m.IsOrdinary := by
    rintro m (_ | ⟨_, hm⟩)
    · trivial
    · exact hafter m hm
  have hrun : n = smallWithFriend.run (.reload :: moves) := (List.foldl_cons ..).symm
  obtain ⟨htook, hlatest⟩ :=
    hexpiry (fun _ _ => []) (.reload :: moves) (onRecord_of_run hordinary _ _) s r (hrun ▸ hr)
  refine ⟨r, _, hr, hroute, hr', rfl,
    fun i => hpurged.incoming a s r remote i hmem hr hexpired.1 hexpired.2, htook, hdeadlines, ?_⟩
  rw [← hdeadlines]
  exact hlatest

end RouteSync.Node
