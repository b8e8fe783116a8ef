import RouteSync.Proofs.Node.Admission
import RouteSync.Proofs.Node.Coherence
import RouteSync.Proofs.Node.Senders

/-!
# Accounts that are no longer tracked

When the link of an account goes down, or the account is unregistered, its session is closed and
routes are chosen anew for the prefixes that its receiver holds.  After that the tables should show
nothing of what the account advertised (`Withdrawn`).

This needs two things.  What the tables show of an account must come from a route that its receiver
still holds (`Backed`).  That is so as long as all accounts with an open session were in the
directory whenever the node did something (`backed_of_run`).  And the choice must be possible for
all of these prefixes.  It is not where another account with an open session, which is missing from
the directory, holds a route as well (`Blocked`), and the first prefix of this kind ends the work on
all that come after it.  So the routes of an account are withdrawn if no prefix is blocked, and at a
blocked one nothing changes (`withdrawn_of_run`).
-/

namespace RouteSync.Node

/-- Whether an account with an open session advertises a route for a prefix. -/
def Holds (n : Node) (a : AccountId) (p : Prefix) : Prop :=
  ∃ r, some r ∈ n.peerRoutes p ∧ r.peer = a

/-- Whether the tables show nothing of what an account may have advertised for a prefix: the table
of incoming routes does not name it, and packets go to it only by a static route or by a route that
the node makes itself. -/
structure Withdrawn (n : Node) (a : AccountId) (p : Prefix) : Prop where
  incoming : ∀ i, n.incoming.get? p = some i → i.peer ≠ a
  localTable : ∀ r, n.localTable.get? p = some r → r.nextHop = a →
    ⟨p, a⟩ ∈ n.settings.staticRoutes ∨ ∃ own, n.originated.get? p = some own ∧ own.nextHop = a

/-- What the tables show of an account at a prefix comes from a route that the account advertises.
-/
def Backed (n : Node) (a : AccountId) (p : Prefix) : Prop :=
  n.Holds a p ∨ n.Withdrawn a p

/-- Whether another account with an open session advertises a route for a prefix, although it is
missing from the directory. -/
def Blocked (n : Node) (a : AccountId) (p : Prefix) : Prop :=
  ∃ r, some r ∈ n.peerRoutes p ∧ r.peer ≠ a ∧ n.directory.knows r.peer = false

/-! ### What these hang on -/

theorem Withdrawn.congr {n n' : Node} {a : AccountId} {p : Prefix} (h : n.Withdrawn a p)
    (hsettings : n'.settings = n.settings)
    (horiginated : n'.originated.get? p = n.originated.get? p)
    (hincoming : n'.incoming.get? p = n.incoming.get? p)
    (hlocal : n'.localTable.get? p = n.localTable.get? p) : n'.Withdrawn a p where
  incoming := by
    rw [hincoming]
    exact h.incoming
  localTable := by
    rw [hlocal, hsettings, horiginated]
    exact h.localTable

theorem Retabled.peerRoutes {n n' : Node} (h : Retabled n n') (p : Prefix) :
    n'.peerRoutes p = n.peerRoutes p := by
  rw [h]
  rfl

theorem Retabled.holds_iff {n n' : Node} (h : Retabled n n') (a : AccountId) (p : Prefix) :
    n'.Holds a p ↔ n.Holds a p := by
  rw [Holds, h.peerRoutes]
  rfl

/-- A change keeps this wherever it leaves the choice settled. -/
theorem Unsettles.backed {stale : List Prefix} {n n' : Node} (h : Unsettles stale n n')
    (hn : n.Orderly) {a : AccountId} {p : Prefix} (hp : p ∉ stale) (hb : n.Backed a p) :
    n'.Backed a p := by
  rcases hb with ⟨r, hr, hpeer⟩ | hwithdrawn
  · exact .inl ⟨r, (h.peerRoutes hn p hp r).2 hr, hpeer⟩
  · exact .inr (hwithdrawn.congr h.settings (h.originated p hp) (by rw [h.incoming])
      (by rw [h.localTable]))

/-! ### Choosing anew -/

theorem mem_staticRoutes_of_staticRoute? {s : Settings} {d : Directory} {p : Prefix} {r : Route}
    (h : s.staticRoute? d p = some r) : ⟨p, r.nextHop⟩ ∈ s.staticRoutes := by
  unfold Settings.staticRoute? at h
  split at h
  · rename_i static hfind
    have htarget : static.target = p := by simpa using List.find?_some hfind
    split at h
    · cases h
      rw [← htarget]
      exact List.mem_of_find?_eq_some hfind
    · cases h
  · cases h

/-- Where no route of an account is there to choose, none is shown after the choice. -/
theorem withdrawn_of_recompute {n n' : Node} {p : Prefix} (h : n.recompute p = .ok n')
    {a : AccountId} (hnone : ¬n.Holds a p) : n'.Withdrawn a p := by
  obtain ⟨best, hbest, hincoming, hnextHop, -⟩ := get?_of_recompute h
  have hpeer : ∀ i, best = some i → i.peer ≠ a := by
    rintro i rfl hi
    exact hnone ⟨i, mem_peerRoutes_of_bestPeerRoute hbest, hi⟩
  refine ⟨fun i hi => ?_, fun r hr ha => ?_⟩
  · rw [hincoming, if_pos rfl] at hi
    exact hpeer i hi
  · rw [hr, Option.map_some, eq_comm, Option.map_eq_some_iff] at hnextHop
    obtain ⟨chosen, hchosen, hsame⟩ := hnextHop
    rw [recompute_retabled h]
    rw [select, Option.or_eq_some_iff, Option.or_eq_some_iff] at hchosen
    rcases hchosen with (hstatic | ⟨-, hown⟩) | ⟨-, hlearned⟩
    · have hmem := mem_staticRoutes_of_staticRoute? hstatic
      rw [hsame, ha] at hmem
      exact .inl hmem
    · exact .inr ⟨chosen, hown, hsame.trans ha⟩
    · rw [Option.map_eq_some_iff] at hlearned
      obtain ⟨i, hi, rfl⟩ := hlearned
      exact absurd (hsame.trans ha) (hpeer i hi)

theorem backed_of_recompute {n n' : Node} {p : Prefix} (h : n.recompute p = .ok n')
    (a : AccountId) : n'.Backed a p := by
  by_cases hholds : n.Holds a p
  · exact .inl (((recompute_retabled h).holds_iff a p).2 hholds)
  · exact .inr (withdrawn_of_recompute h hholds)

/-- The choice for a prefix leaves what is shown for others. -/
theorem Withdrawn.recompute_iff {n n' : Node} {p q : Prefix} (h : n.recompute p = .ok n')
    (hq : q ≠ p) (a : AccountId) : n'.Withdrawn a q ↔ n.Withdrawn a q := by
  have hretabled := recompute_retabled h
  obtain ⟨best, -, hincoming, -, hlocal⟩ := get?_of_recompute h
  have hsettings : n'.settings = n.settings := by rw [hretabled]
  have horiginated : n'.originated.get? q = n.originated.get? q := by rw [hretabled]
  have hincoming : n'.incoming.get? q = n.incoming.get? q := by rw [hincoming, if_neg hq]
  have hlocal := hlocal q hq
  exact ⟨fun hw => hw.congr hsettings.symm horiginated.symm hincoming.symm hlocal.symm,
    fun hw => hw.congr hsettings horiginated hincoming hlocal⟩

theorem Backed.recompute {n n' : Node} {p q : Prefix} {a : AccountId} (hb : n.Backed a q)
    (h : n.recompute p = .ok n') : n'.Backed a q := by
  by_cases hq : q = p
  · rw [hq]
    exact backed_of_recompute h a
  · rcases hb with hholds | hwithdrawn
    · exact .inl (((recompute_retabled h).holds_iff a q).2 hholds)
    · exact .inr ((Withdrawn.recompute_iff h hq a).2 hwithdrawn)

/-- Choosing anew where this is possible backs everything up. -/
theorem backed_of_recomputeAll {n : Node} {ps : List Prefix}
    (hps : ∀ p ∈ ps, ∃ best, n.bestPeerRoute p = .ok best) (a : AccountId) (q : Prefix)
    (hq : q ∈ ps ∨ n.Backed a q) : (n.recomputeAll ps).1.Backed a q :=
  (recomputeAll_settles (Q := fun n p => n.Backed a p) (fun _ _ _ hok => backed_of_recompute hok a)
    (fun _ _ _ _ hok hb => hb.recompute hok) hps).2 q hq

/-! ### Runs -/

variable {intake : Intake}

theorem StepsWith.backed {n n' : Node} (h : StepsWith intake n n') (hn : n.Tidy)
    (hb : ∀ a p, n.Backed a p) : ∀ a p, n'.Backed a p := by
  induction h with
  | refl => exact hb
  | @tail n₁ n₂ hsteps hstep ih =>
    obtain ⟨stale, changed, hchange, hchosen⟩ := hstep
    have hn₁ : n₁.Tidy := (StepsWith.keeps hsteps).tidy hn
    have htidy : changed.Tidy := hchange.unsettles.tidy hn₁
    obtain ⟨ps, hps, rfl⟩ := hchosen.eq_recomputeAll htidy
    have hpossible : ∀ p ∈ ps, ∃ best, changed.bestPeerRoute p = .ok best := by
      intro p _
      obtain ⟨best, hbest, -⟩ := htidy.bestPeerRoute p
      exact ⟨best, hbest⟩
    intro a p
    refine backed_of_recomputeAll hpossible a p ?_
    by_cases hp : p ∈ ps
    · exact .inl hp
    · exact .inr (hchange.unsettles.backed hn₁.toOrderly (fun hstale => hp (hps hstale)) (ih a p))

/-- As long as all accounts with an open session are in the directory whenever the node does
something, whatever the tables show is backed by a route that is still advertised. -/
theorem backed_of_run {settings : Settings} {directory : Directory} {codec : Codec}
    {filter : Option (Prefix → Route → Bool)} {id : TableId} {links : List Link} {moves : List Move}
    (hmoves : ∀ m ∈ moves, m.KeepsSettings)
    (hknows : Along (fun n m => m.IsRoutine → n.KnowsTracked)
      (fresh settings directory codec filter id links) moves) (a : AccountId) (p : Prefix) :
    ((fresh settings directory codec filter id links).run moves).Backed a p := by
  have hstart : ∀ a p, (fresh settings directory codec filter id links).Backed a p := by
    refine fun a p => .inr ⟨fun i hi => ?_, fun r hr => ?_⟩
    · cases hi
    · cases hr
  have hall := hknows.induction (motive := fun n => n.Orderly ∧ ∀ a p, n.Backed a p) ?_
    ⟨(tidy_fresh ..).toOrderly, hstart⟩
  · exact hall.2 a p
  · rintro n m hmem hknown ⟨horderly, hb⟩
    refine ⟨horderly.move (hmoves m hmem), ?_⟩
    have hroutine : m.IsRoutine → ∀ a p, (n.move m).Backed a p := fun hm =>
      (move_steps n hm).backed ⟨horderly, hknown hm⟩ hb
    have hm := hmoves m hmem
    cases m with
    | direct directory =>
      exact fun a p => (hb a p).imp_right fun hwithdrawn => hwithdrawn.congr rfl rfl rfl rfl
    | filter filter => exact hm.elim
    | configure settings => exact hm.elim
    | track session => exact hm.elim
    | useSession s use => exact hm.elim
    | _ => exact hroutine trivial

/-! ### Closing a session -/

section

variable {n : Node} {a : AccountId} {s : SessionId}

theorem Orderly.not_holds_detach (h : n.Orderly) (a : AccountId) (s : SessionId) (p : Prefix) :
    ¬(n.detach a s).Holds a p := by
  rintro ⟨r, hr, hpeer⟩
  exact ((h.mem_peerRoutes_detach_iff a s).1 hr).2 hpeer

/-- Without the routes of the account the choice for a prefix is possible just if the prefix is not
blocked. -/
theorem Orderly.exists_bestPeerRoute_detach_iff (h : n.Orderly) (a : AccountId) (s : SessionId)
    (p : Prefix) : (∃ best, (n.detach a s).bestPeerRoute p = .ok best) ↔ ¬n.Blocked a p := by
  constructor
  · rintro ⟨best, hbest⟩ ⟨r, hr, hne, hmissing⟩
    have hchoice : ∃ best, n.directory.bestRoute ((n.detach a s).peerRoutes p) = .ok best := by
      rw [bestPeerRoute] at hbest
      cases hall : (n.detach a s).directory.bestRoute ((n.detach a s).peerRoutes p) with
      | error e =>
        rw [hall] at hbest
        cases hbest
      | ok best' => exact ⟨best', hall⟩
    obtain ⟨best', hbest'⟩ := hchoice
    have hknows := Directory.knows_of_bestRoute hbest' r
      ((h.mem_peerRoutes_detach_iff a s).2 ⟨hr, hne⟩)
    rw [hmissing] at hknows
    cases hknows
  · intro hfree
    have hknows : ∀ r, some r ∈ (n.detach a s).peerRoutes p → n.directory.knows r.peer = true := by
      intro r hr
      obtain ⟨hmem, hne⟩ := (h.mem_peerRoutes_detach_iff a s).1 hr
      cases hknown : n.directory.knows r.peer with
      | true => rfl
      | false => exact absurd ⟨r, hmem, hne, hknown⟩ hfree
    exact ⟨_, congrArg (Except.mapError _) (Directory.bestRoute_of_knows hknows)⟩

theorem untrack_trackedSession? (hs : n.trackedSession? a = some s) :
    (n.untrack a).1.trackedSession? a = none := by
  have hsame : (n.untrack a).1.trackedSession? a = (n.detach a s).trackedSession? a := by
    rw [untrack_retabled hs]
    rfl
  rw [hsame, trackedSession?_detach, if_pos rfl]

/-- The sender of the session that is closed sends no more. -/
theorem Orderly.untrack_session? (h : n.Orderly) (hs : n.trackedSession? a = some s) :
    ∃ session, (n.untrack a).1.session? s = some session ∧ session.sender.broadcasting = false := by
  obtain ⟨session, hsession, -⟩ := h.session_of_tracked a s (mem_tracked_of_trackedSession? hs)
  refine ⟨{ session with sender := session.sender.stop }, ?_, rfl⟩
  have hsame : (n.untrack a).1.session? s = (n.detach a s).session? s := by
    rw [untrack_retabled hs]
    rfl
  rw [hsame, Node.detach, session?_modifySession, if_pos rfl]
  show (n.session? s).map _ = _
  rw [hsession]
  rfl

/-- The routes of an account are withdrawn if no prefix is blocked that it advertises. -/
theorem Orderly.withdrawn_untrack (h : n.Orderly) (hs : n.trackedSession? a = some s)
    (hfree : ∀ p, n.Holds a p → ¬n.Blocked a p) {p : Prefix} (hb : n.Backed a p) :
    (n.untrack a).1.Withdrawn a p := by
  obtain ⟨held, rest, hheld, huntrack⟩ := untrack_eq hs
  have hmem := mem_tracked_of_trackedSession? hs
  obtain ⟨session, hsession, hpeer⟩ := h.session_of_tracked a s hmem
  -- For every prefix that the receiver holds the choice is possible.
  have hpossible : ∀ q ∈ held, ∃ best, (n.detach a s).bestPeerRoute q = .ok best := by
    intro q hq
    rw [← hheld session hsession, RouteTable.mem_keys_iff, Option.isSome_iff_exists] at hq
    obtain ⟨r, hr⟩ := hq
    have hra : r.peer = a := (h.peer_of_route? s session q r hsession hr).trans hpeer
    refine (h.exists_bestPeerRoute_detach_iff a s q).2 (hfree q ⟨r, ?_, hra⟩)
    exact h.mem_peerRoutes_iff.2 ⟨s, session, hra ▸ hmem, hsession, hr⟩
  have hbefore : p ∈ held ∨ (n.detach a s).Backed a p := by
    by_cases hp : p ∈ held
    · exact .inl hp
    · exact .inr ((detach_unsettles hs hheld).backed h hp hb)
  have hafter : (n.untrack a).1.Backed a p := by
    rw [huntrack]
    exact recomputeAll_induction (motive := fun n => n.Backed a p)
      (fun _ _ _ hok hb => hb.recompute hok)
      (backed_of_recomputeAll hpossible a p hbefore) rest
  exact hafter.resolve_left fun hholds =>
    h.not_holds_detach a s p (((untrack_retabled hs).holds_iff a p).1 hholds)

/-- At a blocked prefix nothing changes. -/
theorem Orderly.withdrawn_untrack_iff (h : n.Orderly) (hs : n.trackedSession? a = some s)
    {p : Prefix} (hblocked : n.Blocked a p) :
    (n.untrack a).1.Withdrawn a p ↔ n.Withdrawn a p := by
  obtain ⟨held, rest, -, huntrack⟩ := untrack_eq hs
  have hdetach : (n.detach a s).Withdrawn a p ↔ n.Withdrawn a p :=
    ⟨fun hw => hw.congr rfl rfl rfl rfl, fun hw => hw.congr rfl rfl rfl rfl⟩
  -- Whatever was chosen so far, the choice for `p` is still impossible.
  have hstep : ∀ n₁ q n₂, n₁.recompute q = .ok n₂ →
      (Retabled (n.detach a s) n₁ ∧ (n₁.Withdrawn a p ↔ n.Withdrawn a p)) →
      Retabled (n.detach a s) n₂ ∧ (n₂.Withdrawn a p ↔ n.Withdrawn a p) := by
    rintro n₁ q n₂ hok ⟨hretabled, hiff⟩
    refine ⟨hretabled.trans (recompute_retabled hok), ?_⟩
    have hne : p ≠ q := by
      rintro rfl
      obtain ⟨best, hbest, -⟩ := recompute_eq_ok.1 hok
      rw [hretabled.bestPeerRoute] at hbest
      exact (h.exists_bestPeerRoute_detach_iff a s p).1 ⟨best, hbest⟩ hblocked
    exact (Withdrawn.recompute_iff hok hne a).trans hiff
  rw [huntrack]
  exact (recomputeAll_induction hstep (recomputeAll_induction hstep ⟨.refl _, hdetach⟩ held) rest).2

end

/-- An account whose link goes down, or that is unregistered, is not tracked any more, and the
sender of its session is stopped, whatever else goes wrong.  If no prefix is blocked that the
account advertises, then all of its routes are withdrawn that the tables showed because it
advertised them. At a blocked prefix they stay.  As long as all accounts with an open session were
in the directory whenever the node did something, the tables showed no other routes of the account.
-/
theorem withdrawn_of_run {settings : Settings} {directory : Directory} {codec : Codec}
    {filter : Option (Prefix → Route → Bool)} {id : TableId} {links : List Link} {moves : List Move}
    (hmoves : ∀ m ∈ moves, m.KeepsSettings) {a : AccountId} {s : SessionId}
    (htracked : ((fresh settings directory codec filter id links).run moves).trackedSession? a =
      some s)
    {m : Move} (hm : m = .event ⟨a, .disconnected⟩ ∨ m = .unregister a) :
    let n := (fresh settings directory codec filter id links).run moves
    let n' := n.move m
    n'.trackedSession? a = none ∧
    (∃ session, n'.session? s = some session ∧ session.sender.broadcasting = false) ∧
    ((∀ p, n.Holds a p → ¬n.Blocked a p) → ∀ p, n.Backed a p → n'.Withdrawn a p) ∧
    (∀ p, n.Blocked a p → (n'.Withdrawn a p ↔ n.Withdrawn a p)) ∧
    (Along (fun n m => m.IsRoutine → n.KnowsTracked)
      (fresh settings directory codec filter id links) moves → ∀ p, n.Backed a p) := by
  intro n n'
  have horderly : n.Orderly :=
    run_induction (fun _ m hm h => h.move (hmoves m hm)) (tidy_fresh ..).toOrderly
  -- Ending the subscription first makes no difference to the routes.
  obtain ⟨n₀, hsame, huntrack⟩ : ∃ n₀, SameRouting n n₀ ∧ n' = (n₀.untrack a).1 := by
    rcases hm with rfl | rfl
    · exact ⟨n, .refl n, rfl⟩
    · exact ⟨n.unsubscribe a, unsubscribe_sameRouting n a, rfl⟩
  have horderly₀ : n₀.Orderly := horderly.congr hsame.sessions hsame.tracked
  have htracked₀ : n₀.trackedSession? a = some s := by
    rw [trackedSession?, hsame.tracked]
    exact htracked
  have hpeers : ∀ p, n₀.peerRoutes p = n.peerRoutes p := fun p =>
    peerRoutes_congr hsame.tracked fun s => by rw [session?, session?, hsame.sessions]
  have hholds : ∀ p, n₀.Holds a p ↔ n.Holds a p := fun p => by rw [Holds, hpeers]; rfl
  have hblocked : ∀ p, n₀.Blocked a p ↔ n.Blocked a p := fun p => by
    rw [Blocked, hpeers, hsame.directory]
    rfl
  have hwithdrawn : ∀ p, n₀.Withdrawn a p ↔ n.Withdrawn a p := fun p =>
    ⟨fun hw => hw.congr hsame.settings.symm (by rw [hsame.originated]) (by rw [hsame.incoming])
        (by rw [hsame.localTable]),
      fun hw => hw.congr hsame.settings (by rw [hsame.originated]) (by rw [hsame.incoming])
        (by rw [hsame.localTable])⟩
  rw [huntrack]
  refine ⟨untrack_trackedSession? htracked₀, horderly₀.untrack_session? htracked₀, ?_, ?_, ?_⟩
  · intro hfree p hb
    have hfree₀ : ∀ p, n₀.Holds a p → ¬n₀.Blocked a p := fun p => by
      rw [hholds, hblocked]
      exact hfree p
    exact horderly₀.withdrawn_untrack htracked₀ hfree₀
      (hb.imp (hholds p).2 (hwithdrawn p).2)
  · intro p hp
    exact (horderly₀.withdrawn_untrack_iff htracked₀ ((hblocked p).2 hp)).trans (hwithdrawn p)
  · exact fun hknows p => backed_of_run hmoves hknows a p

/-! ### Two peers with a route for one prefix -/

/-- The small node with both peers. -/
def smallWithFriend : Node :=
  fresh smallSettings twoPeers .json none small.outgoing.id
    [{ account := smallPeer.id }, { account := friend.id }]

/-- The friend is connected and advertises a route, and then the other peer is connected. -/
def friendAdvertises : List Move :=
  [.event ⟨friend.id, .connected⟩, (routeThrough [] 0).move friend.id,
    .event ⟨smallPeer.id, .connected⟩]

theorem knowsTracked_of_all {n : Node} (h : n.tracked.all (fun t => n.directory.knows t.1) = true) :
    n.KnowsTracked :=
  fun _ _ hmem => List.all_eq_true.1 h _ hmem

/-- The friend is deleted from the directory and then disconnected. -/
theorem withdrawn_of_deleted :
    let moves := friendAdvertises ++ [.direct (twoPeers.removeAccount friend.id)]
    let n := smallWithFriend.run moves
    let m : Move := .event ⟨friend.id, .disconnected⟩
    (∀ m ∈ moves, m.KeepsSettings) ∧ n.trackedSession? friend.id = some ⟨0⟩ ∧
      (m = .event ⟨friend.id, .disconnected⟩ ∨ m = .unregister friend.id) ∧
      (n.incoming.get? remote).map (·.peer) = some friend.id ∧
      (n.move m).trackedSession? friend.id = none ∧ (n.move m).Withdrawn friend.id remote := by
  intro moves n m
  have hmoves : ∀ m ∈ moves, m.KeepsSettings := by
    simp [moves, friendAdvertises, Move.KeepsSettings, Delivery.move]
  obtain ⟨htracked, hopen, hincoming, hknown⟩ : n.trackedSession? friend.id = some ⟨0⟩ ∧
      n.tracked = [(friend.id, ⟨0⟩), (smallPeer.id, ⟨1⟩)] ∧
      (n.incoming.get? remote).map (·.peer) = some friend.id ∧
      n.directory.knows smallPeer.id = true := by
    decide +kernel
  have hknows : Along (fun n m => m.IsRoutine → n.KnowsTracked) smallWithFriend moves :=
    ⟨fun _ => knowsTracked_of_all (by decide +kernel),
      fun _ => knowsTracked_of_all (by decide +kernel),
      fun _ => knowsTracked_of_all (by decide +kernel), fun h => h.elim, trivial⟩
  -- The only other account with an open session is still in the directory.
  have hfree : ∀ p, n.Holds friend.id p → ¬n.Blocked friend.id p := by
    rintro p - ⟨r, hr, hne, hmissing⟩
    have horderly : n.Orderly :=
      run_induction (fun _ m hm h => h.move (hmoves m hm)) (tidy_fresh ..).toOrderly
    obtain ⟨s, -, hmem, -⟩ := horderly.mem_peerRoutes_iff.1 hr
    have hpeer : r.peer = smallPeer.id := by
      rw [hopen, List.mem_cons, List.mem_singleton, Prod.mk.injEq, Prod.mk.injEq] at hmem
      rcases hmem with ⟨hpeer, -⟩ | ⟨hpeer, -⟩
      · exact absurd hpeer hne
      · exact hpeer
    rw [hpeer, hknown] at hmissing
    cases hmissing
  obtain ⟨huntracked, -, hwithdrawn, -, hbacked⟩ := @withdrawn_of_run smallSettings twoPeers .json
    none ⟨List.replicate 16 1, by decide⟩ [{ account := smallPeer.id }, { account := friend.id }]
    moves hmoves friend.id ⟨0⟩ htracked m (.inl rfl)
  exact ⟨hmoves, htracked, .inl rfl, hincoming, huntracked,
    hwithdrawn hfree remote (hbacked hknows remote)⟩

/-- The other peer is deleted from the directory, advertises a route for the same prefix, and then
the friend is disconnected.  Its route stays in use although it is no longer tracked. -/
theorem incoming_of_blocked :
    let moves := friendAdvertises ++
      [.direct (twoPeers.removeAccount smallPeer.id), (routeThrough [] 0).move smallPeer.id]
    let n := smallWithFriend.run moves
    let n' := n.move (.event ⟨friend.id, .disconnected⟩)
    (∀ m ∈ moves, m.KeepsSettings) ∧ n.trackedSession? friend.id = some ⟨0⟩ ∧
      n'.trackedSession? friend.id = none ∧
      (n'.incoming.get? remote).map (·.peer) = some friend.id ∧
      (n'.localTable.get? remote).map Route.nextHop = some friend.id ∧
      n'.originated.get? remote = none ∧ remote ∉ staticTargets n'.settings := by
  intro moves n n'
  have hmoves : ∀ m ∈ moves, m.KeepsSettings := by
    simp [moves, friendAdvertises, Move.KeepsSettings, Delivery.move]
  exact ⟨hmoves, by decide +kernel⟩

end RouteSync.Node
