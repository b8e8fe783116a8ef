import Mathlib.Data.List.Induction
import Mathlib.Data.List.Nodup
import RouteSync.Proofs.Node.Senders
import RouteSync.Proofs.Node.Withdrawal

/-!
# Who is sent routes

An account that is sent routes should be sent them by exactly one loop, for as long as its session
is open.  The loop is started by the last step of connecting, which comes after the session was
opened and may fail, because the node's own routes cannot be made.  Nothing else starts one, and a
link that comes up again while its account is tracked does not lead to another attempt
(`finishConnect_mem_iff_of_connect`).

So there is never more than one loop, and there is one if and only if the node's own routes could be
made when connecting was finished (`activeLoops_of_tracked`).  If they could not, then none of the
repairs that may follow brings the loop back (`activeLoops_of_failed_reload`).
-/

namespace RouteSync

namespace Node

/-- The loops that go on sending updates for a session. -/
def activeLoops (n : Node) (s : SessionId) : List BroadcastLoop :=
  n.loops.filter fun l => l.session == s && l.deadline.isSome

/-- The account of a session, and whether its sender broadcasts. -/
def sending? (n : Node) (s : SessionId) : Option (Account × Bool) :=
  (n.session? s).map fun session => (session.account, session.sender.broadcasting)

theorem sending?_eq (n : Node) (s : SessionId) :
    n.sending? s = (n.sender? s).map fun x => (x.1, x.2.broadcasting) := by
  rw [sender?, Option.map_map]
  rfl

/-- The session for which a move does the last step of connecting. -/
def Move.finishes? : Move → Option SessionId
  | .begin _ _ (.finishConnect s) => some s
  | _ => none

theorem Move.finishes?_eq_some {m : Move} {s : SessionId} (h : m.finishes? = some s) :
    ∃ now clock, m = .begin now clock (.finishConnect s) := by
  unfold finishes? at h
  split at h
  · cases h
    exact ⟨_, _, rfl⟩
  · cases h

/-- Connecting is left to be finished for the sessions that it opens, and for no others. -/
theorem finishConnect_mem_iff_of_connect {n n' : Node} {account : AccountId} {tasks : List Task}
    (h : n.connect account = .ok (n', tasks)) (s : SessionId) :
    .finishConnect s ∈ tasks ↔ n.session? s = none ∧ (n'.session? s).isSome = true := by
  rcases connect_eq_ok h with ⟨rfl, hnone⟩ | ⟨a, link, t, -, htrack, htasks⟩
  · refine iff_of_false (hnone s) ?_
    rintro ⟨hunused, hused⟩
    rw [hunused] at hused
    cases hused
  · have hmem : .finishConnect s ∈ tasks ↔ s = t := by
      rw [htasks]
      split <;> simp
    rw [hmem, session?_track htrack]
    constructor
    · rintro rfl
      exact ⟨session?_eq_none_of_track htrack, by rw [if_pos rfl]; rfl⟩
    · rintro ⟨hunused, hused⟩
      by_contra hst
      rw [if_neg hst, hunused] at hused
      cases hused

/-- Whether a move is in turn, as the tasks of a node and its timer make them: only link events open
sessions, connecting is finished only after that, and a loop ends only if its sender was stopped. -/
def Move.InTurn (n : Node) : Move → Prop
  | .track _ | .useSession _ _ => False
  | .begin _ _ (.finishConnect s) => (n.session? s).isSome = true
  | .setDeadline index none => ∀ l, n.loops[index]? = some l →
      (n.sending? l.session).any (·.2) = false
  | _ => True

/-! ### What leaves the sending alone -/

/-- Two nodes that agree on the loops and on what they depend on. -/
structure SameSending (n n' : Node) : Prop where
  loops : n'.loops = n.loops
  tracked : n'.tracked = n.tracked
  sending? : ∀ s, n'.sending? s = n.sending? s

theorem SameSending.refl (n : Node) : SameSending n n :=
  ⟨rfl, rfl, fun _ => rfl⟩

theorem SameSenders.sameSending {n n' : Node} (h : SameSenders n n') : SameSending n n' where
  loops := h.loops
  tracked := h.tracked
  sending? s := by rw [sending?_eq, sending?_eq, h.sender?]

theorem modifySession_sameSending {n : Node} {s : SessionId} {f : Session → Session}
    (hf : ∀ session, n.session? s = some session → (f session).account = session.account ∧
      (f session).sender.broadcasting = session.sender.broadcasting) :
    SameSending n (n.modifySession s f) := by
  refine ⟨rfl, rfl, map_session?_modifySession _ fun session hsession => ?_⟩
  obtain ⟨haccount, hbroadcasting⟩ := hf session hsession
  rw [haccount, hbroadcasting]

theorem settle_sameSending (n : Node) (o : Outbound) (answer : LinkAnswer) :
    SameSending n (n.settle o answer).1 := by
  rw [settle_node]
  exact modifySession_sameSending fun _ _ => ⟨rfl, Sender.broadcasting_settle ..⟩

theorem handlePacket_sameSending (n : Node) (now : Timestamp) (account : AccountId)
    (packet : Prepare) : SameSending n (n.handlePacket now account packet).node := by
  rcases handlePacket_node_cases n now account packet with
    hsame | ⟨s, session, -, -, -, ⟨-, request, hnode⟩ | ⟨-, -, u, -, hnode⟩⟩
  · rw [hsame]
    exact .refl n
  · rw [hnode]
    exact modifySession_sameSending fun _ _ => ⟨rfl, Sender.broadcasting_control ..⟩
  · rw [hnode]
    exact (receive_sameSenders ..).sameSending

/-! ### Loops in step with sessions -/

/-- The loops are in step with the sessions.  The senders of open sessions broadcast just if their
accounts are sent routes, and loops end only with their senders.  No session has two loops, and one
has a loop just if its account is sent routes and the loop could be started. -/
structure Attended (started : SessionId → Prop) (n : Node) : Prop where
  sends : ∀ a s, (a, s) ∈ n.tracked →
    ∃ account, n.sending? s = some (account, account.sendsRoutes) ∧ account.id = a
  ended : ∀ l ∈ n.loops, l.deadline = none → (n.sending? l.session).any (·.2) = false
  sole : (n.loops.map (·.session)).Nodup
  looped : ∀ s, s ∈ n.loops.map (·.session) ↔
    started s ∧ (n.sending? s).any (·.1.sendsRoutes) = true
  opened : ∀ s, started s → (n.sending? s).isSome = true

section

variable {started : SessionId → Prop} {n n' : Node}

theorem attended_fresh (settings : Settings) (directory : Directory) (codec : Codec)
    (filter : Option (Prefix → Route → Bool)) (id : TableId) (links : List Link) :
    (fresh settings directory codec filter id links).Attended fun _ => False where
  sends _ _ h := by cases h
  ended _ h := by cases h
  sole := List.nodup_nil
  looped _ := iff_of_false List.not_mem_nil fun h => h.1
  opened _ h := h.elim

theorem Attended.congr (h : n.Attended started) (hsame : SameSending n n') :
    n'.Attended started where
  sends a s hmem := by
    rw [hsame.tracked] at hmem
    rw [hsame.sending?]
    exact h.sends a s hmem
  ended l hl hnone := by
    rw [hsame.loops] at hl
    rw [hsame.sending?]
    exact h.ended l hl hnone
  sole := by
    rw [hsame.loops]
    exact h.sole
  looped s := by
    rw [hsame.loops, hsame.sending?]
    exact h.looped s
  opened s hs := by
    rw [hsame.sending?]
    exact h.opened s hs

theorem Attended.congr_started {started' : SessionId → Prop} (h : n.Attended started)
    (hiff : ∀ s, started' s ↔ started s) : n.Attended started' :=
  funext (fun s => propext (hiff s)) ▸ h

/-- An open session whose account is sent routes has a sender that broadcasts, and at most one loop.
-/
theorem Attended.activeLoops (h : n.Attended started) {a : AccountId} {s : SessionId}
    (hmem : (a, s) ∈ n.tracked) {session : Session} (hsession : n.session? s = some session)
    (hsends : session.account.sendsRoutes = true) :
    session.sender.broadcasting = true ∧ (n.activeLoops s).length ≤ 1 ∧
      ((n.activeLoops s).length = 1 ↔ started s) := by
  have hsending : n.sending? s = some (session.account, session.sender.broadcasting) := by
    rw [sending?, hsession]
    rfl
  have hbroadcasting : session.sender.broadcasting = true := by
    obtain ⟨account, haccount, -⟩ := h.sends a s hmem
    rw [hsending, Option.some.injEq, Prod.mk.injEq] at haccount
    obtain ⟨rfl, hsame⟩ := haccount
    exact hsame.trans hsends
  -- No loop of a sender that broadcasts has ended.
  have hrunning : n.activeLoops s = n.loops.filter (·.session == s) := by
    refine List.filter_congr fun l hl => ?_
    cases hls : l.session == s with
    | false => rfl
    | true =>
      have hended := h.ended l hl
      rw [beq_iff_eq.1 hls, hsending, Option.any_some, hbroadcasting] at hended
      rw [Bool.true_and, Option.isSome_iff_ne_none]
      intro hnone
      cases hended hnone
  have hcount : (n.activeLoops s).length = (n.loops.map (·.session)).count s := by
    rw [hrunning, List.count, List.countP_map, List.countP_eq_length_filter]
    rfl
  have hle : (n.loops.map (·.session)).count s ≤ 1 := List.nodup_iff_count_le_one.1 h.sole s
  have hlooped : s ∈ n.loops.map (·.session) ↔ started s := by
    rw [h.looped, hsending, Option.any_some, hsends, and_iff_left rfl]
  refine ⟨hbroadcasting, hcount ▸ hle, ?_⟩
  rw [hcount, ← hlooped, ← List.count_pos_iff]
  omega

theorem Attended.isSome_sending? (h : n.Attended started) {l : BroadcastLoop} (hl : l ∈ n.loops) :
    (n.sending? l.session).isSome = true :=
  h.opened _ ((h.looped _).1 (List.mem_map_of_mem hl)).1

/-- A new session has no loop yet. -/
theorem Attended.track (h : n.Attended started) {account : Account} {link : LinkId} {s : SessionId}
    (htrack : n.track (newSession account link) = .ok (n', s)) : n'.Attended started := by
  have hunused : ¬(n.sending? s).isSome = true := by
    rw [sending?, session?_eq_none_of_track htrack]
    exact Bool.false_ne_true
  have hsending : ∀ t, n'.sending? t =
      if t = s then some (account, account.sendsRoutes) else n.sending? t := by
    intro t
    rw [sending?_eq, sender?_track htrack, sending?_eq]
    split <;> rfl
  have hothers : ∀ t, (n.sending? t).isSome = true → n'.sending? t = n.sending? t := by
    intro t ht
    rw [hsending, if_neg ?_]
    rintro rfl
    exact hunused ht
  have hloops : n'.loops = n.loops := by
    obtain ⟨-, -, rfl⟩ := track_eq_ok htrack
    rfl
  refine ⟨fun a t hmem => ?_, fun l hl hnone => ?_, ?_, fun t => ?_, fun t ht => ?_⟩
  · rcases (mem_tracked_track htrack a t).1 hmem with hold | ⟨rfl, rfl⟩
    · obtain ⟨account', ht, ha⟩ := h.sends a t hold
      refine ⟨account', ?_, ha⟩
      rw [hothers t (by rw [ht]; rfl), ht]
    · exact ⟨account, by rw [hsending, if_pos rfl], rfl⟩
  · rw [hloops] at hl
    rw [hothers _ (h.isSome_sending? hl)]
    exact h.ended l hl hnone
  · rw [hloops]
    exact h.sole
  · rw [hloops]
    by_cases hts : t = s
    · rw [hts]
      exact iff_of_false (fun hmem => hunused (h.opened s ((h.looped s).1 hmem).1))
        fun hstarted => hunused (h.opened s hstarted.1)
    · rw [hsending, if_neg hts]
      exact h.looped t
  · rw [hothers t (h.opened t ht)]
    exact h.opened t ht

/-- The session of one account is closed, and the loops of others go on. -/
theorem Attended.detach (h : n.Attended started) {account : AccountId} {s : SessionId}
    (hs : n.trackedSession? account = some s) : (n.detach account s).Attended started := by
  have hsending : ∀ t, (n.detach account s).sending? t =
      if t = s then (n.sending? t).map fun x => (x.1, false) else n.sending? t := by
    intro t
    rw [sending?_eq, sending?_eq, sender?_detach]
    split
    · rw [Option.map_map, Option.map_map]
      rfl
    · rfl
  refine ⟨fun a t hmem => ?_, fun l hl hnone => ?_, h.sole, fun t => ?_, fun t ht => ?_⟩
  · obtain ⟨hmem, hne⟩ := List.mem_filter.1 hmem
    obtain ⟨account', ht, rfl⟩ := h.sends a t hmem
    refine ⟨account', ?_, rfl⟩
    rw [hsending, if_neg ?_, ht]
    -- No two accounts have the same session.
    rintro rfl
    obtain ⟨account'', hs', rfl⟩ := h.sends account t (mem_tracked_of_trackedSession? hs)
    rw [ht] at hs'
    cases hs'
    exact bne_iff_ne.1 hne rfl
  · rw [hsending]
    split
    · rw [Option.any_map]
      cases n.sending? l.session <;> rfl
    · exact h.ended l hl hnone
  · have hsame : ((n.detach account s).sending? t).any (·.1.sendsRoutes) =
        (n.sending? t).any (·.1.sendsRoutes) := by
      rw [hsending]
      split
      · exact Option.any_map ..
      · rfl
    rw [hsame]
    exact h.looped t
  · rw [hsending]
    split
    · rw [Option.isSome_map]
      exact h.opened t ht
    · exact h.opened t ht

theorem Attended.turnovers {directory : Directory} (h : n.Attended started)
    (hturnovers : Turnovers directory n n') : n'.Attended started := by
  refine hturnovers.induction (fun n₁ n₂ hstep hn => ?_) h
  cases hstep with
  | same hsame => exact hn.congr hsame.sameSending
  | track _ htrack => exact hn.track htrack
  | detach hs => exact hn.detach hs

/-- A new deadline leaves the sessions of the loops as they are. -/
theorem map_session_modify (loops : List BroadcastLoop) (index : Nat) (deadline : Option Nat) :
    (loops.modify index fun l => { l with deadline := deadline }).map (·.session) =
      loops.map (·.session) := by
  refine List.ext_getElem? fun i => ?_
  rw [List.getElem?_map, List.getElem?_map, List.getElem?_modify, Option.map_eq_map, Option.map_map]
  refine congrArg (Option.map · _) (funext fun l => ?_)
  show (if index = i then _ else l).session = l.session
  split <;> rfl

/-- A loop that ends does so after its sender was stopped. -/
theorem Attended.setDeadline (h : n.Attended started) {index : Nat} {deadline : Option Nat}
    (hended : deadline = none → ∀ l, n.loops[index]? = some l →
      (n.sending? l.session).any (·.2) = false) :
    Attended started
      { n with loops := n.loops.modify index fun l => { l with deadline := deadline } } := by
  have hsessions := map_session_modify n.loops index deadline
  refine ⟨h.sends, fun l hl hnone => ?_, hsessions ▸ h.sole, fun s => ?_, h.opened⟩
  · obtain ⟨i, hi⟩ := List.mem_iff_getElem?.1 hl
    rw [List.getElem?_modify, Option.map_eq_map, Option.map_eq_some_iff] at hi
    obtain ⟨l', hl', rfl⟩ := hi
    split at hnone
    · rename_i hindex
      rw [if_pos hindex]
      exact hended hnone l' (hindex ▸ hl')
    · rename_i hindex
      rw [if_neg hindex]
      exact h.ended l' (List.mem_of_getElem? hl') hnone
  · show s ∈ (n.loops.modify index _).map (·.session) ↔ _
    rw [hsessions]
    exact h.looped s

/-- The first loop of a session whose account is sent routes. -/
theorem Attended.startBroadcast (h : n.Attended started) {s : SessionId}
    (hsends : (n.sending? s).any (·.1.sendsRoutes) = true) (hfirst : ¬started s) (clock : Nat) :
    (n.startBroadcast clock s).Attended fun t => started t ∨ s = t := by
  have hsessions : (n.startBroadcast clock s).loops.map (·.session) =
      n.loops.map (·.session) ++ [s] := List.map_append
  refine ⟨h.sends, fun l hl hended => ?_, ?_, fun t => ?_, fun t ht => ?_⟩
  · rcases List.mem_append.1 hl with hold | hnew
    · exact h.ended l hold hended
    · rw [List.mem_singleton.1 hnew] at hended
      cases hended
  · have hnone : s ∉ n.loops.map (·.session) := fun hmem => hfirst ((h.looped s).1 hmem).1
    rw [hsessions, ← List.concat_eq_append]
    exact h.sole.concat hnone
  · rw [hsessions, List.mem_append, List.mem_singleton, h.looped, or_and_right]
    refine or_congr_right ⟨?_, fun ht => ht.1.symm⟩
    rintro rfl
    exact ⟨rfl, hsends⟩
  · rcases ht with ht | rfl
    · exact h.opened t ht
    · exact Option.isSome_of_any hsends

/-- A session whose account is not sent routes needs no loop. -/
theorem Attended.unsent (h : n.Attended started) {s : SessionId}
    (hopen : (n.sending? s).isSome = true)
    (hunsent : ¬(n.sending? s).any (·.1.sendsRoutes) = true) :
    n.Attended fun t => started t ∨ s = t := by
  refine ⟨h.sends, h.ended, h.sole, fun t => ?_, fun t ht => ?_⟩
  · rw [h.looped, or_and_right, or_iff_left]
    rintro ⟨rfl, hsends⟩
    exact hunsent hsends
  · rcases ht with ht | rfl
    · exact h.opened t ht
    · exact hopen

/-- The last step of connecting starts the loop of a session, provided that the node's own routes
could be made. -/
theorem Attended.finishConnect (h : n.Attended started) {s : SessionId}
    (hopen : (n.session? s).isSome = true) (hfirst : ¬started s) (clock : Nat) :
    (n.finishConnect clock s).Attended fun t =>
      started t ∨ (s = t ∧ n.reload.2 = .ok ()) := by
  have hsame := (reload_sameSenders n).sameSending
  have hreloaded := h.congr hsame
  have hopened : (n.reload.1.sending? s).isSome = true := by
    rw [hsame.sending?, Node.sending?, Option.isSome_map]
    exact hopen
  unfold Node.finishConnect
  split
  · rename_i n' e hn'
    rw [hn'] at hreloaded ⊢
    exact hreloaded.congr_started fun t =>
      ⟨fun ht => ht.resolve_right fun hok => (nomatch hok.2), .inl⟩
  · rename_i n' hn'
    rw [hn'] at hreloaded hopened ⊢
    have hsends : (n'.sending? s).any (·.1.sendsRoutes) =
        (n'.session? s).any (·.account.sendsRoutes) := Option.any_map ..
    simp only [and_true]
    rw [← hsends]
    split
    · rename_i hsent
      exact hreloaded.startBroadcast hsent hfirst clock
    · rename_i hunsent
      exact hreloaded.unsent hopened hunsent

/-- Apart from the last step of connecting, no move starts a loop. -/
theorem Attended.move_of_finishes?_eq_none (h : n.Attended started) {m : Move} (hm : m.InTurn n)
    (hnone : m.finishes? = none) : (n.move m).Attended started := by
  cases m with
  | packet now account packet => exact h.congr (handlePacket_sameSending n now account packet)
  | begin now clock task =>
    cases task with
    | finishConnect s => cases hnone
    | _ => exact h.turnovers (move_turnovers n trivial)
  | settle outbound answer => exact h.congr (settle_sameSending n outbound answer)
  | setDeadline index deadline =>
    refine h.setDeadline ?_
    rintro rfl
    exact hm
  | track session => exact hm.elim
  | useSession s use => exact hm.elim
  | _ => exact h.turnovers (move_turnovers n trivial)

theorem Attended.move (h : n.Attended started) {m : Move} (hm : m.InTurn n)
    (hfirst : ∀ s, m.finishes? = some s → ¬started s) :
    (n.move m).Attended fun s => started s ∨ (m.finishes? = some s ∧ n.reload.2 = .ok ()) := by
  cases hfinishes : m.finishes? with
  | none =>
    refine (h.move_of_finishes?_eq_none hm hfinishes).congr_started fun s => ?_
    exact ⟨fun hs => hs.resolve_right fun hnew => (nomatch hnew.1), .inl⟩
  | some s =>
    obtain ⟨now, clock, rfl⟩ := Move.finishes?_eq_some hfinishes
    exact (h.finishConnect hm (hfirst s rfl) clock).congr_started fun t => by
      rw [Option.some.injEq]

end

/-! ### Runs -/

/-- In every run in turn, in which connecting is finished at most once for each session, the loops
are in step with the sessions. -/
theorem attended_of_run {n : Node} (hn : n.Attended fun _ => False) {moves : List Move}
    (hmoves : Along (fun n m => m.InTurn n) n moves)
    (honce : (moves.filterMap Move.finishes?).Nodup) :
    (n.run moves).Attended fun s =>
      Sometime (fun n m => m.finishes? = some s ∧ n.reload.2 = .ok ()) n moves := by
  induction moves using List.reverseRecOn with
  | nil => exact hn
  | append_singleton moves m ih =>
    obtain ⟨hmoves, hm⟩ := along_concat.1 hmoves
    rw [List.filterMap_append, List.nodup_append] at honce
    obtain ⟨honce, -, hdisjoint⟩ := honce
    rw [run_concat]
    refine ((ih hmoves honce).move hm fun s hs hbefore => ?_).congr_started fun s =>
      sometime_concat
    obtain ⟨-, m', hmem, hm', -⟩ := hbefore.exists_mem
    exact hdisjoint s (List.mem_filterMap.2 ⟨m', hmem, hm'⟩) s
      (List.mem_filterMap.2 ⟨m, List.mem_singleton_self m, hs⟩) rfl

/-- An account that is sent routes and has an open session has a sender that broadcasts, and never
more than one loop.  It has one if and only if the node's own routes could be made when connecting
was finished. -/
theorem activeLoops_of_tracked {settings : Settings} {directory : Directory} {codec : Codec}
    {filter : Option (Prefix → Route → Bool)} {id : TableId} {links : List Link} {moves : List Move}
    (hmoves : Along (fun n m => m.InTurn n) (fresh settings directory codec filter id links) moves)
    (honce : (moves.filterMap Move.finishes?).Nodup) {a : AccountId} {s : SessionId}
    (htracked : ((fresh settings directory codec filter id links).run moves).trackedSession? a =
      some s)
    {session : Session}
    (hsession : ((fresh settings directory codec filter id links).run moves).session? s =
      some session)
    (hsends : session.account.sendsRoutes = true) :
    let n := (fresh settings directory codec filter id links).run moves
    session.sender.broadcasting = true ∧ (n.activeLoops s).length ≤ 1 ∧
      ((n.activeLoops s).length = 1 ↔
        Sometime (fun n m => m.finishes? = some s ∧ n.reload.2 = .ok ())
          (fresh settings directory codec filter id links) moves) :=
  (attended_of_run (attended_fresh ..) hmoves honce).activeLoops
    (mem_tracked_of_trackedSession? htracked) hsession hsends

/-! ### A peer that is connected -/

/-- The peer of the small node is connected, and the tasks that this leaves are done. -/
def connecting : List Move :=
  [.event ⟨smallPeer.id, .connected⟩, .begin .origin 0 (.requestRoutes ⟨0⟩),
    .begin .origin 0 (.finishConnect ⟨0⟩)]

/-- The peer is connected once more, which leaves no more than the first of these tasks. -/
def reconnecting : List Move :=
  [.event ⟨smallPeer.id, .connected⟩, .begin .origin 0 (.requestRoutes ⟨0⟩)]

/-- After the first round of its loop the peer is connected again.  It still has one loop. -/
theorem activeLoops_of_reconnected :
    let moves := connecting ++ .setDeadline 0 (some 60000) :: reconnecting
    let n := small.run moves
    Along (fun n m => m.InTurn n) small moves ∧ (moves.filterMap Move.finishes?).Nodup ∧
      n.trackedSession? smallPeer.id = some ⟨0⟩ ∧
      (∃ session, n.session? ⟨0⟩ = some session ∧ session.account.sendsRoutes = true ∧
        session.sender.broadcasting = true) ∧
      (n.activeLoops ⟨0⟩).length = 1 := by
  intro moves n
  have hopen : ((small.run (moves.take 2)).session? ⟨0⟩).isSome = true := by decide +kernel
  have hmoves : Along (fun n m => m.InTurn n) small moves :=
    ⟨trivial, trivial, hopen, trivial, trivial, trivial, trivial⟩
  have honce : (moves.filterMap Move.finishes?).Nodup := by decide
  have htracked : n.trackedSession? smallPeer.id = some ⟨0⟩ := by decide +kernel
  obtain ⟨session, hsession, haccount⟩ : ∃ session, n.session? ⟨0⟩ = some session ∧
      session.account = smallPeer := Option.map_eq_some_iff.1 (by decide +kernel)
  have hsends : session.account.sendsRoutes = true := by rw [haccount]; rfl
  obtain ⟨hbroadcasting, -, hone⟩ :=
    activeLoops_of_tracked hmoves honce htracked hsession hsends
  have hstarted : Sometime (fun n m => m.finishes? = some ⟨0⟩ ∧ n.reload.2 = .ok ()) small moves :=
    .inr (.inr (.inl ⟨rfl, eq_ok_of_toOption (by decide +kernel)⟩))
  exact ⟨hmoves, honce, htracked, ⟨session, hsession, hsends, hbroadcasting⟩, hone.2 hstarted⟩

/-- The peer is connected while the node looks for a parent that it does not have.  Then the
settings are put right, the node's own routes are made, and the peer is connected again.  It is
tracked and to be sent routes, but has no loop, and nothing is left to be done about that. -/
theorem activeLoops_of_failed_reload :
    let moves := .configure { smallSettings with useParentForDefaultRoute := true } ::
      connecting ++ [.configure smallSettings, .reload] ++ reconnecting
    let n := small.run moves
    Along (fun n m => m.InTurn n) small moves ∧ (moves.filterMap Move.finishes?).Nodup ∧
      n.reload.2 = .ok () ∧ n.trackedSession? smallPeer.id = some ⟨0⟩ ∧
      (n.session? ⟨0⟩).map (·.account) = some smallPeer ∧ smallPeer.sendsRoutes = true ∧
      (n.handleEvent ⟨smallPeer.id, .connected⟩).2 = [.requestRoutes ⟨0⟩] ∧
      n.activeLoops ⟨0⟩ = [] := by
  intro moves n
  have hopen : ((small.run (moves.take 3)).session? ⟨0⟩).isSome = true := by decide +kernel
  have hmoves : Along (fun n m => m.InTurn n) small moves :=
    ⟨trivial, trivial, trivial, hopen, trivial, trivial, trivial, trivial, trivial⟩
  refine ⟨hmoves, by decide, eq_ok_of_toOption (by decide +kernel), ?_⟩
  decide +kernel

end Node

end RouteSync
