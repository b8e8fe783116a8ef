import Mathlib.Logic.Relation
import RouteSync.Proofs.Node.Tidy

/-!
# What becomes of senders

Most of what a node does leaves the senders of its sessions alone, or opens and closes sessions and
leaves the other senders alone (`Turnover`, `move_turnovers`).  Apart from that a sender changes
when a control request reaches it, or the answer to its packet (`sender?_modifySession`).  Loops are
started by the last step of connecting only, which changes no sender (`finishConnect_sender?`).
-/

namespace RouteSync

namespace Sender

/-! ### Requests and answers -/

/-- Only stopping a sender ends its broadcasts. -/
theorem broadcasting_settle (sender : Sender) (operator : Address) (upTo : Option Nat)
    (answer : LinkAnswer) :
    (sender.settle operator upTo answer).1.broadcasting = sender.broadcasting := by
  cases answer <;> rfl

theorem broadcasting_control (sender : Sender) (table : LoggedTable) (r : ControlRequest) :
    (sender.control table r).broadcasting = sender.broadcasting := by
  unfold control
  split <;> rfl

theorem mode_settle (sender : Sender) (operator : Address) (upTo : Option Nat)
    (answer : LinkAnswer) : (sender.settle operator upTo answer).1.mode = sender.mode := by
  cases answer <;> rfl

theorem mode_control (sender : Sender) (table : LoggedTable) (r : ControlRequest) :
    (sender.control table r).mode = r.mode := by
  unfold control
  split <;> rename_i hmode <;> exact hmode.symm

/-- A sender with something to say was not stopped, and its peer wants to hear it. -/
theorem isQuiet_eq_false_iff {sender : Sender} :
    sender.isQuiet = false ↔ sender.broadcasting = true ∧ sender.mode = .sync := by
  unfold isQuiet
  cases sender.broadcasting <;> cases sender.mode <;> decide

end Sender

namespace Node

/-- The account and the sender of a session. -/
def sender? (n : Node) (s : SessionId) : Option (Account × Sender) :=
  (n.session? s).map fun session => (session.account, session.sender)

theorem sender?_eq_some {n : Node} {s : SessionId} {session : Session}
    (h : n.session? s = some session) : n.sender? s = some (session.account, session.sender) :=
  congrArg (Option.map _) h

theorem sender?_eq_none_iff {n : Node} {s : SessionId} :
    n.sender? s = none ↔ n.session? s = none :=
  Option.map_eq_none_iff

/-- A change of a sender is seen at its session only. -/
theorem sender?_modifySession (n : Node) (s : SessionId) (change : Session → Sender)
    (t : SessionId) :
    (n.modifySession s fun session => { session with sender := change session }).sender? t =
      if t = s then (n.session? s).map (fun session => (session.account, change session))
      else n.sender? t := by
  rw [sender?, session?_modifySession]
  split
  · rename_i hts
    rw [hts, Option.map_map]
    rfl
  · rfl

/-! ### What leaves senders alone -/

/-- Two nodes that agree on the loops and on the senders that these work for. -/
structure SameSenders (n n' : Node) : Prop where
  loops : n'.loops = n.loops
  tracked : n'.tracked = n.tracked
  sender? : ∀ s, n'.sender? s = n.sender? s

theorem SameSenders.refl (n : Node) : SameSenders n n :=
  ⟨rfl, rfl, fun _ => rfl⟩

theorem SameSenders.trans {n n' n'' : Node} (h : SameSenders n n') (h' : SameSenders n' n'') :
    SameSenders n n'' where
  loops := h'.loops.trans h.loops
  tracked := h'.tracked.trans h.tracked
  sender? s := (h'.sender? s).trans (h.sender? s)

theorem Aside.sameSenders {n n' : Node} (h : Aside n n') : SameSenders n n' := by
  rw [h]
  exact ⟨rfl, rfl, fun _ => rfl⟩

theorem Retabled.sameSenders {n n' : Node} (h : Retabled n n') : SameSenders n n' := by
  rw [h]
  exact ⟨rfl, rfl, fun _ => rfl⟩

theorem setReceiver_sameSenders (n : Node) (s : SessionId) (r : Receiver) :
    SameSenders n (n.setReceiver s r) :=
  ⟨rfl, rfl, map_session?_modifySession _ fun _ _ => rfl⟩

theorem receive_sameSenders (n : Node) (s : SessionId) (r : Receiver) (now : Timestamp)
    (u : UpdateRequest) : SameSenders n (n.receive s r now u) :=
  (setReceiver_sameSenders n s _).trans (receive_retabled n s r now u).sameSenders

theorem reload_sameSenders (n : Node) : SameSenders n n.reload.1 := by
  unfold reload
  split
  · exact .refl n
  · rename_i routes _
    let remade := { n with originated := routes.foldl RouteTable.insert RouteTable.empty }
    have hremade : SameSenders n remade := ⟨rfl, rfl, fun _ => rfl⟩
    exact hremade.trans (recomputeAll_retabled remade _).sameSenders

theorem expireSession_sameSenders (n : Node) (s : SessionId) :
    SameSenders n (n.expireSession s) := by
  unfold expireSession
  split
  · exact .refl n
  · exact (setReceiver_sameSenders n s _).trans (recomputeEach_retabled _ _).sameSenders

theorem handleUpdate_sameSenders (n : Node) (now : Timestamp) (s : SessionId) (session : Session)
    (data : Bytes) : SameSenders n (n.handleUpdate now s session data).node := by
  rcases handleUpdate_cases n now s session data with haway | ⟨hreceives, u, hdecode⟩
  · rw [haway.node_eq]
    exact .refl n
  · rw [handleUpdate_node hreceives hdecode now s]
    exact receive_sameSenders n s _ now _

/-- The last step of connecting changes no sender, whether or not it starts a loop. -/
theorem finishConnect_sender? (n : Node) (clock : Nat) (s : SessionId) :
    (n.finishConnect clock s).tracked = n.tracked ∧
      ∀ t, (n.finishConnect clock s).sender? t = n.sender? t := by
  have hsame := reload_sameSenders n
  rcases finishConnect_cases n clock s with hstarted | hunstarted
  · rw [hstarted]
    exact ⟨hsame.tracked, hsame.sender?⟩
  · rw [hunstarted]
    exact ⟨hsame.tracked, hsame.sender?⟩

/-! ### Sessions that come and go -/

/-- At most one session is opened, for an account of the directory, or closed.  The senders of all
others stay as they are. -/
inductive Turnover (directory : Directory) : Node → Node → Prop where
  | same {n n' : Node} : SameSenders n n' → Turnover directory n n'
  | track {n n' : Node} {id : AccountId} {account : Account} {link : LinkId} {s : SessionId} :
      directory.account? id = some account → n.track (newSession account link) = .ok (n', s) →
      Turnover directory n n'
  | detach {n : Node} {account : AccountId} {s : SessionId} :
      n.trackedSession? account = some s → Turnover directory n (n.detach account s)

/-- Several sessions, one after the other. -/
def Turnovers (directory : Directory) : Node → Node → Prop :=
  Relation.ReflTransGen (Turnover directory)

variable {directory : Directory} {n n' n'' : Node}

theorem Turnovers.refl (n : Node) : Turnovers directory n n := Relation.ReflTransGen.refl

theorem Turnovers.trans (h : Turnovers directory n n') (h' : Turnovers directory n' n'') :
    Turnovers directory n n'' :=
  Relation.ReflTransGen.trans h h'

theorem SameSenders.turnovers (h : SameSenders n n') : Turnovers directory n n' :=
  Relation.ReflTransGen.single (.same h)

/-- What one session that comes or goes keeps, several keep. -/
theorem Turnovers.induction {motive : Node → Prop}
    (hstep : ∀ n n', Turnover directory n n' → motive n → motive n')
    (h : Turnovers directory n n') (hn : motive n) : motive n' := by
  induction h with
  | refl => exact hn
  | tail _ hlast ih => exact hstep _ _ hlast ih

theorem sender?_track {session : Session} {s : SessionId} (h : n.track session = .ok (n', s))
    (t : SessionId) :
    n'.sender? t = if t = s then some (session.account, session.sender) else n.sender? t := by
  rw [sender?, session?_track h]
  split <;> rfl

theorem trackedSession?_track {session : Session} {s : SessionId}
    (h : n.track session = .ok (n', s)) (a : AccountId) :
    n'.trackedSession? a = if a = session.account.id then some s else n.trackedSession? a := by
  obtain ⟨hnone, -, rfl⟩ := track_eq_ok h
  show (n.tracked ++ [(session.account.id, s)]).lookup a = _
  rw [List.lookup_append, List.lookup_cons, List.lookup_nil]
  by_cases ha : a = session.account.id
  · have hnone' : n.tracked.lookup a = none := ha ▸ hnone
    rw [hnone', beq_iff_eq.2 ha, if_pos ha]
    rfl
  · rw [beq_false_of_ne ha, if_neg ha, Option.or_none]
    rfl

theorem trackedSession?_detach (n : Node) (account : AccountId) (s : SessionId) (a : AccountId) :
    (n.detach account s).trackedSession? a =
      if a = account then none else n.trackedSession? a := by
  show (n.tracked.filter (·.1 != account)).lookup a =
    if a = account then none else n.tracked.lookup a
  split
  · rename_i ha
    rw [List.lookup_eq_none_iff]
    intro t ht
    rw [ha, bne_comm]
    exact (List.mem_filter.1 ht).2
  · rename_i ha
    induction n.tracked with
    | nil => rfl
    | cons t ts ih =>
      rw [List.filter_cons]
      split
      · rw [List.lookup_cons, List.lookup_cons, ih]
      · rename_i ht
        have hne : (a == t.1) = false := by
          rw [beq_eq_false_iff_ne]
          intro hat
          exact ht (bne_iff_ne.2 (hat ▸ ha))
        rw [ih, List.lookup_cons, hne]

/-- Closing a session stops its sender. -/
theorem sender?_detach (n : Node) (account : AccountId) (s t : SessionId) :
    (n.detach account s).sender? t =
      if t = s then (n.sender? t).map fun x => (x.1, x.2.stop) else n.sender? t := by
  rw [detach, sender?_modifySession]
  split
  · rename_i hts
    rw [hts, sender?, Option.map_map]
    rfl
  · rfl

theorem trackedSession?_untrack (n : Node) (account a : AccountId) :
    (n.untrack account).1.trackedSession? a =
      if a = account then none else n.trackedSession? a := by
  cases hs : n.trackedSession? account with
  | none =>
    have hsame : (n.untrack account).1 = n := by rw [untrack, hs]
    rw [hsame]
    by_cases ha : a = account
    · rw [if_pos ha, ha, hs]
    · rw [if_neg ha]
  | some s =>
    have htracked : (n.untrack account).1.tracked = (n.detach account s).tracked := by
      rw [untrack_retabled hs]
    rw [trackedSession?, htracked]
    exact trackedSession?_detach n account s a

theorem trackedSession?_unregister (n : Node) (account a : AccountId) :
    (n.unregister account).1.trackedSession? a =
      if a = account then none else n.trackedSession? a := by
  have htracked := (unsubscribe_aside n account).sameSenders.tracked
  rw [unregister, trackedSession?_untrack, trackedSession?, htracked]
  rfl

theorem untrack_turnovers (n : Node) (account : AccountId) :
    Turnovers directory n (n.untrack account).1 := by
  cases hs : n.trackedSession? account with
  | none =>
    rw [untrack, hs]
    exact .refl n
  | some s =>
    have hdetach : Turnovers directory n (n.detach account s) :=
      Relation.ReflTransGen.single (.detach hs)
    exact hdetach.trans (untrack_retabled hs).sameSenders.turnovers

theorem unregister_turnovers (n : Node) (account : AccountId) :
    Turnovers directory n (n.unregister account).1 :=
  (unsubscribe_aside n account).sameSenders.turnovers.trans (untrack_turnovers _ account)

theorem shutdown_turnovers (n : Node) : Turnovers directory n n.shutdown :=
  List.foldlRecOn _ _ (.refl n) fun n' h account _ => h.trans (unregister_turnovers n' account)

theorem handleEvent_turnovers (n : Node) (event : LinkEvent) :
    Turnovers n.directory n (n.handleEvent event).1 := by
  unfold handleEvent
  split
  · split
    · rename_i n' tasks hconnect
      rcases connect_eq_ok hconnect with ⟨rfl, -⟩ | ⟨a, link, s, ha, htrack, -⟩
      · exact .refl _
      · exact Relation.ReflTransGen.single (.track ha htrack)
    · exact .refl n
  · exact untrack_turnovers n event.account
  · exact .refl n

/-- Whether a move is not for a sender or a loop, other than by opening and closing sessions. -/
def Move.SparesSenders : Move → Prop
  | .packet .. | .settle .. | .setDeadline .. | .track _ | .useSession .. => False
  | .begin _ _ (.finishConnect _) => False
  | _ => True

/-- Most moves are about no sender, or let sessions come and go. -/
theorem move_turnovers (n : Node) {m : Move} (hm : m.SparesSenders) :
    Turnovers n.directory n (n.move m) := by
  cases m with
  | start => exact ((reload_sameSenders n).trans (start_aside n).sameSenders).turnovers
  | shutdown => exact shutdown_turnovers n
  | register account => exact (register_aside n account).sameSenders.turnovers
  | unregister account => exact unregister_turnovers n account
  | reload => exact (reload_sameSenders n).turnovers
  | updatePrefix p =>
    show Turnovers n.directory n ((n.recompute p).toOption.getD n)
    cases hp : n.recompute p with
    | error e => exact .refl n
    | ok n' => exact (recompute_retabled hp).sameSenders.turnovers
  | listen => exact (listen_aside n).sameSenders.turnovers
  | nextEvent =>
    obtain ⟨n', hpop, hnext | ⟨event, hnext⟩⟩ := move_nextEvent n
    · rw [hnext]
      exact hpop.sameSenders.turnovers
    · have hevent := handleEvent_turnovers n' event
      rw [hpop.sameRouting.directory] at hevent
      rw [hnext]
      exact hpop.sameSenders.turnovers.trans hevent
  | event event => exact handleEvent_turnovers n event
  | emit link event => exact (emit_aside n link event).sameSenders.turnovers
  | begin now clock task =>
    cases task with
    | requestRoutes s =>
      rw [move, begin_requestRoutes]
      exact .refl n
    | sendUpdate s =>
      rw [move, begin_sendUpdate]
      exact .refl n
    | finishConnect s => exact hm.elim
    | expire s => exact (expireSession_sameSenders n s).turnovers
  | packet now account packet => exact hm.elim
  | settle outbound answer => exact hm.elim
  | setDeadline loop deadline => exact hm.elim
  | track session => exact hm.elim
  | useSession s use => exact hm.elim
  | _ => exact SameSenders.turnovers ⟨rfl, rfl, fun _ => rfl⟩

end Node

end RouteSync
