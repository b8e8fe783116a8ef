import Mathlib.Data.List.Nodup
import RouteSync.Network
import RouteSync.Proofs.Node.Broadcast
import RouteSync.Proofs.Node.Silence

/-!
# What a network does to its nodes

A network begins the tasks of its nodes, carries their packets and brings the answers back, and its
timer makes the rounds of the loops.  For each of its nodes all this is a run of moves, and these
are moves in turn (`Node.Proper`): connecting is finished once for a session and only after it was
opened, a loop ends only if its sender was stopped, and no answer comes to a packet that was not
sent.

One network leads to another if each node of the one becomes that of the other by such moves
(`Network.Leads`).  All operations of a network do this, and so does everything that may happen in
it, one after the other (`moves_of_run`).  What holds after every run in turn therefore holds in a
network, whatever its links do and whenever somebody calls a node or moves the timer
(`sending_of_run`).
-/

namespace RouteSync

/-- Whether a task may be done at any time.  Connecting is finished only once for a session, and
after it was opened. -/
def Task.IsFree : Task → Prop
  | .finishConnect _ => False
  | _ => True

namespace Node

/-! ### Runs in turn -/

section

variable {n : Node} {m : Move} {s : SessionId}

theorem Move.InTurn.isUnaided (h : m.InTurn n) : m.IsUnaided := by
  cases m with
  | track session => exact h
  | useSession s use => exact h
  | _ => trivial

theorem Move.IsUnaided.keepsSenders (h : m.IsUnaided) (n : Node) : m.KeepsSenders n := by
  cases m with
  | track session => exact h.elim
  | useSession s use => exact h.elim
  | _ => trivial

theorem isSome_session?_run {moves : List Move} (hmoves : Along (fun n m => m.InTurn n) n moves)
    (h : (n.session? s).isSome = true) : ((n.run moves).session? s).isSome = true := by
  refine hmoves.induction (motive := fun n => (n.session? s).isSome = true)
    (fun n m _ hm hn => ?_) h
  obtain ⟨session, hsession⟩ := Option.isSome_iff_exists.1 hn
  obtain ⟨sender, hsender, -⟩ :=
    (move_continues n hm.isUnaided).kept s _ _ (sender?_eq_some hsession)
  obtain ⟨session', hsession', -⟩ := Option.map_eq_some_iff.1 hsender
  exact Option.isSome_iff_exists.2 ⟨session', hsession'⟩

theorem Turnovers.loops {directory : Directory} {n' : Node} (h : Turnovers directory n n') :
    n'.loops = n.loops := by
  refine h.induction (motive := fun n' => n'.loops = n.loops) (fun n₁ n₂ hstep hn => ?_) rfl
  cases hstep with
  | same hsame => exact hsame.loops.trans hn
  | track _ htrack =>
    obtain ⟨-, -, rfl⟩ := track_eq_ok htrack
    exact hn
  | detach _ => exact hn

/-- Loops stay where they are, and further ones come after them. -/
theorem loops_move (n : Node) (hm : m.IsUnaided) :
    n.loops.map BroadcastLoop.session <+: (n.move m).loops.map BroadcastLoop.session := by
  have hsame : ∀ m, (n.move m).loops = n.loops →
      n.loops.map BroadcastLoop.session <+: (n.move m).loops.map BroadcastLoop.session :=
    fun m hloops => hloops ▸ List.prefix_rfl
  have hspared : ∀ m : Move, m.SparesSenders →
      n.loops.map BroadcastLoop.session <+: (n.move m).loops.map BroadcastLoop.session :=
    fun m hm => hsame m (move_turnovers n hm).loops
  cases m with
  | packet now account packet => exact hsame _ (handlePacket_sameSending n now account packet).loops
  | settle o answer => exact hsame _ (settle_sameSending n o answer).loops
  | setDeadline index deadline =>
    show _ <+: (n.loops.modify index _).map BroadcastLoop.session
    exact map_session_modify n.loops index deadline ▸ List.prefix_rfl
  | track session => exact hm.elim
  | useSession s use => exact hm.elim
  | begin now clock task =>
    cases task with
    | finishConnect s =>
      have hreload := (reload_sameSenders n).loops
      show _ <+: (n.finishConnect clock s).loops.map BroadcastLoop.session
      rcases finishConnect_cases n clock s with hstarted | hunstarted
      · rw [hstarted, startBroadcast, List.map_append, hreload]
        exact List.prefix_append _ _
      · rw [hunstarted]
        exact hreload ▸ List.prefix_rfl
    | _ => exact hspared _ trivial
  | _ => exact hspared _ trivial

theorem loops_run {moves : List Move} (hmoves : Along (fun n m => m.InTurn n) n moves) :
    n.loops.map BroadcastLoop.session <+: (n.run moves).loops.map BroadcastLoop.session := by
  refine hmoves.induction
    (motive := fun n' => n.loops.map BroadcastLoop.session <+: n'.loops.map BroadcastLoop.session)
    (fun n' m _ hm hn' => ?_) List.prefix_rfl
  exact hn'.trans (loops_move n' hm.isUnaided)

/-! ### Answers -/

theorem AnswersSent.mono {sent sent' : Outbound → Prop} {moves : List Move}
    (h : AnswersSent sent n moves) (hsent : ∀ o, sent o → sent' o) : AnswersSent sent' n moves := by
  induction moves generalizing n sent sent' with
  | nil => trivial
  | cons m moves ih =>
    exact ⟨fun o answer hm => hsent o (h.1 o answer hm), ih h.2 fun o => Or.imp_left (hsent o)⟩

theorem AnswersSent.append {sent : Outbound → Prop} {moves moves' : List Move}
    (h : AnswersSent sent n moves) (h' : AnswersSent sent (n.run moves) moves') :
    AnswersSent sent n (moves ++ moves') := by
  induction moves generalizing n sent with
  | nil => exact h'
  | cons m moves ih => exact ⟨h.1, ih h.2 (h'.mono fun _ => .inl)⟩

end

/-! ### Moves as a network makes them -/

/-- Whether moves are in turn, as the tasks and the timer of a network make them, finish connecting
for each session once and only if it is opened among them, and answer only packets that were sent
among them. -/
structure Proper (n : Node) (moves : List Move) : Prop where
  inTurn : Along (fun n m => m.InTurn n) n moves
  answers : AnswersSent (fun _ => False) n moves
  once : (moves.filterMap Move.finishes?).Nodup
  opened : ∀ s ∈ moves.filterMap Move.finishes?, n.session? s = none

/-- Whether a move neither answers a packet nor finishes connecting. -/
def Move.IsPlain : Move → Prop
  | .settle _ _ => False
  | .begin _ _ task => task.IsFree
  | _ => True

section

variable {n : Node} {m : Move} {moves moves' : List Move}

theorem Proper.nil (n : Node) : n.Proper [] :=
  ⟨trivial, trivial, List.nodup_nil, nofun⟩

theorem Move.IsPlain.finishes?_eq_none (h : m.IsPlain) : m.finishes? = none := by
  cases hm : m.finishes? with
  | none => rfl
  | some s =>
    obtain ⟨now, clock, rfl⟩ := Move.finishes?_eq_some hm
    exact h.elim

theorem Proper.single (hm : m.InTurn n) (hplain : m.IsPlain) : n.Proper [m] := by
  have hnone : [m].filterMap Move.finishes? = [] :=
    List.filterMap_cons_none hplain.finishes?_eq_none
  refine ⟨⟨hm, trivial⟩, ⟨?_, trivial⟩, hnone ▸ List.nodup_nil, hnone ▸ nofun⟩
  rintro o answer rfl
  exact hplain.elim

/-- A task that may be done at any time may begin at any time. -/
theorem Proper.begin {task : Task} (htask : task.IsFree) (now : Timestamp) (clock : Nat) :
    n.Proper [.begin now clock task] := by
  refine .single ?_ htask
  cases task with
  | finishConnect s => exact htask.elim
  | _ => trivial

/-- Connecting is finished for sessions that are open. -/
theorem isSome_session?_of_finished (hmoves : Along (fun n m => m.InTurn n) n moves) {s : SessionId}
    (hs : s ∈ moves.filterMap Move.finishes?) : ((n.run moves).session? s).isSome = true := by
  induction moves generalizing n with
  | nil => cases hs
  | cons m moves ih =>
    obtain ⟨m', hmem, hm'⟩ := List.mem_filterMap.1 hs
    rcases List.mem_cons.1 hmem with rfl | hmem
    · obtain ⟨now, clock, rfl⟩ := Move.finishes?_eq_some hm'
      exact isSome_session?_run hmoves hmoves.1
    · exact ih hmoves.2 (List.mem_filterMap.2 ⟨m', hmem, hm'⟩)

/-- Sessions stay on record, so no session is opened twice. -/
theorem Proper.append (h : n.Proper moves) (h' : (n.run moves).Proper moves') :
    n.Proper (moves ++ moves') := by
  have hunopened : ∀ s, (n.run moves).session? s = none → n.session? s = none := by
    intro s hs
    rw [← Option.not_isSome_iff_eq_none] at hs ⊢
    exact fun hopen => hs (isSome_session?_run h.inTurn hopen)
  refine ⟨along_append.2 ⟨h.inTurn, h'.inTurn⟩, h.answers.append (h'.answers.mono nofun), ?_,
    fun s hs => ?_⟩
  · rw [List.filterMap_append, List.nodup_append]
    refine ⟨h.once, h'.once, ?_⟩
    rintro s hs _ hs' rfl
    have hopen := isSome_session?_of_finished h.inTurn hs
    rw [h'.opened s hs'] at hopen
    cases hopen
  · rw [List.filterMap_append, List.mem_append] at hs
    exact hs.elim (h.opened s) fun hs => hunopened s (h'.opened s hs)

/-- A packet that goes out is answered after other moves. -/
theorem Proper.answered {now : Timestamp} {clock : Nat} {task : Task} {o : Outbound}
    (htask : task.IsFree) (ho : (n.begin now clock task).2 = .waiting o)
    (h : (n.move (.begin now clock task)).Proper moves) (answer : LinkAnswer) :
    n.Proper (Move.begin now clock task :: moves ++ [.settle o answer]) := by
  have hboth : n.Proper (.begin now clock task :: moves) := (Proper.begin htask now clock).append h
  have hfinishes : (Move.begin now clock task :: moves ++ [Move.settle o answer]).filterMap
      Move.finishes? = (Move.begin now clock task :: moves).filterMap Move.finishes? :=
    List.filterMap_append.trans (List.append_nil _)
  have hissued : n.issued? (.begin now clock task) = some o := by rw [issued?, ho]
  refine ⟨along_append.2 ⟨hboth.inTurn, trivial, trivial⟩, ⟨fun _ _ h => (by cases h), ?_⟩,
    hfinishes ▸ hboth.once, hfinishes ▸ hboth.opened⟩
  refine (h.answers.mono fun _ => False.elim).append ⟨?_, trivial⟩
  rintro o' answer' hsettle
  cases hsettle
  exact .inr hissued

/-- A session is opened, and connecting is finished for it after other moves. -/
theorem Proper.connected {s : SessionId} (hm : m.InTurn n) (hplain : m.IsPlain)
    (hnew : n.session? s = none) (hopen : ((n.move m).session? s).isSome = true)
    (h : (n.move m).Proper moves) (now : Timestamp) (clock : Nat) :
    n.Proper (m :: moves ++ [.begin now clock (.finishConnect s)]) := by
  have hboth : n.Proper (m :: moves) := (Proper.single hm hplain).append h
  have hstill : (((n.move m).run moves).session? s).isSome = true :=
    isSome_session?_run h.inTurn hopen
  have hfinishes : (m :: moves ++ [Move.begin now clock (.finishConnect s)]).filterMap
      Move.finishes? = (m :: moves).filterMap Move.finishes? ++ [s] := List.filterMap_append
  have hunfinished : s ∉ (m :: moves).filterMap Move.finishes? := by
    intro hs
    rw [List.filterMap_cons_none hplain.finishes?_eq_none] at hs
    rw [h.opened s hs] at hopen
    cases hopen
  refine ⟨along_append.2 ⟨hboth.inTurn, hstill, trivial⟩, hboth.answers.append ⟨nofun, trivial⟩,
    ?_, fun t ht => ?_⟩
  · rw [hfinishes, ← List.concat_eq_append]
    exact hboth.once.concat hunfinished
  · rw [hfinishes, List.mem_append, List.mem_singleton] at ht
    rcases ht with ht | rfl
    · exact hboth.opened t ht
    · exact hnew

end

/-! ### Tasks that are left -/

theorem isFree_of_handleUpdate {n : Node} {now : Timestamp} {s : SessionId} {session : Session}
    {data : Bytes} {task : Task} (h : task ∈ (n.handleUpdate now s session data).tasks) :
    task.IsFree := by
  have hintegrate : ∀ (n : Node) (changed : List Prefix), (n.integrate changed).tasks = [] := by
    intro n changed
    unfold integrate
    split <;> rfl
  unfold handleUpdate at h
  split at h
  · cases h
  · split at h
    · cases h
    · dsimp only at h
      split at h
      · cases h
      · rw [List.mem_singleton.1 h]
        trivial
      all_goals
        rw [hintegrate] at h
        cases h

/-- A packet leaves only tasks that send. -/
theorem isFree_of_handlePacket {n : Node} {now : Timestamp} {account : AccountId}
    {packet : Prepare} {task : Task} (h : task ∈ (n.handlePacket now account packet).tasks) :
    task.IsFree := by
  rcases handlePacket_cases n now account packet with
    ⟨_, -, haway⟩ | ⟨s, session, -, -, -, ⟨-, hhandled⟩ | ⟨-, hhandled⟩⟩
  · rw [haway] at h
    cases h
  · rw [hhandled] at h
    rcases handleControl_cases n s session packet.data with
      ⟨_, -, haway⟩ | ⟨request, -, -, hgranted⟩
    · rw [haway] at h
      cases h
    · rw [hgranted] at h
      split at h
      · rw [List.mem_singleton.1 h]
        trivial
      · cases h
  · rw [hhandled] at h
    exact isFree_of_handleUpdate h

/-- What an event leaves to be done may be done at any time, or the event opened a session, for
which connecting is to be finished in the end. -/
theorem handleEvent_tasks (n : Node) (event : LinkEvent) :
    (∀ task ∈ (n.handleEvent event).2, task.IsFree) ∨
      ∃ tasks s, (n.handleEvent event).2 = tasks ++ [.finishConnect s] ∧
        (∀ task ∈ tasks, task.IsFree) ∧ n.session? s = none ∧
        ((n.handleEvent event).1.session? s).isSome = true := by
  unfold handleEvent
  split
  · split
    · rename_i n' tasks hconnect
      rcases connect_eq_ok hconnect with ⟨-, hunfinished⟩ | ⟨a, link, s, -, htrack, htasks⟩
      · refine .inl fun task htask => ?_
        cases task with
        | finishConnect s => exact hunfinished s htask
        | _ => trivial
      · refine .inr ⟨_, s, htasks, fun task htask => ?_, session?_eq_none_of_track htrack, ?_⟩
        · split at htask
          · rw [List.mem_singleton.1 htask]
            trivial
          · cases htask
        · rw [session?_track htrack, if_pos rfl]
          rfl
    · exact .inl nofun
  · exact .inl nofun
  · exact .inl nofun

end Node

namespace Network

open Node (Move)

/-! ### Nodes of a network -/

section

variable {w w' w'' : Network} {name : NodeName} {n : Node}

theorem node?_setNode (w : Network) (name : NodeName) (n : Node) (name' : NodeName) :
    (w.setNode name n).node? name' =
      if name' = name then (w.node? name).map fun _ => n else w.node? name' := by
  show (w.nodes.map fun x => if x.1 = name then (name, n) else x).lookup name' =
    if name' = name then (w.nodes.lookup name).map fun _ => n else w.nodes.lookup name'
  induction w.nodes with
  | nil => split <;> rfl
  | cons x nodes ih =>
    obtain ⟨k, old⟩ := x
    rw [List.map_cons]
    by_cases hk : k = name
    · subst hk
      rw [if_pos rfl]
      by_cases hname : name' = k
      · subst hname
        rw [if_pos rfl, List.lookup_cons_self, List.lookup_cons_self]
        rfl
      · rw [if_neg hname] at ih ⊢
        rw [List.lookup_cons, List.lookup_cons, beq_false_of_ne hname]
        exact ih
    · rw [if_neg hk]
      by_cases hname : name' = k
      · subst hname
        rw [if_neg hk, List.lookup_cons_self, List.lookup_cons_self]
      · rw [List.lookup_cons, beq_false_of_ne hname, ih, List.lookup_cons,
          beq_false_of_ne (Ne.symm hk), List.lookup_cons, beq_false_of_ne hname]

theorem setNode_setNode (w : Network) (name : NodeName) (n n' : Node) :
    (w.setNode name n).setNode name n' = w.setNode name n' := by
  unfold setNode
  dsimp only
  rw [List.map_map]
  congr 2
  funext x
  by_cases hx : x.1 = name <;> simp [hx]

theorem names_setNode (w : Network) (name : NodeName) (n : Node) :
    (w.setNode name n).nodes.map Prod.fst = w.nodes.map Prod.fst := by
  unfold setNode
  dsimp only
  rw [List.map_map]
  refine List.map_congr_left fun x _ => ?_
  by_cases hx : x.1 = name <;> simp [hx]

/-- If no two nodes have the same name, then each of them is found by its name. -/
theorem node?_eq_some (hnames : (w.nodes.map Prod.fst).Nodup) {x : NodeName × Node}
    (hx : x ∈ w.nodes) : w.node? x.1 = some x.2 := by
  obtain ⟨before, after, hnodes⟩ := List.append_of_mem hx
  rw [hnodes, List.map_append, List.nodup_append] at hnames
  refine List.lookup_eq_some_iff.2 ⟨before, after, hnodes, fun y hy => bne_iff_ne.2 ?_⟩
  exact (hnames.2.2 y.1 (List.mem_map_of_mem hy) x.1 List.mem_cons_self).symm

/-! ### Networks that become other ones -/

/-- Whether all tasks that were left for later may be done at any time. -/
def IsFree (w : Network) : Prop :=
  ∀ x ∈ w.pending, x.2.IsFree

/-- A network becomes another one by the work of its nodes. -/
structure Leads (w w' : Network) : Prop where
  names : w'.nodes.map Prod.fst = w.nodes.map Prod.fst
  free : w.IsFree → w'.IsFree
  node : ∀ name n, w.node? name = some n →
    ∃ moves, w'.node? name = some (n.run moves) ∧ n.Proper moves

theorem Leads.of_nodes (hnodes : w'.nodes = w.nodes) (hfree : w.IsFree → w'.IsFree) :
    w.Leads w' where
  names := congrArg _ hnodes
  free := hfree
  node name n hn := by
    refine ⟨[], ?_, .nil n⟩
    rw [node?, hnodes]
    exact hn

theorem Leads.refl (w : Network) : w.Leads w :=
  .of_nodes rfl id

theorem Leads.trans (h : w.Leads w') (h' : w'.Leads w'') : w.Leads w'' where
  names := h'.names.trans h.names
  free hw := h'.free (h.free hw)
  node name n hn := by
    obtain ⟨moves, hmoves, hproper⟩ := h.node name n hn
    obtain ⟨moves', hmoves', hproper'⟩ := h'.node name _ hmoves
    refine ⟨moves ++ moves', ?_, hproper.append hproper'⟩
    rw [hmoves', Node.run_append]

/-- One node makes a move, the network becomes another one, and then that node makes further moves.
-/
theorem Leads.between {m : Move} {after : List Move} (hn : w.node? name = some n)
    (h : (w.setNode name (n.move m)).Leads w')
    (hproper : ∀ moves, (n.move m).Proper moves → n.Proper (m :: moves ++ after)) :
    ∃ n', w'.node? name = some n' ∧ w.Leads (w'.setNode name (n'.run after)) := by
  have hbefore : ∀ name', (w.setNode name (n.move m)).node? name' =
      if name' = name then some (n.move m) else w.node? name' := by
    intro name'
    rw [node?_setNode, hn]
    rfl
  obtain ⟨moves, hmoves, hmoved⟩ := h.node name (n.move m) (by rw [hbefore, if_pos rfl])
  refine ⟨_, hmoves, (names_setNode ..).trans (h.names.trans (names_setNode ..)), h.free,
    fun name' n' hn' => ?_⟩
  rw [node?_setNode]
  split
  · rename_i hname
    rw [hname, hn] at hn'
    cases hn'
    refine ⟨m :: moves ++ after, ?_, hproper moves hmoved⟩
    rw [hmoves, Node.run_append]
    rfl
  · rename_i hname
    exact h.node name' n' (by rw [hbefore, if_neg hname, hn'])

/-- One node makes a move. -/
theorem Leads.move {m : Move} (hn : w.node? name = some n) (h : n.Proper [m]) :
    w.Leads (w.setNode name (n.move m)) where
  names := names_setNode ..
  free := id
  node name' n' hn' := by
    rw [node?_setNode]
    split
    · rename_i hname
      rw [hname, hn] at hn'
      cases hn'
      exact ⟨[m], by rw [hn]; rfl, h⟩
    · exact ⟨[], hn', .nil n'⟩

end

/-! ### What a network does -/

section

variable (w : Network) (name : NodeName)

theorem leads_modifyWire (link : LinkId) (f : Wire → Wire) :
    w.Leads (w.modifyWire name link f) :=
  .of_nodes rfl id

theorem leads_deliver (account : AccountId) (packet : Prepare) :
    w.Leads (w.deliver name account packet).1 := by
  unfold deliver
  split
  · exact .refl w
  · rename_i n hn
    refine (Leads.move (m := .packet w.now account packet) hn (.single trivial trivial)).trans
      (.of_nodes rfl fun hfree x hx => ?_)
    rcases List.mem_append.1 hx with hold | hnew
    · exact hfree x hold
    · obtain ⟨task, htask, rfl⟩ := List.mem_map.1 hnew
      exact Node.isFree_of_handlePacket htask

theorem leads_send (o : Outbound) : w.Leads (w.send name o).1 := by
  have hnoted : w.Leads { w with sent := w.sent ++ [SentPacket.mk name o.link o.packet] } :=
    .of_nodes rfl id
  refine hnoted.trans ?_
  unfold send
  dsimp only
  split
  · exact .refl _
  · split
    · exact leads_modifyWire ..
    · split
      · exact .refl _
      · rename_i remote _
        have hdelivered := leads_deliver
          { w with sent := w.sent ++ [SentPacket.mk name o.link o.packet] }
          remote.node remote.account o.packet
        split <;> rename_i hresult <;> rw [hresult] at hdelivered <;> exact hdelivered

theorem leads_perform {task : Task} (htask : task.IsFree) :
    w.Leads (w.perform name task).1 := by
  unfold perform
  split
  · exact .refl w
  · rename_i n hn
    dsimp only
    split
    · exact Leads.move (m := .begin w.now w.clock task) hn (.begin htask w.now w.clock)
    · rename_i o ho
      have hsent := leads_send (w.setNode name (n.begin w.now w.clock task).1) name o
      generalize (w.setNode name (n.begin w.now w.clock task).1).send name o = result at hsent ⊢
      obtain ⟨n', hn', hleads⟩ := Leads.between (m := .begin w.now w.clock task) hn hsent
        fun moves hmoves => hmoves.answered htask ho result.2
      rw [hn']
      exact hleads

theorem leads_performAll {tasks : List Task} (htasks : ∀ task ∈ tasks, task.IsFree) :
    w.Leads (w.performAll name tasks) :=
  List.foldlRecOn tasks _ (.refl w) fun w' h task htask =>
    h.trans (leads_perform w' name (htasks task htask))

/-- A node deals with an event: it makes a move and does the tasks that this leaves. -/
theorem leads_performAll_of_move {n : Node} (hn : w.node? name = some n) {m : Move}
    (hm : m.InTurn n) (hplain : m.IsPlain) {tasks : List Task}
    (htasks : (∀ task ∈ tasks, task.IsFree) ∨ ∃ first s, tasks = first ++ [.finishConnect s] ∧
      (∀ task ∈ first, task.IsFree) ∧ n.session? s = none ∧
      ((n.move m).session? s).isSome = true) :
    w.Leads ((w.setNode name (n.move m)).performAll name tasks) := by
  rcases htasks with hfree | ⟨first, s, rfl, hfree, hnew, hopen⟩
  · exact (Leads.move hn (.single hm hplain)).trans (leads_performAll _ name hfree)
  · have hfirst := leads_performAll (w.setNode name (n.move m)) name hfree
    rw [performAll, List.foldl_append]
    show w.Leads (((w.setNode name (n.move m)).performAll name first).perform name _).1
    generalize (w.setNode name (n.move m)).performAll name first = done at hfirst ⊢
    obtain ⟨n', hn', hleads⟩ := Leads.between hn hfirst fun moves hmoves =>
      .connected hm hplain hnew hopen hmoves done.now done.clock
    rw [perform, hn']
    exact hleads

theorem leads_handleEvent (event : LinkEvent) : w.Leads (w.handleEvent name event) := by
  unfold handleEvent
  split
  · exact .refl w
  · rename_i n hn
    exact leads_performAll_of_move w name (m := .event event) hn trivial trivial
      (n.handleEvent_tasks event)

/-- The event at the head of the queue is taken off it and dealt with. -/
theorem leads_nextEvent {n n' : Node} {event : LinkEvent} (hn : w.node? name = some n)
    (hpop : n.nextEvent = (n', some event)) :
    w.Leads ((w.setNode name n').handleEvent name event) := by
  have hsessions : ∀ s, n'.session? s = n.session? s := by
    have haside := n.nextEvent_aside
    rw [hpop] at haside
    intro s
    rw [Node.session?, haside.sameRouting.sessions]
    rfl
  have hmoved : n.move .nextEvent = (n'.handleEvent event).1 := by simp only [Node.move, hpop]
  have hpopped : (w.setNode name n').node? name = some n' := by
    rw [node?_setNode, if_pos rfl, hn]
    rfl
  rw [handleEvent, hpopped]
  show w.Leads (((w.setNode name n').setNode name (n'.handleEvent event).1).performAll name _)
  rw [setNode_setNode, ← hmoved]
  refine leads_performAll_of_move w name (m := .nextEvent) hn trivial trivial ?_
  rw [hmoved]
  rcases n'.handleEvent_tasks event with hfree | ⟨first, s, htasks, hfree, hnew, hopen⟩
  · exact .inl hfree
  · exact .inr ⟨first, s, htasks, hfree, (hsessions s).symm.trans hnew, hopen⟩

theorem leads_handleEvents (fuel : Nat) : w.Leads (handleEvents fuel w name) := by
  induction fuel generalizing w with
  | zero => exact .refl w
  | succ fuel ih =>
    unfold handleEvents
    split
    · rename_i n' event hnext
      obtain ⟨n, hn, hpop⟩ := Option.map_eq_some_iff.1 hnext
      refine (leads_nextEvent w name hn hpop).trans (ih _)
    · exact .refl w

theorem leads_drain (fuel : Nat) (hfree : w.IsFree) : w.Leads (drain fuel w) := by
  induction fuel generalizing w with
  | zero => exact .refl w
  | succ fuel ih =>
    unfold drain
    split
    · exact .refl w
    · rename_i name task rest hpending
      have hrest : ∀ x ∈ (name, task) :: rest, x.2.IsFree := hpending ▸ hfree
      have hpopped : w.Leads { w with pending := rest } :=
        .of_nodes rfl fun _ x hx => hrest x (List.mem_cons_of_mem _ hx)
      have hdone := hpopped.trans (leads_perform _ name (hrest _ List.mem_cons_self))
      exact hdone.trans (ih _ (hdone.free hfree))

theorem leads_comeToRest (hfree : w.IsFree) : w.Leads w.comeToRest := by
  have hevents : ∀ nodes : List (NodeName × Node), w.Leads (nodes.foldl
      (fun w x => handleEvents ((w.node? x.1).elim 0 (·.events.length)) w x.1) w) :=
    fun nodes => List.foldlRecOn nodes _ (.refl w) fun w' h x _ =>
      h.trans (leads_handleEvents w' x.1 _)
  exact (hevents w.nodes).trans (leads_drain _ _ ((hevents w.nodes).free hfree))

/-! ### The timer -/

/-- The next round of a loop is put off. -/
theorem leads_setDeadline_some (index deadline : Nat) :
    w.Leads (w.setDeadline name index (some deadline)) := by
  unfold setDeadline
  split
  · exact .refl w
  · rename_i n hn
    exact Leads.move (m := .setDeadline index (some deadline)) hn (.single trivial trivial)

/-- A loop ends only in a round that finds its sender stopped. -/
theorem leads_round (index : Nat) (loop : BroadcastLoop)
    (hloop : ∀ n, w.node? name = some n →
      (n.loops.map BroadcastLoop.session)[index]? = some loop.session) :
    w.Leads (w.round name index loop) := by
  unfold round
  split
  · exact .refl w
  · rename_i n hn
    split
    · have hsent : w.Leads (w.perform name (.sendUpdate loop.session)).1 :=
        leads_perform w name trivial
      refine hsent.trans ?_
      dsimp only
      split
      · exact .refl _
      · exact leads_setDeadline_some ..
    · rename_i hstopped
      rw [setDeadline, hn]
      refine Leads.move (m := .setDeadline index none) hn (.single (fun l hl => ?_) trivial)
      have hsession : l.session = loop.session := by
        have hindex := hloop n hn
        rw [List.getElem?_map, hl] at hindex
        exact Option.some.inj hindex
      rw [hsession, Node.sending?, Option.any_map]
      exact eq_false_of_ne_true hstopped

/-- Loops that are due are loops of the node. -/
theorem getElem?_loops_of_mem_dueLoops {n : Node} {x : Nat × BroadcastLoop}
    (hx : x ∈ w.dueLoops n) : n.loops[x.1]? = some x.2 := by
  obtain ⟨y, hy, rfl⟩ := List.mem_map.1 hx
  exact List.mem_zipIdx_iff_getElem?.1 (List.mem_filter.1 hy).1

/-- Moving the timer makes rounds of the loops that are due by then.  Loops stay where they are, so
each of them is still there when its turn comes. -/
theorem leads_advance (hnames : (w.nodes.map Prod.fst).Nodup) (ms : Nat) :
    w.Leads (w.advance ms) := by
  have hclock : w.Leads { w with clock := w.clock + ms } := .of_nodes rfl id
  unfold advance
  refine List.foldlRecOn _ _ hclock fun w' h x hx => h.trans (leads_round w' x.1 _ _ ?_)
  obtain ⟨⟨name, n⟩, hn, hdue⟩ := List.mem_flatMap.1 (List.mem_mergeSort.1 hx)
  obtain ⟨y, hy, rfl⟩ := List.mem_map.1 hdue
  have hloop : (n.loops.map BroadcastLoop.session)[y.1]? = some y.2.session := by
    rw [List.getElem?_map, getElem?_loops_of_mem_dueLoops _ hy]
    rfl
  intro n' hn'
  obtain ⟨moves, hmoves, hproper⟩ := h.node name n (node?_eq_some hnames hn)
  rw [hmoves, Option.some.injEq] at hn'
  obtain ⟨added, hadded⟩ := Node.loops_run hproper.inTurn
  rw [← hn', ← hadded, List.getElem?_append_left (List.getElem?_eq_some_iff.1 hloop).1]
  exact hloop

end

/-! ### Everything that may happen -/

/-- What may happen to a network. -/
inductive Act where
  | prepareAnswer (name : NodeName) (link : LinkId) (answer : LinkAnswer)
  /-- A packet comes from somebody who is not in the network. -/
  | deliver (name : NodeName) (account : AccountId) (packet : Prepare)
  | event (name : NodeName) (event : LinkEvent)
  /-- Somebody calls a node or changes its surroundings.  Tasks that this leaves are not done. -/
  | call (name : NodeName) (m : Move)
  | perform (name : NodeName) (task : Task)
  | comeToRest
  | advance (ms : Nat)

/-- The network after one of these. -/
def act (w : Network) : Act → Network
  | .prepareAnswer name link answer => w.prepareAnswer name link answer
  | .deliver name account packet => (w.deliver name account packet).1
  | .event name event => w.handleEvent name event
  | .call name m =>
    match w.node? name with
    | none => w
    | some n => w.setNode name (n.move m)
  | .perform name task => (w.perform name task).1
  | .comeToRest => w.comeToRest
  | .advance ms => w.advance ms

/-- The network after several of these. -/
def run (w : Network) (acts : List Act) : Network :=
  acts.foldl act w

/-- Whether everything is left to the network that it does by itself: nobody else answers packets,
finishes connecting, ends loops, or opens and uses sessions. -/
def Act.IsFair : Act → Prop
  | .call _ m => m.IsPlain ∧ ∀ n, m.InTurn n
  | .perform _ task => task.IsFree
  | _ => True

theorem leads_act {w : Network} {a : Act} (ha : a.IsFair)
    (hnames : (w.nodes.map Prod.fst).Nodup) (hfree : w.IsFree) : w.Leads (w.act a) := by
  cases a with
  | prepareAnswer name link answer => exact leads_modifyWire ..
  | deliver name account packet => exact leads_deliver ..
  | event name event => exact leads_handleEvent ..
  | call name m =>
    rw [act]
    split
    · exact .refl w
    · rename_i n hn
      exact Leads.move hn (.single (ha.2 n) ha.1)
  | perform name task => exact leads_perform w name ha
  | comeToRest => exact leads_comeToRest w hfree
  | advance ms => exact leads_advance w hnames ms

theorem leads_run {w : Network} {acts : List Act} (hacts : ∀ a ∈ acts, a.IsFair)
    (hnames : (w.nodes.map Prod.fst).Nodup) (hfree : w.IsFree) : w.Leads (w.run acts) :=
  List.foldlRecOn acts act (.refl w) fun _ h a ha =>
    h.trans (leads_act (hacts a ha) (h.names ▸ hnames) (h.free hfree))

/-- Whatever happens in a network, each of its nodes makes moves in turn.  It finishes connecting at
most once for each session, and answers no packet that was not sent. -/
theorem moves_of_run {w : Network} {acts : List Act} (hacts : ∀ a ∈ acts, a.IsFair)
    (hnames : (w.nodes.map Prod.fst).Nodup) (hpending : w.pending = []) {name : NodeName} {n : Node}
    (hn : w.node? name = some n) :
    ∃ moves, (w.run acts).node? name = some (n.run moves) ∧
      Node.Along (fun n m => m.InTurn n) n moves ∧
      (moves.filterMap Node.Move.finishes?).Nodup ∧
      Node.Along (fun n m => m.KeepsSenders n) n moves ∧
      Node.AnswersSent (fun _ => False) n moves := by
  have hfree : w.IsFree := by
    intro x hx
    rw [hpending] at hx
    cases hx
  obtain ⟨moves, hmoves, hproper⟩ := (leads_run hacts hnames hfree).node name n hn
  exact ⟨moves, hmoves, hproper.inTurn, hproper.once,
    hproper.inTurn.imp fun n _ hm => hm.isUnaided.keepsSenders n, hproper.answers⟩

/-- So no sender of a node that was just built ever takes its peer to know more than the present
table, and an account that is sent routes has a sender that broadcasts and never more than one loop.
-/
theorem sending_of_run {w : Network} {acts : List Act} (hacts : ∀ a ∈ acts, a.IsFair)
    (hnames : (w.nodes.map Prod.fst).Nodup) (hpending : w.pending = []) {name : NodeName}
    {settings : Settings} {directory : Directory} {codec : Codec}
    {filter : Option (Prefix → Route → Bool)} {id : TableId} {links : List Link}
    (hfresh : w.node? name = some (.fresh settings directory codec filter id links)) {n : Node}
    (hn : (w.run acts).node? name = some n) {a : AccountId} {s : SessionId}
    (htracked : n.trackedSession? a = some s) {session : Session}
    (hsession : n.session? s = some session) :
    session.sender.lastKnownEpoch ≤ n.outgoing.epoch ∧
      (session.account.sendsRoutes = true →
        session.sender.broadcasting = true ∧ (n.activeLoops s).length ≤ 1) := by
  obtain ⟨moves, hmoves, hturn, honce, hsenders, hanswers⟩ :=
    moves_of_run hacts hnames hpending hfresh
  rw [hn, Option.some.injEq] at hmoves
  subst hmoves
  have hknown := (Node.informs_fresh ..).run hsenders hanswers
  have hattended := Node.attended_of_run (Node.attended_fresh ..) hturn honce
  refine ⟨hknown s session hsession, fun hsends => ?_⟩
  obtain ⟨hbroadcasting, hle, -⟩ :=
    hattended.activeLoops (Node.mem_tracked_of_trackedSession? htracked) hsession hsends
  exact ⟨hbroadcasting, hle⟩

/-- The small node alone, on whose link everything is accepted. -/
def alone : Network where
  nodes := [("near", Node.small)]
  now := .origin

/-- Its peer is connected and a minute passes.  The loop makes one round, however late that is, and
the next one is due after the interval. -/
example :
    ((alone.run [.event "near" ⟨Node.smallPeer.id, .connected⟩, .advance 60000]).node? "near").map
      (fun n => (n.activeLoops ⟨0⟩).map (·.deadline)) = some [some 90000] := by
  decide +kernel

end Network

end RouteSync
