import Mathlib.Logic.Relation
import RouteSync.Node.Import
import RouteSync.Proofs.Node.Selection

/-!
# Runs of a node

A run of a node is a list of moves (`Node.run`).  A move is a call of the node, a link event, a
packet, the beginning of a task, the answer to a packet of the node, or a change of its surroundings
or of its configuration.  Tasks may begin at any time and answers may be any, whether or not a task
was asked for or a packet sent, so that every way in which the work of a node can be interleaved is
among the runs; the routes of expired peers are purged by the tasks `expire` and `requestRoutes`.

The moves that a node makes by itself, its settings, its directory and its filter being what they
are (`Move.IsRoutine`), are made of steps (`move_stepsWith`).  In each of them one thing changes:
the node's own routes are made anew, a session is opened or closed, a receiver takes an update in or
forgets its routes, or a sender changes (`Change`).  Then routes are chosen anew (`Rechosen`).  What
changes and such choices keep, every routine move keeps (`StepsWith.induction`).  What steps do not
show, like loops and refusals, is read off what a call can come to (`connect_eq_ok`, `untrack_eq`,
`handlePacket_cases`).
-/

namespace RouteSync

namespace Node

/-- One thing that happens at a node. -/
inductive Move where
  | start
  | shutdown
  | register (account : AccountId)
  | unregister (account : AccountId)
  | reload
  | updatePrefix (p : Prefix)
  | listen
  /-- The next event of the queue is dealt with. -/
  | nextEvent
  | event (event : LinkEvent)
  | emit (link : LinkId) (event : LinkEvent)
  | setConnected (link : LinkId) (connected : Bool)
  | packet (now : Timestamp) (account : AccountId) (packet : Prepare)
  | begin (now : Timestamp) (clock : Nat) (task : Task)
  | settle (outbound : Outbound) (answer : LinkAnswer)
  | setDeadline (loop : Nat) (deadline : Option Nat)
  /-- The codec works differently from now on. -/
  | codec (codec : Codec)
  | addLink (link : Link)
  /-- The filter decides differently from now on. -/
  | filter (filter : Option (Prefix → Route → Bool))
  | configure (settings : Settings)
  | direct (directory : Directory)
  /-- Somebody else opens a session. -/
  | track (session : Session)
  /-- Somebody else uses the sender or the receiver of a session. -/
  | useSession (s : SessionId) (use : Session → Session)

/-- What a move does to a node. -/
def move (n : Node) : Move → Node
  | .start => n.start.1
  | .shutdown => n.shutdown
  | .register account => (n.register account).1
  | .unregister account => (n.unregister account).1
  | .reload => n.reload.1
  | .updatePrefix p => (n.recompute p).toOption.getD n
  | .listen => n.listen.1
  | .nextEvent =>
    match n.nextEvent with
    | (n, some event) => (n.handleEvent event).1
    | (n, none) => n
  | .event event => (n.handleEvent event).1
  | .emit link event => n.emit link event
  | .setConnected link connected => n.modifyLink link fun l => { l with connected := connected }
  | .packet now account packet => (n.handlePrepare now account packet).1
  | .begin now clock task => (n.begin now clock task).1
  | .settle outbound answer => (n.settle outbound answer).1
  | .setDeadline loop deadline =>
    { n with loops := n.loops.modify loop fun l => { l with deadline := deadline } }
  | .codec codec => { n with codec := codec }
  | .addLink link => { n with links := n.links ++ [link] }
  | .filter filter => { n with filter := filter }
  | .configure settings => { n with settings := settings }
  | .direct directory => { n with directory := directory }
  | .track session => ((n.track session).map Prod.fst).toOption.getD n
  | .useSession s use => n.modifySession s use

/-- The node after several moves. -/
def run (n : Node) (moves : List Move) : Node :=
  moves.foldl move n

/-- A node that was just built. -/
def fresh (settings : Settings) (directory : Directory) (codec : Codec)
    (filter : Option (Prefix → Route → Bool)) (id : TableId) (links : List Link) : Node where
  settings := settings
  directory := directory
  codec := codec
  filter := filter
  outgoing := { id := id }
  links := links

/-- What every move keeps, a run keeps. -/
theorem run_induction {motive : Node → Prop} {moves : List Move}
    (hmove : ∀ n, ∀ m ∈ moves, motive n → motive (n.move m)) {n : Node} (hn : motive n) :
    motive (n.run moves) :=
  List.foldlRecOn moves move hn fun n hn m hm => hmove n m hm hn

/-- Whether a property holds of every node of a run together with the move that is made there. -/
def Along (P : Node → Move → Prop) : Node → List Move → Prop
  | _, [] => True
  | n, m :: moves => P n m ∧ Along P (n.move m) moves

/-- What the moves of a run keep that have the property, a run keeps along which it holds. -/
theorem Along.induction {P : Node → Move → Prop} {motive : Node → Prop} {moves : List Move}
    (hmove : ∀ n, ∀ m ∈ moves, P n m → motive n → motive (n.move m)) {n : Node}
    (h : Along P n moves) (hn : motive n) : motive (n.run moves) := by
  induction moves generalizing n with
  | nil => exact hn
  | cons m moves ih =>
    have hnext : motive (n.move m) := hmove n m List.mem_cons_self h.1 hn
    exact ih (fun n' m' hm' => hmove n' m' (List.mem_cons_of_mem m hm')) h.2 hnext

theorem Along.imp {P Q : Node → Move → Prop} (hPQ : ∀ n m, P n m → Q n m) {n : Node}
    {moves : List Move} (h : Along P n moves) : Along Q n moves := by
  induction moves generalizing n with
  | nil => trivial
  | cons m moves ih => exact ⟨hPQ n m h.1, ih h.2⟩

theorem run_append (n : Node) (moves moves' : List Move) :
    n.run (moves ++ moves') = (n.run moves).run moves' :=
  List.foldl_append

theorem run_concat (n : Node) (moves : List Move) (m : Move) :
    n.run (moves ++ [m]) = (n.run moves).move m :=
  run_append n moves [m]

theorem along_append {P : Node → Move → Prop} {n : Node} {moves moves' : List Move} :
    Along P n (moves ++ moves') ↔ Along P n moves ∧ Along P (n.run moves) moves' := by
  induction moves generalizing n with
  | nil => exact (and_iff_right trivial).symm
  | cons m moves ih =>
    rw [List.cons_append, Along, Along, ih, and_assoc]
    rfl

theorem along_concat {P : Node → Move → Prop} {n : Node} {moves : List Move} {m : Move} :
    Along P n (moves ++ [m]) ↔ Along P n moves ∧ P (n.run moves) m :=
  along_append.trans (and_congr_right fun _ => and_iff_left trivial)

/-- Whether a property holds of some node of a run together with the move that is made there. -/
def Sometime (P : Node → Move → Prop) : Node → List Move → Prop
  | _, [] => False
  | n, m :: moves => P n m ∨ Sometime P (n.move m) moves

theorem sometime_concat {P : Node → Move → Prop} {n : Node} {moves : List Move} {m : Move} :
    Sometime P n (moves ++ [m]) ↔ Sometime P n moves ∨ P (n.run moves) m := by
  induction moves generalizing n with
  | nil => simp [Sometime, run]
  | cons m' moves ih =>
    rw [List.cons_append, Sometime, Sometime, ih, or_assoc]
    rfl

theorem Sometime.exists_mem {P : Node → Move → Prop} {n : Node} {moves : List Move}
    (h : Sometime P n moves) : ∃ n', ∃ m ∈ moves, P n' m := by
  induction moves generalizing n with
  | nil => exact h.elim
  | cons m moves ih =>
    rcases h with hnow | hlater
    · exact ⟨n, m, List.mem_cons_self, hnow⟩
    · obtain ⟨n', m', hmem, hlater⟩ := ih hlater
      exact ⟨n', m', List.mem_cons_of_mem m hmem, hlater⟩

/-! ### What leaves the routes alone -/

/-- Two nodes that agree on everything that routes depend on. -/
structure SameRouting (n n' : Node) : Prop where
  settings : n'.settings = n.settings
  directory : n'.directory = n.directory
  codec : n'.codec = n.codec
  filter : n'.filter = n.filter
  originated : n'.originated = n.originated
  incoming : n'.incoming = n.incoming
  localTable : n'.localTable = n.localTable
  outgoing : n'.outgoing = n.outgoing
  sessions : n'.sessions = n.sessions
  tracked : n'.tracked = n.tracked

theorem SameRouting.refl (n : Node) : SameRouting n n :=
  ⟨rfl, rfl, rfl, rfl, rfl, rfl, rfl, rfl, rfl, rfl⟩

/-- The node `n'` differs from `n` at most in links, subscriptions and events that wait. -/
def Aside (n n' : Node) : Prop :=
  n' = { n with
    links := n'.links, subscriptions := n'.subscriptions, nextListener := n'.nextListener
    events := n'.events, listening := n'.listening }

theorem Aside.refl (n : Node) : Aside n n := rfl

theorem Aside.trans {n n' n'' : Node} (h : Aside n n') (h' : Aside n' n'') : Aside n n'' := by
  rw [Aside] at h h' ⊢
  rw [h] at h'
  exact h'

theorem Aside.sameRouting {n n' : Node} (h : Aside n n') : SameRouting n n' := by
  rw [h]
  exact ⟨rfl, rfl, rfl, rfl, rfl, rfl, rfl, rfl, rfl, rfl⟩

theorem register_aside (n : Node) (account : AccountId) : Aside n (n.register account).1 := by
  unfold register
  split
  · rfl
  · split
    · rfl
    · split <;> rfl

theorem unsubscribe_aside (n : Node) (account : AccountId) : Aside n (n.unsubscribe account) := by
  unfold unsubscribe
  split <;> rfl

theorem unsubscribe_sameRouting (n : Node) (account : AccountId) :
    SameRouting n (n.unsubscribe account) :=
  (unsubscribe_aside n account).sameRouting

theorem emit_aside (n : Node) (link : LinkId) (event : LinkEvent) :
    Aside n (n.emit link event) := by
  unfold emit
  split <;> rfl

theorem listen_aside (n : Node) : Aside n n.listen.1 := by
  unfold listen
  split <;> rfl

theorem nextEvent_aside (n : Node) : Aside n n.nextEvent.1 := by
  unfold nextEvent
  split
  · split <;> rfl
  · rfl

theorem registerAll_aside (n : Node) (accounts : List Account) :
    Aside n (accounts.foldl (fun n account => (n.register account.id).1) n) :=
  List.foldlRecOn accounts _ (.refl n) fun n' h account _ =>
    h.trans (register_aside n' account.id)

theorem startBroadcast_sameRouting (n : Node) (clock : Nat) (s : SessionId) :
    SameRouting n (n.startBroadcast clock s) :=
  ⟨rfl, rfl, rfl, rfl, rfl, rfl, rfl, rfl, rfl, rfl⟩

/-! ### Steps -/

theorem session?_modifySession (n : Node) (s : SessionId) (f : Session → Session) (t : SessionId) :
    (n.modifySession s f).session? t = if t = s then (n.session? t).map f else n.session? t := by
  show (n.sessions.modify s.index f)[t.index]? = _
  rw [List.getElem?_modify]
  by_cases hts : t = s
  · rw [if_pos hts, hts]
    simp [session?]
  · have hindex : s.index ≠ t.index := fun h => hts (by cases s; cases t; simpa using h.symm)
    rw [if_neg hts]
    simp [session?, hindex]

/-- A session is the one that was changed, or it was there before. -/
theorem session?_modifySession_cases {n : Node} {s t : SessionId} {f : Session → Session}
    {session' : Session} (h : (n.modifySession s f).session? t = some session') :
    (∃ session, t = s ∧ n.session? s = some session ∧ f session = session') ∨
      n.session? t = some session' := by
  rw [session?_modifySession] at h
  split at h
  · rename_i hts
    rw [hts] at h
    obtain ⟨session, hsession, hchanged⟩ := Option.map_eq_some_iff.1 h
    exact .inl ⟨session, hts, hsession, hchanged⟩
  · exact .inr h

/-- A change of a session is known by what it makes of the session. -/
theorem modifySession_congr {n : Node} {s : SessionId} {f g : Session → Session}
    (h : ∀ session, n.session? s = some session → f session = g session) :
    n.modifySession s f = n.modifySession s g := by
  have hsessions : n.sessions.modify s.index f = n.sessions.modify s.index g := by
    refine List.ext_getElem? fun i => ?_
    rw [List.getElem?_modify, List.getElem?_modify]
    by_cases hi : s.index = i
    · subst hi
      cases hsession : n.sessions[s.index]? with
      | none => rfl
      | some session => simp [h session hsession]
    · simp [hi]
  rw [modifySession, modifySession, hsessions]

/-- What the change of a session leaves alone. -/
theorem map_session?_modifySession {α : Type} (view : Session → α) {n : Node} {s : SessionId}
    {f : Session → Session}
    (hf : ∀ session, n.session? s = some session → view (f session) = view session)
    (t : SessionId) : ((n.modifySession s f).session? t).map view = (n.session? t).map view := by
  rw [session?_modifySession]
  split
  · rename_i hts
    rw [hts]
    cases hsession : n.session? s with
    | none => rfl
    | some session => exact congrArg some (hf session hsession)
  · rfl

/-- The node without the session of an account, before any route is chosen anew. -/
def detach (n : Node) (account : AccountId) (s : SessionId) : Node :=
  { n with tracked := n.tracked.filter (·.1 != account) }.modifySession s fun session =>
    { session with sender := session.sender.stop }

/-- The receiver of a session is replaced. -/
def setReceiver (n : Node) (s : SessionId) (r : Receiver) : Node :=
  n.modifySession s fun session => { session with receiver := r }

/-- The receiver of a session takes an update in, and routes are chosen anew for the prefixes that
this changed. -/
def receive (n : Node) (s : SessionId) (r : Receiver) (now : Timestamp) (u : UpdateRequest) :
    Node :=
  ((n.setReceiver s (r.apply now u).1).recomputeAll (r.apply now u).2.changed).1

theorem receive_retabled (n : Node) (s : SessionId) (r : Receiver) (now : Timestamp)
    (u : UpdateRequest) : Retabled (n.setReceiver s (r.apply now u).1) (n.receive s r now u) :=
  recomputeAll_retabled _ _

theorem session?_receive (n : Node) (s : SessionId) (r : Receiver) (now : Timestamp)
    (u : UpdateRequest) (t : SessionId) :
    (n.receive s r now u).session? t = (n.setReceiver s (r.apply now u).1).session? t := by
  rw [receive_retabled]
  rfl

/-- What may come to a node from outside. -/
structure Intake where
  /-- Which updates may reach the receiver of a session. -/
  update : Node → Session → UpdateRequest → Prop
  /-- Which codecs may come into use. -/
  codec : Codec → Prop

/-- Anything may come. -/
def Intake.any : Intake where
  update _ _ _ := True
  codec _ := True

section

variable (intake : Intake)

/-- One thing changes at a node, before any route is chosen anew.  The choice may turn out otherwise
for the given prefixes only. -/
inductive Change : List Prefix → Node → Node → Prop where
  | aside {n n' : Node} : SameRouting n n' → Change [] n n'
  | codec {n : Node} {codec : Codec} : intake.codec codec → Change [] n { n with codec := codec }
  /-- The node's own routes are made anew. -/
  | originate {n : Node} {routes : List Route} : n.ownRoutes = .ok routes →
      Change (routes.map (·.target) ++ n.originated.keys) n
        { n with originated := routes.foldl RouteTable.insert RouteTable.empty }
  /-- A session with an account of the directory is opened. -/
  | track {n n' : Node} {id : AccountId} {account : Account} {link : LinkId} {s : SessionId} :
      n.directory.account? id = some account → n.track (newSession account link) = .ok (n', s) →
      Change [] n n'
  | detach {n : Node} {account : AccountId} {s : SessionId} {held : List Prefix} :
      n.trackedSession? account = some s →
      (∀ session, n.session? s = some session → session.receiver.routes.keys = held) →
      Change held n (n.detach account s)
  /-- Only the routes that are let in reach the receiver. -/
  | receive {n : Node} {s : SessionId} {session : Session} (now : Timestamp) (u : UpdateRequest) :
      n.session? s = some session → intake.update n session u →
      Change (session.receiver.apply now (u.admitted n.settings)).2.changed n
        (n.setReceiver s (session.receiver.apply now (u.admitted n.settings)).1)
  | clear {n : Node} {s : SessionId} {session : Session} : n.session? s = some session →
      Change session.receiver.routes.keys n (n.setReceiver s session.receiver.clear.1)
  | sender (n : Node) (s : SessionId) (change : Session → Sender) :
      Change [] n (n.modifySession s fun session => { session with sender := change session })

/-- Routes are chosen anew, first for prefixes among which all stale ones are. -/
inductive Rechosen (stale : List Prefix) (n : Node) : Node → Prop where
  | all {ps : List Prefix} (rest : List Prefix) : stale ⊆ ps →
      Rechosen stale n ((n.recomputeAll ps).1.recomputeAll rest).1
  | each {ps : List Prefix} : stale ⊆ ps → Rechosen stale n (n.recomputeEach ps)

/-- What the routine moves of a node are made of: one thing changes, and routes are chosen anew. -/
def StepWith (n n' : Node) : Prop :=
  ∃ stale changed, Change intake stale n changed ∧ Rechosen stale changed n'

/-- Several steps. -/
def StepsWith : Node → Node → Prop :=
  Relation.ReflTransGen (StepWith intake)

end

/-- Several steps with anything coming in. -/
abbrev Steps : Node → Node → Prop :=
  StepsWith .any

section

variable {intake : Intake}

theorem StepsWith.refl (n : Node) : StepsWith intake n n := Relation.ReflTransGen.refl

theorem StepsWith.trans {n n' n'' : Node} (h : StepsWith intake n n')
    (h' : StepsWith intake n' n'') : StepsWith intake n n'' :=
  Relation.ReflTransGen.trans h h'

theorem StepWith.steps {n n' : Node} (h : StepWith intake n n') : StepsWith intake n n' :=
  Relation.ReflTransGen.single h

/-- What choosing anew for one prefix keeps is kept. -/
theorem Rechosen.induction {motive : Node → Prop}
    (hstep : ∀ n p n', n.recompute p = .ok n' → motive n → motive n') {stale : List Prefix}
    {n n' : Node} (h : Rechosen stale n n') (hn : motive n) : motive n' := by
  cases h with
  | @all ps rest => exact recomputeAll_induction hstep (recomputeAll_induction hstep hn ps) rest
  | @each ps => exact recomputeEach_induction hstep hn ps

theorem Rechosen.retabled {stale : List Prefix} {n n' : Node} (h : Rechosen stale n n') :
    Retabled n n' :=
  h.induction (fun _ _ _ hok hn => hn.trans (recompute_retabled hok)) (.refl n)

/-- What changes keep and choosing anew, steps keep. -/
theorem StepsWith.induction {motive : Node → Prop}
    (hchange : ∀ stale n n', Change intake stale n n' → motive n → motive n')
    (hstep : ∀ n p n', n.recompute p = .ok n' → motive n → motive n') {n n' : Node}
    (h : StepsWith intake n n') (hn : motive n) : motive n' := by
  induction h with
  | refl => exact hn
  | tail _ hlast ih =>
    obtain ⟨stale, changed, hchanged, hchosen⟩ := hlast
    exact hchosen.induction hstep (hchange stale _ changed hchanged ih)

/-- A node keeps its codec unless another one comes into use. -/
theorem StepsWith.codec_cases {n n' : Node} (h : StepsWith intake n n') :
    n'.codec = n.codec ∨ intake.codec n'.codec := by
  refine h.induction (motive := fun n' => n'.codec = n.codec ∨ intake.codec n'.codec)
    (fun stale n₁ n₂ hchange hn => ?_) (fun n₁ p n₂ hok hn => ?_) (.inl rfl)
  · cases hchange with
    | aside hsame => exact hsame.codec ▸ hn
    | codec hcodec => exact .inr hcodec
    | track _ htrack =>
      unfold track at htrack
      split at htrack
      · cases htrack
      · cases htrack
        exact hn
    | _ => exact hn
  · rw [recompute_retabled hok]
    exact hn

/-- A change after which there is nothing to choose anew. -/
theorem Change.steps {n n' : Node} (h : Change intake [] n n') : StepsWith intake n n' :=
  StepWith.steps ⟨[], n', h, @Rechosen.all [] n' [] [] (List.Subset.refl [])⟩

theorem SameRouting.steps {n n' : Node} (h : SameRouting n n') : StepsWith intake n n' :=
  (Change.aside h).steps

theorem Aside.steps {n n' : Node} (h : Aside n n') : StepsWith intake n n' :=
  h.sameRouting.steps

theorem recompute_steps {n n' : Node} {p : Prefix} (h : n.recompute p = .ok n') :
    StepsWith intake n n' := by
  have hchosen : Rechosen [] n (n.recomputeAll [p]).1 :=
    .all [] (List.nil_subset _)
  rw [recomputeAll, h] at hchosen
  exact StepWith.steps ⟨[], n, .aside (.refl n), hchosen⟩

theorem reload_steps (n : Node) : StepsWith intake n n.reload.1 := by
  unfold reload
  split
  · exact .refl n
  · rename_i routes hroutes
    refine StepWith.steps ⟨_, _, .originate hroutes, .all [] fun p hp => ?_⟩
    rw [List.mem_eraseDups]
    exact List.mem_append_left _ hp

theorem receive_steps {n : Node} {s : SessionId} {session : Session}
    (hsession : n.session? s = some session) {u : UpdateRequest}
    (hupdate : intake.update n session u) (now : Timestamp) :
    StepsWith intake n (n.receive s session.receiver now (u.admitted n.settings)) :=
  StepWith.steps ⟨_, _, .receive now u hsession hupdate, .all [] (List.Subset.refl _)⟩

theorem expireSession_steps (n : Node) (s : SessionId) :
    StepsWith intake n (n.expireSession s) := by
  unfold expireSession
  split
  · exact .refl n
  · rename_i session hsession
    exact StepWith.steps ⟨_, _, .clear hsession, .each (List.Subset.refl _)⟩

end

/-- Untracking an account closes its session and chooses anew, first for the prefixes that its
receiver holds. -/
theorem untrack_eq {n : Node} {account : AccountId} {s : SessionId}
    (hs : n.trackedSession? account = some s) :
    ∃ held rest, (∀ session, n.session? s = some session → session.receiver.routes.keys = held) ∧
      (n.untrack account).1 = (((n.detach account s).recomputeAll held).1.recomputeAll rest).1 := by
  have hsession : (n.detach account s).session? s = (n.session? s).map fun session =>
      { session with sender := session.sender.stop } := by
    rw [detach, session?_modifySession, if_pos rfl]
    rfl
  rw [detach] at hsession
  unfold untrack
  rw [hs]
  dsimp only
  split
  · rename_i hnone
    rw [hnone] at hsession
    refine ⟨[], [], fun session h => ?_, rfl⟩
    rw [h] at hsession
    cases hsession
  · rename_i session' hsession'
    rw [hsession'] at hsession
    refine ⟨session'.receiver.routes.keys, ?_⟩
    have hheld : ∀ session, n.session? s = some session →
        session.receiver.routes.keys = session'.receiver.routes.keys := by
      intro session h
      rw [h] at hsession
      cases hsession
      rfl
    split
    · rename_i n' e hn'
      exact ⟨[], hheld, by rw [detach, hn']; rfl⟩
    · rename_i n' hn'
      split
      · split
        · rename_i p _
          exact ⟨[p], hheld, by rw [detach, hn']⟩
        · exact ⟨[], hheld, by rw [detach, hn']; rfl⟩
      · exact ⟨[], hheld, by rw [detach, hn']; rfl⟩

theorem untrack_retabled {n : Node} {account : AccountId} {s : SessionId}
    (hs : n.trackedSession? account = some s) :
    Retabled (n.detach account s) (n.untrack account).1 := by
  obtain ⟨held, rest, -, huntrack⟩ := untrack_eq hs
  rw [huntrack]
  exact (recomputeAll_retabled _ held).trans (recomputeAll_retabled _ rest)

/-- A session that is opened stands behind all others. -/
theorem track_eq_ok {n n' : Node} {session : Session} {s : SessionId}
    (h : n.track session = .ok (n', s)) :
    n.trackedSession? session.account.id = none ∧ s = ⟨n.sessions.length⟩ ∧
      n' = { n with
        sessions := n.sessions ++ [session]
        tracked := n.tracked ++ [(session.account.id, s)] } := by
  unfold track at h
  split at h
  · cases h
  · rename_i hnone
    cases h
    exact ⟨hnone, rfl, rfl⟩

/-- Whoever else opens a session leaves everything else alone. -/
theorem move_track (n : Node) (session : Session) :
    ∃ sessions tracked, n.move (.track session) =
      { n with sessions := sessions, tracked := tracked } := by
  show ∃ sessions tracked, ((n.track session).map Prod.fst).toOption.getD n = _
  cases htrack : n.track session with
  | error e => exact ⟨n.sessions, n.tracked, rfl⟩
  | ok result =>
    obtain ⟨-, -, hn'⟩ := track_eq_ok htrack
    exact ⟨_, _, hn'⟩

/-- A link that came up changes at most one thing: it opens a session for an account of the
directory.  Only then there is something left to be finished. -/
theorem connect_eq_ok {n n' : Node} {account : AccountId} {tasks : List Task}
    (h : n.connect account = .ok (n', tasks)) :
    (n' = n ∧ ∀ s, .finishConnect s ∉ tasks) ∨
      ∃ a link s, n.directory.account? account = some a ∧
        n.track (newSession a link) = .ok (n', s) ∧
        tasks = (if a.receivesRoutes then [.requestRoutes s] else []) ++ [.finishConnect s] := by
  unfold connect at h
  split at h
  · cases h
  · rename_i link hlink
    split at h
    · cases h
      exact .inl ⟨rfl, fun s => List.not_mem_nil⟩
    · split at h
      · cases h
        refine .inl ⟨rfl, fun s => ?_⟩
        split <;> simp
      · split at h
        · cases h
        · rename_i a ha
          split at h
          · cases h
            exact .inl ⟨rfl, fun s => List.not_mem_nil⟩
          · cases htrack : n.track (newSession a link) with
            | error e =>
              rw [htrack] at h
              cases h
            | ok result =>
              rw [htrack] at h
              cases h
              exact .inr ⟨a, link, result.2, ha, htrack, rfl⟩

/-! ### What a packet leads to -/

/-- Whether something was turned away: the node stays as it is, and nothing is left to be done. -/
def TurnedAway (n : Node) (handled : Handled) : Prop :=
  ∃ refusal, refusal ≠ .notProcessed ∧ handled = ⟨n, some refusal, []⟩

theorem TurnedAway.node_eq {n : Node} {handled : Handled} (h : n.TurnedAway handled) :
    handled.node = n := by
  obtain ⟨refusal, -, rfl⟩ := h
  rfl

theorem TurnedAway.refusal_ne {n : Node} {handled : Handled} (h : n.TurnedAway handled) :
    handled.refusal ≠ some .notProcessed := by
  obtain ⟨refusal, hrefusal, rfl⟩ := h
  exact fun hsome => hrefusal (Option.some.inj hsome)

/-- A control request that is not turned away can be read, is one of a peer that is sent routes, and
changes the sender of its session. -/
theorem handleControl_cases (n : Node) (s : SessionId) (session : Session) (data : Bytes) :
    n.TurnedAway (n.handleControl s session data) ∨
      ∃ request, session.account.sendsRoutes = true ∧ n.codec.decodeControl data = .ok request ∧
        n.handleControl s session data =
          ⟨n.modifySession s fun session =>
            { session with sender := session.sender.control n.outgoing request }, none,
            if request.mode = .sync then [.sendUpdate s] else []⟩ := by
  cases hsends : session.account.sendsRoutes with
  | false =>
    rw [handleControl, hsends]
    exact .inl ⟨.notSentRoutes, by rintro ⟨⟩, rfl⟩
  | true =>
    cases hdecode : n.codec.decodeControl data with
    | error e =>
      rw [handleControl, hsends, hdecode]
      exact .inl ⟨.badControl, by rintro ⟨⟩, rfl⟩
    | ok request =>
      rw [handleControl, hsends, hdecode]
      exact .inr ⟨request, rfl, rfl, rfl⟩

/-- An update that is not turned away can be read, and is one of a peer that may send some. -/
theorem handleUpdate_cases (n : Node) (now : Timestamp) (s : SessionId) (session : Session)
    (data : Bytes) :
    n.TurnedAway (n.handleUpdate now s session data) ∨
      session.account.receivesRoutes = true ∧ ∃ u, n.codec.decodeUpdate data = .ok u := by
  cases hreceives : session.account.receivesRoutes with
  | false =>
    rw [handleUpdate, hreceives]
    exact .inl ⟨.routesNotAccepted, by rintro ⟨⟩, rfl⟩
  | true =>
    cases hdecode : n.codec.decodeUpdate data with
    | error e =>
      rw [handleUpdate, hreceives, hdecode]
      exact .inl ⟨.badUpdate, by rintro ⟨⟩, rfl⟩
    | ok u => exact .inr ⟨rfl, u, rfl⟩

/-- A packet that is not turned away is one of a tracked account, with a control request or an
update for its session. -/
theorem handlePacket_cases (n : Node) (now : Timestamp) (account : AccountId) (packet : Prepare) :
    n.TurnedAway (n.handlePacket now account packet) ∨
      ∃ s session, n.trackedSession? account = some s ∧ n.session? s = some session ∧
        checkEnvelope packet now = .ok () ∧
        (packet.destination = controlDestination ∧
            n.handlePacket now account packet = n.handleControl s session packet.data ∨
          packet.destination = updateDestination ∧
            n.handlePacket now account packet = n.handleUpdate now s session packet.data) := by
  unfold handlePacket
  split
  · exact .inl ⟨_, by rintro ⟨⟩, rfl⟩
  · rename_i s hs
    split
    · exact .inl ⟨_, by rintro ⟨⟩, rfl⟩
    · rename_i session hsession
      split
      · exact .inl ⟨_, by rintro ⟨⟩, rfl⟩
      · rename_i hdestination
        split
        · exact .inl ⟨_, by rintro ⟨⟩, rfl⟩
        · rename_i henvelope
          refine .inr ⟨s, session, hs, hsession, henvelope, ?_⟩
          split
          · rename_i hcontrol
            exact .inl ⟨hcontrol, rfl⟩
          · rename_i hcontrol
            exact .inr ⟨Decidable.byContradiction fun hne => hdestination ⟨hcontrol, hne⟩, rfl⟩

theorem integrate_node (n : Node) (changed : List Prefix) :
    (n.integrate changed).node = (n.recomputeAll changed).1 := by
  unfold integrate
  split <;> rename_i h <;> rw [h]

/-- An update that can be read reaches the receiver, apart from the routes that are not let in. -/
theorem handleUpdate_node {n : Node} {session : Session} {data : Bytes} {u : UpdateRequest}
    (hreceives : session.account.receivesRoutes = true)
    (hdecode : n.codec.decodeUpdate data = .ok u) (now : Timestamp) (s : SessionId) :
    (n.handleUpdate now s session data).node =
      n.receive s session.receiver now (u.admitted n.settings) := by
  simp only [handleUpdate, hreceives, hdecode, Bool.not_true, Bool.false_eq_true, if_false, receive]
  -- A refused update leads to no other choice, just like a heartbeat and a stale one.
  split <;> rename_i houtcome <;> rw [houtcome]
  · rfl
  · rfl
  all_goals rw [integrate_node]; rfl

/-- A packet does nothing to a node, or a control request reaches the sender of its account's
session, or what is let in of an update reaches the receiver. -/
theorem handlePacket_node_cases (n : Node) (now : Timestamp) (account : AccountId)
    (packet : Prepare) :
    (n.handlePacket now account packet).node = n ∨
      ∃ s session, n.trackedSession? account = some s ∧ n.session? s = some session ∧
        checkEnvelope packet now = .ok () ∧
        (packet.destination = controlDestination ∧
            (∃ request, (n.handlePacket now account packet).node = n.modifySession s fun session =>
              { session with sender := session.sender.control n.outgoing request }) ∨
          packet.destination = updateDestination ∧ session.account.receivesRoutes = true ∧
            ∃ u, n.codec.decodeUpdate packet.data = .ok u ∧
              (n.handlePacket now account packet).node =
                n.receive s session.receiver now (u.admitted n.settings)) := by
  rcases handlePacket_cases n now account packet with
    haway | ⟨s, session, hs, hsession, henvelope, ⟨hcontrol, hhandled⟩ | ⟨hupdate, hhandled⟩⟩
  · exact .inl haway.node_eq
  · rw [hhandled]
    rcases handleControl_cases n s session packet.data with haway | ⟨request, -, -, hgranted⟩
    · exact .inl haway.node_eq
    · rw [hgranted]
      exact .inr ⟨s, session, hs, hsession, henvelope, .inl ⟨hcontrol, request, rfl⟩⟩
  · rw [hhandled]
    rcases handleUpdate_cases n now s session packet.data with haway | ⟨hreceives, u, hdecode⟩
    · exact .inl haway.node_eq
    · exact .inr ⟨s, session, hs, hsession, henvelope, .inr ⟨hupdate, hreceives, u, hdecode,
        handleUpdate_node hreceives hdecode now s⟩⟩

/-! ### Parts of moves -/

/-- Starting is a reload, after which at most subscriptions are added. -/
theorem start_aside (n : Node) : Aside n.reload.1 n.start.1 := by
  unfold start
  split
  · rename_i n' e hn'
    rw [hn']
    exact .refl n'
  · rename_i n' hn'
    rw [hn']
    exact registerAll_aside n' _

/-- Tasks that only send leave the node as it is. -/
theorem begin_requestRoutes (n : Node) (now : Timestamp) (clock : Nat) (s : SessionId) :
    (n.begin now clock (.requestRoutes s)).1 = n := by
  simp only [begin]
  split <;> rfl

theorem begin_sendUpdate (n : Node) (now : Timestamp) (clock : Nat) (s : SessionId) :
    (n.begin now clock (.sendUpdate s)).1 = n := by
  simp only [begin]
  split <;> rfl

/-- The control request of a receiver goes out as a packet. -/
theorem offer_receiver_eq_packet {r : Receiver} {codec : Codec} {settings : Settings}
    {now : Timestamp} {packet : Prepare} {upTo : Option Nat}
    (h : r.offer codec settings now = .packet packet upTo) :
    packet.destination = controlDestination ∧ upTo = none := by
  unfold Receiver.offer at h
  split at h
  · cases h
  · cases h
    exact ⟨rfl, rfl⟩

/-- The update of a sender goes out as a packet, unless the sender is quiet. -/
theorem offer_sender_eq_packet {s : Sender} {codec : Codec} {settings : Settings}
    {table : LoggedTable} {now : Timestamp} {packet : Prepare} {upTo : Option Nat}
    (h : s.offer codec settings table now = .packet packet upTo) :
    s.isQuiet = false ∧ packet.destination = updateDestination ∧
      codec.encodeUpdate (s.updateRequest settings table) = .ok packet.data ∧
      upTo = some table.epoch := by
  unfold Sender.offer at h
  split at h
  · cases h
  · rename_i hquiet
    dsimp only at h
    split at h
    · cases h
    · rename_i data hencode
      cases h
      exact ⟨eq_false_of_ne_true hquiet, rfl, hencode, rfl⟩

/-- A packet that goes out with a task is a control request, or the update of a sender. -/
theorem begin_eq_waiting {n : Node} {now : Timestamp} {clock : Nat} {task : Task} {o : Outbound}
    (h : (n.begin now clock task).2 = .waiting o) :
    ∃ session, n.session? o.session = some session ∧ o.link = session.link ∧
      (task = .requestRoutes o.session ∧ o.packet.destination = controlDestination ∧
          o.upTo = none ∨
        task = .sendUpdate o.session ∧ session.sender.isQuiet = false ∧
          o.packet.destination = updateDestination ∧
          n.codec.encodeUpdate (session.sender.updateRequest n.settings n.outgoing) =
            .ok o.packet.data ∧
          o.upTo = some n.outgoing.epoch) := by
  cases task with
  | requestRoutes s =>
    simp only [begin] at h
    split at h
    · cases h
    · rename_i session hsession
      cases hoffer : session.receiver.offer n.codec n.settings now with
      | answered reply =>
        rw [hoffer] at h
        cases h
      | packet packet upTo =>
        rw [hoffer] at h
        cases h
        exact ⟨session, hsession, rfl, .inl ⟨rfl, offer_receiver_eq_packet hoffer⟩⟩
  | sendUpdate s =>
    simp only [begin] at h
    split at h
    · cases h
    · rename_i session hsession
      cases hoffer : session.sender.offer n.codec n.settings n.outgoing now with
      | answered reply =>
        rw [hoffer] at h
        cases h
      | packet packet upTo =>
        rw [hoffer] at h
        cases h
        exact ⟨session, hsession, rfl, .inr ⟨rfl, offer_sender_eq_packet hoffer⟩⟩
  | finishConnect s => cases h
  | expire s => cases h

/-- The event at the head of the queue is taken off it and dealt with. -/
theorem move_nextEvent (n : Node) : ∃ n', Aside n n' ∧
    (n.move .nextEvent = n' ∨ ∃ event, n.move .nextEvent = (n'.handleEvent event).1) := by
  refine ⟨n.nextEvent.1, nextEvent_aside n, ?_⟩
  simp only [move]
  split
  · rename_i n' event hn'
    rw [hn']
    exact .inr ⟨event, rfl⟩
  · rename_i n' hn'
    rw [hn']
    exact .inl rfl

/-! ### Moves are made of steps -/

section

variable {intake : Intake}

theorem untrack_steps (n : Node) (account : AccountId) :
    StepsWith intake n (n.untrack account).1 := by
  cases hs : n.trackedSession? account with
  | none =>
    rw [untrack, hs]
    exact .refl n
  | some s =>
    obtain ⟨held, rest, hheld, huntrack⟩ := untrack_eq hs
    rw [huntrack]
    exact StepWith.steps ⟨held, _, .detach hs hheld, .all rest (List.Subset.refl held)⟩

theorem start_steps (n : Node) : StepsWith intake n n.start.1 :=
  (reload_steps n).trans (start_aside n).steps

/-- The last step of connecting is a reload, after which at most a loop is started. -/
theorem finishConnect_cases (n : Node) (clock : Nat) (s : SessionId) :
    n.finishConnect clock s = n.reload.1.startBroadcast clock s ∨
      n.finishConnect clock s = n.reload.1 := by
  unfold finishConnect
  split
  · rename_i n' e hn'
    exact .inr (congrArg Prod.fst hn').symm
  · rename_i n' hn'
    rw [hn']
    split
    · exact .inl rfl
    · exact .inr rfl

theorem finishConnect_steps (n : Node) (clock : Nat) (s : SessionId) :
    StepsWith intake n (n.finishConnect clock s) := by
  rcases finishConnect_cases n clock s with hstarted | hunstarted
  · rw [hstarted]
    exact (reload_steps n).trans (startBroadcast_sameRouting n.reload.1 clock s).steps
  · rw [hunstarted]
    exact reload_steps n

theorem begin_steps (n : Node) (now : Timestamp) (clock : Nat) (task : Task) :
    StepsWith intake n (n.begin now clock task).1 := by
  cases task with
  | requestRoutes s =>
    rw [begin_requestRoutes]
    exact .refl n
  | sendUpdate s =>
    rw [begin_sendUpdate]
    exact .refl n
  | finishConnect s => exact finishConnect_steps n clock s
  | expire s => exact expireSession_steps n s

/-- An answer changes the sender of the session that it is for, if it is for one. -/
theorem settle_node (n : Node) (o : Outbound) (answer : LinkAnswer) :
    (n.settle o answer).1 = n.modifySession o.session fun session =>
      { session with sender := (session.sender.settle o.operator o.upTo answer).1 } := by
  unfold settle
  split
  · rename_i hnone
    have hsame : n.modifySession o.session id = n := by
      rw [modifySession, List.modify_id]
    refine hsame.symm.trans (modifySession_congr fun session hsession => ?_)
    rw [hnone] at hsession
    cases hsession
  · rename_i session hsession
    refine modifySession_congr fun session' hsession' => ?_
    rw [hsession] at hsession'
    cases hsession'
    rfl

theorem settle_steps (n : Node) (o : Outbound) (answer : LinkAnswer) :
    StepsWith intake n (n.settle o answer).1 := by
  rw [settle_node]
  exact (Change.sender n o.session _).steps

theorem unregister_steps (n : Node) (account : AccountId) :
    StepsWith intake n (n.unregister account).1 :=
  (unsubscribe_aside n account).steps.trans (untrack_steps _ account)

theorem shutdown_steps (n : Node) : StepsWith intake n n.shutdown :=
  List.foldlRecOn _ _ (.refl n) fun n' h account _ => h.trans (unregister_steps n' account)

theorem handleEvent_steps (n : Node) (event : LinkEvent) :
    StepsWith intake n (n.handleEvent event).1 := by
  unfold handleEvent
  split
  · split
    · rename_i n' tasks hconnect
      rcases connect_eq_ok hconnect with ⟨rfl, -⟩ | ⟨a, link, s, ha, htrack, -⟩
      · exact .refl _
      · exact (Change.track ha htrack).steps
    · exact .refl n
  · exact untrack_steps n event.account
  · exact .refl n

/-- Whether all that a move may bring in may come in. -/
def Move.Brings (intake : Intake) (n : Node) : Move → Prop
  | .packet _ account prepare => ∀ s session u, n.trackedSession? account = some s →
      n.session? s = some session → prepare.destination = updateDestination →
      n.codec.decodeUpdate prepare.data = .ok u → intake.update n session u
  | .codec c => intake.codec c
  | _ => True

theorem handlePacket_steps {n : Node} {now : Timestamp} {account : AccountId} {packet : Prepare}
    (hbrings : (Move.packet now account packet).Brings intake n) :
    StepsWith intake n (n.handlePacket now account packet).node := by
  rcases handlePacket_node_cases n now account packet with
    hsame | ⟨s, session, hs, hsession, -, ⟨-, request, hnode⟩ | ⟨hupdate, -, u, hdecode, hnode⟩⟩
  · rw [hsame]
    exact .refl n
  · rw [hnode]
    exact (Change.sender n s _).steps
  · rw [hnode]
    exact receive_steps hsession (hbrings s session u hs hsession hupdate hdecode) now

/-- Whether a move is the node's own: settings, directory and filter stay, and nobody else opens or
uses sessions. -/
def Move.IsRoutine : Move → Prop
  | .filter _ | .configure _ | .direct _ | .track _ | .useSession _ _ => False
  | _ => True

theorem move_stepsWith {n : Node} {m : Move} (hm : m.IsRoutine) (hbrings : m.Brings intake n) :
    StepsWith intake n (n.move m) := by
  cases m with
  | start => exact start_steps n
  | shutdown => exact shutdown_steps n
  | register account => exact (register_aside n account).steps
  | unregister account => exact unregister_steps n account
  | reload => exact reload_steps n
  | updatePrefix p =>
    show StepsWith intake n ((n.recompute p).toOption.getD n)
    cases hp : n.recompute p with
    | error e => exact .refl n
    | ok n' => exact recompute_steps hp
  | listen => exact (listen_aside n).steps
  | nextEvent =>
    obtain ⟨n', hpop, hnext | ⟨event, hnext⟩⟩ := move_nextEvent n
    · rw [hnext]
      exact hpop.steps
    · rw [hnext]
      exact hpop.steps.trans (handleEvent_steps n' event)
  | event event => exact handleEvent_steps n event
  | emit link event => exact (emit_aside n link event).steps
  | setConnected link connected => exact Aside.steps rfl
  | packet now account packet => exact handlePacket_steps hbrings
  | begin now clock task => exact begin_steps n now clock task
  | settle outbound answer => exact settle_steps n outbound answer
  | setDeadline loop deadline =>
    exact SameRouting.steps ⟨rfl, rfl, rfl, rfl, rfl, rfl, rfl, rfl, rfl, rfl⟩
  | codec codec => exact (Change.codec hbrings).steps
  | addLink link => exact Aside.steps rfl
  | filter filter => exact hm.elim
  | configure settings => exact hm.elim
  | direct directory => exact hm.elim
  | track session => exact hm.elim
  | useSession s use => exact hm.elim

end

theorem move_steps (n : Node) {m : Move} (hm : m.IsRoutine) : Steps n (n.move m) := by
  refine move_stepsWith hm ?_
  cases m <;> simp only [Move.Brings, Intake.any, implies_true]

theorem run_steps {n : Node} {moves : List Move} (hmoves : ∀ m ∈ moves, m.IsRoutine) :
    Steps n (n.run moves) :=
  run_induction (fun n' m hm h => h.trans (move_steps n' (hmoves m hm))) (.refl n)

/-- Only a change of the codec changes the codec. -/
theorem move_codec (n : Node) {m : Move} (hm : m.IsRoutine) (hcodec : ∀ codec, m ≠ .codec codec) :
    (n.move m).codec = n.codec := by
  have hbrings : m.Brings ⟨fun _ _ _ => True, fun _ => False⟩ n := by
    cases m with
    | codec codec => exact hcodec codec rfl
    | _ => simp only [Move.Brings, implies_true]
  exact (move_stepsWith hm hbrings).codec_cases.resolve_right id

/-! ### A small node -/

/-- Results of computations that may fail are compared as options, where equality is decidable. -/
theorem eq_ok_of_toOption {ε α : Type} {x : Except ε α} {a : α} (h : x.toOption = some a) :
    x = .ok a := by
  cases x with
  | error e => cases h
  | ok b =>
    cases h
    rfl

/-- The only account of the small node. -/
def smallPeer : Account where
  id := ⟨"peer".toList, by decide⟩
  relationship := .peer

/-- The prefix that the small node has a static route for. -/
def smallTarget : Prefix :=
  ⟨"g.far".toList, by decide⟩

/-- Everything that the small node knows no route for goes to its peer as well. -/
def smallSettings : Settings where
  operator := ⟨"g.near".toList, by decide⟩
  routingSecret := .replicate 7
  defaultRoute := some smallPeer.id
  staticRoutes := [⟨smallTarget, smallPeer.id⟩]

/-- The peer's link is the only one. -/
def smallDirectory : Directory where
  accounts := [smallPeer]
  links := [(smallPeer.id, ⟨0⟩)]

/-- A node with one peer, whose link is up. -/
def small : Node :=
  fresh smallSettings smallDirectory .json none ⟨List.replicate 16 1, by decide⟩
    [{ account := smallPeer.id }]

/-- Another peer. -/
def friend : Account where
  id := ⟨"friend".toList, by decide⟩
  relationship := .peer

/-- Both peers have a link. -/
def twoPeers : Directory where
  accounts := [smallPeer, friend]
  links := [(smallPeer.id, ⟨0⟩), (friend.id, ⟨1⟩)]

end Node

end RouteSync
