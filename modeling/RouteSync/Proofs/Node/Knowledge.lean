import RouteSync.Proofs.Difference
import RouteSync.Proofs.Node.Outgoing
import RouteSync.Proofs.Node.Senders

/-!
# What peers are taken to know

A sender takes its peer to know the table up to some epoch.  That epoch comes from the peer itself,
which may ask for any, or from the answer to an update, which may come long after the update went
out and after the peer has asked for something else.  Still no sender ever takes its peer to know
more than the present table (`Informs.run`).  A request counts only up to the present epoch, and
packets tell the table up to the epoch that it had when they went out (`epoch_of_issued`).

So whatever happened before, the next update of a sender leads from what the peer is taken to know,
or from the empty table, to the present one, and is the difference between them
(`isDifference_of_run`).
-/

namespace RouteSync

/-! ### Senders -/

/-- Nobody is taken to know more than the present epoch because of a request. -/
theorem Sender.lastKnownEpoch_control_le {s : Sender} {table : LoggedTable} {e : Nat}
    (hs : s.lastKnownEpoch ≤ e) (htable : table.epoch ≤ e) (r : ControlRequest) :
    (s.control table r).lastKnownEpoch ≤ e := by
  unfold control
  split
  · exact hs
  · dsimp only
    split <;> omega

theorem Sender.lastKnownEpoch_settle_le {s : Sender} {upTo : Option Nat} {e : Nat}
    (hs : s.lastKnownEpoch ≤ e) (hupTo : ∀ k, upTo = some k → k ≤ e) (operator : Address)
    (answer : LinkAnswer) : (s.settle operator upTo answer).1.lastKnownEpoch ≤ e := by
  cases answer with
  | error error => exact hs
  | ok fulfill =>
    cases upTo with
    | none => exact hs
    | some k => exact hupTo k rfl

namespace Node

/-! ### Packets and answers -/

/-- The packet that goes out with a move, as it waits for its answer. -/
def issued? (n : Node) : Move → Option Outbound
  | .begin now clock task =>
    match (n.begin now clock task).2 with
    | .waiting o => some o
    | .done _ => none
  | _ => none

/-- Whether all answers are to packets that were sent before, in the run or earlier. -/
def AnswersSent : (Outbound → Prop) → Node → List Move → Prop
  | _, _, [] => True
  | sent, n, m :: moves =>
    (∀ o answer, m = .settle o answer → sent o) ∧
      AnswersSent (fun o => sent o ∨ n.issued? m = some o) (n.move m) moves

/-- Whether nobody else tells a sender what its peer knows, other than by a request to it. -/
def Move.KeepsSenders (n : Node) : Move → Prop
  | .track session => session.sender.lastKnownEpoch = 0
  | .useSession s use => ∀ session, n.session? s = some session →
      (use session).sender.lastKnownEpoch = session.sender.lastKnownEpoch ∨
        ∃ request, (use session).sender = session.sender.control n.outgoing request
  | _ => True

variable {n n' : Node} {e : Nat} {m : Move} {sent : Outbound → Prop}

/-- Every packet tells the table up to its present epoch, if it tells anything. -/
theorem epoch_of_issued {o : Outbound} (h : n.issued? m = some o) {k : Nat}
    (hk : o.upTo = some k) : k = n.outgoing.epoch := by
  cases m with
  | begin now clock task =>
    simp only [issued?] at h
    split at h
    · rename_i o' hwaiting
      cases h
      obtain ⟨session, -, -, ⟨-, -, hnone⟩ | ⟨-, -, -, -, hsome⟩⟩ := begin_eq_waiting hwaiting
      · rw [hk] at hnone
        cases hnone
      · rw [hk] at hsome
        exact Option.some.inj hsome
    · cases h
  | _ => cases h

/-! ### Epochs that senders take for known -/

/-- No sender takes its peer to know more than the table up to an epoch. -/
def KnownUpTo (e : Nat) (n : Node) : Prop :=
  ∀ s session, n.session? s = some session → session.sender.lastKnownEpoch ≤ e

theorem KnownUpTo.congr (h : n.KnownUpTo e) (hsender : ∀ s, n'.sender? s = n.sender? s) :
    n'.KnownUpTo e := by
  intro s session' hsession'
  have hsame := hsender s
  rw [sender?_eq_some hsession'] at hsame
  obtain ⟨session, hsession, heq⟩ := Option.map_eq_some_iff.1 hsame.symm
  rw [← (Prod.mk.inj heq).2]
  exact h s session hsession

theorem KnownUpTo.modifySession (h : n.KnownUpTo e) {s : SessionId} {f : Session → Session}
    (hf : ∀ session, n.session? s = some session → (f session).sender.lastKnownEpoch ≤ e) :
    (n.modifySession s f).KnownUpTo e := by
  intro t session' hsession'
  rcases session?_modifySession_cases hsession' with ⟨session, -, hsession, rfl⟩ | hsame
  · exact hf session hsession
  · exact h t session' hsame

theorem KnownUpTo.track (h : n.KnownUpTo e) {session : Session} {s : SessionId}
    (htrack : n.track session = .ok (n', s)) (hnew : session.sender.lastKnownEpoch = 0) :
    n'.KnownUpTo e := by
  intro t session' hsession'
  rw [session?_track htrack] at hsession'
  split at hsession'
  · cases hsession'
    omega
  · exact h t session' hsession'

theorem KnownUpTo.turnovers {directory : Directory} (h : n.KnownUpTo e)
    (hturnovers : Turnovers directory n n') : n'.KnownUpTo e := by
  refine hturnovers.induction (fun n₁ n₂ hstep hn => ?_) h
  cases hstep with
  | same hsame => exact hn.congr hsame.sender?
  | track _ htrack => exact hn.track htrack rfl
  | @detach account s hs =>
    exact KnownUpTo.modifySession (n := { n₁ with tracked := n₁.tracked.filter (·.1 != account) })
      hn fun session hsession => hn s session hsession

theorem KnownUpTo.handlePacket (h : n.KnownUpTo e) (he : n.outgoing.epoch ≤ e) (now : Timestamp)
    (account : AccountId) (packet : Prepare) :
    (n.handlePacket now account packet).node.KnownUpTo e := by
  rcases handlePacket_node_cases n now account packet with
    hsame | ⟨s, session, -, -, -, ⟨-, request, hnode⟩ | ⟨-, -, u, -, hnode⟩⟩
  · rw [hsame]
    exact h
  · rw [hnode]
    exact h.modifySession fun session' hsession' =>
      Sender.lastKnownEpoch_control_le (h s session' hsession') he request
  · rw [hnode]
    exact h.congr (receive_sameSenders ..).sender?

theorem KnownUpTo.settle (h : n.KnownUpTo e) {o : Outbound}
    (ho : ∀ k, o.upTo = some k → k ≤ e) (answer : LinkAnswer) :
    (n.settle o answer).1.KnownUpTo e := by
  rw [settle_node]
  exact h.modifySession fun session hsession =>
    Sender.lastKnownEpoch_settle_le (h o.session session hsession) ho o.operator answer

/-- Moves make nobody know more than the present table and the packets tell. -/
theorem KnownUpTo.move (h : n.KnownUpTo e) (he : n.outgoing.epoch ≤ e) (hm : m.KeepsSenders n)
    (hanswers : ∀ o answer, m = .settle o answer → ∀ k, o.upTo = some k → k ≤ e) :
    (n.move m).KnownUpTo e := by
  cases m with
  | packet now account packet => exact h.handlePacket he now account packet
  | begin now clock task =>
    cases task with
    | finishConnect s => exact h.congr (finishConnect_sender? n clock s).2
    | _ => exact h.turnovers (move_turnovers n trivial)
  | settle o answer => exact h.settle (hanswers o answer rfl) answer
  | setDeadline loop deadline => exact h.congr fun _ => rfl
  | track session =>
    show (((n.track session).map Prod.fst).toOption.getD n).KnownUpTo e
    cases htrack : n.track session with
    | error error => exact h
    | ok result => exact h.track htrack hm
  | useSession s use =>
    refine h.modifySession fun session hsession => ?_
    rcases hm session hsession with hsame | ⟨request, hcontrol⟩
    · rw [hsame]
      exact h s session hsession
    · rw [hcontrol]
      exact Sender.lastKnownEpoch_control_le (h s session hsession) he request
  | _ => exact h.turnovers (move_turnovers n trivial)

/-! ### Runs -/

/-- No sender takes its peer to know more than the present table, and no packet that was sent tells
more. -/
structure Informs (sent : Outbound → Prop) (n : Node) : Prop where
  known : n.KnownUpTo n.outgoing.epoch
  told : ∀ o, sent o → ∀ k, o.upTo = some k → k ≤ n.outgoing.epoch

theorem informs_fresh (settings : Settings) (directory : Directory) (codec : Codec)
    (filter : Option (Prefix → Route → Bool)) (id : TableId) (links : List Link) :
    (fresh settings directory codec filter id links).Informs fun _ => False where
  known _ _ h := by cases h
  told _ h := h.elim

theorem Informs.move (h : n.Informs sent) (hm : m.KeepsSenders n)
    (hanswers : ∀ o answer, m = .settle o answer → sent o) :
    (n.move m).Informs fun o => sent o ∨ n.issued? m = some o := by
  have hgrows : n.outgoing.epoch ≤ (n.move m).outgoing.epoch := (move_outgoing_follows n m).epoch_le
  refine ⟨fun s session hsession => ?_, fun o ho k hk => ?_⟩
  · have hknown := h.known.move (Nat.le_refl _) hm fun o answer hsettle =>
      h.told o (hanswers o answer hsettle)
    exact Nat.le_trans (hknown s session hsession) hgrows
  · rcases ho with hearlier | hnow
    · exact Nat.le_trans (h.told o hearlier k hk) hgrows
    · rw [epoch_of_issued hnow hk]
      exact hgrows

theorem Informs.run {moves : List Move} (h : n.Informs sent)
    (hmoves : Along (fun n m => m.KeepsSenders n) n moves) (hanswers : AnswersSent sent n moves) :
    (n.run moves).KnownUpTo (n.run moves).outgoing.epoch := by
  induction moves generalizing n sent with
  | nil => exact h.known
  | cons m moves ih => exact ih (h.move hmoves.1 hanswers.1) hmoves.2 hanswers.2

/-- After every run in which only packets are answered that were sent before, no sender takes its
peer to know more than the present table.  The next update of a sender is the difference from what
its peer is taken to know, or from the empty table if the log does not reach back so far. -/
theorem isDifference_of_run {settings : Settings} {directory : Directory} {codec : Codec}
    {filter : Option (Prefix → Route → Bool)} {id : TableId} {links : List Link}
    {moves : List Move} {s : SessionId} {session : Session}
    (hmoves : Along (fun n m => m.KeepsSenders n)
      (fresh settings directory codec filter id links) moves)
    (hanswers : AnswersSent (fun _ => False) (fresh settings directory codec filter id links) moves)
    (hsession : ((fresh settings directory codec filter id links).run moves).session? s =
      some session) :
    let n := (fresh settings directory codec filter id links).run moves
    let known := session.sender.lastKnownEpoch
    let u := session.sender.updateRequest n.settings n.outgoing
    known ≤ n.outgoing.epoch ∧ IsDifference n.outgoing u ∧
      u.fromEpoch = if n.outgoing.log.first ≤ known + 1 then known else 0 := by
  intro n known u
  have hknown : known ≤ n.outgoing.epoch :=
    (informs_fresh ..).run hmoves hanswers s session hsession
  have hkept : n.outgoing.WellKept :=
    run_induction (motive := fun n => n.outgoing.WellKept)
      (fun n m _ h => move_outgoing_induction
        (fun policy routes p _ ht => ht.refresh policy routes p) h m) (LoggedTable.wellKept_empty id)
  exact ⟨hknown, hkept.isDifference session.sender n.settings, Sender.fst_pending hknown⟩

/-- The peer of the small node connects and asks for the routes. -/
def asking : List Move :=
  [.reload, .event ⟨smallPeer.id, .connected⟩,
    .packet .origin smallPeer.id (messagePacket controlDestination
      (ControlRequest.toTree ⟨.sync, none, 0, []⟩).write .origin)]

theorem isSome_firstUpdate :
    ((small.run asking).issued? (.begin .origin 0 (.sendUpdate ⟨0⟩))).isSome = true := by
  decide +kernel

/-- The update that goes out then. -/
def firstUpdate : Outbound :=
  ((small.run asking).issued? (.begin .origin 0 (.sendUpdate ⟨0⟩))).get isSome_firstUpdate

/-- Once the peer has accepted an update, there is nothing more to tell it. -/
theorem isDifference_of_accepted :
    let moves := asking ++ [.begin .origin 0 (.sendUpdate ⟨0⟩), .settle firstUpdate (.ok accepted)]
    let n := small.run moves
    Along (fun n m => m.KeepsSenders n) small moves ∧ AnswersSent (fun _ => False) small moves ∧
      ∃ session, n.session? ⟨0⟩ = some session ∧ session.sender.lastKnownEpoch = 2 ∧
        IsDifference n.outgoing (session.sender.updateRequest n.settings n.outgoing) ∧
        (session.sender.updateRequest n.settings n.outgoing).isHeartbeat = true := by
  intro moves n
  have hmoves : Along (fun n m => m.KeepsSenders n) small moves :=
    ⟨trivial, trivial, trivial, trivial, trivial, trivial⟩
  have hanswers : AnswersSent (fun _ => False) small moves := by
    refine ⟨nofun, nofun, nofun, nofun, fun o answer h => ?_, trivial⟩
    cases h
    exact .inr (Option.some_get _).symm
  have hsome : ((n.session? ⟨0⟩).map (·.sender.lastKnownEpoch)) = some 2 := by decide +kernel
  obtain ⟨session, hsession, hknown⟩ := Option.map_eq_some_iff.1 hsome
  have hdifference := @isDifference_of_run smallSettings smallDirectory .json none
    ⟨List.replicate 16 1, by decide⟩ [{ account := smallPeer.id }] moves ⟨0⟩ session hmoves hanswers
    hsession
  have hepoch : n.outgoing.epoch = 2 := by decide +kernel
  have hfirst : n.outgoing.log.first = 1 := by decide +kernel
  refine ⟨hmoves, hanswers, session, hsession, hknown, hdifference.2.1,
    hdifference.2.1.isHeartbeat_iff.2 (hdifference.2.2.trans ?_)⟩
  show (if n.outgoing.log.first ≤ session.sender.lastKnownEpoch + 1 then
    session.sender.lastKnownEpoch else 0) = n.outgoing.epoch
  rw [hknown, hepoch, hfirst]
  rfl

end Node

end RouteSync
