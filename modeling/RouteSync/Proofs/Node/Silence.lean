import Mathlib.Data.List.Induction
import RouteSync.Proofs.Node.Knowledge
import RouteSync.Proofs.Node.Senders

/-!
# Who is told nothing

An update goes out to a peer because the peer has just asked for routes, or because a loop has come
round.  Between the decision to send and the sending anything may happen: the peer may ask to be
left alone, its account may be disconnected, and it may come back with another session.  Whoever
sends in the end looks at the sender as it is by then.

So updates go out only for peers that want them (`asked_for_of_issued_update`).  The mode of a
sender is that of the last request that was accepted since the sender was made (`lastGranted?`), and
a sender that broadcasts is that of the open session of an account that is sent routes (`Heeds`).  A
sender that was stopped stays so (`Continues`).
-/

namespace RouteSync

namespace Node

/-! ### Requests that are accepted -/

/-- What a control request asks the sender of a session for, if the request is accepted. -/
def granted? (n : Node) (s : SessionId) : Move → Option Mode
  | .packet now account packet =>
    if packet.destination = controlDestination ∧ n.trackedSession? account = some s ∧
        (n.handlePrepare now account packet).2.1.toOption.isSome = true then
      (n.codec.decodeControl packet.data).toOption.map (·.mode)
    else none
  | _ => none

/-- What the last control request asked the sender of a session for, of those that were accepted in
a run. -/
def lastGranted? (s : SessionId) : Node → List Move → Option Mode
  | _, [] => none
  | n, m :: moves => (lastGranted? s (n.move m) moves).or (n.granted? s m)

theorem lastGranted?_concat (s : SessionId) (n : Node) (moves : List Move) (m : Move) :
    lastGranted? s n (moves ++ [m]) =
      ((n.run moves).granted? s m).or (lastGranted? s n moves) := by
  induction moves generalizing n with
  | nil => simp [lastGranted?, run]
  | cons m' moves ih =>
    rw [List.cons_append, lastGranted?, ih, lastGranted?, Option.or_assoc]
    rfl

theorem granted?_eq_none_of_turnedAway {n : Node} {now : Timestamp} {account : AccountId}
    {packet : Prepare} (h : n.TurnedAway (n.handlePacket now account packet)) (s : SessionId) :
    n.granted? s (.packet now account packet) = none := by
  obtain ⟨refusal, -, hhandled⟩ := h
  have hreply : (n.handlePrepare now account packet).2.1.toOption.isSome = false := by
    rw [handlePrepare, hhandled]
    rfl
  rw [granted?, if_neg]
  rintro ⟨-, -, hsome⟩
  rw [hreply] at hsome
  cases hsome

/-- A packet changes no sender, or it is a control request that is accepted and changes the sender
of its account's session. -/
theorem handlePacket_granted? (n : Node) (now : Timestamp) (account : AccountId)
    (packet : Prepare) :
    (SameSenders n (n.handlePacket now account packet).node ∧
        ∀ s, n.granted? s (.packet now account packet) = none) ∨
      ∃ s request, (n.handlePacket now account packet).node = n.modifySession s (fun session =>
          { session with sender := session.sender.control n.outgoing request }) ∧
        n.session? s ≠ none ∧
        ∀ t, n.granted? t (.packet now account packet) =
          if t = s then some request.mode else none := by
  rcases handlePacket_cases n now account packet with
    haway | ⟨s, session, hs, hsession, henvelope, ⟨hcontrol, hhandled⟩ | ⟨hupdate, hhandled⟩⟩
  · rw [haway.node_eq]
    exact .inl ⟨.refl n, granted?_eq_none_of_turnedAway haway⟩
  · rcases handleControl_cases n s session packet.data with
      haway | ⟨request, -, hdecode, hgranted⟩
    · rw [← hhandled] at haway
      rw [haway.node_eq]
      exact .inl ⟨.refl n, granted?_eq_none_of_turnedAway haway⟩
    · refine .inr ⟨s, request, ?_, ?_, fun t => ?_⟩
      · rw [hhandled, hgranted]
      · rw [hsession]
        exact nofun
      · have hreply : (n.handlePrepare now account packet).2.1.toOption.isSome = true := by
          rw [handlePrepare, hhandled, hgranted]
          rfl
        rw [granted?, hs, hdecode]
        by_cases hts : t = s
        · rw [if_pos hts, if_pos ⟨hcontrol, congrArg some hts.symm, hreply⟩]
          rfl
        · rw [if_neg hts, if_neg]
          rintro ⟨-, hst, -⟩
          exact hts (Option.some.inj hst).symm
  · refine .inl ⟨?_, fun t => ?_⟩
    · rw [hhandled]
      exact handleUpdate_sameSenders n now s session packet.data
    · rw [granted?, if_neg]
      rintro ⟨hcontrol, -, -⟩
      exact absurd (hupdate.symm.trans hcontrol) (by decide)

/-! ### Senders and the requests to them -/

/-- Whether nobody else opens a session or uses one. -/
def Move.IsUnaided : Move → Prop
  | .track _ | .useSession _ _ => False
  | _ => True

/-- Senders do as they were asked by the last request that they got, and only those broadcast that
belong to open sessions of accounts that are sent routes. -/
structure Heeds (last : SessionId → Option Mode) (n : Node) : Prop where
  mode_eq : ∀ s a sender, n.sender? s = some (a, sender) → sender.mode = (last s).getD .idle
  unasked : ∀ s, n.sender? s = none → last s = none
  active : ∀ s a sender, n.sender? s = some (a, sender) → sender.broadcasting = true →
    a.sendsRoutes = true ∧ n.trackedSession? a.id = some s
  owner : ∀ a s, n.trackedSession? a = some s →
    ∃ account sender, n.sender? s = some (account, sender) ∧ account.id = a

section

variable {last : SessionId → Option Mode} {directory : Directory} {n n' : Node}

theorem heeds_fresh (settings : Settings) (directory : Directory) (codec : Codec)
    (filter : Option (Prefix → Route → Bool)) (id : TableId) (links : List Link) :
    (fresh settings directory codec filter id links).Heeds fun _ => none where
  mode_eq _ _ _ h := by cases h
  unasked _ _ := rfl
  active _ _ _ h := by cases h
  owner _ _ h := by cases h

theorem Heeds.congr (h : n.Heeds last) (htracked : n'.tracked = n.tracked)
    (hsender : ∀ s, n'.sender? s = n.sender? s) : n'.Heeds last where
  mode_eq s a sender := by
    rw [hsender]
    exact h.mode_eq s a sender
  unasked s := by
    rw [hsender]
    exact h.unasked s
  active s a sender := by
    rw [hsender, trackedSession?, htracked]
    exact h.active s a sender
  owner a s := by
    rw [hsender, trackedSession?, htracked]
    exact h.owner a s

/-- A new sender was asked for nothing yet. -/
theorem Heeds.track (h : n.Heeds last) {account : Account} {link : LinkId} {s : SessionId}
    (htrack : n.track (newSession account link) = .ok (n', s)) : n'.Heeds last := by
  have hunused : n.sender? s = none := sender?_eq_none_iff.2 (session?_eq_none_of_track htrack)
  have hnone : n.trackedSession? account.id = none := (track_eq_ok htrack).1
  have hsender := sender?_track htrack
  have htracked := trackedSession?_track htrack
  refine ⟨fun t a sender ht => ?_, fun t ht => ?_, fun t a sender ht hbroadcasting => ?_,
    fun a t ht => ?_⟩
  · rw [hsender] at ht
    split at ht
    · rename_i hts
      cases ht
      rw [hts, h.unasked s hunused]
      rfl
    · exact h.mode_eq t a sender ht
  · rw [hsender] at ht
    split at ht
    · cases ht
    · exact h.unasked t ht
  · rw [hsender] at ht
    rw [htracked]
    split at ht
    · rename_i hts
      cases ht
      exact ⟨hbroadcasting, hts ▸ if_pos rfl⟩
    · obtain ⟨hsends, ha⟩ := h.active t a sender ht hbroadcasting
      refine ⟨hsends, ?_⟩
      rw [if_neg ?_, ha]
      intro haccount
      rw [show a.id = account.id from haccount, hnone] at ha
      cases ha
  · rw [htracked] at ht
    rw [hsender]
    split at ht
    · rename_i ha
      cases ht
      exact ⟨account, _, if_pos rfl, ha.symm⟩
    · obtain ⟨account', sender, hsender', ha⟩ := h.owner a t ht
      refine ⟨account', sender, ?_, ha⟩
      rw [if_neg ?_, hsender']
      rintro rfl
      rw [hunused] at hsender'
      cases hsender'

/-- The sender of a session that is closed broadcasts no more. -/
theorem Heeds.detach (h : n.Heeds last) {account : AccountId} {s : SessionId}
    (hs : n.trackedSession? account = some s) : (n.detach account s).Heeds last := by
  have hsender := sender?_detach n account s
  have htracked := trackedSession?_detach n account s
  refine ⟨fun t a sender ht => ?_, fun t ht => ?_, fun t a sender ht hbroadcasting => ?_,
    fun a t ht => ?_⟩
  · rw [hsender] at ht
    split at ht
    · obtain ⟨⟨a', sender'⟩, ht', hstopped⟩ := Option.map_eq_some_iff.1 ht
      cases hstopped
      exact h.mode_eq t a' sender' ht'
    · exact h.mode_eq t a sender ht
  · rw [hsender] at ht
    split at ht
    · exact h.unasked t (Option.map_eq_none_iff.1 ht)
    · exact h.unasked t ht
  · rw [hsender] at ht
    split at ht
    · obtain ⟨⟨a', sender'⟩, -, hstopped⟩ := Option.map_eq_some_iff.1 ht
      cases hstopped
      cases hbroadcasting
    · rename_i hts
      obtain ⟨hsends, ha⟩ := h.active t a sender ht hbroadcasting
      refine ⟨hsends, ?_⟩
      rw [htracked, if_neg ?_, ha]
      intro haccount
      rw [haccount, hs] at ha
      exact hts (Option.some.inj ha).symm
  · rw [htracked] at ht
    split at ht
    · cases ht
    · obtain ⟨account', sender, hsender', ha⟩ := h.owner a t ht
      rw [hsender, hsender']
      split
      · exact ⟨account', sender.stop, rfl, ha⟩
      · exact ⟨account', sender, rfl, ha⟩

theorem Heeds.turnovers (h : n.Heeds last) (hturnovers : Turnovers directory n n') :
    n'.Heeds last := by
  refine hturnovers.induction (fun n₁ n₂ hstep hn => ?_) h
  cases hstep with
  | same hsame => exact hn.congr hsame.tracked hsame.sender?
  | track _ htrack => exact hn.track htrack
  | detach hs => exact hn.detach hs

/-- A sender changes its mode as it is asked to, and nothing else about a session changes. -/
theorem Heeds.modifySession (h : n.Heeds last) {s : SessionId} {change : Session → Sender}
    {last' : SessionId → Option Mode} (hclosed : n.session? s = none → last' s = last s)
    (hchange : ∀ session, n.session? s = some session →
      (change session).mode = (last' s).getD .idle ∧
        (change session).broadcasting = session.sender.broadcasting)
    (hlast : ∀ t, t ≠ s → last' t = last t) :
    (n.modifySession s fun session => { session with sender := change session }).Heeds last' := by
  have hsender := sender?_modifySession n s change
  refine ⟨fun t a sender ht => ?_, fun t ht => ?_, fun t a sender ht hactive => ?_,
    fun a t ht => ?_⟩
  · rw [hsender] at ht
    split at ht
    · rename_i hts
      obtain ⟨session, hsession, heq⟩ := Option.map_eq_some_iff.1 ht
      cases heq
      exact hts ▸ (hchange session hsession).1
    · rename_i hts
      rw [hlast t hts]
      exact h.mode_eq t a sender ht
  · rw [hsender] at ht
    split at ht
    · rename_i hts
      have hnone : n.session? s = none := Option.map_eq_none_iff.1 ht
      rw [hts, hclosed hnone]
      exact h.unasked s (sender?_eq_none_iff.2 hnone)
    · rename_i hts
      rw [hlast t hts]
      exact h.unasked t ht
  · rw [hsender] at ht
    split at ht
    · rename_i hts
      obtain ⟨session, hsession, heq⟩ := Option.map_eq_some_iff.1 ht
      cases heq
      exact h.active t _ session.sender (hts ▸ sender?_eq_some hsession)
        ((hchange session hsession).2.symm.trans hactive)
    · exact h.active t a sender ht hactive
  · obtain ⟨account, sender, ht', ha⟩ := h.owner a t ht
    rw [hsender]
    split
    · rename_i hts
      obtain ⟨session, hsession, heq⟩ := Option.map_eq_some_iff.1 (hts ▸ ht')
      cases heq
      rw [hsession]
      exact ⟨_, _, rfl, ha⟩
    · exact ⟨account, sender, ht', ha⟩

theorem Heeds.handlePacket (h : n.Heeds last) (now : Timestamp) (account : AccountId)
    (packet : Prepare) : (n.handlePacket now account packet).node.Heeds fun s =>
      (n.granted? s (.packet now account packet)).or (last s) := by
  rcases handlePacket_granted? n now account packet with
    ⟨hsame, hnone⟩ | ⟨s, request, hnode, hopen, hgranted⟩
  · simp only [hnone, Option.none_or]
    exact h.congr hsame.tracked hsame.sender?
  · rw [hnode]
    simp only [hgranted]
    refine h.modifySession (fun hnone => absurd hnone hopen) (fun session _ => ⟨?_, ?_⟩)
      fun t ht => ?_
    · rw [if_pos rfl]
      exact Sender.mode_control ..
    · exact Sender.broadcasting_control ..
    · rw [if_neg ht]
      exact Option.none_or

theorem Heeds.settle (h : n.Heeds last) (o : Outbound) (answer : LinkAnswer) :
    (n.settle o answer).1.Heeds last := by
  rw [settle_node]
  refine h.modifySession (fun _ => rfl)
    (fun session hsession => ⟨?_, Sender.broadcasting_settle ..⟩) fun _ _ => rfl
  exact (Sender.mode_settle ..).trans (h.mode_eq _ _ _ (sender?_eq_some hsession))

/-- What a request asks for counts from then on. -/
theorem Heeds.move (h : n.Heeds last) {m : Move} (hm : m.IsUnaided) :
    (n.move m).Heeds fun s => (n.granted? s m).or (last s) := by
  cases m with
  | packet now account packet => exact h.handlePacket now account packet
  | settle outbound answer => exact h.settle outbound answer
  | setDeadline loop deadline => exact h.congr rfl fun _ => rfl
  | track session => exact hm.elim
  | useSession s use => exact hm.elim
  | begin now clock task =>
    cases task with
    | finishConnect s =>
      obtain ⟨htracked, hsender⟩ := finishConnect_sender? n clock s
      exact h.congr htracked hsender
    | _ => exact h.turnovers (move_turnovers n trivial)
  | _ => exact h.turnovers (move_turnovers n trivial)

end

theorem heeds_of_run {settings : Settings} {directory : Directory} {codec : Codec}
    {filter : Option (Prefix → Route → Bool)} {id : TableId} {links : List Link}
    {moves : List Move} (hmoves : ∀ m ∈ moves, m.IsUnaided) :
    ((fresh settings directory codec filter id links).run moves).Heeds fun s =>
      lastGranted? s (fresh settings directory codec filter id links) moves := by
  induction moves using List.reverseRecOn with
  | nil => exact heeds_fresh settings directory codec filter id links
  | append_singleton moves m ih =>
    have hn := ih fun m' hm' => hmoves m' (List.mem_append_left _ hm')
    simp only [run_concat, lastGranted?_concat]
    exact hn.move (hmoves m (List.mem_append_right _ (List.mem_singleton_self m)))

/-! ### Sessions over time -/

/-- Sessions keep their accounts, those that are new have an account of the directory, and a sender
that was stopped stays so. -/
structure Continues (directory : Directory) (n n' : Node) : Prop where
  kept : ∀ s a sender, n.sender? s = some (a, sender) →
    ∃ sender', n'.sender? s = some (a, sender') ∧
      (sender.broadcasting = false → sender'.broadcasting = false)
  opened : ∀ s a sender, n'.sender? s = some (a, sender) → n.sender? s = none →
    directory.account? a.id = some a

section

variable {directory : Directory} {n n' n'' : Node}

theorem Continues.of_same (hsender : ∀ s, n'.sender? s = n.sender? s) :
    Continues directory n n' where
  kept s a sender h := ⟨sender, (hsender s).trans h, id⟩
  opened s a sender h hnone := by
    rw [hsender, hnone] at h
    cases h

theorem Continues.trans (h : Continues directory n n') (h' : Continues directory n' n'') :
    Continues directory n n'' where
  kept s a sender hs := by
    obtain ⟨sender', hs', hstopped⟩ := h.kept s a sender hs
    obtain ⟨sender'', hs'', hstopped'⟩ := h'.kept s a sender' hs'
    exact ⟨sender'', hs'', fun hoff => hstopped' (hstopped hoff)⟩
  opened s a sender hs hnone := by
    cases hmid : n'.sender? s with
    | none => exact h'.opened s a sender hs hmid
    | some x =>
      obtain ⟨sender', hs', -⟩ := h'.kept s x.1 x.2 hmid
      rw [hs] at hs'
      cases hs'
      exact h.opened s x.1 x.2 hmid hnone

/-- A session whose sender changes, but is not taken up again. -/
theorem Continues.modifySession {s : SessionId} {change : Session → Sender}
    (hchange : ∀ session, n.session? s = some session → session.sender.broadcasting = false →
      (change session).broadcasting = false) :
    Continues directory n
      (n.modifySession s fun session => { session with sender := change session }) := by
  have hsender := sender?_modifySession n s change
  refine ⟨fun t a sender ht => ?_, fun t a sender ht hnone => ?_⟩
  · rw [hsender]
    split
    · rename_i hts
      obtain ⟨session, hsession, heq⟩ := Option.map_eq_some_iff.1 (hts ▸ ht)
      cases heq
      rw [hsession]
      exact ⟨change session, rfl, hchange session hsession⟩
    · exact ⟨sender, ht, id⟩
  · rw [hsender] at ht
    split at ht
    · rename_i hts
      rw [sender?_eq_none_iff.1 (hts ▸ hnone)] at ht
      cases ht
    · rw [hnone] at ht
      cases ht

theorem Continues.track {id : AccountId} {account : Account} {link : LinkId} {s : SessionId}
    (haccount : directory.account? id = some account)
    (htrack : n.track (newSession account link) = .ok (n', s)) : Continues directory n n' := by
  have hunused : n.sender? s = none := sender?_eq_none_iff.2 (session?_eq_none_of_track htrack)
  refine ⟨fun t a sender ht => ⟨sender, ?_, fun hoff => hoff⟩, fun t a sender ht hnone => ?_⟩
  · rw [sender?_track htrack, if_neg ?_, ht]
    rintro rfl
    rw [hunused] at ht
    cases ht
  · rw [sender?_track htrack] at ht
    split at ht
    · cases ht
      exact (id_of_account? haccount).symm ▸ haccount
    · rw [hnone] at ht
      cases ht

theorem Turnovers.continues (h : Turnovers directory n n') : Continues directory n n' := by
  refine h.induction (fun n₁ n₂ hstep hn => hn.trans ?_) (.of_same fun _ => rfl)
  cases hstep with
  | same hsame => exact .of_same hsame.sender?
  | track haccount htrack => exact .track haccount htrack
  | @detach account s hs =>
    have hclosed : Continues directory { n₁ with tracked := n₁.tracked.filter (·.1 != account) }
        (n₁.detach account s) :=
      .modifySession fun session _ _ => show session.sender.stop.broadcasting = false from rfl
    have hsame : Continues directory n₁
        { n₁ with tracked := n₁.tracked.filter (·.1 != account) } := .of_same fun _ => rfl
    exact hsame.trans hclosed

theorem move_continues (n : Node) {m : Move} (hm : m.IsUnaided) :
    Continues n.directory n (n.move m) := by
  cases m with
  | packet now account packet =>
    show Continues n.directory n (n.handlePacket now account packet).node
    rcases handlePacket_granted? n now account packet with
      ⟨hsame, -⟩ | ⟨s, request, hnode, -, -⟩
    · exact .of_same hsame.sender?
    · rw [hnode]
      exact .modifySession fun session _ hoff => (Sender.broadcasting_control ..).trans hoff
  | settle o answer =>
    show Continues n.directory n (n.settle o answer).1
    rw [settle_node]
    exact .modifySession fun session _ hoff => (Sender.broadcasting_settle ..).trans hoff
  | setDeadline loop deadline => exact .of_same fun _ => rfl
  | track session => exact hm.elim
  | useSession s use => exact hm.elim
  | begin now clock task =>
    cases task with
    | finishConnect s => exact .of_same (finishConnect_sender? n clock s).2
    | _ => exact Turnovers.continues (move_turnovers n trivial)
  | _ => exact Turnovers.continues (move_turnovers n trivial)

/-- A session that has an account goes on with this account, and its sender, once stopped, stays
so. -/
theorem run_kept {moves : List Move} (hmoves : ∀ m ∈ moves, m.IsUnaided) {s : SessionId}
    {a : Account} {sender : Sender} (h : n.sender? s = some (a, sender)) :
    ∃ sender', (n.run moves).sender? s = some (a, sender') ∧
      (sender.broadcasting = false → sender'.broadcasting = false) := by
  refine run_induction (motive := fun n' => ∃ sender', n'.sender? s = some (a, sender') ∧
    (sender.broadcasting = false → sender'.broadcasting = false)) (fun n' m hm hn => ?_)
    ⟨sender, h, id⟩
  obtain ⟨sender', hs', hstopped⟩ := hn
  obtain ⟨sender'', hs'', hstopped'⟩ := (move_continues n' (hmoves m hm)).kept s a sender' hs'
  exact ⟨sender'', hs'', fun hoff => hstopped' (hstopped hoff)⟩

/-- Whether a move opens a session, with the account as the directory has it at that time. -/
def Opens (s : SessionId) (a : Account) (n : Node) (m : Move) : Prop :=
  n.session? s = none ∧ n.directory.account? a.id = some a ∧
    ∃ session, (n.move m).session? s = some session ∧ session.account = a

theorem opens_of_run {settings : Settings} {directory : Directory} {codec : Codec}
    {filter : Option (Prefix → Route → Bool)} {id : TableId} {links : List Link}
    {moves : List Move} (hmoves : ∀ m ∈ moves, m.IsUnaided) {s : SessionId} {session : Session}
    (hsession : ((fresh settings directory codec filter id links).run moves).session? s =
      some session) :
    Sometime (Opens s session.account) (fresh settings directory codec filter id links) moves := by
  induction moves using List.reverseRecOn generalizing session with
  | nil => cases hsession
  | append_singleton moves m ih =>
    rw [run_concat] at hsession
    rw [sometime_concat]
    have hearlier := fun session =>
      @ih (fun m' hm' => hmoves m' (List.mem_append_left _ hm')) session
    have hmove := move_continues ((fresh settings directory codec filter id links).run moves)
      (hmoves m (List.mem_append_right _ (List.mem_singleton_self m)))
    cases hbefore : ((fresh settings directory codec filter id links).run moves).session? s with
    | none =>
      refine .inr ⟨hbefore, ?_, session, hsession, rfl⟩
      exact hmove.opened s _ _ (sender?_eq_some hsession) (sender?_eq_none_iff.2 hbefore)
    | some session' =>
      obtain ⟨sender, hsender, -⟩ := hmove.kept s _ _ (sender?_eq_some hbefore)
      rw [sender?_eq_some hsession, Option.some.injEq, Prod.mk.injEq] at hsender
      exact .inl (hsender.1 ▸ hearlier session' hbefore)

/-! ### Accounts that are disconnected or unregistered -/

/-- Whether a move disconnects or unregisters an account. -/
def Move.Closes (n : Node) (a : AccountId) : Move → Prop
  | .event happened => happened = ⟨a, .disconnected⟩
  | .nextEvent => n.nextEvent.2 = some ⟨a, .disconnected⟩
  | .unregister account => account = a
  | .shutdown => a ∈ n.subscriptions.map (·.account)
  | _ => False

theorem trackedSession?_unregisterAll (accounts : List AccountId) (n : Node) (a : AccountId) :
    (accounts.foldl (fun n account => (n.unregister account).1) n).trackedSession? a =
      if a ∈ accounts then none else n.trackedSession? a := by
  induction accounts generalizing n with
  | nil => rfl
  | cons account accounts ih =>
    rw [List.foldl_cons, ih, trackedSession?_unregister]
    by_cases ha : a = account
    · rw [if_pos ha, ite_self, if_pos (List.mem_cons.2 (.inl ha))]
    · rw [if_neg ha]
      simp only [List.mem_cons, ha, false_or]

/-- Afterwards the account has no open session. -/
theorem Move.Closes.trackedSession?_eq_none {a : AccountId} {m : Move} (h : m.Closes n a) :
    (n.move m).trackedSession? a = none := by
  cases m with
  | event event =>
    cases h
    exact (trackedSession?_untrack n a a).trans (if_pos rfl)
  | nextEvent =>
    have hhead : n.nextEvent.2 = some ⟨a, .disconnected⟩ := h
    have hnext : n.nextEvent = (n.nextEvent.1, some ⟨a, .disconnected⟩) := by
      rw [← hhead]
    rw [move, hnext]
    exact (trackedSession?_untrack n.nextEvent.1 a a).trans (if_pos rfl)
  | unregister account =>
    cases h
    exact (trackedSession?_unregister n a a).trans (if_pos rfl)
  | shutdown => exact (trackedSession?_unregisterAll _ n a).trans (if_pos h)
  | _ => exact h.elim

end

/-! ### Updates that go out -/

theorem sender_of_issued {n : Node} {m : Move} {o : Outbound} (h : n.issued? m = some o)
    (hupdate : o.packet.destination = updateDestination) :
    ∃ session, n.session? o.session = some session ∧ o.link = session.link ∧
      session.sender.isQuiet = false := by
  cases m with
  | begin now clock task =>
    simp only [issued?] at h
    split at h
    · rename_i o' hwaiting
      cases h
      obtain ⟨session, hsession, hlink, ⟨-, hcontrol, -⟩ | ⟨-, hquiet, -⟩⟩ :=
        begin_eq_waiting hwaiting
      · exact absurd (hcontrol.symm.trans hupdate) (by decide)
      · exact ⟨session, hsession, hlink, hquiet⟩
    · cases h
  | _ => cases h

/-- A peer is sent updates only if it asked for them, since a sender is made idle. -/
theorem Heeds.asked {last : SessionId → Option Mode} {n : Node} (h : n.Heeds last) {s : SessionId}
    {session : Session} (hsession : n.session? s = some session)
    (hsync : session.sender.mode = .sync) : last s = some .sync := by
  have hmode := h.mode_eq _ _ _ (sender?_eq_some hsession)
  rw [hsync] at hmode
  cases hlast : last s with
  | none =>
    rw [hlast] at hmode
    cases hmode
  | some mode =>
    rw [hlast] at hmode
    exact congrArg some hmode.symm

/-- The sender of a session that was there when its account was disconnected or unregistered is
stopped from then on. -/
theorem stopped_of_closes {settings : Settings} {directory : Directory} {codec : Codec}
    {filter : Option (Prefix → Route → Bool)} {id : TableId} {links : List Link}
    {before after : List Move} {stop : Move}
    (hmoves : ∀ m ∈ before ++ stop :: after, m.IsUnaided) {s : SessionId}
    {earlier session : Session}
    (hearlier : ((fresh settings directory codec filter id links).run before).session? s =
      some earlier)
    (hsession : ((fresh settings directory codec filter id links).run
      (before ++ stop :: after)).session? s = some session)
    (hstop : stop.Closes ((fresh settings directory codec filter id links).run before)
      session.account.id) : session.sender.broadcasting = false := by
  let start := fresh settings directory codec filter id links
  have hbefore : ∀ m ∈ before ++ [stop], m.IsUnaided := by
    intro m hm
    refine hmoves m ?_
    rw [List.append_cons]
    exact List.mem_append_left _ hm
  have hafter : ∀ m ∈ after, m.IsUnaided := fun m hm =>
    hmoves m (List.mem_append_right _ (List.mem_cons_of_mem _ hm))
  have hrun : start.run (before ++ stop :: after) = (start.run (before ++ [stop])).run after := by
    rw [List.append_cons, run_append]
  obtain ⟨sender, hstopped, -⟩ := (move_continues (start.run before)
    (hbefore stop (List.mem_append_right _ (List.mem_singleton_self stop)))).kept _ _ _
    (sender?_eq_some hearlier)
  rw [← run_concat] at hstopped
  obtain ⟨sender', hlater, hstays⟩ := run_kept hafter hstopped
  have hsender := sender?_eq_some hsession
  rw [hrun, hlater, Option.some.injEq, Prod.mk.injEq] at hsender
  have hoff : sender.broadcasting = false := by
    refine Bool.eq_false_iff.2 fun hon => ?_
    have hopened := ((heeds_of_run hbefore).active _ _ _ hstopped hon).2
    rw [hsender.1, run_concat, hstop.trackedSession?_eq_none] at hopened
    cases hopened
  exact hsender.2 ▸ hstays hoff

/-- **An update goes out only for a peer that wants it.**  Whatever happened to a node, the sender
of an update was not stopped, and the last control request to it that was accepted asked for
updates. It is that of the open session of its account, which the directory had as one that is sent
routes when the session was opened; and this was after the account was last disconnected or
unregistered. -/
theorem asked_for_of_issued_update {settings : Settings} {directory : Directory} {codec : Codec}
    {filter : Option (Prefix → Route → Bool)} {id : TableId} {links : List Link}
    {moves : List Move} (hmoves : ∀ m ∈ moves, m.IsUnaided) {m : Move} {o : Outbound}
    (hissued : ((fresh settings directory codec filter id links).run moves).issued? m = some o)
    (hupdate : o.packet.destination = updateDestination) :
    let start := fresh settings directory codec filter id links
    ∃ session, (start.run moves).session? o.session = some session ∧ o.link = session.link ∧
      session.sender.broadcasting = true ∧ lastGranted? o.session start moves = some .sync ∧
      session.account.sendsRoutes = true ∧
      (start.run moves).trackedSession? session.account.id = some o.session ∧
      Sometime (Opens o.session session.account) start moves ∧
      ∀ before stop after, moves = before ++ stop :: after →
        stop.Closes (start.run before) session.account.id →
        (start.run before).session? o.session = none := by
  intro start
  obtain ⟨session, hsession, hlink, hquiet⟩ := sender_of_issued hissued hupdate
  obtain ⟨hbroadcasting, hsync⟩ := Sender.isQuiet_eq_false_iff.1 hquiet
  have hheeds := @heeds_of_run settings directory codec filter id links moves hmoves
  obtain ⟨hsends, htracked⟩ := hheeds.active _ _ _ (sender?_eq_some hsession) hbroadcasting
  refine ⟨session, hsession, hlink, hbroadcasting, hheeds.asked hsession hsync, hsends, htracked,
    opens_of_run hmoves hsession, fun before stop after hsplit hstop => ?_⟩
  subst hsplit
  -- A session from before would have been closed by the stop, and its sender with it.
  by_contra hopen
  obtain ⟨earlier, hearlier⟩ := Option.ne_none_iff_exists'.1 hopen
  rw [stopped_of_closes hmoves hearlier hsession hstop] at hbroadcasting
  cases hbroadcasting

/-- The first update of the small node goes out because its peer asked for it. -/
theorem asked_for_of_firstUpdate :
    (∀ m ∈ asking, m.IsUnaided) ∧
      (small.run asking).issued? (.begin .origin 0 (.sendUpdate ⟨0⟩)) = some firstUpdate ∧
      firstUpdate.packet.destination = updateDestination ∧
      lastGranted? ⟨0⟩ small asking = some .sync := by
  have hmoves : ∀ m ∈ asking, m.IsUnaided := by
    intro m hm
    simp only [asking, List.mem_cons, List.not_mem_nil, or_false] at hm
    rcases hm with rfl | rfl | rfl <;> trivial
  have hissued : (small.run asking).issued? (.begin .origin 0 (.sendUpdate ⟨0⟩)) =
      some firstUpdate := (Option.some_get _).symm
  have hupdate : firstUpdate.packet.destination = updateDestination := by decide +kernel
  obtain ⟨session, hsession, -, -, hlast, -⟩ :=
    @asked_for_of_issued_update smallSettings smallDirectory .json none
      ⟨List.replicate 16 1, by decide⟩ [{ account := smallPeer.id }] asking hmoves _ firstUpdate
      hissued hupdate
  have hfirst : firstUpdate.session = ⟨0⟩ := by decide +kernel
  exact ⟨hmoves, hissued, hupdate, hfirst ▸ hlast⟩

end Node

end RouteSync
