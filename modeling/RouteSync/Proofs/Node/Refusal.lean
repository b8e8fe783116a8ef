import RouteSync.Proofs.Node.Retry
import RouteSync.Proofs.Succession

/-!
# What a refused packet leaves alone

A packet of a peer may be refused for many reasons.  Unless the node gives up work that it has
begun, which it answers with an internal error, a refused packet changes no route, no log, no sender
and no session but that of the account that sent it (`kept_of_refused`).

One thing happens before an update is refused: the receiver notes that it arrived
(`Receiver.greet`).  So an update that ends before it begins, or that begins after the known epoch,
may make the receiver keep its routes for longer, and an update of another table makes it count from
epoch zero.  The routes themselves stay.
-/

namespace RouteSync

/-- Whether an outcome makes the node refuse the update. -/
def UpdateOutcome.IsRefused : UpdateOutcome → Prop
  | .gap _ | .invalid => True
  | _ => False

namespace Receiver

/-- Whether an update is one that a receiver can make nothing of: it ends before it begins, or it
begins after the epoch up to which the receiver knows its table. -/
def Misses (r : Receiver) (u : UpdateRequest) : Prop :=
  u.toEpoch < u.fromEpoch ∨ r.knownEpoch u.tableId < u.fromEpoch

/-- A receiver goes on from its epoch, or it learns of another table and begins at zero. -/
theorem greet_epoch_cases (r : Receiver) (now : Timestamp) (u : UpdateRequest) :
    (r.greet now u).epoch = r.epoch ∨
      (r.greet now u).tableId ≠ r.tableId ∧ (r.greet now u).epoch = 0 := by
  rw [greet_epoch, greet_tableId]
  split
  · exact .inl rfl
  · rename_i hother
    exact .inr ⟨Ne.symm hother, rfl⟩

/-- An update that is refused is only noted. -/
theorem apply_of_isRefused {r : Receiver} {now : Timestamp} {u : UpdateRequest}
    (h : (r.apply now u).2.IsRefused) : (r.apply now u).1 = r.greet now u ∧ r.Misses u := by
  simp only [apply] at h ⊢
  by_cases hends : u.toEpoch < u.fromEpoch
  · rw [if_pos hends]
    exact ⟨rfl, .inl hends⟩
  · rw [if_neg hends] at h ⊢
    by_cases hlate : (r.greet now u).epoch < u.fromEpoch
    · rw [if_pos hlate]
      rw [greet_epoch] at hlate
      exact ⟨rfl, .inr hlate⟩
    · -- From here on the update is taken in or stale.
      rw [if_neg hlate] at h
      split at h
      · exact h.elim
      · split at h <;> exact h.elim

end Receiver

namespace Node

variable {n : Node} {account : AccountId} {s : SessionId} {session : Session}

theorem integrate_refusal {changed : List Prefix} {refusal : Refusal}
    (h : (n.integrate changed).refusal = some refusal) : refusal = .notProcessed := by
  unfold integrate at h
  split at h <;> cases h
  rfl

/-- An update that is refused, but not given up, is one that the receiver refuses. -/
theorem isRefused_of_handleUpdate {now : Timestamp} {data : Bytes} {u : UpdateRequest}
    {refusal : Refusal} (hreceives : session.account.receivesRoutes = true)
    (hdecode : n.codec.decodeUpdate data = .ok u)
    (h : (n.handleUpdate now s session data).refusal = some refusal)
    (hprocessed : refusal ≠ .notProcessed) :
    (session.receiver.apply now (u.admitted n.settings)).2.IsRefused := by
  simp only [handleUpdate, hreceives, hdecode, Bool.not_true, Bool.false_eq_true, if_false] at h
  split at h <;> rename_i houtcome <;> rw [houtcome]
  · trivial
  · trivial
  all_goals exact absurd (integrate_refusal h) hprocessed

/-- What a refused update does to the node: nothing, or its receiver notes that it arrived. -/
theorem handleUpdate_node_of_refused {now : Timestamp} {data : Bytes} {refusal : Refusal}
    (h : (n.handleUpdate now s session data).refusal = some refusal)
    (hprocessed : refusal ≠ .notProcessed) :
    (n.handleUpdate now s session data).node = n ∨
      ∃ u, n.codec.decodeUpdate data = .ok u ∧ session.receiver.Misses u ∧
        (n.handleUpdate now s session data).node =
          n.setReceiver s (session.receiver.greet now u) := by
  rcases handleUpdate_cases n now s session data with haway | ⟨hreceives, u, hdecode⟩
  · exact .inl haway.node_eq
  · have hrefused := isRefused_of_handleUpdate hreceives hdecode h hprocessed
    obtain ⟨hgreeted, hmisses⟩ := Receiver.apply_of_isRefused hrefused
    have hchanged : (session.receiver.apply now (u.admitted n.settings)).2.changed = [] := by
      cases houtcome : (session.receiver.apply now (u.admitted n.settings)).2 with
      | applied changed =>
        rw [houtcome] at hrefused
        exact hrefused.elim
      | _ => rfl
    refine .inr ⟨u, hdecode, hmisses, ?_⟩
    -- Which routes are let in makes no difference to what is noted.
    rw [handleUpdate_node hreceives hdecode, receive, hchanged, hgreeted]
    rfl

/-- What a refused packet does to the node: nothing, or the receiver of the session with its sender
notes that an update arrived. -/
theorem move_of_refused {now : Timestamp} {packet : Prepare} {refusal : Refusal}
    (h : (n.handlePacket now account packet).refusal = some refusal)
    (hprocessed : refusal ≠ .notProcessed) :
    n.move (.packet now account packet) = n ∨
      ∃ s session u, n.trackedSession? account = some s ∧ n.session? s = some session ∧
        packet.destination = updateDestination ∧ n.codec.decodeUpdate packet.data = .ok u ∧
        session.receiver.Misses u ∧
        n.move (.packet now account packet) =
          n.setReceiver s (session.receiver.greet now u) := by
  show (n.handlePacket now account packet).node = n ∨ ∃ s session u, _ ∧ _ ∧ _ ∧ _ ∧ _ ∧
    (n.handlePacket now account packet).node = _
  rcases handlePacket_cases n now account packet with
    haway | ⟨s, session, hs, hsession, -, ⟨-, hhandled⟩ | ⟨hupdate, hhandled⟩⟩
  · exact .inl haway.node_eq
  · -- A control request is turned away or granted.
    rw [hhandled] at h ⊢
    rcases handleControl_cases n s session packet.data with haway | ⟨request, -, -, hcontrol⟩
    · exact .inl haway.node_eq
    · rw [hcontrol] at h
      cases h
  · rw [hhandled] at h ⊢
    rcases handleUpdate_node_of_refused h hprocessed with hsame | ⟨u, hdecode, hmisses, hnode⟩
    · exact .inl hsame
    · exact .inr ⟨s, session, u, hs, hsession, hupdate, hdecode, hmisses, hnode⟩

/-- A packet that is answered with a reject, but not with that of an internal error, changes at most
the session of the account that sent it.  There account, link, sender and routes stay.  If the
receiver changes, then the packet was an update that it can make nothing of, and its epoch stays as
well unless it learned of another table, from which it knows no epoch yet. -/
theorem kept_of_refused {now : Timestamp} {packet : Prepare} {reject : Reject}
    (hrefused : n.answer now account packet = .error reject)
    (hcode : reject.code ≠ .internalError) :
    let n' := n.move (.packet now account packet)
    n' = { n with sessions := n'.sessions } ∧ n'.sessions.length = n.sessions.length ∧
      ∀ s session, n.session? s = some session →
        ∃ receiver, n'.session? s = some { session with receiver := receiver } ∧
          receiver.peer = session.receiver.peer ∧ receiver.routes = session.receiver.routes ∧
          (receiver = session.receiver ∨
            n.trackedSession? account = some s ∧
              (∃ u, packet.destination = updateDestination ∧
                n.codec.decodeUpdate packet.data = .ok u ∧ session.receiver.Misses u) ∧
              (receiver.epoch = session.receiver.epoch ∨
                receiver.tableId ≠ session.receiver.tableId ∧ receiver.epoch = 0)) := by
  intro n'
  obtain ⟨refusal, hrefusal, hsame⟩ := exists_refusal_of_answer hrefused
  have hprocessed : refusal ≠ .notProcessed := by
    rintro rfl
    exact hcode hsame.symm
  rcases move_of_refused hrefusal hprocessed with
    hsame | ⟨t, told, u, ht, htold, hupdate, hdecode, hmisses, hnoted⟩
  · have hsame : n' = n := hsame
    rw [hsame]
    exact ⟨rfl, rfl, fun s session hsession => ⟨_, hsession, rfl, rfl, .inl rfl⟩⟩
  · have hnoted : n' = n.setReceiver t (told.receiver.greet now u) := hnoted
    rw [hnoted]
    refine ⟨rfl, List.length_modify .., fun s session hsession => ?_⟩
    rw [setReceiver, session?_modifySession]
    split
    · rename_i hst
      subst hst
      obtain rfl : session = told := Option.some.inj (hsession.symm.trans htold)
      exact ⟨_, congrArg (Option.map _) hsession, Receiver.greet_peer .., Receiver.greet_routes ..,
        .inr ⟨ht, ⟨u, hupdate, hdecode, hmisses⟩, Receiver.greet_epoch_cases ..⟩⟩
    · exact ⟨_, hsession, rfl, rfl, .inl rfl⟩

/-- The peer of the small node was just connected and sends an update that begins at epoch five. -/
theorem kept_of_late_update :
    let d := routeThrough [] 5
    let n' := connected.move (d.move smallPeer.id)
    ∃ reject, connected.answer d.now smallPeer.id d.packet = .error reject ∧
      reject.code ≠ .internalError ∧ n' = { connected with sessions := n'.sessions } ∧
      ∃ receiver,
        n'.session? ⟨0⟩ = some { newSession smallPeer ⟨0⟩ with receiver := receiver } ∧
        receiver.routes = (newSession smallPeer ⟨0⟩).receiver.routes ∧
        receiver ≠ (newSession smallPeer ⟨0⟩).receiver ∧ receiver.epoch = 0 := by
  intro d n'
  obtain ⟨reject, hreject, hbad⟩ : ∃ reject,
      connected.answer d.now smallPeer.id d.packet = .error reject ∧ reject.code = .badRequest :=
    exists_reject_of_code (by decide +kernel)
  have hcode : reject.code ≠ .internalError := by
    rw [hbad]
    decide
  obtain ⟨hrest, -, hkept⟩ := kept_of_refused hreject hcode
  obtain ⟨receiver, hsession, -, hroutes, -⟩ := hkept ⟨0⟩ (newSession smallPeer ⟨0⟩) rfl
  -- The receiver has learned of the peer's table.
  have hnoted : (n'.session? ⟨0⟩).map (fun session => session.receiver.tableId) =
      some (some d.update.tableId) ∧
      (n'.session? ⟨0⟩).map (fun session => session.receiver.epoch) = some 0 := by
    decide +kernel
  have hsession' : n'.session? ⟨0⟩ = some { newSession smallPeer ⟨0⟩ with receiver := receiver } :=
    hsession
  rw [hsession'] at hnoted
  refine ⟨reject, hreject, hcode, hrest, receiver, hsession, hroutes, ?_,
    Option.some.inj hnoted.2⟩
  rintro rfl
  cases hnoted.1

end Node

end RouteSync
