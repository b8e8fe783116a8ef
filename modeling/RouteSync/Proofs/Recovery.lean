import RouteSync.Proofs.Exchange

/-!
# One exchange closes a gap

A sender may believe that its peer knows more than it does: the peer forgot everything, or an answer
came late.  Then the next update begins too late, and the receiver has a gap.  The request that the
receiver makes in turn names the epoch from which it can go on, and the sender takes over that epoch
(`Sender.pending_le_of_control`).  So the update after that begins early enough, however much of the
log was dropped by then, and leads to the present epoch (`Exchange.recovers_of_run`).
-/

namespace RouteSync

namespace Sender

/-- An update tells at least everything since the epoch that the peer is known to have. -/
theorem pending_le_lastKnownEpoch (s : Sender) (t : LoggedTable) :
    (s.pending t).1 ≤ s.lastKnownEpoch := by
  unfold pending
  split
  · exact Nat.le_refl _
  · exact Nat.zero_le _

/-- After a request that names its table, a sender goes on no later than from the epoch asked for.
-/
theorem pending_le_of_control {s : Sender} {t : LoggedTable} {r : ControlRequest}
    (hmode : r.mode = .sync) (hid : r.tableId = some t.id) :
    ((s.control t r).pending t).1 ≤ r.epoch := by
  refine Nat.le_trans (pending_le_lastKnownEpoch _ t) ?_
  rw [control, hmode, hid]
  show (if some t.id = some t.id then min r.epoch t.epoch else 0) ≤ r.epoch
  rw [if_pos rfl]
  exact Nat.min_le_left _ _

/-- A sender that is asked for routes is ready to send unless it was stopped. -/
theorem control_of_sync {s : Sender} {t : LoggedTable} {r : ControlRequest}
    (hmode : r.mode = .sync) :
    (s.control t r).mode = .sync ∧ (s.control t r).broadcasting = s.broadcasting := by
  rw [control, hmode]
  exact ⟨rfl, rfl⟩

end Sender

namespace Exchange

/-- A receiver that holds just what a table advertises now. -/
structure UpToDate (t : LoggedTable) (r : Receiver) : Prop where
  tableId : r.tableId = some t.id
  epoch : r.epoch = t.epoch
  route?_eq : ∀ p, r.route? p =
    ((t.get? p).bind fun u => u.route.map Route.advertised).map (·.fromPeer r.peer)

/-- A receiver that gets the next update in time is up to date. -/
theorem Follows.upToDate {c : Chronicle} {r : Receiver} (h : Follows c r) (hc : c.Faithful)
    (s : Sender) (settings : Settings) (now : Timestamp)
    (hfrom : (s.pending c.table).1 ≤ (r.greet now (s.updateRequest settings c.table)).epoch) :
    (r.apply now (s.updateRequest settings c.table)).2.isTaken = true ∧
      UpToDate c.table (r.apply now (s.updateRequest settings c.table)).1 := by
  have hcarries := hc.carries_updateRequest s settings
  obtain ⟨hepoch, hroutes⟩ := h.greet hc hcarries.id_eq now
  obtain ⟨htaken, hlast, hnow⟩ := Receiver.apply_of_covers hfrom hepoch
  refine ⟨htaken, Receiver.apply_tableId _ _ _, hlast, fun p => ?_⟩
  rw [hnow, hroutes, hcarries.leads _ _ p hfrom hepoch, Receiver.apply_peer]
  exact congrArg _ (hc.advertisedAt_epoch p)

/-- A receiver that follows a table is brought up to date by the next update, or else by the one
that the sender makes after the receiver asked for it. -/
theorem Follows.recovers {c : Chronicle} {r : Receiver} (h : Follows c r) (hc : c.Faithful)
    (s : Sender) (before after : Settings) (now later : Timestamp) :
    let first := r.apply now (s.updateRequest before c.table)
    let asked := s.control c.table first.1.controlRequest
    let second := first.1.apply later (asked.updateRequest after c.table)
    (first.2.isTaken = true ∧ UpToDate c.table first.1) ∨
      ((∃ expected, first.2 = .gap expected) ∧ second.2.isTaken = true ∧
        UpToDate c.table second.1) := by
  intro first asked second
  by_cases hfrom : (s.pending c.table).1 ≤ (r.greet now (s.updateRequest before c.table)).epoch
  · exact .inl (h.upToDate hc s before now hfrom)
  · have hordered : (s.pending c.table).1 ≤ c.table.epoch := (Chronicle.mem_pending hc.coherent s).1
    have hgap : first = _ := Receiver.apply_of_gap hordered (Nat.lt_of_not_le hfrom)
    have hid : first.1.tableId = some c.table.id := Receiver.apply_tableId _ _ _
    have hfollows : Follows c first.1 := h.apply hc (hc.carries_updateRequest s before) now
    have hasked : (asked.pending c.table).1 ≤ first.1.epoch :=
      Sender.pending_le_of_control rfl hid
    refine .inr ⟨⟨_, congrArg Prod.snd hgap⟩, hfollows.upToDate hc asked after later ?_⟩
    -- The table is known by now, so the receiver goes on from the epoch that it asked for.
    rw [Receiver.greet_epoch]
    exact (if_pos hid).symm ▸ hasked

/-- Whatever happened between the two ends, updates that were lost, repeated or overtaken and logs
that were cut short included: the next update brings the receiver up to date, or the receiver has a
gap and the update that follows on its request brings it up to date.  The sender keeps sending if it
did so before. -/
theorem recovers_of_run (id : TableId) (listener speaker : AccountId) (moves : List Move)
    (before after : Settings) (now later : Timestamp) :
    let x := (start id listener speaker).run moves
    let table := x.chronicle.table
    let first := x.receiver.apply now (x.sender.updateRequest before table)
    let asked := x.sender.control table first.1.controlRequest
    let second := first.1.apply later (asked.updateRequest after table)
    (first.2.isTaken = true ∧ UpToDate table first.1) ∨
      ((∃ expected, first.2 = .gap expected) ∧
        asked.mode = .sync ∧ asked.broadcasting = x.sender.broadcasting ∧
        second.2.isTaken = true ∧ UpToDate table second.1) := by
  intro x table first asked second
  have hx : x.InStep id :=
    List.foldlRecOn moves _ (inStep_start id listener speaker) fun _ h m _ => h.move m
  rcases hx.follows.recovers hx.faithful x.sender before after now later with htaken | hgap
  · exact .inl htaken
  · obtain ⟨hmode, hbroadcasting⟩ := Sender.control_of_sync (s := x.sender) (t := table)
      (r := first.1.controlRequest) rfl
    exact .inr ⟨hgap.1, hmode, hbroadcasting, hgap.2⟩

end Exchange

end RouteSync
