import RouteSync.Receiver

/-!
# What an update does to a receiver

An update is taken in or it leaves routes and epoch alone (`Receiver.apply_cases`).  An update that
is taken in decides about the prefixes that it names: the last route that it brings for a prefix
wins, and a prefix that it withdraws without a new route has none (`UpdateRequest.outcome?`).  The
prefixes whose routes changed are among those that are reported (`route?_apply_of_not_changed`).
-/

namespace RouteSync

open RouteEntry

theorem RouteTable.get?_foldl_erase {R : Type} [RouteEntry R] (t : RouteTable R)
    (ps : List Prefix) (q : Prefix) :
    (ps.foldl RouteTable.erase t).get? q = if q ∈ ps then none else t.get? q := by
  induction ps generalizing t with
  | nil => simp
  | cons p ps ih =>
    rw [List.foldl_cons, ih, get?_erase]
    by_cases hmem : q ∈ ps
    · rw [if_pos hmem, if_pos (List.mem_cons_of_mem p hmem)]
    · rw [if_neg hmem]
      by_cases hq : q = p
      · rw [if_pos hq, if_pos (by rw [hq]; exact List.mem_cons_self)]
      · rw [if_neg hq, if_neg (by rw [List.mem_cons, not_or]; exact ⟨hq, hmem⟩)]

/-- The last of the new routes of an update for a prefix. -/
def UpdateRequest.latest? (u : UpdateRequest) (p : Prefix) : Option AdvertisedRoute :=
  (u.newRoutes.filter (·.target == p)).getLast?

/-- The route for a prefix after an update was taken in, given the one from before. -/
def UpdateRequest.outcome? (u : UpdateRequest) (peer : AccountId) (p : Prefix)
    (before : Option IncomingRoute) : Option IncomingRoute :=
  ((u.latest? p).map (·.fromPeer peer)).or (if p ∈ u.withdrawn then none else before)

/-- Whether an update was taken in, be it only for its newer epoch. -/
def UpdateOutcome.isTaken : UpdateOutcome → Bool
  | .applied _ => true
  | .heartbeat => true
  | _ => false

namespace Receiver

/-! ### Routes that are put in -/

/-- The last of several routes for a prefix wins. -/
theorem get?_insertAll (routes : RouteTable IncomingRoute) (rs : List IncomingRoute) (q : Prefix) :
    (insertAll routes rs).1.get? q =
      (rs.filter (·.target == q)).getLast?.or (routes.get? q) := by
  induction rs generalizing routes with
  | nil => simp [insertAll]
  | cons r rs ih =>
    show (insertAll (routes.insert r) rs).1.get? q = _
    rw [ih, RouteTable.get?_insert, List.filter_cons]
    by_cases hq : q = target r
    · subst hq
      have hself : (r.target == target r) = true := beq_self_eq_true r.target
      rw [if_pos rfl, if_pos hself, List.getLast?_cons]
      cases (rs.filter (·.target == target r)).getLast? <;> rfl
    · rw [if_neg hq, if_neg (by simpa using fun h => hq h.symm)]

/-- A prefix is reported if one of the routes for it is not the one that was there before. -/
theorem mem_insertAll_iff {routes : RouteTable IncomingRoute} {rs : List IncomingRoute}
    {q : Prefix} :
    q ∈ (insertAll routes rs).2 ↔ ∃ r ∈ rs, r.target = q ∧ routes.get? q ≠ some r := by
  induction rs generalizing routes with
  | nil => simp [insertAll]
  | cons r rs ih =>
    have hothers : ∀ q, q ≠ r.target → (routes.insert r).get? q = routes.get? q := fun q hq =>
      (RouteTable.get?_insert ..).trans (if_neg hq)
    simp only [insertAll]
    split
    · rename_i hheld
      have hsame : (routes.insert r).get? q = routes.get? q := by
        by_cases hq : q = r.target
        · rw [hq, hheld, RouteTable.get?_insert]
          exact if_pos rfl
        · exact hothers q hq
      rw [ih, hsame]
      simp only [List.mem_cons, exists_eq_or_imp]
      refine ⟨.inr, fun h => h.resolve_left ?_⟩
      rintro ⟨rfl, hne⟩
      exact hne hheld
    · rename_i hnew
      rw [List.mem_cons, ih]
      simp only [List.mem_cons, exists_eq_or_imp]
      by_cases hq : q = r.target
      · exact ⟨fun _ => .inl ⟨hq.symm, hq ▸ hnew⟩, fun _ => .inl hq⟩
      · simp only [hothers q hq]
        exact or_congr ⟨fun h => absurd h hq, fun h => absurd h.1.symm hq⟩ Iff.rfl

/-- A prefix that is not reported has the route that it had. -/
theorem get?_insertAll_of_not_mem {routes : RouteTable IncomingRoute} {rs : List IncomingRoute}
    {q : Prefix} (h : q ∉ (insertAll routes rs).2) :
    (insertAll routes rs).1.get? q = routes.get? q := by
  rw [get?_insertAll]
  cases hlast : (rs.filter (·.target == q)).getLast? with
  | none => rfl
  | some r =>
    obtain ⟨hmem, htarget⟩ := List.mem_filter.1 (List.mem_of_getLast? hlast)
    exact Decidable.byContradiction fun hne =>
      h (mem_insertAll_iff.2 ⟨r, hmem, beq_iff_eq.1 htarget, Ne.symm hne⟩)

theorem route?_applyRoutes (r : Receiver) (u : UpdateRequest) (p : Prefix) :
    (r.applyRoutes u).1.route? p = u.outcome? r.peer p (r.route? p) := by
  show (insertAll _ _).1.get? p = _
  rw [get?_insertAll, RouteTable.get?_foldl_erase, List.filter_map, List.getLast?_map]
  rfl

theorem route?_applyRoutes_of_not_changed {r : Receiver} {u : UpdateRequest} {p : Prefix}
    (h : p ∉ (r.applyRoutes u).2) : (r.applyRoutes u).1.route? p = r.route? p := by
  change p ∉ u.withdrawn ++ (insertAll _ _).2 at h
  rw [List.mem_append, not_or] at h
  show (insertAll _ _).1.get? p = _
  rw [get?_insertAll_of_not_mem h.2, RouteTable.get?_foldl_erase, if_neg h.1]
  rfl

/-! ### Updates that arrive -/

theorem greet_tableId (r : Receiver) (now : Timestamp) (u : UpdateRequest) :
    (r.greet now u).tableId = some u.tableId := by
  simp only [greet]
  split
  · assumption
  · rfl

theorem greet_epoch (r : Receiver) (now : Timestamp) (u : UpdateRequest) :
    (r.greet now u).epoch = if r.tableId = some u.tableId then r.epoch else 0 := by
  simp only [greet]
  split <;> rfl

theorem greet_peer (r : Receiver) (now : Timestamp) (u : UpdateRequest) :
    (r.greet now u).peer = r.peer := by
  simp only [greet]
  split <;> rfl

theorem greet_routes (r : Receiver) (now : Timestamp) (u : UpdateRequest) :
    (r.greet now u).routes = r.routes := by
  simp only [greet]
  split <;> rfl

theorem route?_greet (r : Receiver) (now : Timestamp) (u : UpdateRequest) (p : Prefix) :
    (r.greet now u).route? p = r.route? p := by
  simp only [greet]
  split <;> rfl

theorem outcome?_of_isHeartbeat {u : UpdateRequest} (h : u.isHeartbeat = true) (peer : AccountId)
    (p : Prefix) (before : Option IncomingRoute) : u.outcome? peer p before = before := by
  simp only [UpdateRequest.isHeartbeat, Bool.and_eq_true, List.isEmpty_iff] at h
  simp [UpdateRequest.outcome?, UpdateRequest.latest?, h.1, h.2]

theorem apply_tableId (r : Receiver) (now : Timestamp) (u : UpdateRequest) :
    (r.apply now u).1.tableId = some u.tableId := by
  have h := greet_tableId r now u
  simp only [apply]
  split
  · exact h
  · split
    · exact h
    · split
      · exact h
      · split <;> exact h

theorem apply_peer (r : Receiver) (now : Timestamp) (u : UpdateRequest) :
    (r.apply now u).1.peer = r.peer := by
  have h := greet_peer r now u
  simp only [apply]
  split
  · exact h
  · split
    · exact h
    · split
      · exact h
      · split <;> exact h

/-- An update leaves routes and epoch alone, apart from the new beginning with another table, or it
begins no later and ends no earlier than the known epoch and is taken in. -/
theorem apply_cases (r : Receiver) (now : Timestamp) (u : UpdateRequest) :
    ((r.apply now u).1.epoch = (r.greet now u).epoch ∧
        ∀ p, (r.apply now u).1.route? p = r.route? p) ∨
      (u.fromEpoch ≤ (r.greet now u).epoch ∧ (r.greet now u).epoch ≤ u.toEpoch ∧
        (r.apply now u).1.epoch = u.toEpoch ∧
        ∀ p, (r.apply now u).1.route? p = u.outcome? r.peer p (r.route? p)) := by
  have hsame := route?_greet r now u
  simp only [apply]
  split
  · exact .inl ⟨rfl, hsame⟩
  · split
    · exact .inl ⟨rfl, hsame⟩
    · split
      · exact .inl ⟨rfl, hsame⟩
      · rename_i hfrom hto
        refine .inr ⟨Nat.le_of_not_lt hfrom, Nat.le_of_not_lt hto, ?_⟩
        split
        · rename_i hbeat
          exact ⟨rfl, fun p => by rw [outcome?_of_isHeartbeat hbeat]; exact hsame p⟩
        · refine ⟨rfl, fun p => ?_⟩
          rw [route?_applyRoutes, greet_peer, hsame]

/-- Whatever the receiver holds after an update was there before or came with it. -/
theorem route?_apply_eq_some {r : Receiver} {now : Timestamp} {u : UpdateRequest} {p : Prefix}
    {i : IncomingRoute} (h : (r.apply now u).1.route? p = some i) :
    r.route? p = some i ∨ ∃ a ∈ u.newRoutes, a.fromPeer r.peer = i := by
  rcases apply_cases r now u with ⟨-, hkept⟩ | ⟨-, -, -, htaken⟩
  · exact .inl (hkept p ▸ h)
  · rw [htaken, UpdateRequest.outcome?, Option.or_eq_some_iff] at h
    rcases h with hnew | ⟨-, hold⟩
    · rw [Option.map_eq_some_iff] at hnew
      obtain ⟨a, ha, rfl⟩ := hnew
      exact .inr ⟨a, (List.mem_filter.1 (List.mem_of_getLast? ha)).1, rfl⟩
    · split at hold
      · cases hold
      · exact .inl hold

/-- An update whose range holds the known epoch is taken in. -/
theorem apply_of_covers {r : Receiver} {now : Timestamp} {u : UpdateRequest}
    (hfrom : u.fromEpoch ≤ (r.greet now u).epoch) (hto : (r.greet now u).epoch ≤ u.toEpoch) :
    (r.apply now u).2.isTaken = true ∧ (r.apply now u).1.epoch = u.toEpoch ∧
      ∀ p, (r.apply now u).1.route? p = u.outcome? r.peer p (r.route? p) := by
  have hsame := route?_greet r now u
  have hordered := Nat.le_trans hfrom hto
  simp only [apply]
  rw [if_neg (Nat.not_lt.2 hordered), if_neg (Nat.not_lt.2 hfrom), if_neg (Nat.not_lt.2 hto)]
  split
  · rename_i hbeat
    refine ⟨rfl, rfl, fun p => ?_⟩
    rw [outcome?_of_isHeartbeat hbeat]
    exact hsame p
  · refine ⟨rfl, rfl, fun p => ?_⟩
    rw [route?_applyRoutes, greet_peer, hsame]

/-- An update that begins after the known epoch is only noted. -/
theorem apply_of_gap {r : Receiver} {now : Timestamp} {u : UpdateRequest}
    (hordered : u.fromEpoch ≤ u.toEpoch) (hgap : (r.greet now u).epoch < u.fromEpoch) :
    r.apply now u = (r.greet now u, .gap (r.greet now u).epoch) := by
  simp only [apply]
  rw [if_neg (Nat.not_lt.2 hordered), if_pos hgap]

/-- An update with routes whose range holds the known epoch is taken in with its routes. -/
theorem apply_eq_applyRoutes {r : Receiver} {now : Timestamp} {u : UpdateRequest}
    (hfrom : u.fromEpoch ≤ (r.greet now u).epoch)
    (hto : (r.greet now u).epoch ≤ u.toEpoch) (hbeat : u.isHeartbeat = false) :
    r.apply now u =
      (((r.greet now u).applyRoutes u).1, .applied ((r.greet now u).applyRoutes u).2) := by
  have hordered := Nat.le_trans hfrom hto
  simp only [apply]
  rw [if_neg (Nat.not_lt.2 hordered), if_neg (Nat.not_lt.2 hfrom), if_neg (Nat.not_lt.2 hto),
    if_neg (Bool.eq_false_iff.1 hbeat)]

/-- No other update is taken in with its routes. -/
theorem covers_of_apply_eq_applied {r : Receiver} {now : Timestamp} {u : UpdateRequest}
    {changed : List Prefix} (h : (r.apply now u).2 = .applied changed) :
    u.fromEpoch ≤ (r.greet now u).epoch ∧ (r.greet now u).epoch ≤ u.toEpoch ∧
      u.isHeartbeat = false := by
  simp only [apply] at h
  split at h
  · cases h
  · split at h
    · cases h
    · split at h
      · cases h
      · split at h
        · cases h
        · rename_i hfrom hto hbeat
          exact ⟨Nat.le_of_not_lt hfrom, Nat.le_of_not_lt hto, Bool.eq_false_iff.2 hbeat⟩

/-- An update that is not taken in with its routes leaves the routes alone. -/
theorem apply_routes_of_ne_applied {r : Receiver} {now : Timestamp} {u : UpdateRequest}
    (h : ∀ changed, (r.apply now u).2 ≠ .applied changed) :
    (r.apply now u).1.routes = r.routes := by
  rw [← greet_routes r now u]
  revert h
  simp only [apply]
  split
  · exact fun _ => rfl
  · split
    · exact fun _ => rfl
    · split
      · exact fun _ => rfl
      · split
        · exact fun _ => rfl
        · exact fun h => absurd rfl (h _)

/-- A route that an update changed is reported. -/
theorem route?_apply_of_not_changed {r : Receiver} {now : Timestamp} {u : UpdateRequest}
    {p : Prefix} (h : p ∉ (r.apply now u).2.changed) :
    (r.apply now u).1.route? p = r.route? p := by
  rw [← route?_greet r now u p]
  revert h
  simp only [apply]
  split
  · exact fun _ => rfl
  · split
    · exact fun _ => rfl
    · split
      · exact fun _ => rfl
      · split
        · exact fun _ => rfl
        · exact route?_applyRoutes_of_not_changed

end Receiver

end RouteSync
