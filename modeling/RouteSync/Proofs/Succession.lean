import RouteSync.Proofs.Receiver

/-!
# Updates that follow each other

A peer tells the history of its table in updates of which each begins where the one before it ended
(`Successive`).  A receiver that gets all of them takes all of them in, so for every prefix the last
of the notices that they give decides (`Receiver.applyAll_of_successive`).

Updates of another table than the known one are counted from epoch zero again, but the routes that
are held stay (`Receiver.greet`).  So the new table takes the place of the old one just for the
prefixes that it names (`Receiver.applyAll_eq_iff_of_new_table`).
-/

namespace RouteSync

/-- Updates of one table that lead from one epoch to another, each of which begins where the one
before it ended. -/
inductive Successive (id : TableId) : Nat → List UpdateRequest → Nat → Prop
  | nil (e : Nat) : Successive id e [] e
  | cons {u : UpdateRequest} {us : List UpdateRequest} {start e : Nat} (hid : u.tableId = id)
      (hfrom : u.fromEpoch = start) (hordered : u.fromEpoch ≤ u.toEpoch)
      (hrest : Successive id u.toEpoch us e) : Successive id start (u :: us) e

/-! ### Notices -/

/-- What an update says about a prefix, in the order in which it counts: a withdrawal first, then
the new routes. -/
def UpdateRequest.notices (u : UpdateRequest) (p : Prefix) : List (Option AdvertisedRoute) :=
  (if p ∈ u.withdrawn then [none] else []) ++ (u.newRoutes.filter (·.target == p)).map some

/-- Whether an update says anything about a prefix. -/
def UpdateRequest.Names (u : UpdateRequest) (p : Prefix) : Prop :=
  p ∈ u.withdrawn ∨ ∃ r ∈ u.newRoutes, r.target = p

theorem UpdateRequest.notices_eq_nil_iff (u : UpdateRequest) (p : Prefix) :
    u.notices p = [] ↔ ¬u.Names p := by
  have hwithdrawn : (if p ∈ u.withdrawn then [none] else []) = ([] : List (Option AdvertisedRoute)) ↔
      p ∉ u.withdrawn := by
    by_cases hp : p ∈ u.withdrawn <;> simp [hp]
  rw [notices, List.append_eq_nil_iff, hwithdrawn, List.map_eq_nil_iff, List.filter_eq_nil_iff,
    Names, not_or, not_exists]
  simp

/-- What several updates say about a prefix. -/
def history (us : List UpdateRequest) (p : Prefix) : List (Option AdvertisedRoute) :=
  us.flatMap (·.notices p)

theorem history_eq_nil_iff (us : List UpdateRequest) (p : Prefix) :
    history us p = [] ↔ ∀ u ∈ us, ¬u.Names p := by
  rw [history, List.flatMap_eq_nil_iff]
  exact forall₂_congr fun u _ => u.notices_eq_nil_iff p

/-- The route for a prefix after notices by a peer, given the one from before: the last notice
decides. -/
def heldAfter (peer : AccountId) (notices : List (Option AdvertisedRoute))
    (before : Option IncomingRoute) : Option IncomingRoute :=
  (notices.getLast?.map fun notice => notice.map (·.fromPeer peer)).getD before

@[simp] theorem heldAfter_nil (peer : AccountId) (before : Option IncomingRoute) :
    heldAfter peer [] before = before := rfl

theorem heldAfter_append (peer : AccountId) (xs ys : List (Option AdvertisedRoute))
    (before : Option IncomingRoute) :
    heldAfter peer (xs ++ ys) before = heldAfter peer ys (heldAfter peer xs before) := by
  rw [heldAfter, List.getLast?_append, heldAfter, heldAfter]
  cases ys.getLast? <;> rfl

theorem heldAfter_none (peer : AccountId) (notices : List (Option AdvertisedRoute)) :
    heldAfter peer notices none = notices.getLast?.join.map (·.fromPeer peer) := by
  rw [heldAfter]
  cases notices.getLast? <;> rfl

/-- With a notice at hand, the route from before does not count. -/
theorem heldAfter_congr {notices : List (Option AdvertisedRoute)} (h : notices ≠ [])
    (peer : AccountId) (before before' : Option IncomingRoute) :
    heldAfter peer notices before = heldAfter peer notices before' := by
  rw [heldAfter, heldAfter, List.getLast?_eq_some_getLast h]
  rfl

/-- An update that is taken in does what its notices say. -/
theorem UpdateRequest.outcome?_eq (u : UpdateRequest) (peer : AccountId) (p : Prefix)
    (before : Option IncomingRoute) :
    u.outcome? peer p before = heldAfter peer (u.notices p) before := by
  rw [notices, heldAfter_append, outcome?, latest?, heldAfter, List.getLast?_map]
  cases (u.newRoutes.filter (·.target == p)).getLast? with
  | none =>
    show (if p ∈ u.withdrawn then none else before) = _
    split <;> rfl
  | some r => rfl

/-! ### Updates that arrive one after the other -/

/-- An update and the time at which it arrives. -/
structure Arrival where
  now : Timestamp
  update : UpdateRequest

namespace Receiver

/-- The epoch up to which a receiver knows a table. -/
def knownEpoch (r : Receiver) (id : TableId) : Nat :=
  if r.tableId = some id then r.epoch else 0

/-- The receiver after several updates. -/
def applyAll (r : Receiver) (arrivals : List Arrival) : Receiver :=
  arrivals.foldl (fun r a => (r.apply a.now a.update).1) r

/-- An update that begins at the known epoch is taken in. -/
theorem apply_of_knownEpoch {r : Receiver} {u : UpdateRequest}
    (hfrom : u.fromEpoch = r.knownEpoch u.tableId) (hordered : u.fromEpoch ≤ u.toEpoch)
    (now : Timestamp) :
    (r.apply now u).1.epoch = u.toEpoch ∧
      ∀ p, (r.apply now u).1.route? p = heldAfter r.peer (u.notices p) (r.route? p) := by
  have hknown : (r.greet now u).epoch = u.fromEpoch := (greet_epoch r now u).trans hfrom.symm
  obtain ⟨-, hepoch, hroutes⟩ := apply_of_covers (Nat.le_of_eq hknown.symm) (hknown ▸ hordered)
  exact ⟨hepoch, fun p => (hroutes p).trans (u.outcome?_eq r.peer p _)⟩

/-- A receiver that gets successive updates from the known epoch on takes them all in. -/
theorem applyAll_of_successive {id : TableId} {arrivals : List Arrival} (r : Receiver) {e : Nat}
    (h : Successive id (r.knownEpoch id) (arrivals.map (·.update)) e) :
    (r.applyAll arrivals).knownEpoch id = e ∧
      (arrivals ≠ [] → (r.applyAll arrivals).tableId = some id) ∧
      ∀ p, (r.applyAll arrivals).route? p =
        heldAfter r.peer (history (arrivals.map (·.update)) p) (r.route? p) := by
  induction arrivals generalizing r with
  | nil =>
    cases h
    exact ⟨rfl, fun hne => (hne rfl).elim, fun p => rfl⟩
  | cons a as ih =>
    rw [List.map_cons] at h
    cases h with
    | cons hid hfrom hordered hrest =>
      subst hid
      obtain ⟨hepoch, hroutes⟩ := apply_of_knownEpoch hfrom hordered a.now
      have hid : (r.apply a.now a.update).1.tableId = some a.update.tableId :=
        apply_tableId r a.now a.update
      have hnext : (r.apply a.now a.update).1.knownEpoch a.update.tableId = a.update.toEpoch := by
        rw [knownEpoch, if_pos hid, hepoch]
      obtain ⟨hlast, htable, hheld⟩ := ih _ (hnext.symm ▸ hrest)
      refine ⟨hlast, fun _ => ?_, fun p => ?_⟩
      · by_cases has : as = []
        · subst has
          exact hid
        · exact htable has
      · rw [List.map_cons, history, List.flatMap_cons, heldAfter_append, ← hroutes p,
          ← apply_peer r a.now a.update]
        exact hheld p

/-- Updates that tell a table from its beginning to a receiver of another table lead to the same
epoch as on an empty receiver.  They lead to the same route for a prefix if and only if the receiver
held none for it or some update names it; a route that none of them names stays. -/
theorem applyAll_eq_iff_of_new_table {r : Receiver} {id : TableId} {arrivals : List Arrival}
    {e : Nat} (hnew : r.tableId ≠ some id) (hne : arrivals ≠ [])
    (h : Successive id 0 (arrivals.map (·.update)) e) :
    let replaced := r.applyAll arrivals
    let rebuilt := ({ peer := r.peer } : Receiver).applyAll arrivals
    (replaced.tableId = some id ∧ rebuilt.tableId = some id) ∧
      (replaced.epoch = e ∧ rebuilt.epoch = e) ∧
      ∀ p, (replaced.route? p = rebuilt.route? p ↔
          r.route? p = none ∨ ∃ a ∈ arrivals, a.update.Names p) ∧
        ((∀ a ∈ arrivals, ¬a.update.Names p) → replaced.route? p = r.route? p) := by
  intro replaced rebuilt
  have hzero : r.knownEpoch id = 0 := if_neg hnew
  obtain ⟨hepoch, htable, hheld⟩ := applyAll_of_successive r (hzero.symm ▸ h)
  obtain ⟨hepoch', htable', hheld'⟩ := applyAll_of_successive { peer := r.peer } h
  rw [knownEpoch, if_pos (htable hne)] at hepoch
  rw [knownEpoch, if_pos (htable' hne)] at hepoch'
  refine ⟨⟨htable hne, htable' hne⟩, ⟨hepoch, hepoch'⟩, fun p => ?_⟩
  have hsilent : history (arrivals.map (·.update)) p = [] ↔ ∀ a ∈ arrivals, ¬a.update.Names p := by
    rw [history_eq_nil_iff, List.forall_mem_map]
  rw [hheld p, hheld' p]
  by_cases hnamed : ∃ a ∈ arrivals, a.update.Names p
  · obtain ⟨a, ha, hnames⟩ := hnamed
    have hnotices : history (arrivals.map (·.update)) p ≠ [] := fun hnil =>
      hsilent.1 hnil a ha hnames
    exact ⟨⟨fun _ => .inr ⟨a, ha, hnames⟩, fun _ => heldAfter_congr hnotices r.peer _ _⟩,
      fun hnone => (hnone a ha hnames).elim⟩
  · have hnone : ∀ a ∈ arrivals, ¬a.update.Names p := fun a ha hnames => hnamed ⟨a, ha, hnames⟩
    rw [hsilent.2 hnone, heldAfter_nil, heldAfter_nil]
    exact ⟨⟨.inl, fun hor => hor.resolve_right hnamed⟩, fun _ => rfl⟩

/-- A receiver that forgets the old table first holds just what the new one tells. -/
theorem route?_applyAll_clear {r : Receiver} {id : TableId} {arrivals : List Arrival} {e : Nat}
    (h : Successive id 0 (arrivals.map (·.update)) e) (p : Prefix) :
    (r.clear.1.applyAll arrivals).route? p =
      (({ peer := r.peer } : Receiver).applyAll arrivals).route? p := by
  obtain ⟨-, -, hcleared⟩ := applyAll_of_successive r.clear.1 h
  obtain ⟨-, -, hrebuilt⟩ := applyAll_of_successive { peer := r.peer } h
  rw [hcleared p, hrebuilt p]
  rfl

/-! ### A peer that starts over -/

/-- The first update of a table, with a single route in it. -/
def opening (table : UInt8) (target : Prefix) : Arrival where
  now := .origin
  update :=
    { tableId := ⟨List.replicate 16 table, List.length_replicate⟩
      currentEpoch := 1
      fromEpoch := 0
      toEpoch := 1
      holdDownTime := 30000
      speaker := ⟨"g.neighbour".toList, by decide⟩
      newRoutes := [⟨target, [], .replicate 5⟩]
      withdrawn := [] }

/-- What the peer had a route to before it started over. -/
def oldTarget : Prefix :=
  ⟨"g.old".toList, by decide⟩

/-- What it has a route to afterwards. -/
def newTarget : Prefix :=
  ⟨"g.new".toList, by decide⟩

/-- The receiver for the peer before the peer started over. -/
def outdated : Receiver :=
  ({ peer := ⟨"neighbour".toList, by decide⟩ } : Receiver).applyAll [opening 1 oldTarget]

theorem applyAll_eq_of_restarted :
    let arrivals := [opening 2 newTarget]
    let id := (opening 2 newTarget).update.tableId
    let updates := arrivals.map (·.update)
    let replaced := outdated.applyAll arrivals
    let rebuilt := ({ peer := outdated.peer } : Receiver).applyAll arrivals
    outdated.tableId ≠ some id ∧ arrivals ≠ [] ∧ Successive id 0 updates 1 ∧
      replaced.epoch = rebuilt.epoch ∧ replaced.route? newTarget = rebuilt.route? newTarget := by
  intro arrivals id updates replaced rebuilt
  have hnew : outdated.tableId ≠ some id := by decide
  have hne : arrivals ≠ [] := List.cons_ne_nil _ _
  have hsucc : Successive id 0 updates 1 := .cons rfl rfl (by decide) (.nil 1)
  have hnamed : ∃ a ∈ arrivals, a.update.Names newTarget :=
    ⟨_, List.mem_singleton_self _, .inr ⟨_, List.mem_singleton_self _, rfl⟩⟩
  obtain ⟨-, ⟨hepoch, hepoch'⟩, hroutes⟩ := applyAll_eq_iff_of_new_table hnew hne hsucc
  exact ⟨hnew, hne, hsucc, hepoch.trans hepoch'.symm, (hroutes newTarget).1.2 (.inr hnamed)⟩

/-- The old route is still held after the update of the new table, which does not have it. -/
theorem route?_ne_of_restarted :
    let arrivals := [opening 2 newTarget]
    let id := (opening 2 newTarget).update.tableId
    outdated.tableId ≠ some id ∧ Successive id 0 (arrivals.map (·.update)) 1 ∧
      (outdated.applyAll arrivals).route? oldTarget ≠
        (({ peer := outdated.peer } : Receiver).applyAll arrivals).route? oldTarget := by
  intro arrivals id
  exact ⟨by decide, .cons rfl rfl (by decide) (.nil 1), by decide⟩

end Receiver

end RouteSync
