import RouteSync.Proofs.EpochLog
import RouteSync.Proofs.Receiver
import RouteSync.Sender

/-!
# Every version of a logged table

A chronicle is a logged table together with all versions of its entries, the one of epoch `e` at
index `e`.  Unlike the log it is never pruned and no slot of it is ever emptied, so it can say what
a peer that follows the table has to know.  The table of a chronicle changes as it would without one
(`Chronicle.refresh_table`).

The updates that a sender makes lead between versions (`Faithful.carries_updateRequest`): whatever
version from `fromEpoch` to `toEpoch` a receiver holds, taking the update in gives the version of
`toEpoch`.  The reason is that the entries which the update leaves out are no newer than
`fromEpoch`, and such entries stood in all versions since (`Faithful.past`).
-/

namespace RouteSync

open RouteEntry

/-- A logged table with every version of its entries. -/
structure Chronicle where
  table : LoggedTable
  /-- The entries right after the update of each epoch; before the first update there were none. -/
  versions : List (RouteTable RouteUpdate)

namespace Chronicle

/-- The chronicle of a table that was just made. -/
def start (id : TableId) : Chronicle :=
  ⟨{ id := id }, [RouteTable.empty]⟩

/-- Log a change and keep the new version. -/
def log (c : Chronicle) (limit : Nat) (p : Prefix) (route : Option Route) : Chronicle :=
  let t := (c.table.record p route).prune limit
  ⟨t, c.versions ++ [t.routes]⟩

/-- Bring the advertisement of a prefix up to date, but not yet those of the prefixes below. -/
def refreshOne (policy : ExportPolicy) (routes : RouteTable Route) (c : Chronicle) (p : Prefix) :
    Chronicle :=
  let route := policy.advertised p (routes.get? p)
  if (c.table.get? p).bind nextHop? = route.map Route.nextHop then c
  else c.log policy.maxLogLength p route

/-- Bring the advertisements of a prefix and of everything below up to date. -/
def refresh (policy : ExportPolicy) (routes : RouteTable Route) (c : Chronicle) (p : Prefix) :
    Chronicle :=
  let route := policy.advertised p (routes.get? p)
  if (c.table.get? p).bind nextHop? = route.map Route.nextHop then c
  else
    let c := c.log policy.maxLogLength p route
    ((c.table.routes.keysUnder p).filter (· != p)).attach.foldl
      (fun c q => refresh policy routes c q.1) c
termination_by maxTextBytes - p.chars.length
decreasing_by
  have hlt := RouteTable.length_lt_of_mem_keysUnder q.2
  have hle := q.1.length_le
  omega

/-- Keeping versions does not change what happens to the table. -/
theorem refresh_table (policy : ExportPolicy) (routes : RouteTable Route) (c : Chronicle)
    (p : Prefix) : (c.refresh policy routes p).table = c.table.refresh policy routes p := by
  induction c, p using refresh.induct policy routes with
  | case1 c p _ hsame => rw [refresh, LoggedTable.refresh, if_pos hsame, if_pos hsame]
  | case2 c p _ hchanged _ ih =>
    rw [refresh, LoggedTable.refresh, if_neg hchanged, if_neg hchanged]
    exact (List.foldl_hom Chronicle.table fun c' q => (ih c' q).symm).symm

/-- Whatever every logged change keeps, `refresh` keeps. -/
theorem refresh_induction {policy : ExportPolicy} {routes : RouteTable Route}
    {motive : Chronicle → Prop}
    (hlog : ∀ c p, motive c →
      motive (c.log policy.maxLogLength p (policy.advertised p (routes.get? p))))
    (c : Chronicle) (p : Prefix) (hc : motive c) : motive (c.refresh policy routes p) := by
  induction c, p using refresh.induct policy routes with
  | case1 c p _ hsame =>
    rw [refresh, if_pos hsame]
    exact hc
  | case2 c p _ hchanged _ ih =>
    rw [refresh, if_neg hchanged]
    exact List.foldlRecOn _ _ (hlog c p hc) fun c' hc' q _ => ih c' q hc'

/-- What was advertised for a prefix right after the update of an epoch. -/
def advertisedAt (c : Chronicle) (e : Nat) (p : Prefix) : Option AdvertisedRoute :=
  (c.versions[e]?.bind (·.get? p)).bind fun u => u.route.map Route.advertised

/-- The versions are those of the table, and they tell its entries apart by age. -/
structure Faithful (c : Chronicle) : Prop where
  coherent : c.table.Coherent
  /-- An entry with a route stands under the prefix of the route. -/
  target_eq : ∀ p u r, c.table.get? p = some u → u.route = some r → r.target = p
  versions_length : c.versions.length = c.table.epoch + 1
  first : c.versions[0]? = some RouteTable.empty
  last : c.versions[c.table.epoch]? = some c.table.routes
  /-- What is no newer than an epoch stood already in the version of that epoch. -/
  past : ∀ e v p, c.versions[e]? = some v → (∀ u, c.table.get? p = some u → u.epoch ≤ e) →
    v.get? p = c.table.get? p

theorem faithful_start (id : TableId) : (start id).Faithful where
  coherent := LoggedTable.coherent_empty id
  target_eq p u r h := by cases h
  versions_length := rfl
  first := rfl
  last := rfl
  past e v p hv _ := by
    cases e with
    | zero =>
      cases hv
      rfl
    | succ e => cases hv

theorem advertisedAt_log {c : Chronicle} (h : c.Faithful) (limit : Nat) (p : Prefix)
    (route : Option Route) {e : Nat} (he : e ≤ c.table.epoch) (q : Prefix) :
    (c.log limit p route).advertisedAt e q = c.advertisedAt e q := by
  have hlen := h.versions_length
  rw [advertisedAt, advertisedAt, log, List.getElem?_append_left (by omega)]

theorem Faithful.log {c : Chronicle} (h : c.Faithful) (limit : Nat) {p : Prefix}
    {route : Option Route} (hroute : ∀ r, route = some r → r.target = p) :
    (c.log limit p route).Faithful where
  coherent := (h.coherent.record p route).prune limit
  target_eq q u r hu hr := by
    change (c.table.record p route).get? q = some u at hu
    rw [LoggedTable.get?_record] at hu
    split at hu
    · rename_i hq
      cases hu
      rw [hq]
      exact hroute r hr
    · exact h.target_eq q u r hu hr
  versions_length := by
    show (c.versions ++ [_]).length = c.table.epoch + 1 + 1
    rw [List.length_append, h.versions_length]
    rfl
  first := by
    have hlen := h.versions_length
    show (c.versions ++ [_])[0]? = _
    rw [List.getElem?_append_left (by omega)]
    exact h.first
  last := by
    show (c.versions ++ [_])[c.table.epoch + 1]? = _
    rw [← h.versions_length, List.getElem?_concat_length]
    rfl
  past e v q hv hage := by
    have hlen := h.versions_length
    change (c.versions ++ [_])[e]? = some v at hv
    by_cases he : e < c.versions.length
    · rw [List.getElem?_append_left he] at hv
      change ∀ u, (c.table.record p route).get? q = some u → u.epoch ≤ e at hage
      show v.get? q = (c.table.record p route).get? q
      rw [LoggedTable.get?_record] at hage ⊢
      split
      · rename_i hq
        rw [if_pos hq] at hage
        have := hage _ rfl
        simp only at this
        omega
      · rename_i hq
        rw [if_neg hq] at hage
        exact h.past e v q hv hage
    · by_cases hlast : e = c.versions.length
      · rw [hlast, List.getElem?_concat_length] at hv
        cases hv
        rfl
      · rw [List.getElem?_eq_none (by rw [List.length_append, List.length_singleton]; omega)] at hv
        cases hv

/-- A route of the node is advertised for its own prefix. -/
theorem target_of_advertised {policy : ExportPolicy} {routes : RouteTable Route} {p : Prefix}
    {r : Route} (h : policy.advertised p (routes.get? p) = some r) : r.target = p := by
  obtain ⟨s, hs, rfl⟩ := ExportPolicy.forwarded_of_advertised h
  exact RouteTable.target_of_get? hs

theorem Faithful.advertisedAt_epoch {c : Chronicle} (h : c.Faithful) (p : Prefix) :
    c.advertisedAt c.table.epoch p =
      (c.table.get? p).bind fun u => u.route.map Route.advertised := by
  rw [advertisedAt, h.last]
  rfl

theorem Faithful.advertisedAt_zero {c : Chronicle} (h : c.Faithful) (p : Prefix) :
    c.advertisedAt 0 p = none := by
  rw [advertisedAt, h.first]
  rfl

/-- A prefix whose entry is no newer than an epoch was advertised then as it is now. -/
theorem Faithful.advertisedAt_of_old {c : Chronicle} (h : c.Faithful) {e : Nat}
    (he : e ≤ c.table.epoch) {p : Prefix} (hold : ∀ u, c.table.get? p = some u → u.epoch ≤ e) :
    c.advertisedAt e p = c.advertisedAt c.table.epoch p := by
  have hlen := h.versions_length
  have hv := List.getElem?_eq_getElem (show e < c.versions.length by omega)
  rw [h.advertisedAt_epoch, advertisedAt, hv, Option.bind_some, h.past e _ p hv hold]

/-! ### Updates between versions -/

/-- An update of the chronicle's table that leads from any version of its range to the last one. -/
structure Carries (c : Chronicle) (u : UpdateRequest) : Prop where
  id_eq : u.tableId = c.table.id
  to_le : u.toEpoch ≤ c.table.epoch
  leads : ∀ peer e p, u.fromEpoch ≤ e → e ≤ u.toEpoch →
    u.outcome? peer p ((c.advertisedAt e p).map (·.fromPeer peer)) =
      (c.advertisedAt u.toEpoch p).map (·.fromPeer peer)

/-- Updates that were made stay right while the table changes. -/
theorem Carries.log {c : Chronicle} {u : UpdateRequest} (hu : c.Carries u) (h : c.Faithful)
    (limit : Nat) (p : Prefix) (route : Option Route) : (c.log limit p route).Carries u where
  id_eq := hu.id_eq.trans (LoggedTable.record_id c.table p route).symm
  to_le := Nat.le_succ_of_le hu.to_le
  leads peer e q hfrom hto := by
    have hle := hu.to_le
    rw [advertisedAt_log h limit p route (by omega), advertisedAt_log h limit p route hle]
    exact hu.leads peer e q hfrom hto

/-- What a sender still has to tell is what stands in the table with a later epoch than the one that
it goes on from. -/
theorem mem_pending {t : LoggedTable} (h : t.Coherent) (s : Sender) :
    (s.pending t).1 ≤ t.epoch ∧
      ∀ u, u ∈ (s.pending t).2 ↔ t.get? u.target = some u ∧ (s.pending t).1 < u.epoch := by
  unfold Sender.pending
  split
  · rename_i updates hsince
    exact h.mem_updatesSince hsince
  · refine ⟨Nat.zero_le _, fun u => ?_⟩
    have hmem : u ∈ t.currentRoutes ++ t.currentWithdrawals ↔ u ∈ t.routes.entries := by
      rw [LoggedTable.currentRoutes, LoggedTable.currentWithdrawals, LoggedTable.byEpoch,
        LoggedTable.byEpoch, List.mem_append, List.mem_mergeSort, List.mem_mergeSort,
        List.mem_filter, List.mem_filter]
      cases u.route <;> simp
    rw [hmem]
    constructor
    · intro hu
      have hget : t.get? u.target = some u := t.routes.get?_of_mem hu
      exact ⟨hget, h.epoch_pos _ u hget⟩
    · exact fun hu => RouteTable.mem_of_get? hu.1

/-- Every update that a sender makes leads between versions. -/
theorem Faithful.carries_updateRequest {c : Chronicle} (h : c.Faithful) (s : Sender)
    (settings : Settings) : c.Carries (s.updateRequest settings c.table) where
  id_eq := rfl
  to_le := Nat.le_refl _
  leads peer e p hfrom hto := by
    obtain ⟨-, hmem⟩ := mem_pending h.coherent s
    change (s.pending c.table).1 ≤ e at hfrom
    change e ≤ c.table.epoch at hto
    show _ = (c.advertisedAt c.table.epoch p).map _
    rw [UpdateRequest.outcome?]
    cases hlatest : (s.updateRequest settings c.table).latest? p with
    | some a =>
      have ha := List.mem_filter.1 (List.mem_of_getLast? hlatest)
      obtain ⟨u, hu, hroute⟩ := List.mem_filterMap.1 ha.1
      rw [Option.map_eq_some_iff] at hroute
      obtain ⟨r, hr, rfl⟩ := hroute
      obtain ⟨hget, -⟩ := (hmem u).1 hu
      have htarget : r.target = p := beq_iff_eq.1 ha.2
      have hp : u.target = p := (h.target_eq _ u r hget hr).symm.trans htarget
      rw [hp] at hget
      rw [h.advertisedAt_epoch, hget, Option.bind_some, hr]
      rfl
    | none =>
      rw [Option.map_none, Option.none_or]
      by_cases hwithdrawn : p ∈ (s.updateRequest settings c.table).withdrawn
      · rw [if_pos hwithdrawn]
        obtain ⟨u, hu, rfl⟩ := List.mem_map.1 hwithdrawn
        rw [List.mem_filter] at hu
        obtain ⟨hget, -⟩ := (hmem u).1 hu.1
        rw [h.advertisedAt_epoch, hget, Option.bind_some, Option.isNone_iff_eq_none.1 hu.2]
        rfl
      · rw [if_neg hwithdrawn]
        -- The update does not name the prefix, so its entry is old.
        refine congrArg _ (h.advertisedAt_of_old hto fun u hu => ?_)
        refine Nat.le_of_not_lt fun hlater => ?_
        have htarget := LoggedTable.target_of_get? hu
        have hpending : u ∈ (s.pending c.table).2 :=
          (hmem u).2 ⟨htarget.symm ▸ hu, Nat.lt_of_le_of_lt hfrom hlater⟩
        cases hroute : u.route with
        | none =>
          refine hwithdrawn (List.mem_map.2 ⟨u, List.mem_filter.2 ⟨hpending, ?_⟩, htarget⟩)
          rw [hroute]
          rfl
        | some r =>
          have hnew : r.advertised ∈ (s.updateRequest settings c.table).newRoutes :=
            List.mem_filterMap.2 ⟨u, hpending, by rw [hroute]; rfl⟩
          rw [UpdateRequest.latest?, List.getLast?_eq_none_iff, List.filter_eq_nil_iff] at hlatest
          refine hlatest _ hnew (beq_iff_eq.2 ?_)
          exact h.target_eq p u r hu hroute

end Chronicle

end RouteSync
