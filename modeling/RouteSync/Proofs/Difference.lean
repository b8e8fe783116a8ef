import Mathlib.Data.List.Nodup
import RouteSync.Proofs.Chronicle

/-!
# What the next update tells

The next update of a sender is the difference between the version of the table that its peer knows
and the present one (`IsDifference`): it has just the entries that were made in the meantime, those
with a route and those without one, each in the order of their epochs.  Where the log does not reach
back far enough, it is the difference from the empty table.

One way to find these entries reads the log, in which slots may be empty or dropped, and the other
one sorts the table.  Both list the same because the log tells the truth about the table
(`Coherent`).  That an update without routes leads nowhere needs a further invariant: the present
epoch of a table that ever changed is that of an entry (`WellKept.latest`).
-/

namespace RouteSync

open RouteEntry

namespace LoggedTable

variable {t : LoggedTable}

/-- A table whose log is truthful, whose entries have routes for their own prefixes, and which has
an entry of its present epoch unless it never changed. -/
structure WellKept (t : LoggedTable) : Prop extends Coherent t where
  target_eq : ∀ p u r, t.get? p = some u → u.route = some r → r.target = p
  latest : t.epoch ≠ 0 → ∃ p u, t.get? p = some u ∧ u.epoch = t.epoch

theorem wellKept_empty (id : TableId) : WellKept { id := id } where
  toCoherent := coherent_empty id
  target_eq p u r h := by cases h
  latest h := absurd rfl h

theorem WellKept.record (h : t.WellKept) {p : Prefix} {route : Option Route}
    (hroute : ∀ r, route = some r → r.target = p) : (t.record p route).WellKept where
  toCoherent := h.toCoherent.record p route
  target_eq q u r hu hr := by
    rw [get?_record] at hu
    split at hu
    · rename_i hq
      cases hu
      exact (hroute r hr).trans hq.symm
    · exact h.target_eq q u r hu hr
  latest _ := ⟨p, _, by rw [get?_record, if_pos rfl], rfl⟩

theorem WellKept.prune (h : t.WellKept) (limit : Nat) : (t.prune limit).WellKept where
  toCoherent := h.toCoherent.prune limit
  target_eq := h.target_eq
  latest := h.latest

theorem WellKept.refresh (h : t.WellKept) (policy : ExportPolicy) (routes : RouteTable Route)
    (p : Prefix) : (t.refresh policy routes p).WellKept :=
  refresh_induction
    (fun _ _ _ ht => (ht.record fun _ hr => Chronicle.target_of_advertised hr).prune _) t p h

theorem mem_entries_iff {u : RouteUpdate} :
    u ∈ t.routes.entries ↔ t.get? u.target = some u :=
  ⟨fun h => t.routes.get?_of_mem h, fun h => RouteTable.mem_of_get? h⟩

/-! ### Entries in the order of their epochs -/

/-- The entries of a table that have a property, in the order of their epochs. -/
structure Lists (t : LoggedTable) (P : RouteUpdate → Prop) (updates : List RouteUpdate) : Prop where
  increasing : updates.Pairwise fun u v => u.epoch < v.epoch
  mem_iff : ∀ u, u ∈ updates ↔ u ∈ t.routes.entries ∧ P u

theorem Lists.nodup {P : RouteUpdate → Prop} {updates : List RouteUpdate}
    (h : t.Lists P updates) : updates.Nodup := by
  refine h.increasing.imp fun {u v} hlt => ?_
  rintro rfl
  exact Nat.lt_irrefl _ hlt

/-- Entries with different properties are for different prefixes. -/
theorem Lists.nodup_targets {P Q : RouteUpdate → Prop} {updates others : List RouteUpdate}
    (h : t.Lists P updates) (h' : t.Lists Q others) (hdisjoint : ∀ u, P u → ¬Q u) :
    ((updates ++ others).map (·.target)).Nodup := by
  have hentry : ∀ u ∈ updates ++ others, t.get? u.target = some u := by
    intro u hu
    rcases List.mem_append.1 hu with hu | hu
    · exact mem_entries_iff.1 ((h.mem_iff u).1 hu).1
    · exact mem_entries_iff.1 ((h'.mem_iff u).1 hu).1
  refine List.Nodup.map_on (fun u hu v hv htarget => ?_) ?_
  · have hsame := hentry u hu
    rw [htarget, hentry v hv] at hsame
    exact (Option.some.inj hsame).symm
  · refine List.nodup_append.2 ⟨h.nodup, h'.nodup, ?_⟩
    rintro u hu _ hu' rfl
    exact hdisjoint u ((h.mem_iff u).1 hu).2 ((h'.mem_iff u).1 hu').2

/-- Nothing is listed after an epoch just if that is the present one. -/
theorem WellKept.lists_nil_iff (h : t.WellKept) {known : Nat} (hknown : known ≤ t.epoch)
    {live gone : List RouteUpdate}
    (hlive : t.Lists (fun u => known < u.epoch ∧ u.epoch ≤ t.epoch ∧ u.route.isSome = true) live)
    (hgone : t.Lists (fun u => known < u.epoch ∧ u.epoch ≤ t.epoch ∧ u.route.isNone = true) gone) :
    (live = [] ∧ gone = []) ↔ known = t.epoch := by
  constructor
  · rintro ⟨rfl, rfl⟩
    by_contra hne
    -- The entry of the present epoch would be listed.
    obtain ⟨p, u, hu, hepoch⟩ := h.latest (by omega)
    have hentry : u ∈ t.routes.entries := RouteTable.mem_of_get? hu
    have hlater : known < u.epoch ∧ u.epoch ≤ t.epoch := by omega
    cases hroute : u.route with
    | none =>
      refine List.not_mem_nil ((hgone.mem_iff u).2 ⟨hentry, hlater.1, hlater.2, ?_⟩)
      rw [hroute]
      rfl
    | some r =>
      refine List.not_mem_nil ((hlive.mem_iff u).2 ⟨hentry, hlater.1, hlater.2, ?_⟩)
      rw [hroute]
      rfl
  · intro hsame
    refine ⟨List.eq_nil_iff_forall_not_mem.2 fun u hu => ?_,
      List.eq_nil_iff_forall_not_mem.2 fun u hu => ?_⟩
    · have hlater := ((hlive.mem_iff u).1 hu).2
      omega
    · have hlater := ((hgone.mem_iff u).1 hu).2
      omega

/-- The log has the updates in the order of their epochs. -/
theorem Coherent.pairwise_between (h : t.Coherent) {known : Nat} (hknown : t.log.first ≤ known + 1)
    (current : Nat) :
    (t.log.between known current).Pairwise fun u v => u.epoch < v.epoch := by
  rw [EpochLog.between_eq hknown, List.pairwise_filterMap]
  refine (List.pairwise_lt_range' 1).imp_of_mem fun {e e'} he he' hlt u hu v hv => ?_
  rw [List.mem_range'_1] at he he'
  rw [((h.slot_iff e u (by omega)).1 hu).2, ((h.slot_iff e' v (by omega)).1 hv).2]
  exact hlt

theorem pairwise_epoch_le_byEpoch (updates : List RouteUpdate) :
    (byEpoch updates).Pairwise fun u v => u.epoch ≤ v.epoch := by
  have hsorted : (byEpoch updates).Pairwise fun u v => decide (u.epoch ≤ v.epoch) = true := by
    refine List.pairwise_mergeSort (fun u v w huv hvw => ?_) (fun u v => ?_) updates
    · simp only [decide_eq_true_eq] at huv hvw ⊢
      omega
    · simp only [Bool.or_eq_true, decide_eq_true_eq]
      omega
  exact hsorted.imp of_decide_eq_true

/-- Entries that are sorted by their epochs have strictly increasing ones. -/
theorem Coherent.pairwise_byEpoch (h : t.Coherent) (keep : RouteUpdate → Bool) :
    (byEpoch (t.routes.entries.filter keep)).Pairwise fun u v => u.epoch < v.epoch := by
  have hsorted := pairwise_epoch_le_byEpoch (t.routes.entries.filter keep)
  have hdistinct : (byEpoch (t.routes.entries.filter keep)).Nodup :=
    (List.mergeSort_perm _ _).nodup_iff.2 (t.routes.nodup.of_map.filter keep)
  refine (hsorted.and hdistinct).imp_of_mem fun {u v} hu hv ⟨hle, hne⟩ => ?_
  have hentry : ∀ w ∈ byEpoch (t.routes.entries.filter keep), t.get? w.target = some w :=
    fun w hw => mem_entries_iff.1 (List.mem_filter.1 (List.mem_mergeSort.1 hw)).1
  refine Nat.lt_of_le_of_ne hle fun hepoch => hne ?_
  -- Entries with the same epoch are entries for the same prefix.
  have htarget := h.epoch_inj _ _ u v (hentry u hu) (hentry v hv) hepoch
  have hv' := hentry v hv
  rw [← htarget, hentry u hu] at hv'
  exact Option.some.inj hv'

end LoggedTable

namespace Sender

open LoggedTable

variable {t : LoggedTable} {s : Sender}

theorem fst_pending (hs : s.lastKnownEpoch ≤ t.epoch) :
    (s.pending t).1 = if t.log.first ≤ s.lastKnownEpoch + 1 then s.lastKnownEpoch else 0 := by
  simp only [pending, updatesSince]
  by_cases hreaches : t.log.first ≤ s.lastKnownEpoch + 1
  · rw [if_pos hreaches, if_neg (by omega)]
  · rw [if_neg hreaches, if_pos (by omega)]

/-- What a sender still has to tell is in the order of its epochs, routes and withdrawals apart. -/
theorem pairwise_pending (h : t.Coherent) (s : Sender) :
    ((s.pending t).2.filter (·.route.isSome)).Pairwise (fun u v => u.epoch < v.epoch) ∧
      ((s.pending t).2.filter (·.route.isNone)).Pairwise fun u v => u.epoch < v.epoch := by
  simp only [pending, updatesSince]
  split
  · rename_i updates hsince
    split at hsince
    · cases hsince
    · rename_i hcovered
      cases hsince
      have hreaches : t.log.first ≤ s.lastKnownEpoch + 1 := by omega
      have hlog := h.pairwise_between hreaches t.epoch
      exact ⟨hlog.filter _, hlog.filter _⟩
  · have hroutes : ∀ u ∈ t.currentRoutes, u.route.isSome = true := fun u hu =>
      (List.mem_filter.1 (List.mem_mergeSort.1 hu)).2
    have hwithdrawals : ∀ u ∈ t.currentWithdrawals, u.route.isNone = true := fun u hu =>
      (List.mem_filter.1 (List.mem_mergeSort.1 hu)).2
    have hnoRoute : t.currentWithdrawals.filter (·.route.isSome) = [] :=
      List.filter_eq_nil_iff.2 fun u hu => by simp [Option.isNone_iff_eq_none.1 (hwithdrawals u hu)]
    have hnoWithdrawal : t.currentRoutes.filter (·.route.isNone) = [] :=
      List.filter_eq_nil_iff.2 fun u hu => by simp [Option.isSome_iff_ne_none.1 (hroutes u hu)]
    rw [List.filter_append, List.filter_append, hnoRoute, hnoWithdrawal, List.append_nil,
      List.nil_append]
    exact ⟨(h.pairwise_byEpoch _).filter _, (h.pairwise_byEpoch _).filter _⟩

theorem lists_pending (h : t.Coherent) (s : Sender) :
    t.Lists (fun u => (s.pending t).1 < u.epoch ∧ u.epoch ≤ t.epoch ∧ u.route.isSome = true)
        ((s.pending t).2.filter (·.route.isSome)) ∧
      t.Lists (fun u => (s.pending t).1 < u.epoch ∧ u.epoch ≤ t.epoch ∧ u.route.isNone = true)
        ((s.pending t).2.filter (·.route.isNone)) := by
  obtain ⟨hroutes, hwithdrawals⟩ := pairwise_pending h s
  have hmem := (Chronicle.mem_pending h s).2
  refine ⟨⟨hroutes, fun u => ?_⟩, ⟨hwithdrawals, fun u => ?_⟩⟩
  all_goals
    rw [List.mem_filter, hmem, mem_entries_iff]
    constructor
    · rintro ⟨⟨hu, hlater⟩, hroute⟩
      exact ⟨hu, hlater, h.epoch_le _ u hu, hroute⟩
    · rintro ⟨hu, hlater, -, hroute⟩
      exact ⟨⟨hu, hlater⟩, hroute⟩

end Sender

/-- An update tells just what changed in a table after the epoch from which it leads: the entries
that have a route since then, and those that have none any more. -/
structure IsDifference (t : LoggedTable) (u : UpdateRequest) : Prop where
  tableId_eq : u.tableId = t.id
  currentEpoch_eq : u.currentEpoch = t.epoch
  toEpoch_eq : u.toEpoch = t.epoch
  fromEpoch_le : u.fromEpoch ≤ u.toEpoch
  newRoutes_eq : ∃ live,
    t.Lists (fun e => u.fromEpoch < e.epoch ∧ e.epoch ≤ u.toEpoch ∧ e.route.isSome = true) live ∧
      u.newRoutes.map some = live.map fun e => e.route.map Route.advertised
  withdrawn_eq : ∃ gone,
    t.Lists (fun e => u.fromEpoch < e.epoch ∧ e.epoch ≤ u.toEpoch ∧ e.route.isNone = true) gone ∧
      u.withdrawn = gone.map (·.target)
  /-- No prefix is named twice. -/
  nodup : (u.newRoutes.map (·.target) ++ u.withdrawn).Nodup
  isHeartbeat_iff : u.isHeartbeat = true ↔ u.fromEpoch = u.toEpoch

/-- The new routes of an update are those of the entries that have one. -/
theorem map_some_newRoutes (updates : List RouteUpdate) :
    (updates.filterMap fun e => e.route.map Route.advertised).map some =
      (updates.filter (·.route.isSome)).map fun e => e.route.map Route.advertised := by
  induction updates with
  | nil => rfl
  | cons e es ih =>
    cases hroute : e.route with
    | none => simp [hroute, ih]
    | some r => simp [hroute, ih]

/-- The new routes of an update are for the prefixes of their entries. -/
theorem LoggedTable.WellKept.map_target {t : LoggedTable} (h : t.WellKept)
    {live : List RouteUpdate} {newRoutes : List AdvertisedRoute}
    (hlive : ∀ e ∈ live, e ∈ t.routes.entries ∧ e.route.isSome = true)
    (hroutes : newRoutes.map some = live.map fun e => e.route.map Route.advertised) :
    newRoutes.map (·.target) = live.map (·.target) := by
  refine List.map_injective_iff.2 (fun _ _ => Option.some.inj) ?_
  have htargets := congrArg (List.map (Option.map AdvertisedRoute.target)) hroutes
  rw [List.map_map, List.map_map] at htargets
  rw [List.map_map, List.map_map]
  refine htargets.trans (List.map_congr_left fun e he => ?_)
  obtain ⟨hentry, hsome⟩ := hlive e he
  obtain ⟨r, hr⟩ := Option.isSome_iff_exists.1 hsome
  show (e.route.map Route.advertised).map AdvertisedRoute.target = some e.target
  rw [hr]
  exact congrArg some (h.target_eq _ e r (mem_entries_iff.1 hentry) hr)

/-- The next update of a sender is the difference from what its peer knows. -/
theorem LoggedTable.WellKept.isDifference {t : LoggedTable} (h : t.WellKept) (s : Sender)
    (settings : Settings) : IsDifference t (s.updateRequest settings t) := by
  have hle := (Chronicle.mem_pending h.toCoherent s).1
  obtain ⟨hlive, hgone⟩ := Sender.lists_pending h.toCoherent s
  have hroutes := map_some_newRoutes (s.pending t).2
  refine ⟨rfl, rfl, rfl, hle, ⟨_, hlive, hroutes⟩, ⟨_, hgone, rfl⟩, ?_, ?_⟩
  · have htargets := h.map_target
      (fun e he => ⟨((hlive.mem_iff e).1 he).1, ((hlive.mem_iff e).1 he).2.2.2⟩) hroutes
    have hdistinct := hlive.nodup_targets hgone fun e hsome hnone => by
      have hroute := hsome.2.2
      rw [Option.isNone_iff_eq_none.1 hnone.2.2] at hroute
      cases hroute
    rw [List.map_append, ← htargets] at hdistinct
    exact hdistinct
  · show _ ↔ (s.pending t).1 = t.epoch
    rw [← h.lists_nil_iff hle hlive hgone, UpdateRequest.isHeartbeat, Bool.and_eq_true,
      List.isEmpty_iff, List.isEmpty_iff]
    refine and_congr ?_ List.map_eq_nil_iff
    rw [← List.map_eq_nil_iff (f := fun e : RouteUpdate => e.route.map Route.advertised),
      ← hroutes, List.map_eq_nil_iff]
    rfl

end RouteSync
