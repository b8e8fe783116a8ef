import RouteSync.Proofs.Succession

/-!
# What a receiver reports of an update

An update that is applied takes the withdrawn routes out and puts the new ones in, and it reports
the withdrawn prefixes and those of the new routes that were not held before.  The report is made
while the routes are put in one after the other: each is compared with the one whose place it takes,
which may have come with the same update.  Still no prefix is left out whose route is another one in
the end, and what is reported stands in the order of the update (`report_of_apply`).

With an update that is not applied the routes stay.  The epoch never goes back, unless an update of
another table makes the receiver begin again (`epoch_le_applyAll`).
-/

namespace RouteSync.Receiver

/-! ### One update -/

theorem insertAll_fst (routes : RouteTable IncomingRoute) (rs : List IncomingRoute) :
    (insertAll routes rs).1 = rs.foldl RouteTable.insert routes := by
  induction rs generalizing routes with
  | nil => rfl
  | cons r rs ih => exact ih (routes.insert r)

/-- The noted prefixes are those of some of the routes, in the order of these. -/
theorem insertAll_snd_sublist (routes : RouteTable IncomingRoute) (rs : List IncomingRoute) :
    (insertAll routes rs).2.Sublist (rs.map (·.target)) := by
  induction rs generalizing routes with
  | nil => exact List.Sublist.slnil
  | cons r rs ih =>
    have hrest := ih (routes.insert r)
    simp only [insertAll, List.map_cons]
    split
    · exact hrest.cons r.target
    · exact hrest.cons_cons r.target

theorem applyRoutes_routes (r : Receiver) (u : UpdateRequest) :
    (r.applyRoutes u).1.routes = (u.newRoutes.map (·.fromPeer r.peer)).foldl RouteTable.insert
      (u.withdrawn.foldl RouteTable.erase r.routes) :=
  insertAll_fst _ _

/-- The withdrawn prefixes are reported first, and then some of those of the new routes. -/
theorem exists_applyRoutes_snd_eq (r : Receiver) (u : UpdateRequest) :
    ∃ changed, changed.Sublist (u.newRoutes.map (·.target)) ∧
      (r.applyRoutes u).2 = u.withdrawn ++ changed := by
  have hsublist := insertAll_snd_sublist (u.withdrawn.foldl RouteTable.erase r.routes)
    (u.newRoutes.map (·.fromPeer r.peer))
  rw [List.map_map] at hsublist
  exact ⟨_, hsublist, rfl⟩

/-! ### Epochs -/

/-- An update never leads back behind the epoch that it is counted from. -/
theorem greet_epoch_le_apply (r : Receiver) (now : Timestamp) (u : UpdateRequest) :
    (r.greet now u).epoch ≤ (r.apply now u).1.epoch := by
  rcases r.apply_cases now u with ⟨hepoch, -⟩ | ⟨-, hto, hepoch, -⟩
  · exact Nat.le_of_eq hepoch.symm
  · rw [hepoch]
    exact hto

/-- As long as the receiver knows the same table, its epoch never goes back. -/
theorem epoch_le_applyAll {r : Receiver} {arrivals : List Arrival}
    (h : ∀ seen, seen <+: arrivals → (r.applyAll seen).tableId = r.tableId) :
    r.epoch ≤ (r.applyAll arrivals).epoch := by
  induction arrivals generalizing r with
  | nil => exact Nat.le_refl _
  | cons a as ih =>
    let next := (r.apply a.now a.update).1
    have hnext : next.tableId = r.tableId :=
      h [a] (List.cons_prefix_cons.2 ⟨rfl, List.nil_prefix⟩)
    have hknown : r.tableId = some a.update.tableId :=
      hnext.symm.trans (r.apply_tableId a.now a.update)
    have hfirst : r.epoch ≤ next.epoch := by
      have hle := r.greet_epoch_le_apply a.now a.update
      rwa [greet_epoch, if_pos hknown] at hle
    have hrest : next.epoch ≤ (next.applyAll as).epoch := ih fun seen hseen =>
      (h (a :: seen) (List.cons_prefix_cons.2 ⟨rfl, hseen⟩)).trans hnext.symm
    exact Nat.le_trans hfirst hrest

/-- If an update is applied, then its withdrawn prefixes have lost their routes and after that its
new routes were put in, in their order, so that the last one for a prefix wins.  It leads to the
epoch at which it ends.  It reports its withdrawn prefixes, in their order, and after them some of
the prefixes of its new routes, in their order, and every prefix is reported whose route is another
one than before.  If it is not applied, then the routes are those from before.  Over several
updates, the epoch never goes back as long as the known table stays the same. -/
theorem report_of_apply (r : Receiver) (now : Timestamp) (u : UpdateRequest) :
    let after := (r.apply now u).1
    (∀ report, (r.apply now u).2 = .applied report →
      after.routes = (u.newRoutes.map (·.fromPeer r.peer)).foldl RouteTable.insert
          (u.withdrawn.foldl RouteTable.erase r.routes) ∧
        (∀ p, after.route? p = u.outcome? r.peer p (r.route? p)) ∧
        after.epoch = u.toEpoch ∧
        (∀ p, after.route? p ≠ r.route? p → p ∈ report) ∧
        ∃ changed, changed.Sublist (u.newRoutes.map (·.target)) ∧
          report = u.withdrawn ++ changed) ∧
      ((∀ report, (r.apply now u).2 ≠ .applied report) → after.routes = r.routes) ∧
      ∀ arrivals, (∀ seen, seen <+: arrivals → (r.applyAll seen).tableId = r.tableId) →
        r.epoch ≤ (r.applyAll arrivals).epoch := by
  intro after
  refine ⟨fun report hreport => ?_, apply_routes_of_ne_applied, fun _ => epoch_le_applyAll⟩
  obtain ⟨hfrom, hto, hbeat⟩ := covers_of_apply_eq_applied hreport
  have happly := apply_eq_applyRoutes hfrom hto hbeat
  obtain ⟨-, hepoch, hroutes⟩ := apply_of_covers hfrom hto
  have hsnd : ((r.greet now u).applyRoutes u).2 = report := by
    rw [happly] at hreport
    cases hreport
    rfl
  refine ⟨?_, hroutes, hepoch, fun p hchanged => ?_, ?_⟩
  · have hafter : after = ((r.greet now u).applyRoutes u).1 := congrArg Prod.fst happly
    rw [hafter, applyRoutes_routes, greet_peer, greet_routes]
  · refine Decidable.byContradiction fun hmissing => hchanged (route?_apply_of_not_changed ?_)
    rw [hreport]
    exact hmissing
  · rw [← hsnd]
    exact exists_applyRoutes_snd_eq _ u

/-- The next update of the old table.  It withdraws both prefixes, brings back the old route and two
routes for the other prefix. -/
def readvertisement : Arrival where
  now := .origin
  update :=
    { (opening 1 oldTarget).update with
      fromEpoch := 1
      toEpoch := 4
      newRoutes := [⟨oldTarget, [], .replicate 5⟩, ⟨newTarget, [], .replicate 6⟩,
        ⟨newTarget, [], .replicate 5⟩]
      withdrawn := [newTarget, oldTarget] }

/-- A route that was withdrawn and brought back within an update is reported, although it is the one
from before. -/
theorem report_of_readvertisement :
    let u := readvertisement.update
    let after := (outdated.apply .origin u).1
    let report := [newTarget, oldTarget, oldTarget, newTarget, newTarget]
    (outdated.apply .origin u).2 = .applied report ∧
      after.route? oldTarget = outdated.route? oldTarget ∧
      after.route? newTarget = u.outcome? outdated.peer newTarget none ∧
      ∃ changed, changed.Sublist (u.newRoutes.map (·.target)) ∧
        report = u.withdrawn ++ changed := by
  intro u after report
  have hreport : (outdated.apply .origin u).2 = .applied report := by decide
  obtain ⟨-, hroutes, -, -, hordered⟩ := (report_of_apply outdated .origin u).1 report hreport
  exact ⟨hreport, by decide, hroutes newTarget, hordered⟩

end RouteSync.Receiver
