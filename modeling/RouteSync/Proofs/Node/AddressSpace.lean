import RouteSync.Proofs.Node.Exports
import RouteSync.Proofs.Segments

/-!
# The address space that a node routes in

The global prefix of a node names the part of the address space that it routes in: routes for
anything else are neither let in nor advertised.  What should pass is said by means of the tree of
prefixes, on import by `Settings.Welcomes` and on export by `ExportPolicy.Releases`: the target lies
strictly below the global prefix, and each side has its further conditions.

The filters themselves compare the root of the target with the global prefix.  A prefix starts with
its root and with no other root, so this is the same as long as the global prefix is a single
segment.  Of several segments it is the root of nothing, and no route passes either filter
(`filters_of_globalPrefix`).  A node with such a global prefix never learns a route from a peer and
never advertises one, not even the route to itself (`isolated_of_run`).
-/

namespace RouteSync

/-! ### What should pass -/

/-- Whether a route of a peer should be let in: it lies in the node's address space, leads neither
to the node nor below it, and did not go through the node. -/
structure Settings.Welcomes (s : Settings) (r : AdvertisedRoute) : Prop where
  inside : r.target.IsBelow s.globalPrefix
  foreign : r.target.startsWith s.operatorPrefix = false
  loopFree : s.operator ∉ r.path

/-- Whether a route that was made ready to be passed on should be advertised: it lies in the node's
address space, is not that of a customer, and is not covered by a shorter prefix. -/
structure ExportPolicy.Releases (policy : ExportPolicy) (p : Prefix) (r : Route) : Prop where
  inside : p.IsBelow policy.globalPrefix
  notCustomers : ¬(p.IsBelow policy.operator.toPrefix ∧ r.path.length = 1)
  notSuppressed : policy.suppresses p r = false

/-! ### What the filters ask -/

/-- To have a root that is the global prefix is to lie in the address space of a global prefix that
is a root. -/
theorem Prefix.root_eq_and_ne_iff {p q : Prefix} :
    p.root = q ∧ p ≠ q ↔ q.isRoot = true ∧ p.IsBelow q := by
  rw [root_eq_iff, IsBelow, and_assoc]

theorem Settings.admits_iff {s : Settings} {r : AdvertisedRoute} :
    s.admits r = true ↔ s.globalPrefix.isRoot = true ∧ s.Welcomes r := by
  simp only [admits, Bool.and_eq_true, beq_iff_eq, bne_iff_ne, Bool.not_eq_eq_eq_not, Bool.not_true,
    List.contains_eq_mem, decide_eq_false_iff_not]
  rw [Prefix.root_eq_and_ne_iff]
  constructor
  · rintro ⟨⟨⟨hroot, hinside⟩, hforeign⟩, hpath⟩
    exact ⟨hroot, hinside, hforeign, hpath⟩
  · rintro ⟨hroot, hinside, hforeign, hpath⟩
    exact ⟨⟨⟨hroot, hinside⟩, hforeign⟩, hpath⟩

theorem ExportPolicy.isCustomerRoute_iff {policy : ExportPolicy} {p : Prefix} {r : Route} :
    policy.isCustomerRoute p r = true ↔ p.IsBelow policy.operator.toPrefix ∧ r.path.length = 1 := by
  simp only [isCustomerRoute, Bool.and_eq_true, bne_iff_ne, beq_iff_eq]
  rw [Prefix.IsBelow, and_comm (a := p ≠ policy.operator.toPrefix)]

theorem ExportPolicy.allows_iff {policy : ExportPolicy} {p : Prefix} {r : Route} :
    policy.allows p r = true ↔ policy.globalPrefix.isRoot = true ∧ policy.Releases p r := by
  simp only [allows, Bool.and_eq_true, beq_iff_eq, bne_iff_ne, Bool.not_eq_eq_eq_not, Bool.not_true,
    ← Bool.not_eq_true (policy.isCustomerRoute p r)]
  rw [Prefix.root_eq_and_ne_iff, isCustomerRoute_iff]
  constructor
  · rintro ⟨⟨⟨hroot, hinside⟩, hcustomer⟩, hsuppressed⟩
    exact ⟨hroot, hinside, hcustomer, hsuppressed⟩
  · rintro ⟨hroot, hinside, hcustomer, hsuppressed⟩
    exact ⟨⟨⟨hroot, hinside⟩, hcustomer⟩, hsuppressed⟩

/-! ### Global prefixes of several segments -/

theorem UpdateRequest.newRoutes_admitted_of_not_isRoot {s : Settings}
    (h : s.globalPrefix.isRoot = false) (u : UpdateRequest) : (u.admitted s).newRoutes = [] := by
  refine List.filter_eq_nil_iff.2 fun r _ hadmits => ?_
  rw [(Settings.admits_iff.1 hadmits).1] at h
  cases h

theorem ExportPolicy.advertised_of_not_isRoot {policy : ExportPolicy}
    (h : policy.globalPrefix.isRoot = false) (p : Prefix) (route : Option Route) :
    policy.advertised p route = none := by
  refine Option.filter_eq_none_iff.2 fun r _ hallows => ?_
  rw [(allows_iff.1 hallows).1] at h
  cases h

namespace Node

/-- **The filters agree on the address space if the global prefix is a single segment.**  Then an
update keeps the new routes that should be let in, and what may be advertised is what should be.
If the global prefix has several segments, an update keeps no new route and nothing is advertised,
whatever route the node uses itself. -/
theorem filters_of_globalPrefix (n : Node) :
    (n.settings.globalPrefix.isRoot = true →
      (∀ (u : UpdateRequest) r, r ∈ (u.admitted n.settings).newRoutes ↔
        r ∈ u.newRoutes ∧ n.settings.Welcomes r) ∧
      ∀ p r, n.exportPolicy.allows p r = true ↔ n.exportPolicy.Releases p r) ∧
    (n.settings.globalPrefix.isRoot = false →
      (∀ u : UpdateRequest, (u.admitted n.settings).newRoutes = []) ∧
      ∀ p route, n.exportPolicy.advertised p route = none) := by
  refine ⟨fun hroot => ⟨fun u r => ?_, fun p r => ?_⟩, fun hseveral => ⟨?_, ?_⟩⟩
  · rw [UpdateRequest.admitted, List.mem_filter, Settings.admits_iff, and_iff_right hroot]
  · exact ExportPolicy.allows_iff.trans (and_iff_right hroot)
  · exact UpdateRequest.newRoutes_admitted_of_not_isRoot hseveral
  · exact ExportPolicy.advertised_of_not_isRoot hseveral

/-- The small node inside of a network, which is all that it routes in. -/
def smallInNetwork : Node :=
  fresh { smallSettings with
    operator := ⟨"g.net.near".toList, by decide⟩
    globalPrefix := ⟨"g.net".toList, by decide⟩ } smallDirectory .json none small.outgoing.id
    [{ account := smallPeer.id }]

/-- A route to another node of the network should be let in and, prefixed with the node's address,
passed on.  It is dropped by both filters. -/
theorem filters_of_network :
    let n := smallInNetwork
    let far : AdvertisedRoute := ⟨⟨"g.net.far".toList, by decide⟩, [], .replicate 3⟩
    let u : UpdateRequest := { (routeThrough [] 0).update with newRoutes := [far] }
    let r := (far.fromPeer smallPeer.id).toRoute.forwarded n.settings.operator
    far ∈ u.newRoutes ∧ n.settings.Welcomes far ∧ far ∉ (u.admitted n.settings).newRoutes ∧
      n.exportPolicy.Releases far.target r ∧ n.exportPolicy.allows far.target r = false := by
  intro n far u r
  have hwelcomes : n.settings.Welcomes far :=
    ⟨⟨by decide, by decide⟩, by decide, List.not_mem_nil⟩
  have hreleases : n.exportPolicy.Releases far.target r :=
    ⟨hwelcomes.inside, fun hcustomer => absurd hcustomer.1.1 (by decide), rfl⟩
  exact ⟨List.mem_singleton_self far, hwelcomes, by decide, hreleases, by decide⟩

/-! ### Nodes that no route passes -/

/-- Receivers hold no route, under any global prefix of several segments. -/
def isolationLaw : RouteLaw where
  settings s := s.globalPrefix.isRoot = false
  held _ := False
  used _ := True
  selfMade _ _ _ _ := trivial
  learned _ h := h.elim

theorem isolationLaw_passes {n : Node} (h : n.settings.globalPrefix.isRoot = false)
    (session : Session) (u : UpdateRequest) : isolationLaw.Passes n session u := by
  intro r hr
  rw [UpdateRequest.newRoutes_admitted_of_not_isRoot h] at hr
  cases hr

theorem isolationLaw_exports {p : Prefix} {r : Route} : ¬isolationLaw.Exports p r := by
  rintro ⟨s, policy, own, hseveral, -, hglobal, -, -, hadvertised⟩
  have hseveral : policy.globalPrefix.isRoot = false := hglobal ▸ hseveral
  rw [ExportPolicy.advertised_of_not_isRoot hseveral] at hadvertised
  cases hadvertised

/-- **A node whose global prefix has several segments is cut off.**  In every run that keeps such a
global prefix, no receiver ever holds a route and the outgoing table advertises none, whatever the
peers send and whatever routes the node uses. -/
theorem isolated_of_run {settings : Settings} (hseveral : settings.globalPrefix.isRoot = false)
    {directory : Directory} {codec : Codec} {filter : Option (Prefix → Route → Bool)} {id : TableId}
    {links : List Link} {moves : List Move} (hmoves : ∀ m ∈ moves, m.KeepsBorders settings) :
    let n := (fresh settings directory codec filter id links).run moves
    (∀ s session, n.session? s = some session → ∀ p, session.receiver.route? p = none) ∧
      ∀ p, advertisedRoute? n.outgoing p = none := by
  intro n
  have hstart : (fresh settings directory codec filter id links).Obeys isolationLaw :=
    @obeys_fresh isolationLaw settings hseveral directory codec filter id links
  have hn : n.Obeys isolationLaw := by
    refine run_induction (fun n' m hm hn' => hn'.move ?_) hstart
    refine (hmoves m hm).respects (fun s _ hglobal => ?_) (isolationLaw_passes hn'.settings)
    exact (congrArg Prefix.isRoot hglobal).trans hseveral
  refine ⟨fun s session hsession p => ?_, fun p => ?_⟩
  · exact Option.eq_none_iff_forall_ne_some.2 fun i hi => hn.receivers s session hsession p i hi
  · exact Option.eq_none_iff_forall_ne_some.2 fun r hr => isolationLaw_exports (hn.outgoing p r hr)

end Node

end RouteSync
