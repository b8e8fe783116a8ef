import RouteSync.Proofs.Node.Admission
import RouteSync.Proofs.Node.Lineage

/-!
# What a node tells its peers stays within its borders

Whatever a node advertises lies in the global prefix without being all of it, does not lie strictly
below the node's own address, and has the node's address at the head of its path and nowhere else
(`exports_of_run`).  Peers may send what they like, and the filter, the directory and the settings
other than address and global prefix may change.

The checks on export see one route at a time: a customer's route is known by its path, which names
the node alone, and no check looks for the node's address in the rest of the path.  That they
suffice is due to the checks on import.  They keep routes for prefixes at or below the node's
address and routes with its address in their path out of every receiver, so that routes in use are
as `borderLaw` says.
-/

namespace RouteSync

/-- No route of a peer has the node's own address in its path or a prefix at or below it.  The
routes that a node uses at or below its own address have an empty path. -/
def borderLaw (settings : Settings) : RouteLaw where
  settings s := s.operator = settings.operator ∧ s.globalPrefix = settings.globalPrefix
  held r := settings.operator ∉ r.path ∧ r.target.startsWith settings.operatorPrefix = false
  used r := settings.operator ∉ r.path ∧
    (r.target.startsWith settings.operatorPrefix = true → r.path = [])
  selfMade _ _ r hr := by
    rw [hr.path_eq]
    exact ⟨List.not_mem_nil, fun _ => rfl⟩
  learned r hr := by
    obtain ⟨hpath, htarget⟩ := hr
    refine ⟨hpath, fun hbelow => ?_⟩
    have hbelow : r.target.startsWith settings.operatorPrefix = true := hbelow
    rw [htarget] at hbelow
    cases hbelow

/-- What is let in respects the borders. -/
theorem borderLaw_passes {settings : Settings} {n : Node}
    (h : (borderLaw settings).settings n.settings) (session : Session) (u : UpdateRequest) :
    (borderLaw settings).Passes n session u := by
  intro r hr
  have hadmits := (List.mem_filter.1 hr).2
  simp only [Settings.admits, Settings.operatorPrefix, h.1, Bool.and_eq_true, Bool.not_eq_eq_eq_not,
    Bool.not_true] at hadmits
  obtain ⟨⟨-, htarget⟩, hpath⟩ := hadmits
  have hpath : settings.operator ∉ r.path := by simpa using hpath
  exact ⟨hpath, htarget⟩

/-- What is advertised by a node that respects the borders. -/
theorem borderLaw_exports {settings : Settings} {p : Prefix} {r : Route}
    (h : (borderLaw settings).Exports p r) :
    r.target = p ∧ p.root = settings.globalPrefix ∧ p ≠ settings.globalPrefix ∧
      (p.startsWith settings.operatorPrefix = true → p = settings.operatorPrefix) ∧
      ∃ rest, r.path = settings.operator :: rest ∧ settings.operator ∉ rest := by
  obtain ⟨s, policy, own, ⟨hoperator, hglobal⟩, hpolicy, hpolicyGlobal, ⟨hpath, hbelow⟩, rfl, hr⟩ :=
    h
  have hoperator : policy.operator = settings.operator := hpolicy.trans hoperator
  have hglobal : policy.globalPrefix = settings.globalPrefix := hpolicyGlobal.trans hglobal
  rw [ExportPolicy.advertised, Option.map_some, Option.filter_eq_some_iff, Option.some.injEq] at hr
  obtain ⟨rfl, hallows⟩ := hr
  simp only [ExportPolicy.allows, ExportPolicy.isCustomerRoute, hoperator, hglobal,
    Bool.and_eq_true, beq_iff_eq, bne_iff_ne] at hallows
  obtain ⟨⟨⟨hroot, hne⟩, hcustomer⟩, -⟩ := hallows
  refine ⟨rfl, hroot, hne, fun hstarts => ?_, own.path, by rw [Route.forwarded, hoperator], hpath⟩
  -- Below the node's address the path in use is empty, so the route counts as a customer's.
  by_contra hproper
  have hlength : (own.forwarded policy.operator).path.length = 1 := by
    rw [Route.forwarded, hbelow hstarts]
    rfl
  have hlength : (own.forwarded settings.operator).path.length = 1 := hoperator ▸ hlength
  have hstarts : own.target.startsWith settings.operator.toPrefix = true := hstarts
  have hproper : own.target ≠ settings.operator.toPrefix := hproper
  simp [hlength, hstarts, hproper] at hcustomer

namespace Node

/-- A table advertises a route for a prefix if one of its entries has it. -/
theorem advertisedRoute?_eq_some {t : LoggedTable} {p : Prefix} {r : Route} :
    advertisedRoute? t p = some r ↔ ∃ u ∈ t.routes.entries, u.target = p ∧ u.route = some r := by
  rw [advertisedRoute?, Option.bind_eq_some_iff]
  constructor
  · rintro ⟨u, hu, hr⟩
    exact ⟨u, RouteTable.mem_of_get? hu, LoggedTable.target_of_get? hu, hr⟩
  · rintro ⟨u, hu, rfl, hr⟩
    exact ⟨u, RouteTable.get?_of_mem _ hu, hr⟩

/-- Whether a move keeps the address of a node and its global prefix, and adds routes of peers by
packets only. -/
def Move.KeepsBorders (settings : Settings) : Move → Prop
  | .configure s => s.operator = settings.operator ∧ s.globalPrefix = settings.globalPrefix
  | .track session => ∀ p, session.receiver.route? p = none
  | .useSession _ use => ∀ session p r, (use session).receiver.route? p = some r →
      session.receiver.route? p = some r
  | _ => True

/-- A law that allows the settings with the node's address and global prefix, and under which the
updates of peers pass, is respected by such a move. -/
theorem Move.KeepsBorders.respects {law : RouteLaw} {settings : Settings} {n : Node} {m : Move}
    (h : m.KeepsBorders settings)
    (hsettings : ∀ s : Settings, s.operator = settings.operator →
      s.globalPrefix = settings.globalPrefix → law.settings s)
    (hpasses : ∀ session u, law.Passes n session u) : m.Respects law n := by
  cases m with
  | configure s => exact hsettings s h.1 h.2
  | track session =>
    intro p i hi
    rw [h p] at hi
    cases hi
  | useSession s use =>
    intro session hfills p i hi
    exact hfills p i (h session p i hi)
  | packet now account packet => exact fun _ session u _ _ _ _ => hpasses session u
  | _ => trivial

theorem Obeys.move_of_keepsBorders {settings : Settings} {n : Node}
    (h : n.Obeys (borderLaw settings)) {m : Move} (hm : m.KeepsBorders settings) :
    (n.move m).Obeys (borderLaw settings) :=
  h.move (hm.respects (fun _ => And.intro) fun session u => borderLaw_passes h.settings session u)

/-- In every run that keeps the node's address and the global prefix, every route that the outgoing
table advertises stands under its own prefix.  This lies in the global prefix, is not the global
prefix itself, and is not strictly below the node's address.  The path begins with the node's
address and has it nowhere else. -/
theorem exports_of_run {settings : Settings} {directory : Directory} {codec : Codec}
    {filter : Option (Prefix → Route → Bool)} {id : TableId} {links : List Link}
    {moves : List Move} (hmoves : ∀ m ∈ moves, m.KeepsBorders settings) :
    let n := (fresh settings directory codec filter id links).run moves
    ∀ u ∈ n.outgoing.routes.entries, ∀ r, u.route = some r →
      n.outgoing.get? r.target = some u ∧
      r.target.root = settings.globalPrefix ∧ r.target ≠ settings.globalPrefix ∧
      (r.target.startsWith settings.operatorPrefix = true → r.target = settings.operatorPrefix) ∧
      ∃ rest, r.path = settings.operator :: rest ∧ settings.operator ∉ rest := by
  intro n u hu r hr
  have hstart : (fresh settings directory codec filter id links).Obeys (borderLaw settings) :=
    @obeys_fresh (borderLaw settings) settings ⟨rfl, rfl⟩ directory codec filter id links
  have hn : n.Obeys (borderLaw settings) :=
    run_induction (fun _ m hm h => h.move_of_keepsBorders (hmoves m hm)) hstart
  have hadvertised : advertisedRoute? n.outgoing u.target = some r :=
    advertisedRoute?_eq_some.2 ⟨u, hu, rfl, hr⟩
  obtain ⟨htarget, hborders⟩ := borderLaw_exports (hn.outgoing u.target r hadvertised)
  rw [htarget]
  exact ⟨RouteTable.get?_of_mem _ hu, hborders⟩

/-- The peer of the small node advertises a route and then one that went through the node before.
The first one is passed on. -/
theorem exports_of_looping_peer :
    let through : List Address := [⟨"g.far".toList, by decide⟩]
    let moves : List Move :=
      [.event ⟨smallPeer.id, .connected⟩, (routeThrough through 0).move smallPeer.id,
        (routeThrough [smallSettings.operator] 1).move smallPeer.id]
    let n := small.run moves
    (∀ m ∈ moves, m.KeepsBorders smallSettings) ∧
      ∃ r, advertisedRoute? n.outgoing remote = some r ∧ r.target = remote ∧
        ∃ rest, r.path = smallSettings.operator :: rest ∧ smallSettings.operator ∉ rest := by
  intro through moves n
  have hmoves : ∀ m ∈ moves, m.KeepsBorders smallSettings := by
    simp [moves, Move.KeepsBorders, Delivery.move]
  have hsome : (advertisedRoute? n.outgoing remote).isSome = true := by decide +kernel
  obtain ⟨r, hr⟩ := Option.isSome_iff_exists.1 hsome
  obtain ⟨u, hu, htarget, hroute⟩ := advertisedRoute?_eq_some.1 hr
  -- The parameters are given since unification would run the node in search of them.
  obtain ⟨hget, -, -, -, hpath⟩ := @exports_of_run smallSettings smallDirectory .json none
    ⟨List.replicate 16 1, by decide⟩ [{ account := smallPeer.id }] moves hmoves u hu r hroute
  exact ⟨hmoves, r, hr, (LoggedTable.target_of_get? hget).symm.trans htarget, hpath⟩

end Node

end RouteSync
