import RouteSync.Proofs.Lookup
import RouteSync.Proofs.Node.Coherence

/-!
# The routes that a node makes itself

They have an empty path and carry the tag of the node (`Route.IsSelfMade`), so the account that one
of them leads through is all that it says (`Route.IsSelfMade.eq`).  Which routes a node makes hangs
on its settings and its directory alone (`ownRoutes_congr`).  As long as these stay, the table of
these routes stays as well once it was made (`StepsWith.originated_eq`).
-/

namespace RouteSync

open RouteEntry

/-- A route with an empty path and the tag that the owner of the secret gives to its prefix. -/
structure Route.IsSelfMade (secret : Bytes32) (r : Route) : Prop where
  path_eq : r.path = []
  auth_eq : r.auth = originTag secret r.target

theorem Route.originated_isSelfMade (target : Prefix) (nextHop : AccountId) (secret : Bytes32) :
    (originated target nextHop secret).IsSelfMade secret :=
  ⟨rfl, rfl⟩

/-- Self-made routes for one prefix through one account are the same. -/
theorem Route.IsSelfMade.eq {secret : Bytes32} {r s : Route} (hr : r.IsSelfMade secret)
    (hs : s.IsSelfMade secret) (htarget : r.target = s.target) (hnextHop : r.nextHop = s.nextHop) :
    r = s := by
  have hpath : r.path = s.path := hr.path_eq.trans hs.path_eq.symm
  have hauth : r.auth = s.auth := by rw [hr.auth_eq, hs.auth_eq, htarget]
  cases r
  cases s
  cases htarget
  cases hnextHop
  cases hpath
  cases hauth
  rfl

namespace Node

/-- The routes that a node makes itself are the one to its own address, the default route and those
to its children. -/
theorem ownRoutes_eq_ok {n : Node} {routes : List Route} (h : n.ownRoutes = .ok routes) :
    ∃ account children, n.defaultAccount = .ok account ∧
      n.directory.children.mapM n.childRoute = .ok children ∧
      routes = Route.originated n.settings.operatorPrefix AccountId.self n.settings.routingSecret ::
        Route.originated n.settings.globalPrefix account n.settings.routingSecret :: children := by
  rw [ownRoutes] at h
  cases haccount : n.defaultAccount with
  | error e =>
    rw [haccount] at h
    cases h
  | ok account =>
    cases hchildren : n.directory.children.mapM n.childRoute with
    | error e =>
      rw [haccount, hchildren] at h
      cases h
    | ok children =>
      rw [haccount, hchildren] at h
      cases h
      exact ⟨account, children, rfl, rfl, rfl⟩

theorem childRoute_isSelfMade {n : Node} {child : Account} {r : Route}
    (h : n.childRoute child = .ok r) : r.IsSelfMade n.settings.routingSecret := by
  rw [childRoute] at h
  cases hp : n.childPrefix child.id with
  | error e =>
    rw [hp] at h
    cases h
  | ok p =>
    rw [hp] at h
    cases h
    exact Route.originated_isSelfMade p child.id n.settings.routingSecret

theorem ownRoutes_isSelfMade {n : Node} {routes : List Route} (h : n.ownRoutes = .ok routes)
    {r : Route} (hr : r ∈ routes) : r.IsSelfMade n.settings.routingSecret := by
  obtain ⟨account, children, -, hchildren, rfl⟩ := ownRoutes_eq_ok h
  rcases List.mem_cons.1 hr with rfl | hr
  · exact Route.originated_isSelfMade _ _ _
  · rcases List.mem_cons.1 hr with rfl | hr
    · exact Route.originated_isSelfMade _ _ _
    · obtain ⟨child, -, hchild⟩ := exists_of_mem_mapM hchildren hr
      exact childRoute_isSelfMade hchild

theorem ownRoutes_congr {n n' : Node} (hsettings : n'.settings = n.settings)
    (hdirectory : n'.directory = n.directory) : n'.ownRoutes = n.ownRoutes := by
  have hchild : n'.childRoute = n.childRoute := by
    funext child
    simp only [childRoute, childPrefix, hsettings]
  simp only [ownRoutes, defaultAccount, hchild, hsettings, hdirectory]

/-- The table that a reload makes of routes. -/
def ownTable (routes : List Route) : RouteTable Route :=
  routes.foldl RouteTable.insert RouteTable.empty

theorem get?_ownTable (routes : List Route) (p : Prefix) :
    (ownTable routes).get? p = (routes.filter (·.target == p)).getLast? := by
  rw [ownTable, RouteTable.get?_foldl_insert, RouteTable.get?_empty, Option.or_none]
  rfl

theorem mem_of_get?_ownTable {routes : List Route} {p : Prefix} {r : Route}
    (h : (ownTable routes).get? p = some r) : r ∈ routes := by
  rw [get?_ownTable] at h
  exact (List.mem_filter.1 (List.mem_of_getLast? h)).1

theorem isSome_get?_ownTable {routes : List Route} {r : Route} (h : r ∈ routes) :
    ((ownTable routes).get? r.target).isSome = true := by
  rw [get?_ownTable, List.getLast?_isSome]
  exact List.ne_nil_of_mem (List.mem_filter.2 ⟨h, beq_self_eq_true _⟩)

/-- There is always a route to the node's own address among them. -/
theorem isSome_get?_ownTable_operatorPrefix {n : Node} {routes : List Route}
    (h : n.ownRoutes = .ok routes) :
    ((ownTable routes).get? n.settings.operatorPrefix).isSome = true := by
  obtain ⟨account, children, -, -, rfl⟩ := ownRoutes_eq_ok h
  exact isSome_get?_ownTable List.mem_cons_self

/-! ### The table of these routes -/

theorem Retabled.originated {n n' : Node} (h : Retabled n n') : n'.originated = n.originated := by
  rw [h]

/-- A change leaves the table of the node's own routes alone or makes it anew. -/
theorem Change.originated_cases {intake : Intake} {stale : List Prefix} {n n' : Node}
    (h : Change intake stale n n') :
    n'.originated = n.originated ∨
      ∃ routes, n.ownRoutes = .ok routes ∧ n'.originated = ownTable routes := by
  cases h with
  | aside hsame => exact .inl hsame.originated
  | originate hroutes => exact .inr ⟨_, hroutes, rfl⟩
  | track _ htrack =>
    obtain ⟨-, -, rfl⟩ := track_eq_ok htrack
    exact .inl rfl
  | _ => exact .inl rfl

/-- Once it was made, the table of the node's own routes stays. -/
theorem StepsWith.originated_eq {intake : Intake} {n n' : Node}
    (h : StepsWith intake n n') {routes : List Route} (hroutes : n.ownRoutes = .ok routes)
    (hn : n.originated = ownTable routes) : n'.originated = ownTable routes := by
  have hmade : n'.ownRoutes = .ok routes ∧ n'.originated = ownTable routes := by
    refine h.induction (motive := fun n => n.ownRoutes = .ok routes ∧
      n.originated = ownTable routes) ?_ ?_ ⟨hroutes, hn⟩
    · rintro stale n₁ n₂ hchange ⟨hroutes, hn⟩
      have hunsettles := hchange.unsettles
      refine ⟨(ownRoutes_congr hunsettles.settings hunsettles.directory).trans hroutes, ?_⟩
      rcases hchange.originated_cases with hsame | ⟨routes', hroutes', hmade⟩
      · exact hsame.trans hn
      · rw [hroutes] at hroutes'
        cases hroutes'
        exact hmade
    · rintro n₁ p n₂ hok ⟨hroutes, hn⟩
      rw [recompute_retabled hok]
      exact ⟨hroutes, hn⟩
  exact hmade.2

theorem reload_originated {n : Node} (h : n.reload.2 = .ok ()) :
    ∃ routes, n.ownRoutes = .ok routes ∧ n.reload.1.originated = ownTable routes := by
  unfold Node.reload at h ⊢
  split
  · rename_i hroutes
    rw [hroutes] at h
    cases h
  · rename_i routes hroutes
    exact ⟨routes, hroutes, (recomputeAll_retabled _ _).originated⟩

/-! ### After a reload -/

/-- A node after a reload that succeeded: its own routes are in place, and its tables fit together
at every prefix. -/
structure Settled (settings : Settings) (directory : Directory) (routes : List Route) (n : Node) :
    Prop where
  settings_eq : n.settings = settings
  directory_eq : n.directory = directory
  ownRoutes_eq : n.ownRoutes = .ok routes
  originated_eq : n.originated = ownTable routes
  tidy : n.Tidy
  coherentAt : ∀ p, n.CoherentAt p

theorem Settled.steps {settings : Settings} {directory : Directory} {routes : List Route}
    {n n' : Node} (h : n.Settled settings directory routes) (hsteps : Steps n n') :
    n'.Settled settings directory routes := by
  have hkeeps := hsteps.keeps
  exact {
    settings_eq := hkeeps.settings.trans h.settings_eq
    directory_eq := hkeeps.directory.trans h.directory_eq
    ownRoutes_eq := (ownRoutes_congr hkeeps.settings hkeeps.directory).trans h.ownRoutes_eq
    originated_eq := hsteps.originated_eq h.ownRoutes_eq h.originated_eq
    tidy := hkeeps.tidy h.tidy
    coherentAt := fun p => hkeeps.coherent h.tidy p List.not_mem_nil (h.coherentAt p) }

/-- A reload that succeeds settles a node, whatever happened since it was built. -/
theorem settled_of_reload {settings : Settings} {directory : Directory} {codec : Codec}
    {filter : Option (Prefix → Route → Bool)} {id : TableId} {links : List Link}
    {moves : List Move} (hmoves : ∀ m ∈ moves, m.IsRoutine)
    (hreload : ((fresh settings directory codec filter id links).run moves).reload.2 = .ok ()) :
    ∃ routes, (((fresh settings directory codec filter id links).run moves).move .reload).Settled
      settings directory routes := by
  have hkeeps := run_keeps (n := fresh settings directory codec filter id links) hmoves
  have hafter := hkeeps.trans (reload_keeps _)
  obtain ⟨routes, hroutes, hmade⟩ := reload_originated hreload
  obtain ⟨htidy, hcoherent⟩ := hkeeps.coherent_reload hreload
  refine ⟨routes, hafter.settings, hafter.directory, ?_, hmade, htidy, hcoherent⟩
  rw [← hroutes]
  exact ownRoutes_congr (reload_keeps _).settings (reload_keeps _).directory

end Node

end RouteSync
