import RouteSync.Node.Selection
import RouteSync.Proofs.Ranking

/-!
# What choosing a route anew does

Choosing the route for a prefix anew notes the best peer route and adopts the choice
(`recompute_eq_ok`).  It changes the three tables that are made from other data, and nothing else
(`Retabled`).  Whatever one such choice keeps is kept by a list of them (`recomputeAll_induction`,
`recomputeEach_induction`).
-/

namespace RouteSync.Node

open RouteEntry

/-! ### Where chosen routes lead to -/

/-- The best peer route is one that a tracked peer advertises. -/
theorem mem_peerRoutes_of_bestPeerRoute {n : Node} {p : Prefix} {r : IncomingRoute}
    (h : n.bestPeerRoute p = .ok (some r)) : some r ∈ n.peerRoutes p := by
  rw [bestPeerRoute] at h
  cases hbest : n.directory.bestRoute (n.peerRoutes p) with
  | error e =>
    rw [hbest] at h
    cases h
  | ok best =>
    rw [hbest] at h
    cases h
    exact Directory.mem_of_bestRoute hbest

theorem target_of_bestPeerRoute {n : Node} {p : Prefix} {r : IncomingRoute}
    (h : n.bestPeerRoute p = .ok (some r)) : r.target = p := by
  have hmem := mem_peerRoutes_of_bestPeerRoute h
  rw [peerRoutes, List.mem_map] at hmem
  obtain ⟨session, -, hroute⟩ := hmem
  exact RouteTable.target_of_get? hroute

theorem target_of_staticRoute? {s : Settings} {d : Directory} {p : Prefix} {r : Route}
    (h : s.staticRoute? d p = some r) : r.target = p := by
  unfold Settings.staticRoute? at h
  split at h
  · split at h
    · cases h
      rfl
    · cases h
  · cases h

/-- The targets of the static routes. -/
def staticTargets (settings : Settings) : List Prefix :=
  settings.staticRoutes.map (·.target)

theorem staticRoute?_eq_none {settings : Settings} {p : Prefix} (h : p ∉ staticTargets settings)
    (directory : Directory) : settings.staticRoute? directory p = none := by
  have hfind : settings.staticRoutes.find? (·.target == p) = none := by
    rw [List.find?_eq_none]
    intro r hr htarget
    exact h (List.mem_map.2 ⟨r, hr, beq_iff_eq.1 htarget⟩)
  rw [Settings.staticRoute?, hfind]

theorem target_of_select {n : Node} {p : Prefix} {peerRoute : Option IncomingRoute}
    (hpeer : ∀ r, peerRoute = some r → r.target = p) {r : Route}
    (h : n.select p peerRoute = some r) : r.target = p := by
  rw [select, Option.or_eq_some_iff, Option.or_eq_some_iff] at h
  rcases h with (h | ⟨-, h⟩) | ⟨-, h⟩
  · exact target_of_staticRoute? h
  · exact RouteTable.target_of_get? h
  · rw [Option.map_eq_some_iff] at h
    obtain ⟨i, hi, rfl⟩ := h
    exact hpeer i hi

/-! ### One choice -/

theorem recompute_eq_ok {n n' : Node} {p : Prefix} :
    n.recompute p = .ok n' ↔
      ∃ best, n.bestPeerRoute p = .ok best ∧
        n' = (n.noteIncoming p best).adopt p (n.select p best) := by
  rw [recompute]
  cases n.bestPeerRoute p with
  | error e =>
    constructor
    · intro h
      cases h
    · rintro ⟨best, h, -⟩
      cases h
  | ok best =>
    constructor
    · intro h
      cases h
      exact ⟨best, rfl, rfl⟩
    · rintro ⟨best', h, rfl⟩
      cases h
      rfl

/-- The node `n'` differs from `n` at most in the tables that are made from other data. -/
def Retabled (n n' : Node) : Prop :=
  n' = { n with
    incoming := n'.incoming, localTable := n'.localTable, outgoing := n'.outgoing }

theorem Retabled.refl (n : Node) : Retabled n n := rfl

theorem Retabled.trans {n n' n'' : Node} (h : Retabled n n') (h' : Retabled n' n'') :
    Retabled n n'' := by
  rw [Retabled] at h h' ⊢
  rw [h] at h'
  exact h'

theorem adopt_retabled (n : Node) (p : Prefix) (route : Option Route) :
    Retabled n (n.adopt p route) := by
  unfold adopt
  split <;> rfl

theorem recompute_retabled {n n' : Node} {p : Prefix} (h : n.recompute p = .ok n') :
    Retabled n n' := by
  obtain ⟨best, -, rfl⟩ := recompute_eq_ok.1 h
  have hnote : Retabled n (n.noteIncoming p best) := rfl
  exact hnote.trans (adopt_retabled _ p _)

theorem Retabled.bestPeerRoute {n n' : Node} (h : Retabled n n') (p : Prefix) :
    n'.bestPeerRoute p = n.bestPeerRoute p := by
  rw [h]
  rfl

/-! ### Several choices -/

theorem recomputeAll_induction {motive : Node → Prop}
    (hstep : ∀ n p n', n.recompute p = .ok n' → motive n → motive n') {n : Node}
    (hn : motive n) (ps : List Prefix) : motive (n.recomputeAll ps).1 := by
  induction ps generalizing n with
  | nil => exact hn
  | cons p ps ih =>
    rw [recomputeAll]
    cases hp : n.recompute p with
    | error e => exact hn
    | ok n' => exact ih (hstep n p n' hp hn)

theorem recomputeEach_induction {motive : Node → Prop}
    (hstep : ∀ n p n', n.recompute p = .ok n' → motive n → motive n') {n : Node}
    (hn : motive n) (ps : List Prefix) : motive (n.recomputeEach ps) := by
  refine List.foldlRecOn ps _ hn fun n' hn' p _ => ?_
  cases hp : n'.recompute p with
  | error e => exact hn'
  | ok n'' => exact hstep n' p n'' hp hn'

/-- What choosing anew brings about for a prefix and later choices keep holds in the end for all
prefixes that were chosen for, as long as each choice can be made. -/
theorem recomputeAll_settles {Q : Node → Prefix → Prop}
    (hchosen : ∀ (n : Node) p n', n.recompute p = .ok n' → Q n' p)
    (hkept : ∀ (n : Node) p n' q, n.recompute p = .ok n' → Q n q → Q n' q) {n : Node}
    {ps : List Prefix}
    (hps : ∀ p ∈ ps, ∃ best, n.bestPeerRoute p = .ok best) :
    (n.recomputeAll ps).2 = .ok () ∧ ∀ q, q ∈ ps ∨ Q n q → Q (n.recomputeAll ps).1 q := by
  induction ps generalizing n with
  | nil => exact ⟨rfl, fun q hq => hq.resolve_left List.not_mem_nil⟩
  | cons p ps ih =>
    obtain ⟨best, hbest⟩ := hps p List.mem_cons_self
    have hn' := recompute_eq_ok.2 ⟨best, hbest, rfl⟩
    have hsame := (recompute_retabled hn').bestPeerRoute
    obtain ⟨hok, hsettled⟩ := ih fun q hq => by
      rw [hsame q]
      exact hps q (List.mem_cons_of_mem p hq)
    rw [recomputeAll, hn']
    refine ⟨hok, fun q hq => hsettled q ?_⟩
    rcases hq with hmem | hq
    · rcases List.mem_cons.1 hmem with rfl | hmem
      · exact .inr (hchosen _ _ _ hn')
      · exact .inl hmem
    · exact .inr (hkept _ _ _ q hn' hq)

theorem recomputeAll_retabled (n : Node) (ps : List Prefix) :
    Retabled n (n.recomputeAll ps).1 :=
  recomputeAll_induction (fun _ _ _ h hn => hn.trans (recompute_retabled h)) (.refl n) ps

theorem recomputeEach_retabled (n : Node) (ps : List Prefix) : Retabled n (n.recomputeEach ps) :=
  recomputeEach_induction (fun _ _ _ h hn => hn.trans (recompute_retabled h)) (.refl n) ps

end RouteSync.Node
