import RouteSync.Proofs.EpochLog
import RouteSync.Proofs.Node.Run

/-!
# What a node advertises

As long as settings and filter stay, the table of routes in use and the outgoing table change only
by `adopt`, one prefix at a time (`move_turns`).

Two facts hold of the outgoing table after every run.  Its log is truthful, and every move only adds
logged changes to it (`Turns.outgoing_follows`).  And as long as the address of the node, the global
prefix and the filter stay, it advertises for every prefix just the route that the node uses itself,
made ready to be passed on, unless the rules hold that route back (`Turns.agrees`).

The second fact needs an argument, since a refresh compares next hops only.  What was advertised for
a prefix came from the route that the node used for it so far, and a route is adopted only if its
next hop differs from that one's.  So where old and new advertisement have the same next hop, both
are absent (`adopt_agrees`).
-/

namespace RouteSync

open RouteEntry

namespace Node

/-! ### How the tables change -/

/-- One change of a node under which its settings and its filter stay: the local table and the
outgoing table stay as well, or a route is adopted for its own prefix. -/
inductive Turn : Node → Node → Prop where
  | aside {n n' : Node} : n'.settings = n.settings → n'.filter = n.filter →
      n'.localTable = n.localTable → n'.outgoing = n.outgoing → Turn n n'
  | adopt (n : Node) (p : Prefix) (route : Option Route) :
      (∀ r, route = some r → r.target = p) → Turn n (n.adopt p route)

/-- Several such changes. -/
def Turns : Node → Node → Prop :=
  Relation.ReflTransGen Turn

theorem Turns.refl (n : Node) : Turns n n := Relation.ReflTransGen.refl

theorem Turns.trans {n n' n'' : Node} (h : Turns n n') (h' : Turns n' n'') : Turns n n'' :=
  Relation.ReflTransGen.trans h h'

theorem Turns.aside {n n' : Node} (hsettings : n'.settings = n.settings)
    (hfilter : n'.filter = n.filter) (hlocal : n'.localTable = n.localTable)
    (houtgoing : n'.outgoing = n.outgoing) : Turns n n' :=
  Relation.ReflTransGen.single (.aside hsettings hfilter hlocal houtgoing)

theorem SameRouting.turns {n n' : Node} (h : SameRouting n n') : Turns n n' :=
  .aside h.settings h.filter h.localTable h.outgoing

theorem modifySession_turns (n : Node) (s : SessionId) (f : Session → Session) :
    Turns n (n.modifySession s f) :=
  .aside rfl rfl rfl rfl

theorem recompute_turns {n n' : Node} {p : Prefix} (h : n.recompute p = .ok n') :
    Turns n n' := by
  obtain ⟨best, hbest, rfl⟩ := recompute_eq_ok.1 h
  have hnote : Turns n (n.noteIncoming p best) := .aside rfl rfl rfl rfl
  refine hnote.tail (.adopt _ p _ fun r hr => ?_)
  exact target_of_select (fun i hi => target_of_bestPeerRoute (hi ▸ hbest)) hr

theorem StepsWith.turns {intake : Intake} {n n' : Node} (h : StepsWith intake n n') :
    Turns n n' := by
  refine h.induction (motive := Turns n) (fun stale n₁ n₂ hchange hn => hn.trans ?_)
    (fun _ _ _ hok hn => hn.trans (recompute_turns hok)) (.refl n)
  cases hchange with
  | aside hsame => exact hsame.turns
  | codec => exact .aside rfl rfl rfl rfl
  | originate hroutes => exact .aside rfl rfl rfl rfl
  | track _ htrack =>
    obtain ⟨-, -, rfl⟩ := track_eq_ok htrack
    exact .aside rfl rfl rfl rfl
  | detach hs hheld => exact .aside rfl rfl rfl rfl
  | receive => exact modifySession_turns _ _ _
  | clear => exact modifySession_turns _ _ _
  | sender => exact modifySession_turns _ _ _

/-- Whether a move leaves the settings and the filter as they are. -/
def Move.KeepsPolicy : Move → Prop
  | .configure _ | .filter _ => False
  | _ => True

theorem move_turns (n : Node) {m : Move} (hm : m.KeepsPolicy) : Turns n (n.move m) := by
  cases m with
  | filter filter => exact hm.elim
  | configure settings => exact hm.elim
  | direct directory => exact .aside rfl rfl rfl rfl
  | track session =>
    show Turns n (((n.track session).map Prod.fst).toOption.getD n)
    cases htrack : n.track session with
    | error e => exact .refl n
    | ok result =>
      obtain ⟨n', s⟩ := result
      obtain ⟨-, -, rfl⟩ := track_eq_ok htrack
      exact .aside rfl rfl rfl rfl
  | useSession s use => exact modifySession_turns n s use
  | _ => exact StepsWith.turns (move_steps n trivial)

/-! ### The log of the outgoing table -/

theorem adopt_outgoing_follows (n : Node) (p : Prefix) (route : Option Route) :
    LoggedTable.Follows n.settings.maxLogLength n.outgoing (n.adopt p route).outgoing := by
  unfold adopt
  split
  · exact Relation.ReflTransGen.refl
  · exact LoggedTable.refresh_follows n.exportPolicy _ n.outgoing p

theorem adopt_settings (n : Node) (p : Prefix) (route : Option Route) :
    (n.adopt p route).settings = n.settings := by
  unfold adopt
  split <;> rfl

theorem adopt_filter (n : Node) (p : Prefix) (route : Option Route) :
    (n.adopt p route).filter = n.filter := by
  unfold adopt
  split <;> rfl

theorem Turns.settings_eq {n n' : Node} (h : Turns n n') : n'.settings = n.settings := by
  induction h with
  | refl => rfl
  | tail _ hturn ih =>
    rw [← ih]
    cases hturn with
    | aside hsettings => exact hsettings
    | adopt p route => exact adopt_settings _ p route

theorem Turns.filter_eq {n n' : Node} (h : Turns n n') : n'.filter = n.filter := by
  induction h with
  | refl => rfl
  | tail _ hturn ih =>
    rw [← ih]
    cases hturn with
    | aside _ hfilter => exact hfilter
    | adopt p route => exact adopt_filter _ p route

theorem Turns.outgoing_follows {n n' : Node} (h : Turns n n') :
    LoggedTable.Follows n.settings.maxLogLength n.outgoing n'.outgoing := by
  induction h with
  | refl => exact Relation.ReflTransGen.refl
  | @tail n₁ n₂ hturns hturn ih =>
    refine ih.trans ?_
    cases hturn with
    | aside _ _ _ houtgoing => exact houtgoing ▸ Relation.ReflTransGen.refl
    | adopt p route =>
      rw [← Turns.settings_eq hturns]
      exact adopt_outgoing_follows n₁ p route

/-- What refreshing keeps of an outgoing table, such changes keep. -/
theorem Turns.outgoing_induction {motive : LoggedTable → Prop}
    (hrefresh : ∀ policy routes p t, motive t → motive (LoggedTable.refresh policy routes t p))
    {n n' : Node} (h : Turns n n') (hn : motive n.outgoing) : motive n'.outgoing := by
  induction h with
  | refl => exact hn
  | tail _ hturn ih =>
    cases hturn with
    | aside _ _ _ houtgoing =>
      rw [houtgoing]
      exact ih
    | adopt p route =>
      unfold adopt
      split
      · exact ih
      · exact hrefresh _ _ p _ ih

/-- A move that changes the settings or the filter leaves all tables alone. -/
theorem move_turns_or_same (n : Node) (m : Move) :
    Turns n (n.move m) ∨
      (n.move m).localTable = n.localTable ∧ (n.move m).outgoing = n.outgoing := by
  cases m with
  | filter filter => exact .inr ⟨rfl, rfl⟩
  | configure settings => exact .inr ⟨rfl, rfl⟩
  | _ => exact .inl (move_turns n trivial)

theorem move_outgoing_follows (n : Node) (m : Move) :
    LoggedTable.Follows n.settings.maxLogLength n.outgoing (n.move m).outgoing := by
  rcases move_turns_or_same n m with h | ⟨-, h⟩
  · exact h.outgoing_follows
  · exact h ▸ Relation.ReflTransGen.refl

/-- What refreshing keeps of an outgoing table, a move keeps. -/
theorem move_outgoing_induction {motive : LoggedTable → Prop}
    (hrefresh : ∀ policy routes p t, motive t → motive (LoggedTable.refresh policy routes t p))
    {n : Node} (h : motive n.outgoing) (m : Move) : motive (n.move m).outgoing := by
  rcases move_turns_or_same n m with hturns | ⟨-, hsame⟩
  · exact hturns.outgoing_induction hrefresh h
  · rw [hsame]
    exact h

theorem move_outgoing_coherent {n : Node} (h : n.outgoing.Coherent) (m : Move) :
    (n.move m).outgoing.Coherent :=
  move_outgoing_induction (fun policy routes p _ ht => ht.refresh policy routes p) h m

/-- After every run the log of the outgoing table is truthful.  Every further move changes the table
only by changes that are logged one after the other, so that its epoch never falls and no prefix
gets lost. -/
theorem outgoing_coherent_of_run (settings : Settings) (directory : Directory) (codec : Codec)
    (filter : Option (Prefix → Route → Bool)) (id : TableId) (links : List Link)
    (moves : List Move) (m : Move) :
    let n := (fresh settings directory codec filter id links).run moves
    n.outgoing.Coherent ∧
      LoggedTable.Follows n.settings.maxLogLength n.outgoing (n.move m).outgoing ∧
      n.outgoing.epoch ≤ (n.move m).outgoing.epoch ∧
      n.outgoing.routes.keys ⊆ (n.move m).outgoing.routes.keys := by
  intro n
  have hfollows := move_outgoing_follows n m
  refine ⟨?_, hfollows, hfollows.epoch_le, hfollows.keys_subset⟩
  exact run_induction (motive := fun n => n.outgoing.Coherent)
    (fun n m _ h => move_outgoing_coherent h m) (LoggedTable.coherent_empty id)

/-! ### The advertised routes -/

theorem advertised_nextHop {policy : ExportPolicy} {p : Prefix} {own : Option Route} {r : Route}
    (h : policy.advertised p own = some r) : own.map Route.nextHop = some r.nextHop := by
  obtain ⟨s, rfl, rfl⟩ := ExportPolicy.forwarded_of_advertised h
  rfl

/-- What a table advertises for a prefix; a withdrawal counts as nothing. -/
def advertisedRoute? (t : LoggedTable) (p : Prefix) : Option Route :=
  (t.get? p).bind RouteUpdate.route

theorem map_nextHop_advertisedRoute? (t : LoggedTable) (p : Prefix) :
    (advertisedRoute? t p).map Route.nextHop = (t.get? p).bind nextHop? := by
  rw [advertisedRoute?]
  cases t.get? p <;> rfl

theorem advertisedRoute?_record_prune (t : LoggedTable) (p : Prefix) (route : Option Route)
    (limit : Nat) (q : Prefix) :
    advertisedRoute? ((t.record p route).prune limit) q =
      if q = p then route else advertisedRoute? t q := by
  rw [advertisedRoute?, LoggedTable.get?_prune, LoggedTable.get?_record]
  split <;> rfl

/-- Where the advertisement has the right next hop, a refresh does nothing. -/
theorem refresh_of_advertisedRoute? {policy : ExportPolicy} {routes : RouteTable Route}
    {t : LoggedTable} {p : Prefix}
    (h : (advertisedRoute? t p).map Route.nextHop =
      (policy.advertised p (routes.get? p)).map Route.nextHop) :
    t.refresh policy routes p = t := by
  rw [map_nextHop_advertisedRoute?] at h
  rw [LoggedTable.refresh, if_pos h]

/-- If all other prefixes are up to date, then a refresh logs one change at most.  The prefixes below
need none. -/
theorem refresh_eq {policy : ExportPolicy} {routes : RouteTable Route} {t : LoggedTable}
    {p : Prefix}
    (hothers : ∀ q, q ≠ p → advertisedRoute? t q = policy.advertised q (routes.get? q)) :
    t.refresh policy routes p =
      if (advertisedRoute? t p).map Route.nextHop =
        (policy.advertised p (routes.get? p)).map Route.nextHop then t
      else (t.record p (policy.advertised p (routes.get? p))).prune policy.maxLogLength := by
  split
  · rename_i hsame
    exact refresh_of_advertisedRoute? hsame
  · rename_i hchanged
    have hlogged : ∀ q, advertisedRoute?
        ((t.record p (policy.advertised p (routes.get? p))).prune policy.maxLogLength) q =
          policy.advertised q (routes.get? q) := by
      intro q
      rw [advertisedRoute?_record_prune]
      split
      · rename_i hq
        rw [hq]
      · rename_i hq
        exact hothers q hq
    rw [map_nextHop_advertisedRoute?] at hchanged
    rw [LoggedTable.refresh, if_neg hchanged]
    refine List.foldlRecOn (motive := fun t' => t' = (t.record p
      (policy.advertised p (routes.get? p))).prune policy.maxLogLength) _ _ rfl ?_
    rintro _ rfl s -
    exact refresh_of_advertisedRoute? (congrArg _ (hlogged s.1))

/-- If all other prefixes are up to date, and this one is wherever its next hop is, then a refresh
makes everything up to date. -/
theorem refresh_agrees {policy : ExportPolicy} {routes : RouteTable Route} {t : LoggedTable}
    {p : Prefix}
    (hothers : ∀ q, q ≠ p → advertisedRoute? t q = policy.advertised q (routes.get? q))
    (hp : (advertisedRoute? t p).map Route.nextHop =
        (policy.advertised p (routes.get? p)).map Route.nextHop →
      advertisedRoute? t p = policy.advertised p (routes.get? p)) (q : Prefix) :
    advertisedRoute? (t.refresh policy routes p) q = policy.advertised q (routes.get? q) := by
  rw [refresh_eq hothers]
  split
  · rename_i hsame
    by_cases hq : q = p
    · rw [hq]
      exact hp hsame
    · exact hothers q hq
  · rw [advertisedRoute?_record_prune]
    split
    · rename_i hq
      rw [hq]
    · rename_i hq
      exact hothers q hq

/-- If all other prefixes are up to date, then a refresh leaves their entries alone, epochs
included. -/
theorem get?_refresh {policy : ExportPolicy} {routes : RouteTable Route} {t : LoggedTable}
    {p q : Prefix}
    (hothers : ∀ q, q ≠ p → advertisedRoute? t q = policy.advertised q (routes.get? q))
    (hq : q ≠ p) : (t.refresh policy routes p).get? q = t.get? q := by
  rw [refresh_eq hothers]
  split
  · rfl
  · rw [LoggedTable.get?_prune, LoggedTable.get?_record, if_neg hq]

/-- The node advertises just what its rules make of the routes that it uses. -/
def Agrees (n : Node) : Prop :=
  ∀ p, advertisedRoute? n.outgoing p = n.exportPolicy.advertised p (n.localTable.get? p)

theorem adopt_agrees {n : Node} (h : n.Agrees) {p : Prefix} {route : Option Route}
    (htarget : ∀ r, route = some r → r.target = p) : (n.adopt p route).Agrees := by
  unfold adopt
  split
  · exact h
  · rename_i hchanged
    refine refresh_agrees ?_ ?_
    · intro q hq
      rw [RouteTable.get?_set _ htarget, if_neg hq]
      exact h q
    · rw [RouteTable.get?_set _ htarget, if_pos rfl, h p]
      intro hsame
      -- Equal next hops of two advertisements are next hops of the old and of the new route.
      cases hnew : n.exportPolicy.advertised p route with
      | none =>
        rw [hnew, Option.map_none, Option.map_eq_none_iff] at hsame
        exact hsame
      | some r =>
        rw [hnew, Option.map_some, Option.map_eq_some_iff] at hsame
        obtain ⟨old, hold, hnextHop⟩ := hsame
        rw [advertised_nextHop hold, advertised_nextHop hnew, hnextHop] at hchanged
        exact absurd rfl hchanged

theorem Turns.agrees {n n' : Node} (h : Turns n n') (hn : n.Agrees) : n'.Agrees := by
  induction h with
  | refl => exact hn
  | tail _ hturn ih =>
    cases hturn with
    | aside hsettings hfilter hlocal houtgoing =>
      intro p
      rw [hlocal, houtgoing, exportPolicy, hsettings, hfilter]
      exact ih p
    | adopt p route htarget => exact adopt_agrees ih htarget

/-- Whether a move keeps the rules of a node: its address, the global prefix and the filter. -/
def Move.KeepsRules (settings : Settings) : Move → Prop
  | .configure s => s.operator = settings.operator ∧ s.globalPrefix = settings.globalPrefix
  | .filter _ => False
  | _ => True

/-- A node under the rules of given settings and a given filter that advertises what they say. -/
structure Governed (settings : Settings) (filter : Option (Prefix → Route → Bool)) (n : Node) :
    Prop where
  operator : n.settings.operator = settings.operator
  globalPrefix : n.settings.globalPrefix = settings.globalPrefix
  filter_eq : n.filter = filter
  agrees : n.Agrees

theorem Governed.move {settings : Settings} {filter : Option (Prefix → Route → Bool)} {n : Node}
    (h : n.Governed settings filter) {m : Move} (hm : m.KeepsRules settings) :
    (n.move m).Governed settings filter := by
  have hturns : Turns n (n.move m) → (n.move m).Governed settings filter := fun hturns =>
    ⟨by rw [hturns.settings_eq, h.operator], by rw [hturns.settings_eq, h.globalPrefix],
      by rw [hturns.filter_eq, h.filter_eq], hturns.agrees h.agrees⟩
  cases m with
  | filter filter => exact hm.elim
  | configure s =>
    refine ⟨hm.1, hm.2, h.filter_eq, fun p => (h.agrees p).trans ?_⟩
    show n.exportPolicy.advertised p _ = ExportPolicy.advertised _ p _
    rw [exportPolicy, exportPolicy, h.operator, h.globalPrefix]
    simp only [Node.move, hm.1, hm.2]
    rfl
  | _ => exact hturns (move_turns n trivial)

/-- After every run that keeps the rules, a node advertises for each prefix the route that it uses
itself with its own address in front of the path and the tag hashed once more, unless the rules hold
that route back.  Operations of the run may have failed. -/
theorem outgoing_agrees_of_run {settings : Settings} {directory : Directory} {codec : Codec}
    {filter : Option (Prefix → Route → Bool)} {id : TableId} {links : List Link}
    {moves : List Move} (hmoves : ∀ m ∈ moves, m.KeepsRules settings) (p : Prefix) :
    let n := (fresh settings directory codec filter id links).run moves
    advertisedRoute? n.outgoing p =
        ((n.localTable.get? p).map (·.forwarded settings.operator)).filter
          (n.exportPolicy.allows p) ∧
      ∀ r, advertisedRoute? n.outgoing p = some r →
        ∃ own, n.localTable.get? p = some own ∧ r.target = p ∧ r.nextHop = own.nextHop ∧
          r.path = settings.operator :: own.path ∧ r.auth = nextTag own.auth := by
  intro n
  have hn : n.Governed settings filter :=
    run_induction (fun n m hm h => h.move (hmoves m hm)) ⟨rfl, rfl, rfl, fun _ => rfl⟩
  rw [← hn.operator]
  refine ⟨hn.agrees p, fun r hr => ?_⟩
  rw [hn.agrees p] at hr
  obtain ⟨own, hown, rfl⟩ := ExportPolicy.forwarded_of_advertised hr
  exact ⟨own, hown, RouteTable.target_of_get? hown, rfl, rfl, rfl⟩

/-- The secret and the static routes may change in between.  The static route is still in use, and
it is advertised. -/
theorem outgoing_agrees_of_reconfigured :
    let moves : List Move :=
      [.reload, .configure { smallSettings with routingSecret := .replicate 9, staticRoutes := [] },
        .reload]
    let n := small.run moves
    (∀ m ∈ moves, m.KeepsRules smallSettings) ∧
      advertisedRoute? n.outgoing smallTarget =
        ((n.localTable.get? smallTarget).map (·.forwarded smallSettings.operator)).filter
          (n.exportPolicy.allows smallTarget) ∧
      ∃ r, advertisedRoute? n.outgoing smallTarget = some r ∧
        ∃ own, n.localTable.get? smallTarget = some own ∧ r.target = smallTarget ∧
          r.nextHop = own.nextHop ∧ r.path = smallSettings.operator :: own.path ∧
          r.auth = nextTag own.auth := by
  intro moves n
  have hmoves : ∀ m ∈ moves, m.KeepsRules smallSettings := by
    simp [moves, Move.KeepsRules]
  obtain ⟨hadvertised, hroutes⟩ := outgoing_agrees_of_run hmoves smallTarget
  have hsome : (advertisedRoute? n.outgoing smallTarget).isSome = true := by decide +kernel
  obtain ⟨r, hr⟩ := Option.isSome_iff_exists.1 hsome
  exact ⟨hmoves, hadvertised, r, hr, hroutes r hr⟩

end Node

end RouteSync
