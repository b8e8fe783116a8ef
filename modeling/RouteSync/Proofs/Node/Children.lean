import RouteSync.Proofs.Node.OwnAddresses

/-!
# The addresses of children

The address of a child is the node's own address with the child's id at the end.  An id is one
segment, so the only thing that can go wrong is the length (`Address.withSuffix_eq_ok_iff`), and the
regions of two children do not overlap (`eq_of_startsWith_of_childPrefix`).

At and below the prefix of a child the node uses self-made routes only, and makes none itself but
the one for the child, unless the global prefix lies there (`Settled.get?_ownTable_eq_none`).  So
every address there that no static route covers leads to the child, whatever its peers have sent
(`findRoute_child_of_run`).
-/

namespace RouteSync

open RouteEntry

/-! ### Ids as segments -/

namespace AccountId

theorem dot_notMem_chars (id : AccountId) : '.' ∉ id.chars :=
  dot_notMem_of_isSegment id.wellFormed

/-- An id is a single segment. -/
theorem segmentsOf_chars (id : AccountId) : segmentsOf id.chars = [id.chars] :=
  segmentsOf_eq_singleton id.dot_notMem_chars

end AccountId

namespace Address

/-- An address with an id at the end has one segment more. -/
theorem segmentsOf_append_id (a : Address) (id : AccountId) :
    segmentsOf (a.chars ++ '.' :: id.chars) = a.segments ++ [id.chars] := by
  rw [segmentsOf_append_dot, id.segmentsOf_chars]
  rfl

theorem isAddressText_append_id (a : Address) (id : AccountId) :
    isAddressText (a.chars ++ '.' :: id.chars) = true ↔
      byteLength a.chars + 1 + byteLength id.chars ≤ maxTextBytes := by
  have ha := a.wellFormed
  simp only [isAddressText, isPrefixText, areSegments, Bool.and_eq_true, decide_eq_true_eq] at ha
  obtain ⟨⟨-, hsegments, hscheme⟩, -⟩ := ha
  have hall : (a.segments ++ [id.chars]).all isSegment = true := by
    rw [List.all_append, Bool.and_eq_true]
    exact ⟨hsegments, by rw [List.all_cons, id.wellFormed]; rfl⟩
  have hhead : (a.segments ++ [id.chars]).head?.any schemes.contains = true := by
    rw [segments, List.head?_append_of_ne_nil _ (segmentsOf_ne_nil a.chars)]
    exact hscheme
  have hdot : (a.chars ++ '.' :: id.chars).contains '.' = true := by simp
  have hlength : byteLength (a.chars ++ '.' :: id.chars) =
      byteLength a.chars + 1 + byteLength id.chars := by
    rw [byteLength_append, Nat.add_assoc]
    rfl
  rw [isAddressText, isPrefixText, segmentsOf_append_id, areSegments, hall, hhead, hdot, hlength]
  simp

/-- An id can be put at the end of an address just if the text does not get too long. -/
theorem withSuffix_eq_ok_iff {a b : Address} {id : AccountId} :
    a.withSuffix id.chars = .ok b ↔
      byteLength a.chars + 1 + byteLength id.chars ≤ maxTextBytes ∧
        b.chars = a.chars ++ '.' :: id.chars := by
  rw [withSuffix, parse, String.toList_ofList, ofChars?, ← isAddressText_append_id]
  by_cases h : isAddressText (a.chars ++ '.' :: id.chars) = true
  · rw [dif_pos h]
    cases b
    simp [h, eq_comm]
  · rw [dif_neg h]
    simp [h]

theorem exists_withSuffix_iff (a : Address) (id : AccountId) :
    (∃ b, a.withSuffix id.chars = .ok b) ↔
      byteLength a.chars + 1 + byteLength id.chars ≤ maxTextBytes := by
  constructor
  · rintro ⟨b, hb⟩
    exact (withSuffix_eq_ok_iff.1 hb).1
  · intro hlength
    exact ⟨⟨_, (a.isAddressText_append_id id).2 hlength⟩, withSuffix_eq_ok_iff.2 ⟨hlength, rfl⟩⟩

theorem segments_of_withSuffix {a b : Address} {id : AccountId}
    (h : a.withSuffix id.chars = .ok b) : b.segments = a.segments ++ [id.chars] := by
  rw [segments, (withSuffix_eq_ok_iff.1 h).2, segmentsOf_append_id]

end Address

/-! ### Prefixes of children -/

namespace Node

theorem chars_of_childPrefix {n : Node} {id : AccountId} {p : Prefix}
    (h : n.childPrefix id = .ok p) : p.chars = n.settings.operator.chars ++ '.' :: id.chars := by
  unfold childPrefix at h
  split at h
  · rename_i address haddress
    cases h
    exact (Address.withSuffix_eq_ok_iff.1 haddress).2
  · cases h

/-- The prefix of a child lies strictly below the node's own address. -/
theorem isBelow_of_childPrefix {n : Node} {id : AccountId} {p : Prefix}
    (h : n.childPrefix id = .ok p) : p.IsBelow n.settings.operatorPrefix := by
  have hchars := chars_of_childPrefix h
  refine ⟨isAtOrBelow_iff.2 (.inr ⟨id.chars, hchars⟩), ?_⟩
  rintro rfl
  exact absurd (congrArg List.length hchars) (by simp [Settings.operatorPrefix, Address.toPrefix])

/-- The regions of two children overlap only if the children have the same id. -/
theorem eq_of_startsWith_of_childPrefix {n : Node} {id id' : AccountId} {p p' : Prefix}
    (h : n.childPrefix id = .ok p) (h' : n.childPrefix id' = .ok p')
    (hp : p.startsWith p' = true) : id = id' := by
  have hchars : id.chars = id'.chars := by
    rcases isAtOrBelow_iff.1 hp with hsame | ⟨rest, hrest⟩
    · rw [chars_of_childPrefix h, chars_of_childPrefix h', List.append_cancel_left_eq] at hsame
      exact (List.cons.inj hsame).2
    · rw [chars_of_childPrefix h, chars_of_childPrefix h', List.append_assoc,
        List.append_cancel_left_eq] at hrest
      have hdot : '.' ∈ id.chars := by
        rw [(List.cons.inj hrest).2]
        exact List.mem_append_right _ List.mem_cons_self
      exact absurd hdot id.dot_notMem_chars
  cases id
  cases id'
  cases hchars
  rfl

/-! ### The routes for children -/

theorem childRoute_eq_ok {n : Node} {child : Account} {r : Route}
    (h : n.childRoute child = .ok r) :
    n.childPrefix child.id = .ok r.target ∧ r.nextHop = child.id := by
  rw [childRoute] at h
  cases hp : n.childPrefix child.id with
  | error e =>
    rw [hp] at h
    cases h
  | ok p =>
    rw [hp] at h
    cases h
    exact ⟨rfl, rfl⟩

section

variable {settings : Settings} {directory : Directory} {routes : List Route} {n : Node}
  {c : Account} {p : Prefix}

/-- Of the routes that a node makes for the prefix of a child, the last one leads to the child. -/
theorem Settled.get?_ownTable_child (h : n.Settled settings directory routes)
    (hc : c ∈ directory.children) (hp : n.childPrefix c.id = .ok p) :
    ∃ r, (ownTable routes).get? p = some r ∧ r.nextHop = c.id := by
  obtain ⟨account, children, -, hchildren, hroutes⟩ := ownRoutes_eq_ok h.ownRoutes_eq
  rw [h.directory_eq] at hchildren
  obtain ⟨r, hr, hchild⟩ := exists_mem_of_mapM hchildren hc
  have htarget : r.target = p := by
    have hprefix := (childRoute_eq_ok hchild).1
    rw [hp] at hprefix
    exact (Except.ok.inj hprefix).symm
  -- The routes for children come last.
  have hmem : r ∈ children.filter (·.target == p) := List.mem_filter.2 ⟨hr, beq_iff_eq.2 htarget⟩
  obtain ⟨last, hlast⟩ := Option.isSome_iff_exists.1
    (List.getLast?_isSome.2 (List.ne_nil_of_mem hmem))
  obtain ⟨hlastMem, hlastTarget⟩ := List.mem_filter.1 (List.mem_of_getLast? hlast)
  obtain ⟨c', -, hchild'⟩ := exists_of_mem_mapM hchildren hlastMem
  obtain ⟨hprefix', hnextHop⟩ := childRoute_eq_ok hchild'
  rw [beq_iff_eq.1 hlastTarget] at hprefix'
  refine ⟨last, ?_, hnextHop.trans
    (eq_of_startsWith_of_childPrefix hprefix' hp p.startsWith_refl)⟩
  let others := [Route.originated n.settings.operatorPrefix AccountId.self n.settings.routingSecret,
    Route.originated n.settings.globalPrefix account n.settings.routingSecret]
  have hsplit : routes = others ++ children := hroutes
  rw [get?_ownTable, hsplit, List.filter_append, List.getLast?_append, hlast]
  rfl

/-- Below the prefix of a child a node makes no routes, unless the global prefix lies there. -/
theorem Settled.get?_ownTable_eq_none (h : n.Settled settings directory routes)
    (hp : n.childPrefix c.id = .ok p) (hglobal : ¬settings.globalPrefix.IsBelow p) {q : Prefix}
    (hq : q.IsBelow p) : (ownTable routes).get? q = none := by
  obtain ⟨account, children, -, hchildren, hroutes⟩ := ownRoutes_eq_ok h.ownRoutes_eq
  rw [Option.eq_none_iff_forall_ne_some]
  intro r hr
  have htarget : r.target = q := RouteTable.target_of_get? hr
  have hmem := mem_of_get?_ownTable hr
  rw [hroutes] at hmem
  rcases List.mem_cons.1 hmem with rfl | hmem
  · have hbelow := hq.of_startsWith (isBelow_of_childPrefix hp).1
    exact hbelow.2 htarget.symm
  · rcases List.mem_cons.1 hmem with rfl | hmem
    · have hq' : n.settings.globalPrefix = q := htarget
      rw [h.settings_eq] at hq'
      exact hglobal (hq'.symm ▸ hq)
    · obtain ⟨c', -, hchild⟩ := exists_of_mem_mapM hchildren hmem
      have hprefix := (childRoute_eq_ok hchild).1
      have hsame := eq_of_startsWith_of_childPrefix hprefix hp (htarget ▸ hq.1)
      rw [hsame, hp, htarget] at hprefix
      exact hq.2 (Except.ok.inj hprefix).symm

/-- A settled node sends everything for an address of a child to the child, if no static route
covers the address. -/
theorem Settled.findRoute_child (h : n.Settled settings directory routes) (hn : n.SelfReliant)
    (hc : c ∈ directory.children) (hp : n.childPrefix c.id = .ok p)
    (hglobal : ¬settings.globalPrefix.IsBelow p) {destination : Address}
    (hdestination : p.isPrefixOf destination = true)
    (hstatic : ∀ r ∈ settings.staticRoutes, r.target.startsWith p = true →
      r.target.isPrefixOf destination = false) :
    ∃ route, n.findRoute destination = some route ∧ route.nextHop = c.id := by
  have hoperator := (isBelow_of_childPrefix hp).1
  rw [h.settings_eq] at hoperator
  have hlocal : ∀ q, q.startsWith p = true → q.isPrefixOf destination = true →
      n.localTable.get? q = (ownTable routes).get? q := by
    intro q hq hcovers
    have hnone : settings.staticRoute? directory q = none := by
      refine staticRoute?_eq_none (fun hmem => ?_) directory
      obtain ⟨r, hr, rfl⟩ := List.mem_map.1 hmem
      rw [hstatic r hr hq] at hcovers
      cases hcovers
    rw [hn.get?_localTable (h.settings_eq.symm ▸ isAtOrBelow_trans hq hoperator) (h.coherentAt q),
      select, h.settings_eq, h.directory_eq, h.originated_eq, hnone, Option.map_none,
      Option.or_none, Option.none_or]
  obtain ⟨own, hown, hnextHop⟩ := h.get?_ownTable_child hc hp
  have hentry : (n.localTable.get? p).isSome = true := by
    rw [hlocal p p.startsWith_refl hdestination, hown]
    rfl
  obtain ⟨q, r, hq, hr, hfound, -⟩ :=
    RouteTable.lookup_eq_of_isPrefixOf hdestination hentry fun _ _ => rfl
  have hcovers : q.isPrefixOf destination = true := by
    rcases n.localTable.lookup_cases destination with ⟨q', hmatch, hlookup⟩ | ⟨hnone, -⟩
    · rw [hfound] at hlookup
      have hsame : q' = q :=
        (RouteTable.target_of_get? hlookup.symm).symm.trans (RouteTable.target_of_get? hr)
      exact hsame ▸ hmatch.isPrefixOf
    · rw [hnone p hdestination] at hentry
      cases hentry
  rw [hlocal q hq hcovers] at hr
  have hqp : q = p := by
    by_contra hne
    rw [h.get?_ownTable_eq_none hp hglobal ⟨hq, hne⟩] at hr
    cases hr
  rw [hqp, hown] at hr
  cases hr
  exact ⟨own, hfound, hnextHop⟩

end

/-- **Children get what is sent to their addresses.**  An id can be put at the end of an address
just if the text takes no more bytes than an address may, and adds one segment to it.  After a
reload that succeeded, under the same settings and the same directory and whatever the peers send,
every child has a prefix, those of children with different ids do not overlap, and packets for an
address at or below the prefix of a child go to the child, provided that the global prefix does not
lie below that prefix and no static route for a prefix there covers the address. -/
theorem findRoute_child_of_run {settings : Settings} {directory : Directory} {codec : Codec}
    {filter : Option (Prefix → Route → Bool)} {tableId : TableId} {links : List Link}
    {before after : List Move} (hbefore : ∀ m ∈ before, m.IsRoutine)
    (hreload : ((fresh settings directory codec filter tableId links).run before).reload.2 = .ok ())
    (hafter : ∀ m ∈ after, m.IsRoutine) :
    let n := (((fresh settings directory codec filter tableId links).run before).move .reload).run
      after
    (∀ (a : Address) (id : AccountId),
      ((∃ b, a.withSuffix id.chars = .ok b) ↔
        byteLength a.chars + 1 + byteLength id.chars ≤ maxTextBytes) ∧
      ∀ b, a.withSuffix id.chars = .ok b → b.segments = a.segments ++ [id.chars]) ∧
    ∀ c ∈ directory.children, ∃ p, n.childPrefix c.id = .ok p ∧
      (∀ c' ∈ directory.children, c'.id ≠ c.id → ∃ p', n.childPrefix c'.id = .ok p' ∧
        p.startsWith p' = false ∧ p'.startsWith p = false) ∧
      (¬settings.globalPrefix.IsBelow p → ∀ destination, p.isPrefixOf destination = true →
        (∀ r ∈ settings.staticRoutes, r.target.startsWith p = true →
          r.target.isPrefixOf destination = false) →
        ∃ route, n.findRoute destination = some route ∧ route.nextHop = c.id) := by
  intro n
  have hsteps : Steps (((fresh settings directory codec filter tableId links).run before).move
    .reload) n := run_steps hafter
  obtain ⟨routes, hreloaded⟩ := settled_of_reload hbefore hreload
  have hsettled : n.Settled settings directory routes := hreloaded.steps hsteps
  have hreliant : n.SelfReliant :=
    hsteps.selfReliant ((run_steps hbefore).selfReliant (selfReliant_fresh ..)).reload
  have hprefix : ∀ c ∈ directory.children, ∃ p, n.childPrefix c.id = .ok p := by
    intro c hc
    obtain ⟨account, children, -, hchildren, -⟩ := ownRoutes_eq_ok hsettled.ownRoutes_eq
    rw [hsettled.directory_eq] at hchildren
    obtain ⟨r, -, hchild⟩ := exists_mem_of_mapM hchildren hc
    exact ⟨r.target, (childRoute_eq_ok hchild).1⟩
  refine ⟨fun a id => ⟨a.exists_withSuffix_iff id, fun b => Address.segments_of_withSuffix⟩,
    fun c hc => ?_⟩
  obtain ⟨p, hp⟩ := hprefix c hc
  refine ⟨p, hp, fun c' hc' hne => ?_, fun hglobal destination hdestination hstatic =>
    hsettled.findRoute_child hreliant hc hp hglobal hdestination hstatic⟩
  obtain ⟨p', hp'⟩ := hprefix c' hc'
  refine ⟨p', hp', Bool.eq_false_iff.2 fun hover => ?_, Bool.eq_false_iff.2 fun hover => ?_⟩
  · exact hne (eq_of_startsWith_of_childPrefix hp hp' hover).symm
  · exact hne (eq_of_startsWith_of_childPrefix hp' hp hover)

/-- A child. -/
def kid : Account where
  id := ⟨"kid".toList, by decide⟩
  relationship := .child

/-- The peer of the small node and the child. -/
def family : Directory where
  accounts := [smallPeer, kid]
  links := [(smallPeer.id, ⟨0⟩)]

/-- A peer offers a route for an address of the child, and the child keeps getting what is sent to
it. -/
theorem findRoute_child_of_claimed :
    let phone : Address := ⟨"g.near.kid.phone".toList, by decide⟩
    let offer : UpdateRequest :=
      { tableId := ⟨List.replicate 16 2, by decide⟩, currentEpoch := 1, fromEpoch := 0, toEpoch := 1
        holdDownTime := 30000, speaker := ⟨"g.far".toList, by decide⟩
        newRoutes := [⟨phone.toPrefix, [], .replicate 3⟩], withdrawn := [] }
    let home := fresh smallSettings family .json none ⟨List.replicate 16 1, by decide⟩
      [{ account := smallPeer.id }]
    let before : List Move := [.listen, .register smallPeer.id]
    let after : List Move := [.event ⟨smallPeer.id, .connected⟩,
      .packet .origin smallPeer.id (messagePacket updateDestination offer.toTree.write .origin)]
    let n := ((home.run before).move .reload).run after
    (∀ m ∈ before, m.IsRoutine) ∧ (home.run before).reload.2 = .ok () ∧
      (∀ m ∈ after, m.IsRoutine) ∧ kid ∈ family.children ∧
      ∃ route, n.findRoute phone = some route ∧ route.nextHop = kid.id := by
  intro phone offer home before after n
  have hbefore : ∀ m ∈ before, m.IsRoutine := by simp [before, Move.IsRoutine]
  have hafter : ∀ m ∈ after, m.IsRoutine := by simp [after, Move.IsRoutine]
  have hroutes : (home.run before).ownRoutes.toOption.isSome = true := by decide +kernel
  have hreload : (home.run before).reload.2 = .ok () :=
    reload_eq_ok ((run_keeps hbefore).tidy (tidy_fresh ..))
      (eq_ok_of_toOption (Option.some_get hroutes).symm)
  have hkid : kid ∈ family.children := by decide
  obtain ⟨-, hchildren⟩ := findRoute_child_of_run hbefore hreload hafter
  obtain ⟨p, hp, -, hfound⟩ := hchildren kid hkid
  have hsettings : n.settings = smallSettings := by
    have hreloads : Move.reload.IsRoutine := trivial
    rw [(run_keeps hafter).settings, (move_keeps (home.run before) hreloads).settings]
    exact (run_keeps hbefore).settings
  have hchars : p.chars = "g.near.kid".toList := by
    rw [chars_of_childPrefix hp, hsettings]
    rfl
  have hprefix : p = ⟨"g.near.kid".toList, by decide⟩ := by
    cases p
    cases hchars
    rfl
  subst hprefix
  have hglobal : ¬smallSettings.globalPrefix.IsBelow ⟨"g.near.kid".toList, by decide⟩ :=
    fun hbelow => absurd hbelow.1 (by decide)
  have hphone : Prefix.isPrefixOf ⟨"g.near.kid".toList, by decide⟩ phone = true := by decide
  have hstatic : ∀ r ∈ smallSettings.staticRoutes,
      r.target.startsWith ⟨"g.near.kid".toList, by decide⟩ = true →
        r.target.isPrefixOf phone = false := by
    decide
  exact ⟨hbefore, hreload, hafter, hkid, hfound hglobal phone hphone hstatic⟩

end Node

end RouteSync
