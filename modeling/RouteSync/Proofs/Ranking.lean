import Mathlib.Data.List.Nodup
import RouteSync.Ranking

/-!
# The best route is determined by the routes alone

`compareRanked` is a total preorder, and among routes of different peers it has no ties.  So the
best of several routes is the one that beats all others (`IsBest`), whatever the order in which they
are compared and however many absent ones stand between them (`isBest_of_bestRoute`,
`bestRoute_congr`).  There is no choice just where a peer has no weight
(`exists_bestRoute_eq_error_iff`); all of this together is `isBest_bestRoute_of_nodup`.
-/

namespace RouteSync

open Std

instance : TransOrd AccountId :=
  inferInstanceAs (TransCmp (compareOn AccountId.chars))

theorem AccountId.eq_of_compare {a b : AccountId} (h : compare a b = .eq) : a = b := by
  have hchars : a.chars = b.chars := LawfulEqOrd.eq_of_compare h
  cases a
  cases b
  simpa using hchars

/-! ### Computations for every member of a list -/

theorem mapM_cons_eq_ok {ε α β : Type} {f : α → Except ε β} {a : α} {as : List α} {bs : List β}
    (h : (a :: as).mapM f = .ok bs) :
    ∃ b bs', f a = .ok b ∧ as.mapM f = .ok bs' ∧ bs = b :: bs' := by
  rw [List.mapM_cons] at h
  cases ha : f a with
  | error e =>
    rw [ha] at h
    cases h
  | ok b =>
    cases has : as.mapM f with
    | error e =>
      rw [ha, has] at h
      cases h
    | ok bs' =>
      rw [ha, has] at h
      cases h
      exact ⟨b, bs', rfl, rfl, rfl⟩

/-- If the computations succeed, so does each of them. -/
theorem exists_mem_of_mapM {ε α β : Type} {f : α → Except ε β} {as : List α} {bs : List β}
    (h : as.mapM f = .ok bs) {a : α} (ha : a ∈ as) : ∃ b ∈ bs, f a = .ok b := by
  induction as generalizing bs with
  | nil => cases ha
  | cons a' as ih =>
    obtain ⟨b, bs', hb, has, rfl⟩ := mapM_cons_eq_ok h
    rcases List.mem_cons.1 ha with rfl | ha
    · exact ⟨b, List.mem_cons_self, hb⟩
    · obtain ⟨b', hb', hfa⟩ := ih has ha
      exact ⟨b', List.mem_cons_of_mem b hb', hfa⟩

/-- What comes out of a list of computations came out of one of them. -/
theorem exists_of_mem_mapM {ε α β : Type} {f : α → Except ε β} {as : List α} {bs : List β}
    (h : as.mapM f = .ok bs) {b : β} (hb : b ∈ bs) : ∃ a ∈ as, f a = .ok b := by
  induction as generalizing bs with
  | nil =>
    cases h
    cases hb
  | cons a as ih =>
    obtain ⟨b', bs', hb', has, rfl⟩ := mapM_cons_eq_ok h
    rcases List.mem_cons.1 hb with rfl | hb
    · exact ⟨a, List.mem_cons_self, hb'⟩
    · obtain ⟨a', ha', hfa'⟩ := ih has hb
      exact ⟨a', List.mem_cons_of_mem a ha', hfa'⟩

/-! ### The order of ranked routes -/

/-- The order of two ranked routes: greater weights, then shorter paths, then smaller ids. -/
def RankedRoute.compare : RankedRoute → RankedRoute → Ordering :=
  compareLex (fun a b => Ord.compare b.weight a.weight)
    (compareLex (compareOn fun a => a.route.path.length) (compareOn fun a => a.route.peer))

instance : TransCmp RankedRoute.compare := by
  have : TransCmp fun a b : RankedRoute => Ord.compare b.weight a.weight :=
    @TransCmp.opposite _ (compareOn RankedRoute.weight) _
  unfold RankedRoute.compare
  infer_instance

instance : TransCmp compareRanked where
  eq_swap {a b} := by
    cases a with
    | none => cases b <;> rfl
    | some a =>
      cases b with
      | none => rfl
      | some b => exact @OrientedCmp.eq_swap _ RankedRoute.compare _ a b
  isLE_trans {a b c} hab hbc := by
    -- Nothing but an absent route stands behind an absent one.
    cases c with
    | none => cases a <;> rfl
    | some c =>
      cases b with
      | none => cases hbc
      | some b =>
        cases a with
        | none => cases hab
        | some a => exact @TransCmp.isLE_trans _ RankedRoute.compare _ a b c hab hbc

/-- Of several optional routes the first in order is at least as good as all. -/
theorem compareRanked_head_sorted {l : List (Option RankedRoute)} {a : Option RankedRoute}
    (h : (l.mergeSort fun a b => (compareRanked a b).isLE).head? = some a) :
    a ∈ l ∧ ∀ b ∈ l, (compareRanked a b).isLE = true := by
  have htrans : ∀ a b c : Option RankedRoute, (compareRanked a b).isLE = true →
      (compareRanked b c).isLE = true → (compareRanked a c).isLE = true :=
    fun a b c => TransCmp.isLE_trans
  have htotal : ∀ a b : Option RankedRoute,
      ((compareRanked a b).isLE || (compareRanked b a).isLE) = true := by
    intro a b
    rw [@OrientedCmp.eq_swap _ compareRanked _ b a]
    cases compareRanked a b <;> rfl
  have hsorted := List.pairwise_mergeSort htrans htotal l
  cases hl : l.mergeSort fun a b => (compareRanked a b).isLE with
  | nil =>
    rw [hl] at h
    cases h
  | cons x xs =>
    rw [hl] at h hsorted
    cases h
    have hmem : ∀ b, b ∈ l ↔ b ∈ a :: xs := fun b => by rw [← hl, List.mem_mergeSort]
    refine ⟨(hmem a).2 List.mem_cons_self, fun b hb => ?_⟩
    rcases List.mem_cons.1 ((hmem b).1 hb) with rfl | hb
    · exact ReflCmp.isLE_rfl
    · exact (List.pairwise_cons.1 hsorted).1 b hb

namespace Directory

/-! ### Weights of candidates -/

/-- The weight of the peer that a route comes from; without a weight it is least. -/
def weightOf (d : Directory) (r : IncomingRoute) : Nat :=
  (d.routeWeight? r.peer).getD 0

/-- A route with its weight. -/
def ranked (d : Directory) (r : IncomingRoute) : RankedRoute :=
  ⟨d.weightOf r, r⟩

theorem isSome_routeWeight? (d : Directory) (a : AccountId) :
    (d.routeWeight? a).isSome = d.knows a := by
  simp [routeWeight?, knows]

theorem rank_eq {d : Directory} {r : IncomingRoute} (h : d.knows r.peer = true) :
    d.rank r = .ok (d.ranked r) := by
  rw [← isSome_routeWeight?, Option.isSome_iff_exists] at h
  obtain ⟨w, hw⟩ := h
  simp [rank, ranked, weightOf, hw]

/-- With known peers every candidate gets its weight. -/
theorem mapM_rankOptional {d : Directory} {candidates : List (Option IncomingRoute)}
    (h : ∀ r, some r ∈ candidates → d.knows r.peer = true) :
    candidates.mapM d.rankOptional = .ok (candidates.map (Option.map d.ranked)) := by
  induction candidates with
  | nil => rfl
  | cons c cs ih =>
    have hc : d.rankOptional c = .ok (c.map d.ranked) := by
      cases c with
      | none => rfl
      | some r => rw [rankOptional, rank_eq (h r List.mem_cons_self)]; rfl
    rw [List.mapM_cons, hc, ih fun r hr => h r (List.mem_cons_of_mem _ hr)]
    rfl

/-! ### The best route -/

/-- Whether a route is preferred to another one: its peer has the greater weight, or the weights are
equal and its path is shorter, or these are equal as well and its peer's id comes first. -/
def Beats (d : Directory) (a b : IncomingRoute) : Prop :=
  d.weightOf b < d.weightOf a ∨ d.weightOf a = d.weightOf b ∧
    (a.path.length < b.path.length ∨ a.path.length = b.path.length ∧
      compare a.peer b.peer = .lt)

/-- One of several routes that is preferred to all others of them. -/
structure IsBest (d : Directory) (routes : List IncomingRoute) (r : IncomingRoute) : Prop where
  mem : r ∈ routes
  beats : ∀ other ∈ routes, other ≠ r → d.Beats r other

theorem beats_iff (d : Directory) (a b : IncomingRoute) :
    d.Beats a b ↔ (d.ranked a).compare (d.ranked b) = .lt := by
  simp only [Beats, RankedRoute.compare, ranked, compareLex, compareOn, Ordering.then_eq_lt,
    Nat.compare_eq_lt, Nat.compare_eq_eq]
  constructor
  · rintro (h | ⟨h, hrest⟩)
    · exact .inl h
    · exact .inr ⟨h.symm, hrest⟩
  · rintro (h | ⟨h, hrest⟩)
    · exact .inl h
    · exact .inr ⟨h.symm, hrest⟩

theorem IsBest.unique {d : Directory} {routes : List IncomingRoute} {a b : IncomingRoute}
    (ha : d.IsBest routes a) (hb : d.IsBest routes b) : a = b := by
  refine Decidable.byContradiction fun hne => ?_
  have hab := (d.beats_iff a b).1 (ha.beats b hb.mem fun h => hne h.symm)
  have hba := (d.beats_iff b a).1 (hb.beats a ha.mem hne)
  exact OrientedCmp.not_lt_of_lt hab hba

/-- Only routes of one peer can tie. -/
theorem peer_eq_of_compare {a b : RankedRoute} (h : a.compare b = .eq) :
    a.route.peer = b.route.peer := by
  simp only [RankedRoute.compare, compareLex, compareOn, Ordering.then_eq_eq] at h
  exact AccountId.eq_of_compare h.2.2

/-- The candidate that comes first when they are sorted. -/
def firstRanked (d : Directory) (candidates : List (Option IncomingRoute)) :
    Option (Option RankedRoute) :=
  ((candidates.map (Option.map d.ranked)).mergeSort fun a b => (compareRanked a b).isLE).head?

theorem bestRoute_of_knows {d : Directory} {candidates : List (Option IncomingRoute)}
    (h : ∀ r, some r ∈ candidates → d.knows r.peer = true) :
    d.bestRoute candidates = .ok ((d.firstRanked candidates).join.map RankedRoute.route) := by
  rw [bestRoute, mapM_rankOptional h]
  rfl

theorem knows_of_mapM {d : Directory} {candidates : List (Option IncomingRoute)}
    {ranked : List (Option RankedRoute)} (h : candidates.mapM d.rankOptional = .ok ranked)
    (r : IncomingRoute) (hr : some r ∈ candidates) : d.knows r.peer = true := by
  obtain ⟨x, -, hx⟩ := exists_mem_of_mapM h hr
  rw [← isSome_routeWeight?]
  simp only [rankOptional, rank] at hx
  split at hx
  · rename_i w hw
    rw [hw]
    rfl
  · cases hx

/-- The choice among routes succeeds only if all their peers are known. -/
theorem knows_of_bestRoute {d : Directory} {candidates : List (Option IncomingRoute)}
    {best : Option IncomingRoute} (h : d.bestRoute candidates = .ok best) :
    ∀ r, some r ∈ candidates → d.knows r.peer = true := by
  rw [bestRoute] at h
  cases hm : candidates.mapM d.rankOptional with
  | error e =>
    rw [hm] at h
    cases h
  | ok ranked => exact knows_of_mapM hm

/-- The first candidate in order is one of the candidates and at least as good as all. -/
theorem firstRanked_eq_some {d : Directory} {candidates : List (Option IncomingRoute)}
    {x : RankedRoute} (h : d.firstRanked candidates = some (some x)) :
    ∃ r, some r ∈ candidates ∧ x = d.ranked r ∧
      ∀ other, some other ∈ candidates → (x.compare (d.ranked other)).isLE = true := by
  obtain ⟨hmem, hle⟩ := compareRanked_head_sorted h
  rw [List.mem_map] at hmem
  obtain ⟨c, hc, hx⟩ := hmem
  rw [Option.map_eq_some_iff] at hx
  obtain ⟨r, rfl, rfl⟩ := hx
  refine ⟨r, hc, rfl, fun other hother => ?_⟩
  exact hle (some (d.ranked other)) (List.mem_map.2 ⟨some other, hother, rfl⟩)

/-- The route that is chosen is one of the candidates, and none of them is preferred to it. -/
theorem unbeaten_of_bestRoute {d : Directory} {candidates : List (Option IncomingRoute)}
    {r : IncomingRoute} (h : d.bestRoute candidates = .ok (some r)) :
    some r ∈ candidates ∧ ∀ other, some other ∈ candidates → ¬d.Beats other r := by
  rw [bestRoute_of_knows (knows_of_bestRoute h)] at h
  cases hfirst : d.firstRanked candidates with
  | none =>
    rw [hfirst] at h
    cases h
  | some first =>
    cases first with
    | none =>
      rw [hfirst] at h
      cases h
    | some x =>
      obtain ⟨r', hr', rfl, hle⟩ := firstRanked_eq_some hfirst
      rw [hfirst] at h
      cases h
      refine ⟨hr', fun other hother hbeats => ?_⟩
      have hgt : (d.ranked r').compare (d.ranked other) = .gt :=
        OrientedCmp.gt_of_lt ((d.beats_iff other r').1 hbeats)
      have hle := hle other hother
      rw [hgt] at hle
      cases hle

theorem mem_of_bestRoute {d : Directory} {candidates : List (Option IncomingRoute)}
    {r : IncomingRoute} (h : d.bestRoute candidates = .ok (some r)) : some r ∈ candidates :=
  (unbeaten_of_bestRoute h).1

/-- An absent candidate comes first only where all are absent. -/
theorem absent_of_firstRanked_join {d : Directory} {candidates : List (Option IncomingRoute)}
    (h : (d.firstRanked candidates).join = none) (r : IncomingRoute) : some r ∉ candidates := by
  intro hr
  have hmem : some (d.ranked r) ∈ candidates.map (Option.map d.ranked) :=
    List.mem_map.2 ⟨some r, hr, rfl⟩
  cases hfirst : d.firstRanked candidates with
  | none =>
    rw [firstRanked, List.head?_eq_none_iff] at hfirst
    rw [← List.mem_mergeSort, hfirst] at hmem
    cases hmem
  | some first =>
    rw [hfirst] at h
    cases first with
    | none =>
      have hle := (compareRanked_head_sorted hfirst).2 _ hmem
      cases hle
    | some x => cases h

theorem absent_of_bestRoute {d : Directory} {candidates : List (Option IncomingRoute)}
    (h : d.bestRoute candidates = .ok none) (r : IncomingRoute) : some r ∉ candidates := by
  rw [bestRoute_of_knows (knows_of_bestRoute h), Except.ok.injEq, Option.map_eq_none_iff] at h
  exact absent_of_firstRanked_join h r

/-- With known and different peers there is a best route unless all candidates are absent, and
`bestRoute` finds it. -/
theorem isBest_of_bestRoute {d : Directory} {candidates : List (Option IncomingRoute)}
    (hknown : ∀ r, some r ∈ candidates → d.knows r.peer = true)
    (hpeers : ∀ a b, some a ∈ candidates → some b ∈ candidates → a.peer = b.peer → a = b) :
    ∃ best, d.bestRoute candidates = .ok best ∧
      (∀ r, best = some r ↔ d.IsBest (candidates.filterMap id) r) ∧
      (best = none ↔ candidates.filterMap id = []) := by
  have hmem : ∀ r, r ∈ candidates.filterMap id ↔ some r ∈ candidates := by
    intro r
    simp [List.mem_filterMap]
  refine ⟨_, bestRoute_of_knows hknown, ?_⟩
  cases hfirst : (d.firstRanked candidates).join with
  | none =>
    have hnil : candidates.filterMap id = [] := List.eq_nil_iff_forall_not_mem.2 fun r hr =>
      absent_of_firstRanked_join hfirst r ((hmem r).1 hr)
    rw [hnil]
    refine ⟨fun r => ⟨fun h => (by cases h), fun h => ?_⟩, fun _ => rfl, fun _ => rfl⟩
    cases h.mem
  | some x =>
    obtain ⟨r, hr, rfl, hle⟩ := firstRanked_eq_some (Option.join_eq_some_iff.1 hfirst)
    have hbest : d.IsBest (candidates.filterMap id) r := by
      refine ⟨(hmem r).2 hr, fun other hother hne => ?_⟩
      rw [hmem] at hother
      rw [beats_iff]
      have hle := hle other hother
      cases hcmp : (d.ranked r).compare (d.ranked other) with
      | lt => rfl
      | eq => exact absurd (hpeers other r hother hr (peer_eq_of_compare hcmp).symm) hne
      | gt =>
        rw [hcmp] at hle
        cases hle
    refine ⟨fun r' => ⟨fun h => ?_, fun h => ?_⟩, fun h => (by cases h), fun h => ?_⟩
    · cases h
      exact hbest
    · exact congrArg some (hbest.unique h)
    · rw [h] at hbest
      cases hbest.mem

/-- The best route depends on which routes there are, not on their order, and not on absent ones. -/
theorem bestRoute_congr {d : Directory} {candidates others : List (Option IncomingRoute)}
    (hsame : ∀ r, some r ∈ candidates ↔ some r ∈ others)
    (hknown : ∀ r, some r ∈ candidates → d.knows r.peer = true)
    (hpeers : ∀ a b, some a ∈ candidates → some b ∈ candidates → a.peer = b.peer → a = b) :
    d.bestRoute candidates = d.bestRoute others := by
  obtain ⟨best, hbest, hiff, -⟩ := isBest_of_bestRoute hknown hpeers
  obtain ⟨best', hbest', hiff', -⟩ := isBest_of_bestRoute
    (fun r hr => hknown r ((hsame r).2 hr))
    (fun a b ha hb => hpeers a b ((hsame a).2 ha) ((hsame b).2 hb))
  have hmem : ∀ r, r ∈ candidates.filterMap id ↔ r ∈ others.filterMap id := by
    intro r
    simpa [List.mem_filterMap] using hsame r
  have hisBest : ∀ r, d.IsBest (candidates.filterMap id) r ↔ d.IsBest (others.filterMap id) r := by
    intro r
    constructor
    · intro h
      exact ⟨(hmem r).1 h.mem, fun other hother => h.beats other ((hmem other).2 hother)⟩
    · intro h
      exact ⟨(hmem r).2 h.mem, fun other hother => h.beats other ((hmem other).1 hother)⟩
  rw [hbest, hbest', show best = best' from Option.ext fun r => by
    rw [hiff r, hiff' r, hisBest r]]

/-- A choice that fails names a candidate's peer that has no weight. -/
theorem exists_of_mapM_eq_error {d : Directory} {candidates : List (Option IncomingRoute)}
    {e : UnknownPeer} (h : candidates.mapM d.rankOptional = .error e) :
    ∃ r, some r ∈ candidates ∧ r.peer = e.account ∧ d.routeWeight? r.peer = none := by
  induction candidates with
  | nil => cases h
  | cons c cs ih =>
    rw [List.mapM_cons] at h
    cases hc : d.rankOptional c with
    | error e' =>
      rw [hc] at h
      cases h
      cases c with
      | none => cases hc
      | some r =>
        simp only [rankOptional, rank] at hc
        split at hc
        · cases hc
        · rename_i hnone
          cases hc
          exact ⟨r, List.mem_cons_self, rfl, hnone⟩
    | ok x =>
      cases hcs : cs.mapM d.rankOptional with
      | error e' =>
        rw [hc, hcs] at h
        cases h
        obtain ⟨r, hr, hunknown⟩ := ih hcs
        exact ⟨r, List.mem_cons_of_mem c hr, hunknown⟩
      | ok xs =>
        rw [hc, hcs] at h
        cases h

theorem exists_of_bestRoute_eq_error {d : Directory} {candidates : List (Option IncomingRoute)}
    {e : UnknownPeer} (h : d.bestRoute candidates = .error e) :
    ∃ r, some r ∈ candidates ∧ r.peer = e.account ∧ d.routeWeight? r.peer = none := by
  rw [bestRoute] at h
  cases hm : candidates.mapM d.rankOptional with
  | error e' =>
    rw [hm] at h
    cases h
    exact exists_of_mapM_eq_error hm
  | ok ranked =>
    rw [hm] at h
    cases h

/-- The choice fails just if some candidate's peer has no weight. -/
theorem exists_bestRoute_eq_error_iff {d : Directory} {candidates : List (Option IncomingRoute)} :
    (∃ e, d.bestRoute candidates = .error e) ↔
      ∃ r, some r ∈ candidates ∧ d.routeWeight? r.peer = none := by
  constructor
  · rintro ⟨e, he⟩
    obtain ⟨r, hr, -, hnone⟩ := exists_of_bestRoute_eq_error he
    exact ⟨r, hr, hnone⟩
  · rintro ⟨r, hr, hnone⟩
    cases hbest : d.bestRoute candidates with
    | error e => exact ⟨e, rfl⟩
    | ok best =>
      have hknown := knows_of_bestRoute hbest r hr
      rw [← isSome_routeWeight?, hnone] at hknown
      cases hknown

/-- The best route depends on a directory only through the weights of the peers that have one. -/
theorem bestRoute_eq_of_weights {d d' : Directory} {candidates : List (Option IncomingRoute)}
    (h : ∀ r, some r ∈ candidates → d'.routeWeight? r.peer = d.routeWeight? r.peer) :
    d'.bestRoute candidates = d.bestRoute candidates := by
  have hranked : candidates.mapM d'.rankOptional = candidates.mapM d.rankOptional := by
    induction candidates with
    | nil => rfl
    | cons c cs ih =>
      have hc : d'.rankOptional c = d.rankOptional c := by
        cases c with
        | none => rfl
        | some r => rw [rankOptional, rankOptional, rank, rank, h r List.mem_cons_self]
      have hcs := ih fun r hr => h r (List.mem_cons_of_mem c hr)
      rw [List.mapM_cons, List.mapM_cons, hc, hcs]
  rw [bestRoute, bestRoute, hranked]

theorem mem_filterMap_id {candidates : List (Option IncomingRoute)} {r : IncomingRoute} :
    r ∈ candidates.filterMap id ↔ some r ∈ candidates := by
  simp

/-- Where all peers are different, two routes of one peer are the same. -/
theorem eq_of_peer_eq {candidates : List (Option IncomingRoute)}
    (h : ((candidates.filterMap id).map (·.peer)).Nodup) (a b : IncomingRoute)
    (ha : some a ∈ candidates) (hb : some b ∈ candidates) (hpeer : a.peer = b.peer) : a = b :=
  List.inj_on_of_nodup_map h (mem_filterMap_id.2 ha) (mem_filterMap_id.2 hb) hpeer

/-- The comparison of optional routes is a total preorder.  Among candidates of different peers the
choice fails if and only if one of their peers has no weight.  Otherwise it finds no route if and
only if there is none, and else the one that is preferred to all others; so it comes out the same
for every list of the same routes, in whatever order and with whatever absent ones among them. -/
theorem isBest_bestRoute_of_nodup {d : Directory} {candidates : List (Option IncomingRoute)}
    (hpeers : ((candidates.filterMap id).map (·.peer)).Nodup) :
    ((∀ a, compareRanked a a = .eq) ∧
      (∀ a b, compareRanked b a = (compareRanked a b).swap) ∧
      (∀ a b, (compareRanked a b).isLE = true → (compareRanked b a).isLE = true →
        compareRanked a b = .eq) ∧
      ∀ a b c, (compareRanked a b).isLE = true → (compareRanked b c).isLE = true →
        (compareRanked a c).isLE = true) ∧
    ((∃ e, d.bestRoute candidates = .error e) ↔
      ∃ r, some r ∈ candidates ∧ d.routeWeight? r.peer = none) ∧
    (∀ best, d.bestRoute candidates = .ok best →
      (best = none ↔ ∀ c ∈ candidates, c = none) ∧
        ∀ r, best = some r ↔ d.IsBest (candidates.filterMap id) r) ∧
    ∀ others, (others.filterMap id).Perm (candidates.filterMap id) →
      ∀ best, d.bestRoute others = .ok best ↔ d.bestRoute candidates = .ok best := by
  have hdistinct := eq_of_peer_eq hpeers
  refine ⟨⟨fun a => ReflCmp.compare_self, fun a b => OrientedCmp.eq_swap,
    fun a b hab hba => OrientedCmp.isLE_antisymm hab hba, fun a b c => TransCmp.isLE_trans⟩,
    exists_bestRoute_eq_error_iff, fun best hbest => ?_, fun others hperm => ?_⟩
  · obtain ⟨best', hbest', hisBest, hnone⟩ :=
      isBest_of_bestRoute (knows_of_bestRoute hbest) hdistinct
    cases hbest.symm.trans hbest'
    refine ⟨hnone.trans ?_, hisBest⟩
    rw [List.filterMap_eq_nil_iff]
    rfl
  · have hsame : ∀ r, some r ∈ others ↔ some r ∈ candidates := fun r => by
      rw [← mem_filterMap_id, ← mem_filterMap_id, hperm.mem_iff]
    intro best
    constructor
    · intro hbest
      rw [← bestRoute_congr hsame (knows_of_bestRoute hbest) (eq_of_peer_eq ?_), hbest]
      exact (hperm.map _).nodup_iff.2 hpeers
    · intro hbest
      rw [← bestRoute_congr (fun r => (hsame r).symm) (knows_of_bestRoute hbest) hdistinct, hbest]

/-! ### Two peers that differ by their ids only -/

/-- A route of a peer, with one node on the path. -/
def oneHop (peer : AccountId) : IncomingRoute :=
  ⟨peer, ⟨"g.even".toList, by decide⟩, [⟨"g.hop".toList, by decide⟩], .replicate 1⟩

/-- Two ids, the first of which comes first. -/
def alpha : AccountId :=
  ⟨"alpha".toList, by decide⟩

def beta : AccountId :=
  ⟨"beta".toList, by decide⟩

/-- Accounts of equal weight. -/
def evenPeers : Directory where
  accounts := [⟨beta, .peer, none, none⟩, ⟨alpha, .peer, none, none⟩]

/-- The route of the peer whose id comes first is chosen, wherever it stands in the list. -/
theorem isBest_bestRoute_of_tied :
    let candidates := [some (oneHop beta), none, some (oneHop alpha)]
    let others := [some (oneHop alpha), some (oneHop beta)]
    ((candidates.filterMap id).map (·.peer)).Nodup ∧
      evenPeers.bestRoute candidates = .ok (some (oneHop alpha)) ∧
      evenPeers.bestRoute others = .ok (some (oneHop alpha)) := by
  intro candidates others
  have hpeers : ((candidates.filterMap id).map (·.peer)).Nodup := by decide
  obtain ⟨-, hfails, hok, hcongr⟩ := isBest_bestRoute_of_nodup (d := evenPeers) hpeers
  have hbest : evenPeers.bestRoute candidates = .ok (some (oneHop alpha)) := by
    cases hchoice : evenPeers.bestRoute candidates with
    | error e =>
      obtain ⟨r, hr, hnone⟩ := hfails.1 ⟨e, hchoice⟩
      have hweights : ∀ r ∈ candidates.filterMap id, evenPeers.routeWeight? r.peer ≠ none := by
        decide
      exact absurd hnone (hweights r (mem_filterMap_id.2 hr))
    | ok best =>
      have hleast : evenPeers.IsBest (candidates.filterMap id) (oneHop alpha) := by
        refine ⟨by decide, fun other hother hne => ?_⟩
        have hbeta : other = oneHop beta := by
          simpa [candidates, hne] using hother
        rw [hbeta, beats_iff]
        decide
      rw [((hok best hchoice).2 (oneHop alpha)).2 hleast]
  exact ⟨hpeers, hbest, (hcongr others (by decide) _).2 hbest⟩

end Directory

end RouteSync
