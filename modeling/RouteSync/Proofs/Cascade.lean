import Mathlib.Data.List.Nodup
import Mathlib.Data.List.Perm.Subperm
import RouteSync.Proofs.Address
import RouteSync.Proofs.EpochLog

/-!
# A refresh, one call at a time

When `LoggedTable.refresh` changes the advertisement of a prefix, it calls itself for every prefix
below that has an entry.  A `Cascade` is a refresh under way: the table as it is by now, the
prefixes that calls are left for, and the updates that were logged so far.  One step deals with one
call, and the calls that it leaves may be made in any order, like those for the keys of an unordered
table.

No table and no rules make this go on for ever or log a prefix twice (`refresh_settles`).  The
reason is that a logged prefix is in line with the routes in use, and that the change of another
prefix does not alter this.  So a prefix that is looked at again through another ancestor is passed
over, and each prefix leaves its calls for those below at most once.
-/

namespace RouteSync

open RouteEntry

namespace LoggedTable

/-- The prefixes with an entry that lie strictly below a prefix. -/
def below (t : LoggedTable) (p : Prefix) : List Prefix :=
  (t.routes.keysUnder p).filter (· != p)

theorem mem_below_iff {t : LoggedTable} {p q : Prefix} :
    q ∈ t.below p ↔ q ∈ t.routes.keys ∧ q.IsBelow p := by
  simp only [below, RouteTable.keysUnder, Prefix.IsBelow, List.mem_filter, bne_iff_ne, ne_eq]
  exact and_assoc

/-- Whether a prefix is advertised with the next hop that the rules make of the route in use. -/
def InLine (policy : ExportPolicy) (routes : RouteTable Route) (t : LoggedTable) (p : Prefix) :
    Prop :=
  (t.get? p).bind nextHop? = (policy.advertised p (routes.get? p)).map Route.nextHop

/-- The update that puts a prefix in line, with the next epoch. -/
def due (policy : ExportPolicy) (routes : RouteTable Route) (t : LoggedTable) (p : Prefix) :
    RouteUpdate :=
  ⟨p, policy.advertised p (routes.get? p), t.epoch + 1⟩

/-- Log an update and keep at most `limit` slots. -/
def append (limit : Nat) (t : LoggedTable) (u : RouteUpdate) : LoggedTable :=
  (t.record u.target u.route).prune limit

end LoggedTable

/-- A refresh under way. -/
structure Cascade where
  table : LoggedTable
  /-- The prefixes that are still to be looked at, the next one first. -/
  waiting : List Prefix
  /-- The updates that were logged, in order. -/
  logged : List RouteUpdate := []
  /-- How many prefixes were looked at, each time counted. -/
  looks : Nat := 0

namespace Cascade

open LoggedTable

section

variable (policy : ExportPolicy) (routes : RouteTable Route)

/-- One prefix is looked at.  If it is in line, nothing happens; otherwise its update is logged, and
the prefixes below are to be looked at next. -/
inductive Step : Cascade → Cascade → Prop where
  | pass {t : LoggedTable} {p : Prefix} {ps : List Prefix} {us : List RouteUpdate} {looks : Nat} :
      t.InLine policy routes p → Step ⟨t, p :: ps, us, looks⟩ ⟨t, ps, us, looks + 1⟩
  | log {t : LoggedTable} {p : Prefix} {ps below : List Prefix} {us : List RouteUpdate}
      {looks : Nat} : ¬t.InLine policy routes p →
      below.Perm ((t.append policy.maxLogLength (t.due policy routes p)).below p) →
      Step ⟨t, p :: ps, us, looks⟩
        ⟨t.append policy.maxLogLength (t.due policy routes p), below ++ ps,
          us ++ [t.due policy routes p], looks + 1⟩

/-- Several steps. -/
def Steps : Cascade → Cascade → Prop :=
  Relation.ReflTransGen (Step policy routes)

end

variable {policy : ExportPolicy} {routes : RouteTable Route}

/-- As long as there are prefixes to look at, the next one can be looked at. -/
theorem exists_step {c : Cascade} (h : c.waiting ≠ []) :
    ∃ c', Step policy routes c c' ∧ c'.looks = c.looks + 1 := by
  obtain ⟨t, waiting, us, looks⟩ := c
  cases waiting with
  | nil => exact absurd rfl h
  | cons p ps =>
    by_cases hp : t.InLine policy routes p
    · exact ⟨_, .pass hp, rfl⟩
    · exact ⟨_, .log hp (List.Perm.refl _), rfl⟩

/-! ### A refresh is made of steps -/

/-- Steps through the calls for several prefixes, one after the other. -/
theorem steps_foldl {f : LoggedTable → Prefix → LoggedTable}
    {qs : List Prefix} (hf : ∀ q ∈ qs, ∀ t ps us looks, ∃ us' looks',
      Steps policy routes ⟨t, q :: ps, us, looks⟩ ⟨f t q, ps, us', looks'⟩)
    (t : LoggedTable) (ps : List Prefix) (us : List RouteUpdate) (looks : Nat) :
    ∃ us' looks', Steps policy routes ⟨t, qs ++ ps, us, looks⟩ ⟨qs.foldl f t, ps, us', looks'⟩ := by
  induction qs generalizing t us looks with
  | nil => exact ⟨us, looks, Relation.ReflTransGen.refl⟩
  | cons q qs ih =>
    obtain ⟨us', looks', hq⟩ := hf q List.mem_cons_self t (qs ++ ps) us looks
    obtain ⟨us'', looks'', hqs⟩ :=
      ih (fun r hr => hf r (List.mem_cons_of_mem q hr)) (f t q) us' looks'
    exact ⟨us'', looks'', hq.trans hqs⟩

theorem steps_refresh (t : LoggedTable) (p : Prefix) :
    ∀ ps us looks, ∃ us' looks', Steps policy routes ⟨t, p :: ps, us, looks⟩
      ⟨t.refresh policy routes p, ps, us', looks'⟩ := by
  induction t, p using LoggedTable.refresh.induct policy routes with
  | case1 t p _ hsame =>
    intro ps us looks
    rw [LoggedTable.refresh, if_pos hsame]
    exact ⟨us, looks + 1, Relation.ReflTransGen.single (.pass hsame)⟩
  | case2 t p _ hchanged _ ih =>
    intro ps us looks
    rw [LoggedTable.refresh, if_neg hchanged]
    have hlog : Step policy routes ⟨t, p :: ps, us, looks⟩ _ :=
      .log hchanged (List.Perm.refl _)
    obtain ⟨us', looks', hbelow⟩ := steps_foldl
      (f := fun t q => t.refresh policy routes q) (fun q hq t => ih t ⟨q, hq⟩)
      (t.append policy.maxLogLength (t.due policy routes p)) ps
      (us ++ [t.due policy routes p]) (looks + 1)
    rw [← List.foldl_attach] at hbelow
    exact ⟨us', looks', hbelow.head hlog⟩

/-! ### What the steps keep -/

theorem inLine_append_due_iff {limit : Nat} {t : LoggedTable} {p q : Prefix} :
    (t.append limit (t.due policy routes p)).InLine policy routes q ↔
      q = p ∨ t.InLine policy routes q := by
  rw [InLine, append, get?_prune, get?_record]
  by_cases hq : q = p
  · subst hq
    simp [due, nextHop?]
  · simp [hq, due, InLine]

theorem mem_keys_append_iff {limit : Nat} {t : LoggedTable} {u : RouteUpdate} {q : Prefix} :
    q ∈ (t.append limit u).routes.keys ↔ q = u.target ∨ q ∈ t.routes.keys := by
  have hget : (t.append limit u).get? q =
      if q = u.target then some ⟨u.target, u.route, t.epoch + 1⟩ else t.get? q :=
    get?_record t u.target u.route q
  rw [LoggedTable.get?, LoggedTable.get?] at hget
  rw [RouteTable.mem_keys_iff, RouteTable.mem_keys_iff, hget]
  by_cases hq : q = u.target <;> simp [hq]

/-- What holds of the refresh of a prefix at any moment. -/
structure Sound (policy : ExportPolicy) (routes : RouteTable Route) (t : LoggedTable) (p : Prefix)
    (c : Cascade) : Prop where
  /-- The table is what the updates make of the one at the beginning. -/
  table_eq : c.table = c.logged.foldl (append policy.maxLogLength) t
  epochs_eq : c.logged.map (·.epoch) = List.range' (t.epoch + 1) c.logged.length
  epoch_eq : c.table.epoch = t.epoch + c.logged.length
  nodup : (c.logged.map (·.target)).Nodup
  inLine : ∀ q ∈ c.logged.map (·.target), c.table.InLine policy routes q
  keys : ∀ q ∈ c.table.routes.keys, q = p ∨ q ∈ t.routes.keys
  kept : t.routes.keys ⊆ c.table.routes.keys
  logged : ∀ q ∈ c.logged.map (·.target), q = p ∨ q ∈ t.below p
  waiting : ∀ q ∈ c.waiting, q = p ∨ q ∈ t.below p
  /-- After a change of the prefix itself, nothing below is forgotten. -/
  settled : p ∈ c.logged.map (·.target) →
    ∀ q ∈ t.below p, q ∈ c.waiting ∨ c.table.InLine policy routes q
  /-- Every logged prefix leaves at most one call for each key. -/
  looks_le : c.looks + c.waiting.length ≤ 1 + c.logged.length * t.routes.size

variable {t : LoggedTable} {p : Prefix}

theorem sound_start : Sound policy routes t p { table := t, waiting := [p] } where
  table_eq := rfl
  epochs_eq := rfl
  epoch_eq := rfl
  nodup := List.nodup_nil
  inLine _ h := by cases h
  keys _ h := .inr h
  kept := List.Subset.refl _
  logged _ h := by cases h
  waiting _ h := .inl (List.mem_singleton.1 h)
  settled h := by cases h
  looks_le := by simp

/-- What lies below a prefix that is looked at lies below the prefix of the refresh, and had an
entry from the beginning. -/
theorem mem_below_of_keys {t' : LoggedTable}
    (hkeys : ∀ q ∈ t'.routes.keys, q = p ∨ q ∈ t.routes.keys) {q r : Prefix}
    (hq : q = p ∨ q ∈ t.below p) (hr : r ∈ t'.below q) : r ∈ t.below p := by
  obtain ⟨hkey, hbelow⟩ := mem_below_iff.1 hr
  have hp : r.IsBelow p := by
    cases hq with
    | inl hqp => exact hqp ▸ hbelow
    | inr hq => exact hbelow.of_startsWith (mem_below_iff.1 hq).2.1
  exact mem_below_iff.2 ⟨(hkeys r hkey).resolve_left hp.2, hp⟩

theorem length_below_le {t' : LoggedTable}
    (hkeys : ∀ q ∈ t'.routes.keys, q = p ∨ q ∈ t.routes.keys) {q : Prefix}
    (hq : q = p ∨ q ∈ t.below p) : (t'.below q).length ≤ t.routes.size := by
  have hnodup : (t'.below q).Nodup := (t'.routes.nodup.filter _).filter _
  have hsubset : t'.below q ⊆ t.routes.keys := fun r hr =>
    (mem_below_iff.1 (mem_below_of_keys hkeys hq hr)).1
  have hle := (hnodup.subperm hsubset).length_le
  rwa [RouteTable.keys, List.length_map] at hle

theorem Sound.pass {t' : LoggedTable} {q : Prefix} {qs : List Prefix} {us : List RouteUpdate}
    {looks : Nat} (h : Sound policy routes t p ⟨t', q :: qs, us, looks⟩)
    (hq : t'.InLine policy routes q) : Sound policy routes t p ⟨t', qs, us, looks + 1⟩ where
  table_eq := h.table_eq
  epochs_eq := h.epochs_eq
  epoch_eq := h.epoch_eq
  nodup := h.nodup
  inLine := h.inLine
  keys := h.keys
  kept := h.kept
  logged := h.logged
  waiting r hr := h.waiting r (List.mem_cons_of_mem q hr)
  settled hp r hr := by
    rcases h.settled hp r hr with hwaiting | hinLine
    · rcases List.mem_cons.1 hwaiting with hrq | hwaiting
      · exact .inr (hrq ▸ hq)
      · exact .inl hwaiting
    · exact .inr hinLine
  looks_le := by
    have hlooks := h.looks_le
    simp only [List.length_cons] at hlooks ⊢
    omega

theorem mem_targets_concat_due {us : List RouteUpdate} {t' : LoggedTable} {q r : Prefix} :
    r ∈ (us ++ [t'.due policy routes q]).map (·.target) ↔ r ∈ us.map (·.target) ∨ r = q := by
  rw [List.map_append, List.mem_append]
  exact or_congr_right List.mem_singleton

theorem Sound.mem_keys_log {t' : LoggedTable} {q : Prefix} {qs : List Prefix}
    {us : List RouteUpdate} {looks : Nat} (h : Sound policy routes t p ⟨t', q :: qs, us, looks⟩)
    {r : Prefix}
    (hr : r ∈ (t'.append policy.maxLogLength (t'.due policy routes q)).routes.keys) :
    r = p ∨ r ∈ t.routes.keys := by
  cases mem_keys_append_iff.1 hr with
  | inl hrq =>
    have hscope := h.waiting q List.mem_cons_self
    rw [show r = q from hrq]
    exact hscope.imp_right fun hq => (mem_below_iff.1 hq).1
  | inr hr => exact h.keys r hr

/-- A prefix that is not in line was not logged before. -/
theorem Sound.log {t' : LoggedTable} {q : Prefix} {qs below : List Prefix} {us : List RouteUpdate}
    {looks : Nat} (h : Sound policy routes t p ⟨t', q :: qs, us, looks⟩)
    (hq : ¬t'.InLine policy routes q)
    (hbelow : below.Perm ((t'.append policy.maxLogLength (t'.due policy routes q)).below q)) :
    Sound policy routes t p ⟨t'.append policy.maxLogLength (t'.due policy routes q), below ++ qs,
      us ++ [t'.due policy routes q], looks + 1⟩ where
  table_eq := by
    rw [List.foldl_append, ← h.table_eq]
    rfl
  epochs_eq := by
    have hepochs : us.map (·.epoch) = List.range' (t.epoch + 1) us.length := h.epochs_eq
    have hepoch : t'.epoch = t.epoch + us.length := h.epoch_eq
    rw [List.map_append, hepochs, List.length_append, List.length_singleton, List.range'_concat]
    simp only [due, hepoch, List.map_cons, List.map_nil]
    congr 2
    omega
  epoch_eq := by
    have hepoch : t'.epoch = t.epoch + us.length := h.epoch_eq
    show t'.epoch + 1 = _
    rw [hepoch, List.length_append, List.length_singleton, Nat.add_assoc]
  nodup := by
    have hnew : q ∉ us.map (·.target) := fun hmem => hq (h.inLine q hmem)
    have hold : (us.map (·.target)).Nodup := h.nodup
    rw [List.map_append]
    exact List.concat_eq_append ▸ hold.concat hnew
  inLine r hr := inLine_append_due_iff.2 ((mem_targets_concat_due.1 hr).symm.imp_right (h.inLine r))
  keys r hr := h.mem_keys_log hr
  kept r hr := mem_keys_append_iff.2 (.inr (h.kept hr))
  logged r hr := by
    cases mem_targets_concat_due.1 hr with
    | inl hr => exact h.logged r hr
    | inr hrq => exact hrq ▸ h.waiting q List.mem_cons_self
  waiting r hr := by
    cases List.mem_append.1 hr with
    | inl hr =>
      have hscope := h.waiting q List.mem_cons_self
      exact .inr (mem_below_of_keys (fun r => h.mem_keys_log) hscope (hbelow.mem_iff.1 hr))
    | inr hr => exact h.waiting r (List.mem_cons_of_mem q hr)
  settled hp r hr := by
    cases mem_targets_concat_due.1 hp with
    | inl hp =>
      rcases h.settled hp r hr with hwaiting | hinLine
      · cases List.mem_cons.1 hwaiting with
        | inl hrq => exact .inr (inLine_append_due_iff.2 (.inl hrq))
        | inr hwaiting => exact .inl (List.mem_append_right below hwaiting)
      · exact .inr (inLine_append_due_iff.2 (.inr hinLine))
    | inr hpq =>
      -- The prefix itself was logged just now, so all that lies below is to be looked at.
      obtain ⟨hkey, hr⟩ := mem_below_iff.1 (hpq ▸ hr)
      have hkept : r ∈ (t'.append policy.maxLogLength (t'.due policy routes q)).routes.keys :=
        mem_keys_append_iff.2 (.inr (h.kept hkey))
      exact .inl (List.mem_append_left qs (hbelow.mem_iff.2 (mem_below_iff.2 ⟨hkept, hr⟩)))
  looks_le := by
    have hlooks := h.looks_le
    have hlength := length_below_le (fun r => h.mem_keys_log) (h.waiting q List.mem_cons_self)
    rw [← hbelow.length_eq] at hlength
    simp only [List.length_cons, List.length_append, List.length_nil] at hlooks ⊢
    rw [Nat.add_one_mul]
    omega

theorem Sound.step {c c' : Cascade} (h : Sound policy routes t p c)
    (hstep : Step policy routes c c') : Sound policy routes t p c' := by
  cases hstep with
  | pass hq => exact h.pass hq
  | log hq hbelow => exact h.log hq hbelow

theorem Sound.steps {c c' : Cascade} (h : Sound policy routes t p c)
    (hsteps : Steps policy routes c c') : Sound policy routes t p c' := by
  induction hsteps with
  | refl => exact h
  | tail _ hstep ih => exact ih.step hstep

/-- At most the prefix itself and those below are logged, each of them once. -/
theorem Sound.length_logged_le {c : Cascade} (h : Sound policy routes t p c) :
    c.logged.length ≤ t.routes.size + 1 := by
  have hsubset : c.logged.map (·.target) ⊆ p :: t.routes.keys := fun q hq =>
    List.mem_cons.2 ((h.logged q hq).imp_right fun hq => (mem_below_iff.1 hq).1)
  have hle := (h.nodup.subperm hsubset).length_le
  rwa [List.length_map, List.length_cons, RouteTable.keys, List.length_map] at hle

/-- However large the tables are and whatever they hold, the refresh of a prefix comes to an end, in
whatever order the prefixes below a changed one are looked at.  The updates that it logs are for the
prefix itself and for those strictly below it that had an entry, one for each at most, and no other
prefix gets an entry.  If the prefix itself was logged, all of those below are in line in the end.
`LoggedTable.refresh` is such a refresh. -/
theorem refresh_settles (policy : ExportPolicy) (routes : RouteTable Route) (t : LoggedTable)
    (p : Prefix) :
    let start : Cascade := { table := t, waiting := [p] }
    (∃ c, Steps policy routes start c ∧ c.waiting = [] ∧
        c.table = t.refresh policy routes p) ∧
      ∀ c, Steps policy routes start c →
        c.looks ≤ 1 + (t.routes.size + 1) * t.routes.size ∧
        (c.waiting ≠ [] → ∃ c', Step policy routes c c' ∧ c'.looks = c.looks + 1) ∧
        c.table = c.logged.foldl (append policy.maxLogLength) t ∧
        c.logged.map (·.epoch) = List.range' (t.epoch + 1) c.logged.length ∧
        (c.logged.map (·.target)).Nodup ∧
        (∀ u ∈ c.logged, u.target = p ∨ u.target ∈ t.routes.keys ∧ u.target.IsBelow p) ∧
        (∀ q ∈ c.table.routes.keys, q = p ∨ q ∈ t.routes.keys) ∧
        (c.waiting = [] → p ∈ c.logged.map (·.target) →
          ∀ q ∈ c.table.routes.keys, q.IsBelow p → c.table.InLine policy routes q) := by
  intro start
  obtain ⟨us, looks, hrefresh⟩ : ∃ us looks,
      Steps policy routes start ⟨t.refresh policy routes p, [], us, looks⟩ :=
    steps_refresh t p [] [] 0
  refine ⟨⟨_, hrefresh, rfl, rfl⟩, fun c hsteps => ?_⟩
  have h : Sound policy routes t p c := sound_start.steps hsteps
  have hlooks : c.looks ≤ 1 + (t.routes.size + 1) * t.routes.size := by
    have hle := h.looks_le
    have hlogged := Nat.mul_le_mul_right t.routes.size h.length_logged_le
    omega
  refine ⟨hlooks, fun hwaiting => exists_step hwaiting, h.table_eq, h.epochs_eq, h.nodup, ?_,
    h.keys, ?_⟩
  · intro u hu
    exact (h.logged u.target (List.mem_map_of_mem hu)).imp_right mem_below_iff.1
  · intro hdone hp q hq hbelow
    have hkey : q ∈ t.routes.keys := (h.keys q hq).resolve_left hbelow.2
    refine (h.settled hp q (mem_below_iff.2 ⟨hkey, hbelow⟩)).resolve_left ?_
    rw [hdone]
    exact List.not_mem_nil

end Cascade

end RouteSync
