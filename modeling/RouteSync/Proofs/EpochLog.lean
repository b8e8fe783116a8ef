import Mathlib.Logic.Relation
import RouteSync.Node.Export

/-!
# The log of a table says which entries are recent

The log of a table is read through `EpochLog.get?`.  The first part says what writing, emptying and
dropping do to that view, and that the updates between two epochs are the view of these epochs in
order (`between_eq`).

The second part ties the log to the entries.  `LoggedTable.Coherent` says that the slot of a kept
epoch holds the entry that was made in it, as long as that entry stands, and nothing afterwards.
Logging a change and dropping old slots keep it (`Coherent.record`, `Coherent.prune`), so the
updates after an epoch are exactly the entries with a later epoch (`Coherent.mem_updatesSince`).

The third part is about `LoggedTable.refresh`: it is a chain of logged changes, each of which has
the properties in `LoggedTable.Logs`.
-/

namespace RouteSync

open RouteEntry

namespace EpochLog

/-! ### The view of a log -/

theorem get?_of_lt {log : EpochLog} {i : Nat} (h : i < log.first) : log.get? i = none := by
  rw [get?, if_pos h]

theorem get?_of_le {log : EpochLog} {i : Nat} (h : log.first ≤ i) :
    log.get? i = log.slots[i - log.first]?.join := by
  rw [get?, if_neg (by omega)]

/-- Epochs that have no slot yet hold nothing. -/
theorem get?_of_ge {log : EpochLog} {i : Nat} (h : log.first + log.slots.length ≤ i) :
    log.get? i = none := by
  rw [get?_of_le (by omega), List.getElem?_eq_none (by omega)]
  rfl

theorem get?_set (log : EpochLog) (e : Nat) (u : RouteUpdate) (i : Nat) :
    (log.set e u).get? i =
      if e < log.first then log.get? i else if i = e then some u else log.get? i := by
  unfold set
  split
  · rfl
  · rename_i he
    simp only [get?]
    by_cases hi : i < log.first
    · rw [if_pos hi, if_pos hi, if_neg (by omega)]
    · rw [if_neg hi, if_neg hi, List.getElem?_set]
      by_cases hie : i = e
      · subst hie
        have hlen : i - log.first < (log.slots ++
            List.replicate (i - log.first + 1 - log.slots.length) none).length := by
          rw [List.length_append, List.length_replicate]
          omega
        rw [if_pos rfl, if_pos rfl, if_pos hlen]
        rfl
      · rw [if_neg hie, if_neg (by omega), List.getElem?_append]
        split
        · rfl
        · rename_i hlen
          rw [List.getElem?_eq_none (Nat.le_of_not_lt hlen), List.getElem?_replicate]
          split <;> rfl

theorem get?_clear (log : EpochLog) (e i : Nat) :
    (log.clear e).get? i = if i = e then none else log.get? i := by
  unfold clear
  split
  · rename_i he
    split
    · rename_i hie
      rw [hie, get?_of_lt he]
    · rfl
  · rename_i he
    simp only [get?]
    by_cases hi : i < log.first
    · rw [if_pos hi, if_pos hi, ite_self]
    · rw [if_neg hi, if_neg hi, List.getElem?_set]
      by_cases hie : i = e
      · subst hie
        rw [if_pos rfl, if_pos rfl]
        split <;> rfl
      · rw [if_neg hie, if_neg (by omega)]

theorem get?_prune (log : EpochLog) (limit i : Nat) :
    (log.prune limit).get? i = if i < (log.prune limit).first then none else log.get? i := by
  rw [get?]
  split
  · rfl
  · rename_i hi
    simp only [prune] at hi ⊢
    rw [get?_of_le (by omega), List.getElem?_drop]
    congr 2
    omega

@[simp] theorem set_first (log : EpochLog) (e : Nat) (u : RouteUpdate) :
    (log.set e u).first = log.first := by
  unfold set
  split <;> rfl

/-- Writing the slot after the last one adds one slot. -/
theorem set_slots_length {log : EpochLog} {e : Nat} (u : RouteUpdate)
    (h : log.first + log.slots.length = e) : (log.set e u).slots.length = log.slots.length + 1 := by
  rw [set, if_neg (by omega)]
  simp only [List.length_set, List.length_append, List.length_replicate]
  omega

@[simp] theorem clear_first (log : EpochLog) (e : Nat) : (log.clear e).first = log.first := by
  unfold clear
  split <;> rfl

@[simp] theorem clear_slots_length (log : EpochLog) (e : Nat) :
    (log.clear e).slots.length = log.slots.length := by
  unfold clear
  split
  · rfl
  · exact List.length_set

/-- Dropping slots moves the first epoch by as many as are dropped. -/
theorem prune_first_add_length (log : EpochLog) (limit : Nat) :
    (log.prune limit).first + (log.prune limit).slots.length = log.first + log.slots.length := by
  simp only [prune, List.length_drop]
  omega

theorem prune_slots_length_le (log : EpochLog) (limit : Nat) :
    (log.prune limit).slots.length ≤ limit := by
  simp only [prune, List.length_drop]
  omega

theorem first_le_prune_first (log : EpochLog) (limit : Nat) :
    log.first ≤ (log.prune limit).first := by
  simp only [prune]
  omega

/-- The updates between two epochs, read off the view.  The induction is on the number of epochs. -/
theorem between_eq {log : EpochLog} {known : Nat} (h : log.first ≤ known + 1) (current : Nat) :
    log.between known current =
      (List.range' (known + 1) (current - known)).filterMap log.get? := by
  have hslots : ∀ n a, log.first ≤ a →
      ((log.slots.drop (a - log.first)).take n).filterMap id =
        (List.range' a n).filterMap log.get? := by
    intro n
    induction n with
    | zero => intro a _; simp
    | succ n ih =>
      intro a ha
      rw [List.range'_succ, List.filterMap_cons, get?_of_le ha, ← ih (a + 1) (by omega),
        show a + 1 - log.first = a - log.first + 1 by omega]
      by_cases hlen : a - log.first < log.slots.length
      · rw [List.drop_eq_getElem_cons hlen, List.take_succ_cons, List.filterMap_cons,
          List.getElem?_eq_getElem hlen]
        rfl
      · rw [List.drop_eq_nil_of_le (by omega), List.drop_eq_nil_of_le (by omega),
          List.getElem?_eq_none (by omega)]
        simp
  exact hslots (current - known) (known + 1) h

end EpochLog

namespace LoggedTable

/-! ### Entries and slots -/

/-- The log tells the truth about the entries: every kept epoch has a slot, no two entries share an
epoch, and a slot holds just the entry that was made in its epoch and still stands. -/
structure Coherent (t : LoggedTable) : Prop where
  first_pos : 1 ≤ t.log.first
  slots_length : t.log.first + t.log.slots.length = t.epoch + 1
  epoch_pos : ∀ p u, t.get? p = some u → 1 ≤ u.epoch
  epoch_le : ∀ p u, t.get? p = some u → u.epoch ≤ t.epoch
  epoch_inj : ∀ p q u v, t.get? p = some u → t.get? q = some v → u.epoch = v.epoch → p = q
  slot_iff : ∀ e u, t.log.first ≤ e →
    (t.log.get? e = some u ↔ t.get? u.target = some u ∧ u.epoch = e)

theorem target_of_get? {t : LoggedTable} {p : Prefix} {u : RouteUpdate} (h : t.get? p = some u) :
    u.target = p :=
  RouteTable.target_of_get? h

theorem coherent_empty (id : TableId) : Coherent { id := id } where
  first_pos := Nat.le_refl 1
  slots_length := rfl
  epoch_pos p u h := by cases h
  epoch_le p u h := by cases h
  epoch_inj p q u v h := by cases h
  slot_iff e u he := by
    rw [EpochLog.get?_of_ge he]
    constructor
    · intro h
      cases h
    · rintro ⟨h, -⟩
      cases h

@[simp] theorem supersede_routes (t : LoggedTable) (p : Prefix) :
    (t.supersede p).routes = t.routes := by
  unfold supersede
  split <;> rfl

@[simp] theorem supersede_log_first (t : LoggedTable) (p : Prefix) :
    (t.supersede p).log.first = t.log.first := by
  unfold supersede
  split
  · exact EpochLog.clear_first _ _
  · rfl

@[simp] theorem supersede_log_slots_length (t : LoggedTable) (p : Prefix) :
    (t.supersede p).log.slots.length = t.log.slots.length := by
  unfold supersede
  split
  · exact EpochLog.clear_slots_length _ _
  · rfl

@[simp] theorem record_id (t : LoggedTable) (p : Prefix) (route : Option Route) :
    (t.record p route).id = t.id := by
  show (t.supersede p).id = t.id
  unfold supersede
  split <;> rfl

@[simp] theorem record_epoch (t : LoggedTable) (p : Prefix) (route : Option Route) :
    (t.record p route).epoch = t.epoch + 1 := rfl

theorem record_log (t : LoggedTable) (p : Prefix) (route : Option Route) :
    (t.record p route).log = (t.supersede p).log.set (t.epoch + 1) ⟨p, route, t.epoch + 1⟩ := rfl

theorem get?_record (t : LoggedTable) (p : Prefix) (route : Option Route) (q : Prefix) :
    (t.record p route).get? q = if q = p then some ⟨p, route, t.epoch + 1⟩ else t.get? q := by
  show ((t.supersede p).routes.insert _).get? q = _
  rw [supersede_routes, RouteTable.get?_insert]
  rfl

@[simp] theorem get?_prune (t : LoggedTable) (limit : Nat) (q : Prefix) :
    (t.prune limit).get? q = t.get? q := rfl

/-- Superseding the entry of a prefix takes just this entry out of the log. -/
theorem Coherent.slot_supersede_iff {t : LoggedTable} (h : t.Coherent) (p : Prefix) {e : Nat}
    (he : t.log.first ≤ e) (u : RouteUpdate) :
    (t.supersede p).log.get? e = some u ↔
      (t.get? u.target = some u ∧ u.epoch = e) ∧ u.target ≠ p := by
  rw [← h.slot_iff e u he]
  unfold supersede
  cases hp : t.get? p with
  | none =>
    refine ⟨fun hu => ⟨hu, ?_⟩, fun hu => hu.1⟩
    rintro rfl
    rw [((h.slot_iff e u he).1 hu).1] at hp
    cases hp
  | some v =>
    simp only [clearSlot, EpochLog.get?_clear]
    split
    · rename_i hev
      refine ⟨fun hu => (by cases hu), ?_⟩
      rintro ⟨hu, hne⟩
      obtain ⟨hget, hepoch⟩ := (h.slot_iff e u he).1 hu
      exact absurd (h.epoch_inj _ _ u v hget hp (hepoch.trans hev)) hne
    · rename_i hev
      refine ⟨fun hu => ⟨hu, ?_⟩, fun hu => hu.1⟩
      rintro rfl
      obtain ⟨hget, hepoch⟩ := (h.slot_iff e u he).1 hu
      rw [hget] at hp
      cases hp
      exact hev hepoch.symm

/-- Logging a change keeps the log truthful: the new epoch is that of no older entry. -/
theorem Coherent.record {t : LoggedTable} (h : t.Coherent) (p : Prefix) (route : Option Route) :
    (t.record p route).Coherent where
  first_pos := by
    rw [record_log, EpochLog.set_first, supersede_log_first]
    exact h.first_pos
  slots_length := by
    have hlen := h.slots_length
    rw [record_log, EpochLog.set_first, EpochLog.set_slots_length _ (by simpa using hlen)]
    simp only [supersede_log_first, supersede_log_slots_length, record_epoch]
    omega
  epoch_pos q u hu := by
    rw [get?_record] at hu
    split at hu
    · cases hu
      exact Nat.le_add_left 1 t.epoch
    · exact h.epoch_pos q u hu
  epoch_le q u hu := by
    rw [get?_record] at hu
    split at hu
    · cases hu
      exact Nat.le_refl _
    · exact Nat.le_succ_of_le (h.epoch_le q u hu)
  epoch_inj q r u v hu hv huv := by
    rw [get?_record] at hu hv
    split at hu <;> split at hv
    · rename_i hq hr
      rw [hq, hr]
    · cases hu
      have := h.epoch_le r v hv
      simp only at huv
      omega
    · cases hv
      have := h.epoch_le q u hu
      simp only at huv
      omega
    · exact h.epoch_inj q r u v hu hv huv
  slot_iff e u he := by
    rw [record_log, EpochLog.set_first, supersede_log_first] at he
    have hlen := h.slots_length
    rw [record_log, EpochLog.get?_set, if_neg (by simp only [supersede_log_first]; omega),
      get?_record]
    by_cases hlast : e = t.epoch + 1
    · subst hlast
      rw [if_pos rfl]
      split
      · refine ⟨fun hu => ⟨hu, ?_⟩, fun hu => hu.1⟩
        cases hu
        rfl
      · rename_i hne
        constructor
        · intro hu
          cases hu
          exact absurd rfl hne
        · rintro ⟨hu, hepoch⟩
          have := h.epoch_le _ u hu
          omega
    · rw [if_neg hlast, h.slot_supersede_iff p he]
      split
      · rename_i hp
        refine ⟨fun hu => absurd hp hu.2, ?_⟩
        rintro ⟨hu, hepoch⟩
        cases hu
        exact absurd hepoch.symm hlast
      · rename_i hp
        exact ⟨fun hu => hu.1, fun hu => ⟨hu, hp⟩⟩

/-- Dropping old slots keeps the log truthful about the epochs that remain. -/
theorem Coherent.prune {t : LoggedTable} (h : t.Coherent) (limit : Nat) :
    (t.prune limit).Coherent where
  first_pos := Nat.le_trans h.first_pos (EpochLog.first_le_prune_first t.log limit)
  slots_length := (EpochLog.prune_first_add_length t.log limit).trans h.slots_length
  epoch_pos := h.epoch_pos
  epoch_le := h.epoch_le
  epoch_inj := h.epoch_inj
  slot_iff e u he := by
    change (t.log.prune limit).first ≤ e at he
    show (t.log.prune limit).get? e = some u ↔ _
    rw [EpochLog.get?_prune, if_neg (Nat.not_lt.2 he)]
    exact h.slot_iff e u (Nat.le_trans (EpochLog.first_le_prune_first t.log limit) he)

/-- What happened since an epoch is what stands in the table with a later epoch. -/
theorem Coherent.mem_updatesSince {t : LoggedTable} (h : t.Coherent) {known : Nat}
    {updates : List RouteUpdate} (hsince : t.updatesSince known = .ok updates) :
    known ≤ t.epoch ∧ ∀ u, u ∈ updates ↔ t.get? u.target = some u ∧ known < u.epoch := by
  rw [updatesSince] at hsince
  split at hsince
  · cases hsince
  · rename_i hcovered
    simp only [not_or, Nat.not_lt] at hcovered
    cases hsince
    refine ⟨hcovered.1, fun u => ?_⟩
    rw [EpochLog.between_eq hcovered.2, List.mem_filterMap]
    constructor
    · rintro ⟨e, hmem, hget⟩
      rw [List.mem_range'_1] at hmem
      obtain ⟨hu, hepoch⟩ := (h.slot_iff e u (by omega)).1 hget
      exact ⟨hu, by omega⟩
    · rintro ⟨hu, hlater⟩
      have hle := h.epoch_le _ u hu
      refine ⟨u.epoch, ?_, (h.slot_iff u.epoch u (by omega)).2 ⟨hu, rfl⟩⟩
      rw [List.mem_range'_1]
      omega

/-! ### One logged change -/

/-- The table `t'` is `t` after the update `u` was logged, with at most `limit` slots kept. -/
structure Logs (limit : Nat) (t : LoggedTable) (u : RouteUpdate) (t' : LoggedTable) : Prop where
  id_eq : t'.id = t.id
  /-- The update has the next epoch, and that is the table's epoch from then on. -/
  epoch_eq : u.epoch = t.epoch + 1 ∧ t'.epoch = u.epoch
  /-- It becomes the entry for its prefix; the other entries stay. -/
  get?_eq : ∀ q, t'.get? q = if q = u.target then some u else t.get? q
  /-- The entry that it replaces leads through another account. -/
  nextHop_ne : nextHop? u ≠ (t.get? u.target).bind nextHop?
  /-- A prefix without an entry cannot be withdrawn. -/
  isSome_of_new : t.get? u.target = none → u.route.isSome = true
  slots_le : t'.log.slots.length ≤ limit

theorem logs_record_prune {t : LoggedTable} {p : Prefix} {route : Option Route} (limit : Nat)
    (h : (t.get? p).bind nextHop? ≠ route.map Route.nextHop) :
    Logs limit t ⟨p, route, t.epoch + 1⟩ ((t.record p route).prune limit) where
  id_eq := record_id t p route
  epoch_eq := ⟨rfl, rfl⟩
  get?_eq := get?_record t p route
  nextHop_ne heq := h heq.symm
  isSome_of_new hnone := by
    change t.get? p = none at hnone
    rw [hnone] at h
    cases route with
    | none => exact absurd rfl h
    | some r => rfl
  slots_le := EpochLog.prune_slots_length_le _ limit

/-- The table `t'` came from `t` by changes that were logged one after the other. -/
def Follows (limit : Nat) : LoggedTable → LoggedTable → Prop :=
  Relation.ReflTransGen fun t t' => ∃ u, Logs limit t u t'

theorem Follows.epoch_le {limit : Nat} {t t' : LoggedTable} (h : Follows limit t t') :
    t.epoch ≤ t'.epoch := by
  induction h with
  | refl => exact Nat.le_refl _
  | tail _ hlogs ih =>
    obtain ⟨u, hu⟩ := hlogs
    have := hu.epoch_eq
    omega

theorem Follows.keys_subset {limit : Nat} {t t' : LoggedTable} (h : Follows limit t t') :
    t.routes.keys ⊆ t'.routes.keys := by
  induction h with
  | refl => exact List.Subset.refl _
  | tail _ hlogs ih =>
    obtain ⟨u, hu⟩ := hlogs
    intro p hp
    have hmid := (RouteTable.mem_keys_iff _ p).1 (ih hp)
    rw [RouteTable.mem_keys_iff]
    have hget := hu.get?_eq p
    simp only [get?] at hget
    rw [hget]
    split
    · rfl
    · exact hmid

/-! ### Bringing the advertisements up to date -/

/-- Whatever every logged change keeps, `refresh` keeps.  The induction follows its recursion: after
the change of the prefix itself come the prefixes below it, one after the other. -/
theorem refresh_induction {policy : ExportPolicy} {routes : RouteTable Route}
    {motive : LoggedTable → Prop}
    (hlog : ∀ t p, (t.get? p).bind nextHop? ≠
        (policy.advertised p (routes.get? p)).map Route.nextHop → motive t →
      motive ((t.record p (policy.advertised p (routes.get? p))).prune policy.maxLogLength))
    (t : LoggedTable) (p : Prefix) (ht : motive t) : motive (t.refresh policy routes p) := by
  induction t, p using refresh.induct policy routes with
  | case1 t p _ hsame =>
    rw [refresh, if_pos hsame]
    exact ht
  | case2 t p _ hchanged _ ih =>
    rw [refresh, if_neg hchanged]
    refine List.foldlRecOn _ _ (hlog t p hchanged ht) ?_
    intro t' ht' q _
    exact ih t' q ht'

theorem refresh_follows (policy : ExportPolicy) (routes : RouteTable Route) (t : LoggedTable)
    (p : Prefix) : Follows policy.maxLogLength t (t.refresh policy routes p) :=
  refresh_induction
    (fun _ _ hchanged hfollows => hfollows.tail ⟨_, logs_record_prune _ hchanged⟩)
    t p Relation.ReflTransGen.refl

theorem Coherent.refresh {t : LoggedTable} (h : t.Coherent) (policy : ExportPolicy)
    (routes : RouteTable Route) (p : Prefix) : (t.refresh policy routes p).Coherent :=
  refresh_induction (fun _ q _ ht => (ht.record q _).prune _) t p h

end LoggedTable

/-- What is advertised is a route of the node that is passed on. -/
theorem ExportPolicy.forwarded_of_advertised {policy : ExportPolicy} {p : Prefix}
    {own : Option Route} {r : Route} (h : policy.advertised p own = some r) :
    ∃ s, own = some s ∧ s.forwarded policy.operator = r := by
  rw [advertised, Option.filter_eq_some_iff, Option.map_eq_some_iff] at h
  exact h.1

end RouteSync
