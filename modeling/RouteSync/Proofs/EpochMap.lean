import Mathlib.Data.List.Induction
import Mathlib.Data.Nat.PSub
import Mathlib.Logic.Function.Basic
import RouteSync.Proofs.EpochLog

/-!
# The log is a map from epochs to updates

A `LogEdit` is one call that writes to the log of a table or moves its epoch.  The calls may come in
any order and with any epochs: slots far ahead of the log may be written, dropped ones may be
written again, and the epoch of the table need not have anything to do with the log.

An `EpochMap` is what such calls are about: the update that stands for every epoch, and how far back
this goes.  Every call does to the log what it does to the map (`Shows.edit`), so after any calls
the updates since an epoch are read off the map (`edited_refines`).  None of the differences by
which the slots are found goes below zero; for this the operations are repeated here with a
subtraction that may fail.
-/

namespace RouteSync

/-- One call that writes to the log of a table or moves its epoch. -/
inductive LogEdit where
  | set (epoch : Nat) (update : RouteUpdate)
  | clear (epoch : Nat)
  | prune (limit : Nat)
  | moveEpoch (expected next : Nat)

namespace LogEdit

/-- The epoch whose update the call is about, if it is about a single one. -/
def epoch? : LogEdit → Option Nat
  | .set epoch _ => some epoch
  | .clear epoch => some epoch
  | .prune _ => none
  | .moveEpoch _ _ => none

/-- Whether the call drops slots. -/
def isPrune : LogEdit → Bool
  | .prune _ => true
  | _ => false

/-- Whether the epochs that the call writes to or moves to lie below a limit. -/
def Below (limit : Nat) : LogEdit → Prop
  | .set epoch _ => epoch < limit
  | .clear epoch => epoch < limit
  | .prune _ => True
  | .moveEpoch _ next => next < limit

/-- The update of an epoch after a call that writes to it, with nothing dropped. -/
def written (epoch : Nat) (before : Option RouteUpdate) : LogEdit → Option RouteUpdate
  | .set slot update => if epoch = slot then some update else before
  | .clear slot => if epoch = slot then none else before
  | .prune _ => before
  | .moveEpoch _ _ => before

/-- The last update that calls set for an epoch, unless it was reset afterwards. -/
def lastWritten (edits : List LogEdit) (epoch : Nat) : Option RouteUpdate :=
  edits.foldl (written epoch) none

end LogEdit

/-- The updates of all epochs, as calls have left them. -/
structure EpochMap where
  /-- The epochs below this one are gone for good. -/
  floor : Nat := 1
  /-- The epoch after the latest one that was ever set. -/
  top : Nat := 1
  current : Nat := 0
  update? : Nat → Option RouteUpdate := fun _ => none

namespace EpochMap

/-- One call: an update is set unless its epoch is gone, and pruning leaves the `limit` epochs
below `top`. -/
def edit (m : EpochMap) : LogEdit → EpochMap
  | .set epoch update =>
    if epoch < m.floor then m
    else { m with
      top := max m.top (epoch + 1), update? := Function.update m.update? epoch (some update) }
  | .clear epoch => { m with update? := Function.update m.update? epoch none }
  | .prune limit =>
    let floor := max m.floor (m.top - limit)
    { m with floor := floor, update? := fun e => if e < floor then none else m.update? e }
  | .moveEpoch expected next =>
    { m with current := if m.current = expected then next else m.current }

/-- The map after calls on a new table. -/
def after (edits : List LogEdit) : EpochMap :=
  edits.foldl edit {}

theorem after_concat (edits : List LogEdit) (x : LogEdit) :
    after (edits ++ [x]) = (after edits).edit x := by
  rw [after, List.foldl_append]
  rfl

theorem edit_set_of_lt {m : EpochMap} {epoch : Nat} (h : epoch < m.floor) (update : RouteUpdate) :
    m.edit (.set epoch update) = m :=
  if_pos h

theorem edit_set_of_le {m : EpochMap} {epoch : Nat} (h : m.floor ≤ epoch) (update : RouteUpdate) :
    m.edit (.set epoch update) = { m with
      top := max m.top (epoch + 1), update? := Function.update m.update? epoch (some update) } :=
  if_neg (Nat.not_lt.2 h)

theorem floor_le_edit (m : EpochMap) (x : LogEdit) : m.floor ≤ (m.edit x).floor := by
  cases x with
  | set epoch update =>
    simp only [edit]
    split <;> exact Nat.le_refl _
  | clear epoch => exact Nat.le_refl _
  | prune limit => exact Nat.le_max_left _ _
  | moveEpoch expected next => exact Nat.le_refl _

/-- A call writes to the epochs that are not gone, and pruning empties the others. -/
theorem update?_edit {m : EpochMap} (hgone : ∀ e, e < m.floor → m.update? e = none) (x : LogEdit)
    (e : Nat) :
    (m.edit x).update? e =
      if e < (m.edit x).floor then none else x.written e (m.update? e) := by
  cases x with
  | set epoch update =>
    rcases Nat.lt_or_ge epoch m.floor with hepoch | hepoch
    · rw [edit_set_of_lt hepoch]
      by_cases he : e < m.floor
      · rw [if_pos he, hgone e he]
      · rw [if_neg he, LogEdit.written, if_neg (by omega)]
    · rw [edit_set_of_le hepoch]
      simp only [LogEdit.written, Function.update_apply]
      by_cases he : e < m.floor
      · rw [if_pos he, if_neg (by omega), hgone e he]
      · rw [if_neg he]
  | clear epoch =>
    change Function.update m.update? epoch none e = if e < m.floor then none else _
    rw [Function.update_apply]
    by_cases he : e < m.floor
    · rw [if_pos he, hgone e he, ite_self]
    · rw [if_neg he]
      rfl
  | prune limit => rfl
  | moveEpoch expected next =>
    change m.update? e = if e < m.floor then none else m.update? e
    by_cases he : e < m.floor
    · rw [if_pos he, hgone e he]
    · rw [if_neg he]

/-- An epoch that is not gone holds what was last written to it, and one that is gone holds
nothing. -/
theorem update?_after (edits : List LogEdit) (e : Nat) :
    (after edits).update? e =
      if e < (after edits).floor then none else LogEdit.lastWritten edits e := by
  induction edits using List.reverseRecOn generalizing e with
  | nil => exact (ite_self none).symm
  | append_singleton edits x ih =>
    have hgone : ∀ e, e < (after edits).floor → (after edits).update? e = none := by
      intro e he
      rw [ih e, if_pos he]
    have hfloor := floor_le_edit (after edits) x
    have hlast : LogEdit.lastWritten (edits ++ [x]) e =
        x.written e (LogEdit.lastWritten edits e) := by
      rw [LogEdit.lastWritten, List.foldl_append]
      rfl
    rw [after_concat, update?_edit hgone, hlast]
    split
    · rfl
    · rw [ih e, if_neg (by omega)]

/-- A call that drops no slots changes the map at most at the epoch that it is about. -/
theorem update?_edit_of_ne {m : EpochMap} {x : LogEdit} {e : Nat} (hx : x.isPrune = false)
    (he : x.epoch? ≠ some e) : (m.edit x).update? e = m.update? e := by
  cases x with
  | set epoch update =>
    have hne : e ≠ epoch := fun h => he (h ▸ rfl)
    rcases Nat.lt_or_ge epoch m.floor with hepoch | hepoch
    · rw [edit_set_of_lt hepoch]
    · rw [edit_set_of_le hepoch]
      exact Function.update_of_ne hne _ _
  | clear epoch =>
    have hne : e ≠ epoch := fun h => he (h ▸ rfl)
    exact Function.update_of_ne hne _ _
  | prune limit => cases hx
  | moveEpoch expected next => rfl

/-- Calls with epochs below a limit reach no epoch beyond it. -/
theorem after_le {limit : Nat} (hlimit : 1 ≤ limit) {edits : List LogEdit}
    (h : ∀ x ∈ edits, x.Below limit) :
    (after edits).floor ≤ (after edits).top ∧ (after edits).top ≤ limit ∧
      (after edits).current < limit := by
  induction edits using List.reverseRecOn with
  | nil => exact ⟨Nat.le_refl 1, hlimit, hlimit⟩
  | append_singleton edits x ih =>
    obtain ⟨hfloor, htop, hcurrent⟩ := ih fun y hy => h y (List.mem_append_left _ hy)
    have hx : x.Below limit := h x (List.mem_append_right _ (List.mem_singleton_self x))
    rw [after_concat]
    cases x with
    | set epoch update =>
      simp only [LogEdit.Below] at hx
      rcases Nat.lt_or_ge epoch (after edits).floor with hepoch | hepoch
      · rw [edit_set_of_lt hepoch]
        exact ⟨hfloor, htop, hcurrent⟩
      · rw [edit_set_of_le hepoch]
        exact ⟨Nat.le_trans hfloor (Nat.le_max_left _ _), Nat.max_le.2 ⟨htop, hx⟩, hcurrent⟩
    | clear epoch => exact ⟨hfloor, htop, hcurrent⟩
    | prune keep =>
      exact ⟨Nat.max_le.2 ⟨hfloor, Nat.sub_le _ _⟩, htop, hcurrent⟩
    | moveEpoch expected next =>
      refine ⟨hfloor, htop, ?_⟩
      simp only [edit]
      split
      · exact hx
      · exact hcurrent

end EpochMap

/-! ### Subtractions that may fail -/

namespace EpochLog

/-- `EpochLog.set`, with a subtraction that fails where the difference would be negative. -/
def set? (log : EpochLog) (epoch : Nat) (update : RouteUpdate) : Option EpochLog :=
  if epoch < log.first then some log
  else do
    let index ← epoch.psub log.first
    let padded := log.slots ++ List.replicate (index + 1 - log.slots.length) none
    return { log with slots := padded.set index (some update) }

/-- `EpochLog.clear`, with a subtraction that fails where the difference would be negative. -/
def clear? (log : EpochLog) (epoch : Nat) : Option EpochLog :=
  if epoch < log.first then some log
  else do
    let index ← epoch.psub log.first
    return { log with slots := log.slots.set index none }

theorem set?_eq (log : EpochLog) (epoch : Nat) (update : RouteUpdate) :
    log.set? epoch update = some (log.set epoch update) := by
  unfold set? set
  split
  · rfl
  · rename_i h
    rw [Nat.psub_eq_sub (Nat.not_lt.1 h)]
    rfl

theorem clear?_eq (log : EpochLog) (epoch : Nat) :
    log.clear? epoch = some (log.clear epoch) := by
  unfold clear? clear
  split
  · rfl
  · rename_i h
    rw [Nat.psub_eq_sub (Nat.not_lt.1 h)]
    rfl

/-- Writing a slot reaches up to its epoch, and further only if the log did so before. -/
theorem set_end {log : EpochLog} {e : Nat} (h : log.first ≤ e) (u : RouteUpdate) :
    log.first + (log.set e u).slots.length = max (log.first + log.slots.length) (e + 1) := by
  rw [set, if_neg (Nat.not_lt.2 h)]
  simp only [List.length_set, List.length_append, List.length_replicate]
  omega

theorem prune_first (log : EpochLog) (limit : Nat) :
    (log.prune limit).first = max log.first (log.first + log.slots.length - limit) := by
  simp only [prune]
  omega

/-- Pruning takes slots from the front, and only if there are more than the limit. -/
theorem exists_prune (log : EpochLog) (limit : Nat) :
    ∃ dropped, log.slots = dropped ++ (log.prune limit).slots ∧
      (log.prune limit).first = log.first + dropped.length ∧
      (dropped = [] ∨ (log.prune limit).slots.length = limit) := by
  refine ⟨log.slots.take (log.slots.length - limit), ?_, ?_, ?_⟩
  · exact (List.take_append_drop _ _).symm
  · simp only [prune, List.length_take]
    omega
  · simp only [prune, List.length_drop]
    by_cases h : log.slots.length ≤ limit
    · left
      rw [Nat.sub_eq_zero_of_le h, List.take_zero]
    · right
      omega

end EpochLog

namespace LoggedTable

/-- `LoggedTable.updatesSince`, with subtractions that fail where the difference would be
negative. -/
def updatesSince? (t : LoggedTable) (known : Nat) : Option (Except EpochGap (List RouteUpdate)) :=
  if t.epoch < known ∨ known + 1 < t.log.first then
    some (.error ⟨known, t.log.first, t.epoch⟩)
  else do
    let skip ← (known + 1).psub t.log.first
    let take ← t.epoch.psub known
    return .ok (((t.log.slots.drop skip).take take).filterMap fun slot => slot)

theorem updatesSince?_eq (t : LoggedTable) (known : Nat) :
    t.updatesSince? known = some (t.updatesSince known) := by
  unfold updatesSince? updatesSince
  split
  · rfl
  · rename_i h
    rw [not_or, Nat.not_lt, Nat.not_lt] at h
    rw [Nat.psub_eq_sub h.2, Nat.psub_eq_sub h.1]
    rfl

/-! ### Every call does the same to the table and to the map -/

/-- One call on a table. -/
def edit (t : LoggedTable) : LogEdit → LoggedTable
  | .set epoch update => t.setSlot epoch update
  | .clear epoch => t.clearSlot epoch
  | .prune limit => t.prune limit
  | .moveEpoch expected next => (t.compareAndSetEpoch expected next).1

/-- A new table after calls. -/
def edited (id : TableId) (edits : List LogEdit) : LoggedTable :=
  edits.foldl edit { id := id }

theorem edited_concat (id : TableId) (edits : List LogEdit) (x : LogEdit) :
    edited id (edits ++ [x]) = (edited id edits).edit x := by
  rw [edited, List.foldl_append]
  rfl

/-- The log of the table holds the updates of the map, and its slots reach as far. -/
structure Shows (t : LoggedTable) (m : EpochMap) : Prop where
  oldest_eq : t.oldestEpoch = m.floor
  end_eq : t.log.first + t.log.slots.length = m.top
  epoch_eq : t.epoch = m.current
  get?_eq : ∀ e, t.log.get? e = m.update? e

theorem shows_empty (id : TableId) : Shows { id := id } {} where
  oldest_eq := rfl
  end_eq := rfl
  epoch_eq := rfl
  get?_eq e := by
    rw [EpochLog.get?]
    split <;> rfl

theorem Shows.edit {t : LoggedTable} {m : EpochMap} (h : t.Shows m) (x : LogEdit) :
    (t.edit x).Shows (m.edit x) := by
  have hfirst : t.log.first = m.floor := h.oldest_eq
  cases x with
  | set epoch update =>
    rcases Nat.lt_or_ge epoch m.floor with hepoch | hepoch
    · have ht : t.edit (.set epoch update) = t := by
        show { t with log := t.log.set epoch update } = t
        rw [EpochLog.set, hfirst, if_pos hepoch]
      rw [ht, EpochMap.edit_set_of_lt hepoch]
      exact h
    · rw [EpochMap.edit_set_of_le hepoch]
      have hend := EpochLog.set_end (Nat.le_trans (Nat.le_of_eq hfirst) hepoch) update
      refine ⟨?_, ?_, h.epoch_eq, fun e => ?_⟩
      · exact (EpochLog.set_first _ _ _).trans hfirst
      · show (t.log.set epoch update).first + (t.log.set epoch update).slots.length = _
        rw [EpochLog.set_first, hend, h.end_eq]
      · show (t.log.set epoch update).get? e = _
        rw [EpochLog.get?_set, hfirst, if_neg (Nat.not_lt.2 hepoch), h.get?_eq]
        exact (Function.update_apply _ _ _ _).symm
  | clear epoch =>
    refine ⟨?_, ?_, h.epoch_eq, fun e => ?_⟩
    · exact (EpochLog.clear_first _ _).trans hfirst
    · show (t.log.clear epoch).first + (t.log.clear epoch).slots.length = _
      rw [EpochLog.clear_first, EpochLog.clear_slots_length]
      exact h.end_eq
    · show (t.log.clear epoch).get? e = Function.update m.update? epoch none e
      rw [EpochLog.get?_clear, h.get?_eq, Function.update_apply]
  | prune limit =>
    have hfloor : (t.log.prune limit).first = max m.floor (m.top - limit) := by
      rw [EpochLog.prune_first, h.end_eq, hfirst]
    refine ⟨hfloor, ?_, h.epoch_eq, fun e => ?_⟩
    · exact (EpochLog.prune_first_add_length _ _).trans h.end_eq
    · show (t.log.prune limit).get? e = if e < max m.floor (m.top - limit) then none else _
      rw [EpochLog.get?_prune, hfloor, h.get?_eq]
  | moveEpoch expected next =>
    simp only [LoggedTable.edit, compareAndSetEpoch, EpochMap.edit, h.epoch_eq]
    split
    · exact ⟨hfirst, h.end_eq, rfl, h.get?_eq⟩
    · exact ⟨hfirst, h.end_eq, h.epoch_eq, h.get?_eq⟩

/-- After any calls the log holds the updates of the map. -/
theorem shows_edited (id : TableId) (edits : List LogEdit) :
    (edited id edits).Shows (EpochMap.after edits) := by
  induction edits using List.reverseRecOn with
  | nil => exact shows_empty id
  | append_singleton edits x ih =>
    rw [edited_concat, EpochMap.after_concat]
    exact ih.edit x

/-- The updates since an epoch, read off the map. -/
theorem Shows.updatesSince_eq {t : LoggedTable} {m : EpochMap} (h : t.Shows m) (f : Nat) :
    t.updatesSince f =
      if m.current < f ∨ f + 1 < m.floor then .error ⟨f, m.floor, m.current⟩
      else .ok ((List.range' (f + 1) (m.current - f)).filterMap m.update?) := by
  have hfirst : t.log.first = m.floor := h.oldest_eq
  have hview : t.log.get? = m.update? := funext h.get?_eq
  rw [updatesSince, hfirst, h.epoch_eq]
  split
  · rfl
  · rename_i hcovered
    rw [EpochLog.between_eq (by omega), hview]

/-- **After any calls on a new table, its log is the map from epochs to updates.**  An epoch from
the oldest one on maps to the update that was last set for it, unless this was reset; the older ones
map to nothing.  The updates since an epoch are those of the later epochs up to the current one, in
order, unless the epoch lies ahead or a dropped slot is needed; no subtraction goes below zero.
Pruning drops just the slots in front that are too many, every other call changes the map at most at
its own epoch, and no number gets larger than the epochs that the calls are given. -/
theorem edited_refines (id : TableId) (edits : List LogEdit) :
    let t := edited id edits
    let m := EpochMap.after edits
    (t.oldestEpoch = m.floor ∧ t.epoch = m.current ∧ ∀ e, t.log.get? e = m.update? e ∧
      m.update? e = if e < t.oldestEpoch then none else LogEdit.lastWritten edits e) ∧
    (∀ f, t.updatesSince f =
        if t.epoch < f ∨ f + 1 < t.oldestEpoch then .error ⟨f, t.oldestEpoch, t.epoch⟩
        else .ok ((List.range' (f + 1) (t.epoch - f)).filterMap m.update?)) ∧
    (∀ f e u, t.updatesSince? f = some (t.updatesSince f) ∧
      t.log.set? e u = some (t.setSlot e u).log ∧ t.log.clear? e = some (t.clearSlot e).log) ∧
    (∀ n, (t.prune n).log.slots.length ≤ n ∧
      (∃ dropped, t.log.slots = dropped ++ (t.prune n).log.slots ∧
        (t.prune n).oldestEpoch = t.oldestEpoch + dropped.length ∧
        (dropped = [] ∨ (t.prune n).log.slots.length = n)) ∧
      ∀ e, (EpochMap.after (edits ++ [.prune n])).update? e =
        if e < (t.prune n).oldestEpoch then none else m.update? e) ∧
    (∀ x e, x.isPrune = false → x.epoch? ≠ some e →
      (EpochMap.after (edits ++ [x])).update? e = m.update? e) ∧
    ∀ limit, 1 ≤ limit → (∀ x ∈ edits, x.Below limit) →
      t.oldestEpoch + t.log.slots.length ≤ limit ∧ t.epoch < limit := by
  intro t m
  have hshows : t.Shows m := shows_edited id edits
  refine ⟨⟨hshows.oldest_eq, hshows.epoch_eq, fun e => ⟨hshows.get?_eq e, ?_⟩⟩, fun f => ?_,
    fun f e u => ⟨updatesSince?_eq t f, EpochLog.set?_eq t.log e u, EpochLog.clear?_eq t.log e⟩,
    fun n => ⟨EpochLog.prune_slots_length_le t.log n, EpochLog.exists_prune t.log n, fun e => ?_⟩,
    fun x e hx he => ?_, fun limit hlimit hbelow => ?_⟩
  · rw [hshows.oldest_eq]
    exact EpochMap.update?_after edits e
  · rw [hshows.oldest_eq, hshows.epoch_eq]
    exact hshows.updatesSince_eq f
  · have hpruned : (t.prune n).Shows (m.edit (.prune n)) := hshows.edit (.prune n)
    rw [EpochMap.after_concat, hpruned.oldest_eq]
    rfl
  · rw [EpochMap.after_concat]
    exact EpochMap.update?_edit_of_ne hx he
  · obtain ⟨-, htop, hcurrent⟩ := EpochMap.after_le hlimit hbelow
    rw [hshows.epoch_eq]
    exact ⟨Nat.le_trans (Nat.le_of_eq hshows.end_eq) htop, hcurrent⟩

end LoggedTable

end RouteSync
