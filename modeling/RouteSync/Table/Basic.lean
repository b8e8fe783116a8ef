import RouteSync.Route

/-!
# Routing tables

A table holds at most one entry for a prefix.  The lookup of an address tries the address itself,
then everything above it, nearest first, and in the end the global prefix.

Main statements: `get?_insert`, `get?_erase`, `get?_set` and `mem_keys_iff` say what the operations
do to the view of a table as a partial function of prefixes.
-/

namespace RouteSync

open RouteEntry

/-- Entries with pairwise different targets. -/
structure RouteTable (R : Type) [RouteEntry R] where
  entries : List R
  nodup : (entries.map target).Nodup

namespace RouteTable

variable {R : Type} [RouteEntry R]

/-- The table without entries. -/
def empty : RouteTable R :=
  ⟨[], List.nodup_nil⟩

instance : Inhabited (RouteTable R) := ⟨empty⟩

instance : EmptyCollection (RouteTable R) := ⟨empty⟩

/-- The entry for exactly this prefix. -/
def get? (t : RouteTable R) (p : Prefix) : Option R :=
  t.entries.find? fun r => target r == p

/-- The prefixes that have an entry. -/
def keys (t : RouteTable R) : List Prefix :=
  t.entries.map target

/-- How many entries there are. -/
def size (t : RouteTable R) : Nat :=
  t.entries.length

/-- Whether there is no entry. -/
def isEmpty (t : RouteTable R) : Bool :=
  t.entries.isEmpty

/-- Take out the entry for a prefix. -/
def erase (t : RouteTable R) (p : Prefix) : RouteTable R :=
  ⟨t.entries.filter fun r => target r != p,
    t.nodup.sublist (List.filter_sublist.map target)⟩

/-- Put an entry in, in the place of the one for the same prefix. -/
def insert (t : RouteTable R) (r : R) : RouteTable R :=
  ⟨(t.erase (target r)).entries ++ [r], by
    rw [List.map_append, List.nodup_append]
    refine ⟨(t.erase (target r)).nodup, by simp, ?_⟩
    intro p hp q hq hpq
    simp only [erase, List.mem_map, List.mem_filter] at hp
    obtain ⟨s, ⟨-, hs⟩, rfl⟩ := hp
    simp only [List.map_cons, List.map_nil, List.mem_singleton] at hq
    simp [hpq, hq] at hs⟩

/-- Put an entry in or take the entry for a prefix out. -/
def set (t : RouteTable R) (p : Prefix) : Option R → RouteTable R
  | some r => t.insert r
  | none => t.erase p

/-- The prefixes with an entry that are this one or lie below it. -/
def keysUnder (t : RouteTable R) (p : Prefix) : List Prefix :=
  t.keys.filter (·.startsWith p)

/-- The prefixes that the lookup of an address tries, in order. -/
def candidates (destination : Address) : List Prefix :=
  destination.toPrefix :: destination.toPrefix.ancestors ++ [Prefix.global]

/-- The entry with the longest prefix of an address, or else the one for the global prefix. -/
def lookup (t : RouteTable R) (destination : Address) : Option R :=
  (candidates destination).findSome? t.get?

@[simp] theorem get?_empty (p : Prefix) : (empty : RouteTable R).get? p = none := rfl

theorem target_of_get? {t : RouteTable R} {p : Prefix} {r : R} (h : t.get? p = some r) :
    target r = p := by
  have := List.find?_some h
  simpa using this

theorem mem_of_get? {t : RouteTable R} {p : Prefix} {r : R} (h : t.get? p = some r) :
    r ∈ t.entries :=
  List.mem_of_find?_eq_some h

theorem get?_erase (t : RouteTable R) (p q : Prefix) :
    (t.erase p).get? q = if q = p then none else t.get? q := by
  simp only [get?, erase, List.find?_filter]
  split
  · rename_i hqp
    subst hqp
    rw [List.find?_eq_none]
    intro r _
    simp
  · rename_i hqp
    congr 1
    funext r
    by_cases hr : target r = q
    · simp [hr, hqp]
    · simp [hr]

theorem get?_insert (t : RouteTable R) (r : R) (q : Prefix) :
    (t.insert r).get? q = if q = target r then some r else t.get? q := by
  have herase := get?_erase t (target r) q
  simp only [get?] at herase
  simp only [get?, insert, List.find?_append, herase]
  split
  · rename_i hq
    simp [hq]
  · rename_i hq
    have : (target r == q) = false := by simpa using fun h => hq h.symm
    simp [this]

theorem get?_set (t : RouteTable R) {p : Prefix} {entry : Option R}
    (h : ∀ r, entry = some r → target r = p) (q : Prefix) :
    (t.set p entry).get? q = if q = p then entry else t.get? q := by
  cases entry with
  | none => exact get?_erase t p q
  | some r =>
    rw [← h r rfl]
    exact get?_insert t r q

theorem mem_keys_iff (t : RouteTable R) (p : Prefix) : p ∈ t.keys ↔ (t.get? p).isSome = true := by
  simp [keys, get?, List.find?_isSome]

theorem not_mem_keys_iff (t : RouteTable R) (p : Prefix) : p ∉ t.keys ↔ t.get? p = none := by
  rw [mem_keys_iff]
  cases t.get? p <;> simp

/-- With at most one entry for each prefix, every entry is found under its target. -/
theorem get?_of_mem (t : RouteTable R) {r : R} (h : r ∈ t.entries) :
    t.get? (target r) = some r := by
  have hn := t.nodup
  simp only [get?]
  generalize t.entries = entries at h hn
  induction entries with
  | nil => cases h
  | cons e es ih =>
    simp only [List.map_cons, List.nodup_cons] at hn
    rcases List.mem_cons.1 h with rfl | hmem
    · simp
    · have hne : (target e == target r) = false := by
        simp only [beq_eq_false_iff_ne, ne_eq]
        intro heq
        exact hn.1 (heq ▸ List.mem_map_of_mem hmem)
      simp [hne, ih hmem hn.2]

end RouteTable

end RouteSync
