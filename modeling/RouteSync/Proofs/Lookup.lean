import Mathlib.Data.List.Basic
import Mathlib.Data.List.Induction
import RouteSync.Proofs.Address
import RouteSync.Table.Basic

/-!
# Lookups

The lookup of an address that lies at or below a prefix tries prefixes below that one first, then
the prefix itself (`exists_candidates_eq`).  If the prefix has an entry, the lookup therefore ends
at or below it, and what the table holds elsewhere has no influence (`lookup_eq_of_isPrefixOf`).

What a table holds for a prefix is what the last edit left that concerns the prefix (`get?_built`).
The lookup finds the entry for the longest prefix of the address that has one, and without such a
prefix the entry for the global one (`lookup_built`).
-/

namespace RouteSync.RouteTable

open RouteEntry

variable {R : Type} [RouteEntry R]

/-- Of several entries that are put in for a prefix the last one stays. -/
theorem get?_foldl_insert (t : RouteTable R) (rs : List R) (q : Prefix) :
    (rs.foldl insert t).get? q = (rs.filter (target · == q)).getLast?.or (t.get? q) := by
  induction rs generalizing t with
  | nil => simp
  | cons r rs ih =>
    rw [List.foldl_cons, ih, get?_insert, List.filter_cons]
    by_cases hq : q = target r
    · subst hq
      rw [if_pos rfl, if_pos (beq_self_eq_true _), List.getLast?_cons]
      cases (rs.filter (target · == target r)).getLast? <;> rfl
    · rw [if_neg hq, if_neg (by simpa using fun h => hq h.symm)]

theorem exists_candidates_eq {p : Prefix} {destination : Address}
    (h : p.isPrefixOf destination = true) :
    ∃ below above, candidates destination = below ++ p :: above ∧
      ∀ q ∈ below, q.startsWith p = true := by
  obtain ⟨below, above, hchain, hbelow⟩ :=
    Prefix.exists_chain_eq (show destination.toPrefix.startsWith p = true from h)
  refine ⟨below, above ++ [Prefix.global], ?_, hbelow⟩
  rw [candidates, hchain, List.append_assoc]
  rfl

/-- Two tables that agree at and below a prefix with an entry agree on all addresses there, and the
lookup ends at or below the prefix. -/
theorem lookup_eq_of_isPrefixOf {t t' : RouteTable R} {p : Prefix} {destination : Address}
    (h : p.isPrefixOf destination = true) (hp : (t.get? p).isSome = true)
    (hsame : ∀ q, q.startsWith p = true → t'.get? q = t.get? q) :
    ∃ q r, q.startsWith p = true ∧ t.get? q = some r ∧ t.lookup destination = some r ∧
      t'.lookup destination = some r := by
  obtain ⟨below, above, hcandidates, hbelow⟩ := exists_candidates_eq h
  obtain ⟨own, hown⟩ := Option.isSome_iff_exists.1 hp
  have hlookup : ∀ t : RouteTable R, t.lookup destination =
      (below.findSome? t.get?).or ((p :: above).findSome? t.get?) := fun t => by
    rw [lookup, hcandidates, List.findSome?_append]
  have hother : below.findSome? t'.get? = below.findSome? t.get? := by
    rw [← List.head?_filterMap, ← List.head?_filterMap,
      List.filterMap_congr fun q hq => hsame q (hbelow q hq)]
  rw [hlookup, hlookup, hother, List.findSome?_cons, List.findSome?_cons,
    hsame p p.startsWith_refl, hown]
  cases hfound : below.findSome? t.get? with
  | none => exact ⟨p, own, p.startsWith_refl, hown, rfl, rfl⟩
  | some r =>
    obtain ⟨q, hq, hr⟩ := List.exists_of_findSome?_eq_some hfound
    exact ⟨q, r, hbelow q hq, hr, rfl, rfl⟩

/-! ### Tables that were edited -/

variable (R) in
/-- One edit of a table. -/
inductive Edit where
  | insert (r : R)
  | erase (p : Prefix)
  | reset

/-- What an edit does to a table. -/
def edit (t : RouteTable R) : Edit R → RouteTable R
  | .insert r => t.insert r
  | .erase p => t.erase p
  | .reset => empty

/-- The table that several edits make of the empty one. -/
def built (edits : List (Edit R)) : RouteTable R :=
  edits.foldl edit empty

/-- What an edit leaves for a prefix, if it concerns the prefix. -/
def Edit.leaves? (p : Prefix) : Edit R → Option (Option R)
  | .insert r => if target r = p then some (some r) else none
  | .erase q => if q = p then some none else none
  | .reset => some none

/-- What the last of several edits left for a prefix that concerns it. -/
def latest? (edits : List (Edit R)) (p : Prefix) : Option R :=
  (edits.filterMap (·.leaves? p)).getLast?.join

theorem latest?_concat (edits : List (Edit R)) (e : Edit R) (p : Prefix) :
    latest? (edits ++ [e]) p = (e.leaves? p).getD (latest? edits p) := by
  rw [latest?, List.filterMap_append, List.getLast?_append]
  cases he : e.leaves? p with
  | none => simp [he, latest?]
  | some entry => simp [he]

theorem get?_edit (t : RouteTable R) (e : Edit R) (p : Prefix) :
    (t.edit e).get? p = (e.leaves? p).getD (t.get? p) := by
  cases e with
  | insert r =>
    simp only [edit, Edit.leaves?, get?_insert, eq_comm (a := p)]
    split <;> rfl
  | erase q =>
    simp only [edit, Edit.leaves?, get?_erase, eq_comm (a := p)]
    split <;> rfl
  | reset => rfl

theorem get?_built (edits : List (Edit R)) (p : Prefix) :
    (built edits).get? p = latest? edits p := by
  induction edits using List.reverseRecOn with
  | nil => rfl
  | append_singleton edits e ih =>
    rw [latest?_concat, ← ih, built, List.foldl_append]
    exact get?_edit (built edits) e p

/-! ### The longest match -/

/-- A prefix of an address that has an entry, and is longer than all others of this kind. -/
structure IsLongestMatch (held? : Prefix → Option R) (destination : Address) (p : Prefix) :
    Prop where
  isPrefixOf : p.isPrefixOf destination = true
  isSome : (held? p).isSome = true
  longest : ∀ q, q.isPrefixOf destination = true → (held? q).isSome = true → q ≠ p →
    q.chars.length < p.chars.length

/-- The way up from an address passes through just its prefixes. -/
theorem mem_chain_iff_isPrefixOf {destination : Address} {p : Prefix} :
    p ∈ destination.toPrefix :: destination.toPrefix.ancestors ↔
      p.isPrefixOf destination = true :=
  Prefix.mem_chain_iff

/-- The lookup ends at the longest prefix with an entry, or else it goes on to the global one. -/
theorem lookup_cases (t : RouteTable R) (destination : Address) :
    (∃ p, IsLongestMatch t.get? destination p ∧ t.lookup destination = t.get? p) ∨
      (∀ p, p.isPrefixOf destination = true → t.get? p = none) ∧
        t.lookup destination = t.get? Prefix.global := by
  have hlookup : t.lookup destination =
      ((destination.toPrefix :: destination.toPrefix.ancestors).findSome? t.get?).or
        (t.get? Prefix.global) := by
    rw [lookup, candidates, List.findSome?_append, List.findSome?_singleton]
  cases hfound : (destination.toPrefix :: destination.toPrefix.ancestors).findSome? t.get? with
  | none =>
    refine .inr ⟨fun p hp => ?_, by rw [hlookup, hfound]; rfl⟩
    exact List.findSome?_eq_none_iff.1 hfound p (mem_chain_iff_isPrefixOf.2 hp)
  | some r =>
    obtain ⟨before, p, after, hchain, hp, hbefore⟩ := List.findSome?_eq_some_iff.1 hfound
    have hshorter := destination.toPrefix.pairwise_chain
    rw [hchain, List.pairwise_append, List.pairwise_cons] at hshorter
    have hmem : ∀ q, q.isPrefixOf destination = true ↔ q ∈ before ++ p :: after := fun q => by
      rw [← hchain, mem_chain_iff_isPrefixOf]
    refine .inl ⟨p, ⟨?_, by rw [hp]; rfl, fun q hq hentry hne => ?_⟩, by
      rw [hlookup, hfound, hp]; rfl⟩
    · exact (hmem p).2 (List.mem_append_right before List.mem_cons_self)
    · -- The prefixes that were tried before have no entry.
      rcases List.mem_append.1 ((hmem q).1 hq) with hq | hq
      · rw [hbefore q hq] at hentry
        cases hentry
      · rcases List.mem_cons.1 hq with heq | hq
        · exact absurd heq hne
        · exact hshorter.2.1.1 q hq

/-- After any edits a table holds for every prefix what the last edit left that concerns it, and
this is an entry for just that prefix.  The lookup of an address gives the entry for its longest
prefix with an entry, if it has such a prefix, and otherwise that for the global prefix, if there is
one. -/
theorem lookup_built (edits : List (Edit R)) (destination : Address) :
    let t := built edits
    let held? := latest? edits
    (∀ p, t.get? p = held? p ∧ ∀ r, held? p = some r → target r = p) ∧
      ((∃ p r, IsLongestMatch held? destination p ∧ held? p = some r ∧
          t.lookup destination = some r) ∨
        (∀ p, p.isPrefixOf destination = true → held? p = none) ∧
          t.lookup destination = held? Prefix.global) := by
  intro t held?
  have hview : t.get? = held? := funext (get?_built edits)
  refine ⟨fun p => ⟨congrFun hview p, fun r hr => ?_⟩, ?_⟩
  · rw [← hview] at hr
    exact target_of_get? hr
  · rw [← hview]
    rcases t.lookup_cases destination with ⟨p, hmatch, hlookup⟩ | hnone
    · obtain ⟨r, hr⟩ := Option.isSome_iff_exists.1 hmatch.isSome
      exact .inl ⟨p, r, hmatch, hr, hlookup.trans hr⟩
    · exact .inr hnone

end RouteSync.RouteTable
