import RouteSync.Address.Basic

/-!
# Prefixes form a tree

A text is at or below another one if it is that text or goes on after it with a dot
(`isAtOrBelow_iff`).  Cutting off the last segment of a text that is strictly below another one
leaves a text that is still at or below it, so the way from a prefix up to its root passes through
every prefix that it lies below (`Prefix.exists_chain_eq`).  It passes through no others, and each
one on it is shorter than those before it (`Prefix.mem_chain_iff`, `Prefix.pairwise_chain`).
-/

namespace RouteSync

/-! ### Texts -/

theorem isAtOrBelow_iff {cs ds : List Char} :
    isAtOrBelow cs ds = true ↔ cs = ds ∨ ∃ rest, cs = ds ++ '.' :: rest := by
  induction ds generalizing cs with
  | nil =>
    cases cs with
    | nil => simp [isAtOrBelow]
    | cons c cs => simp [isAtOrBelow]
  | cons d ds ih =>
    cases cs with
    | nil => simp [isAtOrBelow]
    | cons c cs =>
      simp only [isAtOrBelow, Bool.and_eq_true, beq_iff_eq, ih, List.cons_append, List.cons.injEq]
      constructor
      · rintro ⟨rfl, rfl | ⟨rest, rfl⟩⟩
        · exact .inl ⟨rfl, rfl⟩
        · exact .inr ⟨rest, rfl, rfl⟩
      · rintro (⟨rfl, rfl⟩ | ⟨rest, rfl, rfl⟩)
        · exact ⟨rfl, .inl rfl⟩
        · exact ⟨rfl, .inr ⟨rest, rfl⟩⟩

theorem isAtOrBelow_refl (cs : List Char) : isAtOrBelow cs cs = true :=
  isAtOrBelow_iff.2 (.inl rfl)

theorem isAtOrBelow_trans {cs ds es : List Char} (h : isAtOrBelow cs ds = true)
    (h' : isAtOrBelow ds es = true) : isAtOrBelow cs es = true := by
  rw [isAtOrBelow_iff] at h h' ⊢
  rcases h with rfl | ⟨rest, rfl⟩
  · exact h'
  · rcases h' with rfl | ⟨rest', rfl⟩
    · exact .inr ⟨rest, rfl⟩
    · exact .inr ⟨rest' ++ '.' :: rest, by simp⟩

/-- The cut at the last dot lies no earlier than any other dot. -/
theorem exists_beforeLastDot_append_dot (as rest : List Char) :
    ∃ front, beforeLastDot (as ++ '.' :: rest) = some front ∧ isAtOrBelow front as = true := by
  induction as with
  | nil =>
    cases hrest : beforeLastDot rest with
    | none => exact ⟨[], by simp [beforeLastDot, hrest], rfl⟩
    | some front => exact ⟨'.' :: front, by simp [beforeLastDot, hrest], rfl⟩
  | cons a as ih =>
    obtain ⟨front, hfront, hbelow⟩ := ih
    refine ⟨a :: front, ?_, ?_⟩
    · rw [List.cons_append, beforeLastDot, hfront]
    · rw [isAtOrBelow, beq_self_eq_true, Bool.true_and]
      exact hbelow

/-! ### Prefixes -/

namespace Prefix

theorem startsWith_refl (p : Prefix) : p.startsWith p = true :=
  isAtOrBelow_refl p.chars

/-- Whether a prefix lies strictly below another one. -/
def IsBelow (q p : Prefix) : Prop :=
  q.startsWith p = true ∧ q ≠ p

/-- What lies below a prefix lies below everything that this one starts with. -/
theorem IsBelow.of_startsWith {q r p : Prefix} (h : q.IsBelow r) (hr : r.startsWith p = true) :
    q.IsBelow p := by
  refine ⟨isAtOrBelow_trans h.1 hr, fun hqp => ?_⟩
  have hlonger := length_lt_of_startsWith h.1 h.2
  by_cases hrp : r = p
  · exact h.2 (hqp.trans hrp.symm)
  · have hlonger' := length_lt_of_startsWith hr hrp
    rw [hqp] at hlonger
    omega

theorem beforeLastDot_of_parent? {p q : Prefix} (h : p.parent? = some q) :
    beforeLastDot p.chars = some q.chars := by
  unfold parent? at h
  split at h
  · cases h
  · rename_i front hfront
    cases h
    exact hfront

theorem startsWith_of_parent? {p q : Prefix} (h : p.parent? = some q) : p.startsWith q = true := by
  obtain ⟨last, hcut⟩ := eq_append_of_beforeLastDot (beforeLastDot_of_parent? h)
  exact isAtOrBelow_iff.2 (.inr ⟨last, hcut⟩)

theorem parent?_eq_some {p q : Prefix} (h : beforeLastDot p.chars = some q.chars) :
    p.parent? = some q := by
  unfold parent?
  split
  · rename_i hnone
    rw [hnone] at h
    cases h
  · rename_i front hfront
    rw [hfront] at h
    cases q
    cases h
    rfl

/-- What lies strictly below a prefix has a parent, and that is at or below the prefix as well. -/
theorem exists_parent?_of_startsWith {p q : Prefix} (h : p.startsWith q = true) (hne : p ≠ q) :
    ∃ r, p.parent? = some r ∧ r.startsWith q = true := by
  rcases isAtOrBelow_iff.1 h with heq | ⟨rest, hrest⟩
  · exact absurd (by cases p; cases q; cases heq; rfl) hne
  · obtain ⟨front, hfront, hbelow⟩ := exists_beforeLastDot_append_dot q.chars rest
    rw [← hrest] at hfront
    obtain ⟨last, hcut⟩ := eq_append_of_beforeLastDot hfront
    let r : Prefix := ⟨front, isPrefixText_of_append_dot (hcut ▸ p.wellFormed)⟩
    exact ⟨r, parent?_eq_some hfront, hbelow⟩

theorem ancestors_of_parent? {p q : Prefix} (h : p.parent? = some q) :
    p.ancestors = q :: q.ancestors := by
  rw [ancestors]
  split
  · rename_i hnone
    rw [hnone] at h
    cases h
  · rename_i r hr
    rw [hr] at h
    cases h
    rfl

theorem ancestors_of_parent?_eq_none {p : Prefix} (h : p.parent? = none) : p.ancestors = [] := by
  rw [ancestors]
  split
  · rfl
  · rename_i q hq
    rw [h] at hq
    cases hq

/-- The way up from a prefix passes through every prefix that it starts with, and everything before
that one starts with it too.  The induction is on the length of the text. -/
theorem exists_chain_eq {p q : Prefix} (h : p.startsWith q = true) :
    ∃ below above, p :: p.ancestors = below ++ q :: above ∧
      ∀ r ∈ below, r.startsWith q = true := by
  by_cases hpq : p = q
  · exact ⟨[], p.ancestors, by rw [hpq]; rfl, fun r hr => by cases hr⟩
  · obtain ⟨r, hparent, hr⟩ := exists_parent?_of_startsWith h hpq
    have hlt := length_lt_of_parent? hparent
    obtain ⟨below, above, hchain, hbelow⟩ := exists_chain_eq hr
    refine ⟨p :: below, above, ?_, ?_⟩
    · rw [ancestors_of_parent? hparent, hchain]
      rfl
    · rintro s (_ | ⟨_, hs⟩)
      · exact h
      · exact hbelow s hs
termination_by p.chars.length

/-- Every ancestor of a prefix is one that it starts with, and shorter than it. -/
theorem startsWith_of_mem_ancestors {p q : Prefix} (h : q ∈ p.ancestors) :
    p.startsWith q = true ∧ q.chars.length < p.chars.length := by
  cases hparent : p.parent? with
  | none =>
    rw [ancestors_of_parent?_eq_none hparent] at h
    cases h
  | some r =>
    have hlt := length_lt_of_parent? hparent
    have hr := startsWith_of_parent? hparent
    rw [ancestors_of_parent? hparent] at h
    rcases List.mem_cons.1 h with rfl | hmem
    · exact ⟨hr, hlt⟩
    · obtain ⟨hq, hshorter⟩ := startsWith_of_mem_ancestors hmem
      exact ⟨isAtOrBelow_trans hr hq, Nat.lt_trans hshorter hlt⟩
termination_by p.chars.length

/-- The way up from a prefix consists of the prefixes that it starts with. -/
theorem mem_chain_iff {p q : Prefix} : q ∈ p :: p.ancestors ↔ p.startsWith q = true := by
  constructor
  · intro h
    rcases List.mem_cons.1 h with rfl | hmem
    · exact startsWith_refl q
    · exact (startsWith_of_mem_ancestors hmem).1
  · intro h
    obtain ⟨below, above, hchain, -⟩ := exists_chain_eq h
    rw [hchain]
    exact List.mem_append_right below List.mem_cons_self

/-- On the way up from a prefix the texts become shorter and shorter. -/
theorem pairwise_chain (p : Prefix) :
    (p :: p.ancestors).Pairwise fun q r => r.chars.length < q.chars.length := by
  refine List.pairwise_cons.2 ⟨fun q hq => (startsWith_of_mem_ancestors hq).2, ?_⟩
  cases hparent : p.parent? with
  | none =>
    rw [ancestors_of_parent?_eq_none hparent]
    exact List.Pairwise.nil
  | some r =>
    have hlt := length_lt_of_parent? hparent
    rw [ancestors_of_parent? hparent]
    exact pairwise_chain r
termination_by p.chars.length

end Prefix

end RouteSync
