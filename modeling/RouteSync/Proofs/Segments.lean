import Mathlib.Data.List.Infix
import Mathlib.Data.List.TakeWhile
import RouteSync.Proofs.Address

/-!
# Prefixes as lists of segments

A text is put together from the pieces between its dots (`eq_of_segmentsOf_eq`), so a prefix is
known by its segments.  All operations on prefixes, which cut and compare texts, have a meaning for
the lists of segments: one prefix starts with another just if its list begins with that of the other
(`isAtOrBelow_iff_segments`), the parent lacks the last segment (`parent?_eq_some_iff`), the root is
the first segment alone (`segments_root`), and a suffix brings in its own pieces at the end
(`segments_of_withSuffix`).  That prefixes form a tree is then a matter of lists
(`tree_of_segments`).
-/

namespace RouteSync

/-! ### Texts and their pieces -/

/-- Joining the pieces of a text by dots gives the text back, so texts with the same pieces are the
same. -/
theorem eq_of_segmentsOf_eq {cs ds : List Char} (h : segmentsOf cs = segmentsOf ds) : cs = ds := by
  have hjoined : ['.'].intercalate (segmentsOf cs) = ['.'].intercalate (segmentsOf ds) := by rw [h]
  rwa [segmentsOf, segmentsOf, List.intercalate_splitOn, List.intercalate_splitOn] at hjoined

/-- The first piece of a text with a dot ends at the first dot. -/
theorem segmentsOf_append_dot_of_notMem {first : List Char} (h : '.' ∉ first) (rest : List Char) :
    segmentsOf (first ++ '.' :: rest) = first :: segmentsOf rest :=
  List.splitOn_append_cons_self_of_not_mem h rest

/-- No piece of a text has a dot.  The induction is on the length of the text, which gets shorter by
its first piece. -/
theorem dot_notMem_of_mem_segmentsOf {cs s : List Char} (h : s ∈ segmentsOf cs) : '.' ∉ s := by
  by_cases hdot : '.' ∈ cs
  · obtain ⟨first, rest, hcut, hfirst⟩ := List.eq_append_cons_of_mem hdot
    rw [hcut, segmentsOf_append_dot_of_notMem hfirst, List.mem_cons] at h
    rcases h with rfl | hrest
    · exact hfirst
    · have hshorter : rest.length < cs.length := by
        rw [hcut, List.length_append, List.length_cons]
        omega
      exact dot_notMem_of_mem_segmentsOf hrest
  · rw [segmentsOf_eq_singleton hdot, List.mem_singleton] at h
    rwa [h]
termination_by cs.length

theorem segmentsOf_intercalate {segments : List (List Char)} (hne : segments ≠ [])
    (hdots : ∀ s ∈ segments, '.' ∉ s) : segmentsOf (['.'].intercalate segments) = segments :=
  List.splitOn_intercalate '.' hdots hne

theorem length_segmentsOf_eq_one_iff {cs : List Char} :
    (segmentsOf cs).length = 1 ↔ '.' ∉ cs := by
  have hpos := List.length_pos_iff.2 (segmentsOf_ne_nil cs)
  rw [← one_lt_length_segmentsOf_iff]
  omega

/-- A text is at or below another one just if its pieces begin with those of the other. -/
theorem isAtOrBelow_iff_segments {cs ds : List Char} :
    isAtOrBelow cs ds = true ↔ segmentsOf ds <+: segmentsOf cs := by
  rw [isAtOrBelow_iff]
  constructor
  · rintro (rfl | ⟨rest, rfl⟩)
    · exact List.prefix_rfl
    · rw [segmentsOf_append_dot]
      exact List.prefix_append _ _
  · rintro ⟨names, hnames⟩
    by_cases hne : names = []
    · rw [hne, List.append_nil] at hnames
      exact .inl (eq_of_segmentsOf_eq hnames).symm
    · -- What is left of the text are the remaining pieces, joined by dots.
      have hdots : ∀ s ∈ names, '.' ∉ s := fun s hs =>
        dot_notMem_of_mem_segmentsOf (hnames ▸ List.mem_append_right _ hs)
      refine .inr ⟨['.'].intercalate names, eq_of_segmentsOf_eq ?_⟩
      rw [segmentsOf_append_dot, segmentsOf_intercalate hne hdots, hnames]

theorem segmentsOf_takeWhile (cs : List Char) :
    segmentsOf (cs.takeWhile (· != '.')) = (segmentsOf cs).take 1 := by
  by_cases hdot : '.' ∈ cs
  · obtain ⟨first, rest, rfl, hfirst⟩ := List.eq_append_cons_of_mem hdot
    have hall : ∀ c ∈ first, (c != '.') = true := fun c hc =>
      bne_iff_ne.2 fun heq => hfirst (heq ▸ hc)
    have hnone : ('.' :: rest).takeWhile (· != '.') = [] := rfl
    rw [List.takeWhile_append_of_pos hall, hnone, List.append_nil, segmentsOf_eq_singleton hfirst,
      segmentsOf_append_dot_of_notMem hfirst]
    rfl
  · have hall : ∀ c ∈ cs, (c != '.') = true := fun c hc =>
      bne_iff_ne.2 fun heq => hdot (heq ▸ hc)
    rw [List.takeWhile_eq_self_iff.2 hall, segmentsOf_eq_singleton hdot]
    rfl

/-- The cut before the last dot takes the last piece off and no more. -/
theorem segmentsOf_of_beforeLastDot {cs front : List Char} (h : beforeLastDot cs = some front) :
    ∃ last, segmentsOf cs = segmentsOf front ++ [last] := by
  obtain ⟨last, rfl⟩ := eq_append_of_beforeLastDot h
  refine ⟨last, ?_⟩
  have hdot : '.' ∉ last := by
    -- Were there a later dot, the cut would lie at or behind it.
    intro hdot
    obtain ⟨as, rest, rfl⟩ := List.append_of_mem hdot
    obtain ⟨front', hfront', hbelow⟩ := exists_beforeLastDot_append_dot (front ++ '.' :: as) rest
    rw [List.append_assoc, List.cons_append, h] at hfront'
    cases hfront'
    rcases isAtOrBelow_iff.1 hbelow with heq | ⟨more, hmore⟩
    · exact absurd (congrArg List.length heq) (by simp)
    · have hlength := congrArg List.length hmore
      simp only [List.length_append, List.length_cons] at hlength
      omega
  rw [segmentsOf_append_dot, segmentsOf_eq_singleton hdot]

/-! ### Prefixes and their segments -/

namespace Prefix

variable {p q r : Prefix}

theorem segments_ne_nil (p : Prefix) : p.segments ≠ [] :=
  segmentsOf_ne_nil p.chars

theorem eq_of_segments_eq (h : p.segments = q.segments) : p = q := by
  have hchars : p.chars = q.chars := eq_of_segmentsOf_eq h
  cases p
  cases q
  cases hchars
  rfl

theorem startsWith_iff_segments : p.startsWith q = true ↔ q.segments <+: p.segments :=
  isAtOrBelow_iff_segments

theorem startsWith_trans (h : p.startsWith q = true) (h' : q.startsWith r = true) :
    p.startsWith r = true :=
  isAtOrBelow_trans h h'

theorem eq_of_startsWith (h : p.startsWith q = true) (h' : q.startsWith p = true) : p = q := by
  have hlength := (startsWith_iff_segments.1 h).length_le
  exact eq_of_segments_eq ((startsWith_iff_segments.1 h').eq_of_length_le hlength)

/-- Of two prefixes that a third one starts with, one starts with the other. -/
theorem startsWith_or_startsWith (hq : p.startsWith q = true) (hr : p.startsWith r = true) :
    q.startsWith r = true ∨ r.startsWith q = true := by
  rw [startsWith_iff_segments] at hq hr
  rw [startsWith_iff_segments, startsWith_iff_segments]
  exact List.prefix_or_prefix_of_prefix hr hq

theorem isRoot_iff_length : p.isRoot = true ↔ p.segments.length = 1 := by
  rw [segments, length_segmentsOf_eq_one_iff, isRoot, Bool.not_eq_eq_eq_not, Bool.not_true,
    ← Bool.not_eq_true, List.contains_iff_mem]

theorem segments_root (p : Prefix) : p.root.segments = p.segments.take 1 :=
  segmentsOf_takeWhile p.chars

theorem isRoot_root (p : Prefix) : p.root.isRoot = true := by
  have hpos := List.length_pos_iff.2 p.segments_ne_nil
  rw [isRoot_iff_length, segments_root, List.length_take]
  omega

/-- A prefix starts with its own root and with no other one. -/
theorem root_eq_iff : p.root = q ↔ q.isRoot = true ∧ p.startsWith q = true := by
  constructor
  · rintro rfl
    refine ⟨p.isRoot_root, startsWith_iff_segments.2 ?_⟩
    rw [segments_root]
    exact List.take_prefix 1 p.segments
  · rintro ⟨hroot, hstarts⟩
    rw [startsWith_iff_segments, List.prefix_iff_eq_take, isRoot_iff_length.1 hroot] at hstarts
    exact eq_of_segments_eq (p.segments_root.trans hstarts.symm)

/-- The parent of a prefix has all its segments but the last. -/
theorem parent?_eq_some_iff : p.parent? = some q ↔ ∃ last, p.segments = q.segments ++ [last] := by
  have hcut : ∀ r, p.parent? = some r → ∃ last, p.segments = r.segments ++ [last] :=
    fun r hr => segmentsOf_of_beforeLastDot (beforeLastDot_of_parent? hr)
  refine ⟨hcut q, ?_⟩
  rintro ⟨last, hlast⟩
  have hstarts : p.startsWith q = true := startsWith_iff_segments.2 ⟨[last], hlast.symm⟩
  have hne : p ≠ q := by
    rintro rfl
    exact absurd (congrArg List.length hlast) (by simp)
  obtain ⟨r, hr, -⟩ := exists_parent?_of_startsWith hstarts hne
  obtain ⟨last', hlast'⟩ := hcut r hr
  rw [hlast] at hlast'
  rw [hr, eq_of_segments_eq (List.append_inj_left' hlast' rfl)]

/-! ### The way up -/

/-- The prefix that is reached by going to the parent so many times. -/
def nthParent? : Nat → Prefix → Option Prefix
  | 0, p => some p
  | k + 1, p => p.parent?.bind (nthParent? k)

/-- Each step up takes one segment off the end. -/
theorem nthParent?_eq_some_iff {k : Nat} :
    p.nthParent? k = some q ↔ ∃ names, names.length = k ∧ p.segments = q.segments ++ names := by
  induction k generalizing p with
  | zero =>
    constructor
    · intro hsame
      exact ⟨[], rfl, by rw [Option.some.inj hsame, List.append_nil]⟩
    · rintro ⟨names, hlength, hsegments⟩
      rw [List.eq_nil_of_length_eq_zero hlength, List.append_nil] at hsegments
      rw [eq_of_segments_eq hsegments]
      rfl
  | succ k ih =>
    rw [nthParent?, Option.bind_eq_some_iff]
    constructor
    · rintro ⟨r, hparent, hr⟩
      obtain ⟨last, hlast⟩ := parent?_eq_some_iff.1 hparent
      obtain ⟨names, hlength, hsegments⟩ := ih.1 hr
      refine ⟨names ++ [last], by rw [List.length_append, hlength]; rfl, ?_⟩
      rw [hlast, hsegments, List.append_assoc]
    · rintro ⟨names, hlength, hsegments⟩
      have hnames : names ≠ [] := List.ne_nil_of_length_eq_add_one hlength
      have hstarts : p.startsWith q = true := startsWith_iff_segments.2 ⟨names, hsegments.symm⟩
      have hne : p ≠ q := by
        rintro rfl
        exact hnames (List.self_eq_append_right.1 hsegments)
      obtain ⟨r, hparent, -⟩ := exists_parent?_of_startsWith hstarts hne
      obtain ⟨last, hlast⟩ := parent?_eq_some_iff.1 hparent
      refine ⟨r, hparent, ih.2 ⟨names.dropLast, by rw [List.length_dropLast, hlength]; rfl, ?_⟩⟩
      rw [hlast, ← List.dropLast_append_getLast hnames, ← List.append_assoc] at hsegments
      exact List.append_inj_left' hsegments rfl

/-- The way up passes through the prefixes that the prefix starts with. -/
theorem startsWith_iff_nthParent? : p.startsWith q = true ↔ ∃ k, p.nthParent? k = some q := by
  rw [startsWith_iff_segments]
  constructor
  · rintro ⟨names, hnames⟩
    exact ⟨names.length, nthParent?_eq_some_iff.2 ⟨names, rfl, hnames.symm⟩⟩
  · rintro ⟨k, hk⟩
    obtain ⟨names, -, hnames⟩ := nthParent?_eq_some_iff.1 hk
    exact ⟨names, hnames.symm⟩

theorem nthParent?_root (p : Prefix) : p.nthParent? (p.segments.length - 1) = some p.root := by
  refine nthParent?_eq_some_iff.2 ⟨p.segments.drop 1, List.length_drop, ?_⟩
  rw [segments_root, List.take_append_drop]

/-- There are only as many steps up as there are segments behind the first. -/
theorem nthParent?_length (p : Prefix) : p.nthParent? p.segments.length = none := by
  rw [Option.eq_none_iff_forall_ne_some]
  intro q hq
  obtain ⟨names, hlength, hnames⟩ := nthParent?_eq_some_iff.1 hq
  have hpos := List.length_pos_iff.2 q.segments_ne_nil
  have htotal := congrArg List.length hnames
  rw [List.length_append] at htotal
  omega

/-- The root is the only one on the way up that is a root. -/
theorem isRoot_iff_of_nthParent? {k : Nat} (h : p.nthParent? k = some q) :
    q.isRoot = true ↔ q = p.root := by
  have hstarts : p.startsWith q = true := startsWith_iff_nthParent?.2 ⟨k, h⟩
  constructor
  · intro hroot
    exact (root_eq_iff.2 ⟨hroot, hstarts⟩).symm
  · rintro rfl
    exact p.isRoot_root

/-! ### Suffixes -/

theorem parse_eq_ok {text : String} (h : parse text = .ok p) : p.chars = text.toList := by
  unfold parse ofChars? at h
  split at h
  · rename_i q hq
    split at hq
    · cases hq
      cases h
      rfl
    · cases hq
  · cases h

theorem segments_of_withSuffix {suffix : List Char} (h : q.withSuffix suffix = .ok p) :
    p.segments = q.segments ++ segmentsOf suffix := by
  rw [segments, parse_eq_ok h, String.toList_ofList, segmentsOf_append_dot]
  rfl

/-- What is put behind a prefix is a part of the way down from it. -/
theorem nthParent?_of_withSuffix {suffix : List Char} (h : q.withSuffix suffix = .ok p) :
    p.nthParent? (segmentsOf suffix).length = some q :=
  nthParent?_eq_some_iff.2 ⟨segmentsOf suffix, rfl, segments_of_withSuffix h⟩

theorem isBelow_of_withSuffix {suffix : List Char} (h : q.withSuffix suffix = .ok p) :
    p.IsBelow q := by
  have hsegments := segments_of_withSuffix h
  refine ⟨startsWith_iff_segments.2 ⟨segmentsOf suffix, hsegments.symm⟩, ?_⟩
  rintro rfl
  exact segmentsOf_ne_nil suffix (List.self_eq_append_right.1 hsegments)

/-- **Prefixes form the tree of lists of segments.**  A prefix starts with another one just if its
segments begin with those of the other, and just if the other one is met on the way up from it.
This is an order, in which any two prefixes that a third one starts with can be compared.  The way
up ends in the root, after as many steps as there are further segments, and meets no root before.
A suffix adds its pieces at the end, and going up once for each of them leads back. -/
theorem tree_of_segments (p q : Prefix) (suffix : String) :
    (p.startsWith q = true ↔ q.segments <+: p.segments) ∧
    (p.startsWith q = true ↔ ∃ k, p.nthParent? k = some q) ∧
    p.startsWith p = true ∧
    (∀ r, p.startsWith q = true → q.startsWith r = true → p.startsWith r = true) ∧
    (p.startsWith q = true → q.startsWith p = true → p = q) ∧
    (∀ r, p.startsWith q = true → p.startsWith r = true →
      q.startsWith r = true ∨ r.startsWith q = true) ∧
    p.nthParent? (p.segments.length - 1) = some p.root ∧
    p.nthParent? p.segments.length = none ∧
    (∀ k r, p.nthParent? k = some r → (r.isRoot = true ↔ r = p.root)) ∧
    (q.withSuffix suffix.toList = .ok p →
      p.segments = q.segments ++ segmentsOf suffix.toList ∧
      p.startsWith q = true ∧ p ≠ q ∧
      p.nthParent? (segmentsOf suffix.toList).length = some q) := by
  refine ⟨startsWith_iff_segments, startsWith_iff_nthParent?, p.startsWith_refl,
    fun r => startsWith_trans, eq_of_startsWith, fun r => startsWith_or_startsWith,
    p.nthParent?_root, p.nthParent?_length, fun k r => isRoot_iff_of_nthParent?, fun h => ?_⟩
  obtain ⟨hstarts, hne⟩ := isBelow_of_withSuffix h
  exact ⟨segments_of_withSuffix h, hstarts, hne, nthParent?_of_withSuffix h⟩

end Prefix

end RouteSync
