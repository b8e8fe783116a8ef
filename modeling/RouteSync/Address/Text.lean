/-!
# The text of addresses and prefixes

An address names a place in the network by segments joined by dots: a scheme out of a fixed list,
then names made of letters, digits, underscore, hyphen and tilde.  A prefix names the whole region
of addresses below it and may be a scheme alone.  This module holds the tests and cuts on plain
text; the types that carry the test as an invariant are in `RouteSync.Address.Basic`.

Main statements: cutting a well-formed text at one of its dots leaves a well-formed text
(`isPrefixText_of_append_dot`), and a cut at the last dot is such a cut
(`eq_append_of_beforeLastDot`).
-/

namespace RouteSync

/-- The most bytes that the text of an address or a prefix may take. -/
def maxTextBytes : Nat := 1023

/-- The segments that a text may begin with. -/
def schemes : List (List Char) :=
  ["g", "private", "example", "peer", "self", "test", "test1", "test2", "test3", "local"].map
    String.toList

/-- The characters that names are made of. -/
def isSegmentChar (c : Char) : Bool :=
  c.isAlphanum || c == '_' || c == '-' || c == '~'

/-- A segment is a non-empty name. -/
def isSegment (s : List Char) : Bool :=
  !s.isEmpty && s.all isSegmentChar

/-- How many bytes a text takes in UTF-8. -/
def byteLength (cs : List Char) : Nat :=
  cs.foldr (fun c n => c.utf8Size + n) 0

/-- The pieces of a text between its dots. -/
def segmentsOf (cs : List Char) : List (List Char) :=
  cs.splitOn '.'

/-- All pieces are names and the first of them is a scheme. -/
def areSegments (segments : List (List Char)) : Bool :=
  segments.all isSegment && segments.head?.any schemes.contains

/-- The texts of prefixes: a scheme, then any number of further segments, not too long. -/
def isPrefixText (cs : List Char) : Bool :=
  decide (byteLength cs ≤ maxTextBytes) && areSegments (segmentsOf cs)

/-- The texts of addresses: those of prefixes that have a second segment. -/
def isAddressText (cs : List Char) : Bool :=
  isPrefixText cs && cs.contains '.'

/-- What stands before the last dot, if there is a dot. -/
def beforeLastDot : List Char → Option (List Char)
  | [] => none
  | c :: cs =>
    match beforeLastDot cs with
    | some front => some (c :: front)
    | none => if c = '.' then some [] else none

/-- Whether the first text is the second one, or the second one followed by a dot and more. -/
def isAtOrBelow : List Char → List Char → Bool
  | rest, [] => rest.isEmpty || rest.head? == some '.'
  | [], _ :: _ => false
  | c :: cs, d :: ds => c == d && isAtOrBelow cs ds

theorem byteLength_append (as bs : List Char) :
    byteLength (as ++ bs) = byteLength as + byteLength bs := by
  induction as with
  | nil => simp [byteLength]
  | cons a as ih =>
    simp only [byteLength, List.cons_append, List.foldr_cons] at ih ⊢
    omega

theorem dot_notMem_of_isSegment {name : List Char} (h : isSegment name = true) : '.' ∉ name := by
  intro hdot
  have hall : name.all isSegmentChar = true := (Bool.and_eq_true_iff.1 h).2
  exact absurd (List.all_eq_true.1 hall '.' hdot) (by decide)

theorem areSegments_of_append {as bs : List (List Char)} (has : as ≠ [])
    (h : areSegments (as ++ bs) = true) : areSegments as = true := by
  cases as with
  | nil => exact absurd rfl has
  | cons a as => simp_all [areSegments]

theorem segmentsOf_append_dot (as bs : List Char) :
    segmentsOf (as ++ '.' :: bs) = segmentsOf as ++ segmentsOf bs :=
  List.splitOn_append_cons_self as bs

theorem segmentsOf_ne_nil (cs : List Char) : segmentsOf cs ≠ [] :=
  List.splitOn_ne_nil '.' cs

theorem segmentsOf_eq_singleton {cs : List Char} (h : '.' ∉ cs) : segmentsOf cs = [cs] :=
  List.splitOn_eq_singleton h

/-- A text with a dot has at least two segments. -/
theorem one_lt_length_segmentsOf_iff {cs : List Char} : 1 < (segmentsOf cs).length ↔ '.' ∈ cs := by
  constructor
  · intro hlength
    refine Decidable.byContradiction fun hdot => ?_
    rw [segmentsOf_eq_singleton hdot] at hlength
    exact absurd hlength (Nat.lt_irrefl 1)
  · intro hdot
    obtain ⟨front, rest, rfl⟩ := List.append_of_mem hdot
    have hfront := List.length_pos_iff.2 (segmentsOf_ne_nil front)
    have hrest := List.length_pos_iff.2 (segmentsOf_ne_nil rest)
    rw [segmentsOf_append_dot, List.length_append]
    omega

/-- A well-formed text cut at one of its dots stays well formed. -/
theorem isPrefixText_of_append_dot {as bs : List Char}
    (h : isPrefixText (as ++ '.' :: bs) = true) : isPrefixText as = true := by
  simp only [isPrefixText, Bool.and_eq_true, decide_eq_true_eq, segmentsOf_append_dot,
    byteLength_append] at h ⊢
  exact ⟨by omega, areSegments_of_append (segmentsOf_ne_nil as) h.2⟩

/-- The cut before the last dot is a cut at a dot. -/
theorem eq_append_of_beforeLastDot {cs front : List Char} (h : beforeLastDot cs = some front) :
    ∃ last, cs = front ++ '.' :: last := by
  induction cs generalizing front with
  | nil => simp [beforeLastDot] at h
  | cons c cs ih =>
    simp only [beforeLastDot] at h
    split at h
    · rename_i tail htail
      obtain ⟨last, rfl⟩ := ih htail
      cases h
      exact ⟨last, rfl⟩
    · split at h
      · rename_i hc
        cases h
        exact ⟨cs, by simp [hc]⟩
      · cases h

/-- What stands before the first dot of a well-formed text is well formed. -/
theorem isPrefixText_takeWhile {cs : List Char} (h : isPrefixText cs = true) :
    isPrefixText (cs.takeWhile (· != '.')) = true := by
  have hcut := List.takeWhile_append_dropWhile (p := (· != '.')) (l := cs)
  cases hd : cs.dropWhile (· != '.') with
  | nil =>
    rw [hd, List.append_nil] at hcut
    rwa [hcut]
  | cons d ds =>
    have hdot : d = '.' := by
      have := List.head?_dropWhile_not (· != '.') cs
      simp [hd] at this
      exact this
    rw [hd, hdot] at hcut
    exact isPrefixText_of_append_dot (hcut ▸ h)

/-- A text strictly below another one is longer. -/
theorem length_lt_of_isAtOrBelow {as bs : List Char} (h : isAtOrBelow as bs = true)
    (hne : as ≠ bs) : bs.length < as.length := by
  induction bs generalizing as with
  | nil => cases as with
    | nil => exact absurd rfl hne
    | cons a as => simp
  | cons b bs ih => cases as with
    | nil => simp [isAtOrBelow] at h
    | cons a as =>
      simp only [isAtOrBelow, Bool.and_eq_true, beq_iff_eq] at h
      have := ih h.2 (fun heq => hne (by rw [h.1, heq]))
      simpa using this

/-- A text takes at least as many bytes as it has characters. -/
theorem length_le_byteLength (cs : List Char) : cs.length ≤ byteLength cs := by
  induction cs with
  | nil => simp
  | cons c cs ih =>
    have hc : 1 ≤ c.utf8Size := Char.utf8Size_pos c
    simp only [byteLength, List.foldr_cons, List.length_cons] at ih ⊢
    omega

end RouteSync
