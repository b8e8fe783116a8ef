import Mathlib.Computability.Language
import RouteSync.Address.Count
import RouteSync.Json.Decode
import RouteSync.Proofs.Json
import RouteSync.Proofs.Segments

/-!
# The grammar of addresses

The text of a prefix is a scheme and any number of groups, each a dot and a name; that of an address
has at least one group.  `prefixGrammar` and `addressGrammar` say this as languages over characters,
without splitting a text or counting anything.

The tests on texts split at the dots.  A text is split into a scheme and names just if it is the
scheme followed by the groups of these names (`areSegments_iff`), so the tests accept the texts of
the grammar that are short enough (`isPrefixText_iff`, `isAddressText_iff`).  All ways to read an
address or a prefix come down to one of these tests, and what the operations cut out of or put
behind a prefix passes it as well (`parse_accepts_grammar`).
-/

namespace RouteSync

open Computability

/-! ### The grammar -/

/-- Letters, digits, underscore, hyphen and tilde. -/
def IsNameChar (c : Char) : Prop :=
  ('A' ≤ c ∧ c ≤ 'Z') ∨ ('a' ≤ c ∧ c ≤ 'z') ∨ ('0' ≤ c ∧ c ≤ '9') ∨ c = '_' ∨ c = '-' ∨ c = '~'

/-- The schemes. -/
def schemeGrammar : Language Char :=
  {cs | cs ∈ schemes}

/-- A dot and a name of at least one character. -/
def groupGrammar : Language Char :=
  {cs | ∃ name, cs = '.' :: name ∧ name ≠ [] ∧ ∀ c ∈ name, IsNameChar c}

/-- A scheme and any number of groups. -/
def prefixGrammar : Language Char :=
  schemeGrammar * groupGrammar∗

/-- A scheme and at least one group. -/
def addressGrammar : Language Char :=
  schemeGrammar * (groupGrammar * groupGrammar∗)

/-- The texts that prefixes should have. -/
def prefixTexts : Set String :=
  {s | s.utf8ByteSize ≤ 1023 ∧ s.toList ∈ prefixGrammar}

/-- The texts that addresses should have. -/
def addressTexts : Set String :=
  {s | s.utf8ByteSize ≤ 1023 ∧ s.toList ∈ addressGrammar}

/-! ### Names and groups -/

theorem isSegment_iff {name : List Char} :
    isSegment name = true ↔ name ≠ [] ∧ ∀ c ∈ name, IsNameChar c := by
  simp only [isSegment, Bool.and_eq_true, Bool.not_eq_true', List.isEmpty_eq_false_iff,
    List.all_eq_true, isSegmentChar_iff_range]
  rfl

theorem isSegment_of_mem_schemes : ∀ s ∈ schemes, isSegment s = true := by
  decide

/-- A sequence of groups is made of names with a dot in front of each. -/
theorem mem_kstar_groupGrammar_iff {cs : List Char} :
    cs ∈ groupGrammar∗ ↔
      ∃ names : List (List Char), (∀ name ∈ names, isSegment name = true) ∧
        cs = names.flatMap ('.' :: ·) := by
  rw [Language.mem_kstar]
  constructor
  · rintro ⟨groups, rfl, hgroups⟩
    have hdots : ∀ group ∈ groups, '.' :: group.tail = group := by
      intro group hgroup
      obtain ⟨name, rfl, -⟩ := hgroups group hgroup
      rfl
    refine ⟨groups.map List.tail, fun name hname => ?_, ?_⟩
    · obtain ⟨group, hgroup, rfl⟩ := List.mem_map.1 hname
      obtain ⟨name, rfl, hletters⟩ := hgroups group hgroup
      exact isSegment_iff.2 hletters
    · rw [List.flatMap_map, List.flatMap_def, List.map_congr_left hdots, List.map_id']
  · rintro ⟨names, hnames, rfl⟩
    refine ⟨names.map ('.' :: ·), List.flatMap_def, fun group hgroup => ?_⟩
    obtain ⟨name, hname, rfl⟩ := List.mem_map.1 hgroup
    exact ⟨name, rfl, isSegment_iff.1 (hnames name hname)⟩

theorem mem_prefixGrammar_iff {cs : List Char} :
    cs ∈ prefixGrammar ↔
      ∃ scheme ∈ schemes, ∃ names : List (List Char), (∀ name ∈ names, isSegment name = true) ∧
        cs = scheme ++ names.flatMap ('.' :: ·) := by
  rw [prefixGrammar, Language.mem_mul]
  constructor
  · rintro ⟨scheme, hscheme, groups, hgroups, rfl⟩
    obtain ⟨names, hnames, rfl⟩ := mem_kstar_groupGrammar_iff.1 hgroups
    exact ⟨scheme, hscheme, names, hnames, rfl⟩
  · rintro ⟨scheme, hscheme, names, hnames, rfl⟩
    exact ⟨scheme, hscheme, _, mem_kstar_groupGrammar_iff.2 ⟨names, hnames, rfl⟩, rfl⟩

/-- An address is a prefix with a dot in it. -/
theorem mem_addressGrammar_iff {cs : List Char} :
    cs ∈ addressGrammar ↔ cs ∈ prefixGrammar ∧ '.' ∈ cs := by
  constructor
  · intro h
    rw [addressGrammar, Language.mem_mul] at h
    obtain ⟨scheme, hscheme, groups, hgroups, rfl⟩ := h
    obtain ⟨group, ⟨name, rfl, hname⟩, more, hmore, rfl⟩ := Language.mem_mul.1 hgroups
    obtain ⟨names, hnames, rfl⟩ := mem_kstar_groupGrammar_iff.1 hmore
    refine ⟨mem_prefixGrammar_iff.2 ⟨scheme, hscheme, name :: names, ?_, rfl⟩, by simp⟩
    exact List.forall_mem_cons.2 ⟨isSegment_iff.2 hname, hnames⟩
  · rintro ⟨h, hdot⟩
    obtain ⟨scheme, hscheme, names, hnames, rfl⟩ := mem_prefixGrammar_iff.1 h
    cases names with
    | nil =>
      rw [List.flatMap_nil, List.append_nil] at hdot
      exact absurd hdot (dot_notMem_of_isSegment (isSegment_of_mem_schemes scheme hscheme))
    | cons name names =>
      obtain ⟨hname, hnames⟩ := List.forall_mem_cons.1 hnames
      refine Language.append_mem_mul hscheme (Language.append_mem_mul ?_ ?_)
      · exact ⟨name, rfl, isSegment_iff.1 hname⟩
      · exact mem_kstar_groupGrammar_iff.2 ⟨names, hnames, rfl⟩

/-! ### Splitting -/

/-- Names with dots in front of them are split off one by one. -/
theorem segmentsOf_append_names {first : List Char} {names : List (List Char)}
    (hfirst : '.' ∉ first) (hnames : ∀ name ∈ names, '.' ∉ name) :
    segmentsOf (first ++ names.flatMap ('.' :: ·)) = first :: names := by
  induction names generalizing first with
  | nil => rw [List.flatMap_nil, List.append_nil, segmentsOf_eq_singleton hfirst]
  | cons name names ih =>
    obtain ⟨hname, hnames⟩ := List.forall_mem_cons.1 hnames
    rw [List.flatMap_cons, List.cons_append, segmentsOf_append_dot_of_notMem hfirst,
      ih hname hnames]

theorem eq_append_names_of_segmentsOf {cs first : List Char} {names : List (List Char)}
    (h : segmentsOf cs = first :: names) : cs = first ++ names.flatMap ('.' :: ·) := by
  have hdots : ∀ s ∈ first :: names, '.' ∉ s := fun s hs => dot_notMem_of_mem_segmentsOf (h ▸ hs)
  obtain ⟨hfirst, hnames⟩ := List.forall_mem_cons.1 hdots
  exact eq_of_segmentsOf_eq (h.trans (segmentsOf_append_names hfirst hnames).symm)

/-- A text is split into a scheme and names just if it is in the grammar. -/
theorem areSegments_iff {cs : List Char} :
    areSegments (segmentsOf cs) = true ↔ cs ∈ prefixGrammar := by
  rw [mem_prefixGrammar_iff]
  constructor
  · intro h
    obtain ⟨first, names, hcut⟩ := List.exists_cons_of_ne_nil (segmentsOf_ne_nil cs)
    rw [areSegments, Bool.and_eq_true, hcut, List.all_eq_true, List.head?_cons, Option.any_some,
      List.contains_iff_mem] at h
    obtain ⟨hall, hscheme⟩ := h
    exact ⟨first, hscheme, names, (List.forall_mem_cons.1 hall).2,
      eq_append_names_of_segmentsOf hcut⟩
  · rintro ⟨scheme, hscheme, names, hnames, rfl⟩
    have hfirst := isSegment_of_mem_schemes scheme hscheme
    rw [segmentsOf_append_names (dot_notMem_of_isSegment hfirst)
      fun name hname => dot_notMem_of_isSegment (hnames name hname)]
    rw [areSegments, Bool.and_eq_true, List.all_eq_true, List.head?_cons, Option.any_some,
      List.contains_iff_mem]
    exact ⟨List.forall_mem_cons.2 ⟨hfirst, hnames⟩, hscheme⟩

/-! ### Accepted texts -/

theorem byteLength_eq (cs : List Char) : byteLength cs = (String.ofList cs).utf8ByteSize := by
  show byteLength cs = (Text.utf8Bytes (String.ofList cs)).length
  rw [Text.utf8Bytes_ofList]
  induction cs with
  | nil => rfl
  | cons c cs ih =>
    rw [List.flatMap_cons, List.length_append, ← ih, String.length_utf8EncodeChar]
    rfl

theorem isPrefixText_iff {s : String} : isPrefixText s.toList = true ↔ s ∈ prefixTexts := by
  rw [isPrefixText, Bool.and_eq_true, decide_eq_true_eq, byteLength_eq, String.ofList_toList,
    areSegments_iff]
  rfl

theorem isAddressText_iff {s : String} : isAddressText s.toList = true ↔ s ∈ addressTexts := by
  rw [isAddressText, Bool.and_eq_true, isPrefixText_iff, List.contains_iff_mem]
  show (s.utf8ByteSize ≤ 1023 ∧ s.toList ∈ prefixGrammar) ∧ '.' ∈ s.toList ↔
    s.utf8ByteSize ≤ 1023 ∧ s.toList ∈ addressGrammar
  rw [mem_addressGrammar_iff, and_assoc]

theorem ofList_append_dot (cs : List Char) (s : String) :
    String.ofList (cs ++ '.' :: s.toList) = String.ofList cs ++ "." ++ s := by
  rw [← String.toList_inj]
  simp

namespace Prefix

theorem text_mem_prefixTexts (p : Prefix) : p.text ∈ prefixTexts := by
  rw [← isPrefixText_iff, text, String.toList_ofList]
  exact p.wellFormed

theorem exists_parse_iff {s : String} : (∃ p, parse s = .ok p) ↔ s ∈ prefixTexts := by
  rw [← isPrefixText_iff]
  constructor
  · rintro ⟨p, hp⟩
    rw [← parse_eq_ok hp]
    exact p.wellFormed
  · intro h
    refine ⟨⟨s.toList, h⟩, ?_⟩
    rw [parse, ofChars?, dif_pos h]

theorem text_of_parse {s : String} {p : Prefix} (h : parse s = .ok p) : p.text = s := by
  rw [text, parse_eq_ok h, String.ofList_toList]

theorem withSuffix_eq_parse (p : Prefix) (s : String) :
    p.withSuffix s.toList = parse (p.text ++ "." ++ s) := by
  rw [withSuffix, text, ofList_append_dot]

end Prefix

namespace Address

theorem parse_eq_ok {s : String} {a : Address} (h : parse s = .ok a) : a.chars = s.toList := by
  unfold parse ofChars? at h
  split at h
  · rename_i b hb
    split at hb
    · cases hb
      cases h
      rfl
    · cases hb
  · cases h

theorem exists_parse_iff {s : String} : (∃ a, parse s = .ok a) ↔ s ∈ addressTexts := by
  rw [← isAddressText_iff]
  constructor
  · rintro ⟨a, ha⟩
    rw [← parse_eq_ok ha]
    exact a.wellFormed
  · intro h
    refine ⟨⟨s.toList, h⟩, ?_⟩
    rw [parse, ofChars?, dif_pos h]

theorem text_of_parse {s : String} {a : Address} (h : parse s = .ok a) : a.text = s := by
  rw [text, parse_eq_ok h, String.ofList_toList]

theorem withSuffix_eq_parse (a : Address) (s : String) :
    a.withSuffix s.toList = parse (a.text ++ "." ++ s) := by
  rw [withSuffix, text, ofList_append_dot]

/-- Counting the segments of a text gives the same address or error as testing the text. -/
theorem ofString_eq_parse (s : String) : ofString s = parse s := by
  rw [parse, ofChars?]
  by_cases h : isAddressText s.toList = true
  · obtain ⟨m, hm, hmore⟩ := isAddressText_iff_count.1 h
    rw [dif_pos h]
    unfold ofString
    split
    · rename_i n hn
      rw [hn] at hm
      cases hm
      rw [dif_pos hmore]
    · rename_i hnone
      rw [hnone] at hm
      cases hm
  · rw [dif_neg h]
    unfold ofString
    split
    · rename_i n hn
      rw [dif_neg fun hmore => h (isAddressText_iff_count.2 ⟨n, hn, hmore⟩)]
    · rfl

end Address

namespace Json.Tree

/-- A JSON text that is a string is decoded as the text that it stands for is read. -/
theorem decode_of_read {ε α : Type} {wrap : ε → DecodeError} {parse : String → Except ε α}
    {bs : Bytes} {s : String} (h : read bs = (.text (some s), true)) :
    decode (fun t => do Decoded.ofRead wrap (parse (← t.asText))) bs =
      Decoded.ofRead wrap (parse s) := by
  rw [decode, h]
  show (do let a ← Decoded.ofRead wrap (parse s); if true then return a else throw _) = _
  cases parse s <;> rfl

end Json.Tree

/-- **Reading accepts just the grammar.**  A text is read as a prefix, or as an address, just if it
is in the grammar and takes no more than 1023 bytes, and it is kept as it is.  An address may as well
be made by counting segments, or be decoded from any JSON text that stands for the text.  What the
operations make of a prefix is in the grammar again: what stands before its last dot, what stands
before its first dot, what it becomes with a suffix, if that is not refused, and the text of an
address. -/
theorem parse_accepts_grammar (s : String) :
    ((∃ p, Prefix.parse s = .ok p) ↔ s ∈ prefixTexts) ∧
    ((∃ a, Address.parse s = .ok a) ↔ s ∈ addressTexts) ∧
    (∀ p, Prefix.parse s = .ok p → p.text = s) ∧
    (∀ a, Address.parse s = .ok a → a.text = s) ∧
    Address.ofString s = Address.parse s ∧
    Json.read (Json.Tree.write (.text (some s))) = (.text (some s), true) ∧
    (∀ bs, Json.read bs = (.text (some s), true) →
      Json.Tree.decode Json.Tree.asPrefix bs = Decoded.ofRead .address (Prefix.parse s) ∧
      Json.Tree.decode Json.Tree.asAddress bs = Decoded.ofRead .address (Address.parse s)) ∧
    (∀ p : Prefix,
      (∀ q, p.parent? = some q →
        beforeLastDot p.chars = some q.chars ∧ q.text ∈ prefixTexts) ∧
      p.root.chars = p.chars.takeWhile (· != '.') ∧ p.root.text ∈ prefixTexts ∧
      ((∃ q, p.withSuffix s.toList = .ok q) ↔ p.text ++ "." ++ s ∈ prefixTexts) ∧
      ∀ q, p.withSuffix s.toList = .ok q → q.text = p.text ++ "." ++ s) ∧
    ∀ a : Address,
      a.toPrefix.text = a.text ∧ a.text ∈ prefixTexts ∧
      ((∃ b, a.withSuffix s.toList = .ok b) ↔ a.text ++ "." ++ s ∈ addressTexts) ∧
      ∀ b, a.withSuffix s.toList = .ok b → b.text = a.text ++ "." ++ s := by
  have hwritten : Json.read (Json.Tree.write (.text (some s))) = (.text (some s), true) :=
    Json.read_write (by simp [Json.Tree.IsPlain])
  refine ⟨Prefix.exists_parse_iff, Address.exists_parse_iff, fun p => Prefix.text_of_parse,
    fun a => Address.text_of_parse, Address.ofString_eq_parse s, hwritten,
    fun bs hbs => ⟨Json.Tree.decode_of_read hbs, Json.Tree.decode_of_read hbs⟩,
    fun p => ⟨fun q hq => ⟨Prefix.beforeLastDot_of_parent? hq, q.text_mem_prefixTexts⟩, rfl,
      p.root.text_mem_prefixTexts, ?_, ?_⟩,
    fun a => ⟨rfl, a.toPrefix.text_mem_prefixTexts, ?_, ?_⟩⟩
  · rw [p.withSuffix_eq_parse]
    exact Prefix.exists_parse_iff
  · rw [p.withSuffix_eq_parse]
    exact fun q => Prefix.text_of_parse
  · rw [a.withSuffix_eq_parse]
    exact Address.exists_parse_iff
  · rw [a.withSuffix_eq_parse]
    exact fun b => Address.text_of_parse

end RouteSync
