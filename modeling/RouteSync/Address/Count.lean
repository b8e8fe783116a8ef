import RouteSync.Address.Basic
import RouteSync.Text.Utf8

/-!
# Counting segments

The tests of `RouteSync.Address.Text` look at the characters of a text.  `countSegments?` looks at
its bytes: it goes through the segments, gives up at the first one that is no name or, at the
beginning, no scheme, and counts the others.  Every character of a name is a single byte, and no
byte of any other character is one of these, so both ways let the same texts pass
(`countSegments?_eq_some_iff`).
-/

namespace RouteSync

/-- The bytes that names are made of. -/
def isSegmentByte (b : UInt8) : Bool :=
  b == '_'.toUInt8 || b == '-'.toUInt8 || b == '~'.toUInt8 ||
    (decide ('A'.toUInt8 ≤ b) && decide (b ≤ 'Z'.toUInt8)) ||
    (decide ('a'.toUInt8 ≤ b) && decide (b ≤ 'z'.toUInt8)) ||
    (decide ('0'.toUInt8 ≤ b) && decide (b ≤ '9'.toUInt8))

/-- Count segments, so many of which were counted before. -/
def countFrom? : Nat → List (List Char) → Option Nat
  | n, [] => some n
  | n, s :: rest =>
    if s.isEmpty || !(Text.utf8Bytes (String.ofList s)).all isSegmentByte then none
    else if n == 0 && !schemes.contains s then none
    else countFrom? (n + 1) rest

/-- How many segments a text has, if it is the text of a prefix. -/
def countSegments? (cs : List Char) : Option Nat :=
  if cs.isEmpty || decide (maxTextBytes < byteLength cs) then none
  else countFrom? 0 (segmentsOf cs)

/-! ### Bytes and characters -/

theorem isSegmentByte_of_ascii :
    ∀ n < 128, isSegmentByte (UInt8.ofNat n) = isSegmentChar (Char.ofNat n) := by
  decide

theorem toNat_lt_of_isSegmentByte {b : UInt8} (h : isSegmentByte b = true) : b.toNat < 128 := by
  simp only [isSegmentByte, Bool.or_eq_true, Bool.and_eq_true, beq_iff_eq, decide_eq_true_eq,
    UInt8.le_iff_toNat_le, ← UInt8.toNat_inj] at h
  have hZ : 'Z'.toUInt8.toNat = 90 := rfl
  have hz : 'z'.toUInt8.toNat = 122 := rfl
  have h9 : '9'.toUInt8.toNat = 57 := rfl
  have hunderscore : '_'.toUInt8.toNat = 95 := rfl
  have hhyphen : '-'.toUInt8.toNat = 45 := rfl
  have htilde : '~'.toUInt8.toNat = 126 := rfl
  omega

/-- The characters of names lie in three ranges or are one of three more. -/
theorem isSegmentChar_iff_range {c : Char} :
    isSegmentChar c = true ↔
      ('A' ≤ c ∧ c ≤ 'Z') ∨ ('a' ≤ c ∧ c ≤ 'z') ∨ ('0' ≤ c ∧ c ≤ '9') ∨
        c = '_' ∨ c = '-' ∨ c = '~' := by
  have hranges : isSegmentChar c =
      (decide ('A' ≤ c ∧ c ≤ 'Z') || (decide ('a' ≤ c) && decide (c ≤ 'z')) ||
        (decide ('0' ≤ c) && decide (c ≤ '9')) || c == '_' || c == '-' || c == '~') := rfl
  simp only [hranges, Bool.or_eq_true, Bool.and_eq_true, decide_eq_true_eq, beq_iff_eq, or_assoc]

theorem toNat_lt_of_isSegmentChar {c : Char} (h : isSegmentChar c = true) : c.toNat < 128 := by
  have hupTo : ∀ last : Char, last.toNat < 128 → c ≤ last → c.toNat < 128 :=
    fun last hlast hle => Nat.lt_of_le_of_lt hle hlast
  rcases isSegmentChar_iff_range.1 h with hupper | hlower | hdigit | rfl | rfl | rfl
  · exact hupTo 'Z' (by decide) hupper.2
  · exact hupTo 'z' (by decide) hlower.2
  · exact hupTo '9' (by decide) hdigit.2
  · decide
  · decide
  · decide

/-- A character outside of ASCII begins with a byte that no name has. -/
theorem exists_encodeChar_of_le {c : Char} (h : 128 ≤ c.toNat) :
    ∃ b rest, String.utf8EncodeChar c = b :: rest ∧ 128 ≤ b.toNat := by
  have hval : ¬c.val.toNat ≤ 127 := Nat.not_le_of_lt h
  unfold String.utf8EncodeChar
  rw [if_neg hval]
  split
  · exact ⟨_, _, rfl, by rw [UInt8.toNat_ofNat']; omega⟩
  · split
    · exact ⟨_, _, rfl, by rw [UInt8.toNat_ofNat']; omega⟩
    · exact ⟨_, _, rfl, by rw [UInt8.toNat_ofNat']; omega⟩

/-- All bytes of a character are bytes of names just if it is a character of names. -/
theorem all_encodeChar (c : Char) :
    (String.utf8EncodeChar c).all isSegmentByte = isSegmentChar c := by
  by_cases h : c.toNat < 128
  · have hval : c.val.toNat ≤ 127 := Nat.le_of_lt_succ h
    have hbyte := isSegmentByte_of_ascii c.toNat h
    rw [Char.ofNat_toNat] at hbyte
    rw [String.utf8EncodeChar, if_pos hval, List.all_cons, List.all_nil, Bool.and_true]
    exact hbyte
  · obtain ⟨b, rest, hbytes, hb⟩ := exists_encodeChar_of_le (Nat.le_of_not_lt h)
    have hbyte : isSegmentByte b = false :=
      Bool.eq_false_iff.2 fun hbyte => by
        have := toNat_lt_of_isSegmentByte hbyte
        omega
    have hchar : isSegmentChar c = false :=
      Bool.eq_false_iff.2 fun hchar => h (toNat_lt_of_isSegmentChar hchar)
    rw [hbytes, List.all_cons, hbyte, hchar, Bool.false_and]

theorem all_isSegmentByte (s : List Char) :
    (Text.utf8Bytes (String.ofList s)).all isSegmentByte = s.all isSegmentChar := by
  rw [Text.utf8Bytes_ofList, List.all_flatMap]
  exact congrArg s.all (funext all_encodeChar)

/-! ### Counted texts -/

/-- Segments are counted to the end if all of them are names and, where the count begins, a scheme
stands first. -/
theorem countFrom?_eq_some_iff {n m : Nat} {segments : List (List Char)} :
    countFrom? n segments = some m ↔
      segments.all isSegment = true ∧ (n = 0 → segments.head?.all schemes.contains = true) ∧
        m = n + segments.length := by
  induction segments generalizing n with
  | nil => simp [countFrom?, eq_comm]
  | cons s rest ih =>
    have hname : (s.isEmpty || !(Text.utf8Bytes (String.ofList s)).all isSegmentByte) =
        !isSegment s := by
      rw [all_isSegmentByte, isSegment, Bool.not_and, Bool.not_not]
    have hlength : n + 1 + rest.length = n + (rest.length + 1) := by omega
    rw [countFrom?, hname, List.all_cons, List.head?_cons, Option.all_some, List.length_cons]
    generalize schemes.contains s = isScheme
    cases isSegment s with
    | false => simp
    | true =>
      by_cases hfirst : n = 0 ∧ isScheme = false
      · simp [hfirst]
      · have hscheme : n = 0 → isScheme = true := by simpa using hfirst
        -- No scheme is asked for in the rest.
        have hlater : n + 1 = 0 → rest.head?.all schemes.contains = true := fun h => by omega
        rw [if_neg (by simp), if_neg (by simpa using hscheme), ih, hlength, Bool.true_and]
        exact ⟨fun h => ⟨h.1, hscheme, h.2.2⟩, fun h => ⟨h.1, hlater, h.2.2⟩⟩

/-- Just the texts of prefixes can be counted, and each gives the number of its segments. -/
theorem countSegments?_eq_some_iff {cs : List Char} {m : Nat} :
    countSegments? cs = some m ↔ isPrefixText cs = true ∧ m = (segmentsOf cs).length := by
  obtain ⟨first, rest, hsegments⟩ := List.exists_cons_of_ne_nil (segmentsOf_ne_nil cs)
  have hcount : countFrom? 0 (segmentsOf cs) = some m ↔
      areSegments (segmentsOf cs) = true ∧ m = (segmentsOf cs).length := by
    rw [countFrom?_eq_some_iff, areSegments, Bool.and_eq_true, hsegments, and_assoc]
    simp
  rw [countSegments?, isPrefixText]
  by_cases hempty : cs = []
  · rw [hempty]
    exact iff_of_false (by simp) fun h => absurd h.1 (by decide)
  · by_cases hlong : maxTextBytes < byteLength cs
    · simp [hlong, Nat.not_le_of_lt hlong]
    · simp [hempty, hlong, Nat.le_of_not_lt hlong, hcount]

/-- The texts of addresses are those with more than one segment. -/
theorem isAddressText_iff_count {cs : List Char} :
    isAddressText cs = true ↔ ∃ m, countSegments? cs = some m ∧ 1 < m := by
  simp only [isAddressText, Bool.and_eq_true, List.contains_iff_mem, countSegments?_eq_some_iff,
    ← one_lt_length_segmentsOf_iff]
  constructor
  · rintro ⟨htext, hmore⟩
    exact ⟨_, ⟨htext, rfl⟩, hmore⟩
  · rintro ⟨m, ⟨htext, rfl⟩, hmore⟩
    exact ⟨htext, hmore⟩

/-- Make a text into an address if its segments can be counted and are more than one. -/
def Address.ofString (text : String) : Except AddressError Address :=
  match h : countSegments? text.toList with
  | some n =>
    if hn : 1 < n then .ok ⟨text.toList, isAddressText_iff_count.2 ⟨n, h, hn⟩⟩
    else .error (.invalidAddress text)
  | none => .error (.invalidAddress text)

end RouteSync
