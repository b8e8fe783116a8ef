import Mathlib.Algebra.GroupWithZero.Nat
import RouteSync.Digest.Basic
import RouteSync.Table.Id
import RouteSync.Address.Basic

/-!
# Texts that can be read back

Hexadecimal digits, thirty-two bytes, table ids, prefixes and addresses are read back from their
text as they were.  Their texts are ASCII, where a byte stands for each character
(`utf8Bytes_ofList_of_ascii`), so reading, which looks at bytes, sees the characters that were
written.
-/

namespace RouteSync

namespace Text

/-- The byte of an ASCII character. -/
def asciiByte (c : Char) : UInt8 :=
  UInt8.ofNat c.toNat

theorem utf8EncodeChar_of_ascii {c : Char} (h : c.toNat < 128) :
    String.utf8EncodeChar c = [asciiByte c] := by
  have hval : c.val.toNat ≤ 0x7f := Nat.le_of_lt_succ h
  rw [String.utf8EncodeChar, if_pos hval]
  rfl

/-- An ASCII text has as many bytes as characters. -/
theorem utf8Bytes_ofList_of_ascii {cs : List Char} (h : ∀ c ∈ cs, c.toNat < 128) :
    utf8Bytes (String.ofList cs) = cs.map asciiByte := by
  rw [utf8Bytes_ofList]
  induction cs with
  | nil => rfl
  | cons c cs ih =>
    rw [List.flatMap_cons, utf8EncodeChar_of_ascii (h c List.mem_cons_self),
      ih fun d hd => h d (List.mem_cons_of_mem c hd)]
    rfl

namespace Hex

theorem digit_ascii : ∀ n < 16, (digit n).toNat < 128 := by decide

theorem value?_digit : ∀ n < 16, value? (asciiByte (digit n)) = some n := by decide

theorem encode_ascii {bs : Bytes} : ∀ c ∈ encode bs, c.toNat < 128 := by
  intro c hc
  obtain ⟨b, -, hdigit⟩ := List.mem_flatMap.1 hc
  have hb : b.toNat < 256 := b.toNat_lt
  simp only [byteDigits, List.mem_cons, List.not_mem_nil, or_false] at hdigit
  rcases hdigit with rfl | rfl
  · exact digit_ascii _ (by omega)
  · exact digit_ascii _ (by omega)

theorem length_encode (bs : Bytes) : (encode bs).length = 2 * bs.length := by
  induction bs with
  | nil => rfl
  | cons b bs ih =>
    rw [encode, List.flatMap_cons, List.length_append, ← encode, ih, List.length_cons]
    simp only [byteDigits, List.length_cons, List.length_nil]
    omega

/-- The two digits of a byte are read back, wherever they stand. -/
theorem decodePairs_byteDigits (index : Nat) (b : UInt8) (rest : Bytes) :
    decodePairs index ((byteDigits b).map asciiByte ++ rest) =
      (decodePairs (index + 2) rest).map (b :: ·) := by
  have hb : b.toNat < 256 := b.toNat_lt
  have hhigh := value?_digit (b.toNat / 16) (by omega)
  have hlow := value?_digit (b.toNat % 16) (by omega)
  have hvalue : UInt8.ofNat (b.toNat / 16 * 16 + b.toNat % 16) = b := by
    rw [Nat.div_add_mod', UInt8.ofNat_toNat]
  simp only [byteDigits, List.map_cons, List.map_nil, List.cons_append, List.nil_append,
    decodePairs, valueAt, hhigh, hlow]
  cases decodePairs (index + 2) rest with
  | error e => rfl
  | ok bytes => exact congrArg (fun b => Except.ok (b :: bytes)) hvalue

theorem decodePairs_encode (index : Nat) (bs : Bytes) :
    decodePairs index ((encode bs).map asciiByte) = .ok bs := by
  induction bs generalizing index with
  | nil => rfl
  | cons b bs ih =>
    rw [encode, List.flatMap_cons, List.map_append, decodePairs_byteDigits, ← encode, ih]
    rfl

end Hex

end Text

open Text Text.Hex

theorem Bytes32.parse_hex (v : Bytes32) : parse v.hex = .ok v := by
  have hbytes : utf8Bytes v.hex = (encode v.bytes).map asciiByte :=
    utf8Bytes_ofList_of_ascii encode_ascii
  have hlength : ((encode v.bytes).map asciiByte).length = 64 := by
    rw [List.length_map, length_encode, v.length_eq]
  have hvalue : ofBytes? v.bytes = some v := dif_pos v.length_eq
  simp only [parse, hbytes, hlength, decodePairs_encode]
  simp [bind, Except.bind, pure, Except.pure, hvalue]

namespace TableId

theorem ofDigits?_encode (id : TableId) :
    ofDigits? ((encode id.bytes).map asciiByte) = some id := by
  rw [ofDigits?, decodePairs_encode]
  exact dif_pos id.length_eq

/-- Groups are read back if there are enough digits for them. -/
theorem ungrouped?_grouped (ns : List Nat) {cs : List Char} (h : ns.sum ≤ cs.length) :
    ungrouped? ns ((grouped ns cs).map asciiByte) = some (cs.map asciiByte) := by
  induction ns generalizing cs with
  | nil => rfl
  | cons n ns ih =>
    rw [List.sum_cons] at h
    have hn : ((cs.take n).map asciiByte).length = n := by
      rw [List.length_map, List.length_take]
      omega
    have hrest := @ih (cs.drop n) (by rw [List.length_drop]; omega)
    rw [grouped, List.map_append, List.map_cons, ungrouped?, List.drop_left' hn, List.take_left' hn]
    show (ungrouped? ns _).map _ = _
    rw [hrest, Option.map_some, ← List.map_append, List.take_append_drop]

theorem length_grouped (ns : List Nat) {cs : List Char} (h : ns.sum ≤ cs.length) :
    (grouped ns cs).length = cs.length + ns.length := by
  induction ns generalizing cs with
  | nil => rfl
  | cons n ns ih =>
    rw [List.sum_cons] at h
    have hrest := @ih (cs.drop n) (by rw [List.length_drop]; omega)
    rw [grouped, List.length_append, List.length_cons, hrest, List.length_take, List.length_drop,
      List.length_cons]
    omega

theorem grouped_ascii (ns : List Nat) {cs : List Char} (h : ∀ c ∈ cs, c.toNat < 128) :
    ∀ c ∈ grouped ns cs, c.toNat < 128 := by
  induction ns generalizing cs with
  | nil => exact h
  | cons n ns ih =>
    intro c hc
    rw [grouped, List.mem_append, List.mem_cons] at hc
    rcases hc with htake | rfl | hdrop
    · exact h c (List.mem_of_mem_take htake)
    · decide
    · exact ih (fun d hd => h d (List.mem_of_mem_drop hd)) c hdrop

theorem parse?_text (id : TableId) : parse? id.text = some id := by
  have henough : [8, 4, 4, 4].sum ≤ (encode id.bytes).length := by
    rw [length_encode, id.length_eq]
    decide
  have hbytes : utf8Bytes id.text = (grouped [8, 4, 4, 4] (encode id.bytes)).map asciiByte :=
    utf8Bytes_ofList_of_ascii (grouped_ascii _ encode_ascii)
  have hlength : (utf8Bytes id.text).length = 36 := by
    rw [hbytes, List.length_map, length_grouped _ henough, length_encode, id.length_eq]
    rfl
  have hnotPlain : ¬(utf8Bytes id.text).length = 32 := by
    rw [hlength]
    decide
  simp only [parse?]
  rw [if_neg hnotPlain, if_pos hlength, hbytes, ungrouped?_grouped _ henough, Option.bind_some,
    ofDigits?_encode]

end TableId

theorem Prefix.parse_text (p : Prefix) : parse p.text = .ok p := by
  have hchars : ofChars? p.text.toList = some p := by
    rw [text, String.toList_ofList]
    exact dif_pos p.wellFormed
  rw [parse, hchars]

theorem Address.parse_text (a : Address) : parse a.text = .ok a := by
  have hchars : ofChars? a.text.toList = some a := by
    rw [text, String.toList_ofList]
    exact dif_pos a.wellFormed
  rw [parse, hchars]

end RouteSync
