import Mathlib.Data.List.Basic
import Mathlib.Data.List.TakeDrop
import RouteSync.Json.Reader
import RouteSync.Json.Writer
import RouteSync.Proofs.Text

/-!
# Written JSON is read back

A tree without faults, unreadable strings and numbers other than natural ones can be written
(`Tree.IsPlain`).  Reading its text gives the tree back and nothing is left (`read_write`).

What follows a written value is the end of the text, a comma or a closing bracket (`Ends`).  So a
number is read to its last digit and not further.  The depth of the calls stays below twice the
length of what was written: on the way down to a value there are at most two calls for each byte
that stands before it.
-/

namespace RouteSync.Json

open Text

/-! ### Strings -/

/-- A byte stands in a string as it is, behind a backslash, or as four digits. -/
theorem escapeByte_cases (b : UInt8) :
    (escapeByte b = [b] ∧ b ≠ 0x22 ∧ b ≠ 0x5c ∧ ¬b < 0x20) ∨
      (∃ e, escapeByte b = [0x5c, e] ∧ e ≠ 0x75 ∧ escaped? e = some b) ∨
      ∃ c d, escapeByte b = [0x5c, 0x75, 0x30, 0x30, c, d] ∧ b < 0x20 ∧
        unit? 0x30 0x30 c d = some b.toNat := by
  unfold escapeByte
  split
  · rename_i h
    rcases h with rfl | rfl
    · exact .inr (.inl ⟨0x22, rfl, by decide, rfl⟩)
    · exact .inr (.inl ⟨0x5c, rfl, by decide, rfl⟩)
  · rename_i hquoted
    split
    · rename_i h
      exact .inr (.inl ⟨0x62, rfl, by decide, h ▸ rfl⟩)
    split
    · rename_i h
      exact .inr (.inl ⟨0x74, rfl, by decide, h ▸ rfl⟩)
    split
    · rename_i h
      exact .inr (.inl ⟨0x6e, rfl, by decide, h ▸ rfl⟩)
    split
    · rename_i h
      exact .inr (.inl ⟨0x66, rfl, by decide, h ▸ rfl⟩)
    split
    · rename_i h
      exact .inr (.inl ⟨0x72, rfl, by decide, h ▸ rfl⟩)
    split
    · rename_i hcontrol
      refine .inr (.inr ⟨_, _, rfl, hcontrol, ?_⟩)
      have hb : b.toNat < 256 := b.toNat_lt
      have hhigh := Hex.value?_digit (b.toNat / 16) (by omega)
      have hlow := Hex.value?_digit (b.toNat % 16) (by omega)
      have hvalue : b.toNat / 16 * 16 + b.toNat % 16 = b.toNat := Nat.div_add_mod' b.toNat 16
      have hzero : Hex.value? 0x30 = some 0 := rfl
      simp only [asciiByte] at hhigh hlow
      simp [unit?, hhigh, hlow, hzero, hvalue]
    · rename_i hcontrol
      exact .inl ⟨rfl, fun h => hquoted (.inl h), fun h => hquoted (.inr h), hcontrol⟩

/-- A control character is given by its number. -/
theorem assemble?_unit {n : Nat} (h : n < 0x20) (ps : List Piece) :
    assemble? (.unit n :: ps) = (assemble? ps).map (UInt8.ofNat n :: ·) := by
  have hbytes : ∀ n < 0x20, charBytes n = [UInt8.ofNat n] := by decide
  have hhigh : isHighHalf n = false := by simp [isHighHalf]; omega
  have hlow : isLowHalf n = false := by simp [isLowHalf]; omega
  cases ps with
  | nil => simp [assemble?, hhigh, hlow, hbytes n h]
  | cons p ps => cases p <;> simp [assemble?, hhigh, hlow, hbytes n h]

/-- The pieces of a written string stand for its bytes. -/
theorem pieces?_escaped (bs rest : Bytes) :
    ∃ ps, pieces? (bs.flatMap escapeByte ++ 0x22 :: rest) = some (ps, rest) ∧
      assemble? ps = some bs := by
  induction bs with
  | nil => exact ⟨[], rfl, rfl⟩
  | cons b bs ih =>
    obtain ⟨ps, hps, hbytes⟩ := ih
    rw [List.flatMap_cons, List.append_assoc]
    rcases escapeByte_cases b with ⟨hb, hquote, hbackslash, hcontrol⟩ | ⟨e, hb, he, hescaped⟩ |
        ⟨c, d, hb, hcontrol, hunit⟩
    · refine ⟨.byte b :: ps, ?_, by rw [assemble?, hbytes]; rfl⟩
      rw [hb, List.singleton_append]
      simp [pieces?, hbackslash, hcontrol, hps]
    · refine ⟨.byte b :: ps, ?_, by rw [assemble?, hbytes]; rfl⟩
      rw [hb, List.cons_append, List.singleton_append]
      simp [pieces?, he, hescaped, hps]
    · refine ⟨.unit b.toNat :: ps, ?_, ?_⟩
      · rw [hb]
        simp [pieces?, hunit, hps]
      · rw [assemble?_unit (UInt8.lt_iff_toNat_lt.1 hcontrol), hbytes, UInt8.ofNat_toNat]
        rfl

theorem readText?_writeText (s : String) (rest : Bytes) :
    ∃ bs, writeText s ++ rest = 0x22 :: bs ∧ readText? bs = some (some s, rest) := by
  obtain ⟨ps, hps, hbytes⟩ := pieces?_escaped (utf8Bytes s) rest
  refine ⟨(utf8Bytes s).flatMap escapeByte ++ 0x22 :: rest, by simp [writeText], ?_⟩
  rw [readText?, hps]
  show some ((assemble? ps).bind ofUtf8?, rest) = _
  rw [hbytes, Option.bind_some, ofUtf8?_utf8Bytes]

/-! ### Numbers -/

theorem isDigit_asciiByte {c : Char} (h : c.isDigit = true) :
    isDigit (asciiByte c) = true ∧ (asciiByte c).toNat = c.toNat := by
  obtain ⟨hlow, hhigh⟩ := Char.isDigit_iff_toNat.1 h
  have hhigh : c.toNat ≤ 57 := hhigh
  have hlow : 48 ≤ c.toNat := hlow
  have hbyte : (asciiByte c).toNat = c.toNat := by
    rw [asciiByte, UInt8.toNat_ofNat']
    omega
  refine ⟨?_, hbyte⟩
  simp only [isDigit, Bool.and_eq_true, decide_eq_true_eq, UInt8.le_iff_toNat_le, hbyte]
  exact ⟨hlow, hhigh⟩

theorem ne_of_isDigit {b c : UInt8} (hb : isDigit b = true) (hc : isDigit c = false) : b ≠ c := by
  rintro rfl
  rw [hb] at hc
  cases hc

theorem isBlank_of_isDigit {b : UInt8} (hb : isDigit b = true) : isBlank b = false := by
  simp [isBlank, ne_of_isDigit hb (c := 0x20) rfl, ne_of_isDigit hb (c := 0x09) rfl,
    ne_of_isDigit hb (c := 0x0a) rfl, ne_of_isDigit hb (c := 0x0d) rfl]

theorem writeNat_eq (n : Nat) : writeNat n = (Nat.toDigits 10 n).map asciiByte := rfl

theorem isDigit_of_mem_toDigits {n : Nat} {c : Char} (h : c ∈ Nat.toDigits 10 n) :
    c.isDigit = true :=
  Nat.isDigit_of_mem_toDigits (by decide) (by decide) h

theorem isDigit_of_mem_writeNat {n : Nat} {b : UInt8} (h : b ∈ writeNat n) : isDigit b = true := by
  rw [writeNat_eq, List.mem_map] at h
  obtain ⟨c, hc, rfl⟩ := h
  exact (isDigit_asciiByte (isDigit_of_mem_toDigits hc)).1

theorem writeNat_ne_nil (n : Nat) : writeNat n ≠ [] := by
  rw [writeNat_eq, ne_eq, List.map_eq_nil_iff]
  exact Nat.toDigits_ne_nil

theorem digitsValue_writeNat (n : Nat) : digitsValue 0 (writeNat n) = n := by
  have hvalue : ∀ (cs : List Char) (m : Nat), (∀ c ∈ cs, c.isDigit = true) →
      digitsValue m (cs.map asciiByte) = Nat.ofDigitChars 10 cs m := by
    intro cs
    induction cs with
    | nil => exact fun _ _ => rfl
    | cons c cs ih =>
      intro m hcs
      rw [List.map_cons, Nat.ofDigitChars_cons,
        ← ih _ fun d hd => hcs d (List.mem_cons_of_mem c hd)]
      show digitsValue (m * 10 + ((asciiByte c).toNat - 48)) _ = _
      rw [(isDigit_asciiByte (hcs c List.mem_cons_self)).2, Nat.mul_comm m 10]
      rfl
  rw [writeNat_eq, hvalue _ _ fun c hc => isDigit_of_mem_toDigits hc, Nat.ofDigitChars_ten_toDigits]

/-- Only the zero begins with a zero. -/
theorem head?_toDigits_ne {n : Nat} (h : 0 < n) : (Nat.toDigits 10 n).head? ≠ some '0' := by
  induction n using Nat.strongRecOn with
  | ind n ih =>
    rw [Nat.toDigits_eq_if (by decide)]
    split
    · rw [List.head?_cons, ne_eq, Option.some.injEq, Nat.digitChar_eq_zero]
      omega
    · rw [List.head?_append_of_ne_nil _ Nat.toDigits_ne_nil]
      exact ih (n / 10) (by omega) (by omega)

theorem length_writeNat_of_head? {n : Nat} (h : (writeNat n).head? = some 0x30) :
    (writeNat n).length = 1 := by
  rcases Nat.eq_zero_or_pos n with rfl | hn
  · rfl
  · rw [writeNat_eq, List.head?_map, Option.map_eq_some_iff] at h
    obtain ⟨c, hc, hbyte⟩ := h
    have hdigit := isDigit_of_mem_toDigits (List.mem_of_head? hc)
    have hzero : c.toNat = '0'.toNat := by
      rw [← (isDigit_asciiByte hdigit).2, hbyte]
      rfl
    rw [Char.toNat_inj] at hzero
    exact absurd (hzero ▸ hc) (head?_toDigits_ne hn)

/-- What may stand behind a written value. -/
def Ends (rest : Bytes) : Prop :=
  ∀ b ∈ rest.head?, b = 0x2c ∨ b = 0x5d ∨ b = 0x7d

theorem ends_nil : Ends [] := by
  intro b hb
  cases hb

theorem ends_comma (rest : Bytes) : Ends (0x2c :: rest) := by
  rintro b ⟨⟩
  exact .inl rfl

theorem ends_bracket (rest : Bytes) : Ends (0x5d :: rest) := by
  rintro b ⟨⟩
  exact .inr (.inl rfl)

theorem ends_brace (rest : Bytes) : Ends (0x7d :: rest) := by
  rintro b ⟨⟩
  exact .inr (.inr rfl)

theorem digits?_writeNat (n : Nat) {rest : Bytes} (h : Ends rest) :
    digits? (writeNat n ++ rest) = some (writeNat n, rest) := by
  have hrest : rest.takeWhile isDigit = [] ∧ rest.dropWhile isDigit = rest := by
    cases rest with
    | nil => exact ⟨rfl, rfl⟩
    | cons b rest =>
      have hb : isDigit b = false := by
        rcases h b rfl with rfl | rfl | rfl <;> rfl
      simp [hb]
  have hspan : (writeNat n ++ rest).span isDigit = (writeNat n, rest) := by
    rw [List.span_eq_takeWhile_dropWhile,
      List.takeWhile_append_of_pos fun b => isDigit_of_mem_writeNat,
      List.dropWhile_append_of_pos fun b => isDigit_of_mem_writeNat, hrest.1, hrest.2,
      List.append_nil]
  rw [digits?, hspan]
  split
  · rename_i hnil
    cases writeNat_ne_nil n (Prod.mk.inj hnil).1
  · rename_i hds
    cases hds
    rfl

theorem numeral?_writeNat (n : Nat) {rest : Bytes} (h : Ends rest) :
    numeral? (writeNat n ++ rest) = some (.ofNat n, rest) := by
  have hfraction : fraction? rest = some ([], rest) := by
    unfold fraction?
    split
    · rcases h _ rfl with h | h | h <;> cases h
    · rfl
  have hexponent : exponent? rest = some (none, rest) := by
    cases rest with
    | nil => rfl
    | cons b rest => rcases h b rfl with rfl | rfl | rfl <;> rfl
  have hzero : ¬((writeNat n).head? = some 0x30 ∧ (writeNat n).length ≠ 1) :=
    fun hzero => hzero.2 (length_writeNat_of_head? hzero.1)
  have hunsigned : unsigned? false (writeNat n ++ rest) = some (.ofNat n, rest) := by
    simp only [unsigned?, digits?_writeNat n h, Option.bind_eq_bind, Option.bind_some, if_neg hzero,
      hfraction, hexponent, digitsValue_writeNat]
    rfl
  unfold numeral?
  split
  · rename_i hminus
    -- A natural number is written without a sign.
    have hhead : (writeNat n).head? = some 0x2d := by
      rw [← List.head?_append_of_ne_nil _ (writeNat_ne_nil n), hminus]
      rfl
    cases isDigit_of_mem_writeNat (List.mem_of_head? hhead)
  · exact hunsigned

/-! ### Values -/

namespace Tree

mutual

/-- Whether a tree can be written as it is. -/
def IsPlain : Tree → Prop
  | .fault | .text none => False
  | .number n => n = .ofNat n.whole
  | .array items => ArePlain items
  | .object fields => FieldsArePlain fields
  | _ => True

/-- Whether all items can be written. -/
def ArePlain : List Tree → Prop
  | [] => True
  | t :: ts => t.IsPlain ∧ ArePlain ts

/-- Whether all fields can be written. -/
def FieldsArePlain : List (Option String × Tree) → Prop
  | [] => True
  | (key, t) :: fields => key.isSome = true ∧ t.IsPlain ∧ FieldsArePlain fields

end

theorem arePlain_iff {items : List Tree} : ArePlain items ↔ ∀ t ∈ items, t.IsPlain := by
  induction items with
  | nil => simp [ArePlain]
  | cons t ts ih => rw [ArePlain, ih, List.forall_mem_cons]

theorem write_number {n : Numeral} (h : (Tree.number n).IsPlain) :
    (Tree.number n).write = writeNat n.whole := by
  have hn : n = .ofNat n.whole := h
  rw [hn]
  simp [Tree.write, writeNumeral, Numeral.ofNat]

theorem write_number_eq_cons {n : Numeral} (h : (Tree.number n).IsPlain) :
    ∃ b bs, (Tree.number n).write = b :: bs ∧ isDigit b = true := by
  obtain ⟨b, bs, hbs⟩ := List.exists_cons_of_ne_nil (writeNat_ne_nil n.whole)
  have hmem : b ∈ writeNat n.whole := by
    rw [hbs]
    exact List.mem_cons_self
  exact ⟨b, bs, (write_number h).trans hbs, isDigit_of_mem_writeNat hmem⟩

/-- A written value begins with no blank and no closing bracket. -/
theorem write_eq_cons {t : Tree} (h : t.IsPlain) :
    ∃ b bs, t.write = b :: bs ∧ isBlank b = false ∧ b ≠ 0x5d := by
  cases t with
  | null => exact ⟨_, _, rfl, rfl, by decide⟩
  | bool b => cases b <;> exact ⟨_, _, rfl, rfl, by decide⟩
  | number n =>
    obtain ⟨b, bs, hwrite, hdigit⟩ := write_number_eq_cons h
    exact ⟨b, bs, hwrite, isBlank_of_isDigit hdigit, ne_of_isDigit hdigit rfl⟩
  | text s =>
    cases s with
    | none => cases h
    | some s => exact ⟨_, _, rfl, rfl, by decide⟩
  | array items => exact ⟨_, _, rfl, rfl, by decide⟩
  | object fields => exact ⟨_, _, rfl, rfl, by decide⟩
  | fault => cases h

theorem writeItems_cons_cons (t t' : Tree) (ts : List Tree) :
    writeItems (t :: t' :: ts) = t.write ++ 0x2c :: writeItems (t' :: ts) := rfl

theorem writeFields_cons_cons (key : String) (t : Tree) (f : Option String × Tree)
    (fields : List (Option String × Tree)) :
    writeFields ((some key, t) :: f :: fields) =
      writeText key ++ 0x3a :: (t.write ++ 0x2c :: writeFields (f :: fields)) := by
  simp [writeFields]

theorem writeFields_singleton (key : String) (t : Tree) :
    writeFields [(some key, t)] = writeText key ++ 0x3a :: (t.write ++ [0x7d]) := by
  simp [writeFields]

theorem writeItems_eq_cons {t : Tree} (h : t.IsPlain) (ts : List Tree) :
    ∃ b bs, writeItems (t :: ts) = b :: bs ∧ isBlank b = false ∧ b ≠ 0x5d := by
  obtain ⟨b, bs, hwrite, hb⟩ := write_eq_cons h
  cases ts with
  | nil => exact ⟨b, _, by rw [writeItems, hwrite, List.cons_append], hb⟩
  | cons t' ts => exact ⟨b, _, by rw [writeItems_cons_cons, hwrite, List.cons_append], hb⟩

theorem writeFields_eq_cons (key : Option String) (t : Tree)
    (fields : List (Option String × Tree)) :
    ∃ bs, writeFields ((key, t) :: fields) = 0x22 :: bs := by
  cases fields with
  | nil => exact ⟨_, rfl⟩
  | cons f fields => exact ⟨_, rfl⟩

end Tree

theorem skipBlanks_cons {b : UInt8} (h : isBlank b = false) (bs : Bytes) :
    skipBlanks (b :: bs) = b :: bs := by
  rw [skipBlanks, List.dropWhile_cons, h]
  rfl

/-! ### What the reader does with each kind of value -/

section

variable {n : Nat} {bs rest : Bytes} {t : Tree}

theorem readValue_number {b : UInt8} (hb : isDigit b = true) {m : Numeral}
    (h : numeral? (b :: bs) = some (m, rest)) :
    readValue (n + 1) (b :: bs) = (.number m, some rest) := by
  have hscalar : readScalar (b :: bs) = (.number m, some rest) := by
    simp [readScalar, h, ne_of_isDigit hb (c := 0x6e) rfl, ne_of_isDigit hb (c := 0x74) rfl,
      ne_of_isDigit hb (c := 0x66) rfl]
  simp [readValue, skipBlanks_cons (isBlank_of_isDigit hb), hscalar,
    ne_of_isDigit hb (c := 0x22) rfl, ne_of_isDigit hb (c := 0x5b) rfl,
    ne_of_isDigit hb (c := 0x7b) rfl]

theorem readValue_text {s : Option String} (h : readText? bs = some (s, rest)) :
    readValue (n + 1) (0x22 :: bs) = (.text s, some rest) := by
  have hskip : skipBlanks (0x22 :: bs) = 0x22 :: bs := rfl
  simp only [readValue, hskip, h]

theorem readValue_array {b : UInt8} (hblank : isBlank b = false) (hb : b ≠ 0x5d) :
    readValue (n + 1) (0x5b :: b :: bs) =
      (.array (readItems n (b :: bs)).1, (readItems n (b :: bs)).2) := by
  have hskip : skipBlanks (0x5b :: b :: bs) = 0x5b :: b :: bs := rfl
  simp only [readValue, hskip, skipBlanks_cons hblank]
  split
  · rename_i hbracket
    cases hbracket
    exact absurd rfl hb
  · rfl

theorem readValue_object :
    readValue (n + 1) (0x7b :: 0x22 :: bs) =
      (.object (readFields n (0x22 :: bs)).1, (readFields n (0x22 :: bs)).2) :=
  rfl

theorem readItems_comma (h : readValue n bs = (t, some (0x2c :: rest))) :
    readItems (n + 1) bs = (t :: (readItems n rest).1, (readItems n rest).2) := by
  rw [readItems, h]
  rfl

theorem readItems_bracket (h : readValue n bs = (t, some (0x5d :: rest))) :
    readItems (n + 1) bs = ([t], some rest) := by
  rw [readItems, h]
  rfl

theorem readFields_comma {key : Option String} {value : Bytes}
    (hkey : readText? bs = some (key, 0x3a :: value))
    (h : readValue n value = (t, some (0x2c :: rest))) :
    readFields (n + 1) (0x22 :: bs) =
      ((key, t) :: (readFields n rest).1, (readFields n rest).2) := by
  simp [readFields, skipBlanks, isBlank, hkey, h]

theorem readFields_brace {key : Option String} {value : Bytes}
    (hkey : readText? bs = some (key, 0x3a :: value))
    (h : readValue n value = (t, some (0x7d :: rest))) :
    readFields (n + 1) (0x22 :: bs) = ([(key, t)], some rest) := by
  simp [readFields, skipBlanks, isBlank, hkey, h]

end

mutual

theorem readValue_write : ∀ (t : Tree), t.IsPlain → ∀ (n : Nat) (rest : Bytes),
    2 * t.write.length ≤ n → Ends rest → readValue n (t.write ++ rest) = (t, some rest)
  | t, ht, 0, rest, hn, _ => by
    obtain ⟨b, bs, hwrite, -, -⟩ := Tree.write_eq_cons ht
    rw [hwrite, List.length_cons] at hn
    omega
  | .null, _, _ + 1, rest, _, _ => rfl
  | .bool true, _, _ + 1, rest, _, _ => rfl
  | .bool false, _, _ + 1, rest, _, _ => rfl
  | .number m, hm, n + 1, rest, _, hrest => by
    have hread := numeral?_writeNat m.whole hrest
    rw [← Tree.write_number hm] at hread
    obtain ⟨b, bs, hwrite, hdigit⟩ := Tree.write_number_eq_cons hm
    rw [hwrite, List.cons_append] at hread ⊢
    rw [readValue_number hdigit hread, ← hm]
  | .text (some s), _, n + 1, rest, _, _ => by
    obtain ⟨bs, hwrite, hread⟩ := readText?_writeText s rest
    rw [Tree.write, hwrite, readValue_text hread]
  | .array [], _, _ + 1, rest, _, _ => rfl
  | .array (t :: ts), ht, n + 1, rest, hn, _ => by
    have ht : Tree.ArePlain (t :: ts) := ht
    rw [Tree.write, List.length_cons] at hn
    have hitems := readItems_writeItems t ts ht n rest (by omega)
    obtain ⟨b, bs, hwrite, hblank, hb⟩ := Tree.writeItems_eq_cons ht.1 ts
    rw [Tree.write, List.cons_append]
    rw [hwrite, List.cons_append] at hitems ⊢
    rw [readValue_array hblank hb, hitems]
  | .object [], _, _ + 1, rest, _, _ => rfl
  | .object ((key, t) :: fields), ht, n + 1, rest, hn, _ => by
    have ht : Tree.FieldsArePlain ((key, t) :: fields) := ht
    rw [Tree.write, List.length_cons] at hn
    have hfields := readFields_writeFields key t fields ht n rest (by omega)
    obtain ⟨bs, hwrite⟩ := Tree.writeFields_eq_cons key t fields
    rw [Tree.write, List.cons_append]
    rw [hwrite, List.cons_append] at hfields ⊢
    rw [readValue_object, hfields]

theorem readItems_writeItems : ∀ (t : Tree) (ts : List Tree), Tree.ArePlain (t :: ts) →
    ∀ (n : Nat) (rest : Bytes), 2 * (Tree.writeItems (t :: ts)).length ≤ n →
      readItems n (Tree.writeItems (t :: ts) ++ rest) = (t :: ts, some rest)
  | t, ts, ht, 0, rest, hn => by
    obtain ⟨b, bs, hwrite, -, -⟩ := Tree.writeItems_eq_cons ht.1 ts
    rw [hwrite, List.length_cons] at hn
    omega
  | t, [], ht, n + 1, rest, hn => by
    rw [Tree.writeItems, List.length_append, List.length_singleton] at hn
    have hvalue := readValue_write t ht.1 n (0x5d :: rest) (by omega) (ends_bracket rest)
    rw [Tree.writeItems, List.append_assoc, List.singleton_append, readItems_bracket hvalue]
  | t, t' :: ts, ht, n + 1, rest, hn => by
    rw [Tree.writeItems_cons_cons, List.length_append, List.length_cons] at hn
    have hvalue := readValue_write t ht.1 n (0x2c :: (Tree.writeItems (t' :: ts) ++ rest))
      (by omega) (ends_comma _)
    have hitems := readItems_writeItems t' ts ht.2 n rest (by omega)
    rw [Tree.writeItems_cons_cons, List.append_assoc, List.cons_append, readItems_comma hvalue,
      hitems]

theorem readFields_writeFields : ∀ (key : Option String) (t : Tree)
    (fields : List (Option String × Tree)), Tree.FieldsArePlain ((key, t) :: fields) →
    ∀ (n : Nat) (rest : Bytes), 2 * (Tree.writeFields ((key, t) :: fields)).length ≤ n →
      readFields n (Tree.writeFields ((key, t) :: fields) ++ rest) = ((key, t) :: fields, some rest)
  | key, t, fields, _, 0, rest, hn => by
    obtain ⟨bs, hwrite⟩ := Tree.writeFields_eq_cons key t fields
    rw [hwrite, List.length_cons] at hn
    omega
  | some key, t, [], ht, n + 1, rest, hn => by
    simp only [Tree.writeFields_singleton, List.length_append, List.length_cons,
      List.length_nil] at hn
    have hvalue := readValue_write t ht.2.1 n (0x7d :: rest) (by omega) (ends_brace rest)
    obtain ⟨bs, hwrite, hkey⟩ := readText?_writeText key (0x3a :: (t.write ++ 0x7d :: rest))
    have htext : Tree.writeFields [(some key, t)] ++ rest = 0x22 :: bs := by
      rw [← hwrite]
      simp [Tree.writeFields_singleton]
    rw [htext, readFields_brace hkey hvalue]
  | some key, t, (key', t') :: fields, ht, n + 1, rest, hn => by
    simp only [Tree.writeFields_cons_cons, List.length_append, List.length_cons] at hn
    have hvalue := readValue_write t ht.2.1 n
      (0x2c :: (Tree.writeFields ((key', t') :: fields) ++ rest)) (by omega) (ends_comma _)
    have hfields := readFields_writeFields key' t' fields ht.2.2 n rest (by omega)
    obtain ⟨bs, hwrite, hkey⟩ := readText?_writeText key
      (0x3a :: (t.write ++ 0x2c :: (Tree.writeFields ((key', t') :: fields) ++ rest)))
    have htext : Tree.writeFields ((some key, t) :: (key', t') :: fields) ++ rest = 0x22 :: bs := by
      rw [← hwrite]
      simp [Tree.writeFields_cons_cons]
    rw [htext, readFields_comma hkey hvalue, hfields]

end

/-- Reading the text of a tree gives the tree. -/
theorem read_write {t : Tree} (h : t.IsPlain) : read t.write = (t, true) := by
  have hvalue := readValue_write t h (2 * t.write.length + 2) [] (by omega) ends_nil
  rw [List.append_nil] at hvalue
  rw [read, hvalue]
  rfl

end RouteSync.Json
