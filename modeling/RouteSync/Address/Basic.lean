import RouteSync.Address.Text
import RouteSync.Text.Quoted

/-!
# Addresses and prefixes

`Address` and `Prefix` are texts that carry the proof of being well formed, so no operation has to
check again.  The relations between prefixes go by whole segments: `g.bank` covers `g.bank.alice`
but not `g.bankers`.
-/

namespace RouteSync

/-- A region of the address space, such as `g.us.bank` or the whole scheme `g`. -/
structure Prefix where
  chars : List Char
  wellFormed : isPrefixText chars = true
  deriving DecidableEq

/-- The place of one party in the address space: a scheme and at least one further segment. -/
structure Address where
  chars : List Char
  wellFormed : isAddressText chars = true
  deriving DecidableEq

/-- Why a text is not an address or a prefix. -/
inductive AddressError where
  | invalidAddress (text : String)
  | invalidPrefix (text : String)
  deriving DecidableEq, Repr

/-- The wording of an `AddressError`. -/
def AddressError.message : AddressError → String
  | .invalidAddress text => "invalid ILP address: " ++ Text.quote text
  | .invalidPrefix text => "invalid ILP address prefix: " ++ Text.quote text

namespace Prefix

/-- The prefix with the given text, if the text is well formed. -/
def ofChars? (cs : List Char) : Option Prefix :=
  if h : isPrefixText cs = true then some ⟨cs, h⟩ else none

/-- Read a prefix. -/
def parse (text : String) : Except AddressError Prefix :=
  match ofChars? text.toList with
  | some p => .ok p
  | none => .error (.invalidPrefix text)

/-- The text of a prefix. -/
def text (p : Prefix) : String :=
  String.ofList p.chars

/-- The segments of a prefix, scheme first. -/
def segments (p : Prefix) : List (List Char) :=
  segmentsOf p.chars

/-- The scheme `g`, where lookups end. -/
def global : Prefix :=
  ⟨['g'], by decide⟩

/-- The scheme of a prefix, as a prefix of its own. -/
def root (p : Prefix) : Prefix :=
  ⟨p.chars.takeWhile (· != '.'), isPrefixText_takeWhile p.wellFormed⟩

/-- A prefix is a root when it has one segment. -/
def isRoot (p : Prefix) : Bool :=
  !p.chars.contains '.'

/-- The prefix without its last segment; a root has none. -/
def parent? (p : Prefix) : Option Prefix :=
  match h : beforeLastDot p.chars with
  | none => none
  | some front =>
    some ⟨front, by
      obtain ⟨last, hcut⟩ := eq_append_of_beforeLastDot h
      exact isPrefixText_of_append_dot (hcut ▸ p.wellFormed)⟩

/-- Whether `p` is `q` or lies below it. -/
def startsWith (p q : Prefix) : Bool :=
  isAtOrBelow p.chars q.chars

/-- Append further segments, given as one text. -/
def withSuffix (p : Prefix) (suffix : List Char) : Except AddressError Prefix :=
  parse (String.ofList (p.chars ++ '.' :: suffix))

/-- Prefixes are ordered by their text. -/
instance : Ord Prefix where
  compare p q := compare p.chars q.chars

/-- The parent of a prefix is shorter. -/
theorem length_lt_of_parent? {p q : Prefix} (h : p.parent? = some q) :
    q.chars.length < p.chars.length := by
  unfold parent? at h
  split at h
  · cases h
  · rename_i front hfront
    obtain ⟨last, hcut⟩ := eq_append_of_beforeLastDot hfront
    cases h
    simp [hcut]

/-- The proper ancestors of a prefix, nearest first. -/
def ancestors (p : Prefix) : List Prefix :=
  match h : p.parent? with
  | none => []
  | some q =>
    have : q.chars.length < p.chars.length := length_lt_of_parent? h
    q :: ancestors q
termination_by p.chars.length

/-- A prefix strictly below another one is longer. -/
theorem length_lt_of_startsWith {p q : Prefix} (h : p.startsWith q = true) (hne : p ≠ q) :
    q.chars.length < p.chars.length :=
  length_lt_of_isAtOrBelow h (fun heq => hne (by cases p; cases q; simp_all))

/-- No prefix is longer than the limit on texts. -/
theorem length_le (p : Prefix) : p.chars.length ≤ maxTextBytes := by
  have h := p.wellFormed
  simp only [isPrefixText, Bool.and_eq_true, decide_eq_true_eq] at h
  exact Nat.le_trans (length_le_byteLength p.chars) h.1

end Prefix

namespace Address

/-- The address with the given text, if the text is well formed. -/
def ofChars? (cs : List Char) : Option Address :=
  if h : isAddressText cs = true then some ⟨cs, h⟩ else none

/-- Read an address. -/
def parse (text : String) : Except AddressError Address :=
  match ofChars? text.toList with
  | some a => .ok a
  | none => .error (.invalidAddress text)

/-- The text of an address. -/
def text (a : Address) : String :=
  String.ofList a.chars

/-- The segments of an address, scheme first. -/
def segments (a : Address) : List (List Char) :=
  segmentsOf a.chars

/-- The region at and below an address. -/
def toPrefix (a : Address) : Prefix :=
  ⟨a.chars, by
    have := a.wellFormed
    simp only [isAddressText, Bool.and_eq_true] at this
    exact this.1⟩

/-- The scheme of an address. -/
def scheme (a : Address) : List Char :=
  a.chars.takeWhile (· != '.')

/-- Append further segments, given as one text. -/
def withSuffix (a : Address) (suffix : List Char) : Except AddressError Address :=
  parse (String.ofList (a.chars ++ '.' :: suffix))

/-- Addresses are ordered by their text. -/
instance : Ord Address where
  compare a b := compare a.chars b.chars

end Address

/-- Whether an address lies in the region of a prefix. -/
def Prefix.isPrefixOf (p : Prefix) (a : Address) : Bool :=
  isAtOrBelow a.chars p.chars

end RouteSync
