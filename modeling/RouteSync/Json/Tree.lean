import RouteSync.Text.Hex

/-!
# JSON text

`Tree` is what reading a text gives, up to the first place where the text goes wrong: there stands a
`fault` and nothing follows it.  So a decoder that walks the tree from left to right meets its own
complaints and the faults of the text in the order in which they stand in the text.

Strings keep `none` where the text of a string is well formed but stands for no text, because of a
lone surrogate or bytes that are no UTF-8.  Such a string does no harm where nobody asks for it.
-/

namespace RouteSync.Json

/-- A number as it is written.  Without a point there are no digits behind it. -/
structure Numeral where
  negative : Bool
  whole : Nat
  /-- The digits behind the point. -/
  fraction : Bytes
  exponent : Option Int
  deriving DecidableEq, Repr

/-- The numeral of a natural number. -/
def Numeral.ofNat (n : Nat) : Numeral :=
  ⟨false, n, [], none⟩

/-- The structure of a JSON text up to its first fault. -/
inductive Tree where
  | null
  | bool (b : Bool)
  | number (n : Numeral)
  | text (s : Option String)
  | array (items : List Tree)
  | object (fields : List (Option String × Tree))
  | fault

namespace Tree

mutual

/-- Whether the text went wrong nowhere in the tree. -/
def isWhole : Tree → Bool
  | .fault => false
  | .array items => areWhole items
  | .object fields => fieldsAreWhole fields
  | _ => true

/-- Whether the text went wrong nowhere in a list of items. -/
def areWhole : List Tree → Bool
  | [] => true
  | t :: ts => t.isWhole && areWhole ts

/-- Whether the text went wrong nowhere in a list of fields. -/
def fieldsAreWhole : List (Option String × Tree) → Bool
  | [] => true
  | (_, t) :: fields => t.isWhole && fieldsAreWhole fields

end

end Tree

end RouteSync.Json
