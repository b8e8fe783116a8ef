import RouteSync.Text.Shown

/-!
# Quoted text

The form in which messages show a text or a character: between quotes, with a backslash before
quotes and backslashes, short names for the common control characters, and the number of every
character that has no visible form of its own.
-/

namespace RouteSync.Text

/-- The lower-case hexadecimal digits of a number, without leading zeros. -/
def hexNumber (n : Nat) : List Char :=
  Nat.toDigits 16 n

/-- A character inside quotes of the kind `mark`; the other kind of quote stays as it is. -/
def quoteChar (mark c : Char) : List Char :=
  if c = mark ∨ c = '\\' then ['\\', c]
  else if c = '\n' then ['\\', 'n']
  else if c = '\r' then ['\\', 'r']
  else if c = '\t' then ['\\', 't']
  else if c = '\x00' then ['\\', '0']
  else if isShown c then [c]
  else ['\\', 'u', '\x7b'] ++ hexNumber c.toNat ++ ['\x7d']

/-- A text between double quotes. -/
def quote (text : String) : String :=
  String.ofList ('"' :: text.toList.flatMap (quoteChar '"') ++ ['"'])

/-- A character between single quotes. -/
def quoteOne (c : Char) : String :=
  String.ofList ('\'' :: quoteChar '\'' c ++ ['\''])

end RouteSync.Text
