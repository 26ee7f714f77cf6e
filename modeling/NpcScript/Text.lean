/-!
# Text in columns

Listings and messages set names and numbers in columns: names are padded on the right with blanks,
numerals on the left with zeros. Widths count characters. The digits of hexadecimal numerals are
read back in either case.
-/

namespace NpcScript.Text

/-- The text `s` followed by blanks, at least `width` characters long. -/
def padRight (width : Nat) (s : String) : String :=
  s.pushn ' ' (width - s.length)

/-- The text `s` preceded by zeros, at least `width` characters long. -/
def padZeros (width : Nat) (s : String) : String :=
  "".pushn '0' (width - s.length) ++ s

/-- The decimal numeral of `n`, with leading zeros up to `width` digits. -/
def decimal (width n : Nat) : String :=
  padZeros width (toString n)

/-- The hexadecimal numeral of `n`, with leading zeros up to `width` digits. -/
def hex (width n : Nat) : String :=
  padZeros width (String.ofList (Nat.toDigits 16 n))

/-- The value of a hexadecimal digit. -/
def hexDigit? (c : Char) : Option Nat :=
  if c.isDigit then some (c.toNat - '0'.toNat)
  else if 'a' ≤ c && c ≤ 'f' then some (c.toNat - 'a'.toNat + 10)
  else if 'A' ≤ c && c ≤ 'F' then some (c.toNat - 'A'.toNat + 10)
  else none

end NpcScript.Text
