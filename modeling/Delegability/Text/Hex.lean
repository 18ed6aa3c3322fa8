/-
# `Delegability.Text.Hex` — hexadecimal digits

Escaped characters are written by the number of their code point, in small
hexadecimal digits: without leading zeros, or filled up to four places.
-/

namespace Delegability.Text

/-- The digits of `n`, with no leading zeros. -/
def hexDigits (n : Nat) : List Char :=
  Nat.toDigits 16 n

/-- The digits of `n`, filled with zeros up to four places. -/
def hex4 (n : Nat) : List Char :=
  let ds := hexDigits n
  List.replicate (4 - ds.length) '0' ++ ds

/-- The value of a hexadecimal digit, large or small. -/
def hexValue? (c : Char) : Option Nat :=
  if '0' ≤ c ∧ c ≤ '9' then some (c.toNat - '0'.toNat)
  else if 'a' ≤ c ∧ c ≤ 'f' then some (c.toNat - 'a'.toNat + 10)
  else if 'A' ≤ c ∧ c ≤ 'F' then some (c.toNat - 'A'.toNat + 10)
  else none

end Delegability.Text
