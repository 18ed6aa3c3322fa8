/-
# `Delegability.Text.Blank` — blank characters

A name is refused when nothing in it can be seen, so "blank" has to mean one
fixed set of characters.  It is the Unicode property `White_Space`, given here
as ranges of code points; core's `Char.isWhitespace` knows four of them.
-/

namespace Delegability.Text

/-- The code points of the Unicode property `White_Space`, as closed ranges in
increasing order. -/
def blankRanges : List (Nat × Nat) :=
  [(0x09, 0x0D), (0x20, 0x20), (0x85, 0x85), (0xA0, 0xA0), (0x1680, 0x1680),
   (0x2000, 0x200A), (0x2028, 0x2029), (0x202F, 0x202F), (0x205F, 0x205F),
   (0x3000, 0x3000)]

/-- Whether the code point `n` lies in one of the ranges. -/
def inRanges (ranges : List (Nat × Nat)) (n : Nat) : Bool :=
  ranges.any fun r => r.1 ≤ n && n ≤ r.2

/-- A blank character: one that shows nothing. -/
def isBlank (c : Char) : Bool :=
  inRanges blankRanges c.toNat

/-- A text of blank characters only; the empty text is one. -/
def allBlank (s : String) : Bool :=
  s.toList.all isBlank

/-- The plain space is blank. -/
theorem isBlank_space : isBlank ' ' = true := by decide

/-- The underscore, which repairs blank names, is not. -/
theorem isBlank_underscore : isBlank '_' = false := by decide

end Delegability.Text
