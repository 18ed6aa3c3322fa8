/-
# `Delegability.Json.Number` — numbers of a document

A number that is written without a point or an exponent and fits in 64 bits is
kept exactly; every other number is a binary fraction of 53 bits.  A fraction
is read the quick way: as many leading digits as fit in 64 bits are taken, the
others dropped, and the result is scaled by one power of ten at a time, so the
last bit can differ from the nearest fraction.  It is written with the fewest
digits that read back.
-/
import Delegability.Decimal.Shortest

namespace Delegability.Json

open Delegability.Decimal

/-- A number of a document. -/
inductive Number where
  /-- A whole number that fits in 64 bits, with or without a sign. -/
  | int (n : Int)
  /-- A binary fraction of 53 bits, by its encoding. -/
  | float (bits : UInt64)
deriving DecidableEq, Inhabited

/-! ## Reading -/

/-- A numeral as it is written: the digits of its parts. -/
structure Numeral where
  /-- Whether a minus sign stands in front. -/
  negative : Bool := false
  /-- Digits before the point. -/
  whole : List Char := []
  /-- Digits after the point; none if there is no point. -/
  fraction : List Char := []
  /-- Whether the exponent has a minus sign. -/
  exponentNegative : Bool := false
  /-- Digits of the exponent; none if there is no exponent. -/
  exponent : List Char := []
deriving DecidableEq

/-- The largest coefficient that is kept: 64 bits. -/
def coefficientLimit : Nat := Nat.pow 2 64 - 1

/-- The largest exponent that is read: 31 bits. -/
def exponentLimit : Nat := Nat.pow 2 31 - 1

/-- Value of a decimal digit. -/
def digitValue (c : Char) : Nat :=
  c.toNat - '0'.toNat

/-- Takes digits into `n` as long as it stays within `limit`; gives the digits
that are left. -/
def takeDigits (limit n : Nat) : List Char → Nat × List Char
  | [] => (n, [])
  | d :: ds =>
    let n' := n * 10 + digitValue d
    if n' ≤ limit then takeDigits limit n' ds else (n, d :: ds)

/-- The greatest power of ten that is one step of scaling. -/
def scaleStep : Nat := 308

/-- Multiplies by `10^e`; nothing if the result is too large. -/
def scaleUp (f : Float) (e : Nat) : Option Float :=
  if e ≤ scaleStep then
    let g := f * Float.ofScientific 1 false e
    if g.isInf then none else some g
  else if f == 0.0 then some f else none

/-- Divides by `10^e`, in steps. -/
def scaleDown (f : Float) (e : Nat) : Float :=
  if e ≤ scaleStep then f / Float.ofScientific 1 false e
  else if f == 0.0 then f
  else scaleDown (f / Float.ofScientific 1 false scaleStep) (e - scaleStep)
termination_by e
decreasing_by simp only [scaleStep] at *; omega

/-- The fraction `± c · 10^e`; nothing if it is too large. -/
def floatOf? (negative : Bool) (c : Nat) (e : Int) : Option Number := do
  let f := c.toUInt64.toFloat
  let g ← if 0 ≤ e then scaleUp f e.toNat else some (scaleDown f (-e).toNat)
  return .float (if negative then -g else g).toBits

/-- The number a numeral stands for; nothing if it is too large. -/
def Numeral.number? (n : Numeral) : Option Number :=
  let (c, dropped) := takeDigits coefficientLimit 0 n.whole
  if n.fraction.isEmpty && n.exponent.isEmpty then
    if !dropped.isEmpty then floatOf? n.negative c dropped.length
    else if !n.negative then some (.int c)
    else if 0 < c ∧ c ≤ Nat.pow 2 63 then some (.int (-c))
    else floatOf? true c 0
  else
    let (c, unread) := takeDigits coefficientLimit c n.fraction
    let e : Int := dropped.length - (n.fraction.length - unread.length : Nat)
    let (x, tooLong) := takeDigits exponentLimit 0 n.exponent
    if tooLong.isEmpty then
      floatOf? n.negative c (if n.exponentNegative then e - x else e + x)
    else if c ≠ 0 ∧ !n.exponentNegative then none
    else floatOf? n.negative 0 0

/-! ## Writing -/

/-- Where numbers are written with a point only and where with an exponent. -/
structure FloatLayout where
  /-- The least place of the point that needs no exponent. -/
  leastPoint : Int
  /-- The greatest such place. -/
  greatestPoint : Int

/-- Fractions from `10^-5` up to `10^16` are written without an exponent. -/
def documentLayout : FloatLayout := ⟨-4, 16⟩

/-- Writes digits: with a point and at least one digit on each side of it, or
with one digit before the point and a signed exponent. -/
def FloatLayout.write (l : FloatLayout) (d : Digits) : List Char :=
  let n : Int := d.digits.length
  if l.leastPoint ≤ d.point ∧ d.point ≤ l.greatestPoint then
    if d.point ≤ 0 then
      '0' :: '.' :: List.replicate (-d.point).toNat '0' ++ d.digits
    else if n ≤ d.point then
      d.digits ++ List.replicate (d.point - n).toNat '0' ++ ['.', '0']
    else
      d.digits.take d.point.toNat ++ '.' :: d.digits.drop d.point.toNat
  else
    let e := d.point - 1
    let tail := if d.digits.length ≤ 1 then [] else '.' :: d.digits.drop 1
    d.digits.take 1 ++ tail ++
      'e' :: (if e < 0 then '-' else '+') :: Nat.toDigits 10 e.natAbs

/-- The text of a fraction given by its encoding. -/
def floatText (bits : UInt64) : List Char :=
  let sign := if bits >>> 63 = 0 then [] else ['-']
  let e := ((bits >>> 52) &&& 0x7FF).toNat
  let f := (bits &&& 0xFFFFFFFFFFFFF).toNat
  if e = 0 ∧ f = 0 then sign ++ ['0', '.', '0']
  else
    let b : Binary :=
      if e = 0 then ⟨f, -1074, false⟩ else ⟨f + Nat.pow 2 52, e - 1075, f == 0 && 1 < e⟩
    sign ++ documentLayout.write (shortest b)

/-- The text of a number. -/
def Number.text : Number → String
  | .int n => if n < 0 then "-" ++ toString n.natAbs else toString n.natAbs
  | .float bits => String.ofList (floatText bits)

end Delegability.Json
