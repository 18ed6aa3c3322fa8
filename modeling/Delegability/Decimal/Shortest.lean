/-
# `Delegability.Decimal.Shortest` — the fewest digits that read back

A binary fraction `m · 2^q` stands for an interval of reals: those that round to
it.  `shortest` gives the decimal with the fewest digits in that interval, and
of two such decimals the one nearer to the fraction; when both are equally near,
the one with the even coefficient.  All of it is exact arithmetic on naturals.
-/

namespace Delegability.Decimal

/-- A binary fraction `m · 2^q` and the reals that round to it. -/
structure Binary where
  /-- The significand. -/
  m : Nat
  /-- The exponent of two. -/
  q : Int
  /-- Whether the next fraction below is half as far away as the next above, as
  it is below a power of two. -/
  narrowBelow : Bool

namespace Binary

/-- The fraction is `4 · m` quarters; `quarters` is what a quarter counts, as a
numerator and a denominator. -/
def quarters (b : Binary) : Nat × Nat :=
  (Nat.pow 2 (b.q - 2).toNat, Nat.pow 2 (2 - b.q).toNat)

/-- Compares `x` quarters with `c · 10^k`. -/
def compareQuarters (b : Binary) (x c : Nat) (k : Int) : Ordering :=
  compare (x * b.quarters.1 * Nat.pow 10 (-k).toNat) (c * Nat.pow 10 k.toNat * b.quarters.2)

/-- The least number of quarters that rounds to the fraction. -/
def low (b : Binary) : Nat := 4 * b.m - if b.narrowBelow then 1 else 2

/-- The greatest number of quarters that rounds to the fraction. -/
def high (b : Binary) : Nat := 4 * b.m + 2

/-- Whether `c · 10^k` rounds to the fraction; the ends of the interval do when
the significand is even. -/
def covers (b : Binary) (c : Nat) (k : Int) : Bool :=
  let below := b.compareQuarters b.low c k
  let above := b.compareQuarters b.high c k
  if b.m % 2 = 0 then below != .gt && above != .lt else below == .lt && above == .gt

/-- The greatest `c` with `c · 10^k` not above the fraction. -/
def floorAt (b : Binary) (k : Int) : Nat :=
  4 * b.m * b.quarters.1 * Nat.pow 10 (-k).toNat / (Nat.pow 10 k.toNat * b.quarters.2)

/-- The place of the point: the least `e` with the fraction below `10^e`. -/
def point (b : Binary) : Int :=
  let num := 4 * b.m * b.quarters.1
  let e : Int := (Nat.toDigits 10 num).length - (Nat.toDigits 10 b.quarters.2).length
  if b.compareQuarters (4 * b.m) 1 e == .lt then e else e + 1

/-- The multiple of `10^k` that stands for the fraction, if one does. -/
def onGrid (b : Binary) (k : Int) : Option Nat :=
  let c := b.floorAt k
  match b.covers c k, b.covers (c + 1) k with
  | true, false => some c
  | false, true => some (c + 1)
  | false, false => none
  | true, true =>
    -- the fraction lies between them: compare it with the middle
    match compare (2 * (4 * b.m) * b.quarters.1 * Nat.pow 10 (-k).toNat)
        ((2 * c + 1) * Nat.pow 10 k.toNat * b.quarters.2) with
    | .lt => some c
    | .gt => some (c + 1)
    | .eq => some (if c % 2 = 0 then c else c + 1)

end Binary

/-- Decimal digits `d₁ d₂ …` with the value `0.d₁d₂… · 10^point`. -/
structure Digits where
  /-- The digits, the last of them not zero. -/
  digits : List Char
  /-- The place of the point. -/
  point : Int
deriving DecidableEq

/-- The digits of `c · 10^k`, without trailing zeros. -/
def Digits.ofCoefficient (c : Nat) (k : Int) : Digits :=
  let ds := Nat.toDigits 10 c
  { digits := (ds.reverse.dropWhile (· == '0')).reverse, point := k + ds.length }

/-- The digits of a binary fraction other than zero.  Seventeen digits always
tell two such fractions of 53 bits apart. -/
def shortest (b : Binary) : Digits :=
  let e := b.point
  let grids := (List.range 17).map fun (n : Nat) => e - (n + 1 : Nat)
  match grids.findSome? fun k => (b.onGrid k).map (Digits.ofCoefficient · k) with
  | some d => d
  | none => Digits.ofCoefficient (b.floorAt (e - 17)) (e - 17)

end Delegability.Decimal
