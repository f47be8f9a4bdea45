import ServiceCodec.Binary.Basic

/-!
# Shortest decimals

A decimal reads back as a binary number when no other number of the format is
nearer to it; the reals that do so form an interval around the number, which
has its ends if the significand is even. The shortest decimal is the one with
the fewest digits that lies in the interval, and of those the nearest to the
number. On a grid of decimals with a given number of digits the two neighbours
of the number are the only candidates: if any point of the grid lies in the
interval, one of them does. All comparisons are between whole numbers.
-/

namespace ServiceCodec

/-- `digits · 10 ^ (exponent - n + 1)` for `n` decimal digits: the exponent is
that of the leading digit. -/
structure Decimal where
  digits : List Char
  exponent : Int
  deriving DecidableEq, Repr

/-- Which of two equally near neighbours is taken. -/
inductive TieBreak where
  | up
  | even
  deriving DecidableEq, Repr

namespace Binary

/-- The number `m · 2 ^ q` in fourths of its last place, with the distances
from it to the ends of the interval that reads back as it, all over one power
of two: the interval is `(value - below, value + above)` in units of
`2 ^ (q - 2)`. Below a power of two the numbers lie twice as close. -/
structure Interval where
  value : Nat
  below : Nat
  above : Nat
  /-- The exponent of the unit. -/
  unit : Int
  /-- The ends belong to the interval. -/
  closed : Bool

def interval (f : Format) (m : Nat) (q : Int) : Interval where
  value := 4 * m
  below := if m = twoTo (f.precision - 1) ∧ f.minExponent < q then 1 else 2
  above := 2
  unit := q - 2
  closed := m % 2 = 0

/-- The greatest exponent of a power of ten that is at most `num / den`, for
positive `num` and `den`, searched upwards from `low` for `fuel` steps. -/
def floorLog10 (num den : Nat) : Nat → Int → Int
  | 0, low => low
  | fuel + 1, low =>
      let next := low + 1
      if den * tenTo next.toNat ≤ num * tenTo (-next).toNat then floorLog10 num den fuel next
      else low

/-- The exponent of the leading decimal digit of `num / den`. The bits bound it
within a step or two from below. -/
def leadingExponent (num den : Nat) : Int :=
  let low := floorLog2 num den * 30102 / 100000 - 2
  floorLog10 num den 6 low

/-- The neighbour of the number on the grid of multiples of `10 ^ g` that reads
back, if one does: the nearer one, or at equal distance the one that `tie`
names. -/
def onGrid? (i : Interval) (tie : TieBreak) (g : Int) : Option Nat :=
  -- everything below is in units of 1 / (2 ^ a · 10 ^ b)
  let two := twoTo i.unit.toNat * tenTo (-g).toNat
  let ten := twoTo (-i.unit).toNat * tenTo g.toNat
  let v := i.value * two
  let low := v - i.below * two
  let high := v + i.above * two
  let down := v / ten
  let within (d : Nat) : Bool :=
    let p := d * ten
    if i.closed then low ≤ p && p ≤ high else low < p && p < high
  let toDown := v - down * ten
  let toUp := (down + 1) * ten - v
  match decide (0 < down) && within down, within (down + 1) with
  | true, true =>
      if toDown < toUp then some down
      else if toUp < toDown then some (down + 1)
      else match tie with
        | .up => some (down + 1)
        | .even => some (if down % 2 = 0 then down else down + 1)
  | true, false => some down
  | false, true => some (down + 1)
  | false, false => none

/-- Tries the grids from `g` downwards to finer ones. -/
def firstGrid (i : Interval) (tie : TieBreak) : Nat → Int → Nat × Int
  | 0, g => (0, g)
  | fuel + 1, g =>
      match onGrid? i tie g with
      | some d => (d, g)
      | none => firstGrid i tie fuel (g - 1)

/-- The digits of `d` without trailing zeros. -/
def significant (d : Nat) : List Char :=
  ((Nat.toDigits 10 d).reverse.dropWhile (· = '0')).reverse

/-- The shortest decimal that reads back as `m · 2 ^ q`, for positive `m`.
Seventeen digits are enough for the formats of this library. -/
def shortest (f : Format) (tie : TieBreak) (m : Nat) (q : Int) : Decimal :=
  let (num, den) := quotient m q
  let (d, g) := firstGrid (interval f m q) tie 20 (leadingExponent num den)
  ⟨significant d, g + ((Nat.toDigits 10 d).length - 1 : Nat)⟩

end Binary

end ServiceCodec
