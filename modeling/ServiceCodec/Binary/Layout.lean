import ServiceCodec.Binary.Shortest

/-!
# The text of a number

A layout decides what the shortest decimal leaves open: which of two equally
near decimals is taken, for which exponents the digits are written in their
places rather than with a power of ten, and whether a whole number shows that
it belongs to the fractions.
-/

namespace ServiceCodec

/-- How a number is laid out as text. -/
structure Layout where
  tie : TieBreak
  /-- The exponents of the leading digit at which digits stand in their places;
  otherwise a power of ten, with its sign, follows the digits. -/
  inPlace : Int → Bool
  /-- A whole number in place ends in `.0`. -/
  marksWhole : Bool

namespace Binary

/-- The digits in their places, with zeros before or after them as needed. -/
def digitsInPlace (marksWhole : Bool) (d : Decimal) : List Char :=
  let n := d.digits.length
  if d.exponent < 0 then
    ['0', '.'] ++ List.replicate (-d.exponent - 1).toNat '0' ++ d.digits
  else
    let whole := d.exponent.toNat + 1
    if n ≤ whole then
      d.digits ++ List.replicate (whole - n) '0' ++ if marksWhole then ['.', '0'] else []
    else d.digits.take whole ++ ['.'] ++ d.digits.drop whole

/-- One digit before the point, the others after it, and the power of ten. -/
def digitsWithPower (d : Decimal) : List Char :=
  let mantissa := match d.digits with
    | [] => []
    | [c] => [c]
    | c :: rest => c :: '.' :: rest
  let sign := if d.exponent < 0 then '-' else '+'
  mantissa ++ ['e', sign] ++ Nat.toDigits 10 d.exponent.natAbs

/-- The decimal whose text stands for the number `m · 2 ^ q`; zero has one
digit. -/
def decimalOf (f : Format) (tie : TieBreak) (m : Nat) (q : Int) : Decimal :=
  if m = 0 then ⟨['0'], 0⟩ else shortest f tie m q

/-- The text of `x` in a layout. -/
def render {f : Format} (layout : Layout) : Binary f → List Char
  | finite neg m q _ =>
      let d := decimalOf f layout.tie m q
      let body :=
        if layout.inPlace d.exponent then digitsInPlace layout.marksWhole d
        else digitsWithPower d
      if neg then '-' :: body else body
  | infinite neg => if neg then ['-', 'i', 'n', 'f'] else ['i', 'n', 'f']
  | nan => ['N', 'a', 'N']

end Binary

end ServiceCodec
