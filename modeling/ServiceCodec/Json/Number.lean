import ServiceCodec.Json.Error

/-!
# Numbers in a document

A number is scanned into its digits first and valued afterwards. Whole numbers
of at most 64 bits are exact. Everything else is a fraction, and its value is
the one that two roundings give: as many digits as 64 bits hold make the
significand, which is rounded once, and the power of ten that is left over
multiplies or divides it, which rounds again.
-/

namespace ServiceCodec

/-- The digits of a number as they stand in the text. -/
structure Numeral where
  neg : Bool
  whole : List Char
  /-- The digits after the point, if there is one. -/
  fraction : Option (List Char)
  /-- The sign and the digits of the power of ten, if there is one. -/
  power : Option (Bool × List Char)

namespace Numeral

def isDigit (c : Char) : Bool := '0' ≤ c && c ≤ '9'

def digitValue (c : Char) : Nat := c.toNat - '0'.toNat

/-- The longest run of digits at the start, and what follows it. -/
def spanDigits (s : List Char) : List Char × List Char :=
  (s.takeWhile isDigit, s.dropWhile isDigit)

/-- One digit or more: a zero stands alone. -/
def scanWhole (s : List Char) : Except TextFault (List Char × List Char) :=
  match spanDigits s with
  | ([], []) => .error .unexpectedEnd
  | ([], c :: _) => .error (.unexpected c)
  | (ds, rest) =>
      if ds.head? = some '0' ∧ ds ≠ ['0'] then .error .badNumber else .ok (ds, rest)

/-- The digits after a point, of which there is at least one. -/
def scanFraction : List Char → Except TextFault (Option (List Char) × List Char)
  | '.' :: s =>
      match spanDigits s with
      | ([], _) => .error .badNumber
      | (ds, rest) => .ok (some ds, rest)
  | s => .ok (none, s)

/-- The sign and digits of a power of ten: at least one digit. -/
def scanPowerDigits (s : List Char) : Except TextFault (Option (Bool × List Char) × List Char) :=
  let (neg, s) := match s with
    | '+' :: s => (false, s)
    | '-' :: s => (true, s)
    | s => (false, s)
  match spanDigits s with
  | ([], _) => .error .badNumber
  | (ds, rest) => .ok (some (neg, ds), rest)

def scanPower : List Char → Except TextFault (Option (Bool × List Char) × List Char)
  | 'e' :: s => scanPowerDigits s
  | 'E' :: s => scanPowerDigits s
  | s => .ok (none, s)

/-- The number at the start of `s`, behind its sign. -/
def scan (neg : Bool) (s : List Char) : Except TextFault (Numeral × List Char) := do
  let (whole, s) ← scanWhole s
  let (fraction, s) ← scanFraction s
  let (power, s) ← scanPower s
  return (⟨neg, whole, fraction, power⟩, s)

/-- The greatest significand. -/
def significandLimit : Nat := 18446744073709551615

/-- The greatest power of ten that can be written out. -/
def powerLimit : Nat := 2147483647

/-- Takes digits into the significand `n` until the next one would exceed
`limit`; answers with the digits that are left. -/
def accumulate (limit : Nat) (n : Nat) : List Char → Nat × List Char
  | [] => (n, [])
  | c :: rest =>
      if limit < n * 10 + digitValue c then (n, c :: rest)
      else accumulate limit (n * 10 + digitValue c) rest

/-- Divides by `10 ^ 308` so many times, but not once zero is reached. -/
def divideDown : Nat → Binary binary64 → Binary binary64
  | 0, x => x
  | n + 1, x =>
      if x.isZero then x
      else divideDown n (x.div (Binary.powerOfTen binary64 308))

/-- `n · 10 ^ e` as the two roundings give it; none if it is too great. -/
def scaleByTen (n : Nat) (e : Int) : Option (Binary binary64) :=
  let x := Binary.ofInt binary64 n
  if e < 0 then
    let steps := (e.natAbs - 1) / 308
    let x := divideDown steps x
    if x.isZero then some x
    else some (x.div (Binary.powerOfTen binary64 (e.natAbs - 308 * steps)))
  else if 308 < e then if x.isZero then some x else none
  else
    let y := x.mul (Binary.powerOfTen binary64 e.toNat)
    if y.isFinite then some y else none

/-- The value under its sign. -/
def signed (neg : Bool) (x : Binary binary64) : Binary binary64 := if neg then x.negate else x

/-- The value of a number that is no whole number of 64 bits. -/
def fractionValue (n : Numeral) : Except TextFault (Binary binary64) :=
  let (m, dropped) := accumulate significandLimit 0 n.whole
  let digits := n.fraction.getD []
  let (m', dropped') := accumulate significandLimit m digits
  let e : Int := dropped.length - (digits.length - dropped'.length : Nat)
  let finish (e : Int) := match scaleByTen m' e with
    | some x => .ok (signed n.neg x)
    | none => .error .numberOutOfRange
  match n.power with
  | none => finish e
  | some (negPower, ds) =>
      match accumulate powerLimit 0 ds with
      | (p, []) => finish (if negPower then e - p else e + p)
      | (_, _ :: _) =>
          if m' = 0 ∨ negPower then .ok (signed n.neg (Binary.zero false))
          else .error .numberOutOfRange

/-- The number that a numeral stands for. -/
def value (n : Numeral) : Except TextFault Number :=
  match n.fraction, n.power, accumulate significandLimit 0 n.whole with
  | none, none, (m, []) =>
      if !n.neg then .ok (.int m)
      else if m = 0 ∨ 9223372036854775808 < m then .ok (.float (Binary.ofInt binary64 m).negate)
      else .ok (.int (-(m : Int)))
  | _, _, _ => n.fractionValue.map .float

end Numeral

/-- Fractions stand in their places for the exponents from -5 to 15, and always
show that they are fractions. -/
def numberLayout : Layout where
  tie := .even
  inPlace := fun e => -5 ≤ e && e ≤ 15
  marksWhole := true

/-- A whole number in decimal. -/
def decimalText (n : Int) : List Char :=
  if n < 0 then '-' :: Nat.toDigits 10 n.natAbs else Nat.toDigits 10 n.natAbs

/-- The text of a number; what is not finite has none and is written `null`. -/
def Number.write : Number → List Char
  | int n => decimalText n
  | float x => if x.isFinite then x.render numberLayout else ['n', 'u', 'l', 'l']

end ServiceCodec
