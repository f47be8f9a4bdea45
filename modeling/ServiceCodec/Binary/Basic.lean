import ServiceCodec.Powers

/-!
# Binary floating-point numbers

A finite number is a whole significand times a power of two, under a sign. A
format bounds both: a number belongs to it when its significand has at most
`precision` bits and its exponent lies between the two bounds, and it is
written with the greatest significand possible, so every value but zero has one
representation in the format. The bounds are part of the type; a number that
cannot be written within them does not exist.

Rounding takes an exact quotient to the nearest number of the format, a half to
the even significand. A quotient beyond the greatest number becomes infinite.
-/

namespace ServiceCodec

/-- A binary floating-point format. -/
structure Format where
  /-- The bits of a full significand. -/
  precision : Nat
  /-- The exponent of the least significand's unit. -/
  minExponent : Int
  /-- The exponent of the greatest significand's unit. -/
  maxExponent : Int

/-- The 64-bit interchange format. -/
def binary64 : Format := ⟨53, -1074, 971⟩

/-- The 32-bit interchange format. -/
def binary32 : Format := ⟨24, -149, 104⟩

/-- The format has `m · 2 ^ q`, in this representation: the significand is full
unless the exponent is the least one. -/
def Format.Has (f : Format) (m : Nat) (q : Int) : Prop :=
  m < twoTo f.precision ∧ f.minExponent ≤ q ∧ q ≤ f.maxExponent ∧
    (q = f.minExponent ∨ twoTo (f.precision - 1) ≤ m)

instance (f : Format) (m : Nat) (q : Int) : Decidable (f.Has m q) :=
  inferInstanceAs (Decidable (_ ∧ _ ∧ _ ∧ _))

/-- A number of a binary format, an infinity, or the datum that is no number. -/
inductive Binary (f : Format) where
  /-- The number `m · 2 ^ q`, negative if `neg`. -/
  | finite (neg : Bool) (m : Nat) (q : Int) (has : f.Has m q)
  | infinite (neg : Bool)
  | nan
  deriving DecidableEq

namespace Binary

variable {f : Format}

def isFinite : Binary f → Bool
  | finite .. => true
  | _ => false

def isZero : Binary f → Bool
  | finite _ m _ _ => m = 0
  | _ => false

/-- `m · 2 ^ q` where the format has it; what does not fit is too great. -/
def ofParts (neg : Bool) (m : Nat) (q : Int) : Binary f :=
  if h : f.Has m q then finite neg m q h else infinite neg

def zero (neg : Bool) : Binary f := ofParts neg 0 f.minExponent

/-- The whole number nearest to `num / den`, a half to the even one. -/
def nearestEven (num den : Nat) : Nat :=
  let down := num / den
  let rest := num % den
  if 2 * rest < den then down
  else if den < 2 * rest then down + 1
  else if down % 2 = 0 then down
  else down + 1

/-- The quotient `num / den` divided by `2 ^ q`, as a quotient again. -/
def scaled (num den : Nat) (q : Int) : Nat × Nat :=
  (num * twoTo (-q).toNat, den * twoTo q.toNat)

/-- The greatest exponent of a power of two that is at most `num / den`, for
positive `num` and `den`. -/
def floorLog2 (num den : Nat) : Int :=
  let guess : Int := (Nat.log2 num : Int) - Nat.log2 den
  let (n, d) := scaled num den guess
  if d ≤ n then guess else guess - 1

/-- The exponent with which the format writes numbers about as great as
`num / den`. -/
def exponentOf (f : Format) (num den : Nat) : Int :=
  max f.minExponent (floorLog2 num den - (f.precision - 1 : Nat))

/-- The number of the format nearest to `num / den`, negative if `neg`. -/
def round (f : Format) (neg : Bool) (num den : Nat) : Binary f :=
  if num = 0 then zero neg
  else
    let q := exponentOf f num den
    let (n, d) := scaled num den q
    let m := nearestEven n d
    if m = twoTo f.precision then ofParts neg (twoTo (f.precision - 1)) (q + 1)
    else ofParts neg m q

/-- A significand and exponent as an exact quotient. -/
def quotient (m : Nat) (q : Int) : Nat × Nat := (m * twoTo q.toNat, twoTo (-q).toNat)

/-- The number of the format nearest to a whole number. -/
def ofInt (f : Format) (n : Int) : Binary f := round f (n < 0) n.natAbs 1

/-- The number of the format nearest to `10 ^ e`. -/
def powerOfTen (f : Format) (e : Nat) : Binary f := round f false (tenTo e) 1

/-- The rounded product. -/
def mul : Binary f → Binary f → Binary f
  | finite s m q _, finite t n r _ =>
      let (num, den) := quotient (m * n) (q + r)
      round f (s != t) num den
  | nan, _ => nan
  | _, nan => nan
  | infinite s, infinite t => infinite (s != t)
  | infinite s, finite t n _ _ => if n = 0 then nan else infinite (s != t)
  | finite s m _ _, infinite t => if m = 0 then nan else infinite (s != t)

/-- The rounded quotient. -/
def div : Binary f → Binary f → Binary f
  | finite s m q _, finite t n r _ =>
      if n = 0 then if m = 0 then nan else infinite (s != t)
      else
        let (num, den) := quotient m (q - r)
        round f (s != t) num (den * n)
  | nan, _ => nan
  | _, nan => nan
  | infinite _, infinite _ => nan
  | infinite s, finite t _ _ _ => infinite (s != t)
  | finite s _ _ _, infinite t => zero (s != t)

/-- The number of the format `g` nearest to `x`. -/
def convert (g : Format) : Binary f → Binary g
  | finite s m q _ =>
      let (num, den) := quotient m q
      round g s num den
  | infinite s => infinite s
  | nan => nan

def negate : Binary f → Binary f
  | finite s m q h => finite (!s) m q h
  | infinite s => infinite (!s)
  | nan => nan

/-- The whole number nearest to `m · 2 ^ q`, a half away from zero. -/
def nearestAway (m : Nat) (q : Int) : Nat :=
  let (num, den) := quotient m q
  (2 * num + den) / (2 * den)

/-- The nearest whole number, a half away from zero; infinities and `nan` have
none. -/
def roundAway? : Binary f → Option Int
  | finite s m q _ => some (if s then -(nearestAway m q : Int) else nearestAway m q)
  | _ => none

end Binary

end ServiceCodec
