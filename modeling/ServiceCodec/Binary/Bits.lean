import ServiceCodec.Binary.Basic

/-!
# Interchange bits

A format of `w` bits lays a number out as a sign bit, a biased exponent and a
significand without its leading bit. The least biased exponent marks the
numbers whose significand is not full, the greatest one the infinities and
what is no number.
-/

namespace ServiceCodec.Binary

variable {f : Format}

/-- The bits of the significand field. -/
def fieldWidth (f : Format) : Nat := f.precision - 1

/-- The greatest biased exponent, which finite numbers do not use. -/
def exponentLimit (f : Format) : Nat := (f.maxExponent - f.minExponent + 2).toNat

/-- The number whose interchange bits are `bits`. -/
def ofBits (f : Format) (bits : Nat) : Binary f :=
  let unit := twoTo (fieldWidth f)
  let fraction := bits % unit
  let biased := bits / unit % (exponentLimit f + 1)
  let neg : Bool := bits / unit / (exponentLimit f + 1) % 2 = 1
  if biased = exponentLimit f then if fraction = 0 then infinite neg else nan
  else if biased = 0 then ofParts neg fraction f.minExponent
  else ofParts neg (unit + fraction) (f.minExponent + (biased - 1 : Nat))

/-- The interchange bits; those of `nan` are the quiet one without a payload. -/
def toBits : Binary f → Nat
  | finite neg m q _ =>
      let unit := twoTo (fieldWidth f)
      let magnitude := if m < unit then m else ((q - f.minExponent).toNat + 1) * unit + (m - unit)
      if neg then (exponentLimit f + 1) * unit + magnitude else magnitude
  | infinite neg =>
      let unit := twoTo (fieldWidth f)
      if neg then (2 * exponentLimit f + 1) * unit else exponentLimit f * unit
  | nan => exponentLimit f * twoTo (fieldWidth f) + twoTo (fieldWidth f - 1)

end ServiceCodec.Binary
