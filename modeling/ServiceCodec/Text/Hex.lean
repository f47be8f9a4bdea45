/-!
# Hexadecimal digits

Escapes are spelled with digits of one case: in upper case behind a percent sign
and in lower case in JSON. They are read in either.
-/

namespace ServiceCodec

/-- The upper-case hexadecimal digit for `n < 16`. -/
def hexDigit (n : Nat) : Char :=
  if n < 10 then Char.ofNat (48 + n) else Char.ofNat (55 + n)

/-- The lower-case hexadecimal digit for `n < 16`. -/
def lowerHexDigit (n : Nat) : Char :=
  if n < 10 then Char.ofNat (48 + n) else Char.ofNat (87 + n)

/-- The value of a hexadecimal digit of either case. -/
def hexValue? (c : Char) : Option Nat :=
  let n := c.toNat
  if 48 ≤ n ∧ n ≤ 57 then some (n - 48)
  else if 97 ≤ n ∧ n ≤ 102 then some (n - 87)
  else if 65 ≤ n ∧ n ≤ 70 then some (n - 55)
  else none

theorem hexValue?_hexDigit : ∀ n < 16, hexValue? (hexDigit n) = some n := by decide

theorem hexValue?_lowerHexDigit : ∀ n < 16, hexValue? (lowerHexDigit n) = some n := by decide

end ServiceCodec
