import ServiceCodec.Bytes

/-!
# Base64

The standard alphabet, with padding. Three bytes make a group of four symbols;
a last group of one or two bytes is filled up with `=`. Only canonical text is
read: the padding has to be there, nothing else may be, and the bits that the
padding leaves over have to be zero. So every text that is read is the encoding
of what it is read as.
-/

namespace ServiceCodec.Base64

/-- The symbol for a value below 64. -/
def symbol (n : Nat) : Char :=
  if n < 26 then Char.ofNat (65 + n)
  else if n < 52 then Char.ofNat (71 + n)
  else if n < 62 then Char.ofNat (n - 4)
  else if n = 62 then '+'
  else '/'

/-- The value of a symbol of the alphabet. -/
def value? (c : Char) : Option Nat :=
  let n := c.toNat
  if 65 ≤ n ∧ n ≤ 90 then some (n - 65)
  else if 97 ≤ n ∧ n ≤ 122 then some (n - 71)
  else if 48 ≤ n ∧ n ≤ 57 then some (n + 4)
  else if c = '+' then some 62
  else if c = '/' then some 63
  else none

def encode : Bytes → List Char
  | [] => []
  | [a] =>
      let n := a.toNat * 16
      [symbol (n / 64), symbol (n % 64), '=', '=']
  | [a, b] =>
      let n := (a.toNat * 256 + b.toNat) * 4
      [symbol (n / 4096), symbol (n / 64 % 64), symbol (n % 64), '=']
  | a :: b :: c :: rest =>
      let n := (a.toNat * 256 + b.toNat) * 256 + c.toNat
      symbol (n / 262144) :: symbol (n / 4096 % 64) :: symbol (n / 64 % 64) ::
        symbol (n % 64) :: encode rest

/-- A last group of two symbols, which hold one byte. -/
def decodeOne (w x : Char) : Option Bytes := do
  let n := (← value? w) * 64 + (← value? x)
  if n % 16 = 0 then some [UInt8.ofNat (n / 16)] else none

/-- A last group of three symbols, which hold two bytes. -/
def decodeTwo (w x y : Char) : Option Bytes := do
  let n := ((← value? w) * 64 + (← value? x)) * 64 + (← value? y)
  if n % 4 = 0 then some [UInt8.ofNat (n / 1024), UInt8.ofNat (n / 4 % 256)] else none

/-- A full group of four symbols, which hold three bytes. -/
def decodeThree (w x y z : Char) : Option Bytes := do
  let n := (((← value? w) * 64 + (← value? x)) * 64 + (← value? y)) * 64 + (← value? z)
  some [UInt8.ofNat (n / 65536), UInt8.ofNat (n / 256 % 256), UInt8.ofNat (n % 256)]

/-- The bytes whose encoding the text is, if it is one. -/
def decode : List Char → Option Bytes
  | [] => some []
  | w :: x :: y :: z :: rest =>
      if z = '=' ∧ rest = [] then
        if y = '=' then decodeOne w x else decodeTwo w x y
      else do
        let group ← decodeThree w x y z
        return group ++ (← decode rest)
  | _ => none

end ServiceCodec.Base64
