import ServiceCodec.Json.Error

/-!
# Decoding single members

A decoder takes the value of a member and answers with what the member holds,
or with why it cannot hold it. Types are strict: a fraction is no whole number
even when its value is one, and nothing but `null` stands for an absent value.
-/

namespace ServiceCodec

/-- Reads a value of type `α` from a JSON value. -/
abbrev Decoder (α : Type) := Json → Except JsonError α

namespace Decoder

/-- Any value, as it is. -/
def any : Decoder Json := .ok

def text : Decoder String
  | .string s => .ok s
  | v => .error (.mismatch "a string" v.kind)

def boolean : Decoder Bool
  | .bool b => .ok b
  | v => .error (.mismatch "a boolean" v.kind)

/-- A whole number of so many bits, in two's complement. -/
def integer (bits : Nat) : Decoder Int
  | .number (.int n) =>
      if -(twoTo (bits - 1) : Int) ≤ n ∧ n < twoTo (bits - 1) then .ok n
      else .error (.unfitNumber "the integer")
  | v => .error (.mismatch "an integer" v.kind)

/-- Any JSON number; whole ones are rounded. -/
def double : Decoder (Binary binary64)
  | .number (.int n) => .ok (Binary.ofInt binary64 n)
  | .number (.float x) => .ok x
  | v => .error (.mismatch "a number" v.kind)

/-- Any JSON number, rounded; what is too great becomes infinite. -/
def single : Decoder (Binary binary32)
  | .number (.int n) => .ok (Binary.ofInt binary32 n)
  | .number (.float x) => .ok (x.convert binary32)
  | v => .error (.mismatch "a number" v.kind)

/-- `null` for an absent value, or else the value. -/
def optional {α : Type} (d : Decoder α) : Decoder (Option α)
  | .null => .ok none
  | v => (d v).map some

/-- The elements of an array, each read by `d`; the first failure counts. -/
def list {α : Type} (d : Decoder α) : Decoder (List α)
  | .array vs => vs.mapM d
  | v => .error (.mismatch "an array" v.kind)

/-- The values of an object, each read by `d` in key order. -/
def dictionary {α : Type} (d : Decoder α) : Decoder (Dictionary α)
  | .object es => do
      let pairs ← es.mapM fun e => do return (e.1, ← d e.2)
      return Dictionary.ofList pairs
  | v => .error (.mismatch "an object" v.kind)

end Decoder

end ServiceCodec
