import ServiceCodec.Binary.Basic
import ServiceCodec.Dictionary

/-!
# JSON values

Whole numbers and fractions are told apart, as a body tells them apart: a number
written with a point or a power of ten is a fraction even if its value is
whole. The entries of an object are kept in key order, each key once; every
object that the library builds is made by `Entries.insert`, and `Canonical`
says so of a whole value.
-/

namespace ServiceCodec

/-- A JSON number. -/
inductive Number where
  | int (value : Int)
  | float (value : Binary binary64)
  deriving DecidableEq

/-- A JSON value. -/
inductive Json where
  | null
  | bool (value : Bool)
  | number (value : Number)
  | string (value : String)
  | array (elements : List Json)
  | object (entries : List (String × Json))

/-- The entries of a JSON object. -/
abbrev JsonObject := Entries Json

namespace Json

instance : Inhabited Json := ⟨null⟩

/-- The types that JSON distinguishes. -/
inductive Kind where
  | null | boolean | number | string | array | object
  deriving DecidableEq, Repr

/-- The name of a type in messages. -/
def Kind.name : Kind → String
  | null => "null"
  | boolean => "boolean"
  | number => "number"
  | string => "string"
  | array => "array"
  | object => "object"

def kind : Json → Kind
  | null => .null
  | bool _ => .boolean
  | number _ => .number
  | string _ => .string
  | array _ => .array
  | object _ => .object

/-- The object with the given fields; later ones replace earlier ones. -/
def ofFields (fields : List (String × Json)) : Json := object (Entries.ofList fields)

/-- The text of a string, and nothing of any other value. -/
def text? : Json → Option String
  | string s => some s
  | _ => none

/-- The entries of an object, and nothing of any other value. -/
def object? : Json → Option JsonObject
  | object es => some es
  | _ => none

/-- A fraction, or `null` for what is no finite number. -/
def ofBinary (x : Binary binary64) : Json :=
  if x.isFinite then number (.float x) else null

mutual

/-- How many arrays and objects lie inside each other. -/
def depth : Json → Nat
  | array vs => depthElements vs + 1
  | object es => depthMembers es + 1
  | _ => 0

def depthElements : List Json → Nat
  | [] => 0
  | v :: vs => max (depth v) (depthElements vs)

def depthMembers : List (String × Json) → Nat
  | [] => 0
  | (_, v) :: es => max (depth v) (depthMembers es)

end

mutual

/-- Every object, at any depth, has its keys in strictly increasing order. -/
def Canonical : Json → Prop
  | array vs => CanonicalElements vs
  | object es => Entries.Sorted es ∧ CanonicalMembers es
  | _ => True

def CanonicalElements : List Json → Prop
  | [] => True
  | v :: vs => Canonical v ∧ CanonicalElements vs

def CanonicalMembers : List (String × Json) → Prop
  | [] => True
  | (_, v) :: es => Canonical v ∧ CanonicalMembers es

end

end Json

end ServiceCodec
