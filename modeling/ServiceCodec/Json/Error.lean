import ServiceCodec.Binary.Layout
import ServiceCodec.Json.Basic
import ServiceCodec.Json.Place

/-!
# What can be wrong with a JSON document

A document is malformed, or it is JSON but not the JSON that a shape asks for,
or a value refuses to be written. Each cause is a constructor; the wording is
in one place.
-/

namespace ServiceCodec

/-- Why a text is no JSON. -/
inductive TextFault where
  | notUtf8
  | unexpectedEnd
  | unexpected (c : Char)
  | controlCharacter (c : Char)
  | unknownEscape
  | loneSurrogate
  | badNumber
  | numberOutOfRange
  | nestedTooDeeply
  | trailing
  deriving DecidableEq

/-- Why a document could not be read, bound or written. -/
inductive JsonError where
  | malformed (fault : TextFault)
  /-- A value of another type than the member's. -/
  | mismatch (expected : String) (found : Json.Kind)
  /-- A number that the member's type cannot hold. -/
  | unfitNumber (expected : String)
  | missingField (name : String)
  /-- An array with more elements than the shape has fields. -/
  | surplusElements (count : Nat)
  | badBase64
  | timestampOutOfRange (seconds : Binary binary64)
  /-- A map whose keys are not text. -/
  | keyNotText
  /-- A value that refuses to be written, in its own words, and where. -/
  | refused (reason : String) (place : Option Place)
  deriving DecidableEq

def TextFault.message : TextFault → String
  | notUtf8 => "invalid unicode"
  | unexpectedEnd => "unexpected end"
  | unexpected c => "unexpected character " ++ String.ofList [c]
  | controlCharacter _ => "control character in string"
  | unknownEscape => "unknown escape"
  | loneSurrogate => "lone surrogate"
  | badNumber => "invalid number"
  | numberOutOfRange => "number out of range"
  | nestedTooDeeply => "nested too deeply"
  | trailing => "trailing characters"

/-- Seconds in an error are written out in full, with as many digits as they
need and without a power of ten. -/
def secondsLayout : Layout where
  tie := .up
  inPlace := fun _ => true
  marksWhole := false

def JsonError.message : JsonError → String
  | malformed fault => fault.message
  | mismatch expected found => "expected " ++ expected ++ ", got " ++ found.name
  | unfitNumber expected => "number does not fit " ++ expected
  | missingField name => "missing field " ++ name
  | surplusElements count => "more than " ++ count.repr ++ " elements"
  | badBase64 => "invalid base64"
  | timestampOutOfRange seconds =>
      "timestamp out of range: " ++ String.ofList (seconds.render secondsLayout)
  | keyNotText => "key must be a string"
  | refused reason place => reason ++ (place.map Place.toText).getD ""

/-- The refusal that a value puts into words: a place at their end is where it
was refused. -/
def JsonError.ofWords (words : String) : JsonError :=
  match Place.ofMessage? words with
  | some (reason, place) => .refused reason (some place)
  | none => .refused words none

end ServiceCodec
