import ServiceCodec.Codec.Draft
import ServiceCodec.Conformance.Shapes

/-!
# The failures of the conformance service

Modeled failures of three shapes, the plain failure, and two failures with
builders of their own: one that stores a field before it may fail, and one that
takes nothing from the document. A tag tells registrations of one kind apart.
-/

namespace ServiceCodec.Conformance

inductive Failure where
  | allTypes (tag : String) (failure : ModeledFailure AllTypes)
  | strict (tag : String) (failure : ModeledFailure Strict)
  | empty (tag : String) (failure : ModeledFailure Empty)
  | plain (tag : String) (failure : PlainFailure)
  /-- Built with the string in the field `X` of the document. -/
  | raw (tag : String) (x : Option String) (details : FailureDetails)
  /-- Built with nothing from the document. -/
  | fallback (tag : String) (details : FailureDetails)

namespace Failure

def details : Failure → FailureDetails
  | allTypes _ f => f.details
  | strict _ f => f.details
  | empty _ f => f.details
  | plain _ f => f.details
  | raw _ _ d => d
  | fallback _ d => d

/-- The failure in one line. -/
def message : Failure → String
  | raw _ _ d => "raw: " ++ d.summary
  | fallback _ d => "raw: " ++ d.summary
  | f => f.details.summary

end Failure

/-- The string in a field of a document. -/
def textField? (name : String) (v : Json) : Option String :=
  (v.object?.bind (·.find? name)).bind (·.text?)

/-- Stores the field `X`, and then refuses the document if it is `fail`. -/
def bindRaw (v : Json) (_ : Option String) : Except ResponseError Unit × Option String :=
  let x := textField? "X" v
  (if x = some "fail" then .error (.unsupportedPayload "X") else .ok (), x)

def rawBuilder (tag : String) : FailureBuilder Failure where
  State := Option String
  initial := none
  bind := bindRaw
  build x details := .raw tag x details

def fallbackBuilder (tag : String) : FailureBuilder Failure where
  State := Unit
  initial := ()
  bind _ s := (.ok (), s)
  build _ details := .fallback tag details

/-- The string in a field, in ASCII upper case. -/
def upperCaseMessage (field : String) : MessageReader := fun body =>
  ((body.find? field).bind (·.text?)).map fun s => String.ofList (s.toList.map Char.toUpper)

/-- A content type that depends on the family more than on the version. -/
def familyContentType : ContentTypeResolver := fun m =>
  match m.protocol with
  | .restJson => "application/json"
  | .awsJson => "x/" ++ m.version ++ ";v"

end ServiceCodec.Conformance
