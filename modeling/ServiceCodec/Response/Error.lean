import ServiceCodec.Json.Reader
import ServiceCodec.Text.Quoted

/-!
# Responses that cannot be read
-/

namespace ServiceCodec

/-- Why a response gives no output. -/
inductive ResponseError where
  /-- The body is no JSON, or not the JSON that was expected. -/
  | json (error : JsonError)
  | notAnObject (kind : Json.Kind)
  | badHeader (name : String) (reason : String)
  /-- The body is a stream, where a buffered one was expected. -/
  | unbuffered
  | unsupportedPayload (reason : String)
  deriving DecidableEq

def ResponseError.message : ResponseError → String
  | json error => "json decode error: " ++ error.message
  | notAnObject kind => "response body must be a JSON object, got " ++ kind.name
  | badHeader name reason => "invalid header " ++ Text.quoted name ++ ": " ++ reason
  | unbuffered => "response body is a stream but the operation expects a buffered payload"
  | unsupportedPayload reason => "unsupported payload: " ++ reason

/-- The document in a body, if it holds one. -/
def readDocument (body : Bytes) : Except ResponseError (Option Json) :=
  (Json.ofBody body).mapError .json

/-- The object in a body that holds nothing else. -/
def readObject (body : Bytes) : Except ResponseError (Option JsonObject) := do
  match ← readDocument body with
  | none => return none
  | some (.object es) => return some es
  | some v => throw (.notAnObject v.kind)

end ServiceCodec
