import ServiceCodec.Json.Error
import ServiceCodec.Text.Quoted

/-!
# Requests that cannot be made
-/

namespace ServiceCodec

/-- Why an input makes no request. -/
inductive RequestError where
  /-- The input or its payload refuses to be written. -/
  | json (error : JsonError)
  /-- The members of the input are no object. -/
  | notAnObject (kind : Json.Kind)
  /-- A label of the path without a value, or with an empty one. -/
  | unboundLabel (name : String)
  | badHeader (name : String) (reason : String)
  /-- The operation streams its body and none was given. -/
  | bodyRequired
  /-- A body was given and the operation streams none. -/
  | bodyUnexpected
  /-- The parts make no request. -/
  | http (reason : String)
  deriving DecidableEq

def RequestError.message : RequestError → String
  | json error => "json encode error: " ++ error.message
  | notAnObject kind => "implicit payload must serialize to a JSON object, got " ++ kind.name
  | unboundLabel name => "no value bound for path label " ++ Text.quoted name
  | badHeader name reason => "invalid header " ++ Text.quoted name ++ ": " ++ reason
  | bodyRequired => "operation has streaming input but no request body was supplied"
  | bodyUnexpected => "request body supplied for an operation without streaming input"
  | http reason => "http request error: " ++ reason

end ServiceCodec
