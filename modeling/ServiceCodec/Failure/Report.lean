import ServiceCodec.Failure.Details
import ServiceCodec.Failure.Reading
import ServiceCodec.Response.Output
import ServiceCodec.Trace

/-!
# Reports on failed responses

A report holds what could be read from one failed response. Code and message
are looked for only when the body is an object; of any other body the report
knows no more than its bytes, even when a header names a code. Reading never
fails: what is wrong with the body is left in the trace.
-/

namespace ServiceCodec

/-- A failed response whose body has been read in full. -/
structure FailedResponse extends Head where
  body : Bytes
  deriving DecidableEq

/-- What could be read from a failed response. -/
structure FailureReport where
  response : FailedResponse
  /-- The body, if it is an object. -/
  object : Option JsonObject
  /-- The code without its namespace. -/
  code : Option String
  message : Option String
  requestId : Option String

namespace FailureReport

/-- The object in the body, and what is wrong with a body that has none. -/
def readBody (r : FailedResponse) : Option JsonObject × List Record :=
  match readDocument r.body with
  | .ok (some (.object es)) => (some es, [])
  | .ok (some _) => (none, [.notAnObject r.status])
  | .ok none => (none, [])
  | .error e => (none, [.unparseable r.status e])

/-- The report on a response. -/
def ofResponse (codes : CodeReader) (messages : MessageReader) (r : FailedResponse) :
    FailureReport × List Record :=
  let (object, records) := readBody r
  let report : FailureReport := {
    response := r
    object
    code := object.bind fun es => (codes.read r.headers (some es)).map normalizeCode
    message := object.bind messages
    requestId := requestId? r.headers }
  (report, records)

/-- The details of the failure, but for the code. -/
def details (r : FailureReport) (serviceName : Option String) : FailureDetails where
  status := r.response.status
  headers := r.response.headers
  rawBody := r.response.body
  message := r.message
  requestId := r.requestId
  serviceName := serviceName

end FailureReport

end ServiceCodec
