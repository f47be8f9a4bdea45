import ServiceCodec.Operation.Basic
import ServiceCodec.Request.Error
import ServiceCodec.Response.Error
import ServiceCodec.Http.Status

/-!
# The trace of a call

A failure that is absorbed, and one that is passed on from deep inside, leaves a
record; so what a caller cannot tell from the outcome can be told from the
trace. There is one kind of record for each cause. A record is left inside the
span that is open at the time, if one is, and a span says what was called.
-/

namespace ServiceCodec

/-- A record, by its cause. -/
inductive Record where
  /-- The input made no request. -/
  | requestRejected (error : RequestError)
  /-- A failed response was read in full. -/
  | failureReceived (status : StatusCode) (bodySize : Nat)
  /-- The body of a failed response is a document but no object. -/
  | notAnObject (status : StatusCode)
  /-- The body of a failed response is no document. -/
  | unparseable (status : StatusCode) (error : ResponseError)
  /-- The document does not fit the shape registered for its code. -/
  | unbound (code : String) (error : ResponseError)
  /-- Nothing is registered for the code. -/
  | unregistered (code : String) (status : StatusCode)
  deriving DecidableEq

namespace Record

/-- How grave records are. -/
def level : String := "DEBUG"

def message : Record → String
  | requestRejected _ => "request marshalling failed"
  | failureReceived .. => "error response"
  | notAnObject _ => "error body is not a JSON object"
  | unparseable .. => "unparseable error body"
  | unbound .. => "modeled error shape failed to bind, using default error"
  | unregistered .. => "unregistered error code, using default error"

/-- The fields of a record, as text. -/
def fields : Record → List (String × String)
  | requestRejected error => [("error", error.message)]
  | failureReceived status bodySize =>
      [("status", status.code.repr), ("body_len", bodySize.repr)]
  | notAnObject status => [("status", status.code.repr)]
  | unparseable status error => [("status", status.code.repr), ("error", error.message)]
  | unbound code error => [("error_code", code), ("error", error.message)]
  | unregistered code status => [("error_code", code), ("status", status.code.repr)]

end Record

/-- What was called. -/
structure CallSpan where
  service : String
  operation : String
  method : String
  path : String
  deriving DecidableEq

namespace CallSpan

/-- The span of calls of an operation depends on nothing else. -/
def ofOperation (op : Operation) : CallSpan where
  service := op.serviceName
  operation := op.identifier.getD ""
  method := op.method
  path := op.template.path

def name : String := "jsonwire.call"

def level : String := "INFO"

/-- The fields of a span, as text. -/
def fields (s : CallSpan) : List (String × String) :=
  [ ("rpc.service", s.service), ("rpc.operation", s.operation), ("http.method", s.method),
    ("http.path", s.path), ("otel.kind", "client") ]

end CallSpan

/-- An entry of a trace. -/
inductive TraceEntry where
  | entered (span : CallSpan)
  /-- A record, and the span it was left in. -/
  | recorded (record : Record) (within : Option CallSpan)
  deriving DecidableEq

def TraceEntry.record? : TraceEntry → Option Record
  | entered _ => none
  | recorded record _ => some record

end ServiceCodec
