import ServiceCodec.Http.Message

/-!
# What is known of a failure

Every failure that a service reports carries the same details, whatever its own
shape is: the response as it came, and what could be read from it.
-/

namespace ServiceCodec

/-- What every failure carries. -/
structure FailureDetails where
  status : StatusCode := .ok
  headers : Headers := ∅
  /-- The bytes of the body, untouched. -/
  rawBody : Bytes := []
  /-- The code that selected a modeled failure. -/
  code : Option String := none
  message : Option String := none
  requestId : Option String := none
  serviceName : Option String := none
  deriving DecidableEq

/-- The details in one line. -/
def FailureDetails.summary (d : FailureDetails) : String :=
  d.message.getD "service error" ++
    " (service: " ++ d.serviceName.getD "unknown" ++
    ", status code: " ++ d.status.code.repr ++
    ", error code: " ++ d.code.getD "none" ++
    ", request id: " ++ d.requestId.getD "none" ++ ")"

/-- A failure whose members have a shape. -/
structure ModeledFailure (σ : Type) where
  shape : σ
  details : FailureDetails

/-- A failure of which no more than the details is known. -/
structure PlainFailure where
  details : FailureDetails

end ServiceCodec
