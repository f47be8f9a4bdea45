import ServiceCodec.Failure.Dispatch
import ServiceCodec.Protocol
import ServiceCodec.Request.Marshal
import ServiceCodec.Response.Handler

/-!
# Codecs

A codec is all that is fixed about the calls of one service: how requests look,
from which status on a response is a failure, and what failures become. It holds
no state, so calls cannot influence each other.
-/

namespace ServiceCodec

/-- A codec for a service with failures `ε`. -/
structure Codec (ε : Type) where
  metadata : ProtocolMetadata
  /-- The content type of documents, resolved once. -/
  contentType : String
  catalog : FailureCatalog ε
  codes : CodeReader
  messages : MessageReader
  /-- The least status of failures. -/
  threshold : StatusCode

namespace Codec

variable {ε : Type}

def isFailure (c : Codec ε) (status : StatusCode) : Bool := c.threshold.code ≤ status.code

def style (c : Codec ε) : RequestStyle := ⟨c.metadata.protocol, c.contentType⟩

/-- The request of an operation whose body comes from the input. -/
def marshal (c : Codec ε) (op : Operation) (input : Input) : Except RequestError Request :=
  c.style.marshal op input

/-- The request of an operation whose body is given as a stream. -/
def marshalBody (c : Codec ε) (op : Operation) (input : Input) (body : Body) :
    Except RequestError Request :=
  c.style.marshalBody op input body

/-- How the codec turns failed responses into failures, without a label. -/
def dispatcher (c : Codec ε) : FailureDispatch ε := ⟨c.catalog, c.codes, c.messages, none⟩

/-- The same for one operation: its service's name, if it has one, labels the
failures. -/
def dispatcherFor (c : Codec ε) (op : Operation) : FailureDispatch ε :=
  if op.serviceName.isEmpty then c.dispatcher else c.dispatcher.labelled op.serviceName

end Codec

end ServiceCodec
