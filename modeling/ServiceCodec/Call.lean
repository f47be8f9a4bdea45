import ServiceCodec.Codec.Basic

/-!
# Calls

A call makes a request, sends it once, and reads the response as an output or as
a failure. How a request is sent is not the library's business: a transport is a
function from requests to responses. What a call does besides its outcome is
written into a journal — what was sent, which bodies were read and how far, and
the trace — so that "nothing was sent" is a statement about a value.
-/

namespace ServiceCodec

/-- Why no response was obtained, in the transport's words. -/
structure TransportError where
  reason : String
  deriving DecidableEq

/-- Sends a request and obtains the response. -/
abbrev Transport := Request → Except TransportError Response

/-- Why a call has no output. -/
inductive CallError (ε : Type) where
  /-- The service reported a failure. -/
  | service (failure : ε)
  | transport (error : TransportError)
  | request (error : RequestError)
  | response (error : ResponseError)
  /-- The body of the response could not be read. -/
  | body (error : BodyError)

namespace CallError

variable {ε : Type}

/-- The error in one line, with the failures of the service as `display` puts
them. -/
def message (display : ε → String) : CallError ε → String
  | service failure => "service error: " ++ display failure
  | transport error => "transport error: " ++ error.reason
  | request error => error.message
  | response error => error.message
  | body error => error.message

/-- The failure that the service reported, if it was that. -/
def failure? : CallError ε → Option ε
  | service failure => some failure
  | _ => none

end CallError

/-- What a call did. -/
structure Journal where
  sent : List Request := []
  /-- The bodies that were read, as reading left them. -/
  read : List Body := []
  trace : List TraceEntry := []
  /-- The span that is open. -/
  within : Option CallSpan := none

/-- The records of the trace. -/
def Journal.records (j : Journal) : List Record := j.trace.filterMap TraceEntry.record?

/-- A step of a call. -/
abbrev CallStep (ε α : Type) := ExceptT (CallError ε) (StateM Journal) α

/-- A call that is over. -/
structure CallReport (ε ρ : Type) where
  journal : Journal
  outcome : Except (CallError ε) (Received ρ)

namespace Call

variable {ε σ ρ α : Type}

/-- Leaves records in the span that is open. -/
def emit (records : List Record) : CallStep ε Unit :=
  modify fun j => { j with trace := j.trace ++ records.map (.recorded · j.within) }

/-- Takes a step in a span of its own. Behind the step, whether it failed or not, the span that
was open before is open again. -/
def inSpan (span : CallSpan) (step : CallStep ε α) : CallStep ε α :=
  ExceptT.mk do
    let outer := (← get).within
    modify fun j => { j with trace := j.trace ++ [.entered span], within := some span }
    let answer ← step.run
    modify fun j => { j with within := outer }
    return answer

/-- The only way to the transport. -/
def send (transport : Transport) (request : Request) : CallStep ε Response := do
  modify fun j => { j with sent := j.sent ++ [request] }
  match transport request with
  | .ok response => return response
  | .error e => throw (.transport e)

/-- A request, or the record and the error of there being none. -/
def prepare (request : Except RequestError Request) : CallStep ε Request :=
  match request with
  | .ok request => return request
  | .error e => do
      emit [.requestRejected e]
      throw (.request e)

/-- Reads a body to its end. -/
def collect (body : Body) : CallStep ε Bytes := do
  let (r, left) := body.collect
  modify fun j => { j with read := j.read ++ [left] }
  match r with
  | .ok bytes => return bytes
  | .error e => throw (.body e)

/-- The failure of a failed response. -/
def fail (c : Codec ε) (op : Operation) (r : Response) : CallStep ε α := do
  let bytes ← collect r.body
  emit [.failureReceived r.status bytes.length]
  let (e, records) := (c.dispatcherFor op).dispatch ⟨r.toHead, bytes⟩
  emit records
  throw (.service e)

/-- The output of a successful response, whose body is read first unless the
operation streams it. -/
def succeed (op : Operation) (b : OutputBuilder σ ρ) (r : Response) :
    CallStep ε (Received ρ) := do
  let body ← if op.streamsOutput then pure r.body else Body.ofBytes <$> collect r.body
  match op.handler.handle b ⟨r.toHead, body⟩ with
  | .ok received => return received
  | .error e => throw (.response e)

/-- Sends the request, if there is one, and reads the response. -/
def steps (c : Codec ε) (op : Operation) (b : OutputBuilder σ ρ) (transport : Transport)
    (request : Except RequestError Request) : CallStep ε (Received ρ) := do
  let response ← send transport (← prepare request)
  if c.isFailure response.status then fail c op response
  else succeed op b response

/-- A call from its beginning to its end, all of it in the span of the operation. -/
def run (c : Codec ε) (op : Operation) (b : OutputBuilder σ ρ) (transport : Transport)
    (request : Except RequestError Request) : CallReport ε ρ :=
  let (outcome, journal) := (inSpan (.ofOperation op) (steps c op b transport request)).run.run {}
  ⟨journal, outcome⟩

end Call

namespace Codec

variable {ε σ ρ : Type}

/-- Calls an operation whose body comes from the input. -/
def call (c : Codec ε) (op : Operation) (input : Input) (b : OutputBuilder σ ρ)
    (transport : Transport) : CallReport ε ρ :=
  Call.run c op b transport (c.marshal op input)

/-- Calls an operation whose body is given as a stream. -/
def callWithBody (c : Codec ε) (op : Operation) (input : Input) (body : Body)
    (b : OutputBuilder σ ρ) (transport : Transport) : CallReport ε ρ :=
  Call.run c op b transport (c.marshalBody op input body)

end Codec

end ServiceCodec
