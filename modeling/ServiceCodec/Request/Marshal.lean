import ServiceCodec.Http.Message
import ServiceCodec.Json.Writer
import ServiceCodec.Protocol
import ServiceCodec.Request.Input
import ServiceCodec.Request.Target

/-!
# Making requests

A request is made from an operation and an input in a fixed order: the members
outside of the body, the path, the target header, the body and its headers, and
the URI as a whole. The first thing that is wrong is what is reported, and later
parts of the input are not looked at.

A request has a content type and a length only when it has a body. The content
type is a default that a header bound by the input overrides; the length is
always that of the body.
-/

namespace ServiceCodec

/-- What decides how requests of one service look. -/
structure RequestStyle where
  protocol : Protocol
  /-- The content type of documents. -/
  contentType : String

/-- The content type of bytes that are no document. -/
def octetStream : String := "binary/octet-stream"

/-- Its value, as a header. -/
def octetStreamValue : HeaderValue := ⟨bytesOf octetStream, by decide⟩

namespace RequestStyle

/-- The requests of the operation are written by the library, as opposed to
being left without a body. -/
def writesBody (s : RequestStyle) (op : Operation) : Bool :=
  op.content.hasMembers || s.protocol.alwaysSendsBody

/-- The headers bound by the input, with the operation's identifier where the
protocol asks for it. -/
def headers (s : RequestStyle) (op : Operation) (ls : Locations) :
    Except RequestError Headers :=
  match s.protocol, op.identifier with
  | .awsJson, some identifier =>
      match HeaderValue.ofText? identifier with
      | some v => .ok (ls.headers.set .target v)
      | none => .error (.badHeader HeaderName.target.text HeaderValue.fault)
  | _, _ => .ok ls.headers

/-- The text of the URI, and the headers that do not depend on the body. -/
def start (s : RequestStyle) (op : Operation) (input : Input) :
    Except RequestError (String × Headers) := do
  let ls ← input.locations
  let target ← targetText op.template ls
  let headers ← s.headers op ls
  return (target, headers)

/-- The members as one object; an input without any writes `null`. -/
def membersBody (input : Input) : Except RequestError Bytes :=
  match input.members with
  | .ok (.object es) => .ok (Json.object es).toBody
  | .ok .null => .ok (Json.object []).toBody
  | .ok v => .error (.notAnObject v.kind)
  | .error e => .error (.json e)

/-- The body and its content type; none where there is no body. -/
def content (s : RequestStyle) (op : Operation) (input : Input) :
    Except RequestError (Option (Bytes × String)) :=
  match op.content with
  | .members => do return some (← membersBody input, s.contentType)
  | .payload | .stream => do
      match ← input.payload with
      | none => return none
      | some (.document v) => return some (v.toBody, s.contentType)
      | some (.blob bytes) => return some (bytes, octetStream)
  | .nothing =>
      if s.protocol.alwaysSendsBody then .ok (some ((Json.object []).toBody, s.contentType))
      else .ok none

/-- The headers of a body: its content type unless the input has bound one, and
its length. -/
def describeBody (headers : Headers) (bytes : Bytes) (contentType : String) :
    Except RequestError Headers := do
  let headers ←
    if headers.has .contentType then pure headers
    else match HeaderValue.ofText? contentType with
      | some v => pure (headers.set .contentType v)
      | none => throw (.badHeader HeaderName.contentType.text HeaderValue.fault)
  return headers.set .contentLength (.ofNat bytes.length)

/-- Puts the parts together; the URI is checked last. -/
def finish (op : Operation) (target : String) (headers : Headers) (body : Body) :
    Except RequestError Request :=
  match Uri.ofText target with
  | .ok uri => .ok ⟨op.method, uri, headers, body⟩
  | .error fault => .error (.http fault.message)

/-- The request of an operation whose body comes from the input. -/
def marshal (s : RequestStyle) (op : Operation) (input : Input) :
    Except RequestError Request := do
  if op.content.isStream then throw .bodyRequired
  let (target, headers) ← s.start op input
  match ← s.content op input with
  | none => finish op target headers .empty
  | some (bytes, contentType) =>
      let headers ← describeBody headers bytes contentType
      finish op target headers (.ofBytes bytes)

/-- The request of an operation whose body is given as a stream, and is handed
on as it is. -/
def marshalBody (s : RequestStyle) (op : Operation) (input : Input) (body : Body) :
    Except RequestError Request := do
  if !op.content.isStream then throw .bodyUnexpected
  let (target, headers) ← s.start op input
  finish op target (headers.setDefault .contentType octetStreamValue) body

end RequestStyle

end ServiceCodec
