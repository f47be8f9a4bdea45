import ServiceCodec.Http.Message
import ServiceCodec.Json.Basic
import ServiceCodec.Text.Blank

/-!
# Codes and messages in failed responses

The code that tells failures apart stands in a header or in a field of the
body. In the header a URI may follow it behind a colon; in both a namespace may
stand before it, up to the last number sign. A candidate that cannot be used is
passed over for the next.
-/

namespace ServiceCodec

/-- The code without its namespace. -/
def normalizeCode (code : String) : String :=
  String.ofList (code.toList.reverse.takeWhile (· ≠ '#')).reverse

/-- The field that holds the code unless a service says otherwise. -/
def defaultCodeField : String := "__type"

/-- Where a service puts the code of a failure. -/
structure CodeReader where
  field : String := defaultCodeField
  deriving DecidableEq

namespace CodeReader

/-- The code in a header value: what stands before the first colon, without
blanks at its ends, if anything is left. -/
def ofHeader? (value : String) : Option String :=
  let code := Text.trim (value.toList.takeWhile (· ≠ ':'))
  if code.isEmpty then none else some (String.ofList code)

/-- The code in the first header value, if that is text and holds one. -/
def headerCode? (headers : Headers) : Option String :=
  (headers.firstText? .errorType).bind ofHeader?

/-- The code in the field of the body, if that is a string and not empty. -/
def bodyCode? (r : CodeReader) (body : JsonObject) : Option String :=
  ((body.find? r.field).bind (·.text?)).filter (· ≠ "")

/-- The code as it was sent, with its namespace. -/
def read (r : CodeReader) (headers : Headers) (body : Option JsonObject) : Option String :=
  match headerCode? headers with
  | some code => some code
  | none => body.bind r.bodyCode?

end CodeReader

/-- Finds the message in the body of a failure. -/
abbrev MessageReader := JsonObject → Option String

namespace MessageReader

/-- The first of the fields that holds a string, be it empty. -/
def ofFields (fields : List String) : MessageReader := fun body =>
  fields.findSome? fun field => (body.find? field).bind (·.text?)

/-- The fields in which services put messages. -/
def defaultFields : List String := ["message", "Message", "errorMessage"]

end MessageReader

end ServiceCodec
