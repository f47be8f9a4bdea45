import ServiceCodec.Codec.Draft

/-!
# Values in diagnostics

What the parts of a codec look like in logs: the name of the part and its fields
in braces, texts quoted, an optional field as `Some` or `None`, and two dots for
what is left out.
-/

namespace ServiceCodec.Describe

def flag (b : Bool) : String := if b then "true" else "false"

def optional (v : Option String) : String :=
  match v with
  | some s => "Some(" ++ s ++ ")"
  | none => "None"

def texts (vs : List String) : String := "[" ++ ", ".intercalate (vs.map Text.quoted) ++ "]"

/-- A name and, in braces, what is said of it. -/
def braced (name : String) (parts : List String) : String :=
  name ++ " \x7b " ++ ", ".intercalate parts ++ " \x7d"

def field (f : String × String) : String := f.1 ++ ": " ++ f.2

/-- A record with all its fields. -/
def record (name : String) (fields : List (String × String)) : String :=
  braced name (fields.map field)

/-- A record with some of its fields. -/
def partOf (name : String) (fields : List (String × String)) : String :=
  braced name (fields.map field ++ [".."])

def body : Body → String
  | .empty => "WireBody::Empty"
  | .full data =>
      record "WireBody::Full" [("data_len", optional (data.map fun d => d.length.repr))]
  | .streaming _ => "WireBody::Streaming"

def handler (h : ResponseHandler) : String :=
  partOf "ResponseHandler"
    [("streaming_output", flag h.streamsOutput), ("payload_json", flag h.jsonOutput)]

def metadata (m : ProtocolMetadata) : String :=
  record "ProtocolMetadata"
    [("protocol", m.protocol.name), ("protocol_version", Text.quoted m.version)]

variable {ε : Type}

def catalog (c : FailureCatalog ε) : String :=
  partOf "ErrorRegistry" [("codes", texts c.codes)]

def dispatch (d : FailureDispatch ε) : String :=
  partOf "ErrorDispatcher"
    [ ("registry", catalog d.catalog),
      ("service_name", optional (d.serviceName.map Text.quoted)) ]

def codec (c : Codec ε) : String :=
  record "ProtocolCodec"
    [ ("metadata", metadata c.metadata), ("content_type", Text.quoted c.contentType),
      ("registry", catalog c.catalog), ("error_threshold", c.threshold.code.repr) ]

def draft (d : CodecDraft ε) : String :=
  record "CodecBuilder"
    [ ("protocol", d.protocol.name), ("protocol_version", Text.quoted d.version),
      ("modeled_count", d.modeled.size.repr), ("default_factory", flag d.fallback.isSome),
      ("custom_error_code_field", optional (d.codeField.map Text.quoted)),
      ("error_status_threshold", d.threshold.repr) ]

end ServiceCodec.Describe
