/-!
# Protocols and content types

The two families of wire protocol, and the content type that requests carry. A
content type is resolved from the family and the version; the usual resolver
puts the version behind a fixed stem.
-/

namespace ServiceCodec

/-- A family of wire protocols. -/
inductive Protocol where
  /-- Calls to one path, told apart by a target; every request has a body. -/
  | awsJson
  /-- Members are spread over path, query, headers and body. -/
  | restJson
  deriving DecidableEq, Repr

namespace Protocol

instance : Inhabited Protocol := ⟨awsJson⟩

def name : Protocol → String
  | awsJson => "AwsJson"
  | restJson => "RestJson"

/-- A request without members for its body has an empty object for one. -/
def alwaysSendsBody : Protocol → Bool
  | awsJson => true
  | restJson => false

end Protocol

/-- What a content type is resolved from. -/
structure ProtocolMetadata where
  protocol : Protocol
  version : String
  deriving DecidableEq, Repr

/-- Resolves the content type of requests. -/
abbrev ContentTypeResolver := ProtocolMetadata → String

namespace ContentTypeResolver

/-- The version behind a fixed stem. -/
def versioned (stem : String) : ContentTypeResolver := fun m => stem ++ m.version

/-- The stem of JSON bodies. -/
def jsonStem : String := "application/x-amz-json-"

/-- The stem of CBOR bodies. -/
def cborStem : String := "application/x-amz-cbor-"

end ContentTypeResolver

end ServiceCodec
