import ServiceCodec.Codec.Basic
import ServiceCodec.Text.Blank

/-!
# Configuring a codec

A codec is drafted by settings made one after another, of which the last one
for each slot counts, and then built. What is refused at the end is refused in
a fixed order.
-/

namespace ServiceCodec

/-- Why a draft makes no codec. -/
inductive CodecError where
  | noFallback
  | blankVersion
  | blankCodeField
  /-- No status code, or one below the failures. -/
  | badThreshold (status : Nat)
  deriving DecidableEq

def CodecError.message : CodecError → String
  | noFallback => "a default error factory is required"
  | blankVersion => "protocol version must not be empty"
  | blankCodeField => "custom error code field name must not be empty"
  | badThreshold status => "error status threshold must be at least 300, got " ++ status.repr

/-- A codec under construction, for failures `ε`. -/
structure CodecDraft (ε : Type) where
  protocol : Protocol := .awsJson
  version : String := "1.0"
  resolver : ContentTypeResolver := .versioned ContentTypeResolver.jsonStem
  modeled : Dictionary (FailureBuilder ε) := ∅
  fallback : Option (FailureBuilder ε) := none
  codeField : Option String := none
  messages : MessageReader := .ofFields MessageReader.defaultFields
  /-- The least status of failures. -/
  threshold : Nat := 300

namespace CodecDraft

variable {ε : Type}

/-- One statement about a codec. -/
inductive Setting (ε : Type) where
  | protocol (value : Protocol)
  | version (value : String)
  | resolver (value : ContentTypeResolver)
  /-- What failures of a code become. -/
  | modeled (code : String) (builder : FailureBuilder ε)
  /-- What all other failures become. -/
  | fallback (builder : FailureBuilder ε)
  | codeField (name : String)
  | messages (reader : MessageReader)
  | threshold (status : Nat)

def set (d : CodecDraft ε) : Setting ε → CodecDraft ε
  | .protocol value => { d with protocol := value }
  | .version value => { d with version := value }
  | .resolver value => { d with resolver := value }
  | .modeled code builder => { d with modeled := d.modeled.insert code builder }
  | .fallback builder => { d with fallback := some builder }
  | .codeField name => { d with codeField := some name }
  | .messages reader => { d with messages := reader }
  | .threshold status => { d with threshold := status }

/-- The draft with the settings made one after another. -/
def ofSettings (settings : List (Setting ε)) : CodecDraft ε := settings.foldl set {}

/-- The least status of failures, from 300 on. -/
def threshold? (d : CodecDraft ε) : Option StatusCode :=
  (StatusCode.ofNat? d.threshold).filter fun s => 300 ≤ s.code

/-- The codec that the draft describes. -/
def build (d : CodecDraft ε) : Except CodecError (Codec ε) :=
  match d.fallback with
  | none => .error .noFallback
  | some fallback =>
      if Text.allBlank d.version then .error .blankVersion
      else if d.codeField.any Text.allBlank then .error .blankCodeField
      else match d.threshold? with
        | none => .error (.badThreshold d.threshold)
        | some threshold =>
            let metadata : ProtocolMetadata := ⟨d.protocol, d.version⟩
            .ok {
              metadata
              contentType := d.resolver metadata
              catalog := ⟨d.modeled, fallback⟩
              codes := ⟨d.codeField.getD defaultCodeField⟩
              messages := d.messages
              threshold }

end CodecDraft

end ServiceCodec
