import ServiceCodec.Json.Decode
import ServiceCodec.Text.Base64

/-!
# Blobs

Bytes inside a document are a string in base64.
-/

namespace ServiceCodec.Blob

def decode : Decoder Bytes := fun v => do
  match Base64.decode (← Decoder.text v).toList with
  | some bytes => .ok bytes
  | none => .error .badBase64

def encode (bytes : Bytes) : Json := .string (String.ofList (Base64.encode bytes))

/-- `null` for absent bytes; empty bytes are the empty string. -/
def decodeOptional : Decoder (Option Bytes) := Decoder.optional decode

def encodeOptional : Option Bytes → Json
  | none => .null
  | some bytes => encode bytes

end ServiceCodec.Blob
