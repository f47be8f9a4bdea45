import ServiceCodec.Request.Locations

/-!
# Inputs

An input is what an operation is called with, as the library sees it: what it
binds outside of the body, the document of its members, and the one member that
is the body where the operation says so. Each of the three can fail, and is
looked at only when the request needs it.
-/

namespace ServiceCodec

/-- The member that is the whole body. -/
inductive Payload where
  /-- A structure, written as JSON. -/
  | document (value : Json)
  /-- Bytes, sent as they are. -/
  | blob (bytes : Bytes)

/-- What an operation is called with. -/
structure Input where
  locations : Except RequestError Locations := .ok {}
  members : Except JsonError Json := .ok (.object [])
  /-- None if the member is absent. -/
  payload : Except RequestError (Option Payload) := .ok none

end ServiceCodec
