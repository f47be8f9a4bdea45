import ServiceCodec.Body
import ServiceCodec.Http.Header
import ServiceCodec.Http.Status
import ServiceCodec.Http.Uri

/-!
# Requests and responses
-/

namespace ServiceCodec

/-- A request ready to be sent. -/
structure Request where
  method : String
  uri : Uri
  headers : Headers
  body : Body
  deriving DecidableEq

/-- A response without its body. -/
structure Head where
  status : StatusCode
  headers : Headers
  deriving DecidableEq

/-- A response as it arrives. -/
structure Response extends Head where
  body : Body
  deriving DecidableEq

namespace Head

/-- The first value under a name of any letter case, if it is text. -/
def text? (h : Head) (name : String) : Option String :=
  (HeaderName.ofText? name).bind h.headers.firstText?

/-- There is a value under a name of any letter case. -/
def has (h : Head) (name : String) : Bool :=
  ((HeaderName.ofText? name).bind h.headers.first?).isSome

end Head

end ServiceCodec
