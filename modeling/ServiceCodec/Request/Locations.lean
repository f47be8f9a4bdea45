import ServiceCodec.Http.Header
import ServiceCodec.Request.Error

/-!
# Members outside of the body

An input binds members to labels of the path, to the query and to headers. Of
two bindings of one label, or of one header in any letter case, the later
counts; query parameters are all kept, in their order.
-/

namespace ServiceCodec

/-- A member bound outside of the body. -/
inductive Location where
  | label (name value : String)
  | query (name value : String)
  | header (name value : String)
  deriving DecidableEq

/-- Everything that an input binds outside of the body. -/
structure Locations where
  labels : Dictionary String := ∅
  query : List (String × String) := []
  headers : Headers := ∅
  deriving DecidableEq

namespace Locations

def bindLabel (ls : Locations) (name value : String) : Locations :=
  { ls with labels := ls.labels.insert name value }

def bindQuery (ls : Locations) (name value : String) : Locations :=
  { ls with query := ls.query ++ [(name, value)] }

/-- Fails if the name or else the value is none that a header can have. -/
def bindHeader (ls : Locations) (name value : String) : Except RequestError Locations :=
  match HeaderName.ofText? name, HeaderValue.ofText? value with
  | none, _ => .error (.badHeader name HeaderName.fault)
  | some _, none => .error (.badHeader name HeaderValue.fault)
  | some n, some v => .ok { ls with headers := ls.headers.set n v }

def bind (ls : Locations) : Location → Except RequestError Locations
  | .label name value => .ok (ls.bindLabel name value)
  | .query name value => .ok (ls.bindQuery name value)
  | .header name value => ls.bindHeader name value

/-- Binds one member after another, up to the first failure. -/
def bindAll (ls : Locations) (members : List Location) : Except RequestError Locations :=
  members.foldlM bind ls

def ofList (members : List Location) : Except RequestError Locations := bindAll {} members

/-- The value bound to a label. -/
def label? (ls : Locations) (name : String) : Option String := ls.labels.find? name

end Locations

end ServiceCodec
