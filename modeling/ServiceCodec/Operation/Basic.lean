import ServiceCodec.Operation.Template

/-!
# Operations

An operation is described once: where its requests go, what they carry, and
what comes back. The description is drafted with independent flags and then
built; flags that contradict each other, and paths that are no template, are
refused. In a built operation the contradictions cannot be written down: what
the body of a request holds is one of four cases.
-/

namespace ServiceCodec

/-- Why a draft describes no operation. -/
inductive OperationError where
  /-- One member is to be the body, but there are no members for the body. -/
  | payloadWithoutMembers
  /-- The body is to be a stream, but no one member is the body. -/
  | streamWithoutPayload
  | pathNotAbsolute (path : String)
  | unbalancedLabel (path : String)
  deriving DecidableEq

def OperationError.message : OperationError → String
  | payloadWithoutMembers => "explicit payload member declared without payload members"
  | streamWithoutPayload => "streaming input requires an explicit payload member"
  | pathNotAbsolute path => "request path must start with '/': " ++ Text.quoted path
  | unbalancedLabel path => "unbalanced label braces in request path: " ++ Text.quoted path

/-- What the body of a request is made of. -/
inductive RequestContent where
  /-- No member is bound to the body. -/
  | nothing
  /-- The members that are bound nowhere else, as one document. -/
  | members
  /-- One member is the whole body. -/
  | payload
  /-- One member is the whole body and is sent as a stream. -/
  | stream
  deriving DecidableEq

namespace RequestContent

def hasMembers : RequestContent → Bool
  | nothing => false
  | _ => true

def hasPayload : RequestContent → Bool
  | payload | stream => true
  | _ => false

def isStream : RequestContent → Bool
  | stream => true
  | _ => false

end RequestContent

/-- A description that can be relied on. -/
structure Operation where
  template : Template
  method : String
  content : RequestContent
  /-- Labels the errors of the operation; may be empty. -/
  serviceName : String
  /-- Names the operation to services that have one path for all. -/
  identifier : Option String
  /-- The body of a response is a stream and is handed on unread. -/
  streamsOutput : Bool
  /-- The body of a response, if it is read, is a document. -/
  jsonOutput : Bool

/-- A description under construction. -/
structure OperationDraft where
  path : String
  method : String := "POST"
  explicitPayload : Bool := false
  payloadMembers : Bool := false
  serviceName : String := ""
  identifier : Option String := none
  streamingInput : Bool := false
  streamingOutput : Bool := false
  jsonOutput : Bool := true
  deriving DecidableEq

namespace OperationDraft

/-- One statement about an operation; a later one about the same field
replaces it. -/
inductive Setting where
  | method (name : String)
  | explicitPayload (value : Bool)
  | payloadMembers (value : Bool)
  | serviceName (name : String)
  | identifier (name : String)
  | streamingInput (value : Bool)
  | streamingOutput (value : Bool)
  | jsonOutput (value : Bool)
  deriving DecidableEq

def set (d : OperationDraft) : Setting → OperationDraft
  | .method name => { d with method := name }
  | .explicitPayload value => { d with explicitPayload := value }
  | .payloadMembers value => { d with payloadMembers := value }
  | .serviceName name => { d with serviceName := name }
  | .identifier name => { d with identifier := some name }
  | .streamingInput value => { d with streamingInput := value }
  | .streamingOutput value => { d with streamingOutput := value }
  | .jsonOutput value => { d with jsonOutput := value }

/-- The draft for a path with the settings made one after another. -/
def ofSettings (path : String) (settings : List Setting) : OperationDraft :=
  settings.foldl set { path }

/-- What the flags say about the body of a request. -/
def content (d : OperationDraft) : Except OperationError RequestContent :=
  if d.explicitPayload && !d.payloadMembers then .error .payloadWithoutMembers
  else if d.streamingInput && !d.explicitPayload then .error .streamWithoutPayload
  else if d.streamingInput then .ok .stream
  else if d.explicitPayload then .ok .payload
  else if d.payloadMembers then .ok .members
  else .ok .nothing

def template (d : OperationDraft) : Except OperationError Template :=
  match Template.ofPath d.path with
  | .ok t => .ok t
  | .error .notAbsolute => .error (.pathNotAbsolute d.path)
  | .error .unbalanced => .error (.unbalancedLabel d.path)

/-- The operation that the draft describes. -/
def build (d : OperationDraft) : Except OperationError Operation := do
  let content ← d.content
  let template ← d.template
  return {
    template, content
    method := d.method
    serviceName := d.serviceName
    identifier := d.identifier
    streamsOutput := d.streamingOutput
    jsonOutput := d.jsonOutput }

end OperationDraft

end ServiceCodec
