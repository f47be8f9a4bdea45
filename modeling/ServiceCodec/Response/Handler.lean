import ServiceCodec.Operation.Basic
import ServiceCodec.Response.Output

/-!
# Reading successful responses

The builder takes the head first. A body that the operation streams is then
handed on unread. Any other body has to be buffered by now: it goes to the
builder as a document or as raw bytes, or not at all when there is nothing in
it.
-/

namespace ServiceCodec

/-- How the responses of an operation are read. -/
structure ResponseHandler where
  /-- The body is handed on unread. -/
  streamsOutput : Bool
  /-- A body that is read is a document. -/
  jsonOutput : Bool
  deriving DecidableEq

/-- Successful responses are read as the operation says. -/
def Operation.handler (op : Operation) : ResponseHandler := ⟨op.streamsOutput, op.jsonOutput⟩

namespace ResponseHandler

section Drive

variable {m : Type → Type} [Monad m] {σ ρ : Type}

/-- Gives the body to the builder. -/
def bindBody (h : ResponseHandler) (b : OutputBuilderT m σ ρ) (body : Bytes) :
    BuildStepT m σ Unit := do
  if h.jsonOutput then
    match readDocument body with
    | .error e => throw e
    | .ok none => pure ()
    | .ok (some v) => b.bindDocument v
  else if body.isEmpty then pure ()
  else b.bindPayload body

/-- Takes the builder, once it is started, through the response. -/
def drive (h : ResponseHandler) (b : OutputBuilderT m σ ρ) (r : Response) :
    BuildStepT m σ (Received ρ) := do
  b.bindHead r.toHead
  if h.streamsOutput then
    return ⟨← b.build (← get), r.toHead, some r.body⟩
  else
    match r.body.buffered with
    | .error _ => throw .unbuffered
    | .ok bytes =>
        h.bindBody b bytes
        return ⟨← b.build (← get), r.toHead, none⟩

/-- What the builder makes of the response, with its effects. -/
def handleM (h : ResponseHandler) (b : OutputBuilderT m σ ρ) (r : Response) :
    m (Except ResponseError (Received ρ)) := do
  let s ← b.start r.toHead
  let (answer, _) ← (h.drive b r).run.run s
  return answer

end Drive

/-- The output of a response. -/
def handle {σ ρ : Type} (h : ResponseHandler) (b : OutputBuilder σ ρ) (r : Response) :
    Except ResponseError (Received ρ) :=
  h.handleM b r

end ResponseHandler

end ServiceCodec
