import ServiceCodec.Http.Message
import ServiceCodec.Json.Shape
import ServiceCodec.Response.Error

/-!
# Outputs under construction

An output is built in steps from the parts of a response: its head, and then
its document or its raw payload. The steps share a state of the builder's own
choosing, and each of them can fail. A builder is started from the head, so it
can decide by the status or a header what it builds.

A builder may have effects besides, in a monad that whoever drives it neither
knows nor needs. The builders of this library have none.
-/

namespace ServiceCodec

/-- One step of a builder with state `σ` and effects in `m`. -/
abbrev BuildStepT (m : Type → Type) (σ α : Type) := ExceptT ResponseError (StateT σ m) α

/-- One step of a builder with state `σ`. -/
abbrev BuildStep (σ α : Type) := BuildStepT Id σ α

/-- Builds an output `ρ` over states `σ`, with effects in `m`. -/
structure OutputBuilderT (m : Type → Type) [Monad m] (σ ρ : Type) where
  start : Head → m σ
  /-- Takes status and headers. Takes nothing unless the builder says so. -/
  bindHead : Head → BuildStepT m σ Unit := fun _ => pure ()
  /-- Takes the document of a body that holds one. -/
  bindDocument : Json → BuildStepT m σ Unit := fun _ => pure ()
  /-- Takes the bytes of a body that is no document. -/
  bindPayload : Bytes → BuildStepT m σ Unit := fun bytes =>
    throw (.unsupportedPayload
      (bytes.length.repr ++ " byte raw payload for a shape without a payload member"))
  build : σ → m ρ

/-- Builds an output `ρ` over states `σ`. -/
abbrev OutputBuilder (σ ρ : Type) := OutputBuilderT Id σ ρ

namespace OutputBuilder

/-- Replaces the state by what a shape binds; a failure leaves it as it was. -/
def bindShape {σ : Type} (s : Shape σ) (v : Json) : BuildStep σ Unit :=
  match s.bind v with
  | .ok x => set x
  | .error e => throw (.json e)

/-- Builds the value of a shape from the document. -/
def ofShape {σ : Type} (s : Shape σ) : OutputBuilder σ σ where
  start _ := s.blank
  bindDocument := bindShape s
  build x := x

/-- Builds nothing, from any response. -/
def discard : OutputBuilder Unit Unit where
  start _ := ()
  bindPayload _ := pure ()
  build x := x

end OutputBuilder

/-- An output, the head of its response, and the body if that was not read. -/
structure Received (ρ : Type) where
  result : ρ
  head : Head
  body : Option Body

/-- The identifier that a service gave to a request: the value of the first of
its headers that there is, if that is text. -/
def requestId? (headers : Headers) : Option String :=
  (HeaderName.requestIds.findSome? headers.first?).bind (·.text?)

end ServiceCodec
